import Tenodera.Agent.ShellScripts

/-!
# The passwords of accounts

`create_user`, `set_password` and `set_password_internal` of the user management, up to the text
that they pipe to `chpasswd`.  `one_record_iff` says when that text is one record.
-/

namespace Tenodera.Agent.Host.Users

open Protocol Effect

/-! ## Validation -/

def isLowerAscii (c : Char) : Bool := 'a' ≤ c && c ≤ 'z'

/-- `is_valid_username`; a dollar sign may come last. -/
def isValidUsername (name : String) : Bool :=
  if name.utf8ByteSize > 32 then false
  else
    match name.toList with
    | [] => false
    | first :: rest =>
      let body := if (first :: rest).getLast? = some '$' then rest.dropLast else rest
      (isLowerAscii first || first = '_') &&
        body.all fun c => isLowerAscii c || c.isDigit || c = '_' || c = '-'

/-- `is_valid_groupname`. -/
def isValidGroupname (name : String) : Bool := isValidUsername name

/-- `is_valid_path`. -/
def isValidPath (path : String) : Bool :=
  Text.startsWith path "/" && !Text.contains path ".." && !Text.hasNul path &&
    path.utf8ByteSize ≤ 4096

/-- `is_valid_gecos`. -/
def isValidGecos (gecos : String) : Bool :=
  if gecos.utf8ByteSize > 256 then false
  else ':' ∉ gecos.toList && '\n' ∉ gecos.toList && '\r' ∉ gecos.toList && !Text.hasNul gecos

/-- `Path::exists`; no file has a name with a NUL. -/
def pathExists (path : String) : HostM Bool :=
  if Text.hasNul path then pure false else perform (.pathExists path)

def existingShells : List String → HostM (List String)
  | [] => pure []
  | l :: ls => do
    let line := Text.trim l
    if line = "" ∨ Text.startsWith line "#" then existingShells ls
    else if ← pathExists line then return line :: (← existingShells ls)
    else existingShells ls

/-- The entries that are always added to the shells. -/
def addNologin (shells : List String) : List String → HostM (List String)
  | [] => pure shells
  | nologin :: rest => do
    if nologin ∉ shells then
      if ← pathExists nologin then addNologin (shells ++ [nologin]) rest
      else addNologin shells rest
    else addNologin shells rest

/-- `read_valid_shells`. -/
def readValidShells : HostM (List String) := do
  let shells ← match ← perform (.readFile "/etc/shells") with
    | some content => existingShells (Text.lines content)
    | none => pure []
  addNologin shells ["/usr/sbin/nologin", "/sbin/nologin", "/bin/false"]

/-- `is_valid_shell`. -/
def isValidShell (shell : String) : HostM Bool := do return shell ∈ (← readValidShells)

/-! ## Passwords -/

/-- `set_password_internal`. -/
def setPasswordInternal (username newPw : String) (forceChange : Bool) (user sudoPw : String) :
    HostM Value := do
  let input := username ++ ":" ++ newPw ++ "\n"
  let result ← sudoStdinWriteAsUser user sudoPw ["chpasswd"] input
  if (result.get "error").isSome then return result
  else if forceChange then
    let chageResult ← sudoAsUser user sudoPw ["chage", "-d", "0", "--", username]
    return if (chageResult.get "error").isSome then chageResult else okValue
  else return okValue

/-- `set_password`. -/
def setPassword (username newPw : String) (forceChange : Bool) (user sudoPw : String) :
    HostM Value :=
  if ¬ isValidUsername username then pure (errorValue "Invalid username")
  else if newPw = "" then pure (errorValue "New password cannot be empty")
  else setPasswordInternal username newPw forceChange user sudoPw

/-! ## Accounts -/

def boolField (data : Value) (key : String) (default : Bool) : Bool :=
  ((data.get key).bind Value.asBool).getD default

/-- `extract_string_array`. -/
def stringArray (data : Value) (key : String) : List String :=
  (((data.get key).bind Value.asArray).map fun items => items.filterMap Value.asStr).getD []

/-- The options of `useradd`, from the fields of the request in turn. -/
def useraddArgs (data : Value) : HostM (Except String (List String)) := do
  let gecos := strField data "gecos"
  let home := strField data "home"
  let shell := strField data "shell"
  let groups := stringArray data "groups"
  let args := "useradd" :: if boolField data "create_home" true then ["-m"] else []
  if gecos ≠ "" ∧ ¬ isValidGecos gecos then
    return .error ("Invalid full name. Must not contain ':', newlines, or null bytes, " ++
      "and must be at most 256 characters.")
  let args := args ++ if gecos = "" then [] else ["-c", gecos]
  if home ≠ "" ∧ ¬ isValidPath home then return .error "Invalid home directory path"
  let args := args ++ if home = "" then [] else ["-d", home]
  let shellOk ← if shell = "" then pure true else isValidShell shell
  if ¬ shellOk then
    return .error ("Invalid shell: " ++ shell ++
      ". Must be listed in /etc/shells and exist on this host.")
  let args := args ++ if shell = "" then [] else ["-s", shell]
  match groups.find? fun g => !isValidGroupname g with
  | some g => return .error ("Invalid group name: " ++ g)
  | none => return .ok (args ++ if groups = [] then [] else ["-G", ",".intercalate groups])

/-- `create_user`. -/
def createUser (data : Value) (user password : String) : HostM Value :=
  let username := strField data "username"
  let newPassword := strField data "new_password"
  if ¬ isValidUsername username then
    pure (errorValue ("Invalid username. Must be 1-32 chars, start with lowercase letter or _, " ++
      "contain only lowercase letters, digits, hyphens, underscores."))
  else do
    match ← useraddArgs data with
    | .error e => return errorValue e
    | .ok args =>
      let result ← sudoAsUser user password (args ++ ["--", username])
      if (result.get "error").isSome then return result
      else if newPassword ≠ "" then
        let pwResult ← setPasswordInternal username newPassword
          (boolField data "force_change" false) user password
        return if (pwResult.get "error").isSome then pwResult else okValue
      else return okValue

/-! ## What `chpasswd` reads -/

/-- A name and a password, split at the first colon. -/
def splitColon (line : List Char) : List Char × Option (List Char) :=
  if ':' ∈ line then
    (line.takeWhile (· ≠ ':'), some ((line.dropWhile (· ≠ ':')).drop 1))
  else (line, none)

/-- The records of a text, each of which ends at a newline. -/
def records (text : List Char) : List (List Char × Option (List Char)) :=
  let parts := text.splitOn '\n'
  (parts.dropLast ++ (parts.getLast?.filter (· ≠ [])).toList).map splitColon

section

variable {name pw : List Char}

theorem splitColon_append (h : ':' ∉ name) (pw : List Char) :
    splitColon (name ++ ':' :: pw) = (name, some pw) := by
  have hname : ∀ c ∈ name, (decide (c ≠ ':')) = true := fun c hc =>
    decide_eq_true fun hcolon => h (hcolon ▸ hc)
  rw [splitColon, if_pos (by simp), List.takeWhile_append_of_pos hname,
    List.dropWhile_append_of_pos hname]
  simp

theorem records_append_newline {l : List Char} (h : '\n' ∉ l) (rest : List Char) :
    records (l ++ '\n' :: rest) = splitColon l :: records rest := by
  have hne : rest.splitOn '\n' ≠ [] := List.splitOn_ne_nil '\n' rest
  rw [records, List.splitOn_append_cons_self_of_not_mem h]
  rw [List.dropLast_cons_of_ne_nil hne, List.getLast?_cons_of_ne_nil hne, List.cons_append,
    List.map_cons]
  rfl

/-- The text for a name and a password is their record iff the password ends at the first
newline. -/
theorem records_iff (hcolon : ':' ∉ name) (hname : '\n' ∉ name) :
    records (name ++ ':' :: (pw ++ ['\n'])) = [(name, some pw)] ↔ '\n' ∉ pw := by
  have hline {a : List Char} (ha : '\n' ∉ a) : '\n' ∉ name ++ ':' :: a := by
    simp [hname, ha]
  constructor
  · intro h hmem
    obtain ⟨a, b, rfl, ha⟩ := List.eq_append_cons_of_mem hmem
    have htext : name ++ ':' :: (a ++ '\n' :: b ++ ['\n']) =
        (name ++ ':' :: a) ++ '\n' :: (b ++ ['\n']) := by simp
    rw [htext, records_append_newline (hline ha), splitColon_append hcolon] at h
    have hpw : a = a ++ '\n' :: b := by
      have hhead := (List.cons.inj h).1
      exact Option.some.inj (congrArg Prod.snd hhead)
    have hlength := congrArg List.length hpw
    simp at hlength
  · intro h
    have htext : name ++ ':' :: (pw ++ ['\n']) = (name ++ ':' :: pw) ++ '\n' :: [] := by simp
    rw [htext, records_append_newline (hline h), splitColon_append hcolon]
    rfl

end

/-! ## The text for `chpasswd` -/

/-- The script that a command hands to a shell. -/
def shellScript (argv : List String) : Option String :=
  match argv.reverse with
  | script :: "-c" :: "sh" :: _ => some script
  | _ => none

/-- Whatever is piped to `chpasswd` is one record, for this name with this password. -/
def SetsOnly (name pw : String) : Op → Prop
  | .run c => ∀ script (text : String), shellScript c.argv = some script →
      scriptProcess script [] = some ⟨["chpasswd"], Utf8.bytes text.toList⟩ →
      records text.toList = [(name.toList, some pw.toList)]
  | _ => True

section

variable {name pw username newPw user sudoPw password : String} {args : List String}
  {forceChange : Bool} {data : Value}

theorem setsOnly_run {c : Command} (h : shellScript c.argv = none) : SetsOnly name pw (.run c) := by
  intro script text hscript
  rw [h] at hscript
  cases hscript

theorem only_sudoAsUser (h : ∀ input, SetsOnly name pw (.run ⟨some user,
    "sudo" :: "-S" :: "-k" :: args, some input⟩)) :
    (sudoAsUser user password args).Only (SetsOnly name pw) := by
  intro o ho
  cases o with
  | run c =>
    obtain ⟨-, rfl⟩ := asks_sudoAsUser_iff.1 ho
    exact h _
  | _ => trivial

/-- The script for a text is lawful iff the text is. -/
theorem setsOnly_script_iff {text : String} {runAs stdin : Option String} :
    SetsOnly name pw (.run ⟨runAs, ["sudo", "-S", "-k", "sh", "-c",
      decodeInto (" ".intercalate (["chpasswd"].map shellEscape)) text], stdin⟩) ↔
    records text.toList = [(name.toList, some pw.toList)] := by
  have hexecutes : Executes _ ["chpasswd"] text :=
    executes_decodeInto (pipeline_shellEscape "chpasswd" [])
  have hprocess := hexecutes.2 []
  constructor
  · intro h
    exact h _ text rfl hprocess
  · intro h script text' hscript hprocess'
    cases Option.some.inj hscript
    rw [hprocess] at hprocess'
    have hbytes := congrArg Shell.Process.stdin (Option.some.inj hprocess')
    rwa [← Utf8.bytes_inj.1 hbytes]

/-- The characters of names. -/
def isNameChar (c : Char) : Bool :=
  isLowerAscii c || c.isDigit || c = '_' || c = '-' || c = '$'

theorem isNameChar_of_mem {c : Char} (h : isValidUsername username) (hc : c ∈ username.toList) :
    isNameChar c := by
  unfold isValidUsername at h
  split_ifs at h
  cases hlist : username.toList with
  | nil => rw [hlist] at hc; cases hc
  | cons first rest =>
    rw [hlist] at h hc
    simp only [Bool.and_eq_true, List.all_eq_true] at h
    obtain ⟨hfirst, hbody⟩ := h
    rcases List.mem_cons.1 hc with rfl | hc
    · rcases Bool.or_eq_true_iff.1 hfirst with h | h <;> simp [isNameChar, h]
    by_cases hlast : (first :: rest).getLast? = some '$'
    · rw [if_pos hlast] at hbody
      have hne : rest ≠ [] := List.ne_nil_of_mem hc
      rw [List.getLast?_cons_of_ne_nil hne, List.getLast?_eq_some_getLast hne] at hlast
      rw [← List.dropLast_append_getLast hne, Option.some.inj hlast] at hc
      rcases List.mem_append.1 hc with hc | hc
      · simp [isNameChar, hbody c hc]
      · simp [isNameChar, List.mem_singleton.1 hc]
    · rw [if_neg hlast] at hbody
      simp [isNameChar, hbody c hc]

theorem notMem_of_isValidUsername {c : Char} (h : isValidUsername username)
    (hc : isNameChar c = false) : c ∉ username.toList := fun hmem => by
  rw [isNameChar_of_mem h hmem] at hc
  cases hc

/-- The text for `chpasswd` is one record iff the password has no newline. -/
theorem records_input_iff (h : isValidUsername username) :
    records (username ++ ":" ++ newPw ++ "\n").toList =
      [(username.toList, some newPw.toList)] ↔ '\n' ∉ newPw.toList := by
  have hcolon : ':' ∉ username.toList := notMem_of_isValidUsername h (by decide)
  have hnewline : '\n' ∉ username.toList := notMem_of_isValidUsername h (by decide)
  rw [← records_iff hcolon hnewline]
  simp [String.toList_append]

/-- The request reaches `chpasswd`. -/
def AcceptsPassword (username newPw user : String) : Prop :=
  isValidUsername username ∧ newPw ≠ "" ∧ Text.hasNul user = false

/-- The request for an account reaches `chpasswd` on some host. -/
def AcceptsAccount (data : Value) (user : String) : Prop :=
  AcceptsPassword (strField data "username") (strField data "new_password") user ∧
    ∃ args, (useraddArgs data).Returns (.ok args) ∧ args.any Text.hasNul = false

theorem only_setPasswordInternal_iff (h : isValidUsername username) :
    (setPasswordInternal username newPw forceChange user sudoPw).Only (SetsOnly username newPw) ↔
      (Text.hasNul user = false → '\n' ∉ newPw.toList) := by
  have hchage : (sudoAsUser user sudoPw ["chage", "-d", "0", "--", username]).Only
      (SetsOnly username newPw) := only_sudoAsUser fun _ => setsOnly_run rfl
  have hrest (result : Value) : (if (result.get "error").isSome then pure result
      else if forceChange then do
        let chageResult ← sudoAsUser user sudoPw ["chage", "-d", "0", "--", username]
        return if (chageResult.get "error").isSome then chageResult else okValue
      else return okValue : HostM Value).Only (SetsOnly username newPw) :=
    Prog.Only.ite (fun _ => Prog.only_pure _) fun _ =>
      Prog.Only.ite (fun _ => hchage.bind fun _ => Prog.only_pure _) fun _ => Prog.only_pure _
  have hnul : Text.hasNul (" ".intercalate (["chpasswd"].map shellEscape)) = false := by decide
  unfold setPasswordInternal
  rw [Prog.only_bind_iff, and_iff_left fun result _ => hrest result, ← records_input_iff h]
  constructor
  · intro honly hu
    have hasks : (sudoStdinWriteAsUser user sudoPw ["chpasswd"]
        (username ++ ":" ++ newPw ++ "\n")).Asks (.run _) :=
      asks_sudoStdinWriteAsUser_iff.2 ⟨⟨hu, hnul⟩, rfl⟩
    exact setsOnly_script_iff.1 (honly _ hasks)
  · intro hrecords o ho
    cases o with
    | run c =>
      obtain ⟨⟨hu, -⟩, rfl⟩ := asks_sudoStdinWriteAsUser_iff.1 ho
      exact setsOnly_script_iff.2 (hrecords hu)
    | _ => trivial

theorem only_setPassword_iff :
    (setPassword username newPw forceChange user sudoPw).Only (SetsOnly username newPw) ↔
      (AcceptsPassword username newPw user → '\n' ∉ newPw.toList) := by
  unfold setPassword AcceptsPassword
  by_cases h : isValidUsername username
  swap
  · simp [h]
  by_cases hpw : newPw = ""
  · rw [if_neg (not_not.2 h), if_pos hpw]
    exact iff_of_true (Prog.only_pure _) fun haccepts => absurd hpw haccepts.2.1
  rw [if_neg (not_not.2 h), if_neg hpw, only_setPasswordInternal_iff h]
  simp [h, hpw]

/-- The operations that read the host. -/
def Op.Reads : Op → Prop
  | .readFile _ | .pathExists _ => True
  | _ => False

theorem reads_pathExists (path : String) : (pathExists path).Only Op.Reads := by
  unfold pathExists
  split_ifs
  · exact Prog.only_pure _
  · exact Prog.only_perform.2 trivial

theorem reads_existingShells (ls : List String) : (existingShells ls).Only Op.Reads := by
  induction ls with
  | nil => exact Prog.only_pure _
  | cons l ls ih =>
    refine Prog.Only.ite (fun _ => ih) fun _ => (reads_pathExists _).bind fun found => ?_
    exact Prog.Only.ite (fun _ => ih.bind fun _ => Prog.only_pure _) fun _ => ih

theorem reads_addNologin (shells rest : List String) : (addNologin shells rest).Only Op.Reads := by
  induction rest generalizing shells with
  | nil => exact Prog.only_pure _
  | cons nologin rest ih =>
    refine Prog.Only.ite (fun _ => (reads_pathExists _).bind fun found => ?_) fun _ => ih _
    exact Prog.Only.ite (fun _ => ih _) fun _ => ih _

theorem reads_isValidShell (shell : String) : (isValidShell shell).Only Op.Reads := by
  refine Prog.Only.bind ?_ fun _ => Prog.only_pure _
  refine Prog.Only.bind (Prog.only_perform.2 trivial) ?_
  rintro (_ | content)
  · exact Prog.Only.bind (Prog.only_pure _) fun _ => reads_addNologin _ _
  · exact Prog.Only.bind (reads_existingShells _) fun _ => reads_addNologin _ _

theorem reads_useraddArgs (data : Value) : (useraddArgs data).Only Op.Reads := by
  unfold useraddArgs
  refine Prog.Only.ite (fun _ => Prog.only_pure _) fun _ => ?_
  refine Prog.Only.ite (fun _ => Prog.only_pure _) fun _ => ?_
  refine Prog.Only.ite (fun _ => Prog.Only.bind (Prog.only_pure _) fun shellOk => ?_)
    fun _ => (reads_isValidShell _).bind fun shellOk => ?_
  all_goals
    refine Prog.Only.ite (fun _ => Prog.only_pure _) fun _ => ?_
    generalize (stringArray data "groups").find? _ = found
    cases found <;> exact Prog.only_pure _

/-- A command that succeeded has been started. -/
theorem nulFree_of_returns_sudoAsUser {result : Value}
    (h : (sudoAsUser user password args).Returns result)
    (hok : (result.get "error").isSome = false) :
    Text.hasNul user = false ∧ args.any Text.hasNul = false := by
  unfold sudoAsUser at h
  obtain ⟨r, hr, h⟩ := (Prog.returns_bind _ _ _).1 h
  rcases r with _ | pwd
  · cases h
    cases hok
  have hu : ¬ Text.hasNul user := fun hnul => by cases returns_lookupUser_iff.1 hr hnul
  refine ⟨Bool.eq_false_iff.2 hu, ?_⟩
  by_contra hargs
  have hany : ("sudo" :: "-S" :: "-k" :: args).any Text.hasNul = true :=
    Bool.eq_true_of_not_eq_false hargs
  obtain ⟨out, hout, h⟩ := (Prog.returns_bind _ _ _).1 h
  rw [run, if_pos hany] at hout
  cases hout
  cases h
  cases hok

theorem returns_sudoAsUser_ok (hu : Text.hasNul user = false)
    (hargs : args.any Text.hasNul = false) :
    (sudoAsUser user password args).Returns
      (.object [("ok", .bool true), ("output", .string (Text.trim ""))]) := by
  have hknown : (lookupUser user).Returns (some ⟨0, 0, "", ""⟩) :=
    returns_lookupUser_iff.2 fun hnul => by rw [hu] at hnul; cases hnul
  have hany : ("sudo" :: "-S" :: "-k" :: args).any Text.hasNul = false := hargs
  refine (Prog.returns_bind _ _ _).2 ⟨_, hknown, ?_⟩
  exact (Prog.returns_bind _ _ _).2 ⟨_, returns_run hany (.ok ⟨true, "", "", false⟩), rfl⟩

theorem only_createUser_iff :
    (createUser data user sudoPw).Only
        (SetsOnly (strField data "username") (strField data "new_password")) ↔
      (AcceptsAccount data user → '\n' ∉ (strField data "new_password").toList) := by
  set username := strField data "username"
  set newPw := strField data "new_password"
  by_cases h : isValidUsername username
  swap
  · unfold createUser
    rw [if_pos h]
    exact iff_of_true (Prog.only_pure _) fun haccepts => absurd haccepts.1.1 h
  have hreads : (useraddArgs data).Only (SetsOnly username newPw) := fun o ho => by
    have hop := reads_useraddArgs data o ho
    cases o with
    | run c => cases hop
    | _ => trivial
  have huseradd (args : List String) : (sudoAsUser user sudoPw (args ++ ["--", username])).Only
      (SetsOnly username newPw) :=
    only_sudoAsUser fun input => setsOnly_run (by simp [shellScript])
  have hnul (args : List String) :
      (args ++ ["--", username]).any Text.hasNul = args.any Text.hasNul := by
    have husername : Text.hasNul username = false :=
      decide_eq_false (notMem_of_isValidUsername h (by decide))
    have hdashes : Text.hasNul "--" = false := by decide
    simp [husername, hdashes]
  unfold createUser
  rw [if_neg (not_not.2 h), Prog.only_bind_iff, and_iff_right hreads]
  constructor
  · rintro honly ⟨⟨-, hpw, hu⟩, args, hargs, hfree⟩
    have hthen := (Prog.only_bind_iff.1 (honly _ hargs)).2 _
      (returns_sudoAsUser_ok hu (by rw [hnul, hfree]))
    rw [if_neg (by decide), if_pos hpw] at hthen
    exact (only_setPasswordInternal_iff h).1 (Prog.only_bind_iff.1 hthen).1 hu
  · rintro hpw (e | args) hargs
    · exact Prog.only_pure _
    refine Prog.only_bind_iff.2 ⟨huseradd args, fun result hresult => ?_⟩
    by_cases herr : (result.get "error").isSome
    · rw [if_pos herr]
      exact Prog.only_pure _
    rw [if_neg herr]
    refine Prog.Only.ite (fun hne => ?_) fun _ => Prog.only_pure _
    obtain ⟨hu, hfree⟩ := nulFree_of_returns_sudoAsUser hresult (Bool.eq_false_iff.2 herr)
    rw [hnul] at hfree
    refine Prog.Only.bind ((only_setPasswordInternal_iff h).2 fun _ => ?_) fun _ =>
      Prog.only_pure _
    exact hpw ⟨⟨h, hne, hu⟩, args, hargs, hfree⟩

end

/-- Whatever `set_password` and `create_user` pipe to `chpasswd` is one record, for the name and the
password of the request, iff the password of a request that gets so far has no newline. -/
theorem one_record_iff (data : Value) (username newPw user sudoPw : String) (forceChange : Bool) :
    ((setPassword username newPw forceChange user sudoPw).Only (SetsOnly username newPw) ↔
      (AcceptsPassword username newPw user → '\n' ∉ newPw.toList)) ∧
    ((createUser data user sudoPw).Only
        (SetsOnly (strField data "username") (strField data "new_password")) ↔
      (AcceptsAccount data user → '\n' ∉ (strField data "new_password").toList)) :=
  ⟨only_setPassword_iff, only_createUser_iff⟩

/-- A password for bob that also sets the one of root. -/
theorem second_record :
    records "bob:pw\nroot:evil\n".toList =
      [("bob".toList, some "pw".toList), ("root".toList, some "evil".toList)] ∧
    ¬ (setPassword "bob" "pw\nroot:evil" false "admin" "secret").Only
      (SetsOnly "bob" "pw\nroot:evil") := by
  refine ⟨by decide, fun h => ?_⟩
  have hmem : '\n' ∈ "pw\nroot:evil".toList := by decide
  exact only_setPassword_iff.1 h ⟨by decide, by decide, by decide⟩ hmem

end Tenodera.Agent.Host.Users
