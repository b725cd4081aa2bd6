import Tenodera.Agent.Managers
import Tenodera.Agent.NumericParams
import Tenodera.Lib.Getopt

/-!
# The management of accounts

The actions of `users.manage` that change something, up to the command lines of `useradd`,
`usermod`, `userdel`, `chage`, `groupadd` and `groupdel`, and what these programs read out of them.
`meant_of_asks` says that they read what the request has in its fields, so that nothing in a field
is taken for something else; what the guards are for holds over any run: `root_of_run`.
-/

namespace Tenodera.Agent.Host.Users

open Protocol Effect Getopt
open NumericParams (createGroup createGroupAction)

/-! ## The actions -/

/-- A field that is a string. -/
def optField (data : Value) (key : String) : Option String := (data.get key).bind Value.asStr

/-- The strings of a field that is an array. -/
def optArray (data : Value) (key : String) : Option (List String) :=
  ((data.get key).bind Value.asArray).map fun items => items.filterMap Value.asStr

/-- An option with its argument when there is one. -/
def optWords (option : String) : Option String → List String
  | some value => [option, value]
  | none => []

/-- The options of `usermod`, from the fields of the request in turn. -/
def usermodArgs (data : Value) : HostM (Except String (List String)) := do
  let gecos := optField data "gecos"
  let shell := optField data "shell"
  let home := optField data "home"
  let groups := optArray data "groups"
  if gecos.any fun g => !isValidGecos g then
    return .error ("Invalid full name. Must not contain ':', newlines, or null bytes, " ++
      "and must be at most 256 characters.")
  let args := "usermod" :: optWords "-c" gecos
  let shellOk ← match shell with
    | some shell => isValidShell shell
    | none => pure true
  if ¬ shellOk then
    return .error ("Invalid shell: " ++ shell.getD "" ++
      ". Must be listed in /etc/shells and exist on this host.")
  let args := args ++ optWords "-s" shell
  if home.any fun h => !isValidPath h then return .error "Invalid home directory path"
  let args := args ++ optWords "-d" home ++
    if home.isSome ∧ boolField data "move_home" false then ["-m"] else []
  match (groups.getD []).find? fun g => !isValidGroupname g with
  | some g => return .error ("Invalid group name: " ++ g)
  | none =>
    if gecos = none ∧ shell = none ∧ home = none ∧ groups = none then
      return .error "No changes specified"
    else return .ok (args ++ optWords "-G" (groups.map ",".intercalate))

/-- `modify_user`. -/
def modifyUser (data : Value) (user password : String) : HostM Value :=
  let username := strField data "username"
  if ¬ isValidUsername username then pure (errorValue "Invalid username")
  else do
    match ← usermodArgs data with
    | .error e => return errorValue e
    | .ok args => sudoAsUser user password (args ++ ["--", username])

/-- `delete_user`. -/
def deleteUser (username : String) (removeHome : Bool) (user password : String) : HostM Value :=
  if ¬ isValidUsername username then pure (errorValue "Invalid username")
  else if username = "root" then pure (errorValue "Cannot delete root account")
  else
    sudoAsUser user password
      ("userdel" :: (if removeHome then ["-r"] else []) ++ ["--", username])

/-- `lock_user`. -/
def lockUser (username user password : String) : HostM Value :=
  if ¬ isValidUsername username then pure (errorValue "Invalid username")
  else if username = "root" then pure (errorValue "Cannot lock root account")
  else sudoAsUser user password ["usermod", "-L", "--", username]

/-- `unlock_user`. -/
def unlockUser (username user password : String) : HostM Value :=
  if ¬ isValidUsername username then pure (errorValue "Invalid username")
  else sudoAsUser user password ["usermod", "-U", "--", username]

def systemGroups : List String := ["root", "wheel", "sudo", "adm"]

/-- `delete_group`. -/
def deleteGroup (name user password : String) : HostM Value :=
  if ¬ isValidGroupname name then pure (errorValue "Invalid group name")
  else if name ∈ systemGroups then
    pure (errorValue ("Cannot delete system group: " ++ name))
  else sudoAsUser user password ["groupdel", "--", name]

/-- An action with its entry in the audit log. -/
def audited (user action target : String) (p : HostM Value) : HostM Value := do
  let r ← p
  let _ ← perform (.audit user action target (r.get "error").isNone "")
  return r

/-- The actions behind `require_admin`. -/
def accountAction (data : Value) : HostM Value :=
  let user := strField data "_user"
  let password := strField data "password"
  let target := strField data "username"
  match strField data "action" with
  | "create" => audited user "user.create" target (createUser data user password)
  | "modify" => audited user "user.modify" target (modifyUser data user password)
  | "delete" =>
    audited user "user.delete" target
      (deleteUser target (boolField data "remove_home" false) user password)
  | "lock" => audited user "user.lock" target (lockUser target user password)
  | "unlock" => audited user "user.unlock" target (unlockUser target user password)
  | "set_password" =>
    audited user "user.set_password" target
      (setPassword target (strField data "new_password") (boolField data "force_change" false) user
        password)
  | "create_group" => createGroupAction data
  | "delete_group" =>
    audited user "group.delete" (strField data "name")
      (deleteGroup (strField data "name") user password)
  | action => pure (errorValue ("unknown action: " ++ action))

/-! ## What the programs read -/

/-- What a command line makes of the accounts. -/
inductive Change
  | create (name : String) (createHome : Bool) (gecos home shell : Option String)
    (groups : List String)
  | modify (name : String) (gecos home shell : Option String) (moveHome : Bool)
    (groups : Option (List String))
  | delete (name : String) (removeHome : Bool)
  | lock (name : String)
  | unlock (name : String)
  | expire (name : String)
  | createGroup (name : String) (gid : Option String)
  | deleteGroup (name : String)
  deriving DecidableEq

/-- The names in an argument. -/
def listed (s : String) : List String :=
  if s = "" then [] else (s.toList.splitOn ',').map String.ofList

/-- Of an option that is given twice the last argument counts. -/
def argument (opts : List Opt) (c : Char) : Option String :=
  (opts.reverse.find? fun o => o.flag = .short c).bind Opt.value

def isGiven (opts : List Opt) (c : Char) : Bool := opts.any fun o => o.flag = .short c

/-- What the programs do, by their manual pages. -/
def Change.read (program : String) (opts : List Opt) : List String → Option Change
  | [name] =>
    match program with
    | "useradd" =>
      some (.create name (isGiven opts 'm') (argument opts 'c') (argument opts 'd')
        (argument opts 's') (((argument opts 'G').map listed).getD []))
    | "usermod" =>
      if isGiven opts 'L' then some (.lock name)
      else if isGiven opts 'U' then some (.unlock name)
      else
        some (.modify name (argument opts 'c') (argument opts 'd') (argument opts 's')
          (isGiven opts 'm') ((argument opts 'G').map listed))
    | "userdel" => some (.delete name (isGiven opts 'r'))
    | "chage" => if argument opts 'd' = some "0" then some (.expire name) else none
    | "groupadd" => some (.createGroup name (argument opts 'g'))
    | "groupdel" => some (.deleteGroup name)
    | _ => none
  | _ => none

/-- The options of the programs, as far as the agent uses them. -/
structure Documented (spec : String → Spec) : Prop where
  sudoFlags : ∀ c ∈ ['S', 'k'], spec "sudo" (.short c) = some false
  useraddFlag : spec "useradd" (.short 'm') = some false
  useraddArgument : ∀ c ∈ ['c', 'd', 's', 'G'], spec "useradd" (.short c) = some true
  usermodFlags : ∀ c ∈ ['m', 'L', 'U'], spec "usermod" (.short c) = some false
  usermodArgument : ∀ c ∈ ['c', 'd', 's', 'G'], spec "usermod" (.short c) = some true
  userdelFlag : spec "userdel" (.short 'r') = some false
  chageArgument : spec "chage" (.short 'd') = some true
  groupaddArgument : spec "groupadd" (.short 'g') = some true

/-- A command line that `sudo` reads up to the program, and the program from there. -/
def readCommand (spec : String → Spec) : List String → Option Change
  | "sudo" :: words =>
    (parseFirst (spec "sudo") words).bind fun first =>
      match first.2 with
      | program :: words =>
        (parse (spec program) words).bind fun r => Change.read program r.1 r.2
      | [] => none
  | _ => none

/-! ## What a request has in its fields -/

def nonempty (s : String) : Option String := if s = "" then none else some s

/-- The change is the one that the request asks for. -/
def Requests (data : Value) : Change → Prop
  | .create name createHome gecos home shell groups =>
    strField data "action" = "create" ∧ name = strField data "username" ∧ isValidUsername name ∧
      createHome = boolField data "create_home" true ∧ gecos = nonempty (strField data "gecos") ∧
        home = nonempty (strField data "home") ∧ shell = nonempty (strField data "shell") ∧
          groups = stringArray data "groups"
  | .modify name gecos home shell moveHome groups =>
    strField data "action" = "modify" ∧ name = strField data "username" ∧ isValidUsername name ∧
      gecos = optField data "gecos" ∧ home = optField data "home" ∧
        shell = optField data "shell" ∧
          moveHome = (home.isSome && boolField data "move_home" false) ∧
            groups = optArray data "groups"
  | .delete name removeHome =>
    strField data "action" = "delete" ∧ name = strField data "username" ∧ isValidUsername name ∧
      removeHome = boolField data "remove_home" false ∧ name ≠ "root"
  | .lock name =>
    strField data "action" = "lock" ∧ name = strField data "username" ∧ isValidUsername name ∧
      name ≠ "root"
  | .unlock name =>
    strField data "action" = "unlock" ∧ name = strField data "username" ∧ isValidUsername name
  | .expire name =>
    strField data "action" ∈ ["create", "set_password"] ∧ name = strField data "username" ∧
      isValidUsername name ∧ boolField data "force_change" false = true
  | .createGroup name gid =>
    strField data "action" = "create_group" ∧ name = strField data "name" ∧
      isValidGroupname name ∧
        gid = (((data.get "gid").bind Value.asU64).map UInt64.toUInt32).map fun id =>
          decimal id.toNat
  | .deleteGroup name =>
    strField data "action" = "delete_group" ∧ name = strField data "name" ∧
      isValidGroupname name ∧ name ∉ systemGroups

/-- The name and the password of the request are handed to `chpasswd`. -/
def FeedsChpasswd (data : Value) (argv : List String) : Prop :=
  argv = ["sudo", "-S", "-k", "sh", "-c",
    decodeInto (" ".intercalate (["chpasswd"].map shellEscape))
      (strField data "username" ++ ":" ++ strField data "new_password" ++ "\n")]

/-- The operation changes nothing, or it is a command as the user of the request that feeds
`chpasswd` or makes the change that is asked for. -/
def Meant (spec : String → Spec) (data : Value) (o : Op) : Prop :=
  o.changesState = true → ∃ c, o = .run c ∧ c.runAs = some (strField data "_user") ∧
    (FeedsChpasswd data c.argv ∨
      ∃ change, readCommand spec c.argv = some change ∧ Requests data change)

/-! ## The command lines -/

/-- An option with its argument when there is one, before it is put into words. -/
def given (c : Char) : Option String → List (Char × Option String)
  | some value => [(c, some value)]
  | none => []

def flag (c : Char) (b : Bool) : List (Char × Option String) := if b then [(c, none)] else []

/-- The names of groups as one argument. -/
def joined (groups : List String) : Option String :=
  if groups = [] then none else some (",".intercalate groups)

def useraddOptions (data : Value) : List (Char × Option String) :=
  flag 'm' (boolField data "create_home" true) ++ given 'c' (nonempty (strField data "gecos")) ++
    given 'd' (nonempty (strField data "home")) ++ given 's' (nonempty (strField data "shell")) ++
      given 'G' (joined (stringArray data "groups"))

def usermodOptions (data : Value) : List (Char × Option String) :=
  given 'c' (optField data "gecos") ++ given 's' (optField data "shell") ++
    given 'd' (optField data "home") ++
      flag 'm' ((optField data "home").isSome && boolField data "move_home" false) ++
        given 'G' ((optArray data "groups").map ",".intercalate)

def rendered (opts : List (Char × Option String)) : List String :=
  opts.flatMap fun o => render o.1 o.2

section

variable {spec : String → Spec} {data : Value} {opts opts' : List (Char × Option String)}
  {program : String} {args groups : List String} {user password : String}

@[simp]
theorem rendered_append : rendered (opts ++ opts') = rendered opts ++ rendered opts' :=
  List.flatMap_append

theorem rendered_given (c : Char) (value : Option String) :
    rendered (given c value) = optWords (String.ofList ['-', c]) value := by
  cases value <;> rfl

theorem rendered_flag (c : Char) (b : Bool) :
    rendered (flag c b) = if b then [String.ofList ['-', c]] else [] := by
  cases b <;> rfl

/-- `sudo` takes no more of the words than its own options. -/
theorem readCommand_eq (hspec : Documented spec) (hprogram : classify program = .operand)
    (words : List String) : readCommand spec ("sudo" :: "-S" :: "-k" :: program :: words) =
      (parse (spec program) words).bind fun r => Change.read program r.1 r.2 := by
  have hfirst : parseFirst (spec "sudo")
      ([('S', none), ('k', none)].flatMap (fun o => render o.1 o.2) ++ program :: words) =
        some ([('S', none), ('k', none)].map opt, program :: words) := by
    refine parseFirst_render (fun o ho => ?_) hprogram _
    simp only [List.mem_cons, List.not_mem_nil, or_false] at ho
    rcases ho with rfl | rfl
    · exact ⟨by decide, hspec.sudoFlags 'S' (by simp)⟩
    · exact ⟨by decide, hspec.sudoFlags 'k' (by simp)⟩
  show (parseFirst (spec "sudo") _).bind _ = _
  rw [show ("-S" :: "-k" :: program :: words) =
    [('S', none), ('k', none)].flatMap (fun o => render o.1 o.2) ++ program :: words from rfl,
    hfirst, Option.bind_some]

theorem readCommand_sudo (hspec : Documented spec) (hprogram : classify program = .operand)
    (hopts : ∀ o ∈ opts, Takes (spec program) o) (operands : List String) :
    readCommand spec ("sudo" :: "-S" :: "-k" :: (program :: rendered opts ++ "--" :: operands)) =
      Change.read program (opts.map opt) operands := by
  rw [List.cons_append, readCommand_eq hspec hprogram, rendered, parse_render hopts,
    Option.bind_some]

/-! ## The arguments of `useradd` and `usermod` -/

theorem not_returns_error {e : String} :
    ¬ (pure (.error e) : HostM (Except String (List String))).Returns (.ok args) := by
  intro h
  cases h

theorem words_nonempty (c : Char) (s : String) :
    rendered (given c (nonempty s)) = if s = "" then [] else [String.ofList ['-', c], s] := by
  rw [rendered_given, nonempty]
  split_ifs <;> rfl

theorem words_joined (c : Char) (groups : List String) : rendered (given c (joined groups)) =
    if groups = [] then [] else [String.ofList ['-', c], ",".intercalate groups] := by
  rw [rendered_given, joined]
  split_ifs <;> rfl

theorem forall_of_find?_eq_none {p : String → Bool} (h : groups.find? (fun g => !p g) = none) :
    ∀ g ∈ groups, p g = true := by
  simpa using h

theorem rendered_useraddOptions : "useradd" :: rendered (useraddOptions data) =
    ("useradd" :: if boolField data "create_home" true then ["-m"] else []) ++
      (if strField data "gecos" = "" then [] else ["-c", strField data "gecos"]) ++
      (if strField data "home" = "" then [] else ["-d", strField data "home"]) ++
      (if strField data "shell" = "" then [] else ["-s", strField data "shell"]) ++
      (if stringArray data "groups" = [] then []
        else ["-G", ",".intercalate (stringArray data "groups")]) := by
  simp only [useraddOptions, rendered_append, rendered_flag, words_nonempty, words_joined,
    List.cons_append, List.append_assoc]

theorem eq_of_returns_useraddArgs (h : (useraddArgs data).Returns (.ok args)) :
    args = "useradd" :: rendered (useraddOptions data) ∧
      ∀ g ∈ stringArray data "groups", isValidGroupname g = true := by
  rw [rendered_useraddOptions]
  unfold useraddArgs at h
  dsimp only at h
  split at h
  · exact absurd h not_returns_error
  split at h
  · exact absurd h not_returns_error
  -- The shell is looked up only when there is one; what follows is the same.
  by_cases hshell : strField data "shell" = ""
  all_goals
    simp only [hshell, reduceIte] at h ⊢
    obtain ⟨shellOk, -, h⟩ := (Prog.returns_bind _ _ _).1 h
    split at h
    · exact absurd h not_returns_error
    split at h
    · exact absurd h not_returns_error
    next hfind => exact ⟨Except.ok.inj h, forall_of_find?_eq_none hfind⟩

theorem rendered_usermodOptions : "usermod" :: rendered (usermodOptions data) =
    ("usermod" :: optWords "-c" (optField data "gecos")) ++
      optWords "-s" (optField data "shell") ++ optWords "-d" (optField data "home") ++
      (if (optField data "home").isSome ∧ boolField data "move_home" false then ["-m"] else []) ++
      optWords "-G" ((optArray data "groups").map ",".intercalate) := by
  simp only [usermodOptions, rendered_append, rendered_flag, rendered_given, List.cons_append,
    List.append_assoc, Bool.and_eq_true]

theorem eq_of_returns_usermodArgs (h : (usermodArgs data).Returns (.ok args)) :
    args = "usermod" :: rendered (usermodOptions data) ∧
      ∀ g ∈ (optArray data "groups").getD [], isValidGroupname g = true := by
  rw [rendered_usermodOptions]
  unfold usermodArgs at h
  dsimp only at h
  split at h
  · exact absurd h not_returns_error
  cases hshell : optField data "shell"
  all_goals
    rw [hshell] at h
    obtain ⟨shellOk, -, h⟩ := (Prog.returns_bind _ _ _).1 h
    split at h
    · exact absurd h not_returns_error
    split at h
    · exact absurd h not_returns_error
    split at h
    · exact absurd h not_returns_error
    next hfind =>
      split at h
      · exact absurd h not_returns_error
      · exact ⟨Except.ok.inj h, forall_of_find?_eq_none hfind⟩

/-! ## The commands are read as they were meant -/

/-- Names of groups have no comma and are not empty. -/
theorem listed_intercalate (hvalid : ∀ g ∈ groups, isValidGroupname g = true) :
    listed (",".intercalate groups) = groups := by
  by_cases hnil : groups = []
  · rw [hnil]
    rfl
  have hsplit : (",".intercalate groups).toList.splitOn ',' = groups.map String.toList := by
    rw [String.toList_intercalate]
    refine List.splitOn_intercalate ',' (fun l hl => ?_) (by simpa using hnil)
    obtain ⟨g, hg, rfl⟩ := List.mem_map.1 hl
    exact notMem_of_isValidUsername (hvalid g hg) (by decide)
  have hne : ",".intercalate groups ≠ "" := by
    intro hempty
    rw [hempty] at hsplit
    have hgroups : groups.map String.toList = [""].map String.toList := hsplit.symm
    rw [List.map_inj_right fun _ _ => String.toList_injective] at hgroups
    exact absurd (hvalid "" (by simp [hgroups])) (by decide)
  rw [listed, if_neg hne, hsplit, List.map_map]
  exact List.map_id'' (fun g => String.ofList_toList) groups

theorem listed_joined (hvalid : ∀ g ∈ groups, isValidGroupname g = true) :
    ((joined groups).map listed).getD [] = groups := by
  unfold joined
  split_ifs with hnil
  · rw [hnil]
    rfl
  · exact listed_intercalate hvalid

theorem read_useradd (hvalid : ∀ g ∈ stringArray data "groups", isValidGroupname g = true)
    (name : String) :
    Change.read "useradd" ((useraddOptions data).map opt) [name] =
      some (.create name (boolField data "create_home" true)
        (nonempty (strField data "gecos")) (nonempty (strField data "home"))
        (nonempty (strField data "shell")) (stringArray data "groups")) := by
  have hread (m : Bool) (c d s G : Option String) :
      Change.read "useradd" ((flag 'm' m ++ given 'c' c ++ given 'd' d ++ given 's' s ++
          given 'G' G).map opt) [name] =
        some (.create name m c d s ((G.map listed).getD [])) := by
    cases m <;> cases c <;> cases d <;> cases s <;> cases G <;> rfl
  rw [useraddOptions, hread, listed_joined hvalid]

theorem read_usermod (hvalid : ∀ g ∈ (optArray data "groups").getD [], isValidGroupname g = true)
    (name : String) :
    Change.read "usermod" ((usermodOptions data).map opt) [name] =
      some (.modify name (optField data "gecos") (optField data "home") (optField data "shell")
        ((optField data "home").isSome && boolField data "move_home" false)
        (optArray data "groups")) := by
  have hread (m : Bool) (c s d G : Option String) :
      Change.read "usermod" ((given 'c' c ++ given 's' s ++ given 'd' d ++ flag 'm' m ++
          given 'G' G).map opt) [name] =
        some (.modify name c d s m (G.map listed)) := by
    cases m <;> cases c <;> cases d <;> cases s <;> cases G <;> rfl
  have hgroups : ((optArray data "groups").map ",".intercalate).map listed =
      optArray data "groups" := by
    cases hsome : optArray data "groups" with
    | none => rfl
    | some groups =>
      rw [hsome] at hvalid
      exact congrArg some (listed_intercalate hvalid)
  rw [usermodOptions, hread, hgroups]

theorem takes_given {tool : Spec} {c : Char} (h : tool (.short c) = some true) (hc : c ≠ '-')
    (value : Option String) : ∀ o ∈ given c value, Takes tool o := by
  cases value with
  | none => exact List.forall_mem_nil _
  | some v => exact List.forall_mem_singleton.2 ⟨hc, h⟩

theorem takes_flag {tool : Spec} {c : Char} (h : tool (.short c) = some false) (hc : c ≠ '-')
    (b : Bool) : ∀ o ∈ flag c b, Takes tool o := by
  cases b with
  | false => exact List.forall_mem_nil _
  | true => exact List.forall_mem_singleton.2 ⟨hc, h⟩

theorem takes_useradd (hspec : Documented spec) :
    ∀ o ∈ useraddOptions data, Takes (spec "useradd") o := by
  have harg := hspec.useraddArgument
  simp only [useraddOptions, List.forall_mem_append]
  refine ⟨⟨⟨⟨?_, ?_⟩, ?_⟩, ?_⟩, ?_⟩
  · exact takes_flag hspec.useraddFlag (by decide) _
  · exact takes_given (harg 'c' (by simp)) (by decide) _
  · exact takes_given (harg 'd' (by simp)) (by decide) _
  · exact takes_given (harg 's' (by simp)) (by decide) _
  · exact takes_given (harg 'G' (by simp)) (by decide) _

theorem takes_usermod (hspec : Documented spec) :
    ∀ o ∈ usermodOptions data, Takes (spec "usermod") o := by
  have harg := hspec.usermodArgument
  simp only [usermodOptions, List.forall_mem_append]
  refine ⟨⟨⟨⟨?_, ?_⟩, ?_⟩, ?_⟩, ?_⟩
  · exact takes_given (harg 'c' (by simp)) (by decide) _
  · exact takes_given (harg 's' (by simp)) (by decide) _
  · exact takes_given (harg 'd' (by simp)) (by decide) _
  · exact takes_flag (hspec.usermodFlags 'm' (by simp)) (by decide) _
  · exact takes_given (harg 'G' (by simp)) (by decide) _

/-! ## The operations of a request -/

/-- Which operations change something. -/
theorem meant_of_unchanging {o : Op} (h : o.changesState = false) : Meant spec data o := by
  intro hchanges
  rw [h] at hchanges
  cases hchanges

theorem only_meant_of_quiet {α : Type} {p : HostM α} (h : Quiet p) : p.Only (Meant spec data) :=
  fun o ho => meant_of_unchanging (h o ho)

theorem only_sudoAsUser_of {P : Op → Prop} (hlookup : ∀ name, P (.lookupUser name))
    (hrun : P (.run ⟨some user, "sudo" :: "-S" :: "-k" :: args, some (password ++ "\n")⟩)) :
    (sudoAsUser user password args).Only P := by
  unfold sudoAsUser lookupUser run
  refine Prog.Only.bind ?_ fun pwd => ?_
  · split_ifs
    · exact Prog.only_pure _
    · exact Prog.only_perform.2 (hlookup user)
  · cases pwd with
    | none => exact Prog.only_pure _
    | some pwd =>
      refine Prog.Only.bind ?_ fun out => ?_
      · split_ifs
        · exact Prog.only_pure _
        · exact Prog.only_perform.2 hrun
      · cases out with
        | error e => exact Prog.only_pure _
        | ok out => exact Prog.Only.ite (fun _ => Prog.only_pure _) fun _ => Prog.only_pure _

theorem only_sudoAsUser_meant {change : Change}
    (hread : readCommand spec ("sudo" :: "-S" :: "-k" :: args) = some change)
    (hrequests : Requests data change) :
    (sudoAsUser (strField data "_user") password args).Only (Meant spec data) :=
  only_sudoAsUser_of (fun _ => meant_of_unchanging rfl)
    fun _ => ⟨_, rfl, rfl, .inr ⟨change, hread, hrequests⟩⟩

theorem only_chpasswd_meant :
    (sudoStdinWriteAsUser (strField data "_user") password ["chpasswd"]
      (strField data "username" ++ ":" ++ strField data "new_password" ++ "\n")).Only
        (Meant spec data) := by
  refine Prog.Only.bind (only_sudoAsUser_of (fun _ => meant_of_unchanging rfl) fun _ =>
    ⟨_, rfl, rfl, .inl rfl⟩) fun r => ?_
  exact Prog.only_pure _

theorem only_audited {action target : String} {p : HostM Value} (h : p.Only (Meant spec data)) :
    (audited user action target p).Only (Meant spec data) :=
  h.bind fun _ => (Prog.only_perform.2 (meant_of_unchanging rfl)).bind fun _ => Prog.only_pure _

theorem only_setPasswordInternal_meant (hspec : Documented spec)
    (haction : strField data "action" ∈ ["create", "set_password"])
    (hvalid : isValidUsername (strField data "username")) :
    (setPasswordInternal (strField data "username") (strField data "new_password")
      (boolField data "force_change" false) (strField data "_user") password).Only
        (Meant spec data) := by
  refine only_chpasswd_meant.bind fun result => ?_
  refine Prog.Only.ite (fun _ => Prog.only_pure _) fun _ => ?_
  refine Prog.Only.ite (fun hforce => ?_) fun _ => Prog.only_pure _
  have hread : readCommand spec ["sudo", "-S", "-k", "chage", "-d", "0", "--",
      strField data "username"] = some (.expire (strField data "username")) := by
    have hargument : ∀ o ∈ given 'd' (some "0"), Takes (spec "chage") o :=
      takes_given hspec.chageArgument (by decide) _
    exact (readCommand_sudo hspec (by decide) hargument [strField data "username"]).trans rfl
  exact (only_sudoAsUser_meant hread ⟨haction, rfl, hvalid, hforce⟩).bind fun _ =>
    Prog.only_pure _

theorem unchanging_of_reads {o : Op} (h : Op.Reads o) : o.changesState = false := by
  cases o with
  | readFile path => rfl
  | pathExists path => rfl
  | _ => cases h

theorem only_createUser_meant (hspec : Documented spec)
    (haction : strField data "action" = "create") :
    (createUser data (strField data "_user") password).Only (Meant spec data) := by
  refine Prog.Only.ite (fun _ => Prog.only_pure _) fun hvalid => ?_
  refine Prog.only_bind_iff.2 ⟨only_meant_of_quiet fun o ho =>
    unchanging_of_reads (reads_useraddArgs data o ho), ?_⟩
  rintro (e | args) hargs
  · exact Prog.only_pure _
  obtain ⟨rfl, hgroups⟩ := eq_of_returns_useraddArgs hargs
  have hname : isValidUsername (strField data "username") := not_not.1 hvalid
  have hread : readCommand spec ("sudo" :: "-S" :: "-k" ::
      ("useradd" :: rendered (useraddOptions data) ++ ["--", strField data "username"])) = _ :=
    (readCommand_sudo hspec (by decide) (takes_useradd hspec) _).trans (read_useradd hgroups _)
  refine (only_sudoAsUser_meant hread ?_).bind fun result => ?_
  · exact ⟨haction, rfl, hname, rfl, rfl, rfl, rfl, rfl⟩
  refine Prog.Only.ite (fun _ => Prog.only_pure _) fun _ => ?_
  refine Prog.Only.ite (fun _ => ?_) fun _ => Prog.only_pure _
  exact Prog.Only.bind (only_setPasswordInternal_meant hspec (by simp [haction]) hname)
    fun _ => Prog.only_pure _

theorem only_setPassword_meant (hspec : Documented spec)
    (haction : strField data "action" = "set_password") :
    (setPassword (strField data "username") (strField data "new_password")
      (boolField data "force_change" false) (strField data "_user") password).Only
        (Meant spec data) := by
  refine Prog.Only.ite (fun _ => Prog.only_pure _) fun hvalid => ?_
  refine Prog.Only.ite (fun _ => Prog.only_pure _) fun _ => ?_
  exact only_setPasswordInternal_meant hspec (by simp [haction]) (not_not.1 hvalid)

theorem reads_usermodArgs (data : Value) : (usermodArgs data).Only Op.Reads := by
  unfold usermodArgs
  refine Prog.Only.ite (fun _ => Prog.only_pure _) fun _ => ?_
  cases optField data "shell"
  on_goal 1 => refine Prog.Only.bind (Prog.only_pure _) fun shellOk => ?_
  on_goal 2 => refine (reads_isValidShell _).bind fun shellOk => ?_
  all_goals
    refine Prog.Only.ite (fun _ => Prog.only_pure _) fun _ => ?_
    refine Prog.Only.ite (fun _ => Prog.only_pure _) fun _ => ?_
    generalize List.find? _ _ = found
    cases found with
    | some g => exact Prog.only_pure _
    | none => exact Prog.Only.ite (fun _ => Prog.only_pure _) fun _ => Prog.only_pure _

theorem only_modifyUser_meant (hspec : Documented spec)
    (haction : strField data "action" = "modify") :
    (modifyUser data (strField data "_user") password).Only (Meant spec data) := by
  refine Prog.Only.ite (fun _ => Prog.only_pure _) fun hvalid => ?_
  refine Prog.only_bind_iff.2 ⟨only_meant_of_quiet fun o ho =>
    unchanging_of_reads (reads_usermodArgs data o ho), ?_⟩
  rintro (e | args) hargs
  · exact Prog.only_pure _
  obtain ⟨rfl, hgroups⟩ := eq_of_returns_usermodArgs hargs
  have hread : readCommand spec ("sudo" :: "-S" :: "-k" ::
      ("usermod" :: rendered (usermodOptions data) ++ ["--", strField data "username"])) = _ :=
    (readCommand_sudo hspec (by decide) (takes_usermod hspec) _).trans (read_usermod hgroups _)
  exact only_sudoAsUser_meant hread ⟨haction, rfl, not_not.1 hvalid, rfl, rfl, rfl, rfl, rfl⟩

theorem only_deleteUser_meant (hspec : Documented spec)
    (haction : strField data "action" = "delete") :
    (deleteUser (strField data "username") (boolField data "remove_home" false)
      (strField data "_user") password).Only (Meant spec data) := by
  refine Prog.Only.ite (fun _ => Prog.only_pure _) fun hvalid => ?_
  refine Prog.Only.ite (fun _ => Prog.only_pure _) fun hroot => ?_
  have hread : readCommand spec ("sudo" :: "-S" :: "-k" ::
      ("userdel" :: rendered (flag 'r' (boolField data "remove_home" false)) ++
        "--" :: [strField data "username"])) =
      some (.delete (strField data "username") (boolField data "remove_home" false)) := by
    rw [readCommand_sudo hspec (by decide) (takes_flag hspec.userdelFlag (by decide) _)]
    cases boolField data "remove_home" false <;> rfl
  rw [rendered_flag] at hread
  exact only_sudoAsUser_meant hread ⟨haction, rfl, not_not.1 hvalid, rfl, hroot⟩

theorem readCommand_usermod (hspec : Documented spec) {c : Char} (hc : c ∈ ['L', 'U'])
    (name : String) :
    readCommand spec ["sudo", "-S", "-k", "usermod", String.ofList ['-', c], "--", name] =
      some (if c = 'L' then .lock name else .unlock name) := by
  have htakes : ∀ o ∈ flag c true, Takes (spec "usermod") o := by
    refine takes_flag (hspec.usermodFlags c ?_) ?_ true
    · exact List.mem_cons_of_mem _ hc
    · rintro rfl
      exact absurd hc (by decide)
  refine (readCommand_sudo hspec (by decide) htakes [name]).trans ?_
  simp only [List.mem_cons, List.not_mem_nil, or_false] at hc
  rcases hc with rfl | rfl <;> rfl

theorem only_lockUser_meant (hspec : Documented spec)
    (haction : strField data "action" = "lock") :
    (lockUser (strField data "username") (strField data "_user") password).Only
      (Meant spec data) := by
  refine Prog.Only.ite (fun _ => Prog.only_pure _) fun hvalid => ?_
  refine Prog.Only.ite (fun _ => Prog.only_pure _) fun hroot => ?_
  exact only_sudoAsUser_meant (readCommand_usermod hspec (List.mem_cons_self) _)
    ⟨haction, rfl, not_not.1 hvalid, hroot⟩

theorem only_unlockUser_meant (hspec : Documented spec)
    (haction : strField data "action" = "unlock") :
    (unlockUser (strField data "username") (strField data "_user") password).Only
      (Meant spec data) := by
  refine Prog.Only.ite (fun _ => Prog.only_pure _) fun hvalid => ?_
  exact only_sudoAsUser_meant (readCommand_usermod hspec (c := 'U') (by simp) _)
    ⟨haction, rfl, not_not.1 hvalid⟩

theorem only_createGroupAction_meant (hspec : Documented spec)
    (haction : strField data "action" = "create_group") :
    (createGroupAction data).Only (Meant spec data) := by
  refine Prog.Only.bind ?_ fun r => (Prog.only_perform.2 (meant_of_unchanging rfl)).bind
    fun _ => Prog.only_pure _
  refine Prog.Only.ite (fun _ => Prog.only_pure _) fun hvalid => ?_
  set gid := ((data.get "gid").bind Value.asU64).map UInt64.toUInt32 with hgid
  have hread : readCommand spec ("sudo" :: "-S" :: "-k" :: ("groupadd" ::
      rendered (given 'g' (gid.map fun id => decimal id.toNat)) ++
        "--" :: [strField data "name"])) =
      some (.createGroup (strField data "name") (gid.map fun id => decimal id.toNat)) := by
    rw [readCommand_sudo hspec (by decide) (takes_given hspec.groupaddArgument (by decide) _)]
    cases gid <;> rfl
  have hwords : "groupadd" :: rendered (given 'g' (gid.map fun id => decimal id.toNat)) ++
      "--" :: [strField data "name"] = ["groupadd"] ++
        ((gid.map fun id => ["-g", decimal id.toNat]).getD []) ++
          ["--", strField data "name"] := by
    cases gid <;> rfl
  rw [hwords] at hread
  exact only_sudoAsUser_meant hread ⟨haction, rfl, not_not.1 hvalid, by rw [hgid]⟩

theorem only_deleteGroup_meant (hspec : Documented spec)
    (haction : strField data "action" = "delete_group") :
    (deleteGroup (strField data "name") (strField data "_user") password).Only
      (Meant spec data) := by
  refine Prog.Only.ite (fun _ => Prog.only_pure _) fun hvalid => ?_
  refine Prog.Only.ite (fun _ => Prog.only_pure _) fun hsystem => ?_
  have htakes : ∀ o ∈ ([] : List (Char × Option String)), Takes (spec "groupdel") o :=
    List.forall_mem_nil _
  have hread : readCommand spec ["sudo", "-S", "-k", "groupdel", "--", strField data "name"] =
      some (.deleteGroup (strField data "name")) :=
    (readCommand_sudo hspec (by decide) htakes [strField data "name"]).trans rfl
  exact only_sudoAsUser_meant hread ⟨haction, rfl, not_not.1 hvalid, hsystem⟩

theorem only_accountAction_meant (hspec : Documented spec) :
    (accountAction data).Only (Meant spec data) := by
  unfold accountAction
  dsimp only
  split
  · exact only_audited (only_createUser_meant hspec ‹_›)
  · exact only_audited (only_modifyUser_meant hspec ‹_›)
  · exact only_audited (only_deleteUser_meant hspec ‹_›)
  · exact only_audited (only_lockUser_meant hspec ‹_›)
  · exact only_audited (only_unlockUser_meant hspec ‹_›)
  · exact only_audited (only_setPassword_meant hspec ‹_›)
  · exact only_createGroupAction_meant hspec ‹_›
  · exact only_audited (only_deleteGroup_meant hspec ‹_›)
  · exact Prog.only_pure _

theorem only_usersManage_meant (hspec : Documented spec) :
    (usersManage (accountAction data) data).Only (Meant spec data) := by
  unfold usersManage
  split
  iterate 4 exact only_meant_of_quiet (Look.quiet _)
  unfold gated
  split
  · exact Prog.only_pure _
  · exact only_accountAction_meant hspec

end

/-- The short options in the manual page of a program, without and with an argument. -/
def manual (flags arguments : String) : Spec
  | .short c =>
    if c ∈ flags.toList then some false else if c ∈ arguments.toList then some true else none
  | .long _ => none

/-- `sudo` and the shadow utilities. -/
def shadowUtils (program : String) : Spec :=
  match program with
  | "sudo" => manual "ABbEeHiKklNnPSsVv" "aCcDghpRrTtUu"
  | "useradd" => manual "DFhlmMNorU" "bcdefgGkKpPRsuZ"
  | "usermod" => manual "abhLmorUZ" "cdefglGpPRsuvVwW"
  | "userdel" => manual "fhrZ" "PR"
  | "chage" => manual "hil" "dEImMRW"
  | "groupadd" => manual "fhor" "gKpPRU"
  | "groupdel" => manual "fh" "PR"
  | _ => fun _ => none

theorem documented_shadowUtils : Documented shadowUtils := by
  constructor
  all_goals
    try simp only [List.forall_mem_cons, List.not_mem_nil, false_implies, implies_true, and_true]
    decide +kernel

/-- A full name that looks like an option. -/
def renamesBob : Value :=
  .object [("_user", .string "alice"), ("_role", .string "admin"), ("password", .string "pw"),
    ("action", .string "modify"), ("username", .string "bob"), ("gecos", .string "-L")]

def renamedBob : Command :=
  ⟨some "alice", ["sudo", "-S", "-k", "usermod", "-c", "-L", "--", "bob"], some "pw\n"⟩

theorem asks_renamesBob :
    (usersManage (accountAction renamesBob) renamesBob).Asks (.run renamedBob) := by
  have hsudo : (sudoAsUser "alice" "pw" ["usermod", "-c", "-L", "--", "bob"]).Asks
      (.run renamedBob) :=
    asks_sudoAsUser_iff.2 ⟨⟨by decide, by decide⟩, rfl⟩
  have heq : usersManage (accountAction renamesBob) renamesBob =
      audited "alice" "user.modify" "bob"
        (sudoAsUser "alice" "pw" ["usermod", "-c", "-L", "--", "bob"]) := rfl
  rw [heq]
  exact (Prog.asks_bind _ _ _).2 (.inl hsudo)

/-- Whatever `users.manage` changes on its host it changes at the request of an administrator, by a
command as the user of the request which the programs read as the change that is asked for. -/
theorem meant_of_asks (spec : String → Spec) (hspec : Documented spec) (data : Value) (o : Op)
    (ho : (usersManage (accountAction data) data).Asks o) (hchanges : o.changesState = true) :
    isAdmin data = true ∧ ∃ c, o = .run c ∧ c.runAs = some (strField data "_user") ∧
      (FeedsChpasswd data c.argv ∨
        ∃ change, readCommand spec c.argv = some change ∧ Requests data change) := by
  cases hadmin : isAdmin data with
  | false =>
    have hquiet := (quiet_usersManage hadmin : Quiet (usersManage (accountAction data) data)) o ho
    rw [hquiet] at hchanges
    cases hchanges
  | true => exact ⟨rfl, only_usersManage_meant hspec o ho hchanges⟩

theorem meant_of_asks_renamesBob :
    ∃ change, readCommand shadowUtils renamedBob.argv = some change ∧
      Requests renamesBob change := by
  obtain ⟨-, c, heq, -, hmeant⟩ := meant_of_asks shadowUtils documented_shadowUtils renamesBob _
    asks_renamesBob (by decide +kernel)
  cases heq
  refine hmeant.resolve_left fun hfeeds => ?_
  have hthird : renamedBob.argv[3]? = some "sh" := congrArg (·[3]?) hfeeds
  exact absurd hthird (by decide)

example : readCommand shadowUtils renamedBob.argv =
    some (.modify "bob" (some "-L") none none false none) := by decide +kernel

/-! ## Runs -/

/-- The accounts, each with whether its password is locked, and the groups. -/
structure Accounts where
  users : List (String × Bool)
  groups : List String

/-- What a change makes of the accounts; with a user the group of the same name may go. -/
def Change.apply (a : Accounts) : Change → Accounts
  | .create name .. => { a with users := a.users ++ [(name, false)], groups := name :: a.groups }
  | .delete name _ =>
    { a with
      users := a.users.filter fun u => u.1 ≠ name
      groups := a.groups.filter (· ≠ name) }
  | .lock name => { a with users := a.users.map fun u => if u.1 = name then (name, true) else u }
  | .unlock name => { a with users := a.users.map fun u => if u.1 = name then (name, false) else u }
  | .createGroup name _ => { a with groups := name :: a.groups }
  | .deleteGroup name => { a with groups := a.groups.filter (· ≠ name) }
  | .modify .. | .expire _ => a

/-- A request, an operation that it asks for, and whether the command does its work. -/
structure Event where
  data : Value
  op : Op
  works : Bool

def Event.apply (spec : String → Spec) (a : Accounts) (e : Event) : Accounts :=
  match e.op with
  | .run c =>
    if e.works ∧ (Op.run c).changesState then
      ((readCommand spec c.argv).map (Change.apply a)).getD a
    else a
  | _ => a

/-- The operation is one that the request asks for. -/
def Event.Asked (e : Event) : Prop := (usersManage (accountAction e.data) e.data).Asks e.op

/-- The request is to delete that user. -/
def Deletes (data : Value) (name : String) : Prop :=
  strField data "action" = "delete" ∧ strField data "username" = name

section

variable {spec : String → Spec} {a : Accounts} {e : Event} {events : List Event} {g : String}
  {change : Change} {data : Value}

/-- The shell that feeds `chpasswd` is no program that makes a change. -/
theorem readCommand_chpasswd (hspec : Documented spec) {argv : List String}
    (h : FeedsChpasswd data argv) : readCommand spec argv = none := by
  have hread (opts : List Opt) (operands : List String) :
      Change.read "sh" opts operands = none := by
    unfold Change.read
    split <;> rfl
  rw [FeedsChpasswd] at h
  rw [h, readCommand_eq hspec (by decide)]
  simp only [hread, Option.bind_fun_none]

theorem apply_cases (hspec : Documented spec) (hasked : e.Asked) :
    e.apply spec a = a ∨ ∃ change, Requests e.data change ∧ e.apply spec a = change.apply a := by
  obtain ⟨data, op, works⟩ := e
  cases op with
  | run c =>
    unfold Event.apply
    dsimp only
    split_ifs with hworks
    · obtain ⟨c', heq, -, hmeant⟩ := only_usersManage_meant hspec _ hasked hworks.2
      cases heq
      rcases hmeant with hfeeds | ⟨change, hread, hrequests⟩
      · left
        rw [readCommand_chpasswd hspec hfeeds]
        rfl
      · right
        rw [hread]
        exact ⟨change, hrequests, rfl⟩
    · exact .inl rfl
  | _ => exact .inl rfl

/-- The guards of `delete_user` and `lock_user` are for root. -/
theorem root_apply (h : Requests data change) (hroot : ("root", false) ∈ a.users) :
    ("root", false) ∈ (change.apply a).users := by
  cases change with
  | create name => exact List.mem_append_left _ hroot
  | delete name removeHome =>
    have hne : name ≠ "root" := h.2.2.2.2
    exact List.mem_filter.2 ⟨hroot, decide_eq_true hne.symm⟩
  | lock name =>
    have hne : name ≠ "root" := h.2.2.2
    exact List.mem_map.2 ⟨_, hroot, if_neg hne.symm⟩
  | unlock name =>
    refine List.mem_map.2 ⟨_, hroot, ?_⟩
    dsimp only
    split_ifs with heq
    · rw [heq]
    · rfl
  | _ => exact hroot

/-- The guard of `delete_group` is for the groups of the system. -/
theorem group_apply (h : Requests data change) (hg : g ∈ systemGroups) (hkept : ¬ Deletes data g)
    (hmem : g ∈ a.groups) : g ∈ (change.apply a).groups := by
  cases change with
  | create name => exact List.mem_cons_of_mem _ hmem
  | delete name removeHome =>
    have hne : g ≠ name := by
      rintro rfl
      exact hkept ⟨h.1, h.2.1.symm⟩
    exact List.mem_filter.2 ⟨hmem, decide_eq_true hne⟩
  | createGroup name gid => exact List.mem_cons_of_mem _ hmem
  | deleteGroup name =>
    have hne : g ≠ name := by
      rintro rfl
      exact h.2.2.2 hg
    exact List.mem_filter.2 ⟨hmem, decide_eq_true hne⟩
  | _ => exact hmem

theorem root_foldl (hspec : Documented spec) (hasked : ∀ e ∈ events, e.Asked)
    (hroot : ("root", false) ∈ a.users) :
    ("root", false) ∈ (events.foldl (Event.apply spec) a).users := by
  induction events generalizing a with
  | nil => exact hroot
  | cons e events ih =>
    rw [List.forall_mem_cons] at hasked
    apply ih hasked.2
    rcases apply_cases (a := a) hspec hasked.1 with hsame | ⟨change, hrequests, heq⟩
    · rwa [hsame]
    · rw [heq]
      exact root_apply hrequests hroot

theorem group_foldl (hspec : Documented spec) (hasked : ∀ e ∈ events, e.Asked)
    (hg : g ∈ systemGroups) (hkept : ∀ e ∈ events, ¬ Deletes e.data g) (hmem : g ∈ a.groups) :
    g ∈ (events.foldl (Event.apply spec) a).groups := by
  induction events generalizing a with
  | nil => exact hmem
  | cons e events ih =>
    rw [List.forall_mem_cons] at hasked hkept
    apply ih hasked.2 hkept.2
    rcases apply_cases (a := a) hspec hasked.1 with hsame | ⟨change, hrequests, heq⟩
    · rwa [hsame]
    · rw [heq]
      exact group_apply hrequests hg hkept.1 hmem

end

/-- The account goes with its home. -/
def deletesBob : Value :=
  .object [("_user", .string "alice"), ("_role", .string "admin"), ("password", .string "pw"),
    ("action", .string "delete"), ("username", .string "bob"), ("remove_home", .bool true)]

def deletedBob : Command :=
  ⟨some "alice", ["sudo", "-S", "-k", "userdel", "-r", "--", "bob"], some "pw\n"⟩

theorem asks_deletesBob :
    (usersManage (accountAction deletesBob) deletesBob).Asks (.run deletedBob) := by
  have hsudo : (sudoAsUser "alice" "pw" ["userdel", "-r", "--", "bob"]).Asks
      (.run deletedBob) :=
    asks_sudoAsUser_iff.2 ⟨⟨by decide, by decide⟩, rfl⟩
  have heq : usersManage (accountAction deletesBob) deletesBob =
      audited "alice" "user.delete" "bob"
        (sudoAsUser "alice" "pw" ["userdel", "-r", "--", "bob"]) := rfl
  rw [heq]
  exact (Prog.asks_bind _ _ _).2 (.inl hsudo)

/-- Whatever requests come and whichever of their commands work, root stays a user whose password is
not locked, and a group of the system stays unless a user of that name is deleted. -/
theorem root_of_run (spec : String → Spec) (hspec : Documented spec) (a : Accounts)
    (events : List Event) (hasked : ∀ e ∈ events, e.Asked)
    (hroot : ("root", false) ∈ a.users) :
    ("root", false) ∈ (events.foldl (Event.apply spec) a).users ∧
      ∀ g ∈ systemGroups, g ∈ a.groups → (∀ e ∈ events, ¬ Deletes e.data g) →
        g ∈ (events.foldl (Event.apply spec) a).groups :=
  ⟨root_foldl hspec hasked hroot, fun _ hg hmem hkept => group_foldl hspec hasked hg hkept hmem⟩

theorem root_of_run_bob :
    let events : List Event :=
      [⟨renamesBob, .run renamedBob, true⟩, ⟨deletesBob, .run deletedBob, true⟩]
    let a := events.foldl (Event.apply shadowUtils)
      ⟨[("root", false), ("bob", false)], ["wheel", "bob"]⟩
    ("root", false) ∈ a.users ∧ ("bob", false) ∉ a.users ∧ "wheel" ∈ a.groups := by
  intro events a
  have hasked : ∀ e ∈ events, e.Asked :=
    List.forall_mem_cons.2 ⟨asks_renamesBob, List.forall_mem_singleton.2 asks_deletesBob⟩
  have hkept : ∀ e ∈ events, ¬ Deletes e.data "wheel" := by
    have hfields : ∀ e ∈ events, strField e.data "username" ≠ "wheel" := by decide +kernel
    exact fun e he hdeletes => hfields e he hdeletes.2
  obtain ⟨hroot, hgroups⟩ := root_of_run shadowUtils documented_shadowUtils
    ⟨[("root", false), ("bob", false)], ["wheel", "bob"]⟩ events hasked List.mem_cons_self
  refine ⟨hroot, by decide +kernel, ?_⟩
  exact hgroups "wheel" (by decide +kernel) List.mem_cons_self hkept

end Tenodera.Agent.Host.Users
