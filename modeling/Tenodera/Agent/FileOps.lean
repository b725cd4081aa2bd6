import Tenodera.Agent.Host

/-!
# The file handlers

`file.list`, `file.read`, `file.write`, `file.mkdir` and `file.delete`.  Without a password they
work as the user of the session and only under that user's home; with one, through `sudo` with that
user's rules.  None of them looks at the role.  `quiet_fileWrite_iff`, `quiet_fileMkdir_iff` and
`quiet_fileDelete_iff` say for which requests the last three change nothing on any host.
-/

namespace Tenodera.Agent.Host

open Protocol Effect Path

variable (u : Text.Alphanumeric)

def restrictedHome : Value := errorValue "Limited access: restricted to your home directory"

/-- The home of a user, in the place where the agent expects it. -/
def home (user : String) : PathBuf := join [.rootDir, .normal "home"] user

/-! ## file.read and file.list -/

def isTextMime (mime : String) : Bool :=
  Text.startsWith mime "text/" || mime = "inode/x-empty" ||
    mime ∈ ["application/json", "application/xml", "application/javascript", "application/x-sh",
      "application/x-shellscript", "application/toml", "application/x-yaml",
      "application/x-httpd-php", "application/x-perl", "application/x-ruby",
      "application/x-python"] ||
    "+xml".toList.isSuffixOf mime.toList || "+json".toList.isSuffixOf mime.toList

/-- `get_usize`. -/
def usizeField (data : Value) (key : String) : ℕ :=
  match data.get key with
  | some (.number (.posInt n)) => n.toNat
  | some (.string s) => (Text.parseUnsigned 64 s).getD 0
  | _ => 0

/-- The output that stands for a failure. -/
def readFailed (out : String) : Bool :=
  Text.startsWith out "error:" || Text.contains out "Permission denied"

def failureText (out : String) : Value :=
  errorValue (Text.trim (Text.trimStartMatches out "error:"))

/-- Run a command that reads, as the user of the session or with that user's password. -/
def readAs (user password : String) (argv : List String) : HostM String :=
  if password = "" then runCmd ("sudo" :: "-n" :: "-u" :: user :: "--" :: argv)
  else sudoOutputAsUser user password argv

def pageLines : ℕ := 200

/-- The `sed` script for the page at an offset; the line numbers wrap like `usize`. -/
def pageScript (offset : ℕ) : String :=
  let start := (offset + 1) % 2 ^ 64
  String.ofList (Nat.toDigits 10 start ++ ',' ::
    Nat.toDigits 10 ((start + pageLines - 1) % 2 ^ 64) ++ ['p'])

/-- `read_file`. -/
def readFileAt (path user password : String) (offset : ℕ) : HostM Value := do
  match ← canonicalize path with
  | none => return errorValue "file not found"
  | some canonical =>
    let resolved := render canonical
    let mime := Text.trim (← runCmd ["file", "-b", "--mime-type", "--", resolved])
    if ¬ isTextMime mime then
      return .object [("binary", .bool true), ("mime", .string mime), ("path", .string resolved)]
    else if password = "" ∧ ¬ isValidUsername u user then return errorValue "invalid user context"
    else if password = "" ∧ ¬ startsWith canonical (home user) then return restrictedHome
    else
      let wcRaw ← readAs user password ["wc", "-l", "--", resolved]
      if readFailed wcRaw then return failureText wcRaw
      else
        let content ← readAs user password ["sed", "-n", pageScript offset, "--", resolved]
        if readFailed content then return failureText content
        else perform .json

def fileRead (options : Value) : HostM Value :=
  let path := strField options "path"
  if path = "" then pure (errorValue "path required")
  else readFileAt u path (strField options "_user") (strField options "password")
    (usizeField options "offset")

def lsArgs (resolved : String) : List String :=
  ["ls", "-laH", "--time-style=long-iso", "--", resolved]

/-- `list_as_user`. -/
def listAsUser (path user : String) : HostM Value :=
  if ¬ isValidUsername u user then pure (errorValue "invalid user context")
  else do
    match ← canonicalize path with
    | none => perform .json
    | some canonical =>
      if ¬ startsWith canonical (home user) then return restrictedHome
      else
        let _ ← readAs user "" (lsArgs (render canonical))
        perform .json

/-- `sudo_list_directory`. -/
def sudoListDirectory (path user password : String) : HostM Value := do
  match ← canonicalize path with
  | none => perform .json
  | some canonical =>
    let _ ← sudoOutputAsUser user password (lsArgs (render canonical))
    perform .json

def fileList (options : Value) : HostM Value :=
  let path := ((options.get "path").bind Value.asStr).getD "/"
  let password := strField options "password"
  let user := strField options "_user"
  if password = "" then listAsUser u path user else sudoListDirectory path user password

/-! ## file.write, file.mkdir and file.delete -/

/-- Where a file that need not exist yet would be: the parent is resolved, or else the path is taken
as it is. -/
def resolveTarget (path : String) : HostM PathBuf :=
  match parent (components path) with
  | none => pure (components path)
  | some dir => do
    match ← canonicalize (render dir) with
    | some dir => return joinName dir (fileName (components path))
    | none => return components path

/-- Run a command as the user through `sudo -n`. -/
def sudoDirect (user : String) (argv : List String) : HostM Value := do
  match ← run none ("sudo" :: "-n" :: "-u" :: user :: "--" :: argv) none with
  | .error e => return errorValue e
  | .ok out =>
    if out.success then return okValue
    else
      let msg := Text.trim out.stderr
      return errorValue (if msg = "" then "Permission denied" else msg)

/-- What `write_as_user` and `mkdir_as_user` share: the target has to be in the user's home. -/
def inHomeOf (path user : String) (act : HostM Value) : HostM Value :=
  if ¬ isValidUsername u user then pure (errorValue "invalid user context")
  else do
    let canonical ← resolveTarget path
    if ¬ startsWith canonical (home user) then return restrictedHome
    else act

/-- `write_as_user`. -/
def writeAsUser (path content user : String) : HostM Value :=
  inHomeOf u path user
    (sudoDirect user ["sh", "-c", decodeInto ("tee -- " ++ shellEscape path) content])

/-- `mkdir_as_user`. -/
def mkdirAsUser (path user : String) : HostM Value :=
  inHomeOf u path user (sudoDirect user ["mkdir", "--", path])

def rmArgs (recursive : Bool) (path : String) : List String :=
  if recursive then ["rm", "-r", "--", path] else ["rm", "--", path]

/-- `delete_as_user`. -/
def deleteAsUser (path user : String) : HostM Value :=
  if ¬ isValidUsername u user then pure (errorValue "invalid user context")
  else do
    match ← canonicalize path with
    | none => return errorValue "file not found"
    | some canonical =>
      if ¬ startsWith canonical (home user) then return restrictedHome
      else
        let recursive ← perform (.isDir (render canonical))
        sudoDirect user (rmArgs recursive path)

def fileWrite (options : Value) : HostM Value :=
  let path := strField options "path"
  let password := strField options "password"
  let user := strField options "_user"
  let content := strField options "content"
  if path = "" then pure (errorValue "path required")
  else if password = "" then writeAsUser u path content user
  else sudoStdinWriteAsUser user password ["tee", "--", path] content

def fileMkdir (options : Value) : HostM Value :=
  let path := strField options "path"
  let password := strField options "password"
  let user := strField options "_user"
  if path = "" then pure (errorValue "path required")
  else if password = "" then mkdirAsUser u path user
  else sudoAsUser user password ["mkdir", "--", path]

def fileDelete (options : Value) : HostM Value := do
  let path := strField options "path"
  let password := strField options "password"
  let user := strField options "_user"
  if path = "" then return errorValue "path required"
  else if password = "" then deleteAsUser u path user
  else
    let recursive ← perform (.isDir path)
    sudoAsUser user password (rmArgs recursive path)

/-! ## What the handlers change -/

section

variable {u : Text.Alphanumeric} {user password path content : String} {options : Value}

theorem quiet_readAs {argv : List String} (h : observes argv) :
    Quiet (readAs user password argv) :=
  Prog.Only.ite (fun _ => quiet_runCmd h) fun _ => quiet_sudoOutputAsUser h

theorem isPrintScript_pageScript (offset : ℕ) : isPrintScript (pageScript offset) := by
  have hdigits (n : ℕ) : (Nat.toDigits 10 n).all fun c => c.isDigit || c = ',' || c = 'p' := by
    refine List.all_eq_true.2 fun c hc => ?_
    rw [Nat.isDigit_of_mem_toDigits (by decide) (by decide) hc]
    rfl
  simp only [isPrintScript, pageScript, String.toList_ofList, List.all_append, List.all_cons,
    hdigits]
  rfl

theorem quiet_fileRead (options : Value) : Quiet (fileRead u options) := by
  refine Prog.Only.ite (fun _ => quiet_pure _) fun _ => ?_
  refine (quiet_canonicalize _).bind ?_
  rintro (_ | canonical)
  · exact quiet_pure _
  refine (quiet_runCmd rfl).bind fun mime => ?_
  refine Prog.Only.ite (fun _ => quiet_pure _) fun _ => ?_
  refine Prog.Only.ite (fun _ => quiet_pure _) fun _ => ?_
  refine Prog.Only.ite (fun _ => quiet_pure _) fun _ => ?_
  refine (quiet_readAs rfl).bind fun wcRaw => ?_
  refine Prog.Only.ite (fun _ => quiet_pure _) fun _ => ?_
  have hsed : observes ["sed", "-n", pageScript (usizeField options "offset"), "--",
      render canonical] := by
    simp [observes, observing, observingTools, searchDirs, observingAlone, isPrintScript_pageScript]
  refine (quiet_readAs hsed).bind fun content => ?_
  exact Prog.Only.ite (fun _ => quiet_pure _) fun _ => (quiet_perform _).2 rfl

theorem quiet_fileList (options : Value) : Quiet (fileList u options) := by
  have hls (resolved : String) : observes (lsArgs resolved) := rfl
  refine Prog.Only.ite (fun _ => ?_) fun _ => ?_
  · refine Prog.Only.ite (fun _ => quiet_pure _) fun _ => ?_
    refine (quiet_canonicalize _).bind ?_
    rintro (_ | canonical)
    · exact (quiet_perform _).2 rfl
    refine Prog.Only.ite (fun _ => quiet_pure _) fun _ => ?_
    exact (quiet_readAs (hls _)).bind fun _ => (quiet_perform _).2 rfl
  · refine (quiet_canonicalize _).bind ?_
    rintro (_ | canonical)
    · exact (quiet_perform _).2 rfl
    · exact (quiet_sudoOutputAsUser (hls _)).bind fun _ => (quiet_perform _).2 rfl

/-- The path names something that lies in a directory. -/
def HasParent (path : String) : Prop :=
  ∃ dir, parent (components path) = some dir ∧ render dir ≠ ""

theorem quiet_resolveTarget (path : String) : Quiet (resolveTarget path) := by
  unfold resolveTarget
  split
  · exact quiet_pure _
  · refine (quiet_canonicalize _).bind ?_
    rintro (_ | _) <;> exact quiet_pure _

theorem hasNul_render_parent {dir : PathBuf} (hdir : parent (components path) = some dir)
    (h : Text.hasNul path = false) : Text.hasNul (render dir) = false := by
  rw [Text.hasNul, decide_eq_false_iff_not]
  intro hnul
  rcases mem_render_parent hdir hnul with hc | hc | hc
  · cases hc
  · cases hc
  · simp [Text.hasNul, hc] at h

/-- The directory of the target may be anywhere. -/
theorem returns_resolveTarget (h : HasParent path) (hnul : Text.hasNul path = false)
    (dir : PathBuf) :
    (resolveTarget path).Returns (joinName dir (fileName (components path))) := by
  obtain ⟨dir', hdir', hne⟩ := h
  rw [resolveTarget, hdir']
  refine (Prog.returns_bind _ _ _).2 ⟨some dir, returns_canonicalize_iff.2 ?_, rfl⟩
  rintro (h | h)
  · exact absurd h hne
  · rw [hasNul_render_parent hdir' hnul] at h
    cases h

/-- Without a directory the target is the path as it stands. -/
theorem eq_of_returns_resolveTarget {target : PathBuf} (h : ¬ HasParent path)
    (htarget : (resolveTarget path).Returns target) : target = components path := by
  unfold resolveTarget at htarget
  split at htarget
  · exact htarget
  · rename_i dir hdir
    have hempty : render dir = "" := by
      by_contra hne
      exact h ⟨dir, hdir, hne⟩
    obtain ⟨r, hr, htarget⟩ := (Prog.returns_bind _ _ _).1 htarget
    rw [returns_canonicalize_iff.1 hr (Or.inl hempty)] at htarget
    exact htarget

theorem prefix_home (hu : isValidUsername u user) :
    [.rootDir, .normal "home"] <+: home user := by
  refine prefix_join _ fun hslash => ?_
  simp only [isValidUsername, Bool.and_eq_true, List.all_eq_true] at hu
  have hchar := hu.2 '/' (List.mem_of_mem_head? hslash)
  rw [u.ascii '/' (by decide)] at hchar
  exact absurd hchar (by decide)

/-- What is in a home has a directory. -/
theorem hasParent_of_startsWith (hu : isValidUsername u user)
    (h : startsWith (components path) (home user)) : HasParent path := by
  obtain ⟨rest, hrest⟩ := (prefix_home hu).trans (List.isPrefixOf_iff_prefix.1 h)
  obtain ⟨dir, hdir⟩ := parent_of_absolute hrest.symm
  exact ⟨_, hdir, render_absolute_ne_empty dir⟩

theorem quiet_inHomeOf_iff {act : HostM Value} (hact : Text.hasNul path → Quiet act) :
    Quiet (inHomeOf u path user act) ↔ (isValidUsername u user → HasParent path → Quiet act) := by
  unfold inHomeOf
  by_cases hu : isValidUsername u user
  swap
  · simp [hu]
  rw [if_neg (not_not.2 hu), (quiet_resolveTarget path).bind_iff]
  constructor
  · intro h _ hparent
    cases hnul : Text.hasNul path
    · have h := h _ (returns_resolveTarget hparent hnul (home user))
      rwa [if_neg (not_not.2 (startsWith_joinName _ _))] at h
    · exact hact hnul
  · intro h target htarget
    refine Prog.Only.ite (fun _ => quiet_pure _) fun hhome => ?_
    refine h hu ?_
    by_contra hparent
    rw [not_not, eq_of_returns_resolveTarget hparent htarget] at hhome
    exact hparent (hasParent_of_startsWith hu hhome)

theorem quiet_sudoDirect_iff {argv : List String} : Quiet (sudoDirect user argv) ↔
    Text.hasNul user ∨ argv.any Text.hasNul ∨ observes argv := by
  unfold sudoDirect
  rw [quiet_bind_iff, quiet_run_iff, and_iff_left]
  · simp [stripSudo, Text.hasNul, or_assoc]
  · rintro (_ | out) _
    · exact quiet_pure _
    · exact Prog.Only.ite (fun _ => quiet_pure _) fun _ => quiet_pure _

/-- The request passes the checks of `file.write` and `file.mkdir`, and its arguments can be given
to a command. -/
def MayCreate (u : Text.Alphanumeric) (options : Value) : Prop :=
  let path := strField options "path"
  let user := strField options "_user"
  path ≠ "" ∧ Text.hasNul path = false ∧
    if strField options "password" = "" then isValidUsername u user ∧ HasParent path
    else Text.hasNul user = false

/-- The same for `file.delete`. -/
def MayDelete (u : Text.Alphanumeric) (options : Value) : Prop :=
  let path := strField options "path"
  let user := strField options "_user"
  path ≠ "" ∧ Text.hasNul path = false ∧
    if strField options "password" = "" then isValidUsername u user
    else Text.hasNul user = false

/-- A command as the user through `sudo -n` is refused only for its own arguments. -/
theorem quiet_sudoDirect_iff_of_valid {argv : List String} (hu : isValidUsername u user)
    (hobs : observes argv = false) :
    Quiet (sudoDirect user argv) ↔ argv.any Text.hasNul := by
  rw [quiet_sudoDirect_iff, hasNul_of_isValidUsername hu, hobs]
  simp

/-- What the checks of `file.write` and `file.mkdir` come to, for the command of each way. -/
theorem quiet_inHomeOf_or_iff {limited elevated : HostM Value}
    (hlimited : isValidUsername u user → (Quiet limited ↔ Text.hasNul path))
    (hnul : Text.hasNul path → Quiet limited)
    (helevated : Quiet elevated ↔ Text.hasNul user ∨ Text.hasNul path) :
    Quiet (if path = "" then pure (errorValue "path required")
      else if password = "" then inHomeOf u path user limited else elevated) ↔
    ¬ (path ≠ "" ∧ Text.hasNul path = false ∧
      if password = "" then isValidUsername u user ∧ HasParent path
      else Text.hasNul user = false) := by
  by_cases hpath : path = ""
  · simp [hpath]
  by_cases hpw : password = ""
  · simp only [hpath, hpw, if_true, if_false, quiet_inHomeOf_iff hnul, ne_eq, not_false_iff,
      true_and]
    constructor
    · rintro h ⟨hpath', hu, hparent⟩
      rw [(hlimited hu).1 (h hu hparent)] at hpath'
      cases hpath'
    · intro h hu hparent
      refine (hlimited hu).2 ?_
      by_contra hpath'
      exact h ⟨by simpa using hpath', hu, hparent⟩
  · simp only [hpath, hpw, if_false, helevated, ne_eq, not_false_iff, true_and, not_and_or,
      Bool.not_eq_false, or_comm]

theorem quiet_fileWrite_iff (options : Value) :
    Quiet (fileWrite u options) ↔ ¬ MayCreate u options := by
  have hscript (path content : String) :
      ["sh", "-c", decodeInto ("tee -- " ++ shellEscape path) content].any Text.hasNul =
        Text.hasNul path := by
    rw [any_hasNul_script, hasNul_decodeInto, Text.hasNul_append, hasNul_shellEscape]
    rfl
  refine quiet_inHomeOf_or_iff (fun hu => ?_) (fun hnul => ?_) ?_
  · rw [quiet_sudoDirect_iff_of_valid hu rfl, hscript]
  · exact quiet_sudoDirect_iff.2 (Or.inr (Or.inl (by rw [hscript, hnul])))
  · rw [quiet_sudoStdinWriteAsUser_iff]
    have htee (path : String) : " ".intercalate (["tee", "--", path].map shellEscape) =
        "'tee' '--' " ++ shellEscape path := rfl
    rw [htee, Text.hasNul_append, hasNul_shellEscape]
    rfl

theorem quiet_fileMkdir_iff (options : Value) :
    Quiet (fileMkdir u options) ↔ ¬ MayCreate u options := by
  have hargs (path : String) : ["mkdir", "--", path].any Text.hasNul = Text.hasNul path :=
    Bool.or_false _
  have hobs (path : String) : observes ["mkdir", "--", path] = false := rfl
  refine quiet_inHomeOf_or_iff (fun hu => ?_) (fun hnul => ?_) ?_
  · rw [quiet_sudoDirect_iff_of_valid hu (hobs _), hargs]
  · exact quiet_sudoDirect_iff.2 (Or.inr (Or.inl (by rw [hargs, hnul])))
  · rw [quiet_sudoAsUser_iff, hargs, hobs]
    simp

theorem any_hasNul_rmArgs (recursive : Bool) (path : String) :
    (rmArgs recursive path).any Text.hasNul = Text.hasNul path := by
  cases recursive <;> exact Bool.or_false _

theorem observes_rmArgs (recursive : Bool) (path : String) :
    observes (rmArgs recursive path) = false := by
  cases recursive <;> rfl

theorem quiet_deleteAsUser_iff (hpath : path ≠ "") :
    Quiet (deleteAsUser u path user) ↔ (isValidUsername u user → Text.hasNul path) := by
  unfold deleteAsUser
  by_cases hu : isValidUsername u user
  swap
  · simp [hu]
  have hrm : Quiet (perform (.isDir (render (home user))) >>= fun recursive =>
      sudoDirect user (rmArgs recursive path)) ↔ Text.hasNul path := by
    rw [quiet_perform_bind_iff rfl]
    simp [quiet_sudoDirect_iff_of_valid hu (observes_rmArgs _ _), any_hasNul_rmArgs]
  rw [if_neg (not_not.2 hu), (quiet_canonicalize path).bind_iff, forall_prop_of_true hu]
  constructor
  · intro h
    by_contra hnul
    have hret : (canonicalize path).Returns (some (home user)) :=
      returns_canonicalize_iff.2 fun h' => absurd h' (not_or.2 ⟨hpath, hnul⟩)
    have h := h _ hret
    simp only [show startsWith (home user) (home user) by simp [startsWith], not_true_eq_false,
      if_false] at h
    exact hnul (hrm.1 h)
  · rintro hnul r hr
    rw [returns_canonicalize_iff.1 hr (Or.inr hnul)]
    exact quiet_pure _

theorem quiet_fileDelete_iff (options : Value) :
    Quiet (fileDelete u options) ↔ ¬ MayDelete u options := by
  unfold fileDelete MayDelete
  set path := strField options "path"
  set user := strField options "_user"
  by_cases hpath : path = ""
  · simp [hpath]
  by_cases hpw : strField options "password" = ""
  · simp only [hpath, hpw, if_false, if_true, quiet_deleteAsUser_iff hpath]
    cases Text.hasNul path <;> simp [hpath]
  · simp only [hpath, hpw, if_false]
    rw [quiet_perform_bind_iff rfl]
    simp only [quiet_sudoAsUser_iff, any_hasNul_rmArgs, observes_rmArgs]
    cases Text.hasNul path <;> simp [hpath]

end

end Tenodera.Agent.Host
