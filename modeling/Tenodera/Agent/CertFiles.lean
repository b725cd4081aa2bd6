import Tenodera.Agent.ShellScripts

/-!
# Saving a certificate and its key

`cert_save` writes the certificate, writes the key and restricts its mode, each with a command that
may fail.  What it undoes is the first write, by removing the certificate: `cert_save_iff` says
where the two files are as before when it returns an error.
-/

namespace Tenodera.Agent.CertFiles

open Host Protocol Effect

/-! ## The handler -/

/-- A text of the request, trimmed, if there is something in it. -/
def textField (data : Value) (key : String) : Option String :=
  match (data.get key).bind Value.asStr with
  | some s => if Text.trim s = "" then none else some (Text.trim s)
  | none => none

/-- `safe_name`. -/
def safeName (u : Text.Alphanumeric) (name : String) : String :=
  String.ofList (name.toList.map fun c => if u.mem c || c ∈ "-_.".toList then c else '_')

structure Request where
  /-- The directory that is made for the two files. -/
  dir : Option String
  /-- The paths of the files without their endings. -/
  stem : String
  cert : String
  key : String

def Request.certPath (r : Request) : String := r.stem ++ ".crt"

def Request.keyPath (r : Request) : String := r.stem ++ ".key"

/-- The fields of the request, or the error for the first one that is missing. -/
def parse (u : Text.Alphanumeric) (data : Value) : Except Value Request :=
  match textField data "name" with
  | none => .error (errorValue "missing name")
  | some name =>
    match textField data "cert" with
    | none => .error (errorValue "missing certificate")
    | some cert =>
      match textField data "key" with
      | none => .error (errorValue "missing private key")
      | some key =>
        let dir := "/etc/ssl/" ++ safeName u name
        if ((data.get "subdir").bind Value.asBool).getD false then
          .ok ⟨some dir, dir ++ "/" ++ safeName u name, cert, key⟩
        else .ok ⟨none, dir, cert, key⟩

def isError (res : Value) : Bool := (res.get "error").isSome

/-- `cert_save` behind the paths: the two writes, and the mode of the key. -/
def savePair (user password : String) (r : Request) : HostM Value := do
  let writeCert ← sudoStdinWriteAsUser user password ["tee", r.certPath] r.cert
  if isError writeCert then return writeCert
  else
    let writeKey ← sudoStdinWriteAsUser user password ["tee", r.keyPath] r.key
    if isError writeKey then
      let _ ← sudoAsUser user password ["rm", "-f", r.certPath]
      return writeKey
    else
      let chmod ← sudoAsUser user password ["chmod", "600", r.keyPath]
      if isError chmod then return chmod
      else return .object [("ok", .bool true), ("cert_path", .string r.certPath),
        ("key_path", .string r.keyPath)]

/-- `cert_save`. -/
def certSave (u : Text.Alphanumeric) (data : Value) (user password : String) : HostM Value :=
  match parse u data with
  | .error e => pure e
  | .ok r =>
    match r.dir with
    | none => savePair user password r
    | some dir => do
      let mk ← sudoAsUser user password ["mkdir", "-p", dir]
      if isError mk then return mk
      else savePair user password r

/-! ## What the commands do to the files -/

structure File where
  content : List UInt8
  mode : ℕ
  deriving DecidableEq

/-- The regular files, by their paths. -/
abbrev Files : Type := String → Option File

/-- What is around the agent.  A call asks for a command once at most, so the answers are those of
any host; an account that is gone in between is a command that fails before it begins. -/
structure World where
  reply : ∀ o, Reply o
  /-- How far a command gets that does not succeed: not at all, or to this many bytes of what it
  writes. -/
  reach : Command → Option ℕ
  /-- The mode that a new file gets. -/
  newMode : ℕ

/-- The process that works on the files: the command, or the last one of a script. -/
def processOf (argv : List String) : Option Shell.Process :=
  match stripSudo argv with
  | ["sh", "-c", script] => scriptProcess script []
  | argv => some ⟨argv, []⟩

/-- A process that does its work.  `tee` keeps the mode of a file that is there. -/
def World.effect (w : World) (p : Shell.Process) (files : Files) : Files :=
  match p.argv with
  | ["tee", path] =>
    Function.update files path (some ⟨p.stdin, ((files path).map File.mode).getD w.newMode⟩)
  | ["rm", "-f", path] => Function.update files path none
  | ["chmod", "600", path] =>
    Function.update files path ((files path).map fun f => { f with mode := 0o600 })
  | _ => files

def World.succeeds (w : World) (c : Command) : Bool :=
  match w.reply (.run c) with
  | .ok out => out.success
  | .error _ => false

/-- What a command has taken of its input when it ends, if it has begun. -/
def World.taken (w : World) (c : Command) (stdin : List UInt8) : Option (List UInt8) :=
  if w.succeeds c then some stdin else (w.reach c).map stdin.take

/-- The files behind a command. -/
def World.after (w : World) (c : Command) (files : Files) : Files :=
  match processOf c.argv with
  | none => files
  | some p =>
    match w.taken c p.stdin with
    | none => files
    | some bytes => w.effect ⟨p.argv, bytes⟩ files

/-- The operations of the handler: commands, and the look-up of the account. -/
def World.exec (w : World) : ∀ o, Files → Reply o × Files
  | .run c, files => (w.reply (.run c), w.after c files)
  | o, files => (w.reply o, files)

/-- The account is there. -/
def World.knows (w : World) (user : String) : Bool :=
  !Text.hasNul user && (w.reply (.lookupUser user)).isSome

/-- The command that `sudo_as_user` runs. -/
def sudoCommand (user password : String) (args : List String) : Command :=
  ⟨some user, "sudo" :: "-S" :: "-k" :: args, some (password ++ "\n")⟩

/-- The command that writes a file. -/
def teeCommand (user password path content : String) : Command :=
  sudoCommand user password
    ["sh", "-c", decodeInto (" ".intercalate (["tee", path].map shellEscape)) content]

/-! ## What an error leaves -/

/-- The paths of the two files; without all fields there are none. -/
def pathsOf (u : Text.Alphanumeric) (data : Value) : List String :=
  match parse u data with
  | .error _ => []
  | .ok r => [r.certPath, r.keyPath]

/-- If saving returns an error, the two files are as before. -/
def Intact (u : Text.Alphanumeric) (w : World) (data : Value) (user password : String)
    (files : Files) : Prop :=
  let run := (certSave u data user password).runOn w.exec files
  isError run.1 → ∀ path ∈ pathsOf u data, run.2 path = files path

instance (u : Text.Alphanumeric) (w : World) (data : Value) (user password : String)
    (files : Files) : Decidable (Intact u w data user password files) :=
  inferInstanceAs (Decidable (isError ((certSave u data user password).runOn w.exec files).1 →
    ∀ path ∈ pathsOf u data,
      ((certSave u data user password).runOn w.exec files).2 path = files path))

/-- What the command has taken is already in the file. -/
def World.Spares (w : World) (c : Command) (stdin : List UInt8) (file : Option File) : Prop :=
  ∀ bytes ∈ w.taken c stdin, file.map File.content = some bytes

/-- The command that fails, and those before it, have left the two files as they were. -/
def World.Restores (w : World) (user password : String) (r : Request) (files : Files) : Prop :=
  let writeCert := teeCommand user password r.certPath r.cert
  let writeKey := teeCommand user password r.keyPath r.key
  let remove := sudoCommand user password ["rm", "-f", r.certPath]
  let chmod := sudoCommand user password ["chmod", "600", r.keyPath]
  let certSpared := w.Spares writeCert (Utf8.bytes r.cert.toList) (files r.certPath)
  let keySpared := w.Spares writeKey (Utf8.bytes r.key.toList) (files r.keyPath)
  if ¬ w.succeeds writeCert then certSpared
  else if ¬ w.succeeds writeKey then
    keySpared ∧ if w.taken remove [] = none then certSpared else files r.certPath = none
  else if ¬ w.succeeds chmod then
    certSpared ∧ keySpared ∧
      (w.taken chmod [] = none ∨ (files r.keyPath).map File.mode = some 0o600)
  else True

/-- An account that is there gets to the writes only with a directory for them. -/
def Restored (u : Text.Alphanumeric) (w : World) (data : Value) (user password : String)
    (files : Files) : Prop :=
  ∀ r, parse u data = .ok r → w.knows user →
    (∀ dir ∈ r.dir, w.succeeds (sudoCommand user password ["mkdir", "-p", dir])) →
      w.Restores user password r files

section

variable {u : Text.Alphanumeric} {w : World} {user password path content : String}
  {args : List String} {files : Files}

/-! ## One command -/

theorem runOn_lookupUser (w : World) (user : String) (files : Files) :
    ((Host.lookupUser user).runOn w.exec files).2 = files ∧
      ((Host.lookupUser user).runOn w.exec files).1.isSome = w.knows user := by
  unfold Host.lookupUser World.knows
  cases Text.hasNul user with
  | true => exact ⟨rfl, rfl⟩
  | false => exact ⟨rfl, (Bool.true_and _).symm⟩

/-- A call of `sudo_as_user` that knows the account runs its command, and returns an error unless
it succeeds. -/
theorem runOn_sudoAsUser (w : World) (user password : String) (files : Files)
    (hargs : args.any Text.hasNul = false) :
    let run := (sudoAsUser user password args).runOn w.exec files
    let done := w.knows user && w.succeeds (sudoCommand user password args)
    isError run.1 = !done ∧ (run.1.get "ok").isSome = done ∧
      run.2 = if w.knows user then w.after (sudoCommand user password args) files else files := by
  obtain ⟨hfiles, hknows⟩ := runOn_lookupUser w user files
  have hrun : Host.run (some user) ("sudo" :: "-S" :: "-k" :: args) (some (password ++ "\n")) =
      perform (.run (sudoCommand user password args)) := by
    have hnul : ("sudo" :: "-S" :: "-k" :: args).any Text.hasNul = false := hargs
    rw [Host.run, hnul]
    rfl
  unfold sudoAsUser
  rw [Prog.runOn_bind, hfiles]
  cases hlookup : ((Host.lookupUser user).runOn w.exec files).1 with
  | none =>
    rw [hlookup] at hknows
    rw [← hknows]
    exact ⟨rfl, rfl, rfl⟩
  | some pwd =>
    rw [hlookup] at hknows
    rw [← hknows]
    simp only [hrun, Prog.runOn_bind, perform, Prog.runOn_perform, World.exec, World.succeeds]
    rcases w.reply (.run (sudoCommand user password args)) with e | out
    · exact ⟨rfl, rfl, rfl⟩
    · cases hsuccess : out.success with
      | false =>
        simp only [Bool.false_eq_true, not_false_eq_true, if_true, hsuccess]
        exact ⟨rfl, rfl, rfl⟩
      | true =>
        simp only [not_true_eq_false, if_false, hsuccess]
        cases out.truncated <;> exact ⟨rfl, rfl, rfl⟩

theorem runOn_tee (w : World) (user password content : String) (files : Files)
    (hpath : Text.hasNul path = false) :
    let run := (sudoStdinWriteAsUser user password ["tee", path] content).runOn w.exec files
    let command := teeCommand user password path content
    isError run.1 = !(w.knows user && w.succeeds command) ∧
      run.2 = if w.knows user then w.after command files else files := by
  have hargs : ["sh", "-c", decodeInto (" ".intercalate (["tee", path].map shellEscape))
      content].any Text.hasNul = false := by
    rw [any_hasNul_script, hasNul_decodeInto, hasNul_intercalate_shellEscape]
    show (false || (Text.hasNul path || false)) = false
    rw [hpath]
    rfl
  obtain ⟨herror, hok, hfiles⟩ := runOn_sudoAsUser w user password files hargs
  unfold sudoStdinWriteAsUser
  rw [Prog.runOn_bind, Prog.runOn_pure]
  refine ⟨?_, hfiles⟩
  split_ifs with hdone
  · rw [hok] at hdone
    show false = !_
    rw [teeCommand, hdone]
    rfl
  · exact herror

/-! ## What a command does -/

/-- A file into which these bytes have been written, if any have. -/
def World.teed (w : World) (bytes : Option (List UInt8)) (file : Option File) : Option File :=
  match bytes with
  | none => file
  | some bytes => some ⟨bytes, (file.map File.mode).getD w.newMode⟩

theorem teed_eq_iff (w : World) (bytes : Option (List UInt8)) (file : Option File) :
    w.teed bytes file = file ↔ ∀ b ∈ bytes, file.map File.content = some b := by
  cases bytes with
  | none => simp [World.teed]
  | some b =>
    cases file with
    | none => simp [World.teed]
    | some f =>
      obtain ⟨content, mode⟩ := f
      simp [World.teed, eq_comm]

theorem after_tee (w : World) (user password path content : String) (files : Files) :
    let c := teeCommand user password path content
    w.after c files =
      Function.update files path (w.teed (w.taken c (Utf8.bytes content.toList)) (files path)) := by
  have hprocess : processOf (teeCommand user password path content).argv =
      some ⟨["tee", path], Utf8.bytes content.toList⟩ :=
    (executes_decodeInto (pipeline_shellEscape "tee" [path])).2 []
  simp only [World.after, hprocess]
  cases w.taken (teeCommand user password path content) (Utf8.bytes content.toList) with
  | none => exact (Function.update_eq_self path files).symm
  | some bytes => rfl

theorem after_remove (w : World) (user password path : String) (files : Files) :
    let c := sudoCommand user password ["rm", "-f", path]
    w.after c files =
      Function.update files path (if w.taken c [] = none then files path else none) := by
  show (match w.taken _ [] with | none => files | some bytes => _) = _
  cases w.taken (sudoCommand user password ["rm", "-f", path]) [] with
  | none => exact (Function.update_eq_self path files).symm
  | some bytes => rfl

theorem after_chmod (w : World) (user password path : String) (files : Files) :
    let c := sudoCommand user password ["chmod", "600", path]
    w.after c files = Function.update files path
      (if w.taken c [] = none then files path
        else (files path).map fun f => { f with mode := 0o600 }) := by
  show (match w.taken _ [] with | none => files | some bytes => _) = _
  cases w.taken (sudoCommand user password ["chmod", "600", path]) [] with
  | none => exact (Function.update_eq_self path files).symm
  | some bytes => rfl

theorem after_mkdir (w : World) (user password dir : String) (files : Files) :
    w.after (sudoCommand user password ["mkdir", "-p", dir]) files = files := by
  show (match w.taken _ [] with | none => files | some bytes => files) = _
  split <;> rfl

/-! ## The paths -/

theorem hasNul_safeName (u : Text.Alphanumeric) (name : String) :
    Text.hasNul (safeName u name) = false := by
  rw [safeName, Text.hasNul_ofList, decide_eq_false_iff_not, List.mem_map]
  rintro ⟨c, -, hc⟩
  split_ifs at hc with hkept
  · subst hc
    rw [u.mem_nul] at hkept
    exact absurd hkept (by decide)
  · exact absurd hc (by decide)

theorem of_parse {r : Request} {data : Value} (h : parse u data = .ok r) :
    Text.hasNul r.stem = false ∧ ∀ dir ∈ r.dir, Text.hasNul dir = false := by
  have hdir (name : String) : Text.hasNul ("/etc/ssl/" ++ safeName u name) = false := by
    rw [Text.hasNul_append, hasNul_safeName]
    decide
  unfold parse at h
  split at h
  · cases h
  · rename_i name _
    split at h
    · cases h
    · split at h
      · cases h
      · simp only at h
        split_ifs at h
        · cases h
          refine ⟨?_, ?_⟩
          · show Text.hasNul ("/etc/ssl/" ++ safeName u name ++ "/" ++ safeName u name) = false
            rw [Text.hasNul_append, Text.hasNul_append, hdir, hasNul_safeName]
            decide
          · intro dir hmem
            cases hmem
            exact hdir name
        · cases h
          refine ⟨hdir name, ?_⟩
          intro dir hmem
          cases hmem

theorem certPath_ne_keyPath (r : Request) : r.certPath ≠ r.keyPath := by
  intro heq
  have hends := congrArg String.toList heq
  rw [Request.certPath, Request.keyPath, String.toList_append, String.toList_append] at hends
  exact absurd (List.append_cancel_left hends) (by decide)

/-- The last of three arguments is what may have a NUL. -/
theorem any_hasNul_path {program option : String} (hprogram : Text.hasNul program = false)
    (hoption : Text.hasNul option = false) (path : String) :
    [program, option, path].any Text.hasNul = Text.hasNul path := by
  simp [hprogram, hoption]

theorem hasNul_paths {r : Request} (h : Text.hasNul r.stem = false) :
    Text.hasNul r.certPath = false ∧ Text.hasNul r.keyPath = false := by
  rw [Request.certPath, Request.keyPath, Text.hasNul_append, Text.hasNul_append, h]
  decide

/-! ## The two writes -/

/-- A step that may fail, with what is done then. -/
theorem runOn_step {p next : HostM Value} {files' : Files} {done : Bool}
    (herror : isError (p.runOn w.exec files).1 = !done) (hfiles : (p.runOn w.exec files).2 = files')
    (onError : Value → HostM Value) :
    (p >>= fun res => if isError res then onError res else next).runOn w.exec files =
      if done then next.runOn w.exec files'
      else (onError (p.runOn w.exec files).1).runOn w.exec files' := by
  rw [Prog.runOn_bind, hfiles]
  cases done with
  | false =>
    rw [Bool.not_false] at herror
    rw [herror, if_pos rfl, if_neg (by decide)]
  | true =>
    rw [Bool.not_true] at herror
    rw [herror, if_neg (by decide), if_pos rfl]

/-- Whether saving fails, and what it leaves. -/
theorem runOn_savePair (w : World) (password : String) (files : Files) {r : Request}
    (hstem : Text.hasNul r.stem = false) (hknows : w.knows user = true) :
    let writeCert := teeCommand user password r.certPath r.cert
    let writeKey := teeCommand user password r.keyPath r.key
    let remove := sudoCommand user password ["rm", "-f", r.certPath]
    let chmod := sudoCommand user password ["chmod", "600", r.keyPath]
    let written := w.after writeKey (w.after writeCert files)
    let run := (savePair user password r).runOn w.exec files
    isError run.1 = !(w.succeeds writeCert && w.succeeds writeKey && w.succeeds chmod) ∧
    run.2 =
      if ¬ w.succeeds writeCert then w.after writeCert files
      else if ¬ w.succeeds writeKey then w.after remove written
      else w.after chmod written := by
  dsimp only
  obtain ⟨hcert, hkey⟩ := hasNul_paths hstem
  have hremove : ["rm", "-f", r.certPath].any Text.hasNul = false := by
    rw [any_hasNul_path (by decide) (by decide), hcert]
  have hchmod : ["chmod", "600", r.keyPath].any Text.hasNul = false := by
    rw [any_hasNul_path (by decide) (by decide), hkey]
  have hcertRun (files : Files) := runOn_tee w user password r.cert files hcert
  have hkeyRun (files : Files) := runOn_tee w user password r.key files hkey
  have hremoveRun (files : Files) := runOn_sudoAsUser w user password files hremove
  have hchmodRun (files : Files) := runOn_sudoAsUser w user password files hchmod
  simp only [hknows, Bool.true_and, if_true] at hcertRun hkeyRun hremoveRun hchmodRun
  rw [savePair, runOn_step (hcertRun _).1 (hcertRun _).2, runOn_step (hkeyRun _).1 (hkeyRun _).2,
    runOn_step (hchmodRun _).1 (hchmodRun _).2.2, Prog.runOn_bind, (hremoveRun _).2.2]
  simp only [Prog.runOn_pure]
  cases hcertDone : w.succeeds (teeCommand user password r.certPath r.cert) with
  | false =>
    simp only [Bool.false_eq_true, if_false, not_false_eq_true, if_true, and_true]
    rw [(hcertRun files).1, hcertDone, Bool.false_and, Bool.false_and]
  | true =>
    cases hkeyDone : w.succeeds (teeCommand user password r.keyPath r.key) with
    | false =>
      simp only [Bool.false_eq_true, if_false, not_false_eq_true, not_true_eq_false, if_true,
        and_true]
      rw [(hkeyRun _).1, hkeyDone, Bool.true_and, Bool.false_and]
    | true =>
      cases hchmodDone : w.succeeds (sudoCommand user password ["chmod", "600", r.keyPath]) with
      | false =>
        simp only [Bool.false_eq_true, if_false, not_true_eq_false, if_true, and_true]
        rw [(hchmodRun _).1, hchmodDone, Bool.true_and, Bool.and_false]
      | true =>
        simp only [not_true_eq_false, if_false, if_true, and_true]
        rfl

/-! ## What an error leaves of the two files -/

theorem after_tee_eq_iff (w : World) (user password path content : String) (files : Files) :
    w.after (teeCommand user password path content) files path = files path ↔
      w.Spares (teeCommand user password path content) (Utf8.bytes content.toList)
        (files path) := by
  rw [after_tee, Function.update_self]
  exact teed_eq_iff w _ (files path)

theorem after_tee_of_ne (w : World) (user password content : String) (files : Files)
    {path other : String} (hne : other ≠ path) :
    w.after (teeCommand user password path content) files other = files other := by
  rw [after_tee, Function.update_of_ne hne]

/-- A key that has been written and restricted is the key from before iff that had both the
content and the mode. -/
theorem chmod_eq_iff (bytes : List UInt8) (mode : ℕ) (file : Option File) :
    ((some ⟨bytes, mode⟩ : Option File).map fun f => { f with mode := 0o600 }) = file ↔
      file.map File.content = some bytes ∧ file.map File.mode = some 0o600 := by
  cases file with
  | none => simp
  | some f =>
    obtain ⟨content, mode⟩ := f
    simp [eq_comm]

/-- What the two writes leave of the certificate and of the key, each as the one write does. -/
theorem after_both (w : World) (user password : String) (r : Request) (files : Files) :
    let writeCert := teeCommand user password r.certPath r.cert
    let writeKey := teeCommand user password r.keyPath r.key
    w.after writeKey (w.after writeCert files) r.certPath = w.after writeCert files r.certPath ∧
      w.after writeKey (w.after writeCert files) r.keyPath = w.after writeKey files r.keyPath := by
  have hne : r.certPath ≠ r.keyPath := certPath_ne_keyPath r
  refine ⟨after_tee_of_ne w user password r.key _ hne, ?_⟩
  rw [after_tee, after_tee w user password r.keyPath, Function.update_self, Function.update_self,
    after_tee_of_ne w user password r.cert files hne.symm]

/-- The removal after a refused key leaves the certificate only if it does not begin. -/
theorem after_remove_eq_iff (w : World) (user password : String) (r : Request) (files : Files) :
    let remove := sudoCommand user password ["rm", "-f", r.certPath]
    let writeCert := teeCommand user password r.certPath r.cert
    let written := w.after (teeCommand user password r.keyPath r.key) (w.after writeCert files)
    w.after remove written r.certPath = files r.certPath ↔
      if w.taken remove [] = none then
        w.Spares writeCert (Utf8.bytes r.cert.toList) (files r.certPath)
      else files r.certPath = none := by
  dsimp only
  rw [after_remove, Function.update_self, (after_both w user password r files).1]
  split_ifs with hnone
  · exact after_tee_eq_iff w user password r.certPath r.cert files
  · exact eq_comm

/-- A key that has been written is as before under the new mode iff it was the same key, with that
mode unless the change of the mode does not begin. -/
theorem after_chmod_eq_iff (w : World) (user password : String) (r : Request) (files : Files)
    (hdone : w.succeeds (teeCommand user password r.keyPath r.key) = true) :
    let chmod := sudoCommand user password ["chmod", "600", r.keyPath]
    let writeKey := teeCommand user password r.keyPath r.key
    let written := w.after writeKey (w.after (teeCommand user password r.certPath r.cert) files)
    w.after chmod written r.keyPath = files r.keyPath ↔
      w.Spares writeKey (Utf8.bytes r.key.toList) (files r.keyPath) ∧
        (w.taken chmod [] = none ∨ (files r.keyPath).map File.mode = some 0o600) := by
  dsimp only
  rw [after_chmod, Function.update_self, (after_both w user password r files).2]
  split_ifs with hnone
  · rw [after_tee_eq_iff, and_iff_left (.inl hnone)]
  · have htaken : w.taken (teeCommand user password r.keyPath r.key) (Utf8.bytes r.key.toList) =
        some (Utf8.bytes r.key.toList) := by
      rw [World.taken, hdone, if_pos rfl]
    rw [after_tee, Function.update_self, htaken, or_iff_right hnone, World.Spares, htaken]
    refine (chmod_eq_iff _ _ _).trans (and_congr_left' ?_)
    simp

theorem savePair_intact_iff (w : World) (password : String) (files : Files) {r : Request}
    (hstem : Text.hasNul r.stem = false) (hknows : w.knows user = true) :
    (let run := (savePair user password r).runOn w.exec files
     isError run.1 → run.2 r.certPath = files r.certPath ∧ run.2 r.keyPath = files r.keyPath) ↔
      w.Restores user password r files := by
  obtain ⟨herror, hfiles⟩ := runOn_savePair w password files hstem hknows
  obtain ⟨hcert, hkey⟩ := after_both w user password r files
  have hne : r.certPath ≠ r.keyPath := certPath_ne_keyPath r
  have hremoved := after_remove_eq_iff w user password r files
  dsimp only at herror hfiles hremoved ⊢
  rw [herror, hfiles, World.Restores]
  cases hcertDone : w.succeeds (teeCommand user password r.certPath r.cert) with
  | false =>
    simp only [Bool.false_and, Bool.not_false, Bool.false_eq_true, not_false_eq_true, if_true,
      forall_const]
    rw [after_tee_eq_iff, and_iff_left (after_tee_of_ne w user password r.cert files hne.symm)]
  | true =>
    cases hkeyDone : w.succeeds (teeCommand user password r.keyPath r.key) with
    | false =>
      simp only [Bool.true_and, Bool.false_and, Bool.not_false, Bool.false_eq_true,
        not_false_eq_true, not_true_eq_false, if_true, if_false, forall_const]
      rw [hremoved, and_comm, after_remove, Function.update_of_ne hne.symm, hkey,
        after_tee_eq_iff]
    | true =>
      cases hchmodDone : w.succeeds (sudoCommand user password ["chmod", "600", r.keyPath]) with
      | false =>
        simp only [Bool.and_false, Bool.not_false, not_true_eq_false, Bool.false_eq_true,
          not_false_eq_true, if_true, if_false, forall_const]
        have hrestricted := after_chmod_eq_iff w user password r files hkeyDone
        dsimp only at hrestricted
        rw [hrestricted, after_chmod, Function.update_of_ne hne, hcert, after_tee_eq_iff]
      | true =>
        simp only [Bool.and_true, Bool.not_true, not_true_eq_false, if_false, Bool.false_eq_true,
          false_imp_iff]

theorem hasNul_mkdir {r : Request} {data : Value} {dir : String} (hparse : parse u data = .ok r)
    (hdir : r.dir = some dir) : ["mkdir", "-p", dir].any Text.hasNul = false := by
  rw [any_hasNul_path (by decide) (by decide), (of_parse hparse).2 dir hdir]

/-- With a directory to make, the writes come if that succeeds. -/
theorem runOn_certSave (password : String) (files : Files) {r : Request} {data : Value}
    (hparse : parse u data = .ok r) (hknows : w.knows user = true) :
    (certSave u data user password).runOn w.exec files =
        (savePair user password r).runOn w.exec files ∧
      (∀ dir ∈ r.dir, w.succeeds (sudoCommand user password ["mkdir", "-p", dir])) ∨
    ((certSave u data user password).runOn w.exec files).2 = files ∧
      ¬ ∀ dir ∈ r.dir, w.succeeds (sudoCommand user password ["mkdir", "-p", dir]) := by
  unfold certSave
  rw [hparse]
  dsimp only
  cases hdir : r.dir with
  | none => exact .inl ⟨rfl, fun dir h => by cases h⟩
  | some dir =>
    obtain ⟨herror, -, hfiles⟩ :=
      runOn_sudoAsUser w user password files (hasNul_mkdir hparse hdir)
    rw [hknows, Bool.true_and] at herror
    rw [hknows, if_pos rfl, after_mkdir] at hfiles
    dsimp only
    rw [runOn_step herror hfiles]
    split_ifs with hdone
    · refine .inl ⟨rfl, fun dir' h => ?_⟩
      cases h
      exact hdone
    · exact .inr ⟨rfl, fun h => hdone (h dir rfl)⟩

/-- For an account that is not there nothing is done. -/
theorem runOn_certSave_of_unknown {data : Value} (hknows : w.knows user = false) :
    ((certSave u data user password).runOn w.exec files).2 = files := by
  unfold certSave
  cases hparse : parse u data with
  | error e => rfl
  | ok r =>
    dsimp only
    cases hdir : r.dir with
    | none =>
      obtain ⟨herror, hfiles⟩ :=
        runOn_tee w user password r.cert files (hasNul_paths (of_parse hparse).1).1
      rw [hknows, Bool.false_and] at herror
      rw [hknows, if_neg (by decide)] at hfiles
      show ((savePair user password r).runOn w.exec files).2 = files
      rw [savePair, runOn_step herror hfiles, if_neg (by decide)]
      rfl
    | some dir =>
      obtain ⟨herror, -, hfiles⟩ :=
        runOn_sudoAsUser w user password files (hasNul_mkdir hparse hdir)
      rw [hknows, Bool.false_and] at herror
      rw [hknows, if_neg (by decide)] at hfiles
      dsimp only
      rw [runOn_step herror hfiles, if_neg (by decide)]
      rfl

end

/-- If saving fails, both files are as before iff the write that failed has changed nothing in its
file, and what the writes before it have put into theirs was there: the certificate that is removed
was not there, and the key that is not restricted was the same. -/
theorem cert_save_iff (u : Text.Alphanumeric) (w : World) (data : Value) (user password : String)
    (files : Files) :
    Intact u w data user password files ↔ Restored u w data user password files := by
  unfold Intact Restored
  dsimp only
  cases hknows : w.knows user with
  | false =>
    refine iff_of_true (fun _ path _ => ?_) fun r _ h => by cases h
    rw [runOn_certSave_of_unknown hknows]
  | true =>
    unfold pathsOf
    cases hparse : parse u data with
    | error e =>
      refine iff_of_true (fun _ path hpath => ?_) fun r hr => ?_
      · cases hpath
      · cases hr
    | ok r =>
      have hpair := savePair_intact_iff w password files (of_parse hparse).1 hknows
      dsimp only at hpair ⊢
      rcases runOn_certSave password files hparse hknows with ⟨hrun, hdirs⟩ | ⟨hrun, hdirs⟩
      · rw [hrun]
        constructor
        · intro h r' hr' _ _
          cases hr'
          exact hpair.1 fun herror => ⟨h herror _ (by simp), h herror _ (by simp)⟩
        · intro h herror path hpath
          obtain ⟨hcert, hkey⟩ := hpair.2 (h r rfl rfl hdirs) herror
          rcases List.mem_pair.1 hpath with rfl | rfl
          · exact hcert
          · exact hkey
      · refine iff_of_true (fun _ path _ => ?_) fun r' hr' _ hdirs' => ?_
        · rw [hrun]
        · cases hr'
          exact absurd hdirs' hdirs

/-- Every account is there, and every command but one succeeds; that one does nothing. -/
def refusing (refused : Command) : World where
  reply
    | .run c => .ok ⟨c ≠ refused, "", "", false⟩
    | .lookupUser _ => some ⟨0, 0, "", ""⟩
    | .canonicalize _ | .readFile _ | .env _ => none
    | .isDir _ | .pathExists _ | .statvfs _ | .writeFile _ _ | .removeFile _ => false
    | .readDir _ | .words => []
    | .uname => ""
    | .audit .. | .recordFailure _ | .clearFailures _ | .session _ => ()
    | .isLockedOut _ | .verdict => false
    | .os => sampleOs
    | .json => .null
  reach _ := none
  newMode := 0o644

/-- A pair that has been installed. -/
def installed : Files := fun path =>
  if path = "/etc/ssl/web.crt" then some ⟨[67], 0o644⟩
  else if path = "/etc/ssl/web.key" then some ⟨[75], 0o600⟩
  else none

/-- A renewal of the pair. -/
def renewal : Value :=
  .object [("name", .string "web"), ("cert", .string "D"), ("key", .string "L")]

/-- A refused write of the key costs the certificate that was there, and a refused `chmod` leaves
the new pair. -/
theorem installed_lost :
    ¬ Intact Text.asciiAlphanumeric (refusing (teeCommand "root" "" "/etc/ssl/web.key" "L"))
      renewal "root" "" installed ∧
    ¬ Intact Text.asciiAlphanumeric
      (refusing (sudoCommand "root" "" ["chmod", "600", "/etc/ssl/web.key"]))
      renewal "root" "" installed := by
  decide +kernel

end Tenodera.Agent.CertFiles
