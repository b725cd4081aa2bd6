import Tenodera.Agent.Look

/-!
# The crash dump handler

`kdump.info`.  A dump is read as the user or with that user's password.  The directory of a dump is
where `find` is to start, and it stands there without a guard against the actions of `find`:
`quiet_kdumpInfo_iff` says for which requests that changes nothing on any host.
-/

namespace Tenodera.Agent.Host

open Protocol Effect Path

variable (u : Text.Alphanumeric)

/-! ## The state of the service -/

namespace Look

/-- `collect_kdump_status`. -/
def collectKdumpStatus : Look Unit := do
  let kdumpTools ← pathExists "/usr/sbin/kdump-config"
  if ¬ (← pathExists "/usr/sbin/makedumpfile") then
    let _ ← pathExists "/usr/bin/makedumpfile"
  let serviceName := if kdumpTools then "kdump-tools" else "kdump"
  let _ ← run ["systemctl", "is-active", serviceName]
  let _ ← run ["systemctl", "is-enabled", serviceName]
  readFiles ["/sys/kernel/kexec_crash_loaded", "/sys/kernel/kexec_crash_size", "/proc/version"]

/-- `list_crash_dumps`. -/
def listCrashDumps : Look Unit := do
  for dir in ["/var/crash", "/var/lib/kdump"] do
    for name in ← readDir dir do
      if ← perform (.isDir (dir ++ "/" ++ name)) then
        let _ ← readDir (dir ++ "/" ++ name)

/-- `kdump_config_target`. -/
def kdumpConfigTarget : Look (Option String) := do
  if ← pathExists "/etc/default/kdump-tools" then return some "/etc/default/kdump-tools"
  else if ← pathExists "/etc/kdump.conf" then return some "/etc/kdump.conf"
  else return none

/-- `read_kdump_config`. -/
def readKdumpConfig : Look Unit := do
  match ← kdumpConfigTarget with
  | some path =>
    if (← readFile path).isSome then return
  | none => pure ()
  let _ ← readFile "/etc/kdump/kdump.conf"

/-- The answer without an action. -/
def kdumpOverview : Look Value := do
  collectKdumpStatus
  listCrashDumps
  readKdumpConfig
  let _ ← readFile "/proc/cmdline"
  answer

end Look

/-! ## Reading a dump -/

/-- `is_valid_dump_path`. -/
def isValidDumpPath (path : String) : HostM Bool := do
  match ← canonicalize path with
  | none => return false
  | some canonical =>
    return Text.startsWith (render canonical) "/var/crash" ||
      Text.startsWith (render canonical) "/var/lib/kdump"

/-- `kdump_read_capped`. -/
def kdumpReadCapped (user password path : String) : HostM (Option String) :=
  brokered u user password ["head", "-c", "65536", "--", path]

def unreadableDump : Value :=
  .object [("ok", .bool false), ("restricted", .bool true),
    ("reason", .string "insufficient-perms"),
    ("error", .string "cannot read this crash dump — enable superuser mode")]

/-- `read_dump_details`. -/
def readDumpDetails (path user password : String) : HostM Value := do
  if ¬ (← isValidDumpPath path) then return failedValue "invalid path"
  else
    let _ ← perform (.pathExists path)
    if Text.contains path "vmcore" then perform .json
    else
      match ← kdumpReadCapped u user password path with
      | none => return unreadableDump
      | some _ => perform .json

/-- The arguments of `kdump_find_dmesg`. -/
def findDmesgArgs (dir : String) : List String :=
  ["find", dir, "-maxdepth", "1", "-type", "f", "-iname", "*dmesg*"]

/-- `kdump_find_dmesg`. -/
def kdumpFindDmesg (user password dir : String) : HostM (List String) := do
  let out := (← brokered u user password (findDmesgArgs dir)).getD ""
  return (Text.lines out).filter (· ≠ "")

def addCandidates (candidates found : List String) : List String :=
  found.foldl (fun cs f => if f ∈ cs then cs else cs ++ [f]) candidates

/-- The first candidate that has a content. -/
def firstReadable (user password : String) : List String → HostM Value
  | [] => pure (failedValue
    "no readable dmesg log in dump directory (enable superuser mode if you lack access)")
  | path :: rest => do
    match ← kdumpReadCapped u user password path with
    | none => firstReadable user password rest
    | some content =>
      if content = "" then firstReadable user password rest
      else return .object [("ok", .bool true), ("path", .string path), ("content", .string content)]

/-- `read_dmesg_log`. -/
def readDmesgLog (path user password : String) : HostM Value := do
  if ¬ (← isValidDumpPath path) then return failedValue "invalid path"
  else
    let dir := Text.trimEnd path '/'
    let known := ["dmesg.txt", "dmesg.log", "vmcore-dmesg.txt"].map fun n => dir ++ "/" ++ n
    let found ← kdumpFindDmesg u user password dir
    firstReadable u user password (addCandidates known found)

/-- `kdump.info`, with what stands behind the check of the role. -/
def kdumpInfo (setConfig : HostM Value) (options : Value) : HostM Value :=
  let user := strField options "_user"
  let password := strField options "password"
  let path := strField options "path"
  match (options.get "action").bind Value.asStr with
  | some "read_dump" => readDumpDetails u path user password
  | some "read_dmesg" => readDmesgLog u path user password
  | some "set_config" => gated options setConfig
  | _ => Look.kdumpOverview.prog

/-! ## What the handler changes -/

/-- A user can run the command, with a password or without one. -/
def CanRun (user password : String) : Prop :=
  (password ≠ "" ∧ Text.hasNul user = false) ∨ (password = "" ∧ isValidUsername u user)

/-- The directory of the request is an action of `find`. -/
def FindWrites (options : Value) : Prop :=
  (options.get "action").bind Value.asStr = some "read_dmesg" ∧
    Text.trimEnd (strField options "path") '/' ∈ findActions ∧
    CanRun u (strField options "_user") (strField options "password")

section

variable {u : Text.Alphanumeric} {user password path dir : String} {options : Value}

theorem quiet_isValidDumpPath (path : String) : Quiet (isValidDumpPath path) := by
  refine (quiet_canonicalize path).bind ?_
  rintro (_ | _) <;> exact quiet_pure _

theorem quiet_kdumpReadCapped (user password path : String) :
    Quiet (kdumpReadCapped u user password path) :=
  quiet_brokered_iff.2 ⟨fun _ => Or.inr (Or.inr rfl), fun _ _ => Or.inr rfl⟩

theorem quiet_readDumpDetails (path user password : String) :
    Quiet (readDumpDetails u path user password) := by
  refine (quiet_isValidDumpPath path).bind fun valid => ?_
  refine Prog.Only.ite (fun _ => quiet_pure _) fun _ => ?_
  refine Quiet.bind ((quiet_perform _).2 rfl) fun _ => ?_
  refine Prog.Only.ite (fun _ => (quiet_perform _).2 rfl) fun _ => ?_
  refine (quiet_kdumpReadCapped user password path).bind ?_
  rintro (_ | _)
  · exact quiet_pure _
  · exact (quiet_perform _).2 rfl

theorem quiet_firstReadable (user password : String) (candidates : List String) :
    Quiet (firstReadable u user password candidates) := by
  induction candidates with
  | nil => exact quiet_pure _
  | cons path rest ih =>
    refine (quiet_kdumpReadCapped user password path).bind ?_
    rintro (_ | content)
    · exact ih
    · exact Prog.Only.ite (fun _ => ih) fun _ => quiet_pure _

theorem observes_findDmesgArgs (dir : String) :
    observes (findDmesgArgs dir) = decide (dir ∉ findActions) := rfl

theorem hasNul_of_mem_findActions (h : dir ∈ findActions) : Text.hasNul dir = false := by
  simp only [findActions, List.mem_cons, List.not_mem_nil, or_false] at h
  rcases h with rfl | rfl | rfl | rfl | rfl <;> rfl

theorem any_hasNul_findDmesgArgs (dir : String) :
    (findDmesgArgs dir).any Text.hasNul = Text.hasNul dir := by
  change (false || (Text.hasNul dir || false)) = _
  rw [Bool.false_or, Bool.or_false]

theorem quiet_kdumpFindDmesg_iff : Quiet (kdumpFindDmesg u user password dir) ↔
    ¬ (dir ∈ findActions ∧ CanRun u user password) := by
  rw [kdumpFindDmesg, quiet_bind_iff, and_iff_left fun _ _ => quiet_pure _, quiet_brokered_iff,
    any_hasNul_findDmesgArgs, show stripSudo (findDmesgArgs dir) = findDmesgArgs dir from rfl,
    observes_findDmesgArgs]
  by_cases hdir : dir ∈ findActions
  · rw [hasNul_of_mem_findActions hdir, CanRun]
    by_cases hpw : password = "" <;> simp [hdir, hpw]
  · simp [hdir]

theorem quiet_readDmesgLog_iff : Quiet (readDmesgLog u path user password) ↔
    ¬ (Text.trimEnd path '/' ∈ findActions ∧ CanRun u user password) := by
  constructor
  · rintro h ⟨hfind, hrun⟩
    -- The dump directory may be anywhere that the path leads to.
    have hvalid : (isValidDumpPath path).Returns true := by
      refine (Prog.returns_bind _ _ _).2 ⟨some [.rootDir, .normal "var", .normal "crash"],
        returns_canonicalize_iff.2 fun hnone => ?_, ?_⟩
      · rcases hnone with rfl | hnul
        · exact absurd hfind (by decide)
        · have hslash : '\x00' ≠ '/' := by decide
          rw [← Text.hasNul_trimEnd path hslash, hasNul_of_mem_findActions hfind] at hnul
          cases hnul
      · change true = (_ || _)
        decide
    have hrest := (quiet_bind_iff.1 h).2 true hvalid
    exact quiet_kdumpFindDmesg_iff.1 (quiet_bind_iff.1 hrest).1 ⟨hfind, hrun⟩
  · intro h
    refine (quiet_isValidDumpPath path).bind fun valid => ?_
    refine Prog.Only.ite (fun _ => quiet_pure _) fun _ => ?_
    exact (quiet_kdumpFindDmesg_iff.2 h).bind fun found => quiet_firstReadable user password _

/-- Without the role of an administrator the handler changes something exactly through `find`. -/
theorem quiet_kdumpInfo_iff {setConfig : HostM Value} (h : isAdmin options = false) :
    Quiet (kdumpInfo u setConfig options) ↔ ¬ FindWrites u options := by
  unfold kdumpInfo FindWrites
  dsimp only
  split
  next haction => simp [haction, quiet_readDumpDetails]
  next haction => simp [haction, quiet_readDmesgLog_iff]
  next haction => simp [haction, quiet_gated h]
  next hdump hdmesg hset =>
    have hother : (options.get "action").bind Value.asStr ≠ some "read_dmesg" := hdmesg
    simp [hother, Look.kdumpOverview.quiet]

end

end Tenodera.Agent.Host
