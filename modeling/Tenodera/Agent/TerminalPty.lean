import Mathlib.Data.List.DropRight
import Tenodera.Protocol.Message

/-!
# The terminal handler

How the agent starts the process behind a `terminal.pty` channel: the options it reads, the look-up
of the target user, the allowlist of shells, and the privilege drop between `fork` and `exec`.
`Os` is the operating system and the user database as the handler sees them.  `confined_iff` says
when the login shell runs with the identity the database gives to `_user`, and with no other.
-/

namespace Tenodera.Agent

open Protocol

/-- The fields of a `passwd` row that are read. -/
structure Passwd where
  uid : UInt32
  gid : UInt32
  dir : String
  shell : String
  deriving DecidableEq, Repr

/-- What `getpwnam_r` and `getpwuid_r` answer. -/
inductive NssAnswer
  | found (pwd : Passwd)
  | notFound
  | error (code : Int32)
  deriving DecidableEq, Repr

structure Winsize where
  rows : UInt16
  cols : UInt16
  deriving DecidableEq, Repr

/-- The answers of the operating system; errors are given by their text. -/
structure Os where
  getpwnam : String → NssAnswer
  getpwuid : UInt32 → NssAnswer
  /-- The identity of the agent. -/
  euid : UInt32
  egid : UInt32
  initgroups : String → UInt32 → Bool
  setgid : UInt32 → Bool
  setuid : UInt32 → Bool
  openpty : Winsize → Except String Unit
  /-- Whether the slave side can be duplicated three times. -/
  dupSlave : Bool
  chdir : String → Except String Unit
  /-- `execvp` of a program under a user and a group id. -/
  exec : String → UInt32 → UInt32 → Except String Unit
  /-- Duplicating the master side and registering it with the reactor. -/
  watchMaster : Except String Unit
  /-- `superuser_verify::verify_password`. -/
  verifyPassword : String → String → Bool
  which : String → Bool
  /-- `char::is_alphanumeric`, the Unicode property. -/
  isAlphanumeric : Char → Bool

/-- `lookup_user`: resolved through NSS; names with a NUL have no C string. -/
def lookupUser (os : Os) (username : String) : Option Passwd :=
  if '\x00' ∈ username.toList then none
  else
    match os.getpwnam username with
    | .found pwd => some pwd
    | .notFound | .error _ => none

/-- `get_user_shell`: the login shell of the agent's own user. -/
def getUserShell (os : Os) : Option String :=
  match os.getpwuid os.euid with
  | .found pwd => if pwd.shell = "" then none else some pwd.shell
  | .notFound | .error _ => none

/-! ## Spawning under a pty -/

structure Child where
  program : String
  argv0 : String
  args : List String
  cwd : String
  /-- Variables set on top of the agent's environment. -/
  env : List (String × String)
  uid : UInt32
  gid : UInt32
  /-- Whose supplementary groups it has; `none` for the agent's. -/
  groups : Option String
  deriving DecidableEq, Repr

/-- `program.rsplit('/').next()`. -/
def basename (program : String) : String :=
  String.ofList (program.toList.rtakeWhile fun c => c ≠ '/')

/-- The user, group and supplementary groups after `pre_exec`.  The result of `initgroups` is
ignored; without a resolved user nothing is switched. -/
def preExec (os : Os) : Option (String × Passwd) → Except String (UInt32 × UInt32 × Option String)
  | none => .ok (os.euid, os.egid, none)
  | some (username, pwd) =>
    let groups := if os.initgroups username pwd.gid then some username else none
    if ¬ os.setgid pwd.gid ∨ ¬ os.setuid pwd.uid then .error "Invalid argument (os error 22)"
    else .ok (pwd.uid, pwd.gid, groups)

/-- The variables set for the target user. -/
def childEnv (program : String) : Option (String × Passwd) → List (String × String)
  | none => []
  | some (username, pwd) =>
    [("HOME", pwd.dir), ("USER", username), ("LOGNAME", username), ("SHELL", program)]

/-- `Command::spawn`: the working directory is entered before `pre_exec`, the program executed
after it. -/
def spawn (os : Os) (program argv0 : String) (args : List String) (cwd : String)
    (userInfo : Option (String × Passwd)) : Except String Child := do
  if '\x00' ∈ cwd.toList then throw "nul byte found in provided data"
  os.chdir cwd
  let (uid, gid, groups) ← preExec os userInfo
  os.exec program uid gid
  return { program, argv0, args, cwd, env := childEnv program userInfo, uid, gid, groups }

/-- How a pty fails to open: with an error, or with a panic of the task. -/
inductive PtyFailure
  | error (text : String)
  | panic
  deriving DecidableEq, Repr

/-- `open_pty_cmd`: the process it leaves running, and its result. -/
def openPtyCmd (os : Os) (program : String) (args : List String) (winsize : Winsize) (cwd : String)
    (runAsUser : Option String) : Option Child × Except PtyFailure Unit :=
  match os.openpty winsize with
  | .error e => (none, .error (.error e))
  | .ok () =>
    -- taking ownership of a descriptor `-1` panics
    if ¬ os.dupSlave then (none, .error .panic)
    else
      let argv0 := if runAsUser.isSome then "-" ++ basename program else basename program
      let userInfo := runAsUser.bind fun u => (lookupUser os u).map fun pwd => (u, pwd)
      match spawn os program argv0 args cwd userInfo with
      | .error e => (none, .error (.error ("failed to spawn " ++ program ++ ": " ++ e)))
      | .ok child => (some child, os.watchMaster.mapError .error)

/-! ## The options of the channel -/

def option (opts : ChannelOpenOptions) (key : String) : Option String :=
  (opts.extra.lookup key).bind Value.asStr

def winsize (opts : ChannelOpenOptions) : Winsize where
  rows := (((opts.extra.lookup "rows").bind Value.asU64).getD 24).toUInt16
  cols := (((opts.extra.lookup "cols").bind Value.asU64).getD 80).toUInt16

def isContainerChar (c : Char) : Bool :=
  c.isAlphanum || c = '-' || c = '_' || c = '.' || c = ':' || c = '/'

/-- The `container` option, which turns the session into an exec into that container. -/
def containerOption (opts : ChannelOpenOptions) : Option String :=
  (option opts "container").filter fun c =>
    c ≠ "" ∧ c.utf8ByteSize ≤ 128 ∧ c.toList.all isContainerChar

def isUserChar (os : Os) (c : Char) : Bool := os.isAlphanumeric c || c = '_' || c = '-' || c = '.'

/-- The `_user` option, past the handler's filter. -/
def targetUser (os : Os) (opts : ChannelOpenOptions) : Option String :=
  (option opts "_user").filter fun u => u.toList.all (isUserChar os)

def allowedShells : List String :=
  ["/bin/sh", "/bin/bash", "/bin/zsh", "/bin/fish", "/usr/bin/sh", "/usr/bin/bash", "/usr/bin/zsh",
    "/usr/bin/fish"]

/-- The shell when neither the client nor the user's database row names one. -/
def fallbackShell (os : Os) : String := (getUserShell os).getD "/bin/sh"

/-! ## Starting a session -/

structure AuditEntry where
  user : String
  action : String
  target : String
  deriving DecidableEq, Repr

/-- What the handler does before its reader loop: it may write an audit entry, spawn a process, and
refuse the channel. -/
structure Launch where
  audit : Option AuditEntry
  child : Option Child
  refusal : Option Message

def refuse (audit : Option AuditEntry) (channel : ChannelId) (problem : String) : Launch :=
  ⟨audit, none, some (.close channel (some problem))⟩

def launched (audit : AuditEntry) (channel : ChannelId) :
    Option Child × Except PtyFailure Unit → Launch
  | (child, .ok ()) | (child, .error .panic) => ⟨some audit, child, none⟩
  | (child, .error (.error e)) =>
    ⟨some audit, child, some (.close channel (some ("pty-error: " ++ e)))⟩

/-- An interactive shell in a container, as the agent, for a caller with a verified password. -/
def containerSession (os : Os) (channel : ChannelId) (opts : ChannelOpenOptions)
    (container : String) : Launch :=
  let user := (option opts "_user").getD ""
  let password := (option opts "password").getD ""
  if ¬ os.verifyPassword user password then refuse none channel "authentication required"
  else
    let rt := if os.which "docker" then some "docker" else
      if os.which "podman" then some "podman" else none
    match rt with
    | none => refuse none channel "no container runtime"
    | some rt =>
      let requested := (option opts "shell").filter fun s =>
        s ∈ ["sh", "bash", "ash", "/bin/sh", "/bin/bash"]
      let audit : AuditEntry :=
        ⟨user, "container.exec", rt ++ " " ++ container ++ " " ++ requested.getD "auto"⟩
      let args := match requested with
        | some sh => ["exec", "-it", container, sh]
        | none => ["exec", "-it", container, "/bin/sh", "-c",
            "exec \"$(command -v bash || command -v ash || echo /bin/sh)\""]
      launched audit channel (openPtyCmd os rt args (winsize opts) "/" none)

/-- A login shell as the target user. -/
def loginSession (os : Os) (channel : ChannelId) (opts : ChannelOpenOptions) : Launch :=
  let user := targetUser os opts
  let userInfo := user.bind (lookupUser os)
  let defaultShell :=
    ((userInfo.map (·.shell)).filter fun s => s ≠ "").getD (fallbackShell os)
  let shell := (option opts "shell").getD defaultShell
  if shell ∉ allowedShells then refuse none channel ("shell not allowed: " ++ shell)
  else
    let defaultCwd := (userInfo.map (·.dir)).getD "/tmp"
    let cwd := (option opts "cwd").getD defaultCwd
    let audit : AuditEntry := ⟨user.getD "unknown", "terminal.open", "shell=" ++ shell⟩
    launched audit channel (openPtyCmd os shell [] (winsize opts) cwd user)

/-- `stream`, up to its reader loop. -/
def stream (os : Os) (channel : ChannelId) (opts : ChannelOpenOptions) : Launch :=
  match containerOption opts with
  | some container => containerSession os channel opts container
  | none => loginSession os channel opts

/-! ## The identity of the shell -/

/-- The `_user` option passes the filter and is a user of the database. -/
def ResolvesUser (os : Os) (opts : ChannelOpenOptions) : Prop :=
  ∃ user pwd, targetUser os opts = some user ∧ lookupUser os user = some pwd

/-- The agent could start, under its own identity, the shell the client asks for (by default the
agent's own) in the directory the client asks for (by default `/tmp`). -/
def AgentCanSpawn (os : Os) (opts : ChannelOpenOptions) : Prop :=
  let shell := (option opts "shell").getD (fallbackShell os)
  let cwd := (option opts "cwd").getD "/tmp"
  shell ∈ allowedShells ∧ os.openpty (winsize opts) = .ok () ∧ os.dupSlave ∧
    '\x00' ∉ cwd.toList ∧ os.chdir cwd = .ok () ∧ os.exec shell os.euid os.egid = .ok ()

/-- A process is spawned only with the user and group id that the database gives to `_user`. -/
def Confined (os : Os) (opts : ChannelOpenOptions) (launch : Launch) : Prop :=
  ∀ child, launch.child = some child → ∃ user pwd, targetUser os opts = some user ∧
    lookupUser os user = some pwd ∧ child.uid = pwd.uid ∧ child.gid = pwd.gid

section

variable {os : Os} {program argv0 cwd : String} {args : List String} {ws : Winsize}
  {child : Child} {opts : ChannelOpenOptions}

theorem except_bind_eq_ok_iff {ε α β : Type} {x : Except ε α} {f : α → Except ε β} {b : β} :
    x >>= f = .ok b ↔ ∃ a, x = .ok a ∧ f a = .ok b := by
  cases x <;> simp [bind, Except.bind]

theorem spawn_eq_ok_iff {userInfo : Option (String × Passwd)} :
    spawn os program argv0 args cwd userInfo = .ok child ↔
      '\x00' ∉ cwd.toList ∧ os.chdir cwd = .ok () ∧
        ∃ ids, preExec os userInfo = .ok ids ∧ os.exec program ids.1 ids.2.1 = .ok () ∧
          child =
            ⟨program, argv0, args, cwd, childEnv program userInfo, ids.1, ids.2.1, ids.2.2⟩ := by
  unfold spawn
  by_cases hn : '\x00' ∈ cwd.toList
  · simp [hn, throw, throwThe, MonadExceptOf.throw, bind, Except.bind]
  · simp only [hn, if_false, except_bind_eq_ok_iff, not_false_iff, true_and, pure, Except.pure,
      Except.ok.injEq, eq_comm (b := child), Unique.exists_iff, PUnit.default_eq_unit]

theorem launched_child (audit : AuditEntry) (channel : ChannelId)
    (r : Option Child × Except PtyFailure Unit) : (launched audit channel r).child = r.1 := by
  rcases r with ⟨child, (_ | _) | _⟩ <;> rfl

/-- The process that `open_pty_cmd` leaves running. -/
theorem openPtyCmd_child_iff {user : Option String} :
    (openPtyCmd os program args ws cwd user).1 = some child ↔
      os.openpty ws = .ok () ∧ os.dupSlave ∧
        spawn os program (if user.isSome then "-" ++ basename program else basename program) args
          cwd (user.bind fun u => (lookupUser os u).map fun pwd => (u, pwd)) = .ok child := by
  unfold openPtyCmd
  rcases os.openpty ws with e | _
  · simp
  · by_cases hs : os.dupSlave = true
    · simp only [hs, not_true_eq_false, if_false, true_and]
      split <;> rename_i hc <;> simp [hc]
    · simp [hs]

/-- With a user the database knows, the process has that user's identity. -/
theorem openPtyCmd_of_found {user : String} {pwd : Passwd} (hu : lookupUser os user = some pwd)
    (h : (openPtyCmd os program args ws cwd (some user)).1 = some child) :
    child.uid = pwd.uid ∧ child.gid = pwd.gid := by
  obtain ⟨-, -, h⟩ := openPtyCmd_child_iff.1 h
  obtain ⟨-, -, ids, hids, -, rfl⟩ := spawn_eq_ok_iff.1 h
  simp only [Option.bind_some, hu, Option.map_some, preExec] at hids
  by_cases hset : ¬ os.setgid pwd.gid ∨ ¬ os.setuid pwd.uid
  · rw [if_pos hset] at hids
    cases hids
  · rw [if_neg hset] at hids
    cases hids
    exact ⟨rfl, rfl⟩

/-- Without one it is spawned all the same, whenever the agent can spawn it. -/
theorem openPtyCmd_of_notFound {user : Option String} (hu : user.bind (lookupUser os) = none) :
    (∃ child, (openPtyCmd os program args ws cwd user).1 = some child) ↔
      os.openpty ws = .ok () ∧ os.dupSlave ∧ '\x00' ∉ cwd.toList ∧ os.chdir cwd = .ok () ∧
        os.exec program os.euid os.egid = .ok () := by
  have hinfo : (user.bind fun u => (lookupUser os u).map fun pwd => (u, pwd)) = none := by
    cases user with
    | none => rfl
    | some u => simpa using hu
  simp only [openPtyCmd_child_iff, hinfo, spawn_eq_ok_iff, preExec, Except.ok.injEq]
  constructor
  · rintro ⟨child, hpty, hdup, hn, hcd, ids, rfl, hexec, -⟩
    exact ⟨hpty, hdup, hn, hcd, hexec⟩
  · rintro ⟨hpty, hdup, hn, hcd, hexec⟩
    exact ⟨_, hpty, hdup, hn, hcd, _, rfl, hexec, rfl⟩

/-- A login session is confined to the identity of `_user` exactly when `_user` resolves, or when
the agent could not have spawned the shell itself. -/
theorem confined_iff (os : Os) (channel : ChannelId) (opts : ChannelOpenOptions)
    (hc : containerOption opts = none) :
    Confined os opts (stream os channel opts) ↔ ResolvesUser os opts ∨ ¬ AgentCanSpawn os opts := by
  simp only [stream, hc, loginSession]
  rcases hinfo : (targetUser os opts).bind (lookupUser os) with _ | pwd
  · have hres : ¬ ResolvesUser os opts := by
      rintro ⟨user, pwd, hu, hp⟩
      simp [hu, hp] at hinfo
    have hconf (launch : Launch) :
        Confined os opts launch ↔ ¬ ∃ child, launch.child = some child := by
      refine ⟨fun h => ?_, fun h child hchild => absurd ⟨child, hchild⟩ h⟩
      rintro ⟨child, hchild⟩
      obtain ⟨user, pwd, hu, hp, -⟩ := h child hchild
      exact hres ⟨user, pwd, hu, hp⟩
    simp only [hconf, hres, false_or, not_iff_not, AgentCanSpawn, Option.map_none,
      Option.filter_none, Option.getD_none]
    split_ifs with hs
    · simp only [launched_child, openPtyCmd_of_notFound hinfo, hs, true_and]
    · simp [refuse, hs]
  · obtain ⟨user, hu, hp⟩ := Option.bind_eq_some_iff.1 hinfo
    refine iff_of_true (fun child hchild => ⟨user, pwd, hu, hp, ?_⟩) (Or.inl ⟨user, pwd, hu, hp⟩)
    split_ifs at hchild
    · rw [launched_child, hu] at hchild
      exact openPtyCmd_of_found hp hchild
    · cases hchild

end

/-- An agent running as root on a host that knows `alice` only. -/
def sampleOs : Os where
  getpwnam user :=
    if user = "alice" then .found ⟨1000, 1000, "/home/alice", "/bin/bash"⟩ else .notFound
  getpwuid uid := if uid = 0 then .found ⟨0, 0, "/root", "/bin/bash"⟩ else .notFound
  euid := 0
  egid := 0
  initgroups _ _ := true
  setgid _ := true
  setuid _ := true
  openpty _ := .ok ()
  dupSlave := true
  chdir _ := .ok ()
  exec _ _ _ := .ok ()
  watchMaster := .ok ()
  verifyPassword _ _ := false
  which _ := false
  isAlphanumeric := Char.isAlphanum

/-- The options of a terminal, with the user the gateway puts in. -/
def terminalFor (user : String) : ChannelOpenOptions :=
  ⟨"terminal.pty", none, AList.singleton "_user" (.string user)⟩

theorem confined_alice :
    Confined sampleOs (terminalFor "alice") (stream sampleOs "1" (terminalFor "alice")) :=
  (confined_iff sampleOs "1" (terminalFor "alice") (by decide)).2
    (Or.inl ⟨"alice", _, by decide, rfl⟩)

/-- A user of the panel without an account on the host gets a root shell. -/
theorem root_shell_for_ghost :
    containerOption (terminalFor "ghost") = none ∧ lookupUser sampleOs "ghost" = none ∧
      ((stream sampleOs "1" (terminalFor "ghost")).child.map fun c => (c.program, c.uid, c.gid)) =
        some ("/bin/bash", 0, 0) ∧
      ¬ Confined sampleOs (terminalFor "ghost") (stream sampleOs "1" (terminalFor "ghost")) := by
  have hchild : (stream sampleOs "1" (terminalFor "ghost")).child =
      some ⟨"/bin/bash", "-bash", [], "/tmp", [], 0, 0, none⟩ := by decide
  have hghost : lookupUser sampleOs "ghost" = none := by decide
  refine ⟨by decide, hghost, by rw [hchild]; rfl, fun h => ?_⟩
  obtain ⟨user, pwd, hu, hp, -⟩ := h _ hchild
  rw [show targetUser sampleOs (terminalFor "ghost") = some "ghost" by decide] at hu
  cases hu
  rw [hghost] at hp
  cases hp

end Tenodera.Agent
