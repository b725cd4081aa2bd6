import Tenodera.Agent.TerminalPty
import Tenodera.Lib.Base64
import Tenodera.Lib.Effects
import Tenodera.Lib.Path
import Tenodera.Lib.Text

/-!
# What handlers do to their host

A handler is a program over the operations `Op`: commands that it runs, files that it looks at or
writes, entries of the audit log.  What the host answers is left open, and so is what a handler
reads out of the answers (`Op.words`, `Op.verdict`, `Op.json`).  `Op.changesState` classifies the
operations; a program is `Quiet` when it asks for none that changes the state of the host.
-/

namespace Tenodera.Agent.Host

open Protocol Effect Path

/-! ## Operations -/

structure Command where
  /-- Whom the process drops to before `exec`; `none` for the agent itself. -/
  runAs : Option String
  /-- The program and its arguments. -/
  argv : List String
  stdin : Option String
  deriving DecidableEq, Repr

structure Output where
  success : Bool
  stdout : String
  stderr : String
  /-- The output exceeded the size cap. -/
  truncated : Bool
  deriving DecidableEq, Repr

inductive Op
  /-- Run a command to its end. -/
  | run (command : Command)
  | lookupUser (name : String)
  | canonicalize (path : String)
  | isDir (path : String)
  | pathExists (path : String)
  | readFile (path : String)
  | readDir (path : String)
  | statvfs (path : String)
  | uname
  /-- A variable of the environment of the agent. -/
  | env (name : String)
  | writeFile (path content : String)
  | removeFile (path : String)
  /-- Append a line to the audit log of the agent. -/
  | audit (user action target : String) (ok : Bool) (details : String)
  /-- The failure counters of `superuser.verify`, which the agent keeps in memory. -/
  | isLockedOut (user : String)
  | recordFailure (user : String)
  | clearFailures (user : String)
  /-- The answers of the operating system to the launch of a terminal. -/
  | os
  /-- Hand a process to the user of a terminal. -/
  | session (child : Child)
  /-- What the handler reads out of the answers so far: words, a yes or no, a JSON value. -/
  | words
  | verdict
  | json

/-- The answers.  A command that cannot be started, or that is killed at the time limit, gives an
error text. -/
abbrev Reply : Op → Type
  | .run _ => Except String Output
  | .lookupUser _ => Option Passwd
  | .canonicalize _ => Option PathBuf
  | .isDir _ | .pathExists _ | .statvfs _ | .writeFile _ _ | .removeFile _ => Bool
  | .readFile _ | .env _ => Option String
  | .readDir _ => List String
  | .uname => String
  | .audit .. | .recordFailure _ | .clearFailures _ | .session _ => Unit
  | .isLockedOut _ => Bool
  | .os => Os
  | .words => List String
  | .verdict => Bool
  | .json => Value

instance : ∀ o, Nonempty (Reply o)
  | .run _ => ⟨.error ""⟩
  | .lookupUser _ | .canonicalize _ | .readFile _ | .env _ => ⟨none⟩
  | .isDir _ | .pathExists _ | .statvfs _ | .writeFile _ _ | .removeFile _ => ⟨false⟩
  | .readDir _ | .words => ⟨[]⟩
  | .uname => ⟨""⟩
  | .audit .. | .recordFailure _ | .clearFailures _ | .session _ => ⟨()⟩
  | .isLockedOut _ | .verdict => ⟨false⟩
  | .os => ⟨sampleOs⟩
  | .json => ⟨.null⟩

/-- A program of the agent. -/
abbrev HostM (α : Type) : Type := Prog Op Reply α

def perform (o : Op) : HostM (Reply o) := Prog.perform o

/-! ## Which operations change the state of the host -/

/-- The command that `sudo` runs, in the forms in which the agent calls it. -/
def stripSudo : List String → List String
  | "sudo" :: "-S" :: "-k" :: argv => argv
  | "sudo" :: "-S" :: argv => argv
  | "sudo" :: "-n" :: "-u" :: _ :: "--" :: argv => argv
  | argv => argv

def searchDirs : List String :=
  ["/usr/sbin", "/usr/bin", "/sbin", "/bin", "/usr/local/sbin", "/usr/local/bin"]

/-- The commands that only look, by their first words.  `-v` makes `sudo` check the password. -/
def observing : List (List String) :=
  [["-v"], ["which"], ["file", "-b", "--mime-type", "--"], ["wc", "-l", "--"],
    ["ls", "-laH", "--time-style=long-iso", "--"], ["ls", "/var/spool/cron/crontabs"],
    ["cat", "--"], ["head", "-c"], ["tail", "-n"], ["grep", "-n", "-i"],
    ["journalctl", "--output=json", "--no-pager"], ["journalctl", "-u"], ["ps", "--no-headers"],
    ["ip", "-j", "addr", "show"], ["lsblk", "-J"],
    ["nice", "-n", "19", "ionice", "-c", "3", "du"],
    ["systemctl", "is-active"], ["systemctl", "is-enabled"], ["systemctl", "status"],
    ["systemctl", "show"], ["systemctl", "list-units"],
    ["timedatectl", "show"], ["timedatectl", "show-timesync"], ["timedatectl", "timesync-status"],
    ["timedatectl", "list-timezones"], ["hostnamectl", "status"],
    ["localectl", "status"], ["localectl", "list-locales"], ["localectl", "list-keymaps"],
    ["localectl", "list-x11-keymap-layouts"], ["needs-restarting", "-r"],
    ["chronyc", "tracking"], ["chronyc", "activity"], ["chronyc", "sources"], ["ntpq", "-pn"],
    ["ntpctl", "-s", "all"], ["getent", "passwd"], ["getent", "group"], ["ssh-keyscan", "-p"],
    ["ssh-keygen", "-l", "-f"], ["openssl", "x509", "-in"], ["certbot", "--version"],
    ["certbot", "certificates"], ["dig", "+short"], ["host", "-t"], ["resolvectl", "query"],
    ["resolvectl", "status"], ["resolvectl", "statistics"], ["nslookup"], ["pacman", "-Q"],
    ["pacman", "-Ss"], ["pacman", "-Qi"], ["pacman", "-Si"], ["dpkg-query", "-W"],
    ["apt-cache", "search"], ["apt-cache", "show"], ["dnf", "search"], ["dnf", "info"],
    ["rpm", "-qa"], ["rpm", "-q"], ["ufw", "status"], ["firewall-cmd", "--state"],
    ["firewall-cmd", "--get-default-zone"], ["nft", "list"], ["iptables", "-L"],
    ["ss", "-tulpnH"]]

/-- The commands of a container runtime that only look. -/
def observingRuntime : List (List String) :=
  [["info"], ["--version"], ["version"], ["ps"], ["images"], ["inspect"], ["logs"], ["stats"],
    ["volume", "ls"], ["volume", "inspect"], ["network", "ls"], ["network", "inspect"]]

/-- The security tools, which are called by their full path. -/
def observingTools : List (List String) :=
  searchDirs.flatMap fun dir =>
    [[dir ++ "/fail2ban-client", "status"], [dir ++ "/getsebool", "-a"], [dir ++ "/semodule", "-l"],
      [dir ++ "/journalctl", "-b"], [dir ++ "/aa-status", "--json"]]

/-- Commands that look only as long as they have no further arguments. -/
def observingAlone : List (List String) :=
  [["hostname"], ["lastlog"], ["hostnamectl", "--static"], ["crontab", "-l"],
      ["date", "+%Y-%m-%d %H:%M:%S"], ["date", "-u", "+%Y-%m-%d %H:%M:%S"], ["date", "+%Z"],
      ["date", "+%Y-%m-%d %H:%M:%S %Z"]] ++
    searchDirs.flatMap fun dir => [[dir ++ "/getenforce"], [dir ++ "/sestatus"]]

/-- The actions of `find` that delete or write when they stand in the place of its starting
point, before the arguments that the agent gives it. -/
def findActions : List String := ["-delete", "-fprint", "-fprint0", "-fprintf", "-fls"]

/-- A `sed` script that prints a range of lines. -/
def isPrintScript (script : String) : Bool :=
  script.toList.all fun c => c.isDigit || c = ',' || c = 'p'

/-- The command only looks at the host. -/
def observes (argv : List String) : Bool :=
  observing.any (·.isPrefixOf argv) || observingTools.any (·.isPrefixOf argv) ||
    argv ∈ observingAlone ||
    match argv with
    | "find" :: start :: _ => start ∉ findActions
    | "sed" :: "-n" :: script :: _ => isPrintScript script
    | ["firewall-cmd", "--zone", _, list] =>
      list ∈ ["--list-services", "--list-ports", "--list-rich-rules"]
    | ["crontab", "-u", _, list] => list = "-l"
    | ["date", "-d", _, format] => Text.startsWith format "+"
    | "docker" :: args | "podman" :: args => observingRuntime.any (·.isPrefixOf args)
    | _ => false

/-- The operation changes the state of the host.  Entries of the audit log and the counters in
memory are records of the agent; a session gives its user a process to change the host with. -/
def Op.changesState : Op → Bool
  | .run command => !observes (stripSudo command.argv)
  | .writeFile _ _ | .removeFile _ | .session _ => true
  | _ => false

/-! ## Running commands -/

/-- `Command::spawn` and its output: an argument with a NUL is refused before anything runs. -/
def run (runAs : Option String) (argv : List String) (stdin : Option String) :
    HostM (Except String Output) :=
  if argv.any Text.hasNul then pure (.error "nul byte found in provided data")
  else perform (.run ⟨runAs, argv, stdin⟩)

/-- `run_cmd`. -/
def runCmd (argv : List String) : HostM String := do
  match ← run none argv none with
  | .error e => return "error: " ++ e
  | .ok out => return if out.stdout = "" then out.stderr else out.stdout

/-- `which`. -/
def which (cmd : String) : HostM Bool := do
  match ← run none ["which", cmd] none with
  | .error _ => return false
  | .ok out => return out.success

/-- `lookup_user`: names with a NUL have no C string. -/
def lookupUser (username : String) : HostM (Option Passwd) :=
  if Text.hasNul username then pure none else perform (.lookupUser username)

def errorValue (e : String) : Value := .object [("error", .string e)]

def failedValue (e : String) : Value := .object [("ok", .bool false), ("error", .string e)]

def okValue : Value := .object [("ok", .bool true)]

/-- `stderr` without the prompts of `sudo`. -/
def withoutPrompts (stderr : String) : String :=
  "\n".intercalate ((Text.lines stderr).filter fun l =>
    !Text.contains l "[sudo]" && !Text.contains l "password for")

/-- `clean_sudo_stderr`. -/
def cleanSudoStderr (stderr : String) : String :=
  let clean := Text.trim (withoutPrompts stderr)
  if clean = "" then "command failed" else clean

/-- `sudo_as_user`: the process becomes the user, and `sudo` asks the rules of the host. -/
def sudoAsUser (user password : String) (args : List String) : HostM Value := do
  match ← lookupUser user with
  | none => return errorValue ("user '" ++ user ++ "' is not present on this host")
  | some _ =>
    match ← run (some user) ("sudo" :: "-S" :: "-k" :: args) (some (password ++ "\n")) with
    | .error e => return errorValue e
    | .ok out =>
      if ¬ out.success then return errorValue (cleanSudoStderr out.stderr)
      else
        let fields := [("ok", Value.bool true), ("output", Value.string (Text.trim out.stdout))]
        return .object (if out.truncated then fields ++ [("truncated", .bool true)] else fields)

inductive UserReadOutcome
  | noAccount
  | ran (out : Output)
  | spawnFailed (e : String)

/-- `run_cmd_as_user`. -/
def runCmdAsUser (user : String) (args : List String) : HostM UserReadOutcome := do
  match ← lookupUser user with
  | none => return .noAccount
  | some _ =>
    match ← run (some user) args none with
    | .error e => return .spawnFailed e
    | .ok out => return .ran out

/-- `sudo_output_as_user`. -/
def sudoOutputAsUser (user password : String) (args : List String) : HostM String := do
  let res ← sudoAsUser user password args
  match (res.get "output").bind Value.asStr with
  | some out => return out
  | none => return "error: " ++ ((res.get "error").bind Value.asStr).getD "command failed"

/-- `shell_escape`. -/
def shellEscape (s : String) : String :=
  "'" ++ String.ofList (s.toList.flatMap fun c => if c = '\'' then "'\\''".toList else [c]) ++ "'"

/-- A shell script that decodes the content into a command. -/
def decodeInto (command content : String) : String :=
  "printf '" ++ Base64.encode content ++ "' | base64 -d | " ++ command

/-- `sudo_stdin_write_as_user`. -/
def sudoStdinWriteAsUser (user password : String) (args : List String) (content : String) :
    HostM Value := do
  let inner := decodeInto (" ".intercalate (args.map shellEscape)) content
  let res ← sudoAsUser user password ["sh", "-c", inner]
  return if (res.get "ok").isSome then okValue else res

/-- `Path::canonicalize`; no file has the empty name. -/
def canonicalize (path : String) : HostM (Option PathBuf) :=
  if path = "" ∨ Text.hasNul path then pure none else perform (.canonicalize path)

/-! ## Requests -/

/-- `data.get(key).and_then(|v| v.as_str()).unwrap_or("")`. -/
def strField (data : Value) (key : String) : String := ((data.get key).bind Value.asStr).getD ""

/-- A number as text. -/
def decimal (n : ℕ) : String := String.ofList (Nat.toDigits 10 n)

theorem hasNul_decimal (n : ℕ) : Text.hasNul (decimal n) = false := by
  rw [decimal, Text.hasNul_ofList, decide_eq_false_iff_not]
  intro hnul
  have hdigit := Nat.isDigit_of_mem_toDigits (by decide) (by decide) hnul
  exact absurd hdigit (by decide)

def natField (data : Value) (key : String) (default : ℕ) : ℕ :=
  (((data.get key).bind Value.asU64).map UInt64.toNat).getD default

/-- `is_valid_username`. -/
def isValidUsername (u : Text.Alphanumeric) (user : String) : Bool :=
  user ≠ "" && user.utf8ByteSize ≤ 64 && !Text.startsWith user "-" &&
    user.toList.all fun c => u.mem c || c = '_' || c = '-' || c = '.'

/-- What a user sees: with a password through `sudo`, without one as that user. -/
def brokered (u : Text.Alphanumeric) (user password : String) (args : List String) :
    HostM (Option String) := do
  if password ≠ "" then
    return ((← sudoAsUser user password args).get "output").bind Value.asStr
  else if isValidUsername u user then
    match ← runCmdAsUser user args with
    | .ran out => return if out.success then some out.stdout else none
    | _ => return none
  else return none

/-- The role that the gateway has put into the request is that of an administrator. -/
def isAdmin (data : Value) : Bool := (data.get "_role").bind Value.asStr = some "admin"

/-- `require_admin`: without a role the request is denied. -/
def requireAdmin (data : Value) : Option Value :=
  if isAdmin data then none else some (errorValue "permission denied")

/-- What stands behind `require_admin`. -/
def gated (data : Value) (act : HostM Value) : HostM Value :=
  match requireAdmin data with
  | some err => pure err
  | none => act

/-! ## Quiet programs -/

/-- The program asks for no operation that changes the state of the host. -/
def Quiet {α : Type} (p : HostM α) : Prop := p.Only fun o => o.changesState = false

section

variable {α β : Type} {p : HostM α} {f : α → HostM β} {runAs stdin : Option String}
  {argv args : List String} {user password path content : String}

@[simp]
theorem quiet_pure (a : α) : Quiet (pure a : HostM α) := Prog.only_pure a

@[simp]
theorem quiet_perform (o : Op) : Quiet (perform o) ↔ o.changesState = false := Prog.only_perform

@[simp]
theorem returns_perform (o : Op) (r : Reply o) : (perform o).Returns r := Prog.returns_perform o r

/-- What changes the host is not asked for. -/
theorem Quiet.not_asks {o : Op} (hp : Quiet p) (ho : o.changesState = true) : ¬ p.Asks o := by
  intro h
  have hquiet : o.changesState = false := hp o h
  rw [ho] at hquiet
  cases hquiet

theorem Quiet.bind (hp : Quiet p) (hf : ∀ a, Quiet (f a)) : Quiet (p >>= f) := Prog.Only.bind hp hf

theorem quiet_bind_iff : Quiet (p >>= f) ↔ Quiet p ∧ ∀ a, p.Returns a → Quiet (f a) :=
  Prog.only_bind_iff

/-- A program that does something quiet first is as quiet as what it does then. -/
theorem Quiet.bind_iff (hp : Quiet p) :
    Quiet (p >>= f) ↔ ∀ a, p.Returns a → Quiet (f a) := by
  rw [quiet_bind_iff, and_iff_right hp]

theorem quiet_perform_bind_iff {o : Op} (ho : o.changesState = false) {f : Reply o → HostM β} :
    Quiet (perform o >>= f) ↔ ∀ r, Quiet (f r) := by
  rw [Quiet.bind_iff ((quiet_perform o).2 ho)]
  simp

theorem quiet_run_iff : Quiet (run runAs argv stdin) ↔
    argv.any Text.hasNul ∨ observes (stripSudo argv) := by
  unfold run
  split_ifs with h
  · simp [h]
  · rw [or_iff_right h]
    exact (quiet_perform _).trans (by simp [Op.changesState])

theorem returns_run (h : argv.any Text.hasNul = false) (r : Except String Output) :
    (run runAs argv stdin).Returns r := by
  rw [run, h]
  exact returns_perform (.run ⟨runAs, argv, stdin⟩) r

theorem quiet_runCmd_iff : Quiet (runCmd argv) ↔
    argv.any Text.hasNul ∨ observes (stripSudo argv) := by
  rw [runCmd, quiet_bind_iff, quiet_run_iff, and_iff_left]
  rintro (_ | _) _ <;> exact quiet_pure _

theorem quiet_runCmd (h : observes (stripSudo argv)) : Quiet (runCmd argv) :=
  quiet_runCmd_iff.2 (Or.inr h)

theorem quiet_which (cmd : String) : Quiet (which cmd) := by
  refine Quiet.bind (quiet_run_iff.2 (Or.inr rfl)) ?_
  rintro (_ | _) <;> exact quiet_pure _

theorem quiet_lookupUser (user : String) : Quiet (lookupUser user) := by
  unfold lookupUser
  split_ifs
  · exact quiet_pure _
  · exact (quiet_perform _).2 rfl

theorem returns_lookupUser_iff {r : Option Passwd} :
    (lookupUser user).Returns r ↔ (Text.hasNul user → r = none) := by
  unfold lookupUser
  split_ifs with h
  · simp [h]
  · exact iff_of_true (returns_perform (.lookupUser user) r) fun h' =>
      absurd h' h

/-- What runs as a user whose account is looked up first runs for some host, unless the name of the
user or an argument has a NUL. -/
theorem quiet_lookup_then_run_iff {g : Except String Output → HostM β} {none' : HostM β}
    (hnone : Quiet none') (hg : ∀ r, Quiet (g r)) :
    Quiet (lookupUser user >>= fun
      | none => none'
      | some _ => run runAs argv stdin >>= g) ↔
    Text.hasNul user ∨ argv.any Text.hasNul ∨ observes (stripSudo argv) := by
  rw [(quiet_lookupUser user).bind_iff]
  have hrun : Quiet (run runAs argv stdin >>= g) ↔
      argv.any Text.hasNul ∨ observes (stripSudo argv) := by
    rw [quiet_bind_iff, quiet_run_iff, and_iff_left fun r _ => hg r]
  constructor
  · intro h
    by_cases hu : Text.hasNul user
    · exact Or.inl hu
    · have hknown : (lookupUser user).Returns (some ⟨0, 0, "", ""⟩) :=
        returns_lookupUser_iff.2 fun hnul => absurd hnul hu
      exact Or.inr (hrun.1 (h _ hknown))
  · rintro h (_ | pwd) hr
    · exact hnone
    · rcases h with hu | h
      · cases returns_lookupUser_iff.1 hr hu
      · exact hrun.2 h

theorem quiet_sudoAsUser_iff : Quiet (sudoAsUser user password args) ↔
    Text.hasNul user ∨ args.any Text.hasNul ∨ observes args := by
  refine (quiet_lookup_then_run_iff (quiet_pure _) ?_).trans Iff.rfl
  rintro (_ | out)
  · exact quiet_pure _
  · exact Prog.Only.ite (fun _ => quiet_pure _) fun _ => quiet_pure _

theorem quiet_sudoAsUser (h : observes args) : Quiet (sudoAsUser user password args) :=
  quiet_sudoAsUser_iff.2 (Or.inr (Or.inr h))

theorem quiet_runCmdAsUser_iff : Quiet (runCmdAsUser user args) ↔
    Text.hasNul user ∨ args.any Text.hasNul ∨ observes (stripSudo args) := by
  refine quiet_lookup_then_run_iff (quiet_pure _) ?_
  rintro (_ | _) <;> exact quiet_pure _

theorem quiet_runCmdAsUser (h : observes (stripSudo args)) : Quiet (runCmdAsUser user args) :=
  quiet_runCmdAsUser_iff.2 (Or.inr (Or.inr h))

theorem quiet_sudoOutputAsUser (h : observes args) :
    Quiet (sudoOutputAsUser user password args) := by
  refine (quiet_sudoAsUser h).bind fun res => ?_
  split <;> exact quiet_pure _

theorem hasNul_decodeInto (command content : String) :
    Text.hasNul (decodeInto command content) = Text.hasNul command := by
  have hb64 : Text.hasNul (Base64.encode content) = false := by
    rw [Text.hasNul, decide_eq_false_iff_not]
    exact Base64.nul_notMem_encode content
  rw [decodeInto, Text.hasNul_append, Text.hasNul_append, Text.hasNul_append, hb64]
  rfl

@[simp]
theorem hasNul_shellEscape (s : String) : Text.hasNul (shellEscape s) = Text.hasNul s := by
  have hmem (c : Char) :
      '\x00' ∈ (if c = '\'' then "'\\''".toList else [c]) ↔ '\x00' = c := by
    split_ifs with hc
    · subst hc
      decide
    · exact List.mem_singleton
  have hflat : '\x00' ∈ (s.toList.flatMap fun c => if c = '\'' then "'\\''".toList else [c]) ↔
      '\x00' ∈ s.toList := by
    simp only [List.mem_flatMap, hmem, exists_eq_right']
  rw [Bool.eq_iff_iff, shellEscape, Text.hasNul_append, Text.hasNul_append]
  change (false || Text.hasNul (String.ofList _) || false) = true ↔ _
  simpa [Text.hasNul] using hflat

theorem any_hasNul_script (script : String) :
    ["sh", "-c", script].any Text.hasNul = Text.hasNul script :=
  Bool.or_false _

/-- A command through `sudo_stdin_write_as_user` runs in a shell, which may write. -/
theorem quiet_sudoStdinWriteAsUser_iff : Quiet (sudoStdinWriteAsUser user password args content) ↔
    Text.hasNul user ∨ Text.hasNul (" ".intercalate (args.map shellEscape)) := by
  have hobs (script : String) : observes ["sh", "-c", script] = false := rfl
  unfold sudoStdinWriteAsUser
  rw [quiet_bind_iff, quiet_sudoAsUser_iff, and_iff_left fun _ _ => quiet_pure _,
    any_hasNul_script, hobs, hasNul_decodeInto]
  simp

theorem quiet_canonicalize (path : String) : Quiet (canonicalize path) := by
  unfold canonicalize
  split_ifs
  · exact quiet_pure _
  · exact (quiet_perform _).2 rfl

theorem returns_canonicalize_iff {r : Option PathBuf} :
    (canonicalize path).Returns r ↔ (path = "" ∨ Text.hasNul path → r = none) := by
  unfold canonicalize
  split_ifs with h
  · simp [h]
  · exact iff_of_true (returns_perform (.canonicalize path) r) fun h' =>
      absurd h' h

variable {u : Text.Alphanumeric}

theorem hasNul_of_isValidUsername (hu : isValidUsername u user) : Text.hasNul user = false := by
  rw [Text.hasNul, decide_eq_false_iff_not]
  intro hnul
  simp only [isValidUsername, Bool.and_eq_true, List.all_eq_true] at hu
  have hchar := hu.2 _ hnul
  rw [u.mem_nul] at hchar
  exact absurd hchar (by decide)

theorem quiet_brokered_iff : Quiet (brokered u user password args) ↔
    (password ≠ "" → Text.hasNul user ∨ args.any Text.hasNul ∨ observes args) ∧
    (password = "" → isValidUsername u user →
      args.any Text.hasNul ∨ observes (stripSudo args)) := by
  unfold brokered
  split_ifs with hpw huser
  · rw [quiet_bind_iff, quiet_sudoAsUser_iff, and_iff_left fun _ _ => quiet_pure _]
    simp [hpw]
  · rw [quiet_bind_iff, quiet_runCmdAsUser_iff, hasNul_of_isValidUsername huser, and_iff_left]
    · simp [not_not.1 hpw, huser]
    · rintro (_ | _ | _) _ <;> exact quiet_pure _
  · simp [not_not.1 hpw, huser]

theorem quiet_gated {data : Value} {act : HostM Value} (h : isAdmin data = false) :
    Quiet (gated data act) := by
  rw [gated, requireAdmin, h]
  exact quiet_pure _

end

end Tenodera.Agent.Host
