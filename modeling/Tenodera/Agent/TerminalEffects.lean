import Tenodera.Agent.Host

/-!
# What the terminal handler does to its host

`terminal.pty` hands a process to the user of the channel, after a check of that user's password
when the process is to run in a container.  It does not look at the role: `quiet_terminalPty_iff`
says for which options no host starts a process.
-/

namespace Tenodera.Agent.Host

open Protocol Effect

/-- The answers of the host, with the password checked by `sudo` before. -/
def sessionOs (u : Text.Alphanumeric) (os : Os) (verified : Bool) : Os :=
  { os with verifyPassword := fun _ _ => verified, isAlphanumeric := u.mem }

def auditLaunch : Option AuditEntry → HostM Unit
  | some entry => perform (.audit entry.user entry.action entry.target true "")
  | none => pure ()

def spawnSession : Option Child → HostM Unit
  | some child => perform (.session child)
  | none => pure ()

def startSession (launch : Launch) : HostM Unit := do
  auditLaunch launch.audit
  spawnSession launch.child

/-- The `stream` of `terminal.pty`.  What the user types later goes to the process. -/
def terminalPty (u : Text.Alphanumeric) (channel : ChannelId) (options : ChannelOpenOptions) :
    HostM Unit :=
  match containerOption options with
  | some _ => do
    let res ← sudoAsUser ((option options "_user").getD "") ((option options "password").getD "")
      ["-v"]
    let os ← perform .os
    startSession (stream (sessionOs u os (res.get "ok").isSome) channel options)
  | none => do
    let os ← perform .os
    startSession (stream (sessionOs u os false) channel options)

/-- The options open a session on some host. -/
def OpensSession (options : ChannelOpenOptions) : Prop :=
  match containerOption options with
  | some _ => Text.hasNul ((option options "_user").getD "") = false
  | none => (option options "shell").all (· ∈ allowedShells) ∧
    (option options "cwd").all fun cwd => !Text.hasNul cwd

section

variable {u : Text.Alphanumeric} {os : Os} {verified : Bool} {channel : ChannelId}
  {options : ChannelOpenOptions} {launch : Launch} {user password : String} {args : List String}

theorem quiet_startSession_iff : Quiet (startSession launch) ↔ launch.child = none := by
  have haudit : Quiet (auditLaunch launch.audit) := by
    cases launch.audit
    · exact quiet_pure _
    · exact (quiet_perform _).2 rfl
  obtain ⟨a, ha⟩ := (auditLaunch launch.audit).exists_returns
  rw [startSession, haudit.bind_iff]
  cases launch.child with
  | some child =>
    refine iff_of_false (fun h => ?_) nofun
    have hsession : (Op.session child).changesState = false := (quiet_perform _).1 (h a ha)
    cases hsession
  | none => exact iff_of_true (fun _ _ => quiet_pure _) rfl

/-- A host that lets every session start. -/
def willingOs : Os := { sampleOs with getpwnam := fun _ => .notFound, which := fun _ => true }

theorem child_of_willing_container {container : String}
    (h : containerOption options = some container) :
    (stream (sessionOs u willingOs true) channel options).child ≠ none := by
  have hverified (user password : String) :
      (sessionOs u willingOs true).verifyPassword user password = true := rfl
  have hwhich (cmd : String) : (sessionOs u willingOs true).which cmd = true := rfl
  rw [Option.ne_none_iff_exists']
  simp only [stream, h, containerSession, hverified, hwhich, not_true_eq_false, if_false, if_true,
    launched_child]
  exact (openPtyCmd_of_notFound rfl).2 ⟨rfl, rfl, by decide, rfl, rfl⟩

theorem child_of_willing_login (h : containerOption options = none)
    (hopens : OpensSession options) :
    (stream (sessionOs u willingOs false) channel options).child ≠ none := by
  simp only [OpensSession, h] at hopens
  obtain ⟨hshell, hcwd⟩ := hopens
  -- The host knows no user, so the agent starts its own shell.
  have hnone : (targetUser (sessionOs u willingOs false) options).bind
      (Agent.lookupUser (sessionOs u willingOs false)) = none := by
    refine Option.bind_eq_none_iff.2 fun user _ => ?_
    unfold Agent.lookupUser
    split_ifs <;> rfl
  have hallowed : (option options "shell").getD
      (fallbackShell (sessionOs u willingOs false)) ∈ allowedShells := by
    cases hopt : option options "shell" with
    | none =>
      have hfallback : fallbackShell (sessionOs u willingOs false) = "/bin/bash" := rfl
      rw [Option.getD_none, hfallback]
      decide
    | some shell => simpa [hopt] using hshell
  have hnul : '\x00' ∉ ((option options "cwd").getD "/tmp").toList := by
    cases hopt : option options "cwd" with
    | none => decide
    | some cwd => simpa [hopt, Text.hasNul] using hcwd
  rw [Option.ne_none_iff_exists']
  simp only [stream, h, loginSession, hnone, Option.map_none, Option.filter_none, Option.getD_none]
  rw [if_neg (not_not.2 hallowed), launched_child]
  exact (openPtyCmd_of_notFound hnone).2 ⟨rfl, rfl, hnul, rfl, rfl⟩

theorem child_eq_none_of_unverified {container : String}
    (h : containerOption options = some container) :
    (stream (sessionOs u os false) channel options).child = none := by
  unfold stream
  rw [h]
  rfl

theorem child_eq_none_of_not_opens (h : containerOption options = none)
    (hopens : ¬ OpensSession options) :
    (stream (sessionOs u os verified) channel options).child = none := by
  simp only [OpensSession, h, not_and_or] at hopens
  simp only [stream, h, loginSession]
  split_ifs with hallowed
  swap
  · rfl
  rw [launched_child, Option.eq_none_iff_forall_ne_some]
  intro child hchild
  obtain ⟨-, -, hspawn⟩ := openPtyCmd_child_iff.1 hchild
  have hnul := (spawn_eq_ok_iff.1 hspawn).1
  rcases hopens with hshell | hcwd
  · cases hopt : option options "shell" with
    | none => simp [hopt] at hshell
    | some shell =>
      rw [hopt, Option.getD_some] at hallowed
      rw [hopt, Option.all_some, decide_eq_true_eq] at hshell
      exact hshell hallowed
  · cases hopt : option options "cwd" with
    | none => simp [hopt] at hcwd
    | some cwd =>
      rw [hopt, Option.getD_some] at hnul
      exact hcwd (by simpa [hopt, Text.hasNul] using hnul)

/-- A user without a C string has no account, so the password is not taken. -/
theorem unverified_of_hasNul (huser : Text.hasNul user) {res : Value}
    (h : (sudoAsUser user password args).Returns res) : (res.get "ok").isSome = false := by
  obtain ⟨pwd, hpwd, h⟩ := (Prog.returns_bind _ _ _).1 h
  rw [returns_lookupUser_iff.1 hpwd huser] at h
  rw [Prog.returns_pure] at h
  rw [h]
  rfl

theorem returns_verified (huser : Text.hasNul user = false) :
    ∃ res, (sudoAsUser user password ["-v"]).Returns res ∧ (res.get "ok").isSome := by
  refine ⟨.object [("ok", .bool true), ("output", .string (Text.trim ""))], ?_, rfl⟩
  refine (Prog.returns_bind _ _ _).2
    ⟨some ⟨0, 0, "", ""⟩, returns_lookupUser_iff.2 fun hnul => ?_, ?_⟩
  · rw [huser] at hnul
    cases hnul
  · exact (Prog.returns_bind _ _ _).2 ⟨.ok ⟨true, "", "", false⟩, returns_run rfl _, rfl⟩

/-- A process is started on some host exactly when the options ask for a session: the role is not
among them. -/
theorem quiet_terminalPty_iff :
    Quiet (terminalPty u channel options) ↔ ¬ OpensSession options := by
  unfold terminalPty
  split
  next container h =>
    have hverify : Quiet (sudoAsUser ((option options "_user").getD "")
        ((option options "password").getD "") ["-v"]) := quiet_sudoAsUser rfl
    have hopens : OpensSession options ↔
        Text.hasNul ((option options "_user").getD "") = false := by
      simp only [OpensSession, h]
    rw [hverify.bind_iff, hopens]
    simp only [quiet_perform_bind_iff (o := .os) rfl, quiet_startSession_iff]
    constructor
    · intro hquiet huser
      obtain ⟨res, hres, hok⟩ := returns_verified huser
      have hchild := hquiet res hres willingOs
      rw [hok] at hchild
      exact child_of_willing_container h hchild
    · intro huser res hres os
      rw [unverified_of_hasNul (by simpa using huser) hres]
      exact child_eq_none_of_unverified h
  next h =>
    rw [quiet_perform_bind_iff rfl]
    simp only [quiet_startSession_iff]
    constructor
    · intro hquiet hopens
      exact child_of_willing_login h hopens (hquiet willingOs)
    · intro hopens os
      exact child_eq_none_of_not_opens h hopens

end

end Tenodera.Agent.Host
