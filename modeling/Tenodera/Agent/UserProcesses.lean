import Tenodera.Lib.Process

/-!
# Processes that belong to a user

The agent is root and starts commands for the user who is logged in: `sudo`, which decides by that
user what is allowed, programs that only read, and login shells.  Between `fork` and `exec` the
child takes on the ids of the user.  `belongs_for_good` says that commands are the user's and nobody
else's; a shell, where the result of `initgroups` is not looked at, may keep the groups of the
agent: `shell_belongs_iff`.
-/

namespace Tenodera.Agent.UserProcesses

open Process

/-- What the databases have on a user; the supplementary groups include the primary one. -/
structure Account where
  uid : ℕ
  gid : ℕ
  groups : List ℕ

/-- What a process of that user has. -/
def Account.credentials (a : Account) : Credentials := ⟨.all a.uid, .all a.gid, a.groups⟩

/-- The calls that fail for a reason of their own. -/
structure Faults where
  initgroups : Option String
  setgid : Option String
  setuid : Option String

/-- `pre_exec` of `sudo_as_user`, `run_cmd_as_user` and `broker_output`; the command is executed
only if it succeeds. -/
def dropToUser (faults : Faults) (a : Account) (c : Credentials) : Except String Credentials := do
  let c ← (Call.setgroups a.groups).attempt faults.initgroups c
  let c ← (Call.setgid a.gid).attempt faults.setgid c
  (Call.setuid a.uid).attempt faults.setuid c

/-- `pre_exec` of `open_pty_cmd` for a user that was found. -/
def switchUser (faults : Faults) (username : String) (a : Account) (c : Credentials) :
    Except String Credentials :=
  let c := ((Call.setgroups a.groups).attempt faults.initgroups c).toOption.getD c
  let failed := "failed to switch to user " ++ username
  (do
    let c ← (Call.setgid a.gid).attempt faults.setgid c
    (Call.setuid a.uid).attempt faults.setuid c).mapError fun _ => failed

variable {faults : Faults} {username : String} {a : Account} {c t : Credentials}

theorem setgid_setuid (hroot : privileged c = true)
    (h : (do
      let c ← (Call.setgid a.gid).attempt faults.setgid c
      (Call.setuid a.uid).attempt faults.setuid c) = .ok t) :
    t = ⟨.all a.uid, .all a.gid, c.supplementary⟩ := by
  obtain ⟨c₁, hgid, h⟩ := bind_eq_ok_iff.1 h
  rw [attempt_eq_ok_iff, setgid_eq_some_iff hroot] at hgid
  obtain ⟨-, rfl⟩ := hgid
  rw [attempt_eq_ok_iff] at h
  exact (setuid_eq_some_iff (by exact hroot)).1 h.2

/-- A command is executed by root's leave only, with the ids of the user and in the groups of the
user, and no call of it leads to others. -/
theorem belongs_for_good (h : dropToUser faults a c = .ok t) :
    c.user.effective = 0 ∧ t = a.credentials ∧
      (a.uid ≠ 0 → ∀ calls : List Call, (∀ call ∈ calls, call.isPlain = true) →
        t.after calls = a.credentials) := by
  obtain ⟨c₁, hgroups, h⟩ := bind_eq_ok_iff.1 h
  rw [attempt_eq_ok_iff, setgroups_eq_some_iff] at hgroups
  obtain ⟨-, hroot, rfl⟩ := hgroups
  have ht : t = a.credentials := setgid_setuid (by exact hroot) h
  refine ⟨of_decide_eq_true hroot, ht, fun hne calls hplain => ?_⟩
  rw [ht]
  exact (Credentials.settled hne a.groups).after hplain

/-- Root in its usual groups. -/
def rootAgent : Credentials := ⟨.all 0, .all 0, [0]⟩

def alice : Account := ⟨1000, 1000, [1000, 4]⟩

theorem belongs_for_good_alice :
    ∃ t, dropToUser ⟨none, none, none⟩ alice rootAgent = .ok t ∧
      t.after [.setuid 0, .setresgid (some 0) none none, .execve none none] =
        alice.credentials := by
  have hdrop : dropToUser ⟨none, none, none⟩ alice rootAgent = .ok alice.credentials := rfl
  exact ⟨_, hdrop, (belongs_for_good hdrop).2.2 (by decide) _ (by decide)⟩

/-- The process is in the groups that are left by `initgroups`. -/
theorem switchUser_eq (hroot : privileged c = true) (h : switchUser faults username a c = .ok t) :
    t = ⟨.all a.uid, .all a.gid,
      if faults.initgroups = none then a.groups else c.supplementary⟩ := by
  unfold switchUser at h
  rw [mapError_eq_ok_iff] at h
  cases hfault : faults.initgroups with
  | none =>
    have hgroups : (Call.setgroups a.groups).attempt none c =
        .ok { c with supplementary := a.groups } :=
      attempt_eq_ok_iff.2 ⟨rfl, setgroups_eq_some_iff.2 ⟨hroot, rfl⟩⟩
    rw [hfault, hgroups] at h
    rw [if_pos rfl]
    exact setgid_setuid (by exact hroot) h
  | some error =>
    rw [hfault] at h
    rw [if_neg (by simp)]
    exact setgid_setuid hroot h

/-- A shell that a root agent starts is the user's, for as long as it runs, exactly when
`initgroups` succeeded or the agent is in no other groups than the user. -/
theorem shell_belongs_iff (hroot : c.user.effective = 0) (hne : a.uid ≠ 0)
    (h : switchUser faults username a c = .ok t) :
    (∀ calls : List Call, (∀ call ∈ calls, call.isPlain = true) → t.after calls = a.credentials) ↔
      faults.initgroups = none ∨ c.supplementary = a.groups := by
  rw [switchUser_eq (decide_eq_true hroot) h]
  constructor
  · intro hall
    have hgroups := congrArg Credentials.supplementary (hall [] (by simp))
    dsimp only [Credentials.after, List.foldl_nil, Account.credentials] at hgroups
    split_ifs at hgroups with hfault
    · exact .inl hfault
    · exact .inr hgroups
  · intro hgroups calls hplain
    rw [(Credentials.settled hne _).after hplain]
    apply Credentials.ext
    · rfl
    · rfl
    · dsimp only [Account.credentials]
      rcases hgroups with hfault | hsame
      · rw [if_pos hfault]
      · rw [hsame, ite_self]

/-- The database of groups cannot be read when the shell is started. -/
theorem shell_belongs_alice :
    ∃ t, switchUser ⟨some "Cannot allocate memory (os error 12)", none, none⟩ "alice" alice
        rootAgent = .ok t ∧
      ¬ ∀ calls : List Call, (∀ call ∈ calls, call.isPlain = true) →
        t.after calls = alice.credentials := by
  have hswitch : switchUser ⟨some "Cannot allocate memory (os error 12)", none, none⟩ "alice"
      alice rootAgent = .ok ⟨.all 1000, .all 1000, [0]⟩ := rfl
  refine ⟨_, hswitch, fun hall => ?_⟩
  have hgroups := (shell_belongs_iff rfl (by decide) hswitch).1 hall
  exact absurd hgroups (by decide)

end Tenodera.Agent.UserProcesses
