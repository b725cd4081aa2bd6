import Tenodera.Lib.Process

/-!
# The gateway gives up being root

Certificates are read and the port is bound as root; then `drop_privileges` makes the process one of
the account of the gateway.  `dropped_for_good` says that there is no way back.
-/

namespace Tenodera.Gateway.Privileges

open Process

/-- The entry of the account in the user database. -/
structure Passwd where
  uid : ℕ
  gid : ℕ

/-- The calls that fail for a reason of their own. -/
structure Faults where
  setgid : Option String
  setgroups : Option String
  setuid : Option String

/-- `drop_privileges`, without which the gateway does not begin to serve. -/
def dropPrivileges (pw : Option Passwd) (faults : Faults) (c : Credentials) :
    Except String Credentials :=
  if c.user.effective ≠ 0 then .ok c
  else
    match pw with
    | none =>
      .error ("user 'tenodera-gw' not found — create it before starting the service " ++
        "(useradd -r -s /sbin/nologin -M tenodera-gw)")
    | some pw => do
      let c ← ((Call.setgid pw.gid).attempt faults.setgid c).mapError
        ("setgid(" ++ toString pw.gid ++ ") failed: " ++ ·)
      let c ← ((Call.setgroups []).attempt faults.setgroups c).mapError
        ("setgroups() failed: " ++ ·)
      ((Call.setuid pw.uid).attempt faults.setuid c).mapError
        ("setuid(" ++ toString pw.uid ++ ") failed: " ++ ·)

variable {pw : Option Passwd} {faults : Faults} {c t : Credentials}

/-- Each of the calls needs the privilege, and only the last one gives it away. -/
theorem dropPrivileges_some {entry : Passwd} (hroot : c.user.effective = 0)
    (h : dropPrivileges (some entry) faults c = .ok t) :
    t = ⟨.all entry.uid, .all entry.gid, []⟩ := by
  have hprivileged : privileged c = true := decide_eq_true hroot
  unfold dropPrivileges at h
  rw [if_neg (not_not.2 hroot)] at h
  obtain ⟨c₁, hgid, h⟩ := bind_eq_ok_iff.1 h
  obtain ⟨c₂, hgroups, h⟩ := bind_eq_ok_iff.1 h
  rw [mapError_eq_ok_iff, attempt_eq_ok_iff, setgid_eq_some_iff hprivileged] at hgid
  obtain ⟨-, rfl⟩ := hgid
  rw [mapError_eq_ok_iff, attempt_eq_ok_iff, setgroups_eq_some_iff] at hgroups
  obtain ⟨-, -, rfl⟩ := hgroups
  rw [mapError_eq_ok_iff, attempt_eq_ok_iff] at h
  exact (setuid_eq_some_iff (by exact hprivileged)).1 h.2

/-- A gateway that was started as root serves as the account of the gateway, in none of the groups
of root; whatever its code calls after that, it stays so. -/
theorem dropped_for_good (h : dropPrivileges pw faults c = .ok t) :
    (c.user.effective ≠ 0 ∧ t = c) ∨
      ∃ entry, pw = some entry ∧
        (entry.uid ≠ 0 → ∀ calls : List Call, (∀ call ∈ calls, call.isPlain = true) →
          t.after calls = ⟨.all entry.uid, .all entry.gid, []⟩) := by
  by_cases hroot : c.user.effective = 0
  · right
    cases pw with
    | none =>
      unfold dropPrivileges at h
      rw [if_neg (not_not.2 hroot)] at h
      cases h
    | some entry =>
      refine ⟨entry, rfl, fun hne calls hplain => ?_⟩
      rw [dropPrivileges_some hroot h]
      exact (Credentials.settled hne []).after hplain
  · left
    unfold dropPrivileges at h
    rw [if_pos hroot] at h
    exact ⟨hroot, (Except.ok.inj h).symm⟩

/-- A gateway that tries to become root again. -/
theorem dropped_for_good_retries :
    ∃ t, dropPrivileges (some ⟨990, 985⟩) ⟨none, none, none⟩ ⟨.all 0, .all 0, [0]⟩ = .ok t ∧
      t.after [.setuid 0, .setreuid none (some 0), .setgroups [0]] =
        ⟨.all 990, .all 985, []⟩ := by
  have hdrop : dropPrivileges (some ⟨990, 985⟩) ⟨none, none, none⟩ ⟨.all 0, .all 0, [0]⟩ =
      .ok ⟨.all 990, .all 985, []⟩ := rfl
  refine ⟨_, hdrop, ?_⟩
  rcases dropped_for_good hdrop with ⟨hnot, -⟩ | ⟨entry, hentry, hkept⟩
  · exact absurd rfl hnot
  · obtain rfl : ⟨990, 985⟩ = entry := Option.some.inj hentry
    exact hkept (by decide) _ (by decide)

end Tenodera.Gateway.Privileges
