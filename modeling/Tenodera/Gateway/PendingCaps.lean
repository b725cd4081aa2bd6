import Tenodera.Gateway.AgentAuth
import Tenodera.Lib.Run
import Tenodera.Lib.Table

/-!
# The caps of the pending registry

At most `maxPending` agents wait at once, whatever happens (`length_le_of_run`).  The share of a
source address is checked for new keys only: a key that comes again from another address takes its
entry there without asking for room, and `capped_iff` says that nothing else breaks the cap.
-/

namespace Tenodera.Gateway.PendingRegistry

open Transition

/-- The operations of the registry.  An agent that is turned away, or whose time is up, leaves by
`remove`. -/
inductive Action
  | insert (pubkeyB64 hostname remoteIp : String) (osId : Option String) (approveTx : ℕ)
  | remove (pubkeyB64 : String)
  | approve (fingerprintHex : String)
  deriving DecidableEq

def step (hashes : Hashes) (pending : PendingRegistry) : Action → Option PendingRegistry
  | .insert pubkeyB64 hostname remoteIp osId approveTx =>
    some ((pending.add hashes pubkeyB64 hostname remoteIp osId approveTx).getD pending)
  | .remove pubkeyB64 => some (pending.erase pubkeyB64)
  | .approve fingerprintHex => some (pending.approve fingerprintHex).2

/-- How many agents wait that came from the address. -/
def fromIp (remoteIp : String) (pending : PendingRegistry) : ℕ :=
  pending.entries.countP fun e => e.2.remoteIp = remoteIp

/-- Both caps hold. -/
structure Capped (pending : PendingRegistry) : Prop where
  total : pending.entries.length ≤ maxPending
  perIp : ∀ remoteIp, pending.fromIp remoteIp ≤ maxPendingPerIp

/-- A waiting key that comes again, from another address, finds room for it there. -/
def MovesWithRoom (pending : PendingRegistry) : Action → Prop
  | .insert pubkeyB64 _ remoteIp _ _ =>
    ∀ e ∈ pending.lookup pubkeyB64, e.remoteIp ≠ remoteIp →
      pending.fromIp remoteIp < maxPendingPerIp
  | _ => True

instance (pending : PendingRegistry) (a : Action) : Decidable (MovesWithRoom pending a) := by
  rcases a <;> dsimp only [MovesWithRoom] <;> infer_instance

section

variable {hashes : Hashes} {pending t : PendingRegistry} {a : Action} {as : List Action}
  {key : String} {e old : PendingEntry}

/-! ## What the operations do to the counts -/

/-- An agent is turned away only with a new key, and taken in with a new key only if there is room
for it. -/
theorem of_step_insert {hostname remoteIp : String} {osId : Option String} {conn : ℕ}
    (h : step hashes pending (.insert key hostname remoteIp osId conn) = some t) :
    (key ∉ pending ∧ t = pending) ∨
      ∃ e, e.remoteIp = remoteIp ∧ t = pending.insert key e ∧ (key ∉ pending →
        pending.entries.length < maxPending ∧ pending.fromIp remoteIp < maxPendingPerIp) := by
  simp only [step, add, Option.some.injEq] at h
  split_ifs at h with htotal hip
  · exact .inl ⟨htotal.2, h.symm⟩
  · exact .inl ⟨hip.1, h.symm⟩
  · refine .inr ⟨_, rfl, h.symm, fun hnew => ⟨?_, ?_⟩⟩
    · exact Nat.lt_of_not_le fun hfull => htotal ⟨hfull, hnew⟩
    · exact Nat.lt_of_not_le fun hfull => hip ⟨hnew, hfull⟩

/-- What leaves, leaves by its key. -/
theorem approve_cases (pending : PendingRegistry) (fingerprintHex : String) :
    (pending.approve fingerprintHex).2 = pending ∨
      ∃ key, (pending.approve fingerprintHex).2 = pending.erase key := by
  unfold approve
  split
  · exact .inl rfl
  · exact .inr ⟨_, rfl⟩

theorem length_erase_le (key : String) :
    (pending.erase key).entries.length ≤ pending.entries.length :=
  (List.kerase_sublist key pending.entries).length_le

theorem fromIp_erase_le (key remoteIp : String) :
    fromIp remoteIp (pending.erase key) ≤ pending.fromIp remoteIp :=
  AList.countP_erase_le key

theorem fromIp_insert_new (hnew : key ∉ pending) (e : PendingEntry) (remoteIp : String) :
    fromIp remoteIp (pending.insert key e) =
      pending.fromIp remoteIp + if e.remoteIp = remoteIp then 1 else 0 := by
  unfold fromIp
  rw [AList.countP_insert hnew]
  simp only [decide_eq_true_eq]

/-- A key that waits already moves its entry from the old address to the new one. -/
theorem fromIp_insert (hold : pending.lookup key = some old) (e : PendingEntry)
    (remoteIp : String) :
    fromIp remoteIp (pending.insert key e) + (if old.remoteIp = remoteIp then 1 else 0) =
      pending.fromIp remoteIp + if e.remoteIp = remoteIp then 1 else 0 := by
  have hcount := AList.countP_insert_of_lookup
    (p := fun e : Σ _ : String, PendingEntry => e.2.remoteIp = remoteIp) hold e
  simp only [decide_eq_true_eq] at hcount
  exact hcount

/-! ## The total -/

theorem length_insert_of_lookup (hold : pending.lookup key = some old) (e : PendingEntry) :
    (pending.insert key e).entries.length = pending.entries.length := by
  have hcount := AList.countP_insert_of_lookup (p := fun _ => true) hold e
  simpa only [List.countP_true, Nat.add_right_cancel_iff] using hcount

theorem length_le_of_step (h : pending.entries.length ≤ maxPending)
    (hstep : step hashes pending a = some t) : t.entries.length ≤ maxPending := by
  cases a with
  | remove key =>
    cases hstep
    exact Nat.le_trans (length_erase_le key) h
  | approve fingerprintHex =>
    cases hstep
    rcases approve_cases pending fingerprintHex with heq | ⟨key, heq⟩
    · rwa [heq]
    · rw [heq]
      exact Nat.le_trans (length_erase_le key) h
  | insert key hostname remoteIp osId conn =>
    obtain ⟨-, rfl⟩ | ⟨e, -, rfl, hroom⟩ := of_step_insert hstep
    · exact h
    · cases hold : pending.lookup key with
      | some old => rwa [length_insert_of_lookup hold]
      | none =>
        have hnew : key ∉ pending := AList.lookup_eq_none.1 hold
        rw [AList.entries_insert_of_notMem hnew]
        exact (hroom hnew).1

/-- The total is within its cap whatever happens. -/
theorem length_le_of_run (hr : run (step hashes) ∅ as = some t) :
    t.entries.length ≤ maxPending :=
  invariant_of_run (I := fun pending => pending.entries.length ≤ maxPending)
    (fun _ _ _ => length_le_of_step) (Nat.zero_le _) hr

/-! ## The share of an address -/

/-- The entry that moves keeps the caps of all addresses but its new one. -/
theorem perIp_insert_iff (h : ∀ remoteIp, pending.fromIp remoteIp ≤ maxPendingPerIp)
    (hold : pending.lookup key = some old) :
    (∀ remoteIp, fromIp remoteIp (pending.insert key e) ≤ maxPendingPerIp) ↔
      (old.remoteIp ≠ e.remoteIp → pending.fromIp e.remoteIp < maxPendingPerIp) := by
  constructor
  · intro hafter hmoves
    have hcap := hafter e.remoteIp
    have hcount := fromIp_insert hold e e.remoteIp
    rw [if_neg hmoves, if_pos rfl] at hcount
    omega
  · intro hroom remoteIp
    have hbefore := h remoteIp
    have hcount := fromIp_insert hold e remoteIp
    by_cases hnew : e.remoteIp = remoteIp
    · subst hnew
      by_cases hmoves : old.remoteIp = e.remoteIp
      · rw [if_pos hmoves, if_pos rfl] at hcount
        omega
      · have hfree := hroom hmoves
        rw [if_neg hmoves, if_pos rfl] at hcount
        omega
    · rw [if_neg hnew] at hcount
      omega

/-- A step keeps the caps of the addresses exactly when an entry that it moves finds room. -/
theorem perIp_step_iff (h : ∀ remoteIp, pending.fromIp remoteIp ≤ maxPendingPerIp)
    (hstep : step hashes pending a = some t) :
    (∀ remoteIp, t.fromIp remoteIp ≤ maxPendingPerIp) ↔ MovesWithRoom pending a := by
  cases a with
  | remove key =>
    cases hstep
    exact iff_of_true (fun ip => Nat.le_trans (fromIp_erase_le key ip) (h ip)) trivial
  | approve fingerprintHex =>
    cases hstep
    refine iff_of_true (fun ip => ?_) trivial
    rcases approve_cases pending fingerprintHex with heq | ⟨key, heq⟩
    · rw [heq]
      exact h ip
    · rw [heq]
      exact Nat.le_trans (fromIp_erase_le key ip) (h ip)
  | insert key hostname remoteIp osId conn =>
    cases hold : pending.lookup key with
    | some old =>
      have hin : key ∈ pending := AList.lookup_isSome.1 (by rw [hold]; rfl)
      obtain ⟨hnew, -⟩ | ⟨e, rfl, rfl, -⟩ := of_step_insert hstep
      · exact absurd hin hnew
      · rw [perIp_insert_iff h hold]
        simp only [MovesWithRoom, hold, Option.mem_some_iff, forall_eq']
    | none =>
      have hnew : key ∉ pending := AList.lookup_eq_none.1 hold
      have hmoves : MovesWithRoom pending (.insert key hostname remoteIp osId conn) := by
        simp [MovesWithRoom, hold]
      refine iff_of_true (fun ip => ?_) hmoves
      obtain ⟨-, rfl⟩ | ⟨e, rfl, rfl, hroom⟩ := of_step_insert hstep
      · exact h ip
      · have hbefore := h ip
        obtain ⟨-, hfree⟩ := hroom hnew
        rw [fromIp_insert_new hnew]
        by_cases heq : e.remoteIp = ip
        · subst heq
          rw [if_pos rfl]
          omega
        · rw [if_neg heq]
          omega

/-! ## Runs -/

theorem exists_run (hashes : Hashes) (pending : PendingRegistry) (as : List Action) :
    ∃ t, run (step hashes) pending as = some t := by
  induction as generalizing pending with
  | nil => exact ⟨pending, rfl⟩
  | cons a as ih =>
    obtain ⟨next, hnext⟩ : ∃ next, step hashes pending a = some next := by
      cases a <;> exact ⟨_, rfl⟩
    obtain ⟨t, ht⟩ := ih next
    exact ⟨t, run_cons_eq_some_iff.2 ⟨next, hnext, ht⟩⟩

end

/-- Every state of a run is within both caps iff each waiting key that comes again from another
address finds room for it there. -/
theorem capped_iff (hashes : Hashes) (as : List Action) :
    Always (step hashes) Capped ∅ as ↔ Meets (step hashes) MovesWithRoom ∅ as := by
  obtain ⟨t, hr⟩ := exists_run hashes ∅ as
  refine always_iff_meets (I := fun pending => pending.entries.length ≤ maxPending)
    (fun _ _ _ => length_le_of_step) (fun pending a next hlength hcapped hstep => ?_)
    (Nat.zero_le _) ⟨Nat.zero_le _, fun _ => Nat.zero_le _⟩ hr
  rw [← perIp_step_iff hcapped.perIp hstep]
  exact ⟨Capped.perIp, fun hperIp => ⟨length_le_of_step hlength hstep, hperIp⟩⟩

/-- A host with five keys waiting, and a sixth key that comes from elsewhere first. -/
def crowding : List Action :=
  [.insert "k1" "a" "203.0.113.7" none 1, .insert "k2" "b" "203.0.113.7" none 2,
    .insert "k3" "c" "203.0.113.7" none 3, .insert "k4" "d" "203.0.113.7" none 4,
    .insert "k5" "e" "203.0.113.7" none 5, .insert "k6" "f" "198.51.100.9" none 6,
    .insert "k6" "f" "203.0.113.7" none 7]

/-- The sixth agent of that host waits. -/
theorem crowding_uncapped : ¬ Always (step ⟨id, id⟩) Capped ∅ crowding := fun h =>
  absurd ((h.last rfl).perIp "203.0.113.7") (by decide)

end Tenodera.Gateway.PendingRegistry
