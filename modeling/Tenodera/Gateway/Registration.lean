import Tenodera.Gateway.Enrollment
import Tenodera.Lib.Run

/-!
# The registration of the newest connection

A host reconnects while the gateway has not yet noticed the end of its previous connection.  The
registry is keyed by the host alone, so the clean-up of the old connection can take out the entry of
the new one.  `routable_iff` says that this is the only way in which a running connection loses its
registration.
-/

namespace Tenodera.Gateway.Enrollment

open Transition

/-- The connection registered last for the host, unless it was kicked since. -/
def newest (hostId : String) : List Event → Option ℕ
  | [] => none
  | .registered h conn :: rest => if h = hostId then some conn else newest hostId rest
  | .kicked h :: rest => if h = hostId then none else newest hostId rest

/-- The registry maps every host to its newest connection while that runs. -/
def Routable (s : State) : Prop :=
  ∀ hostId conn, newest hostId s.history = some conn → (s.phase conn).runsFor hostId →
    ∃ a, s.registry.lookup hostId = some a ∧ a.conn = conn

/-- The host of a connection whose clean-up is under way. -/
def State.leavingHost (s : State) (conn : ℕ) : Option HostEntry :=
  match s.phase conn with
  | .leaving host => some host
  | _ => none

/-- A clean-up finds the entry of its host gone, or owned by a connection that does not run. -/
def OwnsEntry (s : State) : Action → Prop
  | .unregister conn =>
    ∀ host ∈ s.leavingHost conn, ∀ a ∈ s.registry.lookup host.id, ¬ (s.phase a.conn).runsFor host.id
  | _ => True

instance (s : State) (a : Action) : Decidable (OwnsEntry s a) := by
  rcases a <;> dsimp only [OwnsEntry] <;> infer_instance

/-- Every entry of the registry belongs to the newest connection of its host. -/
def EntriesNewest (s : State) : Prop :=
  ∀ hostId a, s.registry.lookup hostId = some a → newest hostId s.history = some a.conn

section

variable {hashes : Hashes} {s t : State} {a : Action}

theorem entriesNewest_of_eq (hI : EntriesNewest s) (hreg : t.registry = s.registry)
    (hhist : t.history = s.history) : EntriesNewest t := by
  intro hostId a h
  rw [hreg] at h
  rw [hhist]
  exact hI hostId a h

theorem entriesNewest_step (hI : EntriesNewest s) (h : Effect s t a) : EntriesNewest t := by
  cases h with
  | quiet _ _ hreg hhist _ | approved _ _ hreg hhist _ | removed _ hreg hhist _ =>
    exact entriesNewest_of_eq hI hreg hhist
  | hello _ peer stores _ =>
    cases stores with
    | kept _ hreg hhist | enrolled _ _ _ hreg hhist => exact entriesNewest_of_eq hI hreg hhist
    | rekeyed existing _ _ _ hreg hhist =>
      intro hostId a h
      rw [hreg] at h
      rw [hhist]
      obtain ⟨hne, ha⟩ := of_lookup_unregister h
      rw [newest, if_neg (Ne.symm hne)]
      exact hI hostId a ha
  | registered host peer _ _ _ hreg hhist _ _ =>
    intro hostId a h
    rw [hreg] at h
    rw [hhist]
    by_cases heq : hostId = host.id
    · rw [heq, lookup_register_self] at h
      cases h
      rw [newest, if_pos heq.symm]
    · rw [lookup_register_of_ne _ _ _ heq] at h
      rw [newest, if_neg (Ne.symm heq)]
      exact hI hostId a h
  | unregistered host _ _ hreg hhist _ _ =>
    intro hostId a h
    rw [hreg] at h
    rw [hhist]
    exact hI hostId a (of_lookup_unregister h).2

theorem routable_of_eq (hP : Routable s) (hreg : t.registry = s.registry)
    (hhist : t.history = s.history) (hc : KeepsConns s t) : Routable t := by
  intro hostId conn hn hrun
  rw [hhist] at hn
  rw [hreg]
  exact hP hostId conn hn (hc.running conn hostId hrun)

theorem ownsEntry_of_isQuiet (ha : a.isQuiet) : OwnsEntry s a := by
  cases a <;> trivial

/-- The newest connection of a host that is being cleaned up is the one in the registry, if any. -/
theorem routable_unregister {conn : ℕ} {host : HostEntry} (hI : EntriesNewest s) (hP : Routable s)
    (hleaving : s.phase conn = .leaving host) (hreg : t.registry = s.registry.unregister host.id)
    (hhist : t.history = s.history) (hphase : t.phase = Function.update s.phase conn .closed) :
    Routable t ↔ OwnsEntry s (.unregister conn) := by
  have hhost : s.leavingHost conn = some host := by simp [State.leavingHost, hleaving]
  have hrunning (c : ℕ) (hostId : String) :
      (t.phase c).runsFor hostId ↔ (s.phase c).runsFor hostId := by
    rw [hphase]
    by_cases hc : c = conn
    · subst hc
      simp [hleaving, Phase.runsFor]
    · rw [Function.update_of_ne hc]
  simp only [OwnsEntry, hhost, Option.mem_def, Option.some.injEq, forall_eq']
  constructor
  · intro hPt a ha hrun
    have hn : newest host.id t.history = some a.conn := by rw [hhist, hI _ _ ha]
    obtain ⟨a', ha', -⟩ := hPt host.id a.conn hn ((hrunning _ _).2 hrun)
    rw [hreg, lookup_unregister_self] at ha'
    cases ha'
  · intro hC hostId c hn hrun
    rw [hhist] at hn
    rw [hrunning] at hrun
    obtain ⟨a, ha, rfl⟩ := hP hostId c hn hrun
    by_cases heq : hostId = host.id
    · subst heq
      exact absurd hrun (hC a ha)
    · rw [hreg, lookup_unregister_of_ne _ heq]
      exact ⟨a, ha, rfl⟩

theorem routable_step (hI : EntriesNewest s) (hP : Routable s) (h : Effect s t a) :
    Routable t ↔ OwnsEntry s a := by
  cases h with
  | quiet ha _ hreg hhist hc =>
    exact iff_of_true (routable_of_eq hP hreg hhist hc) (ownsEntry_of_isQuiet ha)
  | approved _ _ hreg hhist hc | removed _ hreg hhist hc =>
    exact iff_of_true (routable_of_eq hP hreg hhist hc) trivial
  | hello _ peer stores hc =>
    refine iff_of_true ?_ trivial
    cases stores with
    | kept _ hreg hhist | enrolled _ _ _ hreg hhist => exact routable_of_eq hP hreg hhist hc
    | rekeyed existing _ _ _ hreg hhist =>
      intro hostId conn hn hrun
      rw [hhist, newest] at hn
      split_ifs at hn with heq
      rw [hreg, lookup_unregister_of_ne _ (Ne.symm heq)]
      exact hP hostId conn hn (hc.running conn hostId hrun)
  | @registered conn' host peer _ _ _ hreg hhist hphase _ =>
    refine iff_of_true ?_ trivial
    intro hostId conn hn hrun
    rw [hhist, newest] at hn
    rw [hreg]
    split_ifs at hn with heq
    · cases hn
      rw [← heq, lookup_register_self]
      exact ⟨_, rfl, rfl⟩
    · rw [lookup_register_of_ne _ _ _ (Ne.symm heq)]
      have hne : (s.phase conn).runsFor hostId := by
        rw [hphase] at hrun
        by_cases hc : conn = conn'
        · subst hc
          simp [Phase.runsFor, heq] at hrun
        · rwa [Function.update_of_ne hc] at hrun
      exact hP hostId conn hn hne
  | unregistered host hleaving _ hreg hhist hphase _ =>
    exact routable_unregister hI hP hleaving hreg hhist hphase

/-- Along every run, the registry keeps every running, unkicked newest connection exactly when every
clean-up finds the entry of its host gone or owned by a connection that does not run. -/
theorem routable_iff (hashes : Hashes) (file : HostsFile) (as : List Action) (t : State)
    (hr : run (step hashes) (.init file) as = some t) :
    Always (step hashes) Routable (.init file) as ↔ Meets (step hashes) OwnsEntry (.init file) as :=
  always_iff_meets (I := EntriesNewest)
    (fun _ _ _ hI h => entriesNewest_step hI (step_effect h))
    (fun _ _ _ hI hP h => routable_step hI hP (step_effect h))
    (fun _ _ h => by simp [State.init] at h) (fun _ _ h => by simp [State.init, newest] at h) hr

end

/-- Connection 0 enrols the host, connection 1 is the next one of the same agent; the actions
between the two registrations are left open. -/
def reconnect (between : List Action) : List Action :=
  [.hello 0 (agentHello "web" "K1") "127.0.0.1" true ⟨"h1", "t0"⟩ true, .fillOsId 0 true,
    .register 0] ++ between ++
  [.hello 1 (agentHello "web" "K1") "127.0.0.1" true ⟨"h2", "t2"⟩ true, .fillOsId 1 true,
    .register 1]

theorem routable_reconnect :
    ∃ t, run (step plainHashes) (.init .absent)
        (reconnect [.leave 0 "t1" true, .unregister 0]) = some t ∧
      Always (step plainHashes) Routable (.init .absent)
        (reconnect [.leave 0 "t1" true, .unregister 0]) :=
  ⟨_, rfl, (routable_iff plainHashes .absent
    (reconnect [.leave 0 "t1" true, .unregister 0]) _ rfl).2 (by decide)⟩

/-- The clean-up of connection 0 comes after the registration of connection 1: connection 1 runs,
was not kicked, and is not in the registry. -/
theorem late_cleanup_unregisters :
    ∃ t, run (step plainHashes) (.init .absent)
        (reconnect [] ++ [.leave 0 "t3" true, .unregister 0]) = some t ∧
      newest "h1" t.history = some 1 ∧ (t.phase 1).runsFor "h1" ∧ t.registry.lookup "h1" = none ∧
      ¬ Routable t := by
  refine ⟨_, rfl, rfl, rfl, rfl, fun h => ?_⟩
  obtain ⟨a, ha, -⟩ := h "h1" 1 rfl rfl
  cases ha

end Tenodera.Gateway.Enrollment
