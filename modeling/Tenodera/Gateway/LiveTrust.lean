import Tenodera.Gateway.Enrollment
import Tenodera.Lib.Run

/-!
# Live connections and current trust

Trust is stored twice: `hosts.json` says which key a host has now, the registry says which
connection its messages go to.  Re-enrolment keeps the two in step by unregistering the old
connection.  Removing a host, approving a new key for it, and registering a connection that was
authenticated before either of them do not look at the other store; `trusted_iff` says when that
leaves a connection in the registry that the file does not vouch for.
-/

namespace Tenodera.Gateway.Enrollment

open Transition

/-- The key that the connection was authenticated with. -/
def State.keyOfConn (s : State) (conn : ℕ) : Option String := (s.peers conn).map (·.publicKey)

/-- The key now stored for the host. -/
def State.storedKey (s : State) (hostId : String) : Option String :=
  (findById (load s.file) hostId).bind (·.publicKey)

/-- Every registered connection belongs to an enrolled host and was authenticated with the key now
stored for it. -/
def Trusted (s : State) : Prop :=
  ∀ hostId a, s.registry.lookup hostId = some a →
    ∃ key, s.storedKey hostId = some key ∧ s.keyOfConn a.conn = some key

/-- The host a connection is about to be registered for. -/
def State.admittedHost (s : State) (conn : ℕ) : Option HostEntry :=
  match s.phase conn with
  | .admitted host => some host
  | _ => none

/-- A host is removed only without a registered connection, gets a new key by approval only without
one that was authenticated with another key, and gets a connection registered only with the key now
stored for it. -/
def RevokesNothing (s : State) : Action → Prop
  | .register conn =>
    ∀ host ∈ s.admittedHost conn, ∃ key ∈ s.storedKey host.id, s.keyOfConn conn = some key
  | .hostsRemove id saved => saved → id ∉ s.registry
  | .approve fingerprintHex _ _ saved _ =>
    saved → ∀ e ∈ s.pending.entryForFingerprint fingerprintHex,
      ∀ existing ∈ findByHostname (load s.file) e.hostname,
        ∀ a ∈ s.registry.lookup existing.id, s.keyOfConn a.conn = some e.pubkeyB64
  | _ => True

instance (s : State) (a : Action) : Decidable (RevokesNothing s a) := by
  rcases a <;> dsimp only [RevokesNothing] <;> infer_instance

section

variable {hashes : Hashes} {s t : State} {a : Action}

theorem storedKey_eq (s : State) (hostId : String) :
    s.storedKey hostId = (keyOf (identities s.file) hostId).join := by
  rw [keyOf_identities, State.storedKey]
  cases findById (load s.file) hostId <;> rfl

theorem storedKey_of_identities (h : identities t.file = identities s.file) (hostId : String) :
    t.storedKey hostId = s.storedKey hostId := by
  rw [storedKey_eq, storedKey_eq, h]

theorem KeepsConns.keyOfConn (hc : KeepsConns s t) {conn : ℕ} {key : String}
    (h : s.keyOfConn conn = some key) : t.keyOfConn conn = some key := by
  obtain ⟨peer, hpeer, rfl⟩ := Option.map_eq_some_iff.1 h
  simp [State.keyOfConn, hc.peers conn peer hpeer]

/-- The registered connections that stay registered keep the key stored for their host. -/
theorem trusted_of_keeps (hP : Trusted s) (hc : KeepsConns s t)
    (hreg : ∀ hostId a, t.registry.lookup hostId = some a → s.registry.lookup hostId = some a)
    (hkey : ∀ hostId a key, t.registry.lookup hostId = some a → s.storedKey hostId = some key →
      t.storedKey hostId = some key) : Trusted t := by
  intro hostId a ha
  obtain ⟨key, hk, hconn⟩ := hP hostId a (hreg hostId a ha)
  exact ⟨key, hkey hostId a key ha hk, hc.keyOfConn hconn⟩

theorem storedKey_append {key : String} {l : List Identity} {hostId : String}
    (hids : identities t.file = identities s.file ++ l) (h : s.storedKey hostId = some key) :
    t.storedKey hostId = some key := by
  rw [storedKey_eq] at h ⊢
  rw [hids]
  rcases hk : keyOf (identities s.file) hostId with _ | k
  · rw [hk] at h
    cases h
  · rwa [keyOf_append_of_some hk, ← hk]

theorem storedKey_rekey {id key : String}
    (hids : identities t.file = rekey id key (identities s.file)) (hostId : String) :
    t.storedKey hostId =
      if hostId = id then (keyOf (identities s.file) id).map fun _ => key
      else s.storedKey hostId := by
  rw [storedKey_eq, storedKey_eq, hids, keyOf_rekey]
  split_ifs with h
  · subst h
    cases keyOf (identities s.file) hostId <;> rfl
  · rfl

theorem storedKey_filter {id : String}
    (hids : identities t.file = (identities s.file).filter fun e => e.id ≠ id) (hostId : String) :
    t.storedKey hostId = if hostId = id then none else s.storedKey hostId := by
  rw [storedKey_eq, storedKey_eq, hids, keyOf_filter]
  split_ifs <;> rfl

theorem trusted_register {conn : ℕ} {host : HostEntry} {peer : Peer} (hP : Trusted s)
    (hadm : s.phase conn = .admitted host) (hfile : t.file = s.file)
    (hreg : t.registry = s.registry.register host.id conn peer.remoteIp)
    (hpeers : t.peers = s.peers) : Trusted t ↔ RevokesNothing s (.register conn) := by
  have hhost : s.admittedHost conn = some host := by simp [State.admittedHost, hadm]
  have hstored (hostId : String) : t.storedKey hostId = s.storedKey hostId := by
    simp [State.storedKey, hfile]
  have hconn (c : ℕ) : t.keyOfConn c = s.keyOfConn c := by simp [State.keyOfConn, hpeers]
  simp only [RevokesNothing, hhost, Option.mem_def, Option.some.injEq, forall_eq', Trusted, hstored,
    hconn, hreg]
  constructor
  · intro h
    exact h host.id _ (lookup_register_self ..)
  · intro hC hostId a ha
    by_cases heq : hostId = host.id
    · rw [heq, lookup_register_self] at ha
      cases ha
      rw [heq]
      exact hC
    · rw [lookup_register_of_ne _ _ _ heq] at ha
      exact hP hostId a ha

theorem trusted_remove {id : String} {saved : Bool} (hP : Trusted s)
    (hids : identities t.file =
      if saved then (identities s.file).filter fun e => e.id ≠ id else identities s.file)
    (hreg : t.registry = s.registry) (hc : KeepsConns s t) :
    Trusted t ↔ RevokesNothing s (.hostsRemove id saved) := by
  cases saved with
  | false =>
    refine iff_of_true (trusted_of_keeps hP hc (by simp [hreg]) fun hostId _ key _ hk => ?_)
      (by simp [RevokesNothing])
    rwa [storedKey_of_identities hids]
  | true =>
    have hstored := storedKey_filter hids
    simp only [RevokesNothing, true_imp_iff]
    constructor
    · intro h hmem
      obtain ⟨a, ha⟩ := Option.isSome_iff_exists.1 (AList.lookup_isSome.2 hmem)
      obtain ⟨key, hk, -⟩ := h id a (by rw [hreg, ha])
      rw [hstored, if_pos rfl] at hk
      cases hk
    · intro h
      refine trusted_of_keeps hP hc (by simp [hreg]) fun hostId a key ha hk => ?_
      have hne : hostId ≠ id := by
        rintro rfl
        rw [hreg] at ha
        exact h (AList.lookup_isSome.1 (by simp [ha]))
      rwa [hstored, if_neg hne]

theorem trusted_approve {fingerprintHex : String} {displayName : Option String} {draw : Draw}
    {saved nameSaved : Bool} (hP : Trusted s)
    (hids : identities t.file = approvedIdentities fingerprintHex draw saved s)
    (hreg : t.registry = s.registry) (hc : KeepsConns s t) :
    Trusted t ↔ RevokesNothing s (.approve fingerprintHex displayName draw saved nameSaved) := by
  have hkept (h : identities t.file = identities s.file) : Trusted t :=
    trusted_of_keeps hP hc (by simp [hreg]) fun hostId _ key _ hk => by
      rwa [storedKey_of_identities h]
  simp only [approvedIdentities] at hids
  simp only [RevokesNothing]
  rcases he : s.pending.entryForFingerprint fingerprintHex with _ | e
  · rw [he] at hids
    exact iff_of_true (hkept hids) (by simp)
  · cases saved with
    | false => exact iff_of_true (hkept (by simpa [he] using hids)) (by simp)
    | true =>
      simp only [he, if_true] at hids
      simp only [Option.mem_def, Option.some.injEq, forall_eq', true_imp_iff]
      rcases hn : findByHostname (load s.file) e.hostname with _ | existing
      · rw [hn] at hids
        refine iff_of_true (trusted_of_keeps hP hc (by simp [hreg]) fun _ _ _ _ hk => ?_) (by simp)
        exact storedKey_append hids hk
      · rw [hn] at hids
        have hstored := storedKey_rekey hids
        simp only [Option.some.injEq, forall_eq']
        constructor
        · intro h a ha
          obtain ⟨key, hk, hconn⟩ := h existing.id a (by rw [hreg, ha])
          obtain ⟨key', -, hconn'⟩ := hP existing.id a ha
          rw [hstored, if_pos rfl] at hk
          obtain ⟨_, -, rfl⟩ := Option.map_eq_some_iff.1 hk
          rw [hconn', ← hc.keyOfConn hconn', hconn]
        · intro hC hostId a ha
          rw [hreg] at ha
          obtain ⟨key, hk, hconn⟩ := hP hostId a ha
          by_cases heq : hostId = existing.id
          · subst heq
            refine ⟨e.pubkeyB64, ?_, hc.keyOfConn (hC a ha)⟩
            rw [hstored, if_pos rfl]
            rw [storedKey_eq] at hk
            rw [Option.join_eq_some_iff.1 hk]
            rfl
          · exact ⟨key, by rwa [hstored, if_neg heq], hc.keyOfConn hconn⟩

theorem trusted_step (hP : Trusted s) (h : Effect s t a) : Trusted t ↔ RevokesNothing s a := by
  cases h with
  | quiet ha hids hreg _ hc =>
    refine iff_of_true (trusted_of_keeps hP hc (by simp [hreg]) fun hostId _ key _ hk => ?_)
      (by cases a <;> trivial)
    rwa [storedKey_of_identities hids]
  | registered host peer hadm _ hfile hreg _ _ hpeers =>
    exact trusted_register hP hadm hfile hreg hpeers
  | removed hids hreg _ hc => exact trusted_remove hP hids hreg hc
  | approved _ hids hreg _ hc => exact trusted_approve hP hids hreg hc
  | unregistered host _ hfile hreg _ hphase hpeers =>
    refine iff_of_true (trusted_of_keeps hP ?_ (fun hostId a ha => ?_) fun _ _ _ _ hk => ?_) trivial
    · exact keepsConns_update (fun _ => rfl) hphase fun _ _ h => by rwa [hpeers]
    · rw [hreg] at ha
      exact (of_lookup_unregister ha).2
    · rwa [storedKey_of_identities (congrArg identities hfile)]
  | hello _ peer stores hc =>
    refine iff_of_true ?_ trivial
    cases stores with
    | kept hids hreg _ =>
      refine trusted_of_keeps hP hc (by simp [hreg]) fun hostId _ key _ hk => ?_
      rwa [storedKey_of_identities hids]
    | enrolled _ _ hids hreg _ =>
      exact trusted_of_keeps hP hc (by simp [hreg]) fun _ _ _ _ hk => storedKey_append hids hk
    | rekeyed existing _ _ hids hreg _ =>
      refine trusted_of_keeps hP hc (fun hostId a ha => ?_) fun hostId a key ha hk => ?_
      · rw [hreg] at ha
        exact (of_lookup_unregister ha).2
      · rw [hreg] at ha
        rwa [storedKey_rekey hids, if_neg (of_lookup_unregister ha).1]

/-- Along every run, the file vouches for every registered connection exactly when no step revokes
the trust in a connection that is registered, or registers one whose trust was revoked. -/
theorem trusted_iff (hashes : Hashes) (file : HostsFile) (as : List Action) (t : State)
    (hr : run (step hashes) (.init file) as = some t) :
    Always (step hashes) Trusted (.init file) as ↔
      Meets (step hashes) RevokesNothing (.init file) as :=
  always_iff_meets (I := fun _ => True) (fun _ _ _ _ _ => trivial)
    (fun _ _ _ _ hP h => trusted_step hP (step_effect h)) trivial
    (fun _ _ h => by simp [State.init] at h) hr

end

/-- The agent of host `web` enrols from this machine and is registered. -/
def webConnects : List Action :=
  [.hello 0 (agentHello "web" "K1") "127.0.0.1" true ⟨"h1", "t0"⟩ true, .fillOsId 0 true,
    .register 0]

theorem trusted_webLeaves :
    ∃ t, run (step plainHashes) (.init .absent)
        (webConnects ++ [.leave 0 "t1" true, .unregister 0, .hostsRemove "h1" true]) = some t ∧
      Always (step plainHashes) Trusted (.init .absent)
        (webConnects ++ [.leave 0 "t1" true, .unregister 0, .hostsRemove "h1" true]) :=
  ⟨_, rfl, (trusted_iff plainHashes .absent
    (webConnects ++ [.leave 0 "t1" true, .unregister 0, .hostsRemove "h1" true]) _ rfl).2
      (by decide)⟩

/-- The host is removed while its agent is connected: the file is empty, and messages for the host
still go to the connection. -/
theorem removed_host_routable :
    ∃ t, run (step plainHashes) (.init .absent) (webConnects ++ [.hostsRemove "h1" true]) = some t ∧
      (load t.file).hosts = [] ∧ t.registry.lookup "h1" = some ⟨0, some "127.0.0.1"⟩ ∧
      ¬ Trusted t := by
  refine ⟨_, rfl, rfl, rfl, fun h => ?_⟩
  obtain ⟨key, hk, -⟩ := h "h1" _ rfl
  cases hk

end Tenodera.Gateway.Enrollment
