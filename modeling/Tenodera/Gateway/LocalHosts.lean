import Tenodera.Agent.GatewayUrl
import Tenodera.Gateway.KeyChanges

/-!
# Which hosts are local

A host is local when it runs on the machine of the gateway.  Two paths of authentication and the
approval decide that by the address of the connection; an enrolment with a token believes the agent.
`local_of_meets` says that the flag is justified as long as no agent elsewhere claims it with a
token, and for which gateway URLs the agent's own claim is.
-/

namespace Tenodera.Gateway.LocalHosts

open Cell Transition
open Handshake (Greeting Job Approval hostPlan written)
open KeyChanges (Edit isEdit)

/-! ## The statement -/

/-- The client address is a loopback address. -/
def fromLoopback (remoteIp : String) : Bool := (IpAddr.parse remoteIp).any IpAddr.isLoopback

structure State where
  gateway : KeyChanges.State
  /-- Not part of the gateway: the hosts that were enrolled, approved or given a new key, with the
  client address of the connection. -/
  origins : List (String × String)

/-- The gateway after its start with the hosts of an earlier run. -/
def State.init (file : HostsFile) (origins : List (String × String)) : State :=
  ⟨.init file, origins⟩

/-- The host that is saved, with the address of the connection that it is saved for. -/
def origin (s : KeyChanges.State) : KeyChanges.Action → Option (String × String)
  | .task (.conn conn (.save .done)) =>
    match s.phase conn with
    | .saving _ host _ => (s.greeting conn).map fun g => (host.id, g.peer.remoteIp)
    | _ => none
  | .task (.approve request (.save .done)) =>
    match s.approval request with
    | .saving job _ host _ =>
      (s.greeting job.entry.approveTx).map fun g => (host.id, g.peer.remoteIp)
    | _ => none
  | _ => none

def step (crypto : Crypto) (gatewayId : String) (s : State) (a : KeyChanges.Action) :
    Option State :=
  (KeyChanges.step crypto gatewayId s.gateway a).map fun t =>
    ⟨t, (origin s.gateway a).toList ++ s.origins⟩

/-- The host was enrolled, approved or given a new key on a connection from this machine. -/
def Justified (origins : List (String × String)) (hostId : String) : Prop :=
  ∃ o ∈ origins, o.1 = hostId ∧ fromLoopback o.2

/-- Every local host was enrolled or approved on a connection from this machine. -/
def LocalJustified (s : State) : Prop :=
  ∀ host ∈ (load s.gateway.file).hosts, host.isLocal → Justified s.origins host.id

/-- A new host that a connection saves is not from elsewhere and claims to be local. -/
def ClaimsTruly (s : State) : KeyChanges.Action → Prop
  | .task (.conn conn (.save .done)) =>
    match s.gateway.phase conn with
    | .saving none _ _ => ∀ g ∈ s.gateway.greeting conn, g.isLocal → fromLoopback g.peer.remoteIp
    | _ => True
  | _ => True

instance (s : State) (a : KeyChanges.Action) : Decidable (ClaimsTruly s a) := by
  rcases a with ⟨_ | _⟩ <;> dsimp only [ClaimsTruly] <;>
    first | infer_instance | (split <;> first | infer_instance | (split <;> infer_instance))

theorem fromLoopback_of_isLoopback {remoteIp : String} (h : isLoopback remoteIp) :
    fromLoopback remoteIp := by
  unfold isLoopback at h
  rw [Bool.or_eq_true, decide_eq_true_iff, decide_eq_true_iff] at h
  rcases h with rfl | rfl <;> decide

/-! ## What a save does to the flags -/

/-- The ids of a configuration, with their flags. -/
def flags (config : HostsConfig) : List (String × Bool) :=
  config.hosts.map fun h => (h.id, h.isLocal)

theorem flags_modifyHost (config : HostsConfig) (hostId : String) {f : HostEntry → HostEntry}
    (hf : ∀ h, ((f h).id, (f h).isLocal) = (h.id, h.isLocal)) :
    flags (modifyHost config hostId f) ⊆ flags config := by
  have hsame : flags (modifyHost config hostId f) = flags config :=
    map_modifyHost (fun h => (h.id, h.isLocal)) hf
  rw [hsame]
  exact List.Subset.refl _

section

variable {config config' : HostsConfig} {hostId : String}

/-- `register_host` adds a flag, `replace_pubkey` changes none. -/
theorem flags_hostPlan {draw : Draw} {existing : Option HostEntry} {hostname pubkeyB64 : String}
    {isLocal : Bool} {displayName osId : Option String} {host : HostEntry}
    {failed : Except HostsError HostEntry}
    (h : hostPlan draw existing hostname pubkeyB64 isLocal displayName osId config =
      .write config' (.ok host) failed) :
    ∀ m ∈ flags config', m ∈ flags config ∨ existing = none ∧ m = (host.id, isLocal) := by
  rcases existing with _ | e
  · cases h
    intro m hm
    rw [flags, List.map_append] at hm
    rcases List.mem_append.1 hm with hold | hnew
    · exact .inl hold
    · exact .inr ⟨rfl, List.mem_singleton.1 hnew⟩
  · change replacePubkey e.id pubkeyB64 config = _ at h
    rcases hfind : findById config e.id with _ | host'
    · rw [replacePubkey_of_none hfind] at h
      cases h
    · rw [replacePubkey_of_some pubkeyB64 hfind] at h
      cases h
      have hsub : flags (modifyHost config e.id fun h => { h with publicKey := some pubkeyB64 }) ⊆
          flags config := flags_modifyHost config e.id fun _ => rfl
      exact fun m hm => .inl (hsub hm)

theorem flags_saveDisplayName {displayName : Option String} {saved failed : Except HostsError Unit}
    (h : saveDisplayName hostId displayName config = .write config' saved failed) :
    flags config' ⊆ flags config := by
  unfold saveDisplayName at h
  split at h
  · cases h
    exact flags_modifyHost config hostId fun _ => rfl
  · cases h

/-- An edit changes no flag. -/
theorem flags_edit {op : HostsOp} (hop : isEdit op) {saved failed : Reply}
    (h : op.plan config = .write config' saved failed) : flags config' ⊆ flags config := by
  have hwrite {ρ : Type} {plan : Plan HostsConfig ρ} {g : ρ → Reply}
      (h : plan.map (fun c => c) g = .write config' saved failed) :
      ∃ s f, plan = .write config' s f := by
    cases plan with
    | answer reply => cases h
    | write value s f =>
      cases h
      exact ⟨s, f, rfl⟩
  cases op with
  | registerHost | replacePubkey | saveDisplayName => cases hop
  | updateOsId hostId osId =>
    obtain ⟨s, f, hplan⟩ := hwrite h
    unfold updateOsId at hplan
    split at hplan
    · split_ifs at hplan
      cases hplan
      exact flags_modifyHost config hostId fun _ => rfl
    · cases hplan
  | updateLastSeen hostId now =>
    obtain ⟨s, f, hplan⟩ := hwrite h
    unfold updateLastSeen at hplan
    split at hplan
    · cases hplan
      exact flags_modifyHost config hostId fun _ => rfl
    · cases hplan
  | hostsRemove id =>
    obtain ⟨s, f, hplan⟩ := hwrite h
    unfold Gateway.hostsRemove at hplan
    dsimp only at hplan
    split_ifs at hplan
    cases hplan
    exact List.map_subset _ (List.filter_subset_self ..)
  | hostsPatch id displayName =>
    obtain ⟨s, f, hplan⟩ := hwrite h
    unfold Gateway.hostsPatch at hplan
    split_ifs at hplan
    split at hplan
    · cases hplan
      exact flags_modifyHost config id fun _ => rfl
    · cases hplan

end

/-! ## The invariant -/

/-- The flags of a configuration are justified, but for that of a host that is justified by
`own`. -/
def FlagsJustified (origins : List (String × String)) (own : String → Prop)
    (config : HostsConfig) : Prop :=
  ∀ m ∈ flags config, m.2 → Justified origins m.1 ∨ own m.1

/-- The agent is from this machine, or says so. -/
def Claims (g : Greeting) : Prop := g.isLocal ∨ fromLoopback g.peer.remoteIp

/-- What a connection is about to save. -/
def PhaseJustified (origins : List (String × String)) (g : Greeting) : Handshake.Phase → Prop
  | .enrolling none isLocal => isLocal → Claims g
  | .saving existing host config =>
    FlagsJustified origins (fun id => existing = none ∧ id = host.id ∧ Claims g) config
  | _ => True

/-- The entry has the address of its connection. -/
def FromConn (greeting : ℕ → Option Greeting) (e : PendingEntry) : Prop :=
  ∃ g, greeting e.approveTx = some g ∧ g.peer.remoteIp = e.remoteIp

/-- What an approval is about to save. -/
def ApprovalJustified (greeting : ℕ → Option Greeting) (origins : List (String × String)) :
    Approval → Prop
  | .found job | .checked job _ => FromConn greeting job.entry
  | .saving job _ host config =>
    FromConn greeting job.entry ∧
      FlagsJustified origins (fun id => id = host.id ∧ isLoopback job.entry.remoteIp) config
  | .nameSaving _ _ config => FlagsJustified origins (fun _ => False) config
  | _ => True

def EditJustified (origins : List (String × String)) : Edit → Prop
  | .saving config => FlagsJustified origins (fun _ => False) config
  | _ => True

/-- All that is in the file, or about to be saved, is justified. -/
structure Invariant (s : State) : Prop where
  absent : ∀ conn, s.gateway.phase conn = .absent → s.gateway.greeting conn = none
  file : FlagsJustified s.origins (fun _ => False) (load s.gateway.file)
  pending : ∀ key e, s.gateway.pending.lookup key = some e → FromConn s.gateway.greeting e
  conns : ∀ conn g, s.gateway.greeting conn = some g →
    PhaseJustified s.origins g (s.gateway.phase conn)
  approvals : ∀ r, ApprovalJustified s.gateway.greeting s.origins (s.gateway.approval r)
  edits : ∀ edit, EditJustified s.origins (s.gateway.edits edit)

theorem localJustified_iff (s : State) :
    LocalJustified s ↔ FlagsJustified s.origins (fun _ => False) (load s.gateway.file) := by
  simp [LocalJustified, FlagsJustified, flags]

section

variable {origins origins' : List (String × String)} {own own' : String → Prop}
  {config config' : HostsConfig} {g : Greeting} {greeting greeting' : ℕ → Option Greeting}

theorem FlagsJustified.mono (h : FlagsJustified origins own config) (hsub : origins ⊆ origins')
    (hown : ∀ id, own id → Justified origins' id ∨ own' id) :
    FlagsJustified origins' own' config := by
  intro m hm hlocal
  rcases h m hm hlocal with ⟨o, ho, hid⟩ | hin
  · exact .inl ⟨o, hsub ho, hid⟩
  · exact hown m.1 hin

theorem FlagsJustified.kept (h : FlagsJustified origins (fun _ => False) config)
    (hsub : flags config' ⊆ flags config) : FlagsJustified origins own config' := by
  intro m hm hlocal
  exact .inl ((h m (hsub hm) hlocal).resolve_right id)

theorem PhaseJustified.mono {p : Handshake.Phase} (h : PhaseJustified origins g p)
    (hsub : origins ⊆ origins') : PhaseJustified origins' g p := by
  unfold PhaseJustified at h ⊢
  split
  · exact h
  · exact h.mono hsub fun _ hown => .inr hown
  · trivial

theorem ApprovalJustified.mono {q : Approval} (h : ApprovalJustified greeting origins q)
    (hsub : origins ⊆ origins')
    (hgreeting : ∀ conn g, greeting conn = some g → greeting' conn = some g) :
    ApprovalJustified greeting' origins' q := by
  have hconn {e : PendingEntry} (he : FromConn greeting e) : FromConn greeting' e := by
    obtain ⟨g, hg, hip⟩ := he
    exact ⟨g, hgreeting _ _ hg, hip⟩
  unfold ApprovalJustified at h ⊢
  split
  · exact hconn h
  · exact hconn h
  · exact ⟨hconn h.1, h.2.mono hsub fun _ hown => .inr hown⟩
  · exact h.mono hsub fun _ hown => .inr hown
  · trivial

theorem EditJustified.mono {q : Edit} (h : EditJustified origins q) (hsub : origins ⊆ origins') :
    EditJustified origins' q := by
  unfold EditJustified at h ⊢
  split
  · exact h.mono hsub fun _ hown => .inr hown
  · trivial

end

section

variable {crypto : Crypto} {gatewayId : String} {s t : State} {conn request : ℕ} {g : Greeting}
  {origins : List (String × String)}

/-- A step moves connections, approvals, edits and entries on, and forgets no origin. -/
theorem Invariant.of_moves (hs : Invariant s) (horigins : s.origins ⊆ t.origins)
    (hgreeting : t.gateway.greeting = s.gateway.greeting)
    (hfile : FlagsJustified t.origins (fun _ => False) (load t.gateway.file))
    (hphase : ∀ c, t.gateway.phase c = s.gateway.phase c ∨ t.gateway.phase c ≠ .absent ∧
      ∀ g, s.gateway.greeting c = some g → PhaseJustified t.origins g (t.gateway.phase c))
    (hpending : ∀ key e, t.gateway.pending.lookup key = some e →
      s.gateway.pending.lookup key = some e ∨ FromConn s.gateway.greeting e)
    (happroval : ∀ r, t.gateway.approval r = s.gateway.approval r ∨
      ApprovalJustified s.gateway.greeting t.origins (t.gateway.approval r))
    (hedits : ∀ edit, t.gateway.edits edit = s.gateway.edits edit ∨
      EditJustified t.origins (t.gateway.edits edit)) : Invariant t where
  absent c hc := by
    rw [hgreeting]
    rcases hphase c with heq | ⟨hne, -⟩
    · exact hs.absent c (heq ▸ hc)
    · exact absurd hc hne
  file := hfile
  pending key e he := by
    rw [hgreeting]
    exact (hpending key e he).elim (hs.pending key e) id
  conns c g hg := by
    rw [hgreeting] at hg
    rcases hphase c with heq | ⟨-, hnew⟩
    · rw [heq]
      exact (hs.conns c g hg).mono horigins
    · exact hnew g hg
  approvals r := by
    rw [hgreeting]
    rcases happroval r with heq | hnew
    · rw [heq]
      exact (hs.approvals r).mono horigins fun _ _ h => h
    · exact hnew
  edits edit := by
    rcases hedits edit with heq | hnew
    · rw [heq]
      exact (hs.edits edit).mono horigins
    · exact hnew

/-- A file that a task has written what it was about to save into. -/
theorem FlagsJustified.written {file : HostsFile} {config : HostsConfig}
    (hfile : FlagsJustified origins (fun _ => False) (load file)) (out : WriteOutcome)
    (hconfig : out = .done → FlagsJustified origins (fun _ => False) config) :
    FlagsJustified origins (fun _ => False) (load (written out config file)) := by
  cases out with
  | done => exact hconfig rfl
  | refused => exact hfile
  | interrupted => exact fun m hm => absurd hm List.not_mem_nil

/-! ## Connections -/

/-- Only a token lets the claim of an agent decide. -/
theorem phaseJustified_takeToken (hashes : Hashes) (now : ℕ) (g : Greeting)
    (existing : Option HostEntry) (tokens : BootstrapRegistry) :
    PhaseJustified origins g (Handshake.takeToken hashes now g existing tokens).1 := by
  unfold Handshake.takeToken
  split
  · trivial
  · split <;> trivial
  · split
    · exact .inl
    · trivial
  · split_ifs with hloopback
    · exact fun _ => .inr (fromLoopback_of_isLoopback hloopback)
    · trivial

theorem phaseJustified_advance {shared shared' : Handshake.Shared} {a : Handshake.ConnAction}
    {p p' : Handshake.Phase} {evs : List Handshake.Event}
    (hfile : FlagsJustified origins (fun _ => False) (load shared.file))
    (hp : PhaseJustified origins g p)
    (h : Handshake.advance crypto gatewayId conn g shared a p = some (p', shared', evs)) :
    PhaseJustified origins g p' := by
  cases Handshake.advances_of_advance h with
  | tookToken => exact phaseJustified_takeToken ..
  | planned hplan =>
    intro m hm hlocal
    rcases flags_hostPlan hplan m hm with hold | ⟨rfl, rfl⟩
    · exact .inl ((hfile m hold hlocal).resolve_right id)
    · exact .inr ⟨rfl, rfl, hp hlocal⟩
  | _ => trivial

/-- What a connection saves is justified once it is saved. -/
theorem flagsJustified_save {existing : Option HostEntry} {host : HostEntry} {config : HostsConfig}
    (h : FlagsJustified origins (fun id => existing = none ∧ id = host.id ∧ Claims g) config)
    (hC : existing = none → g.isLocal → fromLoopback g.peer.remoteIp) :
    FlagsJustified ((host.id, g.peer.remoteIp) :: origins) (fun _ => False) config := by
  refine h.mono (List.subset_cons_self ..) fun id ⟨hnone, hid, hclaims⟩ => .inl ?_
  have hloopback : fromLoopback g.peer.remoteIp := by
    rcases hclaims with hlocal | hloopback
    · exact hC hnone hlocal
    · exact hloopback
  exact ⟨_, List.mem_cons_self, hid.symm, hloopback⟩

theorem invariant_conn (hs : Invariant s) {a : Handshake.ConnAction} {gw : KeyChanges.State}
    (hC : ClaimsTruly s (.task (.conn conn a)))
    (h : KeyChanges.step crypto gatewayId s.gateway (.task (.conn conn a)) = some gw) :
    Invariant ⟨gw, (origin s.gateway (.task (.conn conn a))).toList ++ s.origins⟩ := by
  obtain ⟨-, -, u, hu, rfl⟩ := KeyChanges.of_step_task h
  cases Handshake.steps_of_step hu
  rename_i g p' shared' evs hg hadvance
  have hmoves := Handshake.advance_moves hadvance
  have hphase := phaseJustified_advance hs.file (hs.conns conn g hg) hadvance
  have hsub : s.origins ⊆ (origin s.gateway (.task (.conn conn a))).toList ++ s.origins :=
    List.subset_append_right ..
  refine hs.of_moves hsub rfl ?_ (fun c => ?_) (fun _ _ he => .inl he) (fun _ => .inl rfl)
    fun _ => .inl rfl
  · generalize horigins : (origin s.gateway (.task (.conn conn a))).toList ++ s.origins = origins'
      at hsub
    dsimp only
    cases KeyChanges.fileEffect_conn hadvance (u := { s.gateway.toState with toShared := shared' })
      rfl with
    | kept hfile =>
      change shared'.file = s.gateway.file at hfile
      rw [hfile]
      exact hs.file.mono hsub fun _ hnot => hnot.elim
    | @enrolled _ out existing host config hsaving hfile =>
      change shared'.file = written out config s.gateway.file at hfile
      rw [hfile]
      refine FlagsJustified.written (hs.file.mono hsub fun _ hnot => hnot.elim) out ?_
      rintro rfl
      have horigin : (host.id, g.peer.remoteIp) :: s.origins = origins' := by
        rw [← horigins]
        simp [origin, hsaving, hg]
      rw [← horigin]
      have hconfig := hs.conns conn g hg
      rw [hsaving] at hconfig
      refine flagsJustified_save hconfig ?_
      rintro rfl
      simp only [ClaimsTruly, hsaving] at hC
      exact hC g hg
  · by_cases hc : c = conn
    · subst hc
      refine .inr ⟨?_, fun g' hg' => ?_⟩
      · dsimp only
        rw [Function.update_self]
        exact hmoves.2.1
      · dsimp only
        rw [Function.update_self]
        cases hg.symm.trans hg'
        exact hphase.mono hsub
    · exact .inl (Function.update_of_ne hc ..)

/-! ## Approvals -/

theorem approvalJustified_proceed {greeting : ℕ → Option Greeting} {file file' : HostsFile}
    {a : Handshake.ApproveAction} {q q' : Approval} {evs : List Handshake.Event}
    (hfile : FlagsJustified origins (fun _ => False) (load file))
    (hq : ApprovalJustified greeting origins q)
    (h : Handshake.proceed request file a q = some (q', file', evs)) :
    ApprovalJustified greeting origins q' := by
  cases Handshake.proceeds_of_proceed h with
  | looked => exact hq
  | planned hplan =>
    refine ⟨hq, fun m hm hlocal => ?_⟩
    rcases flags_hostPlan hplan m hm with hold | ⟨-, rfl⟩
    · exact .inl ((hfile m hold hlocal).resolve_right id)
    · exact .inr ⟨rfl, hlocal⟩
  | saved => split_ifs <;> trivial
  | @nameLoaded _ _ config _ _ hplan =>
    have hconfig : FlagsJustified origins (fun _ => False) config :=
      hfile.kept (flags_saveDisplayName hplan)
    exact hconfig
  | _ => trivial

theorem invariant_approve (hs : Invariant s) {a : Handshake.ApproveAction}
    {gw : KeyChanges.State}
    (h : KeyChanges.step crypto gatewayId s.gateway (.task (.approve request a)) = some gw) :
    Invariant ⟨gw, (origin s.gateway (.task (.approve request a))).toList ++ s.origins⟩ := by
  obtain ⟨-, -, u, hu, rfl⟩ := KeyChanges.of_step_task h
  cases Handshake.steps_of_step hu
  rename_i q file evs hproceed
  have hq := approvalJustified_proceed hs.file (hs.approvals request) hproceed
  have hsub : s.origins ⊆ (origin s.gateway (.task (.approve request a))).toList ++ s.origins :=
    List.subset_append_right ..
  refine hs.of_moves hsub rfl ?_ (fun _ => .inl rfl) (fun _ _ he => .inl he) (fun r => ?_)
    fun _ => .inl rfl
  · generalize horigins : (origin s.gateway (.task (.approve request a))).toList ++ s.origins =
      origins' at hsub
    dsimp only
    cases KeyChanges.fileEffect_approve hproceed (u := { s.gateway.toState with file }) rfl with
    | kept hfile =>
      change file = s.gateway.file at hfile
      rw [hfile]
      exact hs.file.mono hsub fun _ hnot => hnot.elim
    | @approved _ out job existing host config hsaving hfile =>
      change file = written out config s.gateway.file at hfile
      rw [hfile]
      refine FlagsJustified.written (hs.file.mono hsub fun _ hnot => hnot.elim) out ?_
      rintro rfl
      have hconfig := hs.approvals request
      rw [hsaving] at hconfig
      obtain ⟨⟨g, hg, hip⟩, hflags⟩ := hconfig
      have horigin : (host.id, g.peer.remoteIp) :: s.origins = origins' := by
        rw [← horigins]
        simp [origin, hsaving, hg]
      rw [← horigin]
      refine hflags.mono (List.subset_cons_self ..) fun id ⟨hid, hloopback⟩ => .inl ?_
      refine ⟨_, List.mem_cons_self, hid.symm, ?_⟩
      rw [hip]
      exact fromLoopback_of_isLoopback hloopback
    | @named _ out job host config hsaving hfile =>
      change file = written out config s.gateway.file at hfile
      rw [hfile]
      refine FlagsJustified.written (hs.file.mono hsub fun _ hnot => hnot.elim) out fun _ => ?_
      have happroval := hs.approvals request
      rw [hsaving] at happroval
      have hconfig : FlagsJustified s.origins (fun _ => False) config := happroval
      exact hconfig.mono hsub fun _ hnot => hnot.elim
  · by_cases hr : r = request
    · subst hr
      dsimp only
      rw [Function.update_self]
      exact .inr (hq.mono hsub fun _ _ hg => hg)
    · exact .inl (Function.update_of_ne hr ..)

/-! ## Everything else -/

/-- The phases after one connection has moved on and the sender of another one may be gone. -/
theorem phase_moved (e : Option PendingEntry) {p : Handshake.Phase} (hp : p ≠ .absent)
    (hjustified : ∀ g, PhaseJustified origins g p) (c : ℕ) :
    Function.update (Handshake.hangUp e s.gateway.phase) conn p c = s.gateway.phase c ∨
      Function.update (Handshake.hangUp e s.gateway.phase) conn p c ≠ .absent ∧
        ∀ g, s.gateway.greeting c = some g → PhaseJustified origins g
          (Function.update (Handshake.hangUp e s.gateway.phase) conn p c) := by
  by_cases h : c = conn
  · subst h
    rw [Function.update_self]
    exact .inr ⟨hp, fun g _ => hjustified g⟩
  · rw [Function.update_of_ne h]
    rcases Handshake.hangUp_cases e s.gateway.phase c with heq | ⟨-, hdropped⟩
    · exact .inl heq
    · rw [hdropped]
      exact .inr ⟨nofun, fun _ _ => trivial⟩

theorem invariant_hello (hs : Invariant s) {hello : Hello} {remoteIp : String}
    {nonce : Protocol.Nonce} {H : KeyChanges.History} (habsent : s.gateway.phase conn = .absent) :
    Invariant ⟨{ s.gateway with
      toState := Handshake.greet conn hello remoteIp nonce s.gateway.toState
      toHistory := H }, s.origins⟩ := by
  rcases Handshake.greet_cases hello remoteIp nonce s.gateway.toState with
    hclosed | ⟨g, -, hchallenged⟩
  · rw [hclosed]
    exact hs.of_moves (List.Subset.refl _) rfl hs.file
      (phase_moved none nofun fun _ => trivial) (fun _ _ he => .inl he) (fun _ => .inl rfl)
      fun _ => .inl rfl
  · rw [hchallenged]
    have hnone := hs.absent conn habsent
    have hgreeting (c : ℕ) (g' : Greeting) (hg' : s.gateway.greeting c = some g') :
        Function.update s.gateway.greeting conn (some g) c = some g' := by
      have hne : c ≠ conn := by
        rintro rfl
        rw [hnone] at hg'
        cases hg'
      rwa [Function.update_of_ne hne]
    refine ⟨fun c hc => ?_, hs.file, fun key e he => ?_, fun c g' hg' => ?_, fun r => ?_, hs.edits⟩
    · dsimp only at hc ⊢
      by_cases heq : c = conn
      · subst heq
        rw [Function.update_self] at hc
        cases hc
      · rw [Function.update_of_ne heq] at hc ⊢
        exact hs.absent c hc
    · obtain ⟨g', hg', hip⟩ := hs.pending key e he
      exact ⟨g', hgreeting _ _ hg', hip⟩
    · dsimp only at hg' ⊢
      by_cases heq : c = conn
      · subst heq
        rw [Function.update_self]
        trivial
      · rw [Function.update_of_ne heq] at hg' ⊢
        exact hs.conns c g' hg'
    · exact (hs.approvals r).mono (List.Subset.refl _) hgreeting

theorem invariant_enterPending (hs : Invariant s) {hashes : Hashes} {H : KeyChanges.History}
    (hg : s.gateway.greeting conn = some g) :
    Invariant ⟨{ s.gateway with
      toState := Handshake.enterPending hashes conn g.peer s.gateway.toState
      toHistory := H }, s.origins⟩ := by
  unfold Handshake.enterPending
  split
  · rename_i pending hadd
    refine hs.of_moves (List.Subset.refl _) rfl hs.file
      (phase_moved _ nofun fun _ => trivial) (fun key e he => ?_) (fun _ => .inl rfl)
      fun _ => .inl rfl
    dsimp only at he
    rw [PendingRegistry.eq_insert_of_add hadd] at he
    rcases AList.lookup_insert_eq_some_iff.1 he with ⟨rfl, rfl⟩ | ⟨-, hold⟩
    · exact .inr ⟨g, hg, rfl⟩
    · exact .inl hold
  · exact hs.of_moves (List.Subset.refl _) rfl hs.file
      (phase_moved none nofun fun _ => trivial) (fun _ _ he => .inl he) (fun _ => .inl rfl)
      fun _ => .inl rfl

/-- A step that only moves connections on and takes entries out. -/
theorem Invariant.of_phases (hs : Invariant s) {pending : PendingRegistry}
    {phase : ℕ → Handshake.Phase} {approval : ℕ → Approval} {log : List Handshake.Event}
    {H : KeyChanges.History}
    (hphase : ∀ c, phase c = s.gateway.phase c ∨ phase c ≠ .absent ∧
      ∀ g, s.gateway.greeting c = some g → PhaseJustified s.origins g (phase c))
    (hpending : ∀ key e, pending.lookup key = some e → s.gateway.pending.lookup key = some e)
    (happroval : ∀ r, approval r = s.gateway.approval r ∨
      ApprovalJustified s.gateway.greeting s.origins (approval r)) :
    Invariant ⟨{ s.gateway with
      toState := { s.gateway.toState with pending, phase, approval, log }
      toHistory := H }, s.origins⟩ :=
  hs.of_moves (List.Subset.refl _) rfl hs.file hphase (fun key e he => .inl (hpending key e he))
    happroval fun _ => .inl rfl

theorem approval_moved {q : Approval}
    (hq : ApprovalJustified s.gateway.greeting s.origins q) (r : ℕ) :
    Function.update s.gateway.approval request q r = s.gateway.approval r ∨
      ApprovalJustified s.gateway.greeting s.origins
        (Function.update s.gateway.approval request q r) := by
  by_cases h : r = request
  · subst h
    rw [Function.update_self]
    exact .inr hq
  · exact .inl (Function.update_of_ne h ..)

theorem lookup_of_approve {fingerprintHex : String} {key : String} {e : PendingEntry}
    (pending : PendingRegistry)
    (h : (pending.approve fingerprintHex).2.lookup key = some e) : pending.lookup key = some e := by
  unfold PendingRegistry.approve at h
  split at h
  · exact h
  · exact (AList.lookup_erase_eq_some_iff.1 h).2

theorem invariant_hand (hs : Invariant s) {job : Job} {host : HostEntry}
    {H : KeyChanges.History} :
    Invariant ⟨{ s.gateway with
      toState := Handshake.hand request job host s.gateway.toState
      toHistory := H }, s.origins⟩ := by
  unfold Handshake.hand
  dsimp only
  have hpending (key : String) (e : PendingEntry)
      (h : (s.gateway.pending.approve job.fingerprintHex).2.lookup key = some e) :=
    lookup_of_approve s.gateway.pending h
  split
  · exact hs.of_phases (fun _ => .inl rfl) hpending (approval_moved trivial)
  · split_ifs
    · exact hs.of_phases (phase_moved none nofun fun _ => trivial) hpending (approval_moved trivial)
    · exact hs.of_phases (fun _ => .inl rfl) hpending (approval_moved trivial)

theorem invariant_task (hs : Invariant s) {a : Handshake.Action} {gw : KeyChanges.State}
    (hC : ClaimsTruly s (.task a))
    (h : KeyChanges.step crypto gatewayId s.gateway (.task a) = some gw) :
    Invariant ⟨gw, (origin s.gateway (.task a)).toList ++ s.origins⟩ := by
  obtain ⟨hothers, -, u, hu, rfl⟩ := KeyChanges.of_step_task h
  cases Handshake.steps_of_step hu with
  | conn => exact invariant_conn hs hC h
  | approve => exact invariant_approve hs h
  | others => cases h
  | hello habsent => exact invariant_hello hs habsent
  | enterPending _ hg => exact invariant_enterPending hs hg
  | pickUp | giveUp =>
    exact hs.of_phases (phase_moved none (by simp) fun _ => trivial) (fun _ _ he => he)
      fun _ => .inl rfl
  | leavePending =>
    exact hs.of_phases (phase_moved _ (by simp) fun _ => trivial)
      (fun _ _ he => (AList.lookup_erase_eq_some_iff.1 he).2) fun _ => .inl rfl
  | @approveFound _ _ _ e _ hfind =>
    obtain ⟨⟨key, hkey⟩, -⟩ := PendingRegistry.of_entryForFingerprint hfind
    exact hs.of_phases (fun _ => .inl rfl) (fun _ _ he => he)
      (approval_moved (hs.pending key e hkey))
  | approveNotFound =>
    exact hs.of_phases (fun _ => .inl rfl) (fun _ _ he => he) (approval_moved trivial)
  | approveHand => exact invariant_hand hs
  | sign => exact hs.of_phases (fun _ => .inl rfl) (fun _ _ he => he) fun _ => .inl rfl

theorem invariant_step {a : KeyChanges.Action} (hs : Invariant s) (hC : ClaimsTruly s a)
    (h : step crypto gatewayId s a = some t) : Invariant t := by
  obtain ⟨gw, hgw, rfl⟩ := Option.map_eq_some_iff.1 h
  have hedits {edit : ℕ} {q : Edit} (hq : EditJustified s.origins q) (e : ℕ) :
      Function.update s.gateway.edits edit q e = s.gateway.edits e ∨
        EditJustified s.origins (Function.update s.gateway.edits edit q e) := by
    by_cases heq : e = edit
    · subst heq
      rw [Function.update_self]
      exact .inr hq
    · exact .inl (Function.update_of_ne heq ..)
  cases a with
  | task a => exact invariant_task hs hC hgw
  | editLoad edit op =>
    simp only [KeyChanges.step] at hgw
    split at hgw
    · split_ifs at hgw with hop
      split at hgw
      · rename_i config saved failed hplan
        cases hgw
        have hconfig : FlagsJustified s.origins (fun _ => False) config :=
          hs.file.kept (flags_edit hop hplan)
        exact hs.of_moves (List.Subset.refl _) rfl hs.file (fun _ => .inl rfl)
          (fun _ _ he => .inl he) (fun _ => .inl rfl) (hedits hconfig)
      · cases hgw
        exact hs.of_moves (List.Subset.refl _) rfl hs.file (fun _ => .inl rfl)
          (fun _ _ he => .inl he) (fun _ => .inl rfl) (hedits trivial)
    · cases hgw
  | editSave edit out =>
    simp only [KeyChanges.step] at hgw
    split at hgw
    · rename_i config hedit
      cases hgw
      have hjustified := hs.edits edit
      rw [hedit] at hjustified
      exact hs.of_moves (List.Subset.refl _) rfl (hs.file.written out fun _ => hjustified)
        (fun _ => .inl rfl) (fun _ _ he => .inl he) (fun _ => .inl rfl) (hedits trivial)
    · cases hgw
  | tokenCreate | tokenRevoke | tokenCleanup =>
    cases hgw
    exact hs.of_moves (List.Subset.refl _) rfl hs.file (fun _ => .inl rfl) (fun _ _ he => .inl he)
      (fun _ => .inl rfl) fun _ => .inl rfl

theorem invariant_init {file : HostsFile} (h : LocalJustified (.init file origins)) :
    Invariant (.init file origins) where
  absent _ _ := rfl
  file := (localJustified_iff _).1 h
  pending _ _ he := by cases he
  conns _ _ hg := by cases hg
  approvals _ := trivial
  edits _ := trivial

end

/-- Hosts are local only after an enrolment or an approval from this machine in every run in which
no agent from elsewhere is enrolled that claims to be local; and the agent makes the claim for a
gateway on another machine only when `localhost` or a loopback address stands in its URL. -/
theorem local_of_meets (crypto : Crypto) (gatewayId : String) (file : HostsFile)
    (origins : List (String × String)) (hfile : LocalJustified (.init file origins)) :
    (∀ as, Meets (step crypto gatewayId) ClaimsTruly (.init file origins) as →
      Always (step crypto gatewayId) LocalJustified (.init file origins) as) ∧
    ∀ url : Agent.GatewayUrl, (Agent.isLocal url.text → url.host.isLoopback) ↔
      url.host.isLoopback ∨ ∀ marker ∈ Agent.GatewayUrl.markers, ¬ url.Mentions marker := by
  refine ⟨fun as hC => ?_, Agent.GatewayUrl.isLocal_loopback_iff⟩
  exact always_of_meets (fun _ _ _ hs hC h => invariant_step hs hC h)
    (fun s hs => (localJustified_iff s).2 hs.file) (invariant_init hfile) hC

/-- An administrator creates a token, and the agent on "web" enrols with it from elsewhere. -/
def webEnrols (isLocal : Bool) : List KeyChanges.Action :=
  [.tokenCreate 0 3600 "t1" "secret" true none none false,
    .task (.hello 0 ⟨2, "web", isLocal, some webKeyB64, some "secret", none⟩ "203.0.113.7"
      webNonce),
    .task (.conn 0 (.respond webSignatureB64)), .task (.conn 0 .lookKey),
    .task (.conn 0 .lookHost), .task (.conn 0 (.takeToken 10)),
    .task (.conn 0 (.load ⟨"h1", "t0"⟩)), .task (.conn 0 (.save .done))]

theorem local_webEnrols :
    ∃ t, run (step webCrypto "gw") (.init .absent []) (webEnrols false) = some t ∧
      Always (step webCrypto "gw") LocalJustified (.init .absent []) (webEnrols false) :=
  ⟨_, rfl, (local_of_meets webCrypto "gw" .absent [] (fun _ h => by cases h)).1 (webEnrols false)
    (by decide)⟩

/-- A gateway elsewhere, whose name begins like that of this machine. -/
def farUrl : Agent.GatewayUrl where
  scheme := "https".toList
  userinfo := none
  host := .name "localhost.example.com".toList (by simp [Agent.urlDelims])
  port := none
  rest := []
  schemeIs := by simp [Agent.urlDelims]
  userinfoIs := by simp
  portIs := by simp
  restIs := by simp

/-- The agent calls itself local under that URL, and the gateway believes it. -/
theorem far_agent_is_local :
    (∃ t, run (step webCrypto "gw") (.init .absent []) (webEnrols true) = some t ∧
      ¬ LocalJustified t) ∧
    Agent.isLocal farUrl.text = true ∧ farUrl.host.isLoopback = false := by
  refine ⟨⟨_, rfl, fun h => ?_⟩, ?_, by decide⟩
  · obtain ⟨o, ho, -, hloopback⟩ := h _ List.mem_cons_self rfl
    have horigin : o = ("h1", "203.0.113.7") := List.mem_singleton.1 ho
    subst horigin
    revert hloopback
    decide
  · have hname : farUrl.Mentions "localhost".toList :=
      .inr (.inr (.inl ⟨[], ".example.com".toList, by decide⟩))
    have hcontains := (Agent.GatewayUrl.contains_text_iff (by decide)).2 hname
    rw [String.ofList_toList] at hcontains
    unfold Agent.isLocal
    rw [hcontains, Bool.or_true, Bool.true_or]

end Tenodera.Gateway.LocalHosts
