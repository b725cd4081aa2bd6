import Tenodera.Gateway.Handshake
import Tenodera.Gateway.Identities
import Tenodera.Gateway.TokenUse
import Tenodera.Lib.Run

/-!
# Who can change the key of an enrolled host

The connections and approvals of `Handshake`, next to the administrators who create and revoke
tokens and to the edits of the hosts file.  As long as no save overwrites a change that its task has
not seen, the key of an enrolled host changes in two ways only (`authorized_of_run`): a connection
replaces it after it has used a re-enrolment token that is valid for the hostname of the host, or a
connection of that hostname is approved.
-/

namespace Tenodera.Gateway.KeyChanges

open Cell Transition
open Handshake (Greeting Job Approval hostPlan written)
open Enrollment (usableToken validateAndConsume_of_none validateAndConsume_of_some)

/-! ## The system -/

/-- What loads and saves the hosts file: a connection, an approval or an edit. -/
inductive Task
  | conn (conn : ℕ)
  | request (request : ℕ)
  | edit (edit : ℕ)
  deriving DecidableEq, Repr

/-- How far an edit of the hosts file has come. -/
inductive Edit
  | idle
  | saving (config : HostsConfig)
  | done
  deriving DecidableEq, Repr

/-- The operations on the hosts file that neither `Handshake` connections nor approvals make. -/
def isEdit : HostsOp → Bool
  | .registerHost .. | .replacePubkey .. | .saveDisplayName .. => false
  | .updateOsId .. | .updateLastSeen .. | .hostsRemove .. | .hostsPatch .. => true

/-- A token that was valid for the hostname of a connection when it was taken. -/
structure Use where
  conn : ℕ
  token : BootstrapToken
  now : ℕ
  deriving DecidableEq, Repr

/-- What has happened.  None of it is part of the gateway. -/
structure History where
  /-- The ids of the hosts so far, with the hostnames that they were drawn for. -/
  roll : List (String × String)
  /-- The configuration that a task has loaded last. -/
  snapshot : Task → HostsConfig
  /-- The tokens as administrators have created them. -/
  created : List BootstrapToken
  uses : List Use

structure State extends Handshake.State, History where
  edits : ℕ → Edit

/-- The gateway after its start. -/
def State.init (file : HostsFile) : State where
  toState := .init file
  roll := (load file).hosts.map fun h => (h.id, h.hostname)
  snapshot _ := ⟨[]⟩
  created := []
  uses := []
  edits _ := .idle

inductive Action
  /-- A connection or an approval goes to its next await. -/
  | task (action : Handshake.Action)
  | editLoad (edit : ℕ) (op : HostsOp)
  | editSave (edit : ℕ) (out : WriteOutcome)
  | tokenCreate (now ttl : ℕ) (id value : String) (singleUse : Bool) (maxUses : Option UInt32)
      (boundHostname : Option String) (reEnroll : Bool)
  | tokenRevoke (id : String)
  | tokenCleanup (now : ℕ)
  deriving DecidableEq

/-- The id that an enrolment draws, and the hostname it is for. -/
def enrols (s : Handshake.State) : Handshake.Action → List (String × String)
  | .conn conn (.load draw) =>
    (s.greeting conn).toList.map fun g => (draw.uuid, g.peer.hostname)
  | .approve request (.load draw) =>
    match s.approval request with
    | .checked job _ => [(draw.uuid, job.entry.hostname)]
    | _ => []
  | _ => []

/-- The task that loads the hosts file in order to save it. -/
def loads : Handshake.Action → Option Task
  | .conn conn (.load _) => some (.conn conn)
  | .approve request (.load _) | .approve request .nameLoad => some (.request request)
  | _ => none

/-- The use that a connection makes of its token. -/
def usesOf (hashes : Hashes) (s : Handshake.State) : Handshake.Action → List Use
  | .conn conn (.takeToken now) =>
    match s.greeting conn with
    | some g =>
      (g.bootstrapToken.bind fun tokenVal =>
        usableToken hashes now tokenVal g.peer.hostname s.tokens).toList.map (⟨conn, ·, now⟩)
    | none => []
  | _ => []

/-- The history after an action of a connection or of an approval. -/
def note (hashes : Hashes) (s : Handshake.State) (a : Handshake.Action) (H : History) :
    History where
  roll := enrols s a ++ H.roll
  snapshot task := if loads a = some task then load s.file else H.snapshot task
  created := H.created
  uses := usesOf hashes s a ++ H.uses

/-- One task goes to its next await; `none` when it is not at that point.  A drawn id is one that no
host has had. -/
def step (crypto : Crypto) (gatewayId : String) (s : State) : Action → Option State
  | .task (.others _ _) => none
  | .task a =>
    if ∀ e ∈ enrols s.toState a, e.1 ∉ s.roll.map (·.1) then
      (Handshake.step crypto gatewayId s.toState a).map fun t =>
        { s with toState := t, toHistory := note crypto.hashes s.toState a s.toHistory }
    else none
  | .editLoad edit op =>
    match s.edits edit with
    | .idle =>
      if isEdit op then
        let config := load s.file
        match op.plan config with
        | .write value _ _ =>
          some
            { s with
              edits := Function.update s.edits edit (.saving value)
              snapshot := Function.update s.snapshot (.edit edit) config }
        | .answer _ => some { s with edits := Function.update s.edits edit .done }
      else none
    | _ => none
  | .editSave edit out =>
    match s.edits edit with
    | .saving config =>
      some
        { s with
          file := written out config s.file
          edits := Function.update s.edits edit .done }
    | _ => none
  | .tokenCreate now ttl id value singleUse maxUses boundHostname reEnroll =>
    let tokens :=
      s.tokens.create crypto.hashes now ttl id value singleUse maxUses boundHostname reEnroll
    some { s with tokens, created := (tokens.lookup id).toList ++ s.created }
  | .tokenRevoke id => some { s with tokens := s.tokens.revoke id }
  | .tokenCleanup now => some { s with tokens := s.tokens.cleanup now }

/-- A save that goes through finds the configuration that its task has loaded. -/
def Fresh (s : State) : Action → Prop
  | .task (.conn conn (.save .done)) => load s.file = s.snapshot (.conn conn)
  | .task (.approve request (.save .done)) | .task (.approve request (.nameSave .done)) =>
    load s.file = s.snapshot (.request request)
  | .editSave edit .done => load s.file = s.snapshot (.edit edit)
  | _ => True

instance (s : State) (a : Action) : Decidable (Fresh s a) := by
  unfold Fresh
  split
  all_goals infer_instance

/-! ## The statement -/

/-- The token is one that an administrator has created, apart from its use count. -/
def Created (created : List BootstrapToken) (token : BootstrapToken) : Prop :=
  ∃ c ∈ created, token = { c with useCount := token.useCount }

/-- The connection has presented the value of a re-enrolment token, which was in the registry and
valid for that hostname when it was taken. -/
structure Presented (hashes : Hashes) (H : History) (conn : ℕ) (g : Greeting) (use : Use) :
    Prop where
  used : use ∈ H.uses
  conn : use.conn = conn
  value : ∃ tokenVal ∈ g.bootstrapToken, use.token.valueDigest = hashes.tokenDigest tokenVal
  reEnroll : use.token.reEnroll
  valid : use.token.isValidFor g.peer.hostname use.now
  created : Created H.created use.token

/-- The connection of a pending entry is that of an agent with its hostname and its key. -/
def Waits (greeting : ℕ → Option Greeting) (e : PendingEntry) : Prop :=
  ∃ g, greeting e.approveTx = some g ∧ g.peer.hostname = e.hostname ∧
    g.peer.publicKey = e.pubkeyB64

/-- What may give a host a new key: a connection with the hostname of the host and that key, which
has presented a re-enrolment token with one of these bindings, or the approval of a pending
connection with the hostname of the host and that key. -/
inductive Authorized (hashes : Hashes) (s : State) (host : HostEntry) (key : Option String)
    (bindings : List (Option String)) : Action → Prop
  | reEnrolled {conn : ℕ} (g : Greeting) (use : Use) (greeting : s.greeting conn = some g)
      (hostname : g.peer.hostname = host.hostname) (pubkey : key = some g.peer.publicKey)
      (presented : Presented hashes s.toHistory conn g use)
      (binding : use.token.boundHostname ∈ bindings) :
      Authorized hashes s host key bindings (.task (.conn conn (.save .done)))
  | approved {request : ℕ} (job : Job) (existing new : HostEntry) (config : HostsConfig)
      (approval : s.approval request = .saving job (some existing) new config)
      (hostname : job.entry.hostname = host.hostname) (pubkey : key = some job.entry.pubkeyB64)
      (waits : Waits s.greeting job.entry) :
      Authorized hashes s host key bindings (.task (.approve request (.save .done)))

/-! ## What a save does to the identities -/

/-- Every key stays as it is, but for that of the target. -/
def Preserves (target : Option (String × String)) (before after : List Identity) : Prop :=
  ∀ id key key', keyOf before id = some key → keyOf after id = some key' →
    key' = key ∨ ∃ k, target = some (id, k) ∧ key' = some k

/-- Every identity is on the roll. -/
def Enrolled (roll : List (String × String)) (l : List Identity) : Prop :=
  ∀ e ∈ l, (e.id, e.hostname) ∈ roll

/-- What a task is going to save changes, of what it has loaded, the key of the target only, and
has no host that is not on the roll. -/
structure Writes (H : History) (task : Task) (target : Option (String × String))
    (config : HostsConfig) : Prop where
  preserves : Preserves target (identities (.json (H.snapshot task))) (identities (.json config))
  enrolled : Enrolled H.roll (identities (.json config))

section

variable {target : Option (String × String)} {l l' : List Identity}
  {roll : List (String × String)} {id key hostname : String}

theorem preserves_refl (target : Option (String × String)) (l : List Identity) :
    Preserves target l l := by
  intro id key key' h h'
  exact .inl (Option.some.inj (h'.symm.trans h))

theorem preserves_append (target : Option (String × String)) (l l' : List Identity) :
    Preserves target l (l ++ l') := by
  intro id key key' h h'
  rw [keyOf_append_of_some h] at h'
  exact .inl (Option.some.inj h').symm

theorem preserves_rekey (id key : String) (l : List Identity) :
    Preserves (some (id, key)) l (rekey id key l) := by
  intro id' k k' h h'
  rw [keyOf_rekey] at h'
  split_ifs at h' with heq
  · subst heq
    rw [h] at h'
    exact .inr ⟨key, rfl, (Option.some.inj h').symm⟩
  · exact .inl (Option.some.inj (h'.symm.trans h))

theorem preserves_filter (target : Option (String × String)) (removed : String)
    (l : List Identity) : Preserves target l (l.filter fun e => e.id ≠ removed) := by
  intro id k k' h h'
  rw [keyOf_filter] at h'
  split_ifs at h'
  exact .inl (Option.some.inj (h'.symm.trans h))

theorem Enrolled.mono (h : Enrolled roll l) {roll' : List (String × String)} (hsub : roll ⊆ roll') :
    Enrolled roll' l := fun e he => hsub (h e he)

theorem enrolled_append (h : Enrolled roll l) {publicKey : Option String}
    (hnew : (id, hostname) ∈ roll) : Enrolled roll (l ++ [⟨id, hostname, publicKey⟩]) := by
  intro e he
  rcases List.mem_append.1 he with hold | hmem
  · exact h e hold
  · rw [List.mem_singleton.1 hmem]
    exact hnew

theorem enrolled_rekey (h : Enrolled roll l) : Enrolled roll (rekey id key l) := by
  intro e he
  have hkept : (rekey id key l).map (fun e => (e.id, e.hostname)) =
      l.map fun e => (e.id, e.hostname) :=
    map_rekey (fun e => (e.id, e.hostname)) (fun _ => rfl) l
  have hmem : (e.id, e.hostname) ∈ l.map fun e => (e.id, e.hostname) := by
    rw [← hkept]
    exact List.mem_map_of_mem he
  obtain ⟨e', he', heq⟩ := List.mem_map.1 hmem
  rw [← heq]
  exact h e' he'

theorem enrolled_filter (h : Enrolled roll l) (removed : String) :
    Enrolled roll (l.filter fun e => e.id ≠ removed) :=
  fun e he => h e (List.mem_filter.1 he).1

end

/-- What a plan is going to save is what it leaves when it is carried out at once. -/
theorem identities_of_write {ρ : Type} {plan : HostsConfig → Plan HostsConfig ρ}
    {loaded config : HostsConfig} {saved failed : ρ}
    (h : plan loaded = .write config saved failed) :
    identities (.json config) = identities (commit plan (.ofSaved true) (.json loaded)).2 := by
  have hplan : plan (load (.json loaded)) = .write config saved failed := h
  rw [WriteOutcome.ofSaved_true, commit_done hplan]

/-- The translation of the replies does not show in the file. -/
theorem commit_map_snd {ρ π : Type} (plan : HostsConfig → Plan HostsConfig ρ) (g : ρ → π)
    (out : WriteOutcome) (file : HostsFile) :
    (commit (fun config => (plan config).map (fun c => c) g) out file).2 =
      (commit plan out file).2 := by
  simp only [commit]
  rcases plan (load file) with reply | ⟨config, saved, failed⟩
  · rfl
  · cases out <;> rfl

section

variable {H : History} {task : Task} {config : HostsConfig}

/-- `register_host` adds an identity, `replace_pubkey` replaces the key of one. -/
theorem writes_hostPlan {draw : Draw} {existing : Option HostEntry} {hostname pubkeyB64 : String}
    {isLocal : Bool} {displayName osId : Option String} {host : HostEntry}
    {failed : Except HostsError HostEntry}
    (h : hostPlan draw existing hostname pubkeyB64 isLocal displayName osId (H.snapshot task) =
      .write config (.ok host) failed)
    (hloaded : Enrolled H.roll (identities (.json (H.snapshot task))))
    (hdrawn : (draw.uuid, hostname) ∈ H.roll) :
    Writes H task (existing.map fun e => (e.id, pubkeyB64)) config := by
  rcases existing with _ | e
  · have hids : identities (.json config) =
        identities (.json (H.snapshot task)) ++ [⟨draw.uuid, hostname, some pubkeyB64⟩] := by
      rw [identities_of_write h]
      exact identities_registerHost true ..
    refine ⟨?_, ?_⟩
    · rw [hids]
      exact preserves_append _ _ _
    · rw [hids]
      exact enrolled_append hloaded hdrawn
  · have hids : identities (.json config) =
        rekey e.id pubkeyB64 (identities (.json (H.snapshot task))) := by
      rw [identities_of_write h]
      exact identities_replacePubkey true ..
    refine ⟨?_, ?_⟩
    · rw [hids]
      exact preserves_rekey _ _ _
    · rw [hids]
      exact enrolled_rekey hloaded

theorem writes_saveDisplayName {hostId : String} {displayName : Option String}
    {saved failed : Except HostsError Unit}
    (h : saveDisplayName hostId displayName (H.snapshot task) = .write config saved failed)
    (hloaded : Enrolled H.roll (identities (.json (H.snapshot task)))) :
    Writes H task none config := by
  have hids : identities (.json config) = identities (.json (H.snapshot task)) := by
    rw [identities_of_write h]
    exact identities_saveDisplayName ..
  refine ⟨?_, ?_⟩
  · rw [hids]
    exact preserves_refl _ _
  · rw [hids]
    exact hloaded

/-- An edit replaces no key. -/
theorem writes_edit {op : HostsOp} (hop : isEdit op) {saved failed : Reply}
    (h : op.plan (H.snapshot task) = .write config saved failed)
    (hloaded : Enrolled H.roll (identities (.json (H.snapshot task)))) :
    Writes H task none config := by
  have hids : identities (.json config) = identities (.json (H.snapshot task)) ∨
      ∃ removed, identities (.json config) =
        (identities (.json (H.snapshot task))).filter fun e => e.id ≠ removed := by
    cases op with
    | registerHost | replacePubkey | saveDisplayName => cases hop
    | updateOsId hostId osId =>
      rw [identities_of_write h]
      exact .inl ((congrArg identities (commit_map_snd ..)).trans (identities_updateOsId true ..))
    | updateLastSeen hostId now =>
      rw [identities_of_write h]
      exact .inl
        ((congrArg identities (commit_map_snd ..)).trans (identities_updateLastSeen true ..))
    | hostsRemove id =>
      rw [identities_of_write h]
      exact .inr
        ⟨id, (congrArg identities (commit_map_snd ..)).trans (identities_hostsRemove true ..)⟩
    | hostsPatch id displayName =>
      rw [identities_of_write h]
      exact .inl ((congrArg identities (commit_map_snd ..)).trans (identities_hostsPatch true ..))
  rcases hids with hids | ⟨removed, hids⟩
  · refine ⟨?_, ?_⟩
    · rw [hids]
      exact preserves_refl _ _
    · rw [hids]
      exact hloaded
  · refine ⟨?_, ?_⟩
    · rw [hids]
      exact preserves_filter _ _ _
    · rw [hids]
      exact enrolled_filter hloaded removed

end

/-! ## The invariant -/

/-- The connection may replace the key of the host. -/
def Entitled (hashes : Hashes) (H : History) (conn : ℕ) (g : Greeting) (host : HostEntry) : Prop :=
  (host.id, g.peer.hostname) ∈ H.roll ∧ ∃ use, Presented hashes H conn g use

/-- What a connection has to have done to have come that far. -/
def PhaseWarranted (hashes : Hashes) (H : History) (conn : ℕ) (g : Greeting) :
    Handshake.Phase → Prop
  | .hostLooked existing => ∀ e ∈ existing, (e.id, g.peer.hostname) ∈ H.roll
  | .enrolling existing _ => ∀ e ∈ existing, Entitled hashes H conn g e
  | .saving existing _ config =>
    (∀ e ∈ existing, Entitled hashes H conn g e) ∧
      Writes H (.conn conn) (existing.map fun e => (e.id, g.peer.publicKey)) config
  | _ => True

/-- The entry is that of a waiting connection, for the host if there is one. -/
def JobFor (greeting : ℕ → Option Greeting) (H : History) (job : Job)
    (existing : Option HostEntry) : Prop :=
  Waits greeting job.entry ∧ ∀ e ∈ existing, (e.id, job.entry.hostname) ∈ H.roll

/-- What an approval has to have found to have come that far. -/
def ApprovalWarranted (greeting : ℕ → Option Greeting) (H : History) (request : ℕ) :
    Approval → Prop
  | .found job => Waits greeting job.entry
  | .checked job existing => JobFor greeting H job existing
  | .saving job existing _ config =>
    JobFor greeting H job existing ∧
      Writes H (.request request) (existing.map fun e => (e.id, job.entry.pubkeyB64)) config
  | .nameSaving _ _ config => Writes H (.request request) none config
  | _ => True

/-- What an edit is going to save changes no key. -/
def EditWarranted (H : History) (edit : ℕ) : Edit → Prop
  | .saving config => Writes H (.edit edit) none config
  | _ => True

/-- Ids have one hostname for good, tokens come from administrators, and no task has come further
than it is warranted. -/
structure Invariant (crypto : Crypto) (s : State) : Prop where
  keyed : Handshake.Keyed crypto s.toState
  roll : (s.roll.map (·.1)).Nodup
  file : Enrolled s.roll (identities s.file)
  tokens : ∀ id token, s.tokens.lookup id = some token → Created s.created token
  pending : ∀ key e, s.pending.lookup key = some e → Waits s.greeting e
  conns : ∀ conn g, s.greeting conn = some g →
    PhaseWarranted crypto.hashes s.toHistory conn g (s.phase conn)
  approvals : ∀ r, ApprovalWarranted s.greeting s.toHistory r (s.approval r)
  edits : ∀ edit, EditWarranted s.toHistory edit (s.edits edit)

/-- Nothing is forgotten, and only the given task has loaded something else. -/
structure Grows (H H' : History) (task : Option Task) : Prop where
  roll : H.roll ⊆ H'.roll
  created : H.created ⊆ H'.created
  uses : H.uses ⊆ H'.uses
  snapshot : ∀ task', task ≠ some task' → H'.snapshot task' = H.snapshot task'

section

variable {hashes : Hashes} {H H' : History} {task : Option Task} {conn : ℕ} {g : Greeting}

theorem grows_refl (H : History) : Grows H H task :=
  ⟨List.Subset.refl _, List.Subset.refl _, List.Subset.refl _, fun _ _ => rfl⟩

theorem Created.mono {created created' : List BootstrapToken} {token : BootstrapToken}
    (h : Created created token) (hsub : created ⊆ created') : Created created' token := by
  obtain ⟨c, hc, heq⟩ := h
  exact ⟨c, hsub hc, heq⟩

theorem Presented.mono {use : Use} (h : Presented hashes H conn g use) (hgrows : Grows H H' task) :
    Presented hashes H' conn g use :=
  { h with used := hgrows.uses h.used, created := h.created.mono hgrows.created }

theorem Entitled.mono {host : HostEntry} (h : Entitled hashes H conn g host)
    (hgrows : Grows H H' task) : Entitled hashes H' conn g host := by
  obtain ⟨hroll, use, hpresented⟩ := h
  exact ⟨hgrows.roll hroll, use, hpresented.mono hgrows⟩

theorem Writes.mono {task' : Task} {target : Option (String × String)} {config : HostsConfig}
    (h : Writes H task' target config) (hgrows : Grows H H' task) (hne : task ≠ some task') :
    Writes H' task' target config := by
  refine ⟨?_, h.enrolled.mono hgrows.roll⟩
  rw [hgrows.snapshot task' hne]
  exact h.preserves

theorem PhaseWarranted.mono {p : Handshake.Phase} (h : PhaseWarranted hashes H conn g p)
    (hgrows : Grows H H' task) (hne : task ≠ some (.conn conn)) :
    PhaseWarranted hashes H' conn g p := by
  cases p with
  | hostLooked existing => exact fun e he => hgrows.roll (h e he)
  | enrolling existing isLocal => exact fun e he => (h e he).mono hgrows
  | saving existing host config => exact ⟨fun e he => (h.1 e he).mono hgrows, h.2.mono hgrows hne⟩
  | _ => trivial

theorem JobFor.mono {greeting : ℕ → Option Greeting} {job : Job} {existing : Option HostEntry}
    (h : JobFor greeting H job existing) (hgrows : Grows H H' task) :
    JobFor greeting H' job existing :=
  ⟨h.1, fun e he => hgrows.roll (h.2 e he)⟩

theorem ApprovalWarranted.mono {greeting : ℕ → Option Greeting} {r : ℕ} {q : Approval}
    (h : ApprovalWarranted greeting H r q) (hgrows : Grows H H' task)
    (hne : task ≠ some (.request r)) : ApprovalWarranted greeting H' r q := by
  cases q with
  | found job => exact h
  | checked job existing => exact JobFor.mono h hgrows
  | saving job existing host config => exact ⟨JobFor.mono h.1 hgrows, h.2.mono hgrows hne⟩
  | nameSaving job host config => exact Writes.mono h hgrows hne
  | _ => trivial

theorem EditWarranted.mono {edit : ℕ} {q : Edit} (h : EditWarranted H edit q)
    (hgrows : Grows H H' task) (hne : task ≠ some (.edit edit)) : EditWarranted H' edit q := by
  cases q with
  | saving config => exact Writes.mono h hgrows hne
  | _ => trivial

end

/-! ## Tokens -/

section

variable {hashes : Hashes} {now : ℕ} {tokenVal hostname : String} {tokens : BootstrapRegistry}
  {created : List BootstrapToken} {token : BootstrapToken}

theorem of_usableToken (h : usableToken hashes now tokenVal hostname tokens = some token) :
    (∃ id, tokens.lookup id = some token) ∧ token.valueDigest = hashes.tokenDigest tokenVal ∧
      token.isValidFor hostname now := by
  obtain ⟨hfound, hvalid⟩ := Option.filter_eq_some_iff.1 h
  obtain ⟨⟨id, token'⟩, hfind, rfl⟩ := Option.map_eq_some_iff.1 hfound
  refine ⟨⟨id, AList.mem_lookup_iff.2 (List.mem_of_find?_eq_some hfind)⟩, ?_, hvalid⟩
  simpa using List.find?_some hfind

/-- Counting a use makes no new token. -/
theorem created_validateAndConsume
    (h : ∀ id token, tokens.lookup id = some token → Created created token) (id : String)
    (htoken : (tokens.validateAndConsume hashes now tokenVal hostname).2.lookup id = some token) :
    Created created token := by
  unfold BootstrapRegistry.validateAndConsume at htoken
  dsimp only at htoken
  split at htoken
  · exact h id token htoken
  · rename_i key found hfind
    have hfound : Created created found :=
      h key found (AList.mem_lookup_iff.2 (List.mem_of_find?_eq_some hfind))
    have hinsert (id : String) (token : BootstrapToken)
        (hlookup : (tokens.insert key { found with useCount := found.useCount + 1 }).lookup id =
          some token) : Created created token := by
      rcases AList.lookup_insert_eq_some_iff.1 hlookup with ⟨-, rfl⟩ | ⟨-, hold⟩
      · obtain ⟨c, hc, heq⟩ := hfound
        refine ⟨c, hc, ?_⟩
        rw [heq]
      · exact h id token hold
    split_ifs at htoken
    · exact hinsert id token (AList.lookup_erase_eq_some_iff.1 htoken).2
    · exact hinsert id token htoken
    · exact h id token htoken

variable {g : Greeting} {existing : Option HostEntry} {H : History} {conn : ℕ}

theorem created_takeToken
    (h : ∀ id token, tokens.lookup id = some token → Created created token) (id : String)
    (htoken : (Handshake.takeToken hashes now g existing tokens).2.lookup id = some token) :
    Created created token := by
  have hconsumed (tokenVal : String) (result : Option Bool × BootstrapRegistry)
      (heq : tokens.validateAndConsume hashes now tokenVal g.peer.hostname = result)
      (hlookup : result.2.lookup id = some token) : Created created token := by
    rw [← heq] at hlookup
    exact created_validateAndConsume h id hlookup
  unfold Handshake.takeToken at htoken
  split at htoken
  · exact h id token htoken
  · split at htoken
    all_goals
      rename_i heq
      exact hconsumed _ _ heq htoken
  · split at htoken
    all_goals
      rename_i heq
      exact hconsumed _ _ heq htoken
  · split_ifs at htoken
    all_goals exact h id token htoken

/-- A connection goes on to replace a key only with a re-enrolment token. -/
theorem warranted_takeToken (hroll : ∀ e ∈ existing, (e.id, g.peer.hostname) ∈ H.roll)
    (hpresented : ∀ tokenVal ∈ g.bootstrapToken,
      ∀ token ∈ usableToken hashes now tokenVal g.peer.hostname tokens, token.reEnroll →
        Presented hashes H conn g ⟨conn, token, now⟩) :
    PhaseWarranted hashes H conn g (Handshake.takeToken hashes now g existing tokens).1 := by
  unfold Handshake.takeToken
  split
  · trivial
  · rename_i host tokenVal hval
    rcases husable : usableToken hashes now tokenVal g.peer.hostname tokens with _ | token
    · rw [validateAndConsume_of_none husable]
      trivial
    · obtain ⟨after, heq, -⟩ := validateAndConsume_of_some husable
      rw [heq]
      cases hre : token.reEnroll with
      | false => trivial
      | true =>
        intro e he
        exact ⟨hroll e he, _, hpresented tokenVal hval token husable hre⟩
  · split
    · exact nofun
    · trivial
  · split_ifs
    · exact nofun
    · trivial

end

/-! ## The hosts file -/

theorem enrolled_written {roll : List (String × String)} {file : HostsFile} {config : HostsConfig}
    (hfile : Enrolled roll (identities file)) (hconfig : Enrolled roll (identities (.json config)))
    (out : WriteOutcome) : Enrolled roll (identities (written out config file)) := by
  cases out with
  | done => exact hconfig
  | refused => exact hfile
  | interrupted => exact fun e he => absurd he List.not_mem_nil

/-- What a step does to the hosts file: nothing, or a task saves what it is about to save. -/
inductive FileEffect (s u : Handshake.State) : Handshake.Action → Prop
  | kept {a : Handshake.Action} (file : u.file = s.file) : FileEffect s u a
  | enrolled {conn : ℕ} {out : WriteOutcome} (existing : Option HostEntry) (host : HostEntry)
      (config : HostsConfig) (phase : s.phase conn = .saving existing host config)
      (file : u.file = written out config s.file) : FileEffect s u (.conn conn (.save out))
  | approved {request : ℕ} {out : WriteOutcome} (job : Job) (existing : Option HostEntry)
      (host : HostEntry) (config : HostsConfig)
      (approval : s.approval request = .saving job existing host config)
      (file : u.file = written out config s.file) : FileEffect s u (.approve request (.save out))
  | named {request : ℕ} {out : WriteOutcome} (job : Job) (host : HostEntry) (config : HostsConfig)
      (approval : s.approval request = .nameSaving job host config)
      (file : u.file = written out config s.file) :
      FileEffect s u (.approve request (.nameSave out))

section

variable {crypto : Crypto} {gatewayId : String} {s u : Handshake.State}

theorem fileEffect_conn {conn : ℕ} {g : Greeting} {a : Handshake.ConnAction} {p' : Handshake.Phase}
    {shared' : Handshake.Shared} {evs : List Handshake.Event}
    (h : Handshake.advance crypto gatewayId conn g s.toShared a (s.phase conn) =
      some (p', shared', evs)) (hfile : u.file = shared'.file) : FileEffect s u (.conn conn a) := by
  generalize hphase : s.phase conn = p at h
  cases Handshake.advances_of_advance h with
  | enrolled | replaced | notSaved => exact .enrolled _ _ _ hphase hfile
  | _ => exact .kept hfile

theorem fileEffect_approve {request : ℕ} {a : Handshake.ApproveAction} {q' : Approval}
    {file' : HostsFile} {evs : List Handshake.Event}
    (h : Handshake.proceed request s.file a (s.approval request) = some (q', file', evs))
    (hfile : u.file = file') : FileEffect s u (.approve request a) := by
  generalize happroval : s.approval request = q at h
  cases Handshake.proceeds_of_proceed h with
  | saved | notSaved => exact .approved _ _ _ _ happroval hfile
  | named => exact .named _ _ _ happroval hfile
  | _ => exact .kept hfile

theorem fileEffect_step {a : Handshake.Action} (hothers : ∀ file tokens, a ≠ .others file tokens)
    (h : Handshake.step crypto gatewayId s a = some u) : FileEffect s u a := by
  cases Handshake.steps_of_step h with
  | @hello _ hello remoteIp nonce =>
    rcases Handshake.greet_cases hello remoteIp nonce s with hclosed | ⟨g, -, hchallenged⟩
    · exact .kept (by rw [hclosed])
    · exact .kept (by rw [hchallenged])
  | conn _ hadvance => exact fileEffect_conn hadvance rfl
  | enterPending =>
    refine .kept ?_
    unfold Handshake.enterPending
    split <;> rfl
  | approve hproceed => exact fileEffect_approve hproceed rfl
  | approveHand =>
    refine .kept ?_
    unfold Handshake.hand
    dsimp only
    split
    · rfl
    · split_ifs <;> rfl
  | others => exact absurd rfl (hothers _ _)
  | pickUp | giveUp | leavePending | approveFound | approveNotFound | sign => exact .kept rfl

end

/-- Every host in the file stays on the roll. -/
theorem FileEffect.enrolled_file {crypto : Crypto} {s : State} {u : Handshake.State}
    {a : Handshake.Action} (hs : Invariant crypto s) (h : FileEffect s.toState u a) :
    Enrolled s.roll (identities u.file) := by
  cases h with
  | kept hfile =>
    rw [hfile]
    exact hs.file
  | @enrolled conn out existing host config hphase hfile =>
    obtain ⟨g, hg, -⟩ := hs.keyed.proven conn (by rw [hphase]; rfl)
    have hwarranted := hs.conns conn g hg
    rw [hphase] at hwarranted
    rw [hfile]
    exact enrolled_written hs.file hwarranted.2.enrolled out
  | @approved request out job existing host config happroval hfile =>
    have hwarranted := hs.approvals request
    rw [happroval] at hwarranted
    rw [hfile]
    exact enrolled_written hs.file hwarranted.2.enrolled out
  | @named request out job host config happroval hfile =>
    have hwarranted := hs.approvals request
    rw [happroval] at hwarranted
    rw [hfile]
    exact enrolled_written hs.file hwarranted.enrolled out

/-! ## Connections -/

theorem grows_note (hashes : Hashes) (s : Handshake.State) (a : Handshake.Action) (H : History) :
    Grows H (note hashes s a H) (loads a) where
  roll := List.subset_append_right ..
  created := List.Subset.refl _
  uses := List.subset_append_right ..
  snapshot _ hne := if_neg hne

theorem of_loads {a : Handshake.Action} {task : Task} (h : loads a = some task) :
    (∃ conn b, a = .conn conn b ∧ task = .conn conn) ∨
      ∃ request b, a = .approve request b ∧ task = .request request := by
  unfold loads at h
  split at h
  · cases h
    exact .inl ⟨_, _, rfl, rfl⟩
  · cases h
    exact .inr ⟨_, _, rfl, rfl⟩
  · cases h
    exact .inr ⟨_, _, rfl, rfl⟩
  · cases h

theorem nodup_enrols (s : Handshake.State) (a : Handshake.Action) :
    ((enrols s a).map (·.1)).Nodup := by
  unfold enrols
  split
  · rename_i conn draw
    cases s.greeting conn <;> simp
  · split <;> simp
  · simp

section

variable {crypto : Crypto} {gatewayId : String} {s : State} {conn : ℕ} {g : Greeting}
  {a : Handshake.ConnAction} {p' : Handshake.Phase} {shared' : Handshake.Shared}
  {evs : List Handshake.Event}

theorem warranted_advance (hs : Invariant crypto s) (hg : s.greeting conn = some g)
    (h : Handshake.advance crypto gatewayId conn g s.toShared a (s.phase conn) =
      some (p', shared', evs)) :
    PhaseWarranted crypto.hashes (note crypto.hashes s.toState (.conn conn a) s.toHistory) conn g
      p' := by
  have hgrows := grows_note crypto.hashes s.toState (.conn conn a) s.toHistory
  have hold := hs.conns conn g hg
  generalize hphase : s.phase conn = p at hold h
  cases Handshake.advances_of_advance h with
  | hostLooked =>
    intro e he
    obtain ⟨hmem, hname⟩ := findByHostname_some he
    have hroll := hs.file e.identity hmem
    exact hgrows.roll (hname ▸ hroll)
  | @tookToken now existing =>
    refine warranted_takeToken (fun e he => hgrows.roll (hold e he)) ?_
    intro tokenVal hval token husable hre
    obtain ⟨⟨id, hid⟩, hdigest, hvalid⟩ := of_usableToken husable
    refine ⟨List.mem_append_left _ ?_, rfl, ⟨tokenVal, hval, hdigest⟩, hre, hvalid,
      hs.tokens id token hid⟩
    simp [usesOf, hg, Option.mem_def.1 hval, Option.mem_def.1 husable]
  | @planned draw existing isLocal config host failed hplan =>
    have hsnapshot : load s.file =
        (note crypto.hashes s.toState (.conn conn (.load draw)) s.toHistory).snapshot
          (.conn conn) := (if_pos rfl).symm
    rw [hsnapshot] at hplan
    refine ⟨fun e he => (hold e he).mono hgrows, writes_hostPlan hplan ?_ ?_⟩
    · rw [← hsnapshot]
      exact hs.file.mono hgrows.roll
    · exact List.mem_append_left _ (by simp [enrols, hg])
  | _ => trivial

/-- A connection uses tokens, but makes none. -/
theorem created_advance (hs : Invariant crypto s)
    (h : Handshake.advance crypto gatewayId conn g s.toShared a (s.phase conn) =
      some (p', shared', evs)) (id : String) (token : BootstrapToken)
    (htoken : shared'.tokens.lookup id = some token) : Created s.created token := by
  generalize s.phase conn = p at h
  cases Handshake.advances_of_advance h with
  | tookToken => exact created_takeToken hs.tokens id htoken
  | _ => exact hs.tokens id token htoken

end

/-! ## Approvals -/

section

variable {crypto : Crypto} {s : State} {request : ℕ} {a : Handshake.ApproveAction} {q' : Approval}
  {file' : HostsFile} {evs : List Handshake.Event}

theorem warranted_proceed (hs : Invariant crypto s)
    (h : Handshake.proceed request s.file a (s.approval request) = some (q', file', evs)) :
    ApprovalWarranted s.greeting (note crypto.hashes s.toState (.approve request a) s.toHistory)
      request q' := by
  have hgrows := grows_note crypto.hashes s.toState (.approve request a) s.toHistory
  have hold := hs.approvals request
  have hloaded := hs.file.mono hgrows.roll
  generalize hphase : s.approval request = q at hold h
  cases Handshake.proceeds_of_proceed h with
  | looked =>
    refine ⟨hold, fun e he => ?_⟩
    obtain ⟨hmem, hname⟩ := findByHostname_some he
    have hroll := hloaded e.identity hmem
    exact hname ▸ hroll
  | @planned draw job existing config host failed hplan =>
    have hsnapshot : load s.file =
        (note crypto.hashes s.toState (.approve request (.load draw)) s.toHistory).snapshot
          (.request request) := (if_pos rfl).symm
    rw [hsnapshot] at hplan
    refine ⟨JobFor.mono hold hgrows, writes_hostPlan hplan ?_ ?_⟩
    · rw [← hsnapshot]
      exact hloaded
    · exact List.mem_append_left _ (by simp [enrols, hphase])
  | saved => split_ifs <;> trivial
  | @nameLoaded job host config ok failed hplan =>
    have hsnapshot : load s.file =
        (note crypto.hashes s.toState (.approve request .nameLoad) s.toHistory).snapshot
          (.request request) := (if_pos rfl).symm
    rw [hsnapshot] at hplan
    refine writes_saveDisplayName hplan ?_
    rw [← hsnapshot]
    exact hloaded
  | _ => trivial

end

/-! ## Steps -/

section

variable {crypto : Crypto} {gatewayId : String} {s t : State}

/-- The gateway has as many ids as hosts when it starts. -/
theorem invariant_init {file : HostsFile} (h : ((load file).hosts.map (·.id)).Nodup) :
    Invariant crypto (.init file) where
  keyed := Handshake.keyed_init file
  roll := by
    simp only [State.init, List.map_map]
    exact h
  file := by
    intro e he
    obtain ⟨host, hhost, rfl⟩ := List.mem_map.1 he
    exact List.mem_map.2 ⟨host, hhost, rfl⟩
  tokens id token h := by cases h
  pending key e h := by cases h
  conns conn g h := by cases h
  approvals r := trivial
  edits edit := trivial

/-- A Hello of another connection changes nothing about an entry. -/
theorem Waits.greet {greeting : ℕ → Option Greeting} {e : PendingEntry} {conn : ℕ} {g : Greeting}
    (h : Waits greeting e) (hnone : greeting conn = none) :
    Waits (Function.update greeting conn (some g)) e := by
  obtain ⟨g', hg', hpeer⟩ := h
  have hne : e.approveTx ≠ conn := by
    rintro rfl
    rw [hnone] at hg'
    cases hg'
  exact ⟨g', (Function.update_of_ne hne ..).trans hg', hpeer⟩

theorem ApprovalWarranted.greet {greeting : ℕ → Option Greeting} {H : History} {r conn : ℕ}
    {q : Approval} {g : Greeting} (h : ApprovalWarranted greeting H r q)
    (hnone : greeting conn = none) :
    ApprovalWarranted (Function.update greeting conn (some g)) H r q := by
  cases q with
  | found job => exact Waits.greet h hnone
  | checked job existing => exact ⟨h.1.greet hnone, h.2⟩
  | saving job existing host config => exact ⟨⟨h.1.1.greet hnone, h.1.2⟩, h.2⟩
  | nameSaving job host config => exact h
  | _ => trivial

/-- What all steps of tasks and edits have in common. -/
structure Moving (crypto : Crypto) (s t : State) (task : Option Task) : Prop where
  keyed : Handshake.Keyed crypto t.toState
  grows : Grows s.toHistory t.toHistory task
  roll : (t.roll.map (·.1)).Nodup
  file : Enrolled t.roll (identities t.file)
  edits : ∀ e, t.edits e = s.edits e ∧ task ≠ some (.edit e) ∨
    EditWarranted t.toHistory e (t.edits e)

/-- A step that keeps the greetings keeps the invariant when what it adds is warranted. -/
theorem Invariant.of_moves (hs : Invariant crypto s) {task : Option Task}
    (hm : Moving crypto s t task)
    (htokens : ∀ id token, t.tokens.lookup id = some token → Created t.created token)
    (hgreeting : t.greeting = s.greeting)
    (hpending : ∀ key e, t.pending.lookup key = some e →
      s.pending.lookup key = some e ∨ Waits s.greeting e)
    (hconns : ∀ c g, s.greeting c = some g → t.phase c = s.phase c ∧ task ≠ some (.conn c) ∨
      PhaseWarranted crypto.hashes t.toHistory c g (t.phase c))
    (happrovals : ∀ r, t.approval r = s.approval r ∧ task ≠ some (.request r) ∨
      ApprovalWarranted s.greeting t.toHistory r (t.approval r)) : Invariant crypto t := by
  refine ⟨hm.keyed, hm.roll, hm.file, htokens, fun key e he => ?_, fun c g hg => ?_, fun r => ?_,
    fun e => ?_⟩
  · rw [hgreeting]
    rcases hpending key e he with hold | hnew
    · exact hs.pending key e hold
    · exact hnew
  · rw [hgreeting] at hg
    rcases hconns c g hg with ⟨heq, hne⟩ | hnew
    · rw [heq]
      exact (hs.conns c g hg).mono hm.grows hne
    · exact hnew
  · rw [hgreeting]
    rcases happrovals r with ⟨heq, hne⟩ | hnew
    · rw [heq]
      exact (hs.approvals r).mono hm.grows hne
    · exact hnew
  · rcases hm.edits e with ⟨heq, hne⟩ | hnew
    · rw [heq]
      exact (hs.edits e).mono hm.grows hne
    · exact hnew

/-- The phases after one connection has moved on and the sender of another one may be gone. -/
theorem moved_phase {hashes : Hashes} {H : History} {task : Option Task} {conn : ℕ}
    (phase : ℕ → Handshake.Phase) (e : Option PendingEntry) {p : Handshake.Phase}
    (htask : ∀ c, c ≠ conn → task ≠ some (.conn c))
    (hp : ∀ g, s.greeting conn = some g → PhaseWarranted hashes H conn g p) (c : ℕ) (g : Greeting)
    (hg : s.greeting c = some g) :
    Function.update (Handshake.hangUp e phase) conn p c = phase c ∧ task ≠ some (.conn c) ∨
      PhaseWarranted hashes H c g (Function.update (Handshake.hangUp e phase) conn p c) := by
  by_cases h : c = conn
  · subst h
    rw [Function.update_self]
    exact .inr (hp g hg)
  · rw [Function.update_of_ne h]
    rcases Handshake.hangUp_cases e phase c with heq | ⟨-, hdropped⟩
    · exact .inl ⟨heq, htask c h⟩
    · rw [hdropped]
      exact .inr trivial

/-- The approvals after one of them has moved on. -/
theorem moved_approval {H : History} {task : Option Task} {request : ℕ} {q : Approval}
    (htask : ∀ r, r ≠ request → task ≠ some (.request r))
    (hq : ApprovalWarranted s.greeting H request q) (r : ℕ) :
    Function.update s.approval request q r = s.approval r ∧ task ≠ some (.request r) ∨
      ApprovalWarranted s.greeting H r (Function.update s.approval request q r) := by
  by_cases h : r = request
  · subst h
    rw [Function.update_self]
    exact .inr hq
  · exact .inl ⟨Function.update_of_ne h .., htask r h⟩

/-- One connection moves on, and the sender of another one may be gone. -/
theorem Invariant.of_phase (hs : Invariant crypto s) {task : Option Task}
    (hm : Moving crypto s t task) (e : Option PendingEntry) {conn : ℕ} {p : Handshake.Phase}
    (hphase : t.phase = Function.update (Handshake.hangUp e s.phase) conn p)
    (htask : ∀ c, c ≠ conn → task ≠ some (.conn c)) (hrequests : ∀ r, task ≠ some (.request r))
    (hp : ∀ g, s.greeting conn = some g → PhaseWarranted crypto.hashes t.toHistory conn g p)
    (htokens : ∀ id token, t.tokens.lookup id = some token → Created t.created token)
    (hgreeting : t.greeting = s.greeting) (happroval : t.approval = s.approval)
    (hpending : ∀ key e, t.pending.lookup key = some e →
      s.pending.lookup key = some e ∨ Waits s.greeting e) : Invariant crypto t := by
  refine hs.of_moves hm htokens hgreeting hpending ?_ fun r => ?_
  · rw [hphase]
    exact moved_phase s.phase e htask hp
  · rw [happroval]
    exact .inl ⟨rfl, hrequests r⟩

/-- One approval moves on. -/
theorem Invariant.of_approval (hs : Invariant crypto s) {task : Option Task}
    (hm : Moving crypto s t task) {request : ℕ} {q : Approval}
    (happroval : t.approval = Function.update s.approval request q)
    (htask : ∀ r, r ≠ request → task ≠ some (.request r)) (hconns : ∀ c, task ≠ some (.conn c))
    (hq : ApprovalWarranted s.greeting t.toHistory request q)
    (htokens : ∀ id token, t.tokens.lookup id = some token → Created t.created token)
    (hgreeting : t.greeting = s.greeting) (hphase : t.phase = s.phase)
    (hpending : ∀ key e, t.pending.lookup key = some e → s.pending.lookup key = some e) :
    Invariant crypto t := by
  refine hs.of_moves hm htokens hgreeting (fun key e he => .inl (hpending key e he))
    (fun c g _ => ?_) ?_
  · rw [hphase]
    exact .inl ⟨rfl, hconns c⟩
  · rw [happroval]
    exact moved_approval htask hq

theorem moving_task (hs : Invariant crypto s) {a : Handshake.Action} {u : Handshake.State}
    (hothers : ∀ file tokens, a ≠ .others file tokens)
    (hfresh : ∀ e ∈ enrols s.toState a, e.1 ∉ s.roll.map (·.1))
    (h : Handshake.step crypto gatewayId s.toState a = some u) :
    Moving crypto s
      { s with toState := u, toHistory := note crypto.hashes s.toState a s.toHistory }
      (loads a) where
  keyed := Handshake.keyed_step hs.keyed h
  grows := grows_note crypto.hashes s.toState a s.toHistory
  roll := by
    change ((enrols s.toState a ++ s.roll).map (·.1)).Nodup
    rw [List.map_append]
    refine List.nodup_append.2 ⟨nodup_enrols s.toState a, hs.roll, ?_⟩
    rintro x hx y hy rfl
    obtain ⟨e, he, rfl⟩ := List.mem_map.1 hx
    exact hfresh e he hy
  file := ((fileEffect_step hothers h).enrolled_file hs).mono (List.subset_append_right ..)
  edits e := by
    refine .inl ⟨rfl, fun hloads => ?_⟩
    rcases of_loads hloads with ⟨conn, b, -, heq⟩ | ⟨request, b, -, heq⟩ <;> cases heq

theorem loads_ne_conn {a : Handshake.Action} {c : ℕ} (hne : ∀ b, a ≠ .conn c b) :
    loads a ≠ some (.conn c) := by
  intro hloads
  rcases of_loads hloads with ⟨conn, b, heq, heq'⟩ | ⟨request, b, -, heq⟩
  · cases heq'
    exact hne b heq
  · cases heq

theorem loads_ne_request {a : Handshake.Action} {r : ℕ} (hne : ∀ b, a ≠ .approve r b) :
    loads a ≠ some (.request r) := by
  intro hloads
  rcases of_loads hloads with ⟨conn, b, -, heq⟩ | ⟨request, b, heq, heq'⟩
  · cases heq
  · cases heq'
    exact hne b heq

/-- A Hello is the only step that adds a greeting. -/
theorem invariant_hello (hs : Invariant crypto s) {conn : ℕ} {hello : Hello} {remoteIp : String}
    {nonce : Protocol.Nonce} (habsent : s.phase conn = .absent)
    (hm : Moving crypto s { s with
      toState := Handshake.greet conn hello remoteIp nonce s.toState
      toHistory := note crypto.hashes s.toState (.hello conn hello remoteIp nonce) s.toHistory }
      none) :
    Invariant crypto { s with
      toState := Handshake.greet conn hello remoteIp nonce s.toState
      toHistory := note crypto.hashes s.toState (.hello conn hello remoteIp nonce)
        s.toHistory } := by
  rcases Handshake.greet_cases hello remoteIp nonce s.toState with hclosed | ⟨g, -, hchallenged⟩
  · rw [hclosed] at hm ⊢
    exact hs.of_phase hm none rfl (by simp) (by simp) (fun _ _ => trivial) hs.tokens rfl rfl
      fun _ _ he => .inl he
  · rw [hchallenged] at hm ⊢
    have hnone := hs.keyed.absent conn habsent
    refine ⟨hm.keyed, hm.roll, hm.file, hs.tokens, fun key e he => ?_, fun c g' hg' => ?_,
      fun r => ?_, fun e => ?_⟩
    · exact (hs.pending key e he).greet hnone
    · dsimp only at hg' ⊢
      by_cases heq : c = conn
      · subst heq
        rw [Function.update_self]
        trivial
      · rw [Function.update_of_ne heq] at hg' ⊢
        exact (hs.conns c g' hg').mono hm.grows (by simp)
    · exact ((hs.approvals r).mono hm.grows (by simp)).greet hnone
    · exact (hs.edits e).mono hm.grows (by simp)

/-- The entry that a connection adds waits for it. -/
theorem invariant_enterPending (hs : Invariant crypto s) {conn : ℕ} {g : Greeting}
    (hg : s.greeting conn = some g)
    (hm : Moving crypto s { s with
      toState := Handshake.enterPending crypto.hashes conn g.peer s.toState
      toHistory := note crypto.hashes s.toState (.enterPending conn) s.toHistory } none) :
    Invariant crypto { s with
      toState := Handshake.enterPending crypto.hashes conn g.peer s.toState
      toHistory := note crypto.hashes s.toState (.enterPending conn) s.toHistory } := by
  rcases hadd : s.pending.add crypto.hashes g.peer.publicKey g.peer.hostname g.peer.remoteIp
    g.peer.osId conn with _ | pending
  · simp only [Handshake.enterPending, hadd] at hm ⊢
    exact hs.of_phase hm none rfl (by simp) (by simp) (fun _ _ => trivial) hs.tokens rfl rfl
      fun _ _ he => .inl he
  · simp only [Handshake.enterPending, hadd] at hm ⊢
    refine hs.of_phase hm _ rfl (by simp) (by simp) (fun _ _ => trivial) hs.tokens rfl rfl
      fun key e he => ?_
    rw [PendingRegistry.eq_insert_of_add hadd] at he
    rcases AList.lookup_insert_eq_some_iff.1 he with ⟨-, rfl⟩ | ⟨-, hold⟩
    · exact .inr ⟨g, hg, rfl, rfl⟩
    · exact .inl hold

/-- An approval that answers takes its entry out. -/
theorem invariant_approveHand (hs : Invariant crypto s) {request : ℕ} {job : Job}
    {host : HostEntry}
    (hm : Moving crypto s { s with
      toState := Handshake.hand request job host s.toState
      toHistory := note crypto.hashes s.toState (.approveHand request) s.toHistory } none) :
    Invariant crypto { s with
      toState := Handshake.hand request job host s.toState
      toHistory := note crypto.hashes s.toState (.approveHand request) s.toHistory } := by
  rcases Handshake.approve_cases hs.keyed job.fingerprintHex with
    ⟨happrove, -⟩ | ⟨e, happrove, -, -⟩
  · simp only [Handshake.hand, happrove] at hm ⊢
    exact hs.of_approval hm rfl (by simp) (by simp) trivial hs.tokens rfl rfl fun _ _ he => he
  · simp only [Handshake.hand, happrove] at hm ⊢
    have herased (key : String) (e' : PendingEntry)
        (he : (s.pending.erase e.pubkeyB64).lookup key = some e') :
        s.pending.lookup key = some e' := (AList.lookup_erase_eq_some_iff.1 he).2
    split_ifs at hm ⊢
    · exact hs.of_moves hm hs.tokens rfl (fun key e' he => .inl (herased key e' he))
        (moved_phase s.phase none (by simp) fun _ _ => trivial) (moved_approval (by simp) trivial)
    · exact hs.of_approval hm rfl (by simp) (by simp) trivial hs.tokens rfl rfl herased

theorem invariant_task (hs : Invariant crypto s) {a : Handshake.Action} {u : Handshake.State}
    (hothers : ∀ file tokens, a ≠ .others file tokens)
    (hfresh : ∀ e ∈ enrols s.toState a, e.1 ∉ s.roll.map (·.1))
    (h : Handshake.step crypto gatewayId s.toState a = some u) :
    Invariant crypto
      { s with toState := u, toHistory := note crypto.hashes s.toState a s.toHistory } := by
  have hm := moving_task hs hothers hfresh h
  cases Handshake.steps_of_step h with
  | hello habsent => exact invariant_hello hs habsent hm
  | @conn conn a g p shared evs hg hadvance =>
    have htokens := created_advance hs hadvance
    refine hs.of_phase hm none rfl (fun c hc => loads_ne_conn fun b heq => ?_)
      (fun r => loads_ne_request (by simp)) (fun g' hg' => ?_) htokens rfl rfl
      fun _ _ he => .inl he
    · cases heq
      exact hc rfl
    · cases hg.symm.trans hg'
      exact warranted_advance hs hg hadvance
  | enterPending _ hg => exact invariant_enterPending hs hg hm
  | pickUp | giveUp =>
    exact hs.of_phase hm none rfl (by simp [loads]) (by simp [loads]) (fun _ _ => trivial)
      hs.tokens rfl rfl fun _ _ he => .inl he
  | leavePending =>
    exact hs.of_phase hm _ rfl (by simp [loads]) (by simp [loads]) (fun _ _ => trivial)
      hs.tokens rfl rfl fun _ _ he => .inl (AList.lookup_erase_eq_some_iff.1 he).2
  | @approveFound _ _ _ e _ hfind =>
    refine hs.of_approval hm rfl (by simp [loads]) (by simp [loads]) ?_ hs.tokens rfl rfl
      fun _ _ he => he
    obtain ⟨⟨key, hkey⟩, -⟩ := PendingRegistry.of_entryForFingerprint hfind
    exact hs.pending key e hkey
  | approveNotFound =>
    exact hs.of_approval hm rfl (by simp [loads]) (by simp [loads]) trivial hs.tokens rfl rfl
      fun _ _ he => he
  | @approve request a q file evs hproceed =>
    refine hs.of_approval hm rfl (fun r hr => loads_ne_request fun b heq => ?_)
      (fun c => loads_ne_conn (by simp)) (warranted_proceed hs hproceed) hs.tokens rfl rfl
      fun _ _ he => he
    cases heq
    exact hr rfl
  | approveHand => exact invariant_approveHand hs hm
  | sign =>
    exact hs.of_moves hm hs.tokens rfl (fun _ _ he => .inl he)
      (fun _ _ _ => .inl ⟨rfl, by simp [loads]⟩) fun _ => .inl ⟨rfl, by simp [loads]⟩
  | others => exact absurd rfl (hothers _ _)

/-- A step of a connection or of an approval, with what it leaves in the history. -/
theorem of_step_task {a : Handshake.Action} (h : step crypto gatewayId s (.task a) = some t) :
    (∀ file tokens, a ≠ .others file tokens) ∧
      (∀ e ∈ enrols s.toState a, e.1 ∉ s.roll.map (·.1)) ∧
      ∃ u, Handshake.step crypto gatewayId s.toState a = some u ∧
        t = { s with toState := u, toHistory := note crypto.hashes s.toState a s.toHistory } := by
  unfold step at h
  split at h
  · cases h
  · rename_i b hne heq
    cases heq
    split_ifs at h with hfresh
    obtain ⟨u, hu, rfl⟩ := Option.map_eq_some_iff.1 h
    refine ⟨fun file tokens hothers => ?_, hfresh, u, hu, rfl⟩
    exact hne file tokens hothers
  all_goals
    rename_i heq
    cases heq

/-- An edit or a change of the tokens, as an action of `Handshake`. -/
theorem keyed_others (hs : Invariant crypto s) (file : HostsFile) (tokens : BootstrapRegistry) :
    Handshake.Keyed crypto { s.toState with file, tokens } := by
  have hstep : Handshake.step crypto "" s.toState (.others file tokens) =
      some { s.toState with file, tokens } := rfl
  exact Handshake.keyed_step hs.keyed hstep

theorem invariant_tokens (hs : Invariant crypto s) {tokens : BootstrapRegistry}
    {created : List BootstrapToken} (hsub : s.created ⊆ created)
    (h : ∀ id token, tokens.lookup id = some token → Created created token) :
    Invariant crypto { s with tokens, created } := by
  have hgrows : Grows s.toHistory { s.toHistory with created } none :=
    ⟨List.Subset.refl _, hsub, List.Subset.refl _, fun _ _ => rfl⟩
  have hm : Moving crypto s { s with tokens, created } none :=
    ⟨keyed_others hs s.file tokens, hgrows, hs.roll, hs.file, fun _ => .inl ⟨rfl, nofun⟩⟩
  exact hs.of_moves hm h rfl (fun _ _ he => .inl he) (fun _ _ _ => .inl ⟨rfl, nofun⟩)
    fun _ => .inl ⟨rfl, nofun⟩

theorem invariant_edit (hs : Invariant crypto s) {edit : ℕ} {q : Edit} {H : History}
    {file : HostsFile} (hgrows : Grows s.toHistory H (some (.edit edit)))
    (hroll : H.roll = s.roll) (hfile : Enrolled s.roll (identities file))
    (hq : EditWarranted H edit q) :
    Invariant crypto
      { s with file, toHistory := H, edits := Function.update s.edits edit q } := by
  have hm : Moving crypto s
      { s with file, toHistory := H, edits := Function.update s.edits edit q }
      (some (.edit edit)) := by
    refine ⟨keyed_others hs file s.tokens, hgrows, ?_, ?_, fun e => ?_⟩
    · change (H.roll.map (·.1)).Nodup
      rw [hroll]
      exact hs.roll
    · change Enrolled H.roll (identities file)
      rw [hroll]
      exact hfile
    · by_cases heq : e = edit
      · subst heq
        dsimp only
        rw [Function.update_self]
        exact .inr hq
      · refine .inl ⟨Function.update_of_ne heq .., fun h => heq ?_⟩
        cases h
        rfl
  exact hs.of_moves hm (fun id token htoken => (hs.tokens id token htoken).mono hgrows.created) rfl
    (fun _ _ he => .inl he) (fun _ _ _ => .inl ⟨rfl, nofun⟩) fun _ => .inl ⟨rfl, nofun⟩

theorem invariant_step {a : Action} (hs : Invariant crypto s)
    (h : step crypto gatewayId s a = some t) : Invariant crypto t := by
  cases a with
  | task a =>
    obtain ⟨hothers, hfresh, u, hu, rfl⟩ := of_step_task h
    exact invariant_task hs hothers hfresh hu
  | editLoad edit op =>
    simp only [step] at h
    split at h
    · split_ifs at h with hop
      split at h
      · rename_i config saved failed hplan
        cases h
        have hgrows : Grows s.toHistory { s.toHistory with
            snapshot := Function.update s.snapshot (.edit edit) (load s.file) }
            (some (.edit edit)) :=
          ⟨List.Subset.refl _, List.Subset.refl _, List.Subset.refl _, fun task hne =>
            Function.update_of_ne (fun heq => hne (congrArg some heq.symm)) ..⟩
        refine invariant_edit hs hgrows rfl hs.file ?_
        have hsnapshot : load s.file =
            Function.update s.snapshot (.edit edit) (load s.file) (.edit edit) :=
          (Function.update_self (Task.edit edit) (load s.file) s.snapshot).symm
        rw [hsnapshot] at hplan
        refine writes_edit hop hplan ?_
        dsimp only
        rw [← hsnapshot]
        exact hs.file
      · cases h
        exact invariant_edit hs (grows_refl _) rfl hs.file trivial
    · cases h
  | editSave edit out =>
    simp only [step] at h
    split at h
    · rename_i config hedit
      cases h
      have hwarranted := hs.edits edit
      rw [hedit] at hwarranted
      exact invariant_edit hs (grows_refl _) rfl (enrolled_written hs.file hwarranted.enrolled out)
        trivial
    · cases h
  | tokenCreate now ttl id value singleUse maxUses boundHostname reEnroll =>
    cases h
    refine invariant_tokens hs (List.subset_append_right ..) fun id' token htoken => ?_
    by_cases heq : id' = id
    · subst heq
      refine ⟨token, List.mem_append_left _ ?_, rfl⟩
      rw [htoken]
      exact List.mem_singleton_self token
    · have hold : s.tokens.lookup id' = some token := by
        rwa [BootstrapRegistry.create, AList.lookup_insert_ne heq] at htoken
      exact (hs.tokens id' token hold).mono (List.subset_append_right ..)
  | tokenRevoke id =>
    cases h
    refine invariant_tokens hs (List.Subset.refl _) fun id' token htoken => ?_
    exact hs.tokens id' token (AList.lookup_erase_eq_some_iff.1 htoken).2
  | tokenCleanup now =>
    cases h
    refine invariant_tokens hs (List.Subset.refl _) fun id token htoken => ?_
    have hretained : (s.tokens.retain fun _ t => decide ¬ t.isExpired now).lookup id = some token :=
      htoken
    exact hs.tokens id token (AList.lookup_retain_eq_some_iff.1 hretained).1

end

/-! ## Changes of keys -/

section

variable {crypto : Crypto} {gatewayId : String} {s t : State} {hostId : String}
  {host host' : HostEntry}

/-- A valid token is bound to that hostname, or to none. -/
theorem boundHostname_of_isValidFor {token : BootstrapToken} {hostname : String} {now : ℕ}
    (h : token.isValidFor hostname now) : token.boundHostname ∈ [none, some hostname] := by
  unfold BootstrapToken.isValidFor at h
  rw [Bool.and_eq_true] at h
  rcases hbound : token.boundHostname with _ | bound
  · exact List.mem_cons_self
  · have heq : bound = hostname := by simpa [hbound] using h.2
    rw [heq]
    exact List.mem_cons_of_mem _ List.mem_cons_self

/-- The save of a task that has seen the file changes the key of its target only. -/
theorem target_of_written {H : History} {task : Task} {target : Option (String × String)}
    {config : HostsConfig} {file : HostsFile} {out : WriteOutcome}
    (hwrites : Writes H task target config) (hfresh : out = .done → load file = H.snapshot task)
    (hhost : findById (load file) hostId = some host)
    (hhost' : findById (load (written out config file)) hostId = some host')
    (hkey : host'.publicKey ≠ host.publicKey) :
    out = .done ∧ ∃ key, target = some (hostId, key) ∧ host'.publicKey = some key := by
  cases out with
  | done =>
    refine ⟨rfl, ?_⟩
    rw [hfresh rfl] at hhost
    have hbefore : keyOf (identities (.json (H.snapshot task))) hostId = some host.publicKey := by
      rw [keyOf_identities]
      exact congrArg (Option.map (·.publicKey)) hhost
    have hafter : keyOf (identities (.json config)) hostId = some host'.publicKey := by
      rw [keyOf_identities]
      exact congrArg (Option.map (·.publicKey)) hhost'
    rcases hwrites.preserves hostId _ _ hbefore hafter with heq | htarget
    · exact absurd heq hkey
    · exact htarget
  | refused =>
    cases hhost.symm.trans hhost'
    exact absurd rfl hkey
  | interrupted => cases hhost'

/-- An id has one hostname. -/
theorem Invariant.hostname_eq (hs : Invariant crypto s)
    (hhost : findById (load s.file) hostId = some host) {hostname : String}
    (hroll : (hostId, hostname) ∈ s.roll) : hostname = host.hostname := by
  have hmem : host.identity ∈ identities s.file :=
    List.mem_map_of_mem (List.mem_of_find?_eq_some hhost)
  have hid : host.id = hostId := by simpa using List.find?_some hhost
  have hhostRoll : (hostId, host.hostname) ∈ s.roll := hid ▸ hs.file host.identity hmem
  exact congrArg Prod.snd (List.inj_on_of_nodup_map hs.roll hroll hhostRoll rfl)

/-- Only a task that may do so changes the key of a host. -/
theorem authorized_step {a : Action} (hs : Invariant crypto s) (hfresh : Fresh s a)
    (h : step crypto gatewayId s a = some t)
    (hhost : findById (load s.file) hostId = some host)
    (hhost' : findById (load t.file) hostId = some host')
    (hkey : host'.publicKey ≠ host.publicKey) :
    Authorized crypto.hashes s host host'.publicKey [none, some host.hostname] a := by
  have hkept (hfile : t.file = s.file) :
      Authorized crypto.hashes s host host'.publicKey [none, some host.hostname] a := by
    rw [hfile] at hhost'
    cases hhost.symm.trans hhost'
    exact absurd rfl hkey
  cases a with
  | task a =>
    obtain ⟨hothers, -, u, hu, rfl⟩ := of_step_task h
    cases fileEffect_step hothers hu with
    | kept hfile => exact hkept hfile
    | @enrolled conn out existing new config hphase hfile =>
      obtain ⟨g, hg, -⟩ := hs.keyed.proven conn (by rw [hphase]; rfl)
      have hwarranted := hs.conns conn g hg
      rw [hphase] at hwarranted
      dsimp only at hhost'
      rw [hfile] at hhost'
      obtain ⟨rfl, key, htarget, hpubkey⟩ := target_of_written hwarranted.2
        (by rintro rfl; exact hfresh) hhost hhost' hkey
      obtain ⟨e, rfl, heq⟩ := Option.map_eq_some_iff.1 htarget
      cases heq
      obtain ⟨hroll, use, hpresented⟩ := hwarranted.1 e rfl
      have hname := hs.hostname_eq hhost hroll
      exact .reEnrolled g use hg hname hpubkey hpresented
        (hname ▸ boundHostname_of_isValidFor hpresented.valid)
    | @approved request out job existing new config happroval hfile =>
      have hwarranted := hs.approvals request
      rw [happroval] at hwarranted
      dsimp only at hhost'
      rw [hfile] at hhost'
      obtain ⟨rfl, key, htarget, hpubkey⟩ := target_of_written hwarranted.2
        (by rintro rfl; exact hfresh) hhost hhost' hkey
      obtain ⟨e, rfl, heq⟩ := Option.map_eq_some_iff.1 htarget
      cases heq
      have hname := hs.hostname_eq hhost (hwarranted.1.2 e rfl)
      exact .approved job e new config happroval hname hpubkey hwarranted.1.1
    | @named request out job new config happroval hfile =>
      have hwarranted := hs.approvals request
      rw [happroval] at hwarranted
      dsimp only at hhost'
      rw [hfile] at hhost'
      obtain ⟨-, key, htarget, -⟩ := target_of_written hwarranted
        (by rintro rfl; exact hfresh) hhost hhost' hkey
      cases htarget
  | editLoad edit op =>
    simp only [step] at h
    split at h
    · split_ifs at h
      split at h
      all_goals
        cases h
        exact hkept rfl
    · cases h
  | editSave edit out =>
    simp only [step] at h
    split at h
    · rename_i config hedit
      cases h
      have hwarranted := hs.edits edit
      rw [hedit] at hwarranted
      obtain ⟨-, key, htarget, -⟩ := target_of_written hwarranted
        (by rintro rfl; exact hfresh) hhost hhost' hkey
      cases htarget
    · cases h
  | tokenCreate | tokenRevoke | tokenCleanup =>
    cases h
    exact hkept rfl

end

/-- In every run, a step that is not a stale save changes the key of an enrolled host only by a
connection with the hostname of the host, which has presented a re-enrolment token that was valid
for it (so unbound, or bound to exactly that hostname), or by the approval of a pending connection
with the hostname of the host. -/
theorem authorized_of_run (crypto : Crypto) (gatewayId : String) (file : HostsFile)
    (as : List Action) (a : Action) (s t : State) (hostId : String) (host host' : HostEntry)
    (hids : ((load file).hosts.map (·.id)).Nodup)
    (hr : run (step crypto gatewayId) (.init file) as = some s)
    (h : step crypto gatewayId s a = some t) (hfresh : Fresh s a)
    (hhost : findById (load s.file) hostId = some host)
    (hhost' : findById (load t.file) hostId = some host')
    (hkey : host'.publicKey ≠ host.publicKey) :
    Authorized crypto.hashes s host host'.publicKey [none, some host.hostname] a := by
  have hs : Invariant crypto s :=
    invariant_of_run (fun _ _ _ hs h => invariant_step hs h) (invariant_init hids) hr
  exact authorized_step hs hfresh h hhost hhost' hkey

/-- A file with the host "web" and another key than that of its agent. -/
def webFile : HostsFile :=
  .json ⟨[⟨"h1", "web", "web", some "K1", "t0", false, none, none, none⟩]⟩

/-- An administrator creates a re-enrolment token; the agent on "web" presents it, and is about to
replace the key. -/
def webReEnrols (boundHostname : Option String) : List Action :=
  [.tokenCreate 0 3600 "t1" "secret" true none boundHostname true,
    .task (.hello 0 ⟨2, "web", false, some webKeyB64, some "secret", none⟩ "203.0.113.7" webNonce),
    .task (.conn 0 (.respond webSignatureB64)), .task (.conn 0 .lookKey),
    .task (.conn 0 .lookHost), .task (.conn 0 (.takeToken 10)),
    .task (.conn 0 (.load ⟨"h2", "t1"⟩))]

theorem authorized_webReEnrols :
    ∃ s t host host',
      run (step webCrypto "gw") (.init webFile) (webReEnrols (some "web")) = some s ∧
      step webCrypto "gw" s (.task (.conn 0 (.save .done))) = some t ∧
      findById (load s.file) "h1" = some host ∧ findById (load t.file) "h1" = some host' ∧
      host'.publicKey = some webKeyB64 ∧
      Authorized webCrypto.hashes s host host'.publicKey [none, some host.hostname]
        (.task (.conn 0 (.save .done))) :=
  ⟨_, _, _, _, rfl, rfl, rfl, rfl, rfl,
    authorized_of_run webCrypto "gw" webFile (webReEnrols (some "web")) _ _ _ "h1" _ _ (by decide)
      rfl rfl rfl rfl rfl (by decide)⟩

/-- A token that is bound to no hostname does as well. -/
theorem unbound_webReEnrols :
    ∃ s t host host', run (step webCrypto "gw") (.init webFile) (webReEnrols none) = some s ∧
      step webCrypto "gw" s (.task (.conn 0 (.save .done))) = some t ∧
      Fresh s (.task (.conn 0 (.save .done))) ∧
      findById (load s.file) "h1" = some host ∧ findById (load t.file) "h1" = some host' ∧
      host'.publicKey ≠ host.publicKey ∧
      ¬ Authorized webCrypto.hashes s host host'.publicKey [some host.hostname]
        (.task (.conn 0 (.save .done))) := by
  refine ⟨_, _, _, _, rfl, rfl, rfl, rfl, rfl, by decide, fun h => ?_⟩
  cases h with
  | reEnrolled g use hgreeting hname hpubkey hpresented hbinding =>
    have hused := List.mem_singleton.1 hpresented.used
    subst hused
    cases List.mem_singleton.1 hbinding

end Tenodera.Gateway.KeyChanges
