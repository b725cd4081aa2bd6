import Tenodera.Gateway.AgentKeys
import Tenodera.Gateway.Enrollment
import Tenodera.Lib.Table

/-!
# Agent connections and approvals, await by await

`handle_agent_socket` and `pending_approve` once more, this time as tasks that let others run
wherever they await: between a challenge and its answer, between any two of the look-ups of an
authentication path, between the load and the save of the hosts file.  A connection is in a `Phase`,
the request of an administrator is an `Approval`; `step` is one of them going to its next await.
-/

namespace Tenodera.Gateway.Handshake

open Protocol Cell
open Enrollment (ApproveReply)

/-! ## Connections -/

/-- What an agent claims, and the nonce it is challenged with. -/
structure Greeting where
  peer : Peer
  bootstrapToken : Option String
  isLocal : Bool
  nonce : Nonce
  deriving DecidableEq

/-- The oneshot channel of a waiting agent. -/
inductive Channel
  | awaiting
  | answered (host : HostEntry)
  /-- The sender is gone without an answer. -/
  | dropped
  deriving DecidableEq, Repr

/-- How far `handle_agent_socket` has come with a connection. -/
inductive Phase
  | absent
  | challenged
  | verified
  | keyUnknown
  | hostLooked (existing : Option HostEntry)
  /-- To be enrolled, or to replace the key of `existing`. -/
  | enrolling (existing : Option HostEntry) (isLocal : Bool)
  | saving (existing : Option HostEntry) (host : HostEntry) (config : HostsConfig)
  | kicking (existing host : HostEntry)
  | authenticated (host : HostEntry)
  | running (host : HostEntry)
  | deferred (reason : String)
  | waiting (channel : Channel)
  /-- Gave up waiting; still to be taken out of the pending registry. -/
  | abandoned
  | closed
  deriving DecidableEq, Repr

inductive Writer
  | conn (conn : ℕ)
  | request (request : ℕ)
  deriving DecidableEq, Repr

/-- What has happened, for the statements about runs. -/
inductive Event
  | challenged (conn : ℕ) (nonce : Nonce)
  /-- The holder of the private key signs a payload. -/
  | signed (key payload : List UInt8)
  | verified (conn : ℕ) (pubkeyB64 : String) (payload : List UInt8)
  /-- The look-up of the key of a connection in the configuration. -/
  | looked (conn : ℕ) (config : HostsConfig)
  /-- An enrolment or a replacement of a key is saved. -/
  | wrote (writer : Writer) (out : WriteOutcome) (before after : HostsFile)
  | inserted (conn : ℕ) (pubkeyB64 : String)
  | received (conn : ℕ) (host : HostEntry)
  | registered (hostId : String) (conn : ℕ)
  | started (request : ℕ) (entry : PendingEntry)
  /-- The display name of an approval is saved. -/
  | named (request : ℕ) (out : WriteOutcome) (before after : HostsFile)
  | handed (request : ℕ) (fingerprintHex : String) (conn : ℕ) (host : HostEntry)
  | replied (request : ℕ) (reply : ApproveReply)
  deriving DecidableEq

/-- What connections share apart from the pending registry. -/
structure Shared where
  file : HostsFile
  registry : AgentRegistry
  tokens : BootstrapRegistry

inductive ConnAction
  | respond (sigB64 : String)
  | lookKey
  | lookHost
  | takeToken (now : ℕ)
  | load (draw : Draw)
  | save (out : WriteOutcome)
  | kick
  | register
  | unregister
  /-- A deadline passes, a send fails or the agent closes. -/
  | disconnect
  deriving DecidableEq, Repr

/-- `register_host`, or `replace_pubkey` of `existing`. -/
def hostPlan (draw : Draw) (existing : Option HostEntry) (hostname pubkeyB64 : String)
    (isLocal : Bool) (displayName osId : Option String) (config : HostsConfig) :
    Plan HostsConfig (Except HostsError HostEntry) :=
  match existing with
  | some host => replacePubkey host.id pubkeyB64 config
  | none => registerHost draw.uuid draw.now hostname pubkeyB64 isLocal displayName osId config

/-- The file after a `save`. -/
def written (out : WriteOutcome) (config : HostsConfig) (file : HostsFile) : HostsFile :=
  match out with
  | .done => .json config
  | .refused => file
  | .interrupted => .malformed

/-- What `resolve_auth_path` does with the token once the hostname is looked up. -/
def takeToken (hashes : Hashes) (now : ℕ) (g : Greeting) (existing : Option HostEntry)
    (tokens : BootstrapRegistry) : Phase × BootstrapRegistry :=
  match existing, g.bootstrapToken with
  | some _, none => (.closed, tokens)
  | some host, some tokenVal =>
    match tokens.validateAndConsume hashes now tokenVal g.peer.hostname with
    | (some true, tokens) => (.enrolling (some host) g.isLocal, tokens)
    | (some false, tokens) | (none, tokens) => (.closed, tokens)
  | none, some tokenVal =>
    match tokens.validateAndConsume hashes now tokenVal g.peer.hostname with
    | (some _, tokens) => (.enrolling none g.isLocal, tokens)
    | (none, tokens) => (.deferred "token_invalid", tokens)
  | none, none =>
    if isLoopback g.peer.remoteIp then (.enrolling none true, tokens)
    else (.deferred "enrollment_required", tokens)

/-- A connection that does not wait for an administrator goes to its next await. -/
def advance (crypto : Crypto) (gatewayId : String) (conn : ℕ) (g : Greeting) (shared : Shared) :
    ConnAction → Phase → Option (Phase × Shared × List Event)
  | .respond sigB64, .challenged =>
    if crypto.verifySignature g.peer.publicKey sigB64 g.nonce g.peer.hostname gatewayId then
      some (.verified, shared, [.verified conn g.peer.publicKey
        (buildChallengePayload g.nonce g.peer.hostname gatewayId)])
    else some (.closed, shared, [])
  | .lookKey, .verified =>
    let config := load shared.file
    match findByPubkey config g.peer.publicKey with
    | some host => some (.authenticated host, shared, [.looked conn config])
    | none => some (.keyUnknown, shared, [.looked conn config])
  | .lookHost, .keyUnknown =>
    some (.hostLooked (findByHostname (load shared.file) g.peer.hostname), shared, [])
  | .takeToken now, .hostLooked existing =>
    let (phase, tokens) := takeToken crypto.hashes now g existing shared.tokens
    some (phase, { shared with tokens }, [])
  | .load draw, .enrolling existing isLocal =>
    match hostPlan draw existing g.peer.hostname g.peer.publicKey isLocal none g.peer.osId
      (load shared.file) with
    | .write config (.ok host) _ => some (.saving existing host config, shared, [])
    | _ => some (.closed, shared, [])
  | .save out, .saving existing host config =>
    let phase :=
      match out, existing with
      | .done, some existing => .kicking existing host
      | .done, none => .authenticated host
      | .refused, _ | .interrupted, _ => .closed
    let file := written out config shared.file
    some (phase, { shared with file }, [.wrote (.conn conn) out shared.file file])
  | .kick, .kicking existing host =>
    some (.authenticated host,
      { shared with registry := shared.registry.unregister existing.id }, [])
  | .register, .authenticated host =>
    some (.running host,
      { shared with registry := shared.registry.register host.id conn g.peer.remoteIp },
      [.registered host.id conn])
  | .unregister, .running host =>
    some (.closed, { shared with registry := shared.registry.unregister host.id }, [])
  | .disconnect, .challenged | .disconnect, .deferred _ | .disconnect, .authenticated _ =>
    some (.closed, shared, [])
  | _, _ => none

/-! ## Approvals -/

/-- What `pending_approve` was asked for, and the entry it found. -/
structure Job where
  fingerprintHex : String
  displayName : Option String
  entry : PendingEntry
  deriving DecidableEq, Repr

/-- How far `pending_approve` has come with a request. -/
inductive Approval
  | idle
  | found (job : Job)
  | checked (job : Job) (existing : Option HostEntry)
  | saving (job : Job) (existing : Option HostEntry) (host : HostEntry) (config : HostsConfig)
  | naming (job : Job) (host : HostEntry)
  | nameSaving (job : Job) (host : HostEntry) (config : HostsConfig)
  /-- The host is in the file; the waiting agent is still to be told. -/
  | ready (job : Job) (host : HostEntry)
  | replied (reply : ApproveReply)
  deriving DecidableEq, Repr

inductive ApproveAction
  | find
  | load (draw : Draw)
  | save (out : WriteOutcome)
  | nameLoad
  | nameSave (out : WriteOutcome)
  deriving DecidableEq, Repr

/-- A request that works on the hosts file goes to its next await. -/
def proceed (request : ℕ) (file : HostsFile) :
    ApproveAction → Approval → Option (Approval × HostsFile × List Event)
  | .find, .found job =>
    some (.checked job (findByHostname (load file) job.entry.hostname), file, [])
  | .load draw, .checked job existing =>
    match hostPlan draw existing job.entry.hostname job.entry.pubkeyB64
      (isLoopback job.entry.remoteIp) job.displayName job.entry.osId (load file) with
    | .write config (.ok host) _ => some (.saving job existing host config, file, [])
    | _ =>
      some (.replied .registrationFailed, file, [.replied request .registrationFailed])
  | .save out, .saving job existing host config =>
    let after := written out config file
    match out with
    | .done =>
      let next :=
        if existing.isSome ∧ job.displayName.isSome then
          .naming job { host with displayName := job.displayName }
        else .ready job host
      some (next, after, [.wrote (.request request) out file after])
    | .refused | .interrupted =>
      some (.replied .registrationFailed, after,
        [.replied request .registrationFailed, .wrote (.request request) out file after])
  | .nameLoad, .naming job host =>
    match saveDisplayName host.id host.displayName (load file) with
    | .write config _ _ => some (.nameSaving job host config, file, [])
    | .answer _ => some (.ready job host, file, [])
  | .nameSave out, .nameSaving job host config =>
    -- a failure to save the name is logged only
    let after := written out config file
    some (.ready job host, after, [.named request out file after])
  | _, _ => none

/-! ## The system -/

structure State extends Shared where
  pending : PendingRegistry
  greeting : ℕ → Option Greeting
  phase : ℕ → Phase
  approval : ℕ → Approval
  log : List Event

/-- The gateway after its start. -/
def State.init (file : HostsFile) : State where
  file := file
  registry := ∅
  tokens := ∅
  pending := ∅
  greeting _ := none
  phase _ := .absent
  approval _ := .idle
  log := []

inductive Action
  | hello (conn : ℕ) (hello : Hello) (remoteIp : String) (nonce : Nonce)
  | conn (conn : ℕ) (action : ConnAction)
  | enterPending (conn : ℕ)
  | pickUp (conn : ℕ)
  /-- The sender is gone, the agent disconnects or its time is up. -/
  | giveUp (conn : ℕ)
  | leavePending (conn : ℕ)
  | approveStart (request : ℕ) (fingerprintHex : String) (displayName : Option String)
  | approve (request : ℕ) (action : ApproveAction)
  | approveHand (request : ℕ)
  /-- The holder of a key signs a payload, for this gateway or for another one. -/
  | sign (key payload : List UInt8)
  /-- Other requests write the hosts file or change the tokens. -/
  | others (file : HostsFile) (tokens : BootstrapRegistry)
  deriving DecidableEq

/-- The connections after the sender of a pending entry is dropped. -/
def hangUp (e : Option PendingEntry) (phase : ℕ → Phase) : ℕ → Phase :=
  match e with
  | some e =>
    if phase e.approveTx = .waiting .awaiting then
      Function.update phase e.approveTx (.waiting .dropped)
    else phase
  | none => phase

/-- The Hello of an agent: it is challenged, unless it has no key or speaks an old version. -/
def greet (conn : ℕ) (h : Hello) (remoteIp : String) (nonce : Nonce) (s : State) : State :=
  match h.publicKey with
  | some publicKey =>
    if h.version < 2 then { s with phase := Function.update s.phase conn .closed }
    else
      let g : Greeting :=
        ⟨⟨h.hostname, publicKey, h.osId, remoteIp⟩, h.bootstrapToken, h.isLocal, nonce⟩
      { s with
        greeting := Function.update s.greeting conn (some g)
        phase := Function.update s.phase conn .challenged
        log := .challenged conn nonce :: s.log }
  | none => { s with phase := Function.update s.phase conn .closed }

/-- A connection is put into the pending registry, whose entry for the same key is dropped. -/
def enterPending (hashes : Hashes) (conn : ℕ) (peer : Peer) (s : State) : State :=
  match s.pending.add hashes peer.publicKey peer.hostname peer.remoteIp peer.osId conn with
  | some pending =>
    { s with
      pending
      phase := Function.update (hangUp (s.pending.lookup peer.publicKey) s.phase) conn
        (.waiting .awaiting)
      log := .inserted conn peer.publicKey :: s.log }
  | none => { s with phase := Function.update s.phase conn .closed }

/-- `pending_registry.remove` of a connection that gave up. -/
def leavePending (conn : ℕ) (pubkeyB64 : String) (s : State) : State :=
  { s with
    pending := s.pending.erase pubkeyB64
    phase := Function.update (hangUp (s.pending.lookup pubkeyB64) s.phase) conn .closed }

/-- `pending_registry.approve` with the host, and the reply to the administrator. -/
def hand (request : ℕ) (job : Job) (host : HostEntry) (s : State) : State :=
  let (taken, pending) := s.pending.approve job.fingerprintHex
  let answer (reply : ApproveReply) (phase : ℕ → Phase) (events : List Event) : State :=
    { s with
      pending
      phase
      approval := Function.update s.approval request (.replied reply)
      log := .replied request reply :: events ++ s.log }
  match taken with
  | none => answer .alreadyApproved s.phase []
  | some e =>
    if s.phase e.approveTx = .waiting .awaiting then
      answer (.approved host.id)
        (Function.update s.phase e.approveTx (.waiting (.answered host)))
        [.handed request job.fingerprintHex e.approveTx host]
    else answer .alreadyApproved s.phase []

/-- One task goes to its next await; `none` when it is not at that point. -/
def step (crypto : Crypto) (gatewayId : String) (s : State) : Action → Option State
  | .hello conn h remoteIp nonce =>
    if s.phase conn = .absent then some (greet conn h remoteIp nonce s) else none
  | .conn conn a =>
    match s.greeting conn with
    | some g =>
      (advance crypto gatewayId conn g s.toShared a (s.phase conn)).map
        fun (phase, shared, events) =>
          { s with
            toShared := shared
            phase := Function.update s.phase conn phase
            log := events ++ s.log }
    | none => none
  | .enterPending conn =>
    match s.phase conn, s.greeting conn with
    | .deferred _, some g => some (enterPending crypto.hashes conn g.peer s)
    | _, _ => none
  | .pickUp conn =>
    match s.phase conn with
    | .waiting (.answered host) =>
      some
        { s with
          phase := Function.update s.phase conn (.authenticated host)
          log := .received conn host :: s.log }
    | _ => none
  | .giveUp conn =>
    match s.phase conn with
    | .waiting _ => some { s with phase := Function.update s.phase conn .abandoned }
    | _ => none
  | .leavePending conn =>
    match s.phase conn, s.greeting conn with
    | .abandoned, some g => some (leavePending conn g.peer.publicKey s)
    | _, _ => none
  | .approveStart request fingerprintHex displayName =>
    match s.approval request with
    | .idle =>
      match s.pending.entryForFingerprint fingerprintHex with
      | some e =>
        some
          { s with
            approval := Function.update s.approval request (.found ⟨fingerprintHex, displayName, e⟩)
            log := .started request e :: s.log }
      | none =>
        some
          { s with
            approval := Function.update s.approval request (.replied .notFound)
            log := .replied request .notFound :: s.log }
    | _ => none
  | .approve request a =>
    (proceed request s.file a (s.approval request)).map fun (approval, file, events) =>
      { s with
        file
        approval := Function.update s.approval request approval
        log := events ++ s.log }
  | .approveHand request =>
    match s.approval request with
    | .ready job host => some (hand request job host s)
    | _ => none
  | .sign key payload => some { s with log := .signed key payload :: s.log }
  | .others file tokens => some { s with file, tokens }

/-! ## What the tasks do -/

/-- The key is stored for the host. -/
def KeyStored (config : HostsConfig) (hostId pubkeyB64 : String) : Prop :=
  ∃ h ∈ config.hosts, h.id = hostId ∧ h.publicKey = some pubkeyB64

theorem keyStored_modifyHost {config : HostsConfig} {hostId pubkeyB64 : String} {h : HostEntry}
    (hh : findById config hostId = some h) :
    KeyStored (modifyHost config hostId fun h => { h with publicKey := some pubkeyB64 }) hostId
      pubkeyB64 := by
  obtain ⟨hosts⟩ := config
  induction hosts with
  | nil => cases hh
  | cons a as ih =>
    unfold KeyStored
    rw [modifyHost_cons]
    by_cases ha : a.id = hostId
    · rw [if_pos ha]
      exact ⟨_, List.mem_cons_self, ha, rfl⟩
    · have hrest : findById ⟨as⟩ hostId = some h := by
        simpa [findById, List.find?_cons, ha] using hh
      obtain ⟨b, hb, hid, hkey⟩ := ih hrest
      rw [if_neg ha]
      exact ⟨b, List.mem_cons_of_mem a hb, hid, hkey⟩

/-- What is going to be saved has the key at the host that comes back. -/
theorem keyStored_hostPlan {draw : Draw} {existing : Option HostEntry}
    {hostname pubkeyB64 : String} {isLocal : Bool} {displayName osId : Option String}
    {config config' : HostsConfig} {host : HostEntry} {failed : Except HostsError HostEntry}
    (h : hostPlan draw existing hostname pubkeyB64 isLocal displayName osId config =
      .write config' (.ok host) failed) :
    KeyStored config' host.id pubkeyB64 ∧ ∀ e ∈ existing, host.id = e.id := by
  rcases existing with _ | e
  · cases h
    exact ⟨⟨_, List.mem_append_right _ List.mem_cons_self, rfl, rfl⟩, by simp⟩
  · change replacePubkey e.id pubkeyB64 config = _ at h
    rcases hfind : findById config e.id with _ | host'
    · rw [replacePubkey_of_none hfind] at h
      cases h
    · have hid : host'.id = e.id := by simpa using List.find?_some hfind
      rw [replacePubkey_of_some pubkeyB64 hfind] at h
      cases h
      rw [show host'.id = e.id from hid]
      refine ⟨keyStored_modifyHost hfind, fun e' he' => ?_⟩
      cases he'
      rfl

/-- Dropping a sender changes nothing but the channel of a waiting connection. -/
theorem hangUp_cases (e : Option PendingEntry) (phase : ℕ → Phase) (conn : ℕ) :
    hangUp e phase conn = phase conn ∨
      phase conn = .waiting .awaiting ∧ hangUp e phase conn = .waiting .dropped := by
  unfold hangUp
  rcases e with _ | e
  · exact .inl rfl
  · dsimp only
    split_ifs with hw
    · by_cases h : conn = e.approveTx
      · subst h
        exact .inr ⟨hw, Function.update_self ..⟩
      · exact .inl (Function.update_of_ne h ..)
    · exact .inl rfl

/-- A signature was verified on the connection, which is not over. -/
def Phase.isProven : Phase → Bool
  | absent | challenged | closed => false
  | _ => true

/-- Waiting for an administrator, or on the way out of that. -/
def Phase.isPending : Phase → Bool
  | waiting _ | abandoned => true
  | _ => false

/-- The events of a connection that does not wait for an administrator. -/
def Event.isPrivate : Event → Bool
  | verified .. | looked .. | wrote (.conn _) .. | registered .. => true
  | _ => false

section

variable {crypto : Crypto} {gatewayId : String} {conn : ℕ} {g : Greeting} {shared shared' : Shared}
  {a : ConnAction} {p p' : Phase} {evs : List Event}

theorem takeToken_moves (crypto : Crypto) (g : Greeting) (now : ℕ) (existing : Option HostEntry)
    (tokens : BootstrapRegistry) :
    (takeToken crypto.hashes now g existing tokens).1 ≠ .absent ∧
      (takeToken crypto.hashes now g existing tokens).1.isPending = false := by
  unfold takeToken
  split
  · exact ⟨nofun, rfl⟩
  · split <;> exact ⟨nofun, rfl⟩
  · split <;> exact ⟨nofun, rfl⟩
  · split_ifs <;> exact ⟨nofun, rfl⟩

/-- What a connection does on its own, with what it finds. -/
inductive Advances (crypto : Crypto) (gatewayId : String) (conn : ℕ) (g : Greeting)
    (shared : Shared) : ConnAction → Phase → Phase → Shared → List Event → Prop
  | verified {sigB64 : String}
      (hverify : crypto.verifySignature g.peer.publicKey sigB64 g.nonce g.peer.hostname gatewayId) :
      Advances crypto gatewayId conn g shared (.respond sigB64) .challenged .verified shared
        [.verified conn g.peer.publicKey
          (buildChallengePayload g.nonce g.peer.hostname gatewayId)]
  | refused {sigB64 : String}
      (hverify : ¬ crypto.verifySignature g.peer.publicKey sigB64 g.nonce g.peer.hostname
        gatewayId) :
      Advances crypto gatewayId conn g shared (.respond sigB64) .challenged .closed shared []
  | keyKnown {host : HostEntry}
      (hfind : findByPubkey (load shared.file) g.peer.publicKey = some host) :
      Advances crypto gatewayId conn g shared .lookKey .verified (.authenticated host) shared
        [.looked conn (load shared.file)]
  | keyUnknown (hfind : findByPubkey (load shared.file) g.peer.publicKey = none) :
      Advances crypto gatewayId conn g shared .lookKey .verified .keyUnknown shared
        [.looked conn (load shared.file)]
  | hostLooked :
      Advances crypto gatewayId conn g shared .lookHost .keyUnknown
        (.hostLooked (findByHostname (load shared.file) g.peer.hostname)) shared []
  | tookToken {now : ℕ} {existing : Option HostEntry} :
      Advances crypto gatewayId conn g shared (.takeToken now) (.hostLooked existing)
        (takeToken crypto.hashes now g existing shared.tokens).1
        { shared with tokens := (takeToken crypto.hashes now g existing shared.tokens).2 } []
  | planned {draw : Draw} {existing : Option HostEntry} {isLocal : Bool} {config : HostsConfig}
      {host : HostEntry} {failed : Except HostsError HostEntry}
      (hplan : hostPlan draw existing g.peer.hostname g.peer.publicKey isLocal none g.peer.osId
        (load shared.file) = .write config (.ok host) failed) :
      Advances crypto gatewayId conn g shared (.load draw) (.enrolling existing isLocal)
        (.saving existing host config) shared []
  | notPlanned {draw : Draw} {existing : Option HostEntry} {isLocal : Bool} :
      Advances crypto gatewayId conn g shared (.load draw) (.enrolling existing isLocal) .closed
        shared []
  | enrolled {host : HostEntry} {config : HostsConfig} :
      Advances crypto gatewayId conn g shared (.save .done) (.saving none host config)
        (.authenticated host) { shared with file := written .done config shared.file }
        [.wrote (.conn conn) .done shared.file (written .done config shared.file)]
  | replaced {existing host : HostEntry} {config : HostsConfig} :
      Advances crypto gatewayId conn g shared (.save .done) (.saving (some existing) host config)
        (.kicking existing host) { shared with file := written .done config shared.file }
        [.wrote (.conn conn) .done shared.file (written .done config shared.file)]
  | notSaved {out : WriteOutcome} {existing : Option HostEntry} {host : HostEntry}
      {config : HostsConfig} (hout : out ≠ .done) :
      Advances crypto gatewayId conn g shared (.save out) (.saving existing host config) .closed
        { shared with file := written out config shared.file }
        [.wrote (.conn conn) out shared.file (written out config shared.file)]
  | kicked {existing host : HostEntry} :
      Advances crypto gatewayId conn g shared .kick (.kicking existing host) (.authenticated host)
        { shared with registry := shared.registry.unregister existing.id } []
  | registered {host : HostEntry} :
      Advances crypto gatewayId conn g shared .register (.authenticated host) (.running host)
        { shared with registry := shared.registry.register host.id conn g.peer.remoteIp }
        [.registered host.id conn]
  | unregistered {host : HostEntry} :
      Advances crypto gatewayId conn g shared .unregister (.running host) .closed
        { shared with registry := shared.registry.unregister host.id } []
  | disconnected {p : Phase}
      (hp : p = .challenged ∨ (∃ reason, p = .deferred reason) ∨ ∃ host, p = .authenticated host) :
      Advances crypto gatewayId conn g shared .disconnect p .closed shared []

theorem advances_of_advance
    (h : advance crypto gatewayId conn g shared a p = some (p', shared', evs)) :
    Advances crypto gatewayId conn g shared a p p' shared' evs := by
  unfold advance at h
  split at h
  · split_ifs at h with hverify
    · cases h
      exact .verified hverify
    · cases h
      exact .refused hverify
  · dsimp only at h
    split at h
    · rename_i host hfind
      cases h
      exact .keyKnown hfind
    · rename_i hfind
      cases h
      exact .keyUnknown hfind
  · cases h
    exact .hostLooked
  · cases h
    exact .tookToken
  · split at h
    · rename_i config host failed hplan
      cases h
      exact .planned hplan
    · cases h
      exact .notPlanned
  · rename_i out existing host config
    cases h
    cases out with
    | done =>
      cases existing with
      | none => exact .enrolled
      | some existing => exact .replaced
    | refused | interrupted => cases existing <;> exact .notSaved (by decide)
  · cases h
    exact .kicked
  · cases h
    exact .registered
  · cases h
    exact .unregistered
  · cases h
    exact .disconnected (.inl rfl)
  · cases h
    exact .disconnected (.inr (.inl ⟨_, rfl⟩))
  · cases h
    exact .disconnected (.inr (.inr ⟨_, rfl⟩))
  · cases h

/-- A step of a connection on its own: it does not wait for an administrator before or after, and
has only come so far by a signature. -/
theorem advance_moves (h : advance crypto gatewayId conn g shared a p = some (p', shared', evs)) :
    p.isPending = false ∧ p' ≠ .absent ∧ p'.isPending = false ∧
      (p.isProven = false → p'.isProven → (crypto.keyBytes g.peer.publicKey).isSome) ∧
      ∀ e ∈ evs, e.isPrivate := by
  cases advances_of_advance h with
  | verified hverify =>
    refine ⟨rfl, by simp, rfl, fun _ _ => ?_, by simp [Event.isPrivate]⟩
    exact Crypto.isSome_keyBytes_of_verifySignature hverify
  | refused => exact ⟨rfl, by simp, rfl, by simp [Phase.isProven], by simp⟩
  | tookToken =>
    obtain ⟨habsent, hpending⟩ := takeToken_moves crypto g _ _ shared.tokens
    exact ⟨rfl, habsent, hpending, by simp [Phase.isProven], by simp⟩
  | disconnected hp =>
    have hpending : p.isPending = false := by
      rcases hp with rfl | ⟨reason, rfl⟩ | ⟨host, rfl⟩ <;> rfl
    exact ⟨hpending, by simp, rfl, by simp [Phase.isProven], by simp⟩
  | _ => exact ⟨rfl, by simp, rfl, by simp [Phase.isProven], by simp [Event.isPrivate]⟩

end

section

variable {request : ℕ} {file file' : HostsFile} {a : ApproveAction} {q q' : Approval}
  {evs : List Event}

/-- What a request does on its own, with what it finds. -/
inductive Proceeds (request : ℕ) (file : HostsFile) :
    ApproveAction → Approval → Approval → HostsFile → List Event → Prop
  | looked {job : Job} :
      Proceeds request file .find (.found job)
        (.checked job (findByHostname (load file) job.entry.hostname)) file []
  | planned {draw : Draw} {job : Job} {existing : Option HostEntry} {config : HostsConfig}
      {host : HostEntry} {failed : Except HostsError HostEntry}
      (hplan : hostPlan draw existing job.entry.hostname job.entry.pubkeyB64
        (isLoopback job.entry.remoteIp) job.displayName job.entry.osId (load file) =
          .write config (.ok host) failed) :
      Proceeds request file (.load draw) (.checked job existing)
        (.saving job existing host config) file []
  | notPlanned {draw : Draw} {job : Job} {existing : Option HostEntry} :
      Proceeds request file (.load draw) (.checked job existing) (.replied .registrationFailed)
        file [.replied request .registrationFailed]
  | saved {job : Job} {existing : Option HostEntry} {host : HostEntry} {config : HostsConfig} :
      Proceeds request file (.save .done) (.saving job existing host config)
        (if existing.isSome ∧ job.displayName.isSome then
          .naming job { host with displayName := job.displayName }
        else .ready job host)
        (written .done config file)
        [.wrote (.request request) .done file (written .done config file)]
  | notSaved {out : WriteOutcome} {job : Job} {existing : Option HostEntry} {host : HostEntry}
      {config : HostsConfig} (hout : out ≠ .done) :
      Proceeds request file (.save out) (.saving job existing host config)
        (.replied .registrationFailed) (written out config file)
        [.replied request .registrationFailed,
          .wrote (.request request) out file (written out config file)]
  | nameLoaded {job : Job} {host : HostEntry} {config : HostsConfig}
      {ok failed : Except HostsError Unit}
      (hplan : saveDisplayName host.id host.displayName (load file) = .write config ok failed) :
      Proceeds request file .nameLoad (.naming job host) (.nameSaving job host config) file []
  | nameKept {job : Job} {host : HostEntry} :
      Proceeds request file .nameLoad (.naming job host) (.ready job host) file []
  | named {out : WriteOutcome} {job : Job} {host : HostEntry} {config : HostsConfig} :
      Proceeds request file (.nameSave out) (.nameSaving job host config) (.ready job host)
        (written out config file) [.named request out file (written out config file)]

theorem proceeds_of_proceed (h : proceed request file a q = some (q', file', evs)) :
    Proceeds request file a q q' file' evs := by
  unfold proceed at h
  split at h
  · cases h
    exact .looked
  · split at h
    · rename_i config host failed hplan
      cases h
      exact .planned hplan
    · cases h
      exact .notPlanned
  · dsimp only at h
    split at h
    · cases h
      exact .saved
    all_goals
      cases h
      exact .notSaved (by decide)
  · split at h
    · rename_i config ok failed hplan
      cases h
      exact .nameLoaded hplan
    · cases h
      exact .nameKept
  · cases h
    exact .named
  · cases h

end

/-! ## Entries and their connections -/

/-- The entry is that of a connection whose signature was verified under the key. -/
def EntryOf (crypto : Crypto) (greeting : ℕ → Option Greeting) (key : String) (e : PendingEntry) :
    Prop :=
  e.pubkeyB64 = key ∧ e.fingerprintHex = crypto.hashes.pubkeyFingerprintHex key ∧
    (crypto.keyBytes key).isSome ∧ ∃ g, greeting e.approveTx = some g ∧ g.peer.publicKey = key

/-- Connections have shown their keys before they get anywhere, and the pending registry has its
entries under these keys. -/
structure Keyed (crypto : Crypto) (s : State) : Prop where
  absent : ∀ conn, s.phase conn = .absent → s.greeting conn = none
  proven : ∀ conn, (s.phase conn).isProven →
    ∃ g, s.greeting conn = some g ∧ (crypto.keyBytes g.peer.publicKey).isSome
  pending : ∀ key e, s.pending.lookup key = some e → EntryOf crypto s.greeting key e

section

variable {crypto : Crypto} {gatewayId : String} {s t : State} {a : Action} {conn : ℕ}
  {g : Greeting}

theorem keyed_init (file : HostsFile) : Keyed crypto (.init file) where
  absent _ _ := rfl
  proven _ h := by cases h
  pending _ _ h := by cases h

/-- Steps that keep the greetings. -/
theorem Keyed.of_moves (hs : Keyed crypto s) (hgreeting : t.greeting = s.greeting)
    (hphase : ∀ c, t.phase c = s.phase c ∨ t.phase c ≠ .absent ∧ ((t.phase c).isProven →
      ∃ g, s.greeting c = some g ∧ (crypto.keyBytes g.peer.publicKey).isSome))
    (hpending : ∀ key e, t.pending.lookup key = some e →
      s.pending.lookup key = some e ∨ EntryOf crypto s.greeting key e) : Keyed crypto t := by
  refine ⟨fun c hc => ?_, fun c hc => ?_, fun key e he => ?_⟩
  · rw [hgreeting]
    rcases hphase c with heq | ⟨hne, -⟩
    · exact hs.absent c (heq ▸ hc)
    · exact absurd hc hne
  · rw [hgreeting]
    rcases hphase c with heq | ⟨-, hproven⟩
    · exact hs.proven c (heq ▸ hc)
    · exact hproven hc
  · rw [hgreeting]
    rcases hpending key e he with hold | hnew
    · exact hs.pending key e hold
    · exact hnew

/-- The phases after one connection has moved on and the sender of another one may be gone. -/
theorem Keyed.moved (hs : Keyed crypto s) (e : Option PendingEntry) {p : Phase}
    (habsent : p ≠ .absent) (hproven : p.isProven →
      ∃ g, s.greeting conn = some g ∧ (crypto.keyBytes g.peer.publicKey).isSome) (c : ℕ) :
    Function.update (hangUp e s.phase) conn p c = s.phase c ∨
      Function.update (hangUp e s.phase) conn p c ≠ .absent ∧
        ((Function.update (hangUp e s.phase) conn p c).isProven →
          ∃ g, s.greeting c = some g ∧ (crypto.keyBytes g.peer.publicKey).isSome) := by
  by_cases h : c = conn
  · subst h
    rw [Function.update_self]
    exact .inr ⟨habsent, hproven⟩
  · rw [Function.update_of_ne h]
    rcases hangUp_cases e s.phase c with heq | ⟨hwaiting, hdropped⟩
    · exact .inl heq
    · rw [hdropped]
      exact .inr ⟨nofun, fun _ => hs.proven c (by rw [hwaiting]; rfl)⟩

/-- A Hello ends the connection or starts its challenge. -/
theorem greet_cases (h : Hello) (remoteIp : String) (nonce : Nonce) (s : State) :
    greet conn h remoteIp nonce s = { s with phase := Function.update s.phase conn .closed } ∨
      ∃ g, g.nonce = nonce ∧ greet conn h remoteIp nonce s =
        { s with
          greeting := Function.update s.greeting conn (some g)
          phase := Function.update s.phase conn .challenged
          log := .challenged conn nonce :: s.log } := by
  unfold greet
  split
  · split_ifs
    · exact .inl rfl
    · exact .inr ⟨_, rfl, rfl⟩
  · exact .inl rfl

theorem keyed_greet {h : Hello} {remoteIp : String} {nonce : Nonce} (hs : Keyed crypto s)
    (habsent : s.phase conn = .absent) : Keyed crypto (greet conn h remoteIp nonce s) := by
  rcases greet_cases h remoteIp nonce s with hclosed | ⟨g, -, hchallenged⟩
  · rw [hclosed]
    exact hs.of_moves rfl (hs.moved none nofun nofun) fun _ _ he => .inl he
  · rw [hchallenged]
    refine ⟨fun c hc => ?_, fun c hc => ?_, fun key e he => ?_⟩
    · dsimp only at hc ⊢
      by_cases heq : c = conn
      · subst heq
        rw [Function.update_self] at hc
        cases hc
      · rw [Function.update_of_ne heq] at hc ⊢
        exact hs.absent c hc
    · dsimp only at hc ⊢
      by_cases heq : c = conn
      · subst heq
        rw [Function.update_self] at hc
        cases hc
      · rw [Function.update_of_ne heq] at hc ⊢
        exact hs.proven c hc
    · obtain ⟨hkey, hprint, hbytes, g', hg', hpeer⟩ := hs.pending key e he
      have hne : e.approveTx ≠ conn := by
        rintro rfl
        rw [hs.absent _ habsent] at hg'
        cases hg'
      refine ⟨hkey, hprint, hbytes, g', ?_, hpeer⟩
      exact (Function.update_of_ne hne ..).trans hg'

theorem keyed_enterPending (hs : Keyed crypto s) (hg : s.greeting conn = some g)
    (hproven : (s.phase conn).isProven) :
    Keyed crypto (enterPending crypto.hashes conn g.peer s) := by
  obtain ⟨g', hg', hbytes⟩ := hs.proven conn hproven
  cases hg.symm.trans hg'
  unfold enterPending
  split
  · rename_i pending hadd
    refine hs.of_moves rfl (hs.moved _ nofun fun _ => ⟨g, hg, hbytes⟩) fun key e he => ?_
    rw [PendingRegistry.eq_insert_of_add hadd] at he
    rcases AList.lookup_insert_eq_some_iff.1 he with ⟨rfl, rfl⟩ | ⟨-, hold⟩
    · exact .inr ⟨rfl, rfl, hbytes, g, hg, rfl⟩
    · exact .inl hold
  · exact hs.of_moves rfl (hs.moved none nofun nofun) fun _ _ he => .inl he

theorem keyed_leavePending (hs : Keyed crypto s) (pubkeyB64 : String) :
    Keyed crypto (leavePending conn pubkeyB64 s) := by
  refine hs.of_moves rfl (hs.moved _ nofun nofun) fun key e he => .inl ?_
  exact (AList.lookup_erase_eq_some_iff.1 he).2

/-- What an approval takes out of the registry. -/
theorem approve_cases (hs : Keyed crypto s) (fingerprintHex : String) :
    s.pending.approve fingerprintHex = (none, s.pending) ∧
        s.pending.entryForFingerprint fingerprintHex = none ∨
      ∃ e, s.pending.approve fingerprintHex = (some e, s.pending.erase e.pubkeyB64) ∧
        s.pending.lookup e.pubkeyB64 = some e ∧ e.fingerprintHex = fingerprintHex := by
  unfold PendingRegistry.approve
  rcases hfind : s.pending.entryForFingerprint fingerprintHex with _ | e
  · exact .inl ⟨rfl, rfl⟩
  · obtain ⟨⟨key, hkey⟩, hprint⟩ := PendingRegistry.of_entryForFingerprint hfind
    obtain ⟨rfl, -⟩ := hs.pending key e hkey
    exact .inr ⟨e, by dsimp only; rw [hkey], hkey, hprint⟩

theorem keyed_hand {request : ℕ} {job : Job} {host : HostEntry} (hs : Keyed crypto s) :
    Keyed crypto (hand request job host s) := by
  unfold hand
  rcases approve_cases hs job.fingerprintHex with ⟨happrove, -⟩ | ⟨e, happrove, hlookup, -⟩
  · rw [happrove]
    exact hs.of_moves rfl (fun _ => .inl rfl) fun _ _ he => .inl he
  · rw [happrove]
    have herase (key : String) (e' : PendingEntry)
        (he : (s.pending.erase e.pubkeyB64).lookup key = some e') :
        s.pending.lookup key = some e' ∨ EntryOf crypto s.greeting key e' :=
      .inl (AList.lookup_erase_eq_some_iff.1 he).2
    dsimp only
    split_ifs with hwaiting
    · have hproven := hs.proven e.approveTx (by rw [hwaiting]; rfl)
      exact hs.of_moves rfl (hs.moved none nofun fun _ => hproven) herase
    · exact hs.of_moves rfl (fun _ => .inl rfl) herase

/-- What a step does, with what it finds. -/
inductive Steps (crypto : Crypto) (gatewayId : String) (s : State) : Action → State → Prop
  | hello {conn : ℕ} {h : Hello} {remoteIp : String} {nonce : Nonce}
      (habsent : s.phase conn = .absent) :
      Steps crypto gatewayId s (.hello conn h remoteIp nonce) (greet conn h remoteIp nonce s)
  | conn {conn : ℕ} {a : ConnAction} {g : Greeting} {p : Phase} {shared : Shared}
      {evs : List Event} (hg : s.greeting conn = some g)
      (hadvance : advance crypto gatewayId conn g s.toShared a (s.phase conn) =
        some (p, shared, evs)) :
      Steps crypto gatewayId s (.conn conn a)
        { s with
          toShared := shared
          phase := Function.update s.phase conn p
          log := evs ++ s.log }
  | enterPending {conn : ℕ} {reason : String} {g : Greeting}
      (hphase : s.phase conn = .deferred reason) (hg : s.greeting conn = some g) :
      Steps crypto gatewayId s (.enterPending conn) (enterPending crypto.hashes conn g.peer s)
  | pickUp {conn : ℕ} {host : HostEntry} (hphase : s.phase conn = .waiting (.answered host)) :
      Steps crypto gatewayId s (.pickUp conn)
        { s with
          phase := Function.update s.phase conn (.authenticated host)
          log := .received conn host :: s.log }
  | giveUp {conn : ℕ} {channel : Channel} (hphase : s.phase conn = .waiting channel) :
      Steps crypto gatewayId s (.giveUp conn)
        { s with phase := Function.update s.phase conn .abandoned }
  | leavePending {conn : ℕ} {g : Greeting} (hphase : s.phase conn = .abandoned)
      (hg : s.greeting conn = some g) :
      Steps crypto gatewayId s (.leavePending conn) (leavePending conn g.peer.publicKey s)
  | approveFound {request : ℕ} {fingerprintHex : String} {displayName : Option String}
      {e : PendingEntry} (hidle : s.approval request = .idle)
      (hfind : s.pending.entryForFingerprint fingerprintHex = some e) :
      Steps crypto gatewayId s (.approveStart request fingerprintHex displayName)
        { s with
          approval := Function.update s.approval request (.found ⟨fingerprintHex, displayName, e⟩)
          log := .started request e :: s.log }
  | approveNotFound {request : ℕ} {fingerprintHex : String} {displayName : Option String}
      (hidle : s.approval request = .idle)
      (hfind : s.pending.entryForFingerprint fingerprintHex = none) :
      Steps crypto gatewayId s (.approveStart request fingerprintHex displayName)
        { s with
          approval := Function.update s.approval request (.replied .notFound)
          log := .replied request .notFound :: s.log }
  | approve {request : ℕ} {a : ApproveAction} {q : Approval} {file : HostsFile}
      {evs : List Event}
      (hproceed : proceed request s.file a (s.approval request) = some (q, file, evs)) :
      Steps crypto gatewayId s (.approve request a)
        { s with
          file
          approval := Function.update s.approval request q
          log := evs ++ s.log }
  | approveHand {request : ℕ} {job : Job} {host : HostEntry}
      (hready : s.approval request = .ready job host) :
      Steps crypto gatewayId s (.approveHand request) (hand request job host s)
  | sign {key payload : List UInt8} :
      Steps crypto gatewayId s (.sign key payload) { s with log := .signed key payload :: s.log }
  | others {file : HostsFile} {tokens : BootstrapRegistry} :
      Steps crypto gatewayId s (.others file tokens) { s with file, tokens }

theorem steps_of_step (h : step crypto gatewayId s a = some t) : Steps crypto gatewayId s a t := by
  cases a with
  | hello conn hello remoteIp nonce =>
    simp only [step] at h
    split_ifs at h with habsent
    cases h
    exact .hello habsent
  | conn conn a =>
    simp only [step] at h
    split at h
    · rename_i g hg
      obtain ⟨⟨p, shared, evs⟩, hadvance, rfl⟩ := Option.map_eq_some_iff.1 h
      exact .conn hg hadvance
    · cases h
  | enterPending conn =>
    simp only [step] at h
    split at h
    · rename_i reason g hphase hg
      cases h
      exact .enterPending hphase hg
    · cases h
  | pickUp conn =>
    simp only [step] at h
    split at h
    · rename_i host hphase
      cases h
      exact .pickUp hphase
    · cases h
  | giveUp conn =>
    simp only [step] at h
    split at h
    · rename_i channel hphase
      cases h
      exact .giveUp hphase
    · cases h
  | leavePending conn =>
    simp only [step] at h
    split at h
    · rename_i g hphase hg
      cases h
      exact .leavePending hphase hg
    · cases h
  | approveStart request fingerprintHex displayName =>
    simp only [step] at h
    split at h
    · rename_i hidle
      split at h
      · rename_i e hfind
        cases h
        exact .approveFound hidle hfind
      · rename_i hfind
        cases h
        exact .approveNotFound hidle hfind
    · cases h
  | approve request a =>
    obtain ⟨⟨q, file, evs⟩, hproceed, rfl⟩ := Option.map_eq_some_iff.1 h
    exact .approve hproceed
  | approveHand request =>
    simp only [step] at h
    split at h
    · rename_i job host hready
      cases h
      exact .approveHand hready
    · cases h
  | sign key payload =>
    cases h
    exact .sign
  | others file tokens =>
    cases h
    exact .others

theorem keyed_step (hs : Keyed crypto s) (h : step crypto gatewayId s a = some t) :
    Keyed crypto t := by
  cases steps_of_step h with
  | hello habsent => exact keyed_greet hs habsent
  | @conn conn a g p shared evs hg hadvance =>
    obtain ⟨-, hne, -, hbytes, -⟩ := advance_moves hadvance
    refine hs.of_moves rfl (hs.moved none hne fun hp => ?_) fun _ _ he => .inl he
    by_cases hold : (s.phase conn).isProven
    · exact hs.proven conn hold
    · exact ⟨g, hg, hbytes (by simpa using hold) hp⟩
  | enterPending hphase hg => exact keyed_enterPending hs hg (by rw [hphase]; rfl)
  | @pickUp conn host hphase =>
    have hproven := hs.proven conn (by rw [hphase]; rfl)
    exact hs.of_moves rfl (hs.moved none (by simp) fun _ => hproven) fun _ _ he => .inl he
  | @giveUp conn channel hphase =>
    have hproven := hs.proven conn (by rw [hphase]; rfl)
    exact hs.of_moves rfl (hs.moved none (by simp) fun _ => hproven) fun _ _ he => .inl he
  | leavePending hphase hg => exact keyed_leavePending hs _
  | approveHand hready => exact keyed_hand hs
  | approveFound | approveNotFound | approve | sign | others =>
    exact hs.of_moves rfl (fun _ => .inl rfl) fun _ _ he => .inl he

end

/-- An agent shows its key and is put into the pending registry. -/
def webWaits (conn : ℕ) (nonce : Nonce) (sigB64 : String) : List Action :=
  [.hello conn ⟨2, "web", false, some webKeyB64, none, none⟩ "203.0.113.7" nonce,
    .conn conn (.respond sigB64), .conn conn .lookKey, .conn conn .lookHost,
    .conn conn (.takeToken 0), .enterPending conn]

end Tenodera.Gateway.Handshake
