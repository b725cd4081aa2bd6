import Mathlib.Logic.Function.Basic
import Tenodera.Gateway.AgentAuth
import Tenodera.Gateway.Identities

/-!
# Enrolment and registration of agents

The control plane of the gateway: how an agent connection is authenticated, enrolled, approved,
registered and cleaned up, next to the requests of administrators.  `resolveAuthPath` and
`pendingApprove` are the two decisions; `step` is the whole system, with any number of connections,
one atomic operation at a time.
-/

namespace Tenodera.Gateway

/-- What an agent states in its Hello. -/
structure Hello where
  version : UInt32
  hostname : String
  isLocal : Bool
  publicKey : Option String
  bootstrapToken : Option String
  osId : Option String
  deriving DecidableEq, Repr

/-- The other end of a connection whose signature was verified. -/
structure Peer where
  hostname : String
  publicKey : String
  osId : Option String
  remoteIp : String
  deriving DecidableEq, Repr

/-- An entry of the registry of connected agents: the connection that owns its queues. -/
structure AgentConn where
  conn : ℕ
  remoteIp : Option String
  deriving DecidableEq, Repr

/-- The connected agents by host id. -/
abbrev AgentRegistry : Type := AList fun _ : String => AgentConn

namespace AgentRegistry

def register (hostId : String) (conn : ℕ) (remoteIp : String) (registry : AgentRegistry) :
    AgentRegistry :=
  registry.insert hostId ⟨conn, some remoteIp⟩

def unregister (hostId : String) (registry : AgentRegistry) : AgentRegistry :=
  registry.erase hostId

end AgentRegistry

theorem lookup_register_self (registry : AgentRegistry) (hostId : String) (conn : ℕ)
    (remoteIp : String) :
    (registry.register hostId conn remoteIp).lookup hostId = some ⟨conn, some remoteIp⟩ :=
  AList.lookup_insert registry

theorem lookup_register_of_ne (registry : AgentRegistry) {hostId hostId' : String} (conn : ℕ)
    (remoteIp : String) (h : hostId' ≠ hostId) :
    (registry.register hostId conn remoteIp).lookup hostId' = registry.lookup hostId' :=
  AList.lookup_insert_ne h

theorem lookup_unregister_self (registry : AgentRegistry) (hostId : String) :
    (registry.unregister hostId).lookup hostId = none :=
  AList.lookup_erase hostId registry

theorem lookup_unregister_of_ne (registry : AgentRegistry) {hostId hostId' : String}
    (h : hostId' ≠ hostId) :
    (registry.unregister hostId).lookup hostId' = registry.lookup hostId' :=
  AList.lookup_erase_ne h

theorem of_lookup_unregister {registry : AgentRegistry} {hostId hostId' : String} {a : AgentConn}
    (h : (registry.unregister hostId).lookup hostId' = some a) :
    hostId' ≠ hostId ∧ registry.lookup hostId' = some a := by
  by_cases heq : hostId' = hostId
  · rw [heq, lookup_unregister_self] at h
    cases h
  · exact ⟨heq, by rwa [lookup_unregister_of_ne _ heq] at h⟩

/-- A uuid and a time stamp taken by an operation. -/
structure Draw where
  uuid : String
  now : String
  deriving DecidableEq, Repr

/-- `matches!(remote_ip, "127.0.0.1" | "::1")`. -/
def isLoopback (remoteIp : String) : Bool := remoteIp = "127.0.0.1" || remoteIp = "::1"

namespace Enrollment

/-- What has happened to the registration of a host, apart from clean-ups. -/
inductive Event
  | registered (hostId : String) (conn : ℕ)
  | kicked (hostId : String)
  deriving DecidableEq, Repr

/-- The stores that authentication works on.  `history` is not part of the gateway: it records the
registrations and kicks, latest first. -/
structure Stores where
  file : HostsFile
  registry : AgentRegistry
  tokens : BootstrapRegistry
  history : List Event

/-! ## Authentication -/

inductive AuthPath
  | authenticated (host : HostEntry)
  | pending (reason : String)
  | reject
  deriving DecidableEq, Repr

section

variable (hashes : Hashes) (now : ℕ) (draw : Draw) (saved : Bool)

/-- `register_host` as a path of authentication. -/
def enrol (peer : Peer) (isLocal : Bool) (s : Stores) : AuthPath × Stores :=
  match commit (registerHost draw.uuid draw.now peer.hostname peer.publicKey isLocal none peer.osId)
      (.ofSaved saved) s.file with
  | (.ok host, file) => (.authenticated host, { s with file })
  | (.error _, file) => (.reject, { s with file })

/-- The re-enrolment path: the key of `existing` is replaced and its connection kicked. -/
def reEnrol (peer : Peer) (existing : HostEntry) (s : Stores) : AuthPath × Stores :=
  match commit (replacePubkey existing.id peer.publicKey) (.ofSaved saved) s.file with
  | (.ok updated, file) =>
    (.authenticated updated,
      { s with
        file
        registry := s.registry.unregister existing.id
        history := .kicked existing.id :: s.history })
  | (.error _, file) => (.reject, { s with file })

def resolveAuthPath (peer : Peer) (bootstrapToken : Option String) (isLocal : Bool) (s : Stores) :
    AuthPath × Stores :=
  match findByPubkey (load s.file) peer.publicKey with
  -- path 1: a known key
  | some host => (.authenticated host, s)
  | none =>
    match findByHostname (load s.file) peer.hostname with
    -- path 2: a known hostname with another key
    | some existing =>
      match bootstrapToken with
      | none => (.reject, s)
      | some tokenVal =>
        match BootstrapRegistry.validateAndConsume hashes now tokenVal peer.hostname s.tokens with
        | (some true, tokens) => reEnrol saved peer existing { s with tokens }
        | (some false, tokens) | (none, tokens) => (.reject, { s with tokens })
    | none =>
      match bootstrapToken with
      -- path 3: a new host with a token
      | some tokenVal =>
        match BootstrapRegistry.validateAndConsume hashes now tokenVal peer.hostname s.tokens with
        | (some _, tokens) => enrol draw saved peer isLocal { s with tokens }
        | (none, tokens) => (.pending "token_invalid", { s with tokens })
      -- path 3b: from this machine, otherwise path 4
      | none =>
        if isLoopback peer.remoteIp then enrol draw saved peer true s
        else (.pending "enrollment_required", s)

end

/-! ## The system -/

/-- How far `handle_agent_socket` has come with a connection. -/
inductive Phase
  /-- No connection, or its task has returned. -/
  | closed
  /-- To be told that it is pending, and to be put into the pending registry. -/
  | deferred (reason : String)
  /-- Waiting for the administrator, whose answer may be on its way. -/
  | waiting (answer : Option HostEntry)
  /-- Gave up waiting; still to be taken out of the pending registry. -/
  | abandoned
  | authenticated (host : HostEntry)
  /-- The os id is filled in; HelloAck and the registration follow. -/
  | admitted (host : HostEntry)
  | running (host : HostEntry)
  /-- The reader loop has ended and `last_seen` is written; still to be unregistered. -/
  | leaving (host : HostEntry)
  deriving DecidableEq, Repr

/-- In the reader loop, as a connection of that host. -/
def Phase.runsFor (hostId : String) : Phase → Bool
  | running host => host.id = hostId
  | _ => false

structure State extends Stores where
  pending : PendingRegistry
  peers : ℕ → Option Peer
  phase : ℕ → Phase
  now : ℕ

/-- The gateway after its start. -/
def State.init (file : HostsFile) : State where
  file := file
  registry := ∅
  tokens := ∅
  history := []
  pending := ∅
  peers _ := none
  phase _ := .closed
  now := 0

inductive Action
  | hello (conn : ℕ) (hello : Hello) (remoteIp : String) (verified : Bool) (draw : Draw)
      (saved : Bool)
  | enterPending (conn : ℕ)
  | pickUp (conn : ℕ)
  | giveUp (conn : ℕ)
  | leavePending (conn : ℕ)
  | fillOsId (conn : ℕ) (saved : Bool)
  | register (conn : ℕ)
  | leave (conn : ℕ) (now : String) (saved : Bool)
  | unregister (conn : ℕ)
  /-- A send to the agent fails before it is registered. -/
  | sendFails (conn : ℕ)
  | approve (fingerprintHex : String) (displayName : Option String) (draw : Draw)
      (saved nameSaved : Bool)
  | hostsRemove (id : String) (saved : Bool)
  | hostsPatch (id : String) (displayName : Option String) (saved : Bool)
  | tokenCreate (ttl : ℕ) (id value : String) (singleUse : Bool) (maxUses : Option UInt32)
      (boundHostname : Option String) (reEnroll : Bool)
  | tokenRevoke (id : String)
  | tokenCleanup
  | tick
  deriving DecidableEq, Repr

namespace State

def setPhase (s : State) (conn : ℕ) (phase : Phase) : State :=
  { s with phase := Function.update s.phase conn phase }

end State

/-- Where a connection goes from the answer of `resolveAuthPath`. -/
def AuthPath.phase : AuthPath → Phase
  | authenticated host => .authenticated host
  | pending reason => .deferred reason
  | reject => .closed

/-- A Hello and its signed answer: versions below 2, a missing key and a bad signature end the
connection. -/
def hello (hashes : Hashes) (conn : ℕ) (hello : Hello) (remoteIp : String) (verified : Bool)
    (draw : Draw) (saved : Bool) (s : State) : State :=
  match hello.publicKey with
  | some publicKey =>
    if hello.version ≥ 2 ∧ verified then
      let peer : Peer := ⟨hello.hostname, publicKey, hello.osId, remoteIp⟩
      let (path, stores) :=
        resolveAuthPath hashes s.now draw saved peer hello.bootstrapToken hello.isLocal s.toStores
      { s with
        toStores := stores
        peers := Function.update s.peers conn (some peer)
        phase := Function.update s.phase conn path.phase }
    else s
  | none => s

inductive ApproveReply
  | notFound
  | registrationFailed
  | approved (hostId : String)
  | alreadyApproved
  deriving DecidableEq, Repr

/-- The host that `pending_approve` enrols or rekeys, and the file it leaves. -/
def approvedHost (draw : Draw) (saved nameSaved : Bool) (displayName : Option String)
    (e : PendingEntry) (file : HostsFile) : Except HostsError HostEntry × HostsFile :=
  match findByHostname (load file) e.hostname with
  | some existing =>
    match commit (replacePubkey existing.id e.pubkeyB64) (.ofSaved saved) file with
    | (.ok updated, file) =>
      if displayName.isSome then
        -- a failure to save the name is logged only
        (.ok { updated with displayName },
          (commit (saveDisplayName updated.id displayName) (.ofSaved nameSaved) file).2)
      else (.ok updated, file)
    | (.error err, file) => (.error err, file)
  | none =>
    commit (registerHost draw.uuid draw.now e.hostname e.pubkeyB64 (isLoopback e.remoteIp)
      displayName e.osId) (.ofSaved saved) file

/-- `POST /api/pending/{fingerprint}/approve`, past the check for an administrator. -/
def pendingApprove (fingerprintHex : String) (displayName : Option String) (draw : Draw)
    (saved nameSaved : Bool) (s : State) : ApproveReply × State :=
  match s.pending.entryForFingerprint fingerprintHex with
  | none => (.notFound, s)
  | some e =>
    match approvedHost draw saved nameSaved displayName e s.file with
    | (.error _, file) => (.registrationFailed, { s with file })
    | (.ok host, file) =>
      let (taken, pending) := s.pending.approve fingerprintHex
      let s := { s with file, pending }
      match taken with
      | none => (.alreadyApproved, s)
      | some e =>
        if s.phase e.approveTx = .waiting none then
          (.approved host.id, s.setPhase e.approveTx (.waiting (some host)))
        else (.alreadyApproved, s)

/-- One atomic operation of a connection or of an administrator; `none` when the connection is not
at that point.  A drawn uuid is one that is not in use. -/
def step (hashes : Hashes) (s : State) : Action → Option State
  | .hello conn h remoteIp verified draw saved =>
    if s.peers conn = none ∧ draw.uuid ∉ (load s.file).hosts.map (·.id) then
      some (hello hashes conn h remoteIp verified draw saved s)
    else none
  | .enterPending conn =>
    match s.phase conn, s.peers conn with
    | .deferred _, some peer =>
      match s.pending.add hashes peer.publicKey peer.hostname peer.remoteIp peer.osId conn with
      | some pending => some { s.setPhase conn (.waiting none) with pending }
      | none => some (s.setPhase conn .closed)
    | _, _ => none
  | .pickUp conn =>
    match s.phase conn with
    | .waiting (some host) => some (s.setPhase conn (.authenticated host))
    | _ => none
  | .giveUp conn =>
    match s.phase conn with
    | .waiting _ => some (s.setPhase conn .abandoned)
    | _ => none
  | .leavePending conn =>
    match s.phase conn, s.peers conn with
    | .abandoned, some peer =>
      some { s.setPhase conn .closed with pending := s.pending.erase peer.publicKey }
    | _, _ => none
  | .fillOsId conn saved =>
    match s.phase conn, s.peers conn with
    | .authenticated host, some peer =>
      let file := match peer.osId with
        | some osId =>
          if host.osId = none then (commit (updateOsId host.id osId) (.ofSaved saved) s.file).2
          else s.file
        | none => s.file
      some { s.setPhase conn (.admitted host) with file }
    | _, _ => none
  | .register conn =>
    match s.phase conn, s.peers conn with
    | .admitted host, some peer =>
      some
        { s.setPhase conn (.running host) with
          registry := s.registry.register host.id conn peer.remoteIp
          history := .registered host.id conn :: s.history }
    | _, _ => none
  | .leave conn now saved =>
    match s.phase conn with
    | .running host =>
      some
        { s.setPhase conn (.leaving host) with
          file := (commit (updateLastSeen host.id now) (.ofSaved saved) s.file).2 }
    | _ => none
  | .unregister conn =>
    match s.phase conn with
    | .leaving host =>
      some { s.setPhase conn .closed with registry := s.registry.unregister host.id }
    | _ => none
  | .sendFails conn =>
    match s.phase conn with
    | .deferred _ | .admitted _ => some (s.setPhase conn .closed)
    | _ => none
  | .approve fingerprintHex displayName draw saved nameSaved =>
    if draw.uuid ∉ (load s.file).hosts.map (·.id) then
      some (pendingApprove fingerprintHex displayName draw saved nameSaved s).2
    else none
  | .hostsRemove id saved =>
    some { s with file := (commit (hostsRemove id) (.ofSaved saved) s.file).2 }
  | .hostsPatch id displayName saved =>
    some { s with file := (commit (hostsPatch id displayName) (.ofSaved saved) s.file).2 }
  | .tokenCreate ttl id value singleUse maxUses boundHostname reEnroll =>
    some
      { s with
        tokens :=
          s.tokens.create hashes s.now ttl id value singleUse maxUses boundHostname reEnroll }
  | .tokenRevoke id => some { s with tokens := s.tokens.revoke id }
  | .tokenCleanup => some { s with tokens := s.tokens.cleanup s.now }
  | .tick => some { s with now := s.now + 1 }

/-! For the concrete runs: hash functions without collisions, and an agent without a token. -/

def plainHashes : Hashes := ⟨fun value => value, fun key => key⟩

def agentHello (hostname publicKey : String) : Hello where
  version := 2
  hostname := hostname
  isLocal := false
  publicKey := some publicKey
  bootstrapToken := none
  osId := none

/-! ## What authentication does to the stores -/

/-- The effect of authentication on identities and registrations: none, a new identity, or a
replaced key together with a kick. -/
inductive StoresEffect (peer : Peer) (uuid : String) (s t : Stores) : Prop
  | kept (identities : identities t.file = identities s.file) (registry : t.registry = s.registry)
      (history : t.history = s.history)
  | enrolled (newKey : findByPubkey (load s.file) peer.publicKey = none)
      (newHostname : findByHostname (load s.file) peer.hostname = none)
      (identities : identities t.file =
        identities s.file ++ [⟨uuid, peer.hostname, some peer.publicKey⟩])
      (registry : t.registry = s.registry) (history : t.history = s.history)
  | rekeyed (existing : HostEntry) (newKey : findByPubkey (load s.file) peer.publicKey = none)
      (hostname : findByHostname (load s.file) peer.hostname = some existing)
      (identities : identities t.file = rekey existing.id peer.publicKey (identities s.file))
      (registry : t.registry = s.registry.unregister existing.id)
      (history : t.history = .kicked existing.id :: s.history)

section

variable {hashes : Hashes} {now : ℕ} {draw : Draw} {saved isLocal : Bool} {peer : Peer}
  {s : Stores}

theorem enrol_effect (newKey : findByPubkey (load s.file) peer.publicKey = none)
    (newHostname : findByHostname (load s.file) peer.hostname = none)
    (tokens : BootstrapRegistry) :
    StoresEffect peer draw.uuid s (enrol draw saved peer isLocal { s with tokens }).2 := by
  have hids := identities_registerHost saved s.file draw.uuid draw.now peer.hostname peer.publicKey
    isLocal none peer.osId
  cases saved with
  | false => exact .kept hids rfl rfl
  | true => exact .enrolled newKey newHostname hids rfl rfl

theorem reEnrol_effect {existing : HostEntry}
    (newKey : findByPubkey (load s.file) peer.publicKey = none)
    (hostname : findByHostname (load s.file) peer.hostname = some existing)
    (tokens : BootstrapRegistry) :
    StoresEffect peer draw.uuid s (reEnrol saved peer existing { s with tokens }).2 := by
  have hids := identities_replacePubkey saved s.file existing.id peer.publicKey
  unfold reEnrol
  rcases hh : findById (load s.file) existing.id with _ | h
  · simp only [commit_of_answer (replacePubkey_of_none hh)]
    exact .kept rfl rfl rfl
  · have hp := replacePubkey_of_some peer.publicKey hh
    cases saved with
    | false =>
      simp only [WriteOutcome.ofSaved_false, commit_refused hp]
      exact .kept rfl rfl rfl
    | true =>
      simp only [WriteOutcome.ofSaved_true, commit_done hp, if_true] at hids ⊢
      exact .rekeyed existing newKey hostname hids rfl rfl

/-- What an approval does to the identities in the file. -/
theorem identities_approvedHost (nameSaved : Bool) (displayName : Option String) (e : PendingEntry)
    (file : HostsFile) : identities (approvedHost draw saved nameSaved displayName e file).2 =
      if saved then
        match findByHostname (load file) e.hostname with
        | some existing => rekey existing.id e.pubkeyB64 (identities file)
        | none => identities file ++ [⟨draw.uuid, e.hostname, some e.pubkeyB64⟩]
      else identities file := by
  unfold approvedHost
  rcases hn : findByHostname (load file) e.hostname with _ | existing
  · exact identities_registerHost ..
  · rw [← identities_replacePubkey]
    dsimp only
    split
    · split_ifs
      · simp only [identities_saveDisplayName]
        simp [*]
      · simp [*]
    · simp [*]

theorem resolveAuthPath_effect (bootstrapToken : Option String) :
    StoresEffect peer draw.uuid s
      (resolveAuthPath hashes now draw saved peer bootstrapToken isLocal s).2 := by
  unfold resolveAuthPath
  rcases hk : findByPubkey (load s.file) peer.publicKey with _ | host
  · rcases hn : findByHostname (load s.file) peer.hostname with _ | existing
    · rcases bootstrapToken with _ | tokenVal
      · dsimp only
        split_ifs
        · exact enrol_effect hk hn s.tokens
        · exact .kept rfl rfl rfl
      · dsimp only
        split
        · exact enrol_effect hk hn _
        · exact .kept rfl rfl rfl
    · rcases bootstrapToken with _ | tokenVal
      · exact .kept rfl rfl rfl
      · dsimp only
        split
        · exact reEnrol_effect hk hn _
        all_goals exact .kept rfl rfl rfl
  · exact .kept rfl rfl rfl

end

/-! ## What a step does -/

/-- The steps that can neither register a connection or take one out of the registry, nor change an
identity in the file. -/
def Action.isQuiet : Action → Bool
  | hello .. | register .. | unregister .. | approve .. | hostsRemove .. => false
  | _ => true

/-- The identities after an approval. -/
def approvedIdentities (fingerprintHex : String) (draw : Draw) (saved : Bool) (s : State) :
    List Identity :=
  match s.pending.entryForFingerprint fingerprintHex with
  | none => identities s.file
  | some e =>
    if saved then
      match findByHostname (load s.file) e.hostname with
      | some existing => rekey existing.id e.pubkeyB64 (identities s.file)
      | none => identities s.file ++ [⟨draw.uuid, e.hostname, some e.pubkeyB64⟩]
    else identities s.file

/-- The parts of the state that the registry and the running connections consist of are the same,
up to connections that stop running and new peers. -/
structure KeepsConns (s t : State) : Prop where
  running : ∀ c hostId, (t.phase c).runsFor hostId → (s.phase c).runsFor hostId
  peers : ∀ c peer, s.peers c = some peer → t.peers c = some peer

/-- What a step does to identities, registrations and running connections. -/
inductive Effect (s t : State) : Action → Prop
  | quiet {a : Action} (ha : a.isQuiet) (identities : identities t.file = identities s.file)
      (registry : t.registry = s.registry) (history : t.history = s.history)
      (conns : KeepsConns s t) : Effect s t a
  | hello {conn : ℕ} {h : Hello} {remoteIp : String} {verified : Bool} {draw : Draw} {saved : Bool}
      (fresh : draw.uuid ∉ (identities s.file).map (·.id)) (peer : Peer)
      (stores : StoresEffect peer draw.uuid s.toStores t.toStores) (conns : KeepsConns s t) :
      Effect s t (.hello conn h remoteIp verified draw saved)
  | registered {conn : ℕ} (host : HostEntry) (peer : Peer)
      (admitted : s.phase conn = .admitted host) (hpeer : s.peers conn = some peer)
      (file : t.file = s.file)
      (registry : t.registry = s.registry.register host.id conn peer.remoteIp)
      (history : t.history = .registered host.id conn :: s.history)
      (phase : t.phase = Function.update s.phase conn (.running host)) (peers : t.peers = s.peers) :
      Effect s t (.register conn)
  | unregistered {conn : ℕ} (host : HostEntry) (leaving : s.phase conn = .leaving host)
      (file : t.file = s.file) (registry : t.registry = s.registry.unregister host.id)
      (history : t.history = s.history) (phase : t.phase = Function.update s.phase conn .closed)
      (peers : t.peers = s.peers) : Effect s t (.unregister conn)
  | approved {fingerprintHex : String} {displayName : Option String} {draw : Draw}
      {saved nameSaved : Bool} (fresh : draw.uuid ∉ (identities s.file).map (·.id))
      (identities : identities t.file = approvedIdentities fingerprintHex draw saved s)
      (registry : t.registry = s.registry) (history : t.history = s.history)
      (conns : KeepsConns s t) :
      Effect s t (.approve fingerprintHex displayName draw saved nameSaved)
  | removed {id : String} {saved : Bool}
      (identities : identities t.file =
        if saved then (identities s.file).filter fun e => e.id ≠ id else identities s.file)
      (registry : t.registry = s.registry) (history : t.history = s.history)
      (conns : KeepsConns s t) : Effect s t (.hostsRemove id saved)

theorem keepsConns_of_eq {s t : State} (hphase : t.phase = s.phase) (hpeers : t.peers = s.peers) :
    KeepsConns s t :=
  ⟨fun c hostId h => by rwa [← hphase], fun c peer h => by rwa [hpeers]⟩

/-- Giving a connection a phase other than `running`, and new peers to connections without one. -/
theorem keepsConns_update {s t : State} {conn : ℕ} {p : Phase}
    (hp : ∀ hostId, p.runsFor hostId = false) (hphase : t.phase = Function.update s.phase conn p)
    (hpeers : ∀ c peer, s.peers c = some peer → t.peers c = some peer) : KeepsConns s t := by
  refine ⟨fun c hostId h => ?_, hpeers⟩
  rw [hphase] at h
  by_cases hc : c = conn
  · subst hc
    rw [Function.update_self, hp] at h
    cases h
  · rwa [Function.update_of_ne hc] at h

theorem hello_effect {hashes : Hashes} {conn : ℕ} {h : Hello} {remoteIp : String} {verified : Bool}
    {draw : Draw} {saved : Bool} {s : State} (hconn : s.peers conn = none)
    (fresh : draw.uuid ∉ (identities s.file).map (·.id)) :
    Effect s (Enrollment.hello hashes conn h remoteIp verified draw saved s)
      (.hello conn h remoteIp verified draw saved) := by
  unfold Enrollment.hello
  rcases hk : h.publicKey with _ | publicKey
  · exact .hello fresh ⟨"", "", none, ""⟩ (.kept rfl rfl rfl) (keepsConns_of_eq rfl rfl)
  · dsimp only
    split_ifs with hv
    · refine .hello fresh ⟨h.hostname, publicKey, h.osId, remoteIp⟩
        (resolveAuthPath_effect h.bootstrapToken) (keepsConns_update ?_ rfl ?_)
      · intro hostId
        cases (resolveAuthPath hashes s.now draw saved ⟨h.hostname, publicKey, h.osId, remoteIp⟩
          h.bootstrapToken h.isLocal s.toStores).1 <;> rfl
      · intro c peer hc
        have hne : c ≠ conn := by
          rintro rfl
          simp [hconn] at hc
        exact (Function.update_of_ne hne _ _).trans hc
    · exact .hello fresh ⟨"", "", none, ""⟩ (.kept rfl rfl rfl) (keepsConns_of_eq rfl rfl)

theorem approve_effect {fingerprintHex : String} {displayName : Option String} {draw : Draw}
    {saved nameSaved : Bool} {s : State} (fresh : draw.uuid ∉ (identities s.file).map (·.id)) :
    Effect s (pendingApprove fingerprintHex displayName draw saved nameSaved s).2
      (.approve fingerprintHex displayName draw saved nameSaved) := by
  have hids (e : PendingEntry) (he : s.pending.entryForFingerprint fingerprintHex = some e) :
      identities (approvedHost draw saved nameSaved displayName e s.file).2 =
        approvedIdentities fingerprintHex draw saved s := by
    rw [identities_approvedHost, approvedIdentities, he]
  unfold pendingApprove
  rcases he : s.pending.entryForFingerprint fingerprintHex with _ | e
  · refine .approved fresh ?_ rfl rfl (keepsConns_of_eq rfl rfl)
    rw [approvedIdentities, he]
  · have := hids e he
    dsimp only
    split <;> rename_i hres
    · exact .approved fresh (by rw [← this, hres]) rfl rfl (keepsConns_of_eq rfl rfl)
    · split
      · exact .approved fresh (by rw [← this, hres]) rfl rfl (keepsConns_of_eq rfl rfl)
      · split_ifs
        · refine .approved fresh (by rw [← this, hres]; rfl) rfl rfl ?_
          exact keepsConns_update (fun _ => rfl) rfl fun _ _ h => h
        · exact .approved fresh (by rw [← this, hres]) rfl rfl (keepsConns_of_eq rfl rfl)

/-- A step of a connection that leaves the file's identities and the registry alone. -/
theorem quiet_setPhase {s t : State} {a : Action} {conn : ℕ} {p : Phase} (ha : a.isQuiet)
    (hp : ∀ hostId, p.runsFor hostId = false) (hphase : t.phase = (s.setPhase conn p).phase)
    (hids : identities t.file = identities s.file) (hreg : t.registry = s.registry)
    (hhist : t.history = s.history) (hpeers : t.peers = s.peers) : Effect s t a :=
  .quiet ha hids hreg hhist (keepsConns_update hp hphase fun c peer h => by rwa [hpeers])

theorem step_effect {hashes : Hashes} {s t : State} {a : Action} (h : step hashes s a = some t) :
    Effect s t a := by
  have ids : (load s.file).hosts.map (·.id) = (identities s.file).map (·.id) := by
    simp [identities, HostEntry.identity]
  cases a with
  | hello conn hello remoteIp verified draw saved =>
    simp only [step, ids] at h
    split_ifs at h with hc
    cases h
    exact hello_effect hc.1 hc.2
  | enterPending conn =>
    simp only [step] at h
    split at h
    · split at h <;> cases h <;> exact quiet_setPhase rfl (fun _ => rfl) rfl rfl rfl rfl rfl
    · cases h
  | pickUp conn | giveUp conn =>
    simp only [step] at h
    split at h <;> cases h
    exact quiet_setPhase rfl (fun _ => rfl) rfl rfl rfl rfl rfl
  | leavePending conn =>
    simp only [step] at h
    split at h <;> cases h
    exact quiet_setPhase rfl (fun _ => rfl) rfl rfl rfl rfl rfl
  | fillOsId conn saved =>
    simp only [step] at h
    split at h <;> cases h
    refine quiet_setPhase rfl (fun _ => rfl) rfl ?_ rfl rfl rfl
    dsimp only
    split
    · split_ifs
      · exact identities_updateOsId ..
      · rfl
    · rfl
  | register conn =>
    simp only [step] at h
    split at h <;> cases h
    rename_i host peer hphase hpeer
    exact .registered host peer hphase hpeer rfl rfl rfl rfl rfl
  | leave conn now saved =>
    simp only [step] at h
    split at h <;> cases h
    exact quiet_setPhase rfl (fun _ => rfl) rfl (identities_updateLastSeen ..) rfl rfl rfl
  | unregister conn =>
    simp only [step] at h
    split at h <;> cases h
    rename_i host hphase
    exact .unregistered host hphase rfl rfl rfl rfl rfl
  | sendFails conn =>
    simp only [step] at h
    split at h <;> cases h <;> exact quiet_setPhase rfl (fun _ => rfl) rfl rfl rfl rfl rfl
  | approve fingerprintHex displayName draw saved nameSaved =>
    simp only [step, ids] at h
    split_ifs at h with hf
    cases h
    exact approve_effect hf
  | hostsRemove id saved =>
    cases h
    exact .removed (identities_hostsRemove ..) rfl rfl (keepsConns_of_eq rfl rfl)
  | hostsPatch id displayName saved =>
    cases h
    exact .quiet rfl (identities_hostsPatch ..) rfl rfl (keepsConns_of_eq rfl rfl)
  | tokenCreate | tokenRevoke | tokenCleanup | tick =>
    cases h
    exact .quiet rfl rfl rfl rfl (keepsConns_of_eq rfl rfl)

end Enrollment

end Tenodera.Gateway
