import Tenodera.Gateway.ClientIp
import Tenodera.Gateway.PamLogin
import Tenodera.Gateway.RateLimit
import Tenodera.Gateway.RelayMessages
import Tenodera.Gateway.SocketLoop

/-!
# The panel and its logins

The REST requests of the gateway next to the sockets of the browsers and the connections of the
agents.  The relay and the enrolment of agents are systems of their own; here they run side by side
over one session store, to which only a login adds a session.  `answered_by_login` and
`sent_by_login` trace what a request changes, and what an agent is sent for a browser, back to a
login that PAM has accepted.
-/

namespace Tenodera.Gateway.Panel

open Transition
open Relay (Role WsId)
open HeaderMap (toStr)

/-! ## Requests -/

def bearer : String := "Bearer "

/-- `bearer_token` and `extract_bearer_token`; names of headers are looked up in lower case. -/
def bearerToken (headers : HeaderMap) : Option String :=
  ((headers.get "authorization").bind toStr).bind fun v =>
    if Text.startsWith v bearer then some (String.ofList (v.toList.drop bearer.length)) else none

/-- The requests that need a session, with what their handlers draw and what the file system answers
to them. -/
inductive Request
  | tokenCreate (ttlSecs : ℕ) (singleUse : Bool) (maxUses : Option UInt32)
      (boundHostname : Option String) (reEnroll : Bool) (id value : String)
  | tokenList
  | tokenRevoke (id : String)
  | pendingList
  | pendingApprove (fingerprintHex : String) (displayName : Option String) (draw : Draw)
      (saved nameSaved : Bool)
  | hostsList
  | hostsRemove (id : String) (saved : Bool)
  | hostsPatch (id : String) (displayName : Option String) (saved : Bool)
  /-- `answered` says that the agent answers in time. -/
  | hostUserCheck (id : String) (answered : Bool)
  deriving DecidableEq, Repr

/-- What a handler answers to a session without the role of an administrator; none when it serves
every session. -/
def Request.forbidden : Request → Option ℕ
  | .tokenCreate .. | .pendingApprove .. | .hostsRemove .. | .hostsPatch .. => some 403
  -- `require_admin`
  | .tokenList | .tokenRevoke _ | .pendingList => some 401
  | .hostsList | .hostUserCheck .. => none

/-- `get_valid` on the token of the request, and the check of the role. -/
def authorize (headers : HeaderMap) (r : Request) (now : ℕ) (store : SessionStore) :
    Except ℕ Session × SessionStore :=
  match bearerToken headers with
  | none => (.error 401, store)
  | some token =>
    match store.getValid now token with
    | (none, store) => (.error 401, store)
    | (some session, store) =>
      match r.forbidden with
      | some status => (if session.role = .admin then .ok session else .error status, store)
      | none => (.ok session, store)

/-- `ttl_secs.clamp(60, 86_400 * 30)`. -/
def clampTtl (ttlSecs : ℕ) : ℕ := max 60 (min ttlSecs (86400 * 30))

/-- What a request does to the stores of the gateway, past the check of its session. -/
def Request.operation : Request → Option Enrollment.Action
  | .tokenCreate ttlSecs singleUse maxUses boundHostname reEnroll id value =>
    some (.tokenCreate (clampTtl ttlSecs * 10 ^ 9) id value singleUse maxUses boundHostname
      reEnroll)
  | .tokenRevoke id => some (.tokenRevoke id)
  | .pendingApprove fingerprintHex displayName draw saved nameSaved =>
    some (.approve fingerprintHex displayName draw saved nameSaved)
  | .hostsRemove id saved => some (.hostsRemove id saved)
  | .hostsPatch id displayName saved => some (.hostsPatch id displayName saved)
  | .tokenList | .pendingList | .hostsList | .hostUserCheck .. => none

def statusOf : StatusCode → ℕ
  | .noContent => 204
  | .badRequest => 400
  | .notFound => 404
  | .internalServerError => 500

def statusOfApproval : Enrollment.ApproveReply → ℕ
  | .approved _ => 200
  | .notFound | .alreadyApproved => 404
  | .registrationFailed => 500

/-- The status of the answer, past the check of the session. -/
def Request.status (s : Enrollment.State) : Request → ℕ
  | .tokenCreate .. | .tokenList | .pendingList | .hostsList => 200
  | .tokenRevoke id => if id ∈ s.tokens then 204 else 404
  | .pendingApprove fingerprintHex displayName draw saved nameSaved =>
    statusOfApproval
      (Enrollment.pendingApprove fingerprintHex displayName draw saved nameSaved s).1
  | .hostsRemove id saved => statusOf (commit (Gateway.hostsRemove id) (.ofSaved saved) s.file).1
  | .hostsPatch id displayName saved =>
    statusOf (commit (Gateway.hostsPatch id displayName) (.ofSaved saved) s.file).1
  | .hostUserCheck id answered => if id ∈ s.registry ∧ ¬ answered then 504 else 200

/-! ## The system -/

/-- A login that waits for PAM. -/
structure Attempt where
  user : String
  password : String
  ip : IpAddr

/-- A login that PAM has accepted, with what PAM and the group database were at the time. -/
structure Login where
  id : String
  user : String
  password : String
  role : Role
  pam : Pam.Stack
  fate : Pam.Fate
  nss : Pam.Nss
  now : ℕ

inductive Event
  | loggedIn (login : Login)
  | loggedOut (id : String)

/-- `log` is not part of the gateway: the logins and logouts, latest first. -/
structure State where
  socket : Socket.State
  gateway : Enrollment.State
  limiter : LoginRateLimiter
  running : AList fun _ : ℕ => Attempt
  log : List Event

/-- The gateway after its start. -/
def State.init (idleTimeoutSecs maxStartups : ℕ) (file : HostsFile) : State where
  socket := .init (.new idleTimeoutSecs)
  gateway := .init file
  limiter := .new maxStartups 300
  running := ∅
  log := []

inductive Action
  /-- `login`, up to the wait for PAM. -/
  | login (request : ℕ) (ip : IpAddr) (user password : String)
  /-- PAM answers. -/
  | finish (request : ℕ) (pam : Pam.Stack) (fate : Pam.Fate) (nss : Pam.Nss) (uuid : String)
  | logout (headers : HeaderMap) (sessionId : String)
  | request (headers : HeaderMap) (r : Request)
  /-- The connections of agents, and the clean-up of tokens. -/
  | agent (a : Enrollment.Action)
  /-- The sockets of browsers, the relay, and the reaper of sessions. -/
  | socket (a : Socket.Action)
  | cleanupLimiter
  | tick (nanos : ℕ)

/-- The operations on the enrolment that only a request performs. -/
def isRequested : Enrollment.Action → Bool
  | .approve .. | .hostsRemove .. | .hostsPatch .. | .tokenCreate .. | .tokenRevoke _
  | .tick => true
  | _ => false

/-- The operations on the session store that the sockets and the reaper perform. -/
def isOwn : Socket.Action → Bool
  | .session (.getValid _) | .session (.get _) | .session .reap => true
  | .session _ => false
  | _ => true

namespace State

variable (s : State)

def now : ℕ := s.socket.sessions.now

def store : SessionStore := s.socket.sessions.store

def setStore (store : SessionStore) : State := { s with socket.sessions.store := store }

end State

/-- A request: the status of the answer, and the state after it. -/
def handle (hashes : Hashes) (headers : HeaderMap) (r : Request) (s : State) : Option (ℕ × State) :=
  match authorize headers r s.now s.store with
  | (.error status, store) => some (status, s.setStore store)
  | (.ok _, store) =>
    match r.operation with
    | none => some (r.status s.gateway, s.setStore store)
    | some op =>
      (Enrollment.step hashes s.gateway op).map fun gateway =>
        (r.status s.gateway, { s.setStore store with gateway })

def step (hashes : Hashes) (s : State) : Action → Option State
  | .login request ip user password =>
    if request ∈ s.running then none
    else
      let checked := { s with limiter := (s.limiter.isLimited s.now ip).2 }
      if (s.limiter.isLimited s.now ip).1 ∨ user = "" ∨ password = "" then some checked
      else some { checked with running := s.running.insert request ⟨user, password, ip⟩ }
  | .finish request pam fate nss uuid =>
    match s.running.lookup request with
    | none => none
    | some ⟨user, password, ip⟩ =>
      let answered := { s with running := s.running.erase request }
      if (Pam.authenticate pam fate user password).success then
        let role := Pam.roleOf nss user
        (Sessions.step s.socket.sessions (.create uuid user role)).map fun sessions =>
          { answered with
            socket.sessions := sessions
            log := .loggedIn ⟨uuid, user, password, role, pam, fate, nss, s.now⟩ :: s.log }
      else some { answered with limiter := (s.limiter.checkAndRecord s.now ip).2 }
  | .logout headers sessionId =>
    if bearerToken headers = some sessionId then
      some { s.setStore (s.store.remove sessionId) with log := .loggedOut sessionId :: s.log }
    else some s
  | .request headers r => (handle hashes headers r s).map Prod.snd
  | .agent a =>
    if isRequested a then none
    else (Enrollment.step hashes s.gateway a).map fun gateway => { s with gateway }
  | .socket a =>
    if isOwn a then (Socket.step s.socket a).map fun socket => { s with socket } else none
  | .cleanupLimiter => some { s with limiter := s.limiter.cleanup s.now }
  | .tick nanos =>
    some
      { s with
        socket.sessions.now := s.now + nanos
        gateway.now := s.gateway.now + nanos }

/-! ## Sessions in the store -/

/-- The login was accepted by PAM, and its role is the one of its user. -/
structure Login.Genuine (l : Login) : Prop where
  authenticated : (Pam.authenticate l.pam l.fate l.user l.password).success
  role : l.role = Pam.roleOf l.nss l.user

/-- The session is the one of the login, but for its activity. -/
structure Login.Opened (l : Login) (id : String) (session : Session) : Prop where
  id : l.id = id
  user : l.user = session.user
  role : l.role = session.role
  now : l.now = session.createdAt

/-- Nothing is added to the store: a session is what it was, but for its activity. -/
structure Stays (store store' : SessionStore) : Prop where
  lifetime : store'.maxLifetimeSecs = store.maxLifetimeSecs
  sessions : ∀ id session', store'.get id = some session' → ∃ session, store.get id = some session ∧
    session.user = session'.user ∧ session.role = session'.role ∧
      session.createdAt = session'.createdAt

section

variable {store store' store'' : SessionStore} {now : ℕ} {id : String}

theorem Stays.refl (store : SessionStore) : Stays store store :=
  ⟨rfl, fun _ session' h => ⟨session', h, rfl, rfl, rfl⟩⟩

theorem Stays.trans (h : Stays store store') (h' : Stays store' store'') : Stays store store'' := by
  refine ⟨h'.lifetime.trans h.lifetime, fun id session'' hget => ?_⟩
  obtain ⟨session', hget', huser', hrole', hat'⟩ := h'.sessions id session'' hget
  obtain ⟨session, hget, huser, hrole, hat⟩ := h.sessions id session' hget'
  exact ⟨session, hget, huser.trans huser', hrole.trans hrole', hat.trans hat'⟩

theorem stays_of_step {s t : Sessions.State} {a : Sessions.Action} (h : Sessions.step s a = some t)
    (hnew : ∀ id user role, a ≠ .create id user role) : Stays s.store t.store := by
  refine ⟨(Sessions.step_bounds h).2.1, fun id session' hget => ?_⟩
  cases Sessions.step_effect h id with
  | kept get _ => exact ⟨session', get ▸ hget, rfl, rfl, rfl⟩
  | gone get _ =>
    rw [get] at hget
    cases hget
  | touched session old get _ | renewed _ session old get _ =>
    rw [get] at hget
    cases hget
    exact ⟨session, old, rfl, rfl, rfl⟩
  | created _ => exact absurd rfl (hnew _ _ _)

theorem stays_getValid (store : SessionStore) (now : ℕ) (id : String) :
    Stays store (store.getValid now id).2 :=
  stays_of_step (s := ⟨store, now, []⟩) (a := .getValid id) rfl (by simp)

theorem stays_touch (store : SessionStore) (now : ℕ) (id : String) :
    Stays store (store.touch now id) :=
  stays_of_step (s := ⟨store, now, []⟩) (a := .touch id) rfl (by simp)

theorem stays_remove (store : SessionStore) (id : String) : Stays store (store.remove id) :=
  stays_of_step (s := ⟨store, 0, []⟩) (a := .remove id) rfl (by simp)

/-- What `get_valid` returns is in the store, and young enough. -/
theorem get_of_getValid {session : Session} (h : store.getValid now id = (some session, store')) :
    ∃ old, store.get id = some old ∧ old.user = session.user ∧ old.role = session.role ∧
      old.createdAt = session.createdAt ∧ store.ageOk now old := by
  unfold SessionStore.getValid at h
  split at h
  · cases h
  · rename_i old hlookup
    split_ifs at h with hvalid
    · cases h
      exact ⟨old, hlookup, rfl, rfl, rfl, hvalid.2⟩
    · cases h

theorem stays_authorize (headers : HeaderMap) (r : Request) (now : ℕ) (store : SessionStore) :
    Stays store (authorize headers r now store).2 := by
  unfold authorize
  split
  · exact .refl store
  · rename_i token _
    have hstays := stays_getValid store now token
    split
    · rename_i hget
      rwa [hget] at hstays
    · rename_i hget
      rw [hget] at hstays
      split <;> exact hstays

/-- A request gets past the check with the token of a session in the store; if its handler is for
administrators only, the session is one of an administrator. -/
theorem authorize_ok {headers : HeaderMap} {r : Request} {session : Session}
    (h : (authorize headers r now store).1 = .ok session) :
    ∃ token old, bearerToken headers = some token ∧ store.get token = some old ∧
      store.ageOk now old ∧ (r.forbidden.isSome → old.role = .admin) := by
  unfold authorize at h
  split at h
  · cases h
  · rename_i token htoken
    split at h
    · cases h
    · rename_i found store' hget
      obtain ⟨old, hold, -, hrole, -, hage⟩ := get_of_getValid hget
      refine ⟨token, old, htoken, hold, hage, fun hforbidden => ?_⟩
      split at h
      · dsimp only at h
        split_ifs at h with hadmin
        exact hrole.trans hadmin
      · rename_i hnone
        rw [hnone] at hforbidden
        cases hforbidden

end

/-! ## Sockets -/

section

variable {s t : Socket.State} {a : Socket.Action}

/-- A socket is authenticated with the user and the role of a session in the store. -/
def Admits (s : Socket.State) (act : Relay.Action) : Prop :=
  ∀ w, act = .wsUp w → ∃ session, s.sessions.store.get w.token.text = some session ∧
    session.user = w.user ∧ session.role = w.role

theorem admits_of_ne {act : Relay.Action} (h : ∀ w, act ≠ .wsUp w) : Admits s act :=
  fun w hw => absurd hw (h w)

/-- The steps of the relay that a socket loop takes upon a frame or a check. -/
def ofLoop : Relay.Action → Bool
  | .wsUp _ | .wsFrame .. | .wsEnd _ .sessionInvalidated => true
  | _ => false

/-- What the sockets do: at most one step of the relay, and nothing new in the store. -/
structure SocketMoves (s : Socket.State) (a : Socket.Action) (t : Socket.State) : Prop where
  relay : t.relay = s.relay ∨ ∃ act, Relay.step s.relay act = some t.relay ∧ Admits s act ∧
    (ofLoop act ∨ a = .relay act)
  stays : Stays s.sessions.store t.sessions.store
  drawn : t.sessions.drawn = s.sessions.drawn

theorem SocketMoves.of_relay {act : Relay.Action} {relay : Relay.State}
    {hand : AList fun _ : WsId => Option Protocol.Message} {sessions : Sessions.State}
    (h : Relay.step s.relay act = some relay) (hadmits : Admits s act)
    (hact : ofLoop act ∨ a = .relay act) (hstays : Stays s.sessions.store sessions.store)
    (hdrawn : sessions.drawn = s.sessions.drawn) : SocketMoves s a ⟨relay, sessions, hand⟩ :=
  ⟨.inr ⟨act, h, hadmits, hact⟩, hstays, hdrawn⟩

theorem authenticate_moves {w : WsId} (h : Socket.authenticate w s = some t) :
    SocketMoves s (.authenticate w) t := by
  simp only [Socket.authenticate] at h
  have hstays := stays_getValid s.sessions.store s.sessions.now w.token.text
  rcases hres : s.sessions.store.getValid s.sessions.now w.token.text with ⟨_ | session, store⟩
  · rw [hres] at h hstays
    cases h
    exact ⟨.inl rfl, hstays, rfl⟩
  · rw [hres] at h hstays
    dsimp only at h
    split_ifs at h with hsame hidle
    · cases h
      exact ⟨.inl rfl, hstays.trans (stays_remove store _), rfl⟩
    · obtain ⟨relay, hrelay, rfl⟩ := Option.map_eq_some_iff.1 h
      refine .of_relay hrelay ?_ (.inl rfl) (hstays.trans (stays_touch store _ _)) rfl
      rintro v ⟨⟩
      obtain ⟨old, hold, huser, hrole, -⟩ := get_of_getValid hres
      exact ⟨old, hold, huser.trans hsame.1, hrole.trans hsame.2⟩

theorem receive_moves {w : WsId} {m : Option Protocol.Message} {serial : ℕ}
    (h : Socket.receive w m serial s = some t) : SocketMoves s (.receive w m serial) t := by
  simp only [Socket.receive] at h
  have hstays := stays_touch s.sessions.store s.sessions.now w.token.text
  split_ifs at h
  rcases m with _ | m
  · cases h
    exact ⟨.inl rfl, hstays, rfl⟩
  · dsimp only at h
    split_ifs at h
    · cases h
      exact ⟨.inl rfl, hstays, rfl⟩
    · obtain ⟨relay, hrelay, rfl⟩ := Option.map_eq_some_iff.1 h
      exact .of_relay hrelay (admits_of_ne (by simp)) (.inl rfl) hstays rfl

theorem relayStep_moves {act : Relay.Action} (h : Socket.relayStep act s = some t) :
    SocketMoves s (.relay act) t := by
  have hmoves {hand : AList fun _ : WsId => Option Protocol.Message} {relay : Relay.State}
      (hup : ∀ w, act ≠ .wsUp w) (hrelay : Relay.step s.relay act = some relay) :
      SocketMoves s (.relay act) ⟨relay, s.sessions, hand⟩ :=
    .of_relay hrelay (admits_of_ne hup) (.inr rfl) (.refl _) rfl
  cases act with
  | wsUp w | wsFrame w m serial => cases h
  | wsConnect w | wsOpen w =>
    obtain ⟨relay, hrelay, rfl⟩ := Option.map_eq_some_iff.1 h
    exact hmoves (by simp) hrelay
  | closeNotified w | wsEnd w reason =>
    simp only [Socket.relayStep] at h
    split_ifs at h
    obtain ⟨relay, hrelay, rfl⟩ := Option.map_eq_some_iff.1 h
    exact hmoves (by simp) hrelay
  | kick host =>
    cases h
    exact hmoves (by simp) (rfl : Relay.step s.relay (.kick host) = some _)
  | _ =>
    obtain ⟨relay, hrelay, rfl⟩ := Option.map_eq_some_iff.1 h
    exact hmoves (by simp) hrelay

theorem socketMoves_of_step (hown : isOwn a) (h : Socket.step s a = some t) :
    SocketMoves s a t := by
  cases a with
  | session act =>
    cases act with
    | create _ _ _ | touch _ | remove _ | tick _ => cases hown
    | get id =>
      cases h
      exact ⟨.inl rfl, .refl _, rfl⟩
    | getValid id =>
      cases h
      exact ⟨.inl rfl, stays_getValid _ _ _, rfl⟩
    | reap =>
      cases h
      exact ⟨.inl rfl, stays_of_step (s := s.sessions) (a := .reap) rfl (by simp), rfl⟩
  | authenticate w => exact authenticate_moves h
  | receive w m serial => exact receive_moves h
  | send w =>
    simp only [Socket.step, Socket.send] at h
    split at h
    · obtain ⟨relay, hrelay, rfl⟩ := Option.map_eq_some_iff.1 h
      exact .of_relay hrelay (admits_of_ne (by simp)) (.inl rfl) (.refl _) rfl
    · cases h
  | check w =>
    simp only [Socket.step, Socket.check] at h
    split_ifs at h
    split at h
    · cases h
      exact ⟨.inl rfl, .refl _, rfl⟩
    · obtain ⟨relay, hrelay, rfl⟩ := Option.map_eq_some_iff.1 h
      exact .of_relay hrelay (admits_of_ne (by simp)) (.inl rfl) (.refl _) rfl
  | relay act => exact relayStep_moves h

/-- A socket that is up was up before, or is authenticated in this step. -/
theorem loop_of_relay {r r' : Relay.State} {act : Relay.Action} (h : Relay.step r act = some r')
    {w : WsId} (hw : (r'.session w).loop ≠ .absent) :
    (r.session w).loop ≠ .absent ∨ act = .wsUp w := by
  rcases Relay.loop_of_effect (Relay.step_effect h) w with heq | hmoves
  · exact .inl (heq ▸ hw)
  · generalize (r'.session w).loop = loop at hw hmoves
    cases hmoves with
    | up _ => exact .inr rfl
    | opensCached select _ | connects select _ _ _ | ends select => exact .inl (by simp [select])
    | connected connecting _ => exact .inl (by simp [connecting])
    | returns running =>
      refine .inl fun habsent => ?_
      rw [habsent] at running
      cases running

end

/-! ## Logins -/

/-- The login has not been followed by a logout. -/
def LoggedIn (log : List Event) (l : Login) : Prop :=
  ∃ since before, log = since ++ .loggedIn l :: before ∧ .loggedOut l.id ∉ since

theorem LoggedIn.mem {log : List Event} {l : Login} (h : LoggedIn log l) : .loggedIn l ∈ log := by
  obtain ⟨since, before, rfl, -⟩ := h
  simp

theorem LoggedIn.cons {log : List Event} {l : Login} (h : LoggedIn log l) {e : Event}
    (he : e ≠ .loggedOut l.id) : LoggedIn (e :: log) l := by
  obtain ⟨since, before, rfl, hsince⟩ := h
  refine ⟨e :: since, before, rfl, fun hmem => ?_⟩
  rcases List.mem_cons.1 hmem with heq | hmem
  · exact he heq.symm
  · exact hsince hmem

/-- Every session and every socket has a login. -/
structure Sound (s : State) : Prop where
  stored : ∀ id session, s.store.get id = some session →
    ∃ l : Login, LoggedIn s.log l ∧ l.Opened id session
  drawn : ∀ id session, s.store.get id = some session → id ∈ s.socket.sessions.drawn
  genuine : ∀ l, .loggedIn l ∈ s.log → l.Genuine
  sockets : ∀ w, (s.socket.relay.session w).loop ≠ .absent →
    ∃ l, .loggedIn l ∈ s.log ∧ l.id = w.token.text ∧ l.user = w.user ∧ l.role = w.role
  lifetime : s.store.maxLifetimeSecs = defaultMaxLifetimeSecs
  wf : Relay.Wf s.socket.relay
  outgoing : Relay.Outgoing s.socket.relay

theorem sound_init (idleTimeoutSecs maxStartups : ℕ) (file : HostsFile) :
    Sound (.init idleTimeoutSecs maxStartups file) where
  stored _ _ h := by cases h
  drawn _ _ h := by cases h
  genuine _ h := by cases h
  sockets _ h := absurd rfl h
  lifetime := rfl
  wf := Relay.wf_init
  outgoing := Relay.outgoing_init

section

variable {hashes : Hashes} {s t : State} {a : Action}

/-- Nothing has happened but to the other parts of the gateway, and to sessions that stay. -/
theorem Sound.of_stays (hs : Sound s) (hstays : Stays s.store t.store)
    (hdrawn : t.socket.sessions.drawn = s.socket.sessions.drawn) (hlog : t.log = s.log)
    (hrelay : t.socket.relay = s.socket.relay) : Sound t where
  stored id session' hget := by
    obtain ⟨session, hold, huser, hrole, hat⟩ := hstays.sessions id session' hget
    obtain ⟨l, hl, hopened⟩ := hs.stored id session hold
    rw [hlog]
    exact ⟨l, hl, hopened.id, hopened.user.trans huser, hopened.role.trans hrole,
      hopened.now.trans hat⟩
  drawn id session' hget := by
    obtain ⟨session, hold, -⟩ := hstays.sessions id session' hget
    rw [hdrawn]
    exact hs.drawn id session hold
  genuine l hl := hs.genuine l (by rwa [hlog] at hl)
  sockets w hw := by
    rw [hrelay] at hw
    rw [hlog]
    exact hs.sockets w hw
  lifetime := hstays.lifetime.trans hs.lifetime
  wf := hrelay ▸ hs.wf
  outgoing := hrelay ▸ hs.outgoing

theorem Sound.of_socket (hs : Sound s) {act : Socket.Action} {socket : Socket.State}
    (h : SocketMoves s.socket act socket) : Sound { s with socket } := by
  rcases h.relay with hrelay | ⟨act, hrelay, hadmits, -⟩
  · exact hs.of_stays h.stays h.drawn rfl hrelay
  · have hstays : Sound { s with socket := { socket with relay := s.socket.relay } } :=
      hs.of_stays h.stays h.drawn rfl rfl
    refine ⟨hstays.stored, hstays.drawn, hs.genuine, fun w hw => ?_, hstays.lifetime,
      hs.wf.of_effect (Relay.step_effect hrelay), hs.outgoing.of_step hs.wf hrelay⟩
    rcases loop_of_relay hrelay hw with hold | hup
    · exact hs.sockets w hold
    · obtain ⟨session, hget, huser, hrole⟩ := hadmits w hup
      obtain ⟨l, hl, hopened⟩ := hs.stored _ session hget
      exact ⟨l, hl.mem, hopened.id, hopened.user.trans huser, hopened.role.trans hrole⟩

/-- A login adds a session under a new id. -/
theorem Sound.of_login (hs : Sound s) {l : Login} (hl : l.Genuine) {sessions : Sessions.State}
    (h : Sessions.step s.socket.sessions (.create l.id l.user l.role) = some sessions)
    (hnow : l.now = s.now) :
    Sound { s with socket.sessions := sessions, log := .loggedIn l :: s.log } := by
  simp only [Sessions.step] at h
  split_ifs at h with hfresh
  cases h
  have hget {id : String} {session : Session}
      (hget : (s.store.create s.now l.id l.user l.role).2.get id = some session) :
      id = l.id ∧ session = ⟨l.id, l.user, l.role, s.now, s.now⟩ ∨
        id ≠ l.id ∧ s.store.get id = some session := by
    rcases AList.lookup_insert_eq_some_iff.1 hget with ⟨rfl, rfl⟩ | ⟨hne, hold⟩
    · exact .inl ⟨rfl, rfl⟩
    · exact .inr ⟨hne, hold⟩
  refine ⟨fun id session hnew => ?_, fun id session hnew => ?_, fun l' hl' => ?_,
    fun w hw => ?_, hs.lifetime, hs.wf, hs.outgoing⟩
  · rcases hget hnew with ⟨rfl, rfl⟩ | ⟨hne, hold⟩
    · exact ⟨l, ⟨[], s.log, rfl, List.not_mem_nil⟩, rfl, rfl, rfl, hnow⟩
    · obtain ⟨l', hl', hopened⟩ := hs.stored id session hold
      exact ⟨l', hl'.cons (by simp), hopened⟩
  · rcases hget hnew with ⟨rfl, -⟩ | ⟨-, hold⟩
    · exact List.mem_cons_self
    · exact List.mem_cons_of_mem _ (hs.drawn id session hold)
  · rcases List.mem_cons.1 hl' with heq | hold
    · cases heq
      exact hl
    · exact hs.genuine l' hold
  · obtain ⟨l', hl', hsame⟩ := hs.sockets w hw
    exact ⟨l', List.mem_cons_of_mem _ hl', hsame⟩

theorem Sound.of_logout (hs : Sound s) (id : String) :
    Sound { s.setStore (s.store.remove id) with log := .loggedOut id :: s.log } := by
  refine ⟨fun id' session hget => ?_, fun id' session hget => ?_, fun l hl => ?_,
    fun w hw => ?_, hs.lifetime, hs.wf, hs.outgoing⟩
  · obtain ⟨hne, hold⟩ := AList.lookup_erase_eq_some_iff.1 hget
    obtain ⟨l, hl, hopened⟩ := hs.stored id' session hold
    refine ⟨l, hl.cons fun heq => hne ?_, hopened⟩
    cases heq
    exact hopened.id.symm
  · exact hs.drawn id' session (AList.lookup_erase_eq_some_iff.1 hget).2
  · rcases List.mem_cons.1 hl with heq | hold
    · cases heq
    · exact hs.genuine l hold
  · obtain ⟨l, hl, hsame⟩ := hs.sockets w hw
    exact ⟨l, List.mem_cons_of_mem _ hl, hsame⟩

theorem relay_of_handle {headers : HeaderMap} {r : Request} {status : ℕ}
    (h : handle hashes headers r s = some (status, t)) : t.socket.relay = s.socket.relay := by
  unfold handle at h
  split at h
  · cases h
    rfl
  · split at h
    · cases h
      rfl
    · obtain ⟨gateway, -, heq⟩ := Option.map_eq_some_iff.1 h
      cases heq
      rfl

theorem handle_sound (hs : Sound s) {headers : HeaderMap} {r : Request} {status : ℕ}
    (h : handle hashes headers r s = some (status, t)) : Sound t := by
  have hstays := stays_authorize headers r s.now s.store
  unfold handle at h
  split at h
  · rename_i hauth
    rw [hauth] at hstays
    cases h
    exact hs.of_stays hstays rfl rfl rfl
  · rename_i hauth
    rw [hauth] at hstays
    split at h
    · cases h
      exact hs.of_stays hstays rfl rfl rfl
    · obtain ⟨gateway, -, heq⟩ := Option.map_eq_some_iff.1 h
      cases heq
      exact hs.of_stays hstays rfl rfl rfl

/-- Only the sockets take steps of the relay. -/
theorem socketMoves_or_eq (h : step hashes s a = some t) : t.socket.relay = s.socket.relay ∨
    ∃ act, a = .socket act ∧ SocketMoves s.socket act t.socket := by
  cases a with
  | socket act =>
    simp only [step] at h
    split_ifs at h with hown
    obtain ⟨socket, hsocket, rfl⟩ := Option.map_eq_some_iff.1 h
    exact .inr ⟨act, rfl, socketMoves_of_step hown hsocket⟩
  | login request ip user password =>
    simp only [step] at h
    split_ifs at h
    all_goals
      cases h
      exact .inl rfl
  | finish request pam fate nss uuid =>
    simp only [step] at h
    split at h
    · cases h
    · split_ifs at h
      · obtain ⟨sessions, -, rfl⟩ := Option.map_eq_some_iff.1 h
        exact .inl rfl
      · cases h
        exact .inl rfl
  | logout headers sessionId =>
    simp only [step] at h
    split_ifs at h
    all_goals
      cases h
      exact .inl rfl
  | request headers r =>
    obtain ⟨⟨status, t'⟩, hhandle, rfl⟩ := Option.map_eq_some_iff.1 h
    exact .inl (relay_of_handle hhandle)
  | agent act =>
    simp only [step] at h
    split_ifs at h
    obtain ⟨gateway, -, rfl⟩ := Option.map_eq_some_iff.1 h
    exact .inl rfl
  | cleanupLimiter | tick nanos =>
    cases h
    exact .inl rfl

theorem Sound.of_step (hs : Sound s) (h : step hashes s a = some t) : Sound t := by
  cases a with
  | login request ip user password =>
    simp only [step] at h
    split_ifs at h
    all_goals
      cases h
      exact hs.of_stays (.refl _) rfl rfl rfl
  | finish request pam fate nss uuid =>
    simp only [step] at h
    split at h
    · cases h
    · rename_i user password ip hrunning
      split_ifs at h with hsuccess
      · obtain ⟨sessions, hcreate, rfl⟩ := Option.map_eq_some_iff.1 h
        have hanswered : Sound { s with running := s.running.erase request } :=
          hs.of_stays (.refl _) rfl rfl rfl
        exact hanswered.of_login
          (l := ⟨uuid, user, password, Pam.roleOf nss user, pam, fate, nss, s.now⟩)
          ⟨hsuccess, rfl⟩ hcreate rfl
      · cases h
        exact hs.of_stays (.refl _) rfl rfl rfl
  | logout headers sessionId =>
    simp only [step] at h
    split_ifs at h
    · cases h
      exact hs.of_logout sessionId
    · cases h
      exact hs
  | request headers r =>
    obtain ⟨⟨status, t'⟩, hhandle, rfl⟩ := Option.map_eq_some_iff.1 h
    exact handle_sound hs hhandle
  | agent act =>
    simp only [step] at h
    split_ifs at h
    obtain ⟨gateway, -, rfl⟩ := Option.map_eq_some_iff.1 h
    exact hs.of_stays (.refl _) rfl rfl rfl
  | socket act =>
    simp only [step] at h
    split_ifs at h with hown
    obtain ⟨socket, hsocket, rfl⟩ := Option.map_eq_some_iff.1 h
    exact hs.of_socket (socketMoves_of_step hown hsocket)
  | cleanupLimiter | tick nanos =>
    cases h
    exact hs.of_stays (.refl _) rfl rfl rfl

theorem sound_of_run {idleTimeoutSecs maxStartups : ℕ} {file : HostsFile} {as : List Action}
    (h : run (step hashes) (.init idleTimeoutSecs maxStartups file) as = some s) : Sound s :=
  invariant_of_run (fun _ _ _ hs h => hs.of_step h) (sound_init _ _ file) h

/-! ## Back to a login -/

/-- The request is for administrators only, or its handler serves every session. -/
theorem forbidden_of_operation {r : Request} (h : r.operation.isSome) : r.forbidden.isSome := by
  cases r with
  | tokenList | pendingList | hostsList | hostUserCheck _ _ => cases h
  | _ => rfl

theorem Login.Genuine.admin {l : Login} (hl : l.Genuine) (hrole : l.role = .admin) :
    Pam.verifySudoBlocking l.nss l.user = .ok () :=
  Pam.roleOf_eq_admin_iff.1 (hl.role.symm.trans hrole)

/-- A request either is refused and leaves the gateway alone, or carries the token of a login of the
last four hours that PAM accepted and no logout has ended; if the handler is for administrators, the
user belonged to an administrative group. -/
theorem answered_by_login {idleTimeoutSecs maxStartups : ℕ} {file : HostsFile} {as : List Action}
    (hrun : run (step hashes) (.init idleTimeoutSecs maxStartups file) as = some s)
    {headers : HeaderMap} {r : Request} {status : ℕ}
    (h : handle hashes headers r s = some (status, t)) :
    (status = 401 ∨ status = 403) ∧ t.gateway = s.gateway ∨
      ∃ l : Login, bearerToken headers = some l.id ∧ LoggedIn s.log l ∧
        elapsedSecs l.now s.now ≤ defaultMaxLifetimeSecs ∧
        (Pam.authenticate l.pam l.fate l.user l.password).success ∧
        (r.forbidden.isSome → Pam.verifySudoBlocking l.nss l.user = .ok ()) := by
  have hs := sound_of_run hrun
  unfold handle at h
  split at h
  · rename_i refused store hauth
    cases h
    refine .inl ⟨?_, rfl⟩
    unfold authorize at hauth
    split at hauth
    · cases hauth
      exact .inl rfl
    · split at hauth
      · cases hauth
        exact .inl rfl
      · split at hauth
        · rename_i status' hforbidden
          split_ifs at hauth
          · cases hauth
          · cases hauth
            cases r <;> cases hforbidden <;> first | exact .inl rfl | exact .inr rfl
        · cases hauth
  · rename_i session store hauth
    right
    have hok : (authorize headers r s.now s.store).1 = .ok session := by rw [hauth]
    obtain ⟨token, old, htoken, hold, hage, hadmin⟩ := authorize_ok hok
    obtain ⟨l, hl, hopened⟩ := hs.stored token old hold
    have hgenuine := hs.genuine l hl.mem
    refine ⟨l, by rw [htoken, hopened.id], hl, ?_, hgenuine.authenticated, fun hforbidden => ?_⟩
    · rw [hopened.now, ← hs.lifetime]
      exact of_decide_eq_true hage
    · exact hgenuine.admin (hopened.role.trans (hadmin hforbidden))

theorem Sound.login_of_sent (hs : Sound s) {c : Relay.ConnId} {w : WsId} {m : Protocol.Message}
    (h : .toAgent c (.ws w) m ∈ s.socket.relay.log) :
    ∃ l : Login, .loggedIn l ∈ s.log ∧ l.id = w.token.text ∧ l.user = w.user ∧ l.role = w.role := by
  obtain ⟨b, hb, howner, -⟩ := (hs.outgoing.sent c (.ws w) m h).attached (.inl ⟨w, rfl⟩)
  exact hs.sockets w (hs.wf.started b hb w howner)

end

/-! ## An administrator -/

/-- PAM accepts one password, and carol's only administrative group is her seventieth. -/
def carolsPam : Pam.Stack where
  starts := true
  authenticate user password := user = "carol" && password = "hunter2"
  acctMgmt _ := true

def carolsGroups : Pam.Nss where
  passwd user := if user = "carol" then some ⟨1000, 40⟩ else none
  groupList _ primary := primary :: List.range 70
  group gid := if gid = 69 then some ⟨"wheel", 30⟩ else none

def carolsToken : Uuid where
  text := "4b825dc6-42cb-4eb9-a060-e54bf8d69288"
  digits := by decide
  hex := by decide

def carolsHeaders : HeaderMap := [("authorization", ascii ("Bearer " ++ carolsToken.text))]

/-- Carol logs in. -/
def carolLogsIn : List Action :=
  [.login 0 (.v4 ⟨203, 0, 113, 7⟩) "carol" "hunter2",
    .finish 0 carolsPam .runs carolsGroups carolsToken.text]

/-- Carol's browser. -/
def carol : WsId := ⟨0, carolsToken, "carol", .admin⟩

/-- Carol opens a terminal, and the agent is told so. -/
def carolOpensTerminal : List Action :=
  [.socket (.relay (.agentUp Relay.webConn)), .socket (.authenticate carol),
    .socket (.receive carol (some (.open_ "1" (Relay.terminalOn "web"))) 0),
    .socket (.relay (.wsConnect carol)), .socket (.relay (.wsOpen carol)),
    .socket (.relay (.proxyStep ⟨.ws carol, Relay.webConn, 0⟩)),
    .socket (.relay (.write Relay.webConn))]

end Tenodera.Gateway.Panel
