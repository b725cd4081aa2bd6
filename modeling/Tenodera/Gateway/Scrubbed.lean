import Tenodera.Gateway.RelayMessages

/-!
# What the relay does not look at

Members of the names `_user` and `_role` that a browser puts into its frames have no influence on
what the gateway does: `step_scrub` says that a step of the relay without those members is the step
with them, with the members taken out afterwards.
-/

namespace Tenodera.Gateway.Relay

open Protocol

/-! ## Taking the members out -/

def isIdentityKey (key : String) : Bool := key = "_user" || key = "_role"

def scrubMembers (entries : List (String × Value)) : List (String × Value) :=
  entries.filter fun e => ¬ isIdentityKey e.1

def scrubValue : Value → Value
  | .object entries => .object (scrubMembers entries)
  | data => data

def scrubOptions (options : ChannelOpenOptions) : ChannelOpenOptions :=
  { options with extra := (options.extra.erase "_user").erase "_role" }

/-- Data without the members. -/
def scrubData : Message → Message
  | .data channel data => .data channel (scrubValue data)
  | m => m

/-- A frame of a browser without the members. -/
def scrub : Message → Message
  | .open_ channel options => .open_ channel (scrubOptions options)
  | .data channel data => .data channel (scrubValue data)
  | m => m

/-- Data of a call comes from the gateway itself. -/
def Owner.scrub : Owner → Message → Message
  | ws _ => scrubData
  | rpc _ => id

/-- Only frames of browsers have members that are taken out. -/
def Action.scrub : Action → Action
  | wsFrame w m serial => wsFrame w (Relay.scrub m) serial
  | act => act

def Conn.scrub (conn : Conn) : Conn :=
  { conn with toAgent := conn.toAgent.map fun p => (p.1, p.1.scrub p.2) }

def Link.scrub (o : Owner) (link : Link) : Link := { link with proxy := link.proxy.map o.scrub }

def PendingOpen.scrub (p : PendingOpen) : PendingOpen :=
  { p with options := scrubOptions p.options }

def Loop.scrub : Loop → Loop
  | connecting p => connecting p.scrub
  | opening p => opening p.scrub
  | loop => loop

def Session.scrub (session : Session) : Session := { session with loop := session.loop.scrub }

def Event.scrub : Event → Event
  | toAgent c o m => toAgent c o (o.scrub m)
  | e => e

/-- The state as it is if the members had never been there. -/
def State.scrub (s : State) : State where
  registry := s.registry
  conn c := (s.conn c).scrub
  attached := s.attached
  link a := (s.link a).scrub a.owner
  session w := (s.session w).scrub
  rpc := s.rpc
  log := s.log.map Event.scrub

/-! ## Messages -/

theorem lookup_scrubOptions {key : String} (h : isIdentityKey key = false)
    (options : ChannelOpenOptions) :
    (scrubOptions options).extra.lookup key = options.extra.lookup key := by
  obtain ⟨huser, hrole⟩ : key ≠ "_user" ∧ key ≠ "_role" := by simpa [isIdentityKey] using h
  rw [scrubOptions, AList.lookup_erase_ne hrole, AList.lookup_erase_ne huser]

/-- The identity that the gateway puts in replaces what the browser had put there. -/
theorem cleanOpen_scrubOptions (w : WsId) (options : ChannelOpenOptions) :
    cleanOpen w (scrubOptions options) = cleanOpen w options := by
  have hextra : (((options.extra.erase "_user").erase "_role").erase "host") =
      ((options.extra.erase "host").erase "_user").erase "_role" := by
    rw [AList.erase_erase "_role" "host", AList.erase_erase "_user" "host"]
  rw [cleanOpen, cleanOpen, scrubOptions, hextra, AList.insert_erase_of_ne (by decide),
    AList.insert_erase_self, AList.insert_erase_self]

@[simp]
theorem channel_scrub (m : Message) : (scrub m).channel = m.channel := by cases m <;> rfl

@[simp]
theorem decodes_scrub (m : Message) : decodes (scrub m) = decodes m := by
  rw [decodes, channel_scrub, decodes]

theorem prefixMessage_scrub (o : Owner) (m : Message) (pfx : String) :
    prefixMessage (o.scrub m) pfx = o.scrub (prefixMessage m pfx) := by
  cases o with
  | ws w => cases m <;> rfl
  | rpc r => rfl

@[simp]
theorem hasRoom_map {α β : Type*} (f : α → β) (queue : List α) (cap : ℕ) :
    hasRoom (queue.map f) cap = hasRoom queue cap := by
  simp [hasRoom]

/-! ## Components of the state -/

section

variable (s : State)

@[simp] theorem registry_scrub : s.scrub.registry = s.registry := rfl

@[simp] theorem attached_scrub : s.scrub.attached = s.attached := rfl

@[simp] theorem rpc_scrub : s.scrub.rpc = s.rpc := rfl

@[simp] theorem conn_scrub (c : ConnId) : s.scrub.conn c = (s.conn c).scrub := rfl

@[simp] theorem link_scrub (a : Attachment) : s.scrub.link a = (s.link a).scrub a.owner := rfl

@[simp] theorem session_scrub (w : WsId) : s.scrub.session w = (s.session w).scrub := rfl

@[simp] theorem log_scrub : s.scrub.log = s.log.map Event.scrub := rfl

@[simp]
theorem setConn_scrub (c : ConnId) (conn : Conn) :
    (s.setConn c conn).scrub = s.scrub.setConn c conn.scrub := by
  have hconn : (fun d => (Function.update s.conn c conn d).scrub) =
      Function.update (fun d => (s.conn d).scrub) c conn.scrub := by
    funext d
    by_cases hd : d = c
    · subst hd
      simp
    · simp [hd]
  simp only [State.scrub, State.setConn, hconn]

@[simp]
theorem setLink_scrub (a : Attachment) (link : Link) :
    (s.setLink a link).scrub = s.scrub.setLink a (link.scrub a.owner) := by
  have hlink : (fun b => (Function.update s.link a link b).scrub b.owner) =
      Function.update (fun b => (s.link b).scrub b.owner) a (link.scrub a.owner) := by
    funext b
    by_cases hb : b = a
    · subst hb
      simp
    · simp [hb]
  simp only [State.scrub, State.setLink, hlink]

@[simp]
theorem setSession_scrub (w : WsId) (session : Session) :
    (s.setSession w session).scrub = s.scrub.setSession w session.scrub := by
  have hsession : (fun v => (Function.update s.session w session v).scrub) =
      Function.update (fun v => (s.session v).scrub) w session.scrub := by
    funext v
    by_cases hv : v = w
    · subst hv
      simp
    · simp [hv]
  simp only [State.scrub, State.setSession, hsession]

@[simp]
theorem setRpc_scrub (r : RpcId) (rpc : Rpc) : (s.setRpc r rpc).scrub = s.scrub.setRpc r rpc := rfl

@[simp] theorem emit_scrub (e : Event) : (s.emit e).scrub = s.scrub.emit e.scrub := rfl

@[simp]
theorem attach_scrub (a : Attachment) (link : Link) :
    (s.attach a link).scrub = s.scrub.attach a (link.scrub a.owner) := by
  have h := setLink_scrub (s.setConn a.conn { s.conn a.conn with
    subscribers := (s.conn a.conn).subscribers.insert a.owner.pfx a }) a link
  rw [setConn_scrub] at h
  exact congrArg (fun t : State => { t with attached := a :: s.attached }) h

@[simp]
theorem release_scrub (c : ConnId) : (s.release c).scrub = s.scrub.release c := by
  rw [State.release, setConn_scrub, State.release]
  rfl

@[simp]
theorem retain_scrub (c : ConnId) : (s.retain c).scrub = s.scrub.retain c := by
  rw [State.retain, setConn_scrub, State.retain]
  rfl

@[simp]
theorem enqueue_scrub (c : ConnId) (o : Owner) (m : Message) :
    (s.enqueue c o m).scrub = s.scrub.enqueue c o (o.scrub m) := by
  rw [State.enqueue, setConn_scrub, State.enqueue]
  congr 1
  by_cases hw : (s.conn c).writerAlive <;> simp [Conn.scrub, hw]

@[simp] theorem tokenAlive_scrub (c : ConnId) : s.scrub.tokenAlive c = s.tokenAlive c := rfl

@[simp]
theorem canEnqueue_scrub (c : ConnId) : s.scrub.canEnqueue c = s.canEnqueue c := by
  simp [State.canEnqueue, Conn.scrub, hasRoom]

@[simp] theorem hasSender_scrub (a : Attachment) : s.scrub.hasSender a = s.hasSender a := rfl

end

/-! ## Steps -/

section

variable {s : State}

theorem lastOpener_scrub (c : ConnId) (channel : ChannelId) (log : List Event) :
    lastOpener c channel (log.map Event.scrub) = lastOpener c channel log := by
  induction log with
  | nil => rfl
  | cons e log ih =>
    cases e with
    | opened a id =>
      simp only [List.map_cons, Event.scrub, lastOpener, ih]
    | _ => exact ih

theorem agentUp_scrub (c : ConnId) : agentUp c s.scrub = (agentUp c s).map State.scrub := by
  simp only [agentUp, conn_scrub, Conn.scrub]
  cases (s.conn c).reader with
  | absent =>
    have h := setConn_scrub s c ⟨.reading, ∅, [], true, 0⟩
    exact congrArg (fun t : State => some { t with registry := s.registry.insert c.host c }) h.symm
  | _ => rfl

theorem kick_scrub (host : String) : kick host s.scrub = (kick host s).scrub := by
  simp only [kick, registry_scrub]
  cases s.registry.lookup host <;> rfl

theorem agentRecv_scrub (c : ConnId) (m : Message) :
    agentRecv c m s.scrub = (agentRecv c m s).map State.scrub := by
  simp only [agentRecv, conn_scrub, Conn.scrub]
  cases (s.conn c).reader with
  | reading =>
    simp only
    split_ifs
    · cases stripPrefixFromMessage m with
      | none => rfl
      | some p =>
        cases hlookup : (s.conn c).subscribers.lookup p.2 with
        | none => simp [hlookup, Event.scrub]
        | some a => simp [hlookup, Event.scrub, Conn.scrub, lastOpener_scrub]
    · rfl
  | _ => rfl

theorem dispatch_scrub (c : ConnId) : dispatch c s.scrub = (dispatch c s).map State.scrub := by
  simp only [dispatch, conn_scrub, Conn.scrub]
  cases (s.conn c).reader with
  | dispatching frame a =>
    by_cases halive : (s.link a).inboxAlive
    · by_cases hroom : hasRoom (s.link a).inbox a.inboxCap <;>
        simp [halive, hroom, Conn.scrub, Link.scrub]
    · simp [halive, Conn.scrub, Link.scrub]
  | _ => rfl

theorem agentGone_scrub (c : ConnId) : agentGone c s.scrub = (agentGone c s).map State.scrub := by
  simp only [agentGone, conn_scrub, Conn.scrub]
  cases (s.conn c).reader with
  | reading => simp [Conn.scrub]
  | _ => rfl

theorem cleanup_scrub (c : ConnId) : cleanup c s.scrub = (cleanup c s).map State.scrub := by
  simp only [cleanup, conn_scrub, Conn.scrub]
  cases (s.conn c).reader with
  | ended =>
    have h := setConn_scrub s c { s.conn c with reader := .unregistered }
    exact congrArg (fun t : State => some { t with registry := s.registry.erase c.host }) h.symm
  | _ => rfl

theorem abortWriter_scrub (c : ConnId) :
    abortWriter c s.scrub = (abortWriter c s).map State.scrub := by
  simp only [abortWriter, conn_scrub, Conn.scrub]
  cases (s.conn c).reader with
  | unregistered => simp [Conn.scrub]
  | _ => rfl

theorem write_scrub (c : ConnId) : write c s.scrub = (write c s).map State.scrub := by
  simp only [write, conn_scrub, Conn.scrub]
  cases (s.conn c).toAgent with
  | nil => rfl
  | cons p rest => simp [Conn.scrub, Event.scrub]

theorem writerFails_scrub (c : ConnId) :
    writerFails c s.scrub = (writerFails c s).map State.scrub := by
  by_cases halive : (s.conn c).writerAlive <;> simp [writerFails, halive, Conn.scrub]

theorem wsUp_scrub (w : WsId) : wsUp w s.scrub = (wsUp w s).map State.scrub := by
  simp only [wsUp, session_scrub, Session.scrub]
  cases (s.session w).loop with
  | absent => simp [Session.scrub, Loop.scrub]
  | _ => rfl

theorem refuse_scrub (w : WsId) (channel : ChannelId) (problem : String) :
    (refuse w channel problem s).scrub = refuse w channel problem s.scrub := rfl

theorem validCached_scrub (w : WsId) (host : String) :
    validCached w host s.scrub = validCached w host s := rfl

theorem handleOpen_scrub (w : WsId) (channel : ChannelId) (options : ChannelOpenOptions)
    (serial : ℕ) : handleOpen w channel (scrubOptions options) serial s.scrub =
      (handleOpen w channel options serial s).scrub := by
  have hhost : (scrubOptions options).extra.lookup "host" = options.extra.lookup "host" :=
    lookup_scrubOptions rfl options
  by_cases hcount : (s.session w).routes.entries.length ≥ maxChannelsPerSession
  · simp [handleOpen, hcount, Session.scrub, refuse_scrub]
  by_cases hlength : channel.utf8ByteSize > maxChannelIdLen - (sessionPrefixLen + 1)
  · simp [handleOpen, hcount, hlength, Session.scrub, refuse_scrub]
  by_cases hroute : channel ∈ (s.session w).routes
  · simp [handleOpen, hcount, hlength, hroute, Session.scrub, refuse_scrub]
  cases hopt : (options.extra.lookup "host").bind Value.asStr with
  | none => simp [handleOpen, hcount, hlength, hroute, hhost, hopt, Session.scrub, refuse_scrub]
  | some host =>
    cases hcached : validCached w host s with
    | some a =>
      simp [handleOpen, hcount, hlength, hroute, hhost, hopt, validCached_scrub, hcached,
        Session.scrub, Loop.scrub, PendingOpen.scrub]
    | none =>
      by_cases hremote : ((s.session w).remoteSenders.erase host).entries.length ≥ maxRemoteAgents
      · simp [handleOpen, hcount, hlength, hroute, hhost, hopt, validCached_scrub, hcached,
          hremote, Session.scrub, refuse_scrub]
      · cases hregistered : s.registry.lookup host <;>
          simp [handleOpen, hcount, hlength, hroute, hhost, hopt, validCached_scrub, hcached,
            hremote, hregistered, Session.scrub, Loop.scrub, PendingOpen.scrub, refuse_scrub,
            Event.scrub]

theorem wsConnect_scrub (w : WsId) :
    wsConnect w s.scrub = (wsConnect w s).map State.scrub := by
  simp only [wsConnect, session_scrub, Session.scrub]
  cases (s.session w).loop with
  | connecting p =>
    simp only [Loop.scrub, PendingOpen.scrub, attached_scrub, conn_scrub, Conn.scrub]
    by_cases hattached : p.attachment ∈ s.attached
    · simp [hattached]
    · by_cases hlocked : (s.conn p.attachment.conn).reader.isDispatching
      · simp [hlocked]
      · simp [hattached, hlocked, Session.scrub, Loop.scrub, PendingOpen.scrub, Link.scrub]
  | _ => rfl

theorem wsOpen_scrub (w : WsId) (howner : ∀ a, (s.session w).holds a → a.owner = .ws w) :
    wsOpen w s.scrub = (wsOpen w s).map State.scrub := by
  simp only [wsOpen, session_scrub, Session.scrub]
  cases hloop : (s.session w).loop with
  | opening p =>
    simp only [Loop.scrub, PendingOpen.scrub, link_scrub, Link.scrub, hasRoom_map]
    by_cases halive : (s.link p.attachment).proxyAlive
    · by_cases hroom : hasRoom (s.link p.attachment).proxy proxyCap
      · have hp := howner p.attachment (.inl ⟨p, hloop, rfl⟩)
        simp [halive, hroom, Session.scrub, Link.scrub, Loop.scrub, Event.scrub, hp, Owner.scrub,
          scrubData, cleanOpen_scrubOptions]
      · simp [halive, hroom]
    · simp [halive, refuse_scrub, Session.scrub, Loop.scrub]
  | _ => rfl

theorem handleRouted_scrub (w : WsId) (channel : ChannelId) (m : Message) (isClose : Bool)
    (howner : ∀ a, (s.session w).holds a → a.owner = .ws w) :
    handleRouted w channel (scrubData m) isClose s.scrub =
      (handleRouted w channel m isClose s).map State.scrub := by
  simp only [handleRouted, session_scrub, Session.scrub]
  cases hroute : (s.session w).routes.lookup channel with
  | none => rfl
  | some a =>
    have ha := howner a (.inr (.inr ⟨channel, hroute⟩))
    simp only [link_scrub, Link.scrub, hasRoom_map]
    by_cases halive : (s.link a).proxyAlive
    · by_cases hroom : hasRoom (s.link a).proxy proxyCap
      · cases isClose <;>
          simp [halive, hroom, Session.scrub, Link.scrub, Event.scrub, ha, Owner.scrub]
      · simp [halive, hroom]
    · simp [halive, Session.scrub]

theorem wsFrame_scrub (w : WsId) (m : Message) (serial : ℕ)
    (howner : ∀ a, (s.session w).holds a → a.owner = .ws w) :
    wsFrame w (scrub m) serial s.scrub = (wsFrame w m serial s).map State.scrub := by
  simp only [wsFrame, session_scrub, Session.scrub, decodes_scrub]
  cases (s.session w).loop with
  | select =>
    simp only [Loop.scrub]
    split_ifs
    · cases m with
      | open_ channel options => exact congrArg some (handleOpen_scrub w channel options serial)
      | data channel data => exact handleRouted_scrub w channel (.data channel data) false howner
      | control channel command extra =>
        exact handleRouted_scrub w channel (.control channel command extra) false howner
      | close channel problem =>
        exact handleRouted_scrub w channel (.close channel problem) true howner
      | _ => rfl
    · rfl
  | _ => rfl

theorem closeNotified_scrub (w : WsId) :
    closeNotified w s.scrub = (closeNotified w s).map State.scrub := by
  simp only [closeNotified, session_scrub, Session.scrub]
  cases (s.session w).loop with
  | select =>
    cases (s.session w).closeNotify with
    | nil => rfl
    | cons report rest =>
      simp only [Loop.scrub]
      cases (s.session w).routes.lookup report.1 <;>
        simp [Session.scrub, Loop.scrub, Event.scrub]
  | _ => rfl

theorem wsEnd_scrub (w : WsId) (reason : EndReason) :
    wsEnd w reason s.scrub = (wsEnd w reason s).map State.scrub := by
  simp only [wsEnd, session_scrub, Session.scrub]
  cases (s.session w).loop with
  | select => simp [Session.scrub, Loop.scrub]
  | _ => rfl

theorem proxyStep_scrub (a : Attachment) :
    proxyStep a s.scrub = (proxyStep a s).map State.scrub := by
  simp only [proxyStep, link_scrub, Link.scrub]
  cases (s.link a).proxyAlive with
  | false => rfl
  | true =>
    cases (s.link a).proxy with
    | nil => rfl
    | cons m rest =>
      simp only [List.map_cons, conn_scrub, Conn.scrub, canEnqueue_scrub]
      by_cases hwriter : (s.conn a.conn).writerAlive
      · cases hroom : s.canEnqueue a.conn <;>
          simp [hwriter, Link.scrub, prefixMessage_scrub]
      · simp [hwriter, Link.scrub]

theorem isRunning_scrub (loop : Loop) : loop.scrub.isRunning = loop.isRunning := by
  cases loop <;> rfl

theorem forward_scrub (a : Attachment) : forward a s.scrub = (forward a s).map State.scrub := by
  simp only [forward, link_scrub, Link.scrub]
  cases howner : a.owner with
  | rpc r => rfl
  | ws w =>
    cases (s.link a).inboxAlive with
    | false => rfl
    | true =>
      cases (s.link a).inbox with
      | nil => rfl
      | cons frame rest =>
        simp only [session_scrub, Session.scrub, isRunning_scrub]
        cases frame.msg with
        | close channel problem =>
          cases (s.session w).loop.isRunning <;>
            simp [Session.scrub, Link.scrub, Event.scrub, howner]
        | _ => simp [Link.scrub, Event.scrub, howner]

theorem forwarderEnds_scrub (a : Attachment) :
    forwarderEnds a s.scrub = (forwarderEnds a s).map State.scrub := by
  simp only [forwarderEnds, link_scrub, Link.scrub, hasSender_scrub]
  cases howner : a.owner with
  | rpc r => rfl
  | ws w =>
    cases (s.link a).inboxAlive with
    | false => rfl
    | true =>
      by_cases hidle : (s.link a).inbox.isEmpty ∧ s.hasSender a
      · simp [hidle.1, hidle.2]
      · by_cases hempty : (s.link a).inbox.isEmpty
        · simp [hempty, (not_and.1 hidle) hempty, Link.scrub, howner]
        · simp [hempty, Link.scrub, howner]

theorem rpcStart_scrub (r : RpcId) (host payload : String) (requestData : Value) (serial : ℕ) :
    rpcStart r host payload requestData serial s.scrub =
      (rpcStart r host payload requestData serial s).map State.scrub := by
  simp only [rpcStart, rpc_scrub, registry_scrub]
  cases s.rpc r with
  | idle =>
    cases s.registry.lookup host with
    | none => rfl
    | some c => simp [Event.scrub]
  | _ => rfl

theorem rpcSubscribe_scrub (r : RpcId) :
    rpcSubscribe r s.scrub = (rpcSubscribe r s).map State.scrub := by
  simp only [rpcSubscribe, rpc_scrub, attached_scrub, conn_scrub, Conn.scrub]
  cases s.rpc r with
  | subscribing a payload requestData =>
    by_cases hattached : a ∈ s.attached
    · simp [hattached]
    · by_cases hlocked : (s.conn a.conn).reader.isDispatching
      · simp [hlocked]
      · simp [hattached, hlocked, Link.scrub]
  | _ => rfl

theorem rpcDone_scrub (r : RpcId) (a : Attachment) :
    (rpcDone r a s).scrub = rpcDone r a s.scrub := by
  simp [rpcDone, Link.scrub]

theorem rpcSend_scrub (hs : Wf s) (r : RpcId) :
    rpcSend r s.scrub = (rpcSend r s).map State.scrub := by
  have howner {a : Attachment} (ha : (s.rpc r).attachment = some a) (m : Message) :
      a.owner.scrub m = m := by
    rw [(hs.calls r a ha).1]
    rfl
  simp only [rpcSend, rpc_scrub, canEnqueue_scrub]
  cases hr : s.rpc r with
  | opening a payload requestData | sending a requestData | closing a =>
    have ha (m : Message) : a.owner.scrub m = m := howner (by rw [hr]; rfl) m
    cases s.canEnqueue a.conn <;> simp [rpcDone_scrub, Event.scrub, ha]
  | _ => rfl

theorem rpcRecv_scrub (r : RpcId) : rpcRecv r s.scrub = (rpcRecv r s).map State.scrub := by
  simp only [rpcRecv, rpc_scrub]
  cases (s.rpc r).waiting with
  | none => rfl
  | some a =>
    simp only [link_scrub, Link.scrub]
    cases (s.link a).inbox with
    | nil => rfl
    | cons frame rest => simp [Link.scrub, Event.scrub]

theorem rpcUnsubscribe_scrub (r : RpcId) :
    rpcUnsubscribe r s.scrub = (rpcUnsubscribe r s).map State.scrub := by
  simp only [rpcUnsubscribe, rpc_scrub, conn_scrub, Conn.scrub]
  cases s.rpc r with
  | unsubscribing a thenClose =>
    by_cases hlocked : (s.conn a.conn).reader.isDispatching
    · simp [hlocked]
    · cases thenClose <;> simp [hlocked, rpcDone_scrub, Conn.scrub]
  | _ => rfl

theorem rpcGivesUp_scrub (r : RpcId) :
    rpcGivesUp r s.scrub = (rpcGivesUp r s).map State.scrub := by
  simp only [rpcGivesUp, rpc_scrub]
  cases (s.rpc r).waiting with
  | none => rfl
  | some a => simp [rpcDone_scrub]

/-- What a step does without the members is what it does with them, the members taken out. -/
theorem step_scrub (hs : Wf s) (act : Action) :
    step s.scrub act.scrub = (step s act).map State.scrub := by
  have howner (w : WsId) (a : Attachment) (ha : (s.session w).holds a) : a.owner = .ws w :=
    (hs.holds w a ha).1
  cases act with
  | agentUp c => exact agentUp_scrub c
  | kick host => exact congrArg some (kick_scrub host)
  | agentRecv c m => exact agentRecv_scrub c m
  | dispatch c => exact dispatch_scrub c
  | agentGone c => exact agentGone_scrub c
  | cleanup c => exact cleanup_scrub c
  | abortWriter c => exact abortWriter_scrub c
  | write c => exact write_scrub c
  | writerFails c => exact writerFails_scrub c
  | wsUp w => exact wsUp_scrub w
  | wsFrame w m serial => exact wsFrame_scrub w m serial (howner w)
  | wsConnect w => exact wsConnect_scrub w
  | wsOpen w => exact wsOpen_scrub w (howner w)
  | closeNotified w => exact closeNotified_scrub w
  | wsEnd w reason => exact wsEnd_scrub w reason
  | proxyStep a => exact proxyStep_scrub a
  | forward a => exact forward_scrub a
  | forwarderEnds a => exact forwarderEnds_scrub a
  | rpcStart r host payload requestData serial =>
    exact rpcStart_scrub r host payload requestData serial
  | rpcSubscribe r => exact rpcSubscribe_scrub r
  | rpcSend r => exact rpcSend_scrub hs r
  | rpcRecv r => exact rpcRecv_scrub r
  | rpcUnsubscribe r => exact rpcUnsubscribe_scrub r
  | rpcGivesUp r => exact rpcGivesUp_scrub r

end

end Tenodera.Gateway.Relay
