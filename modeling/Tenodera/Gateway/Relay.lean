import Mathlib.Data.List.AList
import Mathlib.Logic.Function.Basic
import Tenodera.Gateway.Channels

/-!
# The relay between browsers and agents

The data plane of the gateway: reader and writer task of every agent connection, browser sessions
with their routes, one proxy task and one forwarder task for every session attached to an agent, and
RPC calls.  `step` is the whole system, one wake-up of one task at a time; a task that would have to
wait for room in a queue or for a lock has no step.
-/

namespace Tenodera.Gateway.Relay

open Protocol

/-! ## Who talks to whom -/

inductive Role
  | admin
  | readonly
  deriving DecidableEq, Repr

def Role.asStr : Role → String
  | admin => "admin"
  | readonly => "readonly"

/-- A browser WebSocket connection, past authentication; several can carry one token. -/
structure WsId where
  serial : ℕ
  token : Uuid
  user : String
  role : Role
  deriving DecidableEq

/-- An RPC call and the random number it draws for its prefix. -/
structure RpcId where
  serial : ℕ
  raw : UInt32
  deriving DecidableEq, Repr

inductive Owner
  | ws (w : WsId)
  | rpc (r : RpcId)
  deriving DecidableEq

/-- The prefix of an owner's channels.  The socket loop passes its own prefix on to
`connect_session`, which takes the prefix again. -/
def Owner.pfx : Owner → String
  | ws w => sessionPrefix (sessionPrefix w.token.text)
  | rpc r => hex8 r.raw

/-- A connection of the agent of a host: one `AgentConn`. -/
structure ConnId where
  host : String
  serial : ℕ
  deriving DecidableEq, Repr

/-- The attachment of an owner to a connection: what `connect_session`, or the start of
`execute_rpc`, sets up. -/
structure Attachment where
  owner : Owner
  conn : ConnId
  serial : ℕ
  deriving DecidableEq

/-! ## State -/

/-- A message on its way from an agent, with the client's channel id.  `opener` is not part of the
gateway: it is who had opened the channel last when the agent sent the message. -/
structure Frame where
  msg : Message
  opener : Option Owner

/-- The reader task of a connection. -/
inductive Reader
  /-- Not registered yet. -/
  | absent
  | reading
  /-- Holds the lock on the subscribers until the frame is in the queue of an attachment. -/
  | dispatching (frame : Frame) (target : Attachment)
  /-- The loop has ended; the clean-up follows. -/
  | ended
  /-- The host is unregistered; the writer is about to be aborted. -/
  | unregistered
  | closed

structure Conn where
  reader : Reader
  /-- Who is subscribed under which prefix. -/
  subscribers : AList fun _ : String => Attachment
  /-- The queue of the writer task, with the owner each message comes from. -/
  toAgent : List (Owner × Message)
  writerAlive : Bool
  /-- How many callers of `connect_session` and `execute_rpc` hold the `AgentConn`. -/
  held : ℕ

/-- The two queues of an attachment and the tasks that empty them: the proxy towards the agent (of
sessions only), and the forwarder, or the RPC call, towards the owner. -/
structure Link where
  proxy : List Message
  proxyAlive : Bool
  inbox : List Frame
  inboxAlive : Bool

/-- An Open of the browser that is being handled. -/
structure PendingOpen where
  host : String
  channel : ChannelId
  options : ChannelOpenOptions
  attachment : Attachment

/-- Where the socket loop of a session is. -/
inductive Loop
  | absent
  /-- Waiting for a frame, a report of a closed channel or the next check of the session. -/
  | select
  /-- In `connect_session`, waiting to write the subscribers. -/
  | connecting (p : PendingOpen)
  /-- Sending the Open to the proxy task. -/
  | opening (p : PendingOpen)
  | ended

def Loop.isRunning : Loop → Bool
  | absent | ended => false
  | _ => true

structure Session where
  loop : Loop
  /-- `channel_routes`. -/
  routes : AList fun _ : ChannelId => Attachment
  /-- `remote_senders`, by host. -/
  remoteSenders : AList fun _ : String => Attachment
  /-- Closed channels the forwarders report to the socket loop, with the reporting attachment. -/
  closeNotify : List (ChannelId × Attachment)

/-- Where an RPC call is in `execute_rpc`. -/
inductive Rpc
  | idle
  /-- Waiting to write the subscribers. -/
  | subscribing (a : Attachment) (payload : String) (requestData : Value)
  | opening (a : Attachment) (payload : String) (requestData : Value)
  | awaitReady (a : Attachment) (requestData : Value)
  | sending (a : Attachment) (requestData : Value)
  | awaitResponse (a : Attachment)
  /-- Waiting to remove the entry; a Close follows unless the first answer was not Ready. -/
  | unsubscribing (a : Attachment) (thenClose : Bool)
  | closing (a : Attachment)
  | done

def Rpc.attachment : Rpc → Option Attachment
  | idle | done => none
  | subscribing a _ _ | opening a _ _ | awaitReady a _ | sending a _ | awaitResponse a
  | unsubscribing a _ | closing a => some a

/-- What can be observed of a run. -/
inductive Event
  /-- The owner got hold of the `AgentConn`, to attach to the connection. -/
  | acquired (a : Attachment)
  /-- The owner has sent the Open of a channel on its way to the agent. -/
  | opened (a : Attachment) (channel : ChannelId)
  /-- The owner has sent the Close of a channel on its way to the agent. -/
  | closed (a : Attachment) (channel : ChannelId)
  | fromAgent (c : ConnId) (m : Message)
  | toAgent (c : ConnId) (o : Owner) (m : Message)
  | toBrowser (a : Attachment) (frame : Frame)
  | toCaller (a : Attachment) (frame : Frame)
  /-- The gateway's own answers to a browser. -/
  | fromGateway (w : WsId) (m : Message)
  /-- A session lost the route of a channel because `reporter` saw a Close. -/
  | routeClosed (channel : ChannelId) (route reporter : Attachment)
  /-- The re-enrolment path unregistered the connection. -/
  | kicked (c : ConnId)

structure State where
  registry : AList fun _ : String => ConnId
  conn : ConnId → Conn
  attached : List Attachment
  link : Attachment → Link
  session : WsId → Session
  rpc : RpcId → Rpc
  /-- Not part of the gateway: the events so far, latest first. -/
  log : List Event

def State.init : State where
  registry := ∅
  conn _ := ⟨.absent, ∅, [], false, 0⟩
  attached := []
  link _ := ⟨[], false, [], false⟩
  session _ := ⟨.absent, ∅, ∅, []⟩
  rpc _ := .idle
  log := []

/-- Who opened the channel of that id on the connection last. -/
def lastOpener (c : ConnId) (channel : ChannelId) : List Event → Option Owner
  | [] => none
  | .opened a id :: log =>
    if a.conn = c ∧ prefixed a.owner.pfx id = channel then some a.owner
    else lastOpener c channel log
  | _ :: log => lastOpener c channel log

def toAgentCap : ℕ := 512

def proxyCap : ℕ := 256

def Attachment.inboxCap (a : Attachment) : ℕ :=
  match a.owner with
  | .ws _ => 256
  | .rpc _ => 4

/-- There is room for one more message.  The model's queue includes the message that the receiving
task has in hand. -/
def hasRoom {α : Type*} (queue : List α) (cap : ℕ) : Bool := queue.length ≤ cap

def maxChannelsPerSession : ℕ := 512

def maxRemoteAgents : ℕ := 50

/-- The frame decodes: its channel id, if it has one, is valid. -/
def decodes (m : Message) : Bool :=
  m.channel.all fun channel => (ChannelId.new channel).isOk

namespace State

variable (s : State)

def setConn (c : ConnId) (conn : Conn) : State := { s with conn := Function.update s.conn c conn }

def setLink (a : Attachment) (link : Link) : State :=
  { s with link := Function.update s.link a link }

def setSession (w : WsId) (session : Session) : State :=
  { s with session := Function.update s.session w session }

def setRpc (r : RpcId) (rpc : Rpc) : State := { s with rpc := Function.update s.rpc r rpc }

def emit (e : Event) : State := { s with log := e :: s.log }

/-- The liveness token of a connection: it lives as long as the registry, a `connect_session` or an
RPC call holds the `AgentConn`. -/
def tokenAlive (c : ConnId) : Bool := s.registry.lookup c.host = some c || 0 < (s.conn c).held

/-- The attachment gets its queues and an entry among the subscribers, in place of the one that is
there under its prefix. -/
def attach (a : Attachment) (link : Link) : State :=
  { (s.setConn a.conn { s.conn a.conn with
      subscribers := (s.conn a.conn).subscribers.insert a.owner.pfx a }).setLink a link with
    attached := a :: s.attached }

/-- A send to the writer task; when that is gone the message is lost. -/
def enqueue (c : ConnId) (o : Owner) (m : Message) : State :=
  s.setConn c { s.conn c with
    toAgent :=
      if (s.conn c).writerAlive then (s.conn c).toAgent ++ [(o, m)] else (s.conn c).toAgent }

/-- A send to the writer task of a connection does not have to wait. -/
def canEnqueue (c : ConnId) : Bool :=
  !(s.conn c).writerAlive || hasRoom (s.conn c).toAgent toAgentCap

def release (c : ConnId) : State :=
  s.setConn c { s.conn c with held := (s.conn c).held - 1 }

def retain (c : ConnId) : State :=
  s.setConn c { s.conn c with held := (s.conn c).held + 1 }

/-- Somebody can still put a message into the inbox of an attachment. -/
def hasSender (a : Attachment) : Bool :=
  (s.conn a.conn).subscribers.lookup a.owner.pfx = some a &&
    match (s.conn a.conn).reader with
    | .closed => s.tokenAlive a.conn
    | _ => true

end State

/-! ## Agent connections -/

/-- The reader holds the lock on the subscribers. -/
def Reader.isDispatching : Reader → Bool
  | dispatching _ _ => true
  | _ => false

/-- `register`. -/
def agentUp (c : ConnId) (s : State) : Option State :=
  match (s.conn c).reader with
  | .absent =>
    some { s.setConn c ⟨.reading, ∅, [], true, 0⟩ with registry := s.registry.insert c.host c }
  | _ => none

/-- The kick of the re-enrolment path: `unregister`. -/
def kick (host : String) (s : State) : State :=
  match s.registry.lookup host with
  | some c => { s.emit (.kicked c) with registry := s.registry.erase host }
  | none => s

/-- The reader takes a frame from the agent; without a subscriber under its prefix it is dropped. -/
def agentRecv (c : ConnId) (m : Message) (s : State) : Option State :=
  match (s.conn c).reader with
  | .reading =>
    let received := s.emit (.fromAgent c m)
    if ¬ decodes m then some received
    else
      match stripPrefixFromMessage m with
      | none => some received
      | some (stripped, pfx) =>
        match (s.conn c).subscribers.lookup pfx with
        | none => some received
        | some a =>
          let frame : Frame := ⟨stripped, m.channel.bind fun ch => lastOpener c ch s.log⟩
          some (received.setConn c { s.conn c with reader := .dispatching frame a })
  | _ => none

/-- The reader puts the frame into the subscriber's inbox once there is room; if the receiver is
gone the frame is dropped. -/
def dispatch (c : ConnId) (s : State) : Option State :=
  match (s.conn c).reader with
  | .dispatching frame a =>
    let released := s.setConn c { s.conn c with reader := .reading }
    let link := s.link a
    if ¬ link.inboxAlive then some released
    else if hasRoom link.inbox a.inboxCap then
      some (released.setLink a { link with inbox := link.inbox ++ [frame] })
    else none
  | _ => none

/-- The reader loop ends: the socket is closed or fails. -/
def agentGone (c : ConnId) (s : State) : Option State :=
  match (s.conn c).reader with
  | .reading => some (s.setConn c { s.conn c with reader := .ended })
  | _ => none

/-- The clean-up after the reader loop: `unregister`. -/
def cleanup (c : ConnId) (s : State) : Option State :=
  match (s.conn c).reader with
  | .ended =>
    some { s.setConn c { s.conn c with reader := .unregistered } with
      registry := s.registry.erase c.host }
  | _ => none

/-- The end of the clean-up: the writer is aborted. -/
def abortWriter (c : ConnId) (s : State) : Option State :=
  match (s.conn c).reader with
  | .unregistered =>
    some (s.setConn c { s.conn c with reader := .closed, toAgent := [], writerAlive := false })
  | _ => none

/-- The writer sends the next message to the agent. -/
def write (c : ConnId) (s : State) : Option State :=
  match (s.conn c).toAgent with
  | (o, m) :: rest =>
    some ((s.setConn c { s.conn c with toAgent := rest }).emit (.toAgent c o m))
  | [] => none

/-- A send of the writer fails: its task ends and its queue is gone. -/
def writerFails (c : ConnId) (s : State) : Option State :=
  if (s.conn c).writerAlive then
    some (s.setConn c { s.conn c with toAgent := [], writerAlive := false })
  else none

/-! ## Browser sessions -/

/-- The session is authenticated. -/
def wsUp (w : WsId) (s : State) : Option State :=
  match (s.session w).loop with
  | .absent => some (s.setSession w ⟨.select, ∅, ∅, []⟩)
  | _ => none

/-- The Open as it is forwarded: the host is stripped, user and role are put in. -/
def cleanOpen (w : WsId) (options : ChannelOpenOptions) : ChannelOpenOptions :=
  { options with
    extra := ((options.extra.erase "host").insert "_user" (.string w.user)).insert "_role"
      (.string w.role.asStr) }

/-- The gateway answers an Open with a Close of its own. -/
def refuse (w : WsId) (channel : ChannelId) (problem : String) (s : State) : State :=
  s.emit (.fromGateway w (.close channel (some problem)))

/-- The cached sender of a host, if its liveness token is still alive. -/
def validCached (w : WsId) (host : String) (s : State) : Option Attachment :=
  ((s.session w).remoteSenders.lookup host).filter fun a => s.tokenAlive a.conn

/-- An Open of the browser, up to the point where it waits: for the proxy task of a cached sender,
or in `connect_session`. -/
def handleOpen (w : WsId) (channel : ChannelId) (options : ChannelOpenOptions) (serial : ℕ)
    (s : State) : State :=
  let session := s.session w
  if session.routes.entries.length ≥ maxChannelsPerSession then
    refuse w channel "channel-limit-exceeded" s
  else if channel.utf8ByteSize > maxChannelIdLen - (sessionPrefixLen + 1) then
    refuse w channel "channel-id-too-long" s
  else if channel ∈ session.routes then refuse w channel "duplicate-channel-id" s
  else
    match (options.extra.lookup "host").bind Value.asStr with
    | none => refuse w channel "host-required" s
    | some host =>
      match validCached w host s with
      | some a => s.setSession w { session with loop := .opening ⟨host, channel, options, a⟩ }
      | none =>
        let evicted := { session with remoteSenders := session.remoteSenders.erase host }
        if evicted.remoteSenders.entries.length ≥ maxRemoteAgents then
          refuse w channel "remote-agent-limit-exceeded" (s.setSession w evicted)
        else
          match s.registry.lookup host with
          | none => refuse w channel "host-offline" (s.setSession w evicted)
          | some c =>
            let a : Attachment := ⟨.ws w, c, serial⟩
            ((s.setSession w
              { evicted with loop := .connecting ⟨host, channel, options, a⟩ }).retain c).emit
                (.acquired a)

/-- `connect_session` gets the lock; its sender goes into the cache. -/
def wsConnect (w : WsId) (s : State) : Option State :=
  let session := s.session w
  match session.loop with
  | .connecting p =>
    let a := p.attachment
    if a ∈ s.attached ∨ (s.conn a.conn).reader.isDispatching then none
    else
      some (((s.attach a ⟨[], true, [], true⟩).release a.conn).setSession w
        { session with
          loop := .opening p
          remoteSenders := session.remoteSenders.insert p.host a })
  | _ => none

/-- The Open is sent to the proxy task and the route put in; when the task is gone the sender is
evicted. -/
def wsOpen (w : WsId) (s : State) : Option State :=
  let session := s.session w
  match session.loop with
  | .opening p =>
    let a := p.attachment
    let link := s.link a
    if ¬ link.proxyAlive then
      some (refuse w p.channel "host-offline"
        (s.setSession w
          { session with
            loop := .select
            remoteSenders := session.remoteSenders.erase p.host }))
    else if hasRoom link.proxy proxyCap then
      some
        (((s.setSession w
          { session with loop := .select, routes := session.routes.insert p.channel a }).setLink a
            { link with proxy := link.proxy ++ [.open_ p.channel (cleanOpen w p.options)] }).emit
              (.opened a p.channel))
    else none
  | _ => none

/-- A Data, Control or Close of the browser goes through the route of its channel. -/
def handleRouted (w : WsId) (channel : ChannelId) (m : Message) (isClose : Bool) (s : State) :
    Option State :=
  let session := s.session w
  match session.routes.lookup channel with
  | none => some s
  | some a =>
    let link := s.link a
    let dropped := s.setSession w { session with routes := session.routes.erase channel }
    if ¬ link.proxyAlive then some dropped
    else if hasRoom link.proxy proxyCap then
      let queued := { link with proxy := link.proxy ++ [m] }
      if isClose then some ((dropped.setLink a queued).emit (.closed a channel))
      else some (s.setLink a queued)
    else none

/-- A frame from the browser. -/
def wsFrame (w : WsId) (m : Message) (serial : ℕ) (s : State) : Option State :=
  match (s.session w).loop with
  | .select =>
    if ¬ decodes m then some s
    else
      match m with
      | .ping => some (s.emit (.fromGateway w .pong))
      | .open_ channel options => some (handleOpen w channel options serial s)
      | .data channel d => handleRouted w channel (.data channel d) false s
      | .control channel command extra =>
        handleRouted w channel (.control channel command extra) false s
      | .close channel problem => handleRouted w channel (.close channel problem) true s
      | _ => some s
  | _ => none

/-- The socket loop takes a report of a closed channel. -/
def closeNotified (w : WsId) (s : State) : Option State :=
  let session := s.session w
  match session.loop, session.closeNotify with
  | .select, (channel, reporter) :: rest =>
    let noted := s.setSession w
      { session with routes := session.routes.erase channel, closeNotify := rest }
    match session.routes.lookup channel with
    | some route => some (noted.emit (.routeClosed channel route reporter))
    | none => some noted
  | _, _ => none

/-- How the socket loop is left. -/
inductive EndReason
  /-- The stream ends or fails. -/
  | streamEnded
  | clientClose
  /-- The session has expired or was logged out. -/
  | sessionInvalidated
  deriving DecidableEq, Repr

/-- The socket loop is left, whatever the reason: the senders are dropped. -/
def wsEnd (w : WsId) (_reason : EndReason) (s : State) : Option State :=
  match (s.session w).loop with
  | .select => some (s.setSession w ⟨.ended, ∅, ∅, []⟩)
  | _ => none

/-- The proxy task puts the prefix on the next message and queues it for the agent; when the writer
is gone the proxy ends. -/
def proxyStep (a : Attachment) (s : State) : Option State :=
  let link := s.link a
  match link.proxyAlive, link.proxy with
  | true, m :: rest =>
    if ¬ (s.conn a.conn).writerAlive then
      some (s.setLink a { link with proxy := [], proxyAlive := false })
    else if s.canEnqueue a.conn then
      some ((s.setLink a { link with proxy := rest }).enqueue a.conn a.owner
        (prefixMessage m a.owner.pfx))
    else none
  | _, _ => none

/-- The forwarder task sends the next message to the browser, and reports a Close. -/
def forward (a : Attachment) (s : State) : Option State :=
  let link := s.link a
  match a.owner, link.inboxAlive, link.inbox with
  | .ws w, true, frame :: rest =>
    let sent := (s.setLink a { link with inbox := rest }).emit (.toBrowser a frame)
    let session := s.session w
    match frame.msg, session.loop.isRunning with
    | .close channel _, true =>
      some (sent.setSession w { session with closeNotify := session.closeNotify ++ [(channel, a)] })
    | _, _ => some sent
  | _, _, _ => none

/-- The forwarder task ends: a send to the browser fails, or its inbox is empty and nobody can put
anything into it any more. -/
def forwarderEnds (a : Attachment) (s : State) : Option State :=
  let link := s.link a
  match a.owner, link.inboxAlive with
  | .ws _, true =>
    if link.inbox.isEmpty ∧ s.hasSender a then none
    else some (s.setLink a { link with inbox := [], inboxAlive := false })
  | _, _ => none

/-! ## RPC calls -/

def rpcChannel : ChannelId := "rpc"

/-- `execute_rpc` gets hold of the `AgentConn` and draws its prefix. -/
def rpcStart (r : RpcId) (host payload : String) (requestData : Value) (serial : ℕ) (s : State) :
    Option State :=
  match s.rpc r, s.registry.lookup host with
  | .idle, some c =>
    let a : Attachment := ⟨.rpc r, c, serial⟩
    some (((s.setRpc r (.subscribing a payload requestData)).retain c).emit (.acquired a))
  | _, _ => none

def rpcSubscribe (r : RpcId) (s : State) : Option State :=
  match s.rpc r with
  | .subscribing a payload requestData =>
    if a ∈ s.attached ∨ (s.conn a.conn).reader.isDispatching then none
    else some ((s.attach a ⟨[], false, [], true⟩).setRpc r (.opening a payload requestData))
  | _ => none

/-- The call is over: the receiver is dropped and the `AgentConn` let go. -/
def rpcDone (r : RpcId) (a : Attachment) (s : State) : State :=
  ((s.release a.conn).setLink a ⟨[], false, [], false⟩).setRpc r .done

/-- The call sends: first the Open, after Ready the request data, in the end the Close. -/
def rpcSend (r : RpcId) (s : State) : Option State :=
  match s.rpc r with
  | .opening a payload requestData =>
    let channel := prefixed a.owner.pfx rpcChannel
    if s.canEnqueue a.conn then
      some (((s.enqueue a.conn a.owner (.open_ channel ⟨payload, none, ∅⟩)).emit
        (.opened a rpcChannel)).setRpc r (.awaitReady a requestData))
    else none
  | .sending a requestData =>
    let channel := prefixed a.owner.pfx rpcChannel
    if s.canEnqueue a.conn then
      some ((s.enqueue a.conn a.owner (.data channel requestData)).setRpc r (.awaitResponse a))
    else none
  | .closing a =>
    let channel := prefixed a.owner.pfx rpcChannel
    if s.canEnqueue a.conn then
      some (rpcDone r a
        ((s.enqueue a.conn a.owner (.close channel none)).emit (.closed a rpcChannel)))
    else none
  | _ => none

/-- What the call does after a message: Ready is answered with the request data, and after the
response or anything but Ready the call unsubscribes. -/
def Rpc.received : Rpc → Message → Rpc
  | awaitReady a requestData, .ready _ => .sending a requestData
  | awaitReady a _, _ => .unsubscribing a false
  | awaitResponse a, _ => .unsubscribing a true
  | r, _ => r

/-- The attachment on which the call waits for a message. -/
def Rpc.waiting : Rpc → Option Attachment
  | awaitReady a _ | awaitResponse a => some a
  | _ => none

/-- The call receives the next message. -/
def rpcRecv (r : RpcId) (s : State) : Option State :=
  match (s.rpc r).waiting with
  | some a =>
    let link := s.link a
    match link.inbox with
    | frame :: rest =>
      some (((s.setLink a { link with inbox := rest }).emit (.toCaller a frame)).setRpc r
        ((s.rpc r).received frame.msg))
    | [] => none
  | none => none

def rpcUnsubscribe (r : RpcId) (s : State) : Option State :=
  match s.rpc r with
  | .unsubscribing a thenClose =>
    let conn := s.conn a.conn
    if conn.reader.isDispatching then none
    else
      let unsubscribed := s.setConn a.conn
        { conn with subscribers := conn.subscribers.erase a.owner.pfx }
      if thenClose then some (unsubscribed.setRpc r (.closing a))
      else some (rpcDone r a unsubscribed)
  | _ => none

/-- A time-out, or the loss of the sender: the call returns and leaves its entry behind. -/
def rpcGivesUp (r : RpcId) (s : State) : Option State :=
  (s.rpc r).waiting.map fun a => rpcDone r a s

/-! ## Steps -/

inductive Action
  | agentUp (c : ConnId)
  | kick (host : String)
  | agentRecv (c : ConnId) (m : Message)
  | dispatch (c : ConnId)
  | agentGone (c : ConnId)
  | cleanup (c : ConnId)
  | abortWriter (c : ConnId)
  | write (c : ConnId)
  | writerFails (c : ConnId)
  | wsUp (w : WsId)
  | wsFrame (w : WsId) (m : Message) (serial : ℕ)
  | wsConnect (w : WsId)
  | wsOpen (w : WsId)
  | closeNotified (w : WsId)
  | wsEnd (w : WsId) (reason : EndReason)
  | proxyStep (a : Attachment)
  | forward (a : Attachment)
  | forwarderEnds (a : Attachment)
  | rpcStart (r : RpcId) (host payload : String) (requestData : Value) (serial : ℕ)
  | rpcSubscribe (r : RpcId)
  | rpcSend (r : RpcId)
  | rpcRecv (r : RpcId)
  | rpcUnsubscribe (r : RpcId)
  | rpcGivesUp (r : RpcId)

def step (s : State) : Action → Option State
  | .agentUp c => agentUp c s
  | .kick host => some (kick host s)
  | .agentRecv c m => agentRecv c m s
  | .dispatch c => dispatch c s
  | .agentGone c => agentGone c s
  | .cleanup c => cleanup c s
  | .abortWriter c => abortWriter c s
  | .write c => write c s
  | .writerFails c => writerFails c s
  | .wsUp w => wsUp w s
  | .wsFrame w m serial => wsFrame w m serial s
  | .wsConnect w => wsConnect w s
  | .wsOpen w => wsOpen w s
  | .closeNotified w => closeNotified w s
  | .wsEnd w reason => wsEnd w reason s
  | .proxyStep a => proxyStep a s
  | .forward a => forward a s
  | .forwarderEnds a => forwarderEnds a s
  | .rpcStart r host payload requestData serial => rpcStart r host payload requestData serial s
  | .rpcSubscribe r => rpcSubscribe r s
  | .rpcSend r => rpcSend r s
  | .rpcRecv r => rpcRecv r s
  | .rpcUnsubscribe r => rpcUnsubscribe r s
  | .rpcGivesUp r => rpcGivesUp r s

/-! ## A session with a terminal -/

def webConn : ConnId := ⟨"web", 0⟩

def terminalOn (host : String) : ChannelOpenOptions :=
  ⟨"terminal.pty", none, AList.singleton "host" (.string host)⟩

/-- The first terminal of a session on a host. -/
def opensTerminal (w : WsId) (channel : ChannelId) (host : String) : List Action :=
  [.wsFrame w (.open_ channel (terminalOn host)) 0, .wsConnect w, .wsOpen w]

def aliceToken : Uuid where
  text := "3f2b8c1e-5a6d-4e7f-8a9b-0c1d2e3f4a5b"
  digits := by decide
  hex := by decide

/-- A tab of alice's browser: all tabs have her token. -/
def alice (tab : ℕ) : WsId := ⟨tab, aliceToken, "alice", .admin⟩

end Tenodera.Gateway.Relay
