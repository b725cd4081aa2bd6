import Tenodera.Lib.Run
import Tenodera.Protocol.Message

/-!
# The transport of the user interface

`transport.ts` keeps the socket, the promise of its `connect()` and the listeners of its channels in
variables of the module, and the handlers of every socket use whatever these hold when an event
comes.  A handler runs to its end; what the callbacks call that it notifies on its way is a part of
the action, and what is called after its last notification is an action of its own.
-/

namespace Tenodera.Ui.Transport

open Protocol

/-- `WebSocket.readyState`; a closing socket remembers whether it has ever been open. -/
inductive ReadyState
  | connecting
  | open_
  | closing (established : Bool)
  | closed
  deriving DecidableEq

structure Socket where
  readyState : ReadyState
  /-- Whether the promise of its `connect()` is fulfilled, once it is settled. -/
  outcome : Option Bool
  /-- How many reconnect attempts wait for the promise. -/
  attempts : ℕ
  /-- An auth result has come; only for statements. -/
  answered : Bool
  deriving DecidableEq

/-- `new WebSocket`, with the promise that waits for it. -/
def Socket.new : Socket := ⟨.connecting, none, 0, false⟩

/-- `close()` of a socket: a handshake that is given up counts as failed. -/
def Socket.close (socket : Socket) : Socket :=
  match socket.readyState with
  | .connecting => { socket with readyState := .closing false }
  | .open_ => { socket with readyState := .closing true }
  | _ => socket

/-- A channel with its listeners; `owner` is the socket it was opened on, only for statements. -/
structure Listener where
  channel : String
  owner : Option ℕ
  deriving DecidableEq

structure State where
  /-- `sessionStorage.getItem('session_id')`, empty when there is none. -/
  sessionId : String
  /-- Every socket by its number; from `created` on they are yet to come. -/
  socket : ℕ → Socket
  created : ℕ
  ws : Option ℕ
  channelListeners : List Listener
  nextChannelId : ℕ
  /-- The socket that the promise is of. -/
  connectPromise : Option ℕ
  /-- A timer is set. -/
  reconnectTimer : Bool
  reconnectAttempt : ℕ
  intentionalClose : Bool
  /-- The reconnect attempts whose promise is settled, before their `then` or `catch` has run. -/
  reactions : List Bool
  /-- The socket whose error event has fired and whose close event is next. -/
  failing : Option ℕ
  /-- The frames that the sockets have taken. -/
  sent : List (ℕ × Value)
  /-- `disconnect()` was called, and `connect()` not since; only for statements. -/
  away : Bool
  /-- A close event has altered what belongs to a newer socket; only for statements. -/
  disturbed : Bool

def State.init : State :=
  ⟨"", fun _ => .new, 0, none, [], 1, none, false, 0, false, [], none, [], false, false⟩

namespace State

variable (s : State)

def setSocket (i : ℕ) (socket : Socket) : State :=
  { s with socket := Function.update s.socket i socket }

/-! ## What the user interface calls -/

/-- `ws?.send(frame)`, which throws while the socket still connects. -/
def send (frame : Value) : Option State :=
  match s.ws with
  | none => some s
  | some i =>
    match (s.socket i).readyState with
    | .connecting => none
    | .open_ => some { s with sent := s.sent ++ [(i, frame)] }
    | _ => some s

/-- `ws?.close()`. -/
def closeWs : State :=
  match s.ws with
  | none => s
  | some i => s.setSocket i (s.socket i).close

/-- `connect()`; the promise it returns is the one that `connectPromise` then holds. -/
def connect : State :=
  let s := { s with away := false }
  match s.connectPromise with
  | some _ => s
  | none =>
    { s with
      created := s.created + 1
      ws := some s.created
      connectPromise := some s.created }

def disconnect : State :=
  let s := { s with intentionalClose := true }
  let s := { s with reconnectTimer := false, reconnectAttempt := 0 }
  let s := s.closeWs
  { s with
    ws := none
    connectPromise := none
    channelListeners := []
    intentionalClose := false
    away := true }

/-- An object with one property set: in its place, or at the end. -/
def setProperty (entries : List (String × Value)) (p : String × Value) : List (String × Value) :=
  if p.1 ∈ entries.map Prod.fst then entries.map fun q => if q.1 = p.1 then p else q
  else entries ++ [p]

/-- `openChannel(payload, options)`: when the send throws, the channel stays in the map. -/
def openChannel (payload : String) (options : List (String × Value)) : State :=
  let channel := toString s.nextChannelId
  let s :=
    { s with
      nextChannelId := s.nextChannelId + 1
      channelListeners := s.channelListeners ++ [Listener.mk channel s.ws] }
  (s.send (.object (options.foldl setProperty
    [("type", .string "open"), ("channel", .string channel), ("payload", .string payload)]))).getD s

/-- `send` of a channel. -/
def sendData (channel : String) (data : Value) : State :=
  (s.send (.object
    [("type", .string "data"), ("channel", .string channel), ("data", data)])).getD s

/-- `close` of a channel: when the send throws, the channel stays in the map. -/
def closeChannel (channel : String) : State :=
  match s.send (.object [("type", .string "close"), ("channel", .string channel)]) with
  | none => s
  | some s => { s with channelListeners := s.channelListeners.filter (·.channel ≠ channel) }

end State

/-- A call of the user interface, or of one of its callbacks. -/
inductive Call
  | connect
  | disconnect
  | openChannel (payload : String) (options : List (String × Value))
  | send (channel : String) (data : Value)
  | closeChannel (channel : String)

def State.call (s : State) : Call → State
  | .connect => s.connect
  | .disconnect => s.disconnect
  | .openChannel payload options => s.openChannel payload options
  | .send channel data => s.sendData channel data
  | .closeChannel channel => s.closeChannel channel

/-- What callbacks call, one after the other. -/
def State.calls (s : State) (calls : List Call) : State := calls.foldl State.call s

/-! ## Events -/

/-- A frame from the server; the listeners of a channel only run callbacks. -/
inductive Incoming
  | authResult (success : Bool)
  | ping
  | other
  deriving DecidableEq

inductive Action
  | call (c : Call)
  /-- Someone logs in or out. -/
  | setSession (sessionId : String)
  | onopen (i : ℕ)
  | onmessage (i : ℕ) (message : Incoming)
  | onerror (i : ℕ)
  /-- The close event, with what the listeners of the channels call and what those of the connection
  state do. -/
  | onclose (i : ℕ) (listeners watchers : List Call)
  | timer
  /-- The `then` or `catch` of a reconnect attempt runs. -/
  | reaction (watchers : List Call)

namespace State

variable (s : State)

/-- The promise of the socket is fulfilled or rejected, which it is once only. -/
def settle (i : ℕ) (fulfilled : Bool) : State :=
  match (s.socket i).outcome with
  | some _ => s
  | none =>
    { s.setSocket i { s.socket i with outcome := some fulfilled, attempts := 0 } with
      reactions := s.reactions ++ List.replicate (s.socket i).attempts fulfilled }

def onopen (i : ℕ) : State :=
  let s := s.setSocket i { s.socket i with readyState := .open_ }
  (s.send (.object [("type", .string "auth"), ("credentials", .object
    [("scheme", .string "token"), ("token", .string s.sessionId)])])).getD s

def onmessage (i : ℕ) : Incoming → State
  | .authResult success =>
    let s := (s.setSocket i { s.socket i with answered := true }).settle i success
    if success then s else s.closeWs
  | .ping => (s.send (.object [("type", .string "pong")])).getD s
  | .other => s

def onerror (i : ℕ) : State :=
  { (s.setSocket i { s.socket i with readyState := .closed }).settle i false with
    failing := some i }

/-- `scheduleReconnect()`, where the watchers are told before the timer is set. -/
def scheduleReconnect (watchers : List Call) : Option State :=
  if s.reconnectTimer then
    if watchers.isEmpty then some s else none
  else
    let s := { s with reconnectAttempt := s.reconnectAttempt + 1 }
    some { s.calls watchers with reconnectTimer := true }

/-- The socket is newer than the socket `i`. -/
def isNewer (i : ℕ) (ws : Option ℕ) : Bool := ws.any (i < ·)

/-- On the way to `t`, the current socket, the pending promise or a channel changes or goes that
belongs to a newer socket than `i`. -/
def alters (i : ℕ) (t : State) : Bool :=
  isNewer i s.ws && t.ws != s.ws ||
    isNewer i s.connectPromise && t.connectPromise != s.connectPromise ||
    s.channelListeners.any fun l => isNewer i l.owner && !t.channelListeners.contains l

/-- The socket has closed, and its close event is about to be handled. -/
def closes (i : ℕ) : State :=
  { s.setSocket i { s.socket i with readyState := .closed } with failing := none }

def onclose (i : ℕ) (listeners watchers : List Call) : Option State :=
  let s := (s.closes i).calls listeners
  let t := { s with ws := none, connectPromise := none, channelListeners := [] }
  let t := { t with disturbed := t.disturbed || s.alters i t }
  if t.intentionalClose then some (t.calls watchers) else t.scheduleReconnect watchers

/-- The callback of the timer. -/
def onTimer : State :=
  let s := { s with reconnectTimer := false }
  if s.intentionalClose || s.sessionId.isEmpty then s
  else
    let s := s.connect
    match s.connectPromise with
    | none => s
    | some i =>
      match (s.socket i).outcome with
      | none => s.setSocket i { s.socket i with attempts := (s.socket i).attempts + 1 }
      | some fulfilled => { s with reactions := s.reactions ++ [fulfilled] }

/-- The reactions of promises come before the next event, and a close event right after its error
event. -/
def isIdle : Bool := s.reactions.isEmpty && s.failing.isNone

end State

/-- The page takes one action. -/
def step (s : State) : Action → Option State
  | .call c => some (s.call c)
  | .setSession sessionId => some { s with sessionId := sessionId }
  | .onopen i =>
    if s.isIdle ∧ i < s.created ∧ (s.socket i).readyState = .connecting then some (s.onopen i)
    else none
  | .onmessage i message =>
    if s.isIdle ∧ i < s.created ∧ (s.socket i).readyState = .open_ then some (s.onmessage i message)
    else none
  | .onerror i =>
    if s.isIdle ∧ i < s.created ∧ (s.socket i).readyState ≠ .closed then some (s.onerror i)
    else none
  | .onclose i listeners watchers =>
    if s.failing = some i ∧ s.reactions.isEmpty ∨ s.isIdle ∧ i < s.created ∧
        ((s.socket i).readyState = .open_ ∨ (s.socket i).readyState = .closing true) then
      s.onclose i listeners watchers
    else none
  | .timer => if s.isIdle ∧ s.reconnectTimer then some s.onTimer else none
  | .reaction watchers =>
    match s.reactions with
    | [] => none
    | true :: rest => some ({ s with reactions := rest, reconnectAttempt := 0 }.calls watchers)
    | false :: rest => { s with reactions := rest }.scheduleReconnect watchers

end Tenodera.Ui.Transport
