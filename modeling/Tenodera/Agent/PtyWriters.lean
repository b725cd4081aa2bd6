import Mathlib.Logic.Equiv.Basic
import Tenodera.Agent.TerminalPty
import Tenodera.Lib.Descriptors
import Tenodera.Lib.Run
import Tenodera.Lib.Table
import Tenodera.Lib.Utf8

/-!
# Writing to terminals

The streams of the terminal handler, the table of writers they share with the Data messages, and the
kernel, which hands closed descriptor numbers out again and may take fewer bytes than it is given.
A Data message looks a number up under the lock and writes to it after the lock is released:
`confined_run_iff` says when everything reaches the PTY of its own channel, and `complete_iff` when
nothing of an input is lost.
-/

namespace Tenodera.Agent.PtyWriters

open Protocol Transition

/-! ## Data messages -/

/-- `data.get("resize")`. -/
def resize (data : Value) : Option Winsize :=
  (data.get "resize").map fun resize =>
    { rows := (((resize.get "rows").bind Value.asU64).getD 24).toUInt16
      cols := (((resize.get "cols").bind Value.asU64).getD 80).toUInt16 }

/-- The bytes of `data.get("input")`. -/
def input (data : Value) : Option (List UInt8) :=
  ((data.get "input").bind Value.asStr).map fun s => Utf8.bytes s.toList

/-! ## The system -/

/-- A call of `stream`. -/
inductive Task
  /-- The channel is ready, the PTY is not open yet. -/
  | starting (channel : ChannelId)
  /-- It owns both descriptors of the PTY. -/
  | opened (channel : ChannelId) (reader writer : ℕ)
  /-- It has put the writer into the table. -/
  | looping (channel : ChannelId) (reader : ℕ)
  /-- It has left the loop and removed the entry of the channel. -/
  | ended (channel : ChannelId) (reader : ℕ)
  deriving DecidableEq

namespace Task

def channel : Task → ChannelId
  | starting c | opened c _ _ | looping c _ | ended c _ => c

def reader : Task → Option ℕ
  | starting _ => none
  | opened _ r _ | looping _ r | ended _ r => some r

def writer : Task → Option ℕ
  | opened _ _ w => some w
  | starting _ | looping _ _ | ended _ _ => none

/-- The channel that the task keeps open. -/
def serves : Task → Option ChannelId
  | starting c | opened c _ _ | looping c _ => some c
  | ended _ _ => none

end Task

/-- What an object is given. -/
inductive Payload
  | bytes (bytes : List UInt8)
  | resize (ws : Winsize)
  deriving DecidableEq

def Payload.data : Payload → List UInt8
  | bytes bs => bs
  | resize _ => []

/-- An input between the release of the lock and the return of `write`. -/
structure Write where
  channel : ChannelId
  fd : Seen
  bytes : List UInt8

/-- A payload of a message on the channel has reached an object. -/
structure Delivery where
  channel : ChannelId
  /-- How many objects had been opened when the message was handled. -/
  opened : ℕ
  object : ℕ
  /-- The channel whose PTY the object is. -/
  pty : Option ChannelId
  payload : Payload

/-- The handler, its streams and the descriptors of the agent.  `inputs` and `deliveries` are what
has come in on open channels, and what has reached an object. -/
structure State where
  fds : Descriptors
  ptys : ℕ → Option ChannelId
  tasks : AList fun _ : ℕ => Task
  writers : AList fun _ : ChannelId => ℕ
  /-- The router awaits it before it takes the next message. -/
  pending : Option Write
  inputs : List (ChannelId × List UInt8)
  deliveries : List Delivery

def State.init : State := ⟨.empty, fun _ => none, ∅, ∅, none, [], []⟩

/-- What `write` returns. -/
inductive WriteResult
  | wrote (n : ℕ)
  | error (errno : Int32)
  deriving DecidableEq

inductive Action
  | spawn (task : ℕ) (channel : ChannelId)
  /-- `open_pty_cmd` gets these numbers for the two sides of the handler. -/
  | openPty (task reader writer : ℕ)
  /-- The stream ends without a PTY. -/
  | openFails (task : ℕ)
  | insert (task : ℕ)
  /-- The loop is left, for whatever reason, and the entry removed. -/
  | remove (task : ℕ)
  | finish (task : ℕ)
  | data (channel : ChannelId) (data : Value)
  | write (result : WriteResult)
  /-- The rest of the agent opens something, and closes it. -/
  | opens (number : ℕ)
  | closes (number : ℕ)

namespace State

def spawned (s : State) (i : ℕ) (c : ChannelId) : State :=
  { s with tasks := s.tasks.insert i (.starting c) }

def ptyOpened (s : State) (i : ℕ) (c : ChannelId) (r w : ℕ) : State :=
  { s with
    fds := s.fds.openAt [r, w]
    ptys := Function.update s.ptys s.fds.opened (some c)
    tasks := s.tasks.insert i (.opened c r w) }

def openFailed (s : State) (i : ℕ) : State := { s with tasks := s.tasks.erase i }

/-- `writers.insert`; a writer that was in the table is dropped. -/
def inserted (s : State) (i : ℕ) (c : ChannelId) (r w : ℕ) : State :=
  { s with
    fds := s.fds.drop (s.writers.lookup c)
    tasks := s.tasks.insert i (.looping c r)
    writers := s.writers.insert c w }

/-- `writers.remove`, which drops the writer. -/
def removed (s : State) (i : ℕ) (c : ChannelId) (r : ℕ) : State :=
  { s with
    fds := s.fds.drop (s.writers.lookup c)
    tasks := s.tasks.insert i (.ended c r)
    writers := s.writers.erase c }

def finished (s : State) (i r : ℕ) : State :=
  { s with fds := s.fds.drop (some r), tasks := s.tasks.erase i }

/-- A payload for the channel reaches the object. -/
def delivery (s : State) (c : ChannelId) (opened object : ℕ) (payload : Payload) : Delivery :=
  ⟨c, opened, object, s.ptys object, payload⟩

/-- `ioctl(fd, TIOCSWINSZ, &ws)`, whose result is ignored. -/
def ioctl (s : State) (c : ChannelId) (fd : ℕ) (ws : Winsize) : List Delivery :=
  (s.fds.refersTo fd).toList.map fun object => s.delivery c s.fds.opened object (.resize ws)

/-- `data`, up to `write`. -/
def handleData (s : State) (c : ChannelId) (data : Value) : State :=
  match s.writers.lookup c with
  | none => s
  | some fd =>
    { s with
      deliveries := s.deliveries ++ (resize data).toList.flatMap (s.ioctl c fd)
      pending := (input data).map fun bytes => ⟨c, s.fds.look fd, bytes⟩ }

/-- A stream keeps the channel open. -/
def IsOpen (s : State) (c : ChannelId) : Prop := ∃ e ∈ s.tasks.entries, e.2.serves = some c

instance (s : State) (c : ChannelId) : Decidable (s.IsOpen c) :=
  inferInstanceAs (Decidable (∃ e ∈ s.tasks.entries, _))

/-- The input of a message on an open channel has come in. -/
def receive (s : State) (c : ChannelId) (data : Value) : State :=
  if s.IsOpen c then { s with inputs := s.inputs ++ (input data).toList.map (Prod.mk c) } else s

/-- The object has taken the first `n` bytes. -/
def took (s : State) (p : Write) (n object : ℕ) : State :=
  { s with
    deliveries := s.deliveries ++
      [s.delivery p.channel p.fd.opened object (.bytes (p.bytes.take n))]
    pending := none }

/-- `write` returns.  Fewer bytes than asked for are not written again, and an error is logged. -/
def written (s : State) (p : Write) : WriteResult → Option State
  | .error _ => some { s with pending := none }
  | .wrote n =>
    match s.fds.refersTo p.fd.number with
    | some object => if n ≤ p.bytes.length then some (s.took p n object) else none
    | none => none

end State

def step (s : State) : Action → Option State
  | .spawn i c => if s.tasks.lookup i = none then some (s.spawned i c) else none
  | .openPty i r w =>
    match s.tasks.lookup i with
    | some (.starting c) =>
      if s.fds.refersTo r = none ∧ s.fds.refersTo w = none ∧ r ≠ w then
        some (s.ptyOpened i c r w)
      else none
    | _ => none
  | .openFails i =>
    match s.tasks.lookup i with
    | some (.starting _) => some (s.openFailed i)
    | _ => none
  | .insert i =>
    match s.tasks.lookup i with
    | some (.opened c r w) => some (s.inserted i c r w)
    | _ => none
  | .remove i =>
    match s.tasks.lookup i with
    | some (.looping c r) => some (s.removed i c r)
    | _ => none
  | .finish i =>
    match s.tasks.lookup i with
    | some (.ended _ r) => some (s.finished i r)
    | _ => none
  | .data c data => if s.pending.isNone then some ((s.receive c data).handleData c data) else none
  | .write result => s.pending.bind fun p => s.written p result
  | .opens n => if s.fds.refersTo n = none then some { s with fds := s.fds.openAt [n] } else none
  | .closes n =>
    match s.fds.refersTo n with
    | some object =>
      -- no other part of the agent has a descriptor of a PTY
      if s.ptys object = none then some { s with fds := s.fds.drop (some n) } else none
    | none => none

/-! ## What is wanted -/

/-- Whatever reaches an object for a channel reaches a PTY of the channel, and one that was open
already when the message was handled. -/
def Confined (s : State) : Prop :=
  ∀ d ∈ s.deliveries, d.payload ≠ .bytes [] → d.pty = some d.channel ∧ d.object < d.opened

namespace State

/-- The inputs on the channel, one after the other. -/
def received (s : State) (c : ChannelId) : List UInt8 :=
  s.inputs.flatMap fun i => if i.1 = c then i.2 else []

/-- The bytes that have reached the PTY of the channel. -/
def delivered (s : State) (c : ChannelId) : List UInt8 :=
  s.deliveries.flatMap fun d => if d.pty = some c then d.payload.data else []

/-- The bytes that `write` is called with. -/
def unwritten (s : State) (c : ChannelId) : List UInt8 :=
  match s.pending with
  | some p => if p.channel = c then p.bytes else []
  | none => []

end State

/-- Up to what is being written, the PTY of every channel has got exactly the inputs. -/
def Complete (s : State) : Prop := ∀ c, s.received c = s.delivered c ++ s.unwritten c

/-! ## When it holds -/

/-- The number was not handed out again before some bytes get through. -/
def OnTime (s : State) : Action → Prop
  | .write (.wrote n) =>
    ∀ p ∈ s.pending, n ≠ 0 → s.fds.turn p.fd.number = p.fd.turn
  | _ => True

/-- An input on an open channel finds a writer, and all of it is taken at once, by a PTY of the
channel. -/
def TakenWhole (s : State) : Action → Prop
  | .data c data => s.IsOpen c → (input data).getD [] ≠ [] → c ∈ s.writers
  | .write result =>
    ∀ p ∈ s.pending, p.bytes ≠ [] →
      result = .wrote p.bytes.length ∧
        ∃ object ∈ s.fds.refersTo p.fd.number, s.ptys object = some p.channel
  | _ => True

instance (s : State) : ∀ a, Decidable (OnTime s a)
  | .write (.wrote n) =>
    inferInstanceAs (Decidable (∀ p ∈ s.pending, n ≠ 0 → s.fds.turn p.fd.number = p.fd.turn))
  | .write (.error _) | .spawn _ _ | .openPty _ _ _ | .openFails _ | .insert _ | .remove _
  | .finish _ | .data _ _ | .opens _ | .closes _ => .isTrue trivial

instance (s : State) : ∀ a, Decidable (TakenWhole s a)
  | .data c data =>
    inferInstanceAs (Decidable (s.IsOpen c → (input data).getD [] ≠ [] → c ∈ s.writers))
  | .write result =>
    inferInstanceAs (Decidable (∀ p ∈ s.pending, p.bytes ≠ [] →
      result = .wrote p.bytes.length ∧
        ∃ object ∈ s.fds.refersTo p.fd.number, s.ptys object = some p.channel))
  | .spawn _ _ | .openPty _ _ _ | .openFails _ | .insert _ | .remove _ | .finish _ | .opens _
  | .closes _ => .isTrue trivial

section

variable {s t : State} {a : Action} {i r w n : ℕ} {c : ChannelId} {data : Value} {p : Write}
  {result : WriteResult}

/-! ## What the steps do -/

theorem step_spawn (h : step s (.spawn i c) = some t) :
    s.tasks.lookup i = none ∧ t = s.spawned i c := by
  simp only [step] at h
  split_ifs at h with hfree
  exact ⟨hfree, (Option.some.inj h).symm⟩

theorem step_openPty (h : step s (.openPty i r w) = some t) :
    ∃ c, s.tasks.lookup i = some (.starting c) ∧
      (s.fds.refersTo r = none ∧ s.fds.refersTo w = none ∧ r ≠ w) ∧ t = s.ptyOpened i c r w := by
  simp only [step] at h
  split at h
  · rename_i c htask
    split_ifs at h with hfree
    exact ⟨c, htask, hfree, (Option.some.inj h).symm⟩
  · cases h

theorem step_openFails (h : step s (.openFails i) = some t) :
    ∃ c, s.tasks.lookup i = some (.starting c) ∧ t = s.openFailed i := by
  simp only [step] at h
  split at h
  · rename_i c htask
    exact ⟨c, htask, (Option.some.inj h).symm⟩
  · cases h

theorem step_insert (h : step s (.insert i) = some t) :
    ∃ c r w, s.tasks.lookup i = some (.opened c r w) ∧ t = s.inserted i c r w := by
  simp only [step] at h
  split at h
  · rename_i c r w htask
    exact ⟨c, r, w, htask, (Option.some.inj h).symm⟩
  · cases h

theorem step_remove (h : step s (.remove i) = some t) :
    ∃ c r, s.tasks.lookup i = some (.looping c r) ∧ t = s.removed i c r := by
  simp only [step] at h
  split at h
  · rename_i c r htask
    exact ⟨c, r, htask, (Option.some.inj h).symm⟩
  · cases h

theorem step_finish (h : step s (.finish i) = some t) :
    ∃ c r, s.tasks.lookup i = some (.ended c r) ∧ t = s.finished i r := by
  simp only [step] at h
  split at h
  · rename_i c r htask
    exact ⟨c, r, htask, (Option.some.inj h).symm⟩
  · cases h

theorem step_data (h : step s (.data c data) = some t) :
    s.pending = none ∧ t = (s.receive c data).handleData c data := by
  simp only [step] at h
  split_ifs at h with hidle
  exact ⟨Option.isNone_iff_eq_none.1 hidle, (Option.some.inj h).symm⟩

theorem step_write (h : step s (.write result) = some t) :
    ∃ p, s.pending = some p ∧ s.written p result = some t :=
  Option.bind_eq_some_iff.1 h

theorem step_opens (h : step s (.opens n) = some t) :
    s.fds.refersTo n = none ∧ t = { s with fds := s.fds.openAt [n] } := by
  simp only [step] at h
  split_ifs at h with hfree
  exact ⟨hfree, (Option.some.inj h).symm⟩

theorem step_closes (h : step s (.closes n) = some t) :
    ∃ object, s.fds.refersTo n = some object ∧ s.ptys object = none ∧
      t = { s with fds := s.fds.drop (some n) } := by
  simp only [step] at h
  split at h
  · rename_i object hobject
    split_ifs at h with hother
    exact ⟨object, hobject, hother, (Option.some.inj h).symm⟩
  · cases h

/-- A write ends with an error, or some bytes have reached what the number refers to. -/
theorem written_cases (h : s.written p result = some t) :
    (∃ errno, result = .error errno ∧ t = { s with pending := none }) ∨
      ∃ n object, result = .wrote n ∧ n ≤ p.bytes.length ∧
        s.fds.refersTo p.fd.number = some object ∧ t = s.took p n object := by
  cases result with
  | error errno => exact .inl ⟨errno, rfl, (Option.some.inj h).symm⟩
  | wrote n =>
    simp only [State.written] at h
    split at h
    · rename_i object hobject
      split_ifs at h with hn
      exact .inr ⟨n, object, rfl, hn, hobject, (Option.some.inj h).symm⟩
    · cases h

/-- Only Data and `write` change the pending write, the inputs and the deliveries. -/
theorem step_frame (h : step s a = some t) (hdata : ∀ c data, a ≠ .data c data)
    (hwrite : ∀ result, a ≠ .write result) :
    t.pending = s.pending ∧ t.inputs = s.inputs ∧ t.deliveries = s.deliveries := by
  cases a with
  | spawn i c =>
    obtain ⟨-, rfl⟩ := step_spawn h
    exact ⟨rfl, rfl, rfl⟩
  | openPty i r w =>
    obtain ⟨c, -, -, rfl⟩ := step_openPty h
    exact ⟨rfl, rfl, rfl⟩
  | openFails i =>
    obtain ⟨c, -, rfl⟩ := step_openFails h
    exact ⟨rfl, rfl, rfl⟩
  | insert i =>
    obtain ⟨c, r, w, -, rfl⟩ := step_insert h
    exact ⟨rfl, rfl, rfl⟩
  | remove i =>
    obtain ⟨c, r, -, rfl⟩ := step_remove h
    exact ⟨rfl, rfl, rfl⟩
  | finish i =>
    obtain ⟨c, r, -, rfl⟩ := step_finish h
    exact ⟨rfl, rfl, rfl⟩
  | data c data => exact absurd rfl (hdata c data)
  | write result => exact absurd rfl (hwrite result)
  | opens n =>
    obtain ⟨-, rfl⟩ := step_opens h
    exact ⟨rfl, rfl, rfl⟩
  | closes n =>
    obtain ⟨object, -, -, rfl⟩ := step_closes h
    exact ⟨rfl, rfl, rfl⟩

/-! ## Owned descriptors -/

inductive Side
  | reader
  | writer
  deriving DecidableEq

def Task.fd (t : Task) : Side → Option ℕ
  | .reader => t.reader
  | .writer => t.writer

/-- Where an `OwnedFd` of a channel may be kept. -/
inductive Holder
  | own (task : ℕ) (side : Side) (channel : ChannelId)
  | table (channel : ChannelId)
  deriving DecidableEq

def Holder.channel : Holder → ChannelId
  | own _ _ c | table c => c

/-- The number that is kept there. -/
def held (tasks : AList fun _ : ℕ => Task) (writers : AList fun _ : ChannelId => ℕ) :
    Holder → Option ℕ
  | .own i side c => (tasks.lookup i).bind fun t => if t.channel = c then t.fd side else none
  | .table c => writers.lookup c

/-- A channel with a writer has a stream in its loop. -/
def Watched (tasks : AList fun _ : ℕ => Task) (writers : AList fun _ : ChannelId => ℕ) : Prop :=
  ∀ c w, writers.lookup c = some w → ∃ i r, tasks.lookup i = some (.looping c r)

/-- The descriptors of the handler are owned, and refer to PTYs of their channels; a write that is
under way has looked up one of them. -/
structure Inv (s : State) : Prop where
  bounded : s.fds.Bounded
  ptys_lt : ∀ o c, s.ptys o = some c → o < s.fds.opened
  owns : s.fds.Owns (held s.tasks s.writers) fun k o => s.ptys o = some k.channel
  tracks : ∀ p, s.pending = some p →
    s.fds.Tracks p.fd ∧ ∀ o, p.fd.object = some o → s.ptys o = some p.channel
  watched : Watched s.tasks s.writers

theorem inv_init : Inv .init where
  bounded n o ho := by cases ho
  ptys_lt o c ho := by cases ho
  owns := by
    have hnone (k : Holder) : held ∅ ∅ k = none := by cases k <;> rfl
    constructor
    · intro k n hk
      cases (hnone k).symm.trans hk
    · intro k k' n hk
      cases (hnone k).symm.trans hk
  tracks p hp := by cases hp
  watched c w hw := by cases hw

variable {tasks : AList fun _ : ℕ => Task} {writers : AList fun _ : ChannelId => ℕ} {u : Task}
  {k : Holder} {j : ℕ} {side : Side} {c' : ChannelId}

theorem held_own_iff :
    held tasks writers (.own j side c') = some n ↔
      ∃ u, tasks.lookup j = some u ∧ u.channel = c' ∧ u.fd side = some n := by
  simp [held, Option.bind_eq_some_iff]

theorem held_insert_own_iff :
    held (tasks.insert i u) writers (.own j side c') = some n ↔
      j = i ∧ u.channel = c' ∧ u.fd side = some n ∨
        j ≠ i ∧ held tasks writers (.own j side c') = some n := by
  simp only [held_own_iff, AList.lookup_insert_eq_some_iff]
  constructor
  · rintro ⟨v, ⟨hj, rfl⟩ | ⟨hj, hv⟩, hc, hn⟩
    · exact .inl ⟨hj, hc, hn⟩
    · exact .inr ⟨hj, v, hv, hc, hn⟩
  · rintro (⟨hj, hc, hn⟩ | ⟨hj, v, hv, hc, hn⟩)
    · exact ⟨u, .inl ⟨hj, rfl⟩, hc, hn⟩
    · exact ⟨v, .inr ⟨hj, hv⟩, hc, hn⟩

theorem held_of_spawned (hk : held (tasks.insert i (.starting c)) writers k = some n) :
    held tasks writers k = some n := by
  cases k with
  | own j side c' =>
    obtain ⟨-, -, hn⟩ | ⟨-, hk⟩ := held_insert_own_iff.1 hk
    · cases side <;> cases hn
    · exact hk
  | table c' => exact hk

theorem held_of_ptyOpened (hk : held (tasks.insert i (.opened c r w)) writers k = some n) :
    k = .own i .reader c ∧ n = r ∨ k = .own i .writer c ∧ n = w ∨
      held tasks writers k = some n := by
  cases k with
  | own j side c' =>
    obtain ⟨rfl, rfl, hn⟩ | ⟨-, hk⟩ := held_insert_own_iff.1 hk
    · cases side with
      | reader => exact .inl ⟨rfl, (Option.some.inj hn).symm⟩
      | writer => exact .inr (.inl ⟨rfl, (Option.some.inj hn).symm⟩)
    · exact .inr (.inr hk)
  | table c' => exact .inr (.inr hk)

/-- The writer of the task has moved into the table. -/
theorem held_of_inserted (htask : tasks.lookup i = some (.opened c r w))
    (hk : held (tasks.insert i (.looping c r)) (writers.insert c w) k = some n) :
    k = .table c ∧ n = w ∨
      k ≠ .table c ∧ k ≠ .own i .writer c ∧ held tasks writers k = some n := by
  cases k with
  | own j side c' =>
    refine .inr ⟨Holder.noConfusion, ?_⟩
    obtain ⟨rfl, rfl, hn⟩ | ⟨hj, hk⟩ := held_insert_own_iff.1 hk
    · cases side with
      | reader => exact ⟨by simp, held_own_iff.2 ⟨_, htask, rfl, hn⟩⟩
      | writer => cases hn
    · exact ⟨by simp [hj], hk⟩
  | table c' =>
    obtain ⟨rfl, rfl⟩ | ⟨hc, hk⟩ := AList.lookup_insert_eq_some_iff.1 hk
    · exact .inl ⟨rfl, rfl⟩
    · exact .inr ⟨by simpa using hc, Holder.noConfusion, hk⟩

theorem held_of_removed (htask : tasks.lookup i = some (.looping c r))
    (hk : held (tasks.insert i (.ended c r)) (writers.erase c) k = some n) :
    k ≠ .table c ∧ held tasks writers k = some n := by
  cases k with
  | own j side c' =>
    refine ⟨Holder.noConfusion, ?_⟩
    obtain ⟨rfl, rfl, hn⟩ | ⟨-, hk⟩ := held_insert_own_iff.1 hk
    · exact held_own_iff.2 ⟨_, htask, rfl, hn⟩
    · exact hk
  | table c' =>
    obtain ⟨hc, hk⟩ := AList.lookup_erase_eq_some_iff.1 hk
    exact ⟨by simpa using hc, hk⟩

/-- A task that returns keeps nothing. -/
theorem held_of_erase (hk : held (tasks.erase i) writers k = some n) :
    (∀ side c, k ≠ .own i side c) ∧ held tasks writers k = some n := by
  cases k with
  | own j side c' =>
    obtain ⟨u, hu, hc, hn⟩ := held_own_iff.1 hk
    obtain ⟨hj, hu⟩ := AList.lookup_erase_eq_some_iff.1 hu
    exact ⟨fun _ _ => by simp [hj], held_own_iff.2 ⟨u, hu, hc, hn⟩⟩
  | table c' => exact ⟨fun _ _ => Holder.noConfusion, hk⟩

theorem Watched.insert (h : Watched tasks writers)
    (hi : ∀ c r, tasks.lookup i ≠ some (.looping c r)) : Watched (tasks.insert i u) writers := by
  intro c w hw
  obtain ⟨j, r, hj⟩ := h c w hw
  refine ⟨j, r, AList.lookup_insert_eq_some_iff.2 (.inr ⟨?_, hj⟩)⟩
  rintro rfl
  exact hi c r hj

theorem Watched.erase (h : Watched tasks writers)
    (hi : ∀ c r, tasks.lookup i ≠ some (.looping c r)) : Watched (tasks.erase i) writers := by
  intro c w hw
  obtain ⟨j, r, hj⟩ := h c w hw
  refine ⟨j, r, AList.lookup_erase_eq_some_iff.2 ⟨?_, hj⟩⟩
  rintro rfl
  exact hi c r hj

/-! ## The invariant -/

theorem tracks_drop (hI : Inv s) {number : Option ℕ} (hp : s.pending = some p) :
    (s.fds.drop number).Tracks p.fd ∧ ∀ o, p.fd.object = some o → s.ptys o = some p.channel :=
  ⟨(hI.tracks p hp).1.drop, (hI.tracks p hp).2⟩

theorem Inv.spawned (hI : Inv s) (hfree : s.tasks.lookup i = none) : Inv (s.spawned i c) where
  bounded := hI.bounded
  ptys_lt := hI.ptys_lt
  owns := by
    constructor
    · intro k n hk
      exact hI.owns.refers k n (held_of_spawned hk)
    · intro k k' n hk hk'
      exact hI.owns.unique k k' n (held_of_spawned hk) (held_of_spawned hk')
  tracks := hI.tracks
  watched := hI.watched.insert fun c r h => by
    rw [hfree] at h
    cases h

/-- The numbers of a new PTY were free, so that only its stream holds them. -/
theorem Inv.held_new (hI : Inv s)
    (hfree : s.fds.refersTo r = none ∧ s.fds.refersTo w = none ∧ r ≠ w) (hn : n ∈ [r, w])
    (hk : held (s.tasks.insert i (.opened c r w)) s.writers k = some n) :
    k = .own i .reader c ∧ n = r ∨ k = .own i .writer c ∧ n = w := by
  obtain h | h | hold := held_of_ptyOpened hk
  · exact .inl h
  · exact .inr h
  · have hfree : s.fds.refersTo n = none := by
      obtain rfl | rfl := List.mem_pair.1 hn
      · exact hfree.1
      · exact hfree.2.1
    exact absurd hold (hI.owns.ne_of_free hfree k)

/-- The new object is later than all others. -/
theorem Inv.ptys_update (hI : Inv s) {o : ℕ} (ho : s.ptys o = some c) (pty : Option ChannelId) :
    Function.update s.ptys s.fds.opened pty o = some c := by
  rw [Function.update_of_ne (Nat.ne_of_lt (hI.ptys_lt o c ho))]
  exact ho

theorem Inv.ptyOpened (hI : Inv s) (htask : s.tasks.lookup i = some (.starting c))
    (hfree : s.fds.refersTo r = none ∧ s.fds.refersTo w = none ∧ r ≠ w) :
    Inv (s.ptyOpened i c r w) where
  bounded := hI.bounded.openAt
  ptys_lt o c' ho := by
    simp only [State.ptyOpened] at ho
    show o < s.fds.opened + 1
    by_cases heq : o = s.fds.opened
    · omega
    · rw [Function.update_of_ne heq] at ho
      exact Nat.lt_succ_of_lt (hI.ptys_lt o c' ho)
  owns := by
    refine hI.owns.openAt (fun k n hk hn => ?_) (fun k n hk hn => ?_) (fun k k' n hn hk hk' => ?_)
      fun k o ho => hI.ptys_update ho (some c)
    · obtain ⟨-, rfl⟩ | ⟨-, rfl⟩ | hold := held_of_ptyOpened hk
      · exact absurd List.mem_cons_self hn
      · exact absurd (List.mem_pair.2 (.inr rfl)) hn
      · exact hold
    · show Function.update s.ptys s.fds.opened (some c) s.fds.opened = some k.channel
      rw [Function.update_self]
      obtain ⟨rfl, -⟩ | ⟨rfl, -⟩ := hI.held_new hfree hn hk
      · rfl
      · rfl
    · obtain ⟨rfl, rfl⟩ | ⟨rfl, rfl⟩ := hI.held_new hfree hn hk
      · obtain ⟨rfl, -⟩ | ⟨-, heq⟩ := hI.held_new hfree hn hk'
        · rfl
        · exact absurd heq hfree.2.2
      · obtain ⟨-, heq⟩ | ⟨rfl, -⟩ := hI.held_new hfree hn hk'
        · exact absurd heq.symm hfree.2.2
        · rfl
  tracks p hp := ⟨(hI.tracks p hp).1.openAt, fun o ho => hI.ptys_update ((hI.tracks p hp).2 o ho) _⟩
  watched := hI.watched.insert fun c r h => by
    rw [htask] at h
    cases h

theorem Inv.openFailed (hI : Inv s) (htask : s.tasks.lookup i = some (.starting c)) :
    Inv (s.openFailed i) where
  bounded := hI.bounded
  ptys_lt := hI.ptys_lt
  owns := by
    constructor
    · intro k n hk
      exact hI.owns.refers k n (held_of_erase hk).2
    · intro k k' n hk hk'
      exact hI.owns.unique k k' n (held_of_erase hk).2 (held_of_erase hk').2
  tracks := hI.tracks
  watched := hI.watched.erase fun c r h => by
    rw [htask] at h
    cases h

theorem Inv.inserted (hI : Inv s) (htask : s.tasks.lookup i = some (.opened c r w)) :
    Inv (s.inserted i c r w) where
  bounded := hI.bounded.drop
  ptys_lt := hI.ptys_lt
  owns := by
    have hw : held s.tasks s.writers (.own i .writer c) = some w :=
      held_own_iff.2 ⟨_, htask, rfl, rfl⟩
    refine hI.owns.drop (f := Equiv.swap (.table c) (.own i .writer c)) (Equiv.injective _)
      (fun k n hk => ?_) fun k n o hk ho => ?_
    · obtain ⟨rfl, rfl⟩ | ⟨hne, hne', hold⟩ := held_of_inserted htask hk
      · rw [Equiv.swap_apply_left]
        refine ⟨hw, fun heq => ?_⟩
        cases hI.owns.unique (.table c) _ _ heq hw
      · rw [Equiv.swap_apply_of_ne_of_ne hne hne']
        exact ⟨hold, fun heq => hne (hI.owns.unique k (.table c) n hold heq)⟩
    · obtain ⟨rfl, rfl⟩ | ⟨hne, hne', hold⟩ := held_of_inserted htask hk
      · rw [Equiv.swap_apply_left] at ho
        exact ho
      · rw [Equiv.swap_apply_of_ne_of_ne hne hne'] at ho
        exact ho
  tracks p hp := tracks_drop hI hp
  watched c' w' hw := by
    obtain ⟨rfl, -⟩ | ⟨-, hw⟩ := AList.lookup_insert_eq_some_iff.1 hw
    · exact ⟨i, r, AList.lookup_insert _⟩
    · have hwatched : Watched (s.tasks.insert i (.looping c r)) s.writers :=
        hI.watched.insert fun c r h => by
          rw [htask] at h
          cases h
      exact hwatched c' w' hw

theorem Inv.removed (hI : Inv s) (htask : s.tasks.lookup i = some (.looping c r)) :
    Inv (s.removed i c r) where
  bounded := hI.bounded.drop
  ptys_lt := hI.ptys_lt
  owns := by
    refine hI.owns.drop Function.injective_id (fun k n hk => ?_) fun k n o _ ho => ho
    obtain ⟨hne, hold⟩ := held_of_removed htask hk
    exact ⟨hold, fun heq => hne (hI.owns.unique k (.table c) n hold heq)⟩
  tracks p hp := tracks_drop hI hp
  watched c' w hw := by
    obtain ⟨hc, hw⟩ := AList.lookup_erase_eq_some_iff.1 hw
    obtain ⟨j, r', hj⟩ := hI.watched c' w hw
    refine ⟨j, r', AList.lookup_insert_eq_some_iff.2 (.inr ⟨?_, hj⟩)⟩
    rintro rfl
    rw [htask] at hj
    cases hj
    exact hc rfl

theorem Inv.finished (hI : Inv s) (htask : s.tasks.lookup i = some (.ended c r)) :
    Inv (s.finished i r) where
  bounded := hI.bounded.drop
  ptys_lt := hI.ptys_lt
  owns := by
    have hr : held s.tasks s.writers (.own i .reader c) = some r :=
      held_own_iff.2 ⟨_, htask, rfl, rfl⟩
    refine hI.owns.drop Function.injective_id (fun k n hk => ?_) fun k n o _ ho => ho
    obtain ⟨hne, hold⟩ := held_of_erase hk
    refine ⟨hold, fun heq => ?_⟩
    rw [heq] at hr
    exact hne .reader c (hI.owns.unique k _ n hold hr)
  tracks p hp := tracks_drop hI hp
  watched := hI.watched.erase fun c r h => by
    rw [htask] at h
    cases h

/-- Nobody holds a number that is free. -/
theorem Inv.opens (hI : Inv s) (hfree : s.fds.refersTo n = none) :
    Inv { s with fds := s.fds.openAt [n] } where
  bounded := hI.bounded.openAt
  ptys_lt o c ho := Nat.lt_succ_of_lt (hI.ptys_lt o c ho)
  owns := by
    have hne (k : Holder) (m : ℕ) (hm : m ∈ [n]) : held s.tasks s.writers k ≠ some m := by
      rw [List.mem_singleton.1 hm]
      exact hI.owns.ne_of_free hfree k
    exact hI.owns.openAt (fun k m hk _ => hk) (fun k m hk hm => absurd hk (hne k m hm))
      (fun k k' m hm hk _ => absurd hk (hne k m hm)) fun k o ho => ho
  tracks p hp := ⟨(hI.tracks p hp).1.openAt, (hI.tracks p hp).2⟩
  watched := hI.watched

/-- What is no PTY is not held. -/
theorem Inv.closes {object : ℕ} (hI : Inv s) (hobject : s.fds.refersTo n = some object)
    (hother : s.ptys object = none) : Inv { s with fds := s.fds.drop (some n) } where
  bounded := hI.bounded.drop
  ptys_lt := hI.ptys_lt
  owns := by
    refine hI.owns.drop Function.injective_id (fun k m hk => ⟨hk, fun heq => ?_⟩)
      fun k m o _ ho => ho
    obtain ⟨o, ho, hpty⟩ := hI.owns.refers k m hk
    rw [← Option.some.inj heq, hobject] at ho
    rw [← Option.some.inj ho, hother] at hpty
    cases hpty
  tracks p hp := tracks_drop hI hp
  watched := hI.watched

theorem Inv.receive (hI : Inv s) : Inv (s.receive c data) := by
  unfold State.receive
  split_ifs
  · exact ⟨hI.bounded, hI.ptys_lt, hI.owns, hI.tracks, hI.watched⟩
  · exact hI

/-- What is looked up is a PTY of the channel. -/
theorem Inv.handleData (hI : Inv s) : Inv (s.handleData c data) := by
  unfold State.handleData
  cases hfd : s.writers.lookup c with
  | none => exact hI
  | some fd =>
    refine ⟨hI.bounded, hI.ptys_lt, hI.owns, fun p hp => ?_, hI.watched⟩
    obtain ⟨bytes, -, rfl⟩ := Option.map_eq_some_iff.1 hp
    refine ⟨Descriptors.tracks_look hI.bounded fd, fun o ho => ?_⟩
    obtain ⟨o', ho', hpty⟩ := hI.owns.refers (.table c) fd hfd
    obtain rfl := Option.some.inj (ho'.symm.trans ho)
    exact hpty

theorem Inv.written (hI : Inv s) (h : s.written p result = some t) : Inv t := by
  obtain ⟨errno, -, rfl⟩ | ⟨n, object, -, -, -, rfl⟩ := written_cases h
  · exact ⟨hI.bounded, hI.ptys_lt, hI.owns, (fun p hp => by cases hp), hI.watched⟩
  · exact ⟨hI.bounded, hI.ptys_lt, hI.owns, (fun p hp => by cases hp), hI.watched⟩

theorem inv_step (hI : Inv s) (h : step s a = some t) : Inv t := by
  cases a with
  | spawn i c =>
    obtain ⟨hfree, rfl⟩ := step_spawn h
    exact hI.spawned hfree
  | openPty i r w =>
    obtain ⟨c, htask, hfree, rfl⟩ := step_openPty h
    exact hI.ptyOpened htask hfree
  | openFails i =>
    obtain ⟨c, htask, rfl⟩ := step_openFails h
    exact hI.openFailed htask
  | insert i =>
    obtain ⟨c, r, w, htask, rfl⟩ := step_insert h
    exact hI.inserted htask
  | remove i =>
    obtain ⟨c, r, htask, rfl⟩ := step_remove h
    exact hI.removed htask
  | finish i =>
    obtain ⟨c, r, htask, rfl⟩ := step_finish h
    exact hI.finished htask
  | data c data =>
    obtain ⟨-, rfl⟩ := step_data h
    exact hI.receive.handleData
  | write result =>
    obtain ⟨p, -, hwritten⟩ := step_write h
    exact hI.written hwritten
  | opens n =>
    obtain ⟨hfree, rfl⟩ := step_opens h
    exact hI.opens hfree
  | closes n =>
    obtain ⟨object, hobject, hother, rfl⟩ := step_closes h
    exact hI.closes hobject hother

/-! ## Where the bytes go -/

theorem deliveries_receive (s : State) (c : ChannelId) (data : Value) :
    (s.receive c data).deliveries = s.deliveries := by
  unfold State.receive
  split_ifs <;> rfl

/-- A resize goes to the PTY of its channel: it is made under the lock. -/
theorem confined_handleData (hI : Inv s) (h : Confined s) : Confined (s.handleData c data) := by
  unfold State.handleData
  cases hfd : s.writers.lookup c with
  | none => exact h
  | some fd =>
    intro d hd hne
    obtain hold | hnew := List.mem_append.1 hd
    · exact h d hold hne
    · obtain ⟨ws, -, hd⟩ := List.mem_flatMap.1 hnew
      obtain ⟨object, hobject, rfl⟩ := List.mem_map.1 hd
      have ho : s.fds.refersTo fd = some object := Option.mem_toList.1 hobject
      obtain ⟨o', ho', hpty⟩ := hI.owns.refers (.table c) fd hfd
      obtain rfl := Option.some.inj (ho'.symm.trans ho)
      exact ⟨hpty, hI.bounded fd o' ho⟩

/-- Bytes go where they should iff the number was not handed out again since it was looked up. -/
theorem confined_written (hI : Inv s) (h : Confined s) (hp : s.pending = some p)
    (ht : s.written p result = some t) : Confined t ↔ OnTime s (.write result) := by
  obtain ⟨errno, rfl, rfl⟩ | ⟨n, object, rfl, hn, hobject, rfl⟩ := written_cases ht
  · exact iff_of_true h trivial
  · obtain ⟨htracks, hpty⟩ := hI.tracks p hp
    have hturn := htracks.turn_eq_iff hobject
    have hempty : p.bytes.take n = [] ↔ n = 0 := by
      rw [← List.length_eq_zero_iff, List.length_take, Nat.min_eq_left hn]
    constructor
    · intro hC q hq hne
      obtain rfl := Option.some.inj (hp.symm.trans hq)
      refine hturn.2 (hC _ (List.mem_append_right _ List.mem_cons_self) fun heq => ?_).2
      exact hne (hempty.1 (Payload.bytes.inj heq))
    · intro hC d hd hne
      obtain hold | hnew := List.mem_append.1 hd
      · exact h d hold hne
      · obtain rfl := List.mem_singleton.1 hnew
        have hpos : n ≠ 0 := fun heq => hne (congrArg Payload.bytes (hempty.2 heq))
        have hcurrent := hC p hp hpos
        exact ⟨hpty object (htracks.same hcurrent.symm object hobject), hturn.1 hcurrent⟩

theorem confined_step (hI : Inv s) (h : Confined s) (ht : step s a = some t) :
    Confined t ↔ OnTime s a := by
  by_cases hwrite : ∃ result, a = .write result
  · obtain ⟨result, rfl⟩ := hwrite
    obtain ⟨p, hp, hwritten⟩ := step_write ht
    exact confined_written hI h hp hwritten
  · have hC : OnTime s a := by
      cases a with
      | write result => exact absurd ⟨result, rfl⟩ hwrite
      | _ => trivial
    refine iff_of_true ?_ hC
    by_cases hdata : ∃ c data, a = .data c data
    · obtain ⟨c, data, rfl⟩ := hdata
      obtain ⟨-, rfl⟩ := step_data ht
      refine confined_handleData hI.receive ?_
      rw [Confined, deliveries_receive]
      exact h
    · have hframe := step_frame ht (fun c data heq => hdata ⟨c, data, heq⟩)
        fun result heq => hwrite ⟨result, heq⟩
      rw [Confined, hframe.2.2]
      exact h

/-- In every run, everything reaches the PTY it is meant for throughout iff no write gets bytes
through to a number that was handed out again after it had been looked up. -/
theorem confined_run_iff (as : List Action) (hr : run step .init as = some t) :
    Always step Confined .init as ↔ Meets step OnTime .init as := by
  refine always_iff_meets (I := Inv) (fun _ _ _ hI h => inv_step hI h)
    (fun _ _ _ hI hP h => confined_step hI hP h) inv_init (fun d hd => ?_) hr
  cases hd

/-! ## What is lost -/

theorem received_receive (s : State) (c c' : ChannelId) (data : Value) :
    (s.receive c data).received c' =
      s.received c' ++ if s.IsOpen c ∧ c = c' then (input data).getD [] else [] := by
  unfold State.receive
  by_cases hopen : s.IsOpen c
  · rw [if_pos hopen, State.received, State.received, List.flatMap_append]
    congr 1
    cases input data with
    | none => simp
    | some bytes => simp [hopen]
  · rw [if_neg hopen, if_neg fun hc => hopen hc.1, List.append_nil]

theorem received_handleData (s : State) (c c' : ChannelId) (data : Value) :
    (s.handleData c data).received c' = s.received c' := by
  unfold State.handleData
  cases s.writers.lookup c <;> rfl

/-- Resizes carry no input. -/
theorem delivered_handleData (s : State) (c c' : ChannelId) (data : Value) :
    (s.handleData c data).delivered c' = s.delivered c' := by
  unfold State.handleData
  cases s.writers.lookup c with
  | none => rfl
  | some fd =>
    simp only [State.delivered, List.flatMap_append]
    rw [List.append_right_eq_self, List.flatMap_eq_nil_iff]
    intro d hd
    obtain ⟨ws, -, hd⟩ := List.mem_flatMap.1 hd
    obtain ⟨object, -, rfl⟩ := List.mem_map.1 hd
    split_ifs <;> rfl

theorem unwritten_handleData (hidle : s.pending = none) (c c' : ChannelId) (data : Value) :
    (s.handleData c data).unwritten c' =
      if c ∈ s.writers ∧ c = c' then (input data).getD [] else [] := by
  unfold State.handleData
  cases hfd : s.writers.lookup c with
  | none =>
    have hnone : c ∉ s.writers := AList.lookup_eq_none.1 hfd
    simp [State.unwritten, hidle, hnone]
  | some fd =>
    have hsome : c ∈ s.writers := AList.lookup_isSome.1 (Option.isSome_of_eq_some hfd)
    cases input data with
    | none => simp [State.unwritten]
    | some bytes => simp [State.unwritten, hsome]

theorem writers_receive (s : State) (c : ChannelId) (data : Value) :
    (s.receive c data).writers = s.writers ∧ (s.receive c data).pending = s.pending := by
  unfold State.receive
  split_ifs <;> exact ⟨rfl, rfl⟩

theorem Inv.isOpen_of_mem (hI : Inv s) (hc : c ∈ s.writers) : s.IsOpen c := by
  obtain ⟨w, hw⟩ := Option.isSome_iff_exists.1 (AList.lookup_isSome.2 hc)
  obtain ⟨i, r, hi⟩ := hI.watched c w hw
  exact ⟨⟨i, .looping c r⟩, AList.mem_lookup_iff.1 hi, rfl⟩

/-- An input is lost at once when the channel is open and has no writer yet, or no longer. -/
theorem complete_data (hI : Inv s) (h : Complete s) (hidle : s.pending = none) :
    Complete ((s.receive c data).handleData c data) ↔ TakenWhole s (.data c data) := by
  obtain ⟨hwriters, hpending⟩ := writers_receive s c data
  have hdelivered (c' : ChannelId) : (s.receive c data).delivered c' = s.delivered c' := by
    rw [State.delivered, State.delivered, deliveries_receive]
  have hs (c' : ChannelId) : s.received c' = s.delivered c' := by
    rw [h c', State.unwritten, hidle, List.append_nil]
  have ht : Complete ((s.receive c data).handleData c data) ↔
      ∀ c', (if s.IsOpen c ∧ c = c' then (input data).getD [] else []) =
        if c ∈ s.writers ∧ c = c' then (input data).getD [] else [] := by
    refine forall_congr' fun c' => ?_
    rw [received_handleData, received_receive, delivered_handleData, hdelivered,
      unwritten_handleData (hpending.trans hidle), hwriters, hs, List.append_cancel_left_eq]
  rw [ht]
  constructor
  · intro hall hopen hne
    have hc := hall c
    rw [if_pos ⟨hopen, rfl⟩] at hc
    by_contra hnone
    rw [if_neg fun hc => hnone hc.1] at hc
    exact hne hc
  · intro hC c'
    by_cases hwriter : c ∈ s.writers
    · simp [hwriter, hI.isOpen_of_mem hwriter]
    · have hright : (if c ∈ s.writers ∧ c = c' then (input data).getD [] else []) = [] :=
        if_neg fun hc => hwriter hc.1
      rw [hright]
      split_ifs with hopen
      · by_contra hne
        exact hwriter (hC hopen.1 hne)
      · rfl

theorem delivered_took (s : State) (p : Write) (n object : ℕ) (c : ChannelId) :
    (s.took p n object).delivered c =
      s.delivered c ++ if s.ptys object = some c then p.bytes.take n else [] := by
  simp only [State.took, State.delivered, List.flatMap_append, List.flatMap_singleton]
  rfl

/-- The bytes of one channel are the first bytes for another only if there are none, or it is the
same channel and they are all. -/
theorem forall_taken_iff {bs : List UInt8} {pty : Option ChannelId} (hn : n ≤ bs.length) :
    (∀ c', (if c = c' then bs else []) = if pty = some c' then bs.take n else []) ↔
      (bs ≠ [] → n = bs.length ∧ pty = some c) := by
  constructor
  · intro h hne
    have hc := h c
    rw [if_pos rfl] at hc
    by_cases hpty : pty = some c
    · rw [if_pos hpty] at hc
      have hlength := congrArg List.length hc
      rw [List.length_take, Nat.min_eq_left hn] at hlength
      exact ⟨hlength.symm, hpty⟩
    · rw [if_neg hpty] at hc
      exact absurd hc hne
  · intro h c'
    by_cases hnil : bs = []
    · rw [hnil, List.take_nil, ite_self, ite_self]
    · obtain ⟨rfl, rfl⟩ := h hnil
      simp only [List.take_length, Option.some.injEq]

/-- Of what `write` was given, exactly what it takes has been delivered afterwards. -/
theorem complete_written (h : Complete s) (hp : s.pending = some p)
    (ht : s.written p result = some t) : Complete t ↔ TakenWhole s (.write result) := by
  have hs (c : ChannelId) :
      s.received c = s.delivered c ++ if p.channel = c then p.bytes else [] := by
    rw [h c, State.unwritten, hp]
  have hwhole : TakenWhole s (.write result) ↔ (p.bytes ≠ [] → result = .wrote p.bytes.length ∧
      ∃ object ∈ s.fds.refersTo p.fd.number, s.ptys object = some p.channel) := by
    simp only [TakenWhole, hp, Option.mem_some_iff, forall_eq']
  rw [hwhole]
  obtain ⟨errno, rfl, rfl⟩ | ⟨n, object, rfl, hn, hobject, rfl⟩ := written_cases ht
  · constructor
    · intro hC hne
      have hc : s.received p.channel = s.delivered p.channel ++ [] := hC p.channel
      rw [hs, if_pos rfl, List.append_cancel_left_eq] at hc
      exact absurd hc hne
    · intro hC c
      have hempty : p.bytes = [] := by
        by_contra hne
        cases (hC hne).1
      have hc := hs c
      rw [hempty, ite_self] at hc
      exact hc
  · have hall : Complete (s.took p n object) ↔
        ∀ c, (if p.channel = c then p.bytes else []) =
          if s.ptys object = some c then p.bytes.take n else [] := by
      refine forall_congr' fun c => ?_
      rw [delivered_took]
      show s.received c = _ ++ _ ++ [] ↔ _
      rw [List.append_nil, hs, List.append_cancel_left_eq]
    rw [hall, forall_taken_iff hn]
    refine imp_congr_right fun _ => ?_
    rw [hobject, WriteResult.wrote.injEq]
    simp only [Option.mem_some_iff, exists_eq_left']

theorem complete_step (hI : Inv s) (h : Complete s) (ht : step s a = some t) :
    Complete t ↔ TakenWhole s a := by
  by_cases hwrite : ∃ result, a = .write result
  · obtain ⟨result, rfl⟩ := hwrite
    obtain ⟨p, hp, hwritten⟩ := step_write ht
    exact complete_written h hp hwritten
  by_cases hdata : ∃ c data, a = .data c data
  · obtain ⟨c, data, rfl⟩ := hdata
    obtain ⟨hidle, rfl⟩ := step_data ht
    exact complete_data hI h hidle
  obtain ⟨hpending, hinputs, hdeliveries⟩ := step_frame ht (fun c data heq => hdata ⟨c, data, heq⟩)
    fun result heq => hwrite ⟨result, heq⟩
  have hC : TakenWhole s a := by
    cases a with
    | write result => exact absurd ⟨result, rfl⟩ hwrite
    | data c data => exact absurd ⟨c, data, rfl⟩ hdata
    | _ => trivial
  refine iff_of_true (fun c => ?_) hC
  rw [State.received, State.delivered, State.unwritten, hinputs, hdeliveries, hpending]
  exact h c

/-- In every run, the PTYs get exactly the inputs on their open channels throughout iff every input
finds a writer and all of it is taken at once. -/
theorem complete_iff (as : List Action) (hr : run step .init as = some t) :
    Always step Complete .init as ↔ Meets step TakenWhole .init as :=
  always_iff_meets (I := Inv) (fun _ _ _ hI h => inv_step hI h)
    (fun _ _ _ hI hP h => complete_step hI hP h) inv_init (fun _ => rfl) hr

end

/-! ## Runs -/

/-- A terminal of channel `a`, whose writer has the number 4. -/
def opening : List Action := [.spawn 0 "a", .openPty 0 3 4, .insert 0]

def typing : Action := .data "a" (.object [("input", .string "ls")])

/-- The stream ends before the write, and another terminal gets the number. -/
def reuse : List Action := [.remove 0, .spawn 1 "b", .openPty 1 4 5]

theorem confined_typing :
    Always step Confined .init (opening ++ [typing, .write (.wrote 2)] ++ reuse) :=
  (confined_run_iff _ rfl).2 (by decide)

theorem reuse_crosses : ¬ ∀ as t, run step .init as = some t → Confined t := by
  intro h
  have hdelivery := h (opening ++ [typing] ++ reuse ++ [.write (.wrote 2)]) _ rfl
    ⟨"a", 1, 1, some "b", .bytes [0x6c, 0x73]⟩ (List.mem_singleton.2 rfl) (by decide)
  exact absurd hdelivery.1 (by decide)

theorem complete_typing : Always step Complete .init (opening ++ [typing, .write (.wrote 2)]) :=
  (complete_iff _ rfl).2 (by decide)

/-- The buffer takes one of the two bytes. -/
theorem shortWrite_loses : ¬ ∀ as t, run step .init as = some t → Complete t := by
  intro h
  have hcomplete := h (opening ++ [typing, .write (.wrote 1)]) _ rfl "a"
  exact absurd hcomplete (by decide)

end Tenodera.Agent.PtyWriters
