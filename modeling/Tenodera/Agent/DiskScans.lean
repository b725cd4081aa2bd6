import Tenodera.Agent.Router
import Tenodera.Agent.StreamLoops
import Tenodera.Lib.Path
import Tenodera.Lib.Text
import Tenodera.Lib.Words

/-!
# Disk scans

`storage.du` runs one `du` at a time on a host.  Every Open has a task of its own, and all tasks of
the process, those of earlier sessions with the gateway included, share the flag `SCANNING`.
-/

namespace Tenodera.Agent.DiskScans

open Protocol StreamLoop

/-! ## The directory -/

/-- What the host says about the path: its canonical form, and whether that is a directory. -/
structure Seen where
  canon : Option String
  isDir : Except String Bool

/-- `validate_dir`. -/
def validateDir (raw : String) (seen : Seen) : Except String String :=
  if ¬ Text.startsWith raw "/" then .error "path must be absolute"
  else
    match seen.canon with
    | none => .error "path not found"
    | some canon => do
      let isDir ← seen.isDir
      if ¬ isDir then .error "not a directory" else .ok canon

def errorValue (e : String) : Value := .object [("error", .string e)]

/-! ## The result -/

def maxEntries : ℕ := 300

def maxDirRead : ℕ := 200000

/-- An entry of a directory, as far as it can be read. -/
structure DirEntry where
  fileName : String
  isFile : Option Bool
  blocks : Option UInt64

structure Entry where
  name : String
  size : UInt64
  isDir : Bool
  deriving DecidableEq, Repr

/-- The total and the subdirectories in the output of `du`. -/
def duLoop (path : String) : UInt64 → List Entry → List String → UInt64 × List Entry
  | total, entries, [] => (total, entries)
  | total, entries, line :: rest =>
    match Words.splitOnce (· = '\t') line.toList with
    | none => duLoop path total entries rest
    | some (size, p) =>
      let size := ((Text.parseUnsigned 64 (String.ofList (Text.trimmed size))).map
        UInt64.ofNat).getD 0
      if p = path.toList then duLoop path size entries rest
      else
        let name := ((p.splitOn '/').getLast?).getD p
        duLoop path total (entries ++ [⟨String.ofList name, size, true⟩]) rest

/-- The files that stand in the directory itself, and whether some were left out. -/
def filesLoop : ℕ → List Entry → List DirEntry → List Entry × Bool
  | _, entries, [] => (entries, false)
  | seen, entries, ent :: rest =>
    if seen + 1 > maxDirRead then (entries, true)
    else
      match ent.isFile, ent.blocks with
      | some true, some blocks =>
        filesLoop (seen + 1) (entries ++ [⟨ent.fileName, blocks * 512, false⟩]) rest
      | _, _ => filesLoop (seen + 1) entries rest

def Entry.toValue (e : Entry) : Value :=
  .object [("name", .string e.name), ("size", .number (.posInt e.size)), ("is_dir", .bool e.isDir)]

/-- `build_result`, with the directory as it is read then; `none` when it cannot be opened. -/
def buildResult (path duOutput : String) (dir : Option (List DirEntry)) : Value :=
  let (total, entries) := duLoop path 0 [] (Text.lines duOutput)
  let (entries, filesTruncated) :=
    match dir with
    | some rd => filesLoop 0 entries rd
    | none => (entries, false)
  -- the sort is stable
  let entries := entries.mergeSort fun a b => decide (b.size ≤ a.size)
  let truncatedEntries := decide (entries.length > maxEntries)
  let parent :=
    if path = "/" then .null
    else ((Path.parent (Path.components path)).map fun p => .string (Path.render p)).getD .null
  .object
    [("path", .string path), ("parent", parent), ("total", .number (.posInt total)),
      ("entries", .array ((entries.take maxEntries).map Entry.toValue)),
      ("truncated", .bool (truncatedEntries || filesTruncated))]

/-! ## One request -/

/-- Where the task of a request stands: at the next wait, look at the host or look at the flag. -/
inductive Pc
  | ready
  | validate
  | swap (path : String)
  | spawn (path : String)
  /-- In the loop that reads the output of the child. -/
  | select (path : String)
  /-- The child was killed; the read goes on until the pipe is closed. -/
  | drain (path : String)
  | wait (path : String)
  | data (data : Value)
  | close
  /-- Before the end, where the locals are dropped. -/
  | drop
  | ended

/-- The task that `Router::handle` spawns for an Open. -/
structure Task where
  /-- The number of the session with the gateway that it belongs to. -/
  session : ℕ
  channel : ChannelId
  options : ChannelOpenOptions
  pc : Pc
  aborted : Bool
  /-- It holds the `ScanGuard`. -/
  guard : Bool
  /-- Its child runs. -/
  child : Bool
  shutdown : Watch
  /-- What went into the queue to the gateway. -/
  sent : List Message
  /-- The client closed the request; no part of the agent. -/
  closed : Bool

namespace Task

def new (session : ℕ) (channel : ChannelId) (options : ChannelOpenOptions) : Task :=
  { session, channel, options
    pc := .ready
    aborted := false
    guard := false
    child := false
    shutdown := .new
    sent := []
    closed := false }

/-- The path asked for. -/
def raw (t : Task) : String := ((t.options.extra.lookup "path").bind Value.asStr).getD "/"

/-- `tx.send`, whose error is ignored. -/
def send (receiving : Bool) (t : Task) (m : Message) : Task :=
  if receiving then { t with sent := t.sent ++ [m] } else t

/-- The sender of the shutdown channel is dropped. -/
def dropSender (t : Task) : Task := { t with shutdown := { t.shutdown with closed := true } }

/-- The client closes the request: true is sent before the sender is dropped. -/
def sendShutdown (t : Task) : Task :=
  { t with shutdown := t.shutdown.send true, closed := true }.dropSender

end Task

/-- What a task comes to next, with what it finds there. -/
inductive Event
  | ready
  | validate (seen : Seen)
  | swap
  | spawn (started : Except String Unit)
  | wake (b : Branch)
  | drained
  /-- The child has ended; its output, and the directory afterwards. -/
  | wait (output : String) (dir : Option (List DirEntry))
  | data
  | close
  | drop

/-- One step of the task, and the flag after it. -/
def Task.step (scanning receiving : Bool) (t : Task) (e : Event) : Option (Bool × Task) :=
  match t.pc, e with
  | .ready, .ready => some (scanning, { t.send receiving (.ready t.channel) with pc := .validate })
  | .validate, .validate seen =>
    match validateDir t.raw seen with
    | .ok path => some (scanning, { t with pc := .swap path })
    | .error e => some (scanning, { t with pc := .data (errorValue e) })
  | .swap path, .swap =>
    if scanning then
      some (true, { t with
        pc := .data (errorValue "another scan is already running on this host") })
    else some (true, { t with pc := .spawn path, guard := true })
  | .spawn _, .spawn (.error e) =>
    some (scanning, { t with pc := .data (errorValue ("failed to start du: " ++ e)) })
  | .spawn path, .spawn (.ok ()) => some (scanning, { t with pc := .select path, child := true })
  | .select path, .wake b =>
    (storageDu t.shutdown b).map fun (left, shutdown) =>
      if ¬ left then (scanning, { t with shutdown })
      else if b = .readToEnd then (scanning, { t with pc := .wait path, shutdown })
      else (scanning, { t with pc := .drain path, aborted := true, shutdown })
  | .drain path, .drained => some (scanning, { t with pc := .wait path })
  | .wait path, .wait output dir =>
    some (scanning, { t with
      child := false
      pc := if t.aborted then .drop else .data (buildResult path output dir) })
  | .data data, .data =>
    some (scanning, { t.send receiving (.data t.channel data) with pc := .close })
  | .close, .close => some (scanning, { t.send receiving (.close t.channel none) with pc := .drop })
  | .drop, .drop =>
    some (if t.guard then false else scanning, { t with guard := false, pc := .ended })
  | _, _ => none

/-! ## The agent -/

/-- The agent, as far as its disk scans go. -/
structure State where
  /-- `SCANNING`. -/
  scanning : Bool
  tasks : List Task
  /-- The streaming channels of the session, with the task of those that scan. -/
  activeChannels : AList fun _ : ChannelId => Option ℕ
  session : ℕ
  /-- The receiver of the queue to the gateway is there. -/
  receiving : Bool

inductive Action
  /-- An Open for `storage.du`. -/
  | open_ (channel : ChannelId) (options : ChannelOpenOptions)
  /-- An Open for another streaming handler. -/
  | openOther (channel : ChannelId)
  | close (channel : ChannelId)
  /-- The writer to the gateway ends. -/
  | writerEnds
  /-- The session is over, and the next one may begin. -/
  | sessionEnds
  | task (i : ℕ) (e : Event)

namespace State

def init : State := ⟨false, [], ∅, 0, true⟩

/-- The tasks, with a change of the one whose channel that is. -/
def change (f : Task → Task) (s : State) (channel : ChannelId) : List Task :=
  match s.activeChannels.lookup channel with
  | some (some i) => s.tasks.modify i f
  | _ => s.tasks

/-- The session that the task belongs to lasts. -/
def Lasts (s : State) (t : Task) : Prop := t.session = s.session ∧ s.receiving = true

instance (s : State) (t : Task) : Decidable (s.Lasts t) := inferInstanceAs (Decidable (_ ∧ _))

/-- One step.  The entry that an Open replaces is dropped with its sender, as are those of a session
that is over. -/
def step (s : State) : Action → Option State
  | .open_ channel options =>
    some { s with
      tasks := s.change Task.dropSender channel ++ [.new s.session channel options]
      activeChannels := s.activeChannels.insert channel (some s.tasks.length) }
  | .openOther channel =>
    some { s with
      tasks := s.change Task.dropSender channel
      activeChannels := s.activeChannels.insert channel none }
  | .close channel =>
    some { s with
      tasks := s.change Task.sendShutdown channel
      activeChannels := s.activeChannels.erase channel }
  | .writerEnds => some { s with receiving := false }
  | .sessionEnds =>
    some { s with
      tasks := s.tasks.map Task.dropSender
      activeChannels := ∅
      session := s.session + 1
      receiving := true }
  | .task i e => do
    let t ← s.tasks[i]?
    let (scanning, t) ← t.step s.scanning (decide (s.Lasts t)) e
    some { s with scanning, tasks := s.tasks.set i t }

end State

/-! ## The law -/

/-- A Close was sent, once and as the last message. -/
def Task.Answered (t : Task) : Prop :=
  ∃ before problem, t.sent = before ++ [.close t.channel problem] ∧
    ∀ m ∈ before, closes t.channel m = false

/-- How far the task is from its end. -/
def Pc.rank : Pc → ℕ
  | ready => 10
  | validate => 9
  | swap _ => 8
  | spawn _ => 7
  | select _ => 6
  | drain _ => 5
  | wait _ => 4
  | data _ => 3
  | close => 2
  | drop => 1
  | ended => 0

namespace State

/-- One child at a time, whose task holds the flag; the flag is up as long as some task holds it,
which no task does after its end. -/
structure Exclusive (s : State) : Prop where
  oneScan : ∀ (i j : ℕ) (t u : Task), s.tasks[i]? = some t → s.tasks[j]? = some u →
    t.child → u.child → i = j
  held : ∀ t ∈ s.tasks, t.child → t.guard
  oneHolder : ∀ (i j : ℕ) (t u : Task), s.tasks[i]? = some t → s.tasks[j]? = some u →
    t.guard → u.guard → i = j
  busy : s.scanning ↔ ∃ t ∈ s.tasks, t.guard
  released : ∀ t ∈ s.tasks, t.pc = .ended → ¬ t.guard

/-- Every request that has not ended can go on, comes nearer to its end with each of its steps, and
is not set back by any other. -/
def Progress (s : State) : Prop :=
  ∀ i t, s.tasks[i]? = some t → t.pc ≠ .ended →
    (∃ e, (s.step (.task i e)).isSome) ∧
      ∀ a s', s.step a = some s' → ∃ t', s'.tasks[i]? = some t' ∧ t'.pc.rank ≤ t.pc.rank ∧
        ∀ e, a = .task i e → t'.pc.rank < t.pc.rank

/-- Whoever makes the flag go down is at its end, and has held it. -/
def Releases (s : State) (a : Action) : Prop :=
  ∀ s', s.step a = some s' → s.scanning → ¬ s'.scanning →
    ∃ i t, a = .task i .drop ∧ s.tasks[i]? = some t ∧ t.guard

/-- Every request that the client has not closed is answered, by the time it ends in its session. -/
def Answers (s : State) : Prop :=
  ∀ t ∈ s.tasks, s.Lasts t → ¬ t.closed → t.pc = .ended → t.Answered

/-- A request whose scan was cut off ends without an answer. -/
def CutsOff (s : State) : Prop := ∀ t ∈ s.tasks, t.aborted → t.pc = .ended → ¬ t.Answered

/-- No scan is cut off, unless the client closed the request or the session is over. -/
def Spares (s : State) : Action → Prop
  | .task i (.wake b) => b = .readToEnd ∨ ∀ t ∈ s.tasks[i]?, s.Lasts t → t.closed
  | _ => True

end State

end Tenodera.Agent.DiskScans
