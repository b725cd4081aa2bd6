import Tenodera.Agent.StreamLoops
import Tenodera.Lib.LossyUtf8
import Tenodera.Protocol.Message

/-!
# What a terminal shows

The loop of the terminal handler as the browser sees it: every read of the pty becomes a message of
its own, with the lossy decoding of that read alone.  `text_stream_eq_iff` says for which reads the
messages together are the lossy decoding of all that was read.
-/

namespace Tenodera.Agent.TerminalOutput

open Protocol StreamLoop

/-- The size of `buf`. -/
def bufLen : ℕ := 4096

/-- The beginning of `buf` that a read has filled. -/
structure Chunk where
  bytes : List UInt8
  nonempty : bytes ≠ []
  fits : bytes.length ≤ bufLen

/-- What the loop finds when the pty is readable.  `sent` is false when the receiver of the
messages is gone. -/
inductive Read
  | pollError
  | eof
  | output (chunk : Chunk) (sent : Bool)
  | readError
  | wouldBlock

inductive Wake
  | readable (r : Read)
  /-- `shutdown` has changed, to this value. -/
  | shutdown (value : Bool)

/-- `json!({ "output": text })`. -/
def outputData (chunk : Chunk) : Value :=
  .object [("output", .string (String.ofList (LossyUtf8.decode chunk.bytes)))]

/-- The loop is left at the wake-up. -/
def Wake.leaves : Wake → Bool
  | readable (.output _ sent) => !sent
  | readable .wouldBlock => false
  | readable _ => true
  | shutdown value => value

/-- The read that is handed on. -/
def Wake.chunk : Wake → Option Chunk
  | readable (.output chunk true) => some chunk
  | _ => none

/-- The messages of `stream` after the channel is ready, from the wake-ups of its loop. -/
def stream (channel : ChannelId) : List Wake → List Message
  | [] => []
  | wake :: wakes =>
    (wake.chunk.map fun chunk => .data channel (outputData chunk)).toList ++
      if wake.leaves then [.close channel none] else stream channel wakes

/-- The reads that are handed on, until the loop is left. -/
def reads : List Wake → List (List UInt8)
  | [] => []
  | wake :: wakes =>
    (wake.chunk.map Chunk.bytes).toList ++ if wake.leaves then [] else reads wakes

/-- The text of a message for the terminal. -/
def outputOf : Message → Option String
  | .data _ data => (data.get "output").bind Value.asStr
  | _ => none

/-- The texts of the messages, one after the other. -/
def text (messages : List Message) : List Char :=
  (messages.filterMap outputOf).flatMap String.toList

/-! ## The loop -/

/-- The loop's control flow does not depend on what was read. -/
def Read.toReadable : Read → Readable
  | pollError => .pollError
  | eof => .eof
  | output _ sent => .output sent
  | readError => .readError
  | wouldBlock => .wouldBlock

theorem terminalPty_readable (w : Watch) (r : Read) :
    terminalPty w (.readable r.toReadable) = some ((Wake.readable r).leaves, w) := by
  cases r <;> rfl

theorem terminalPty_shutdown (w : Watch) {left : Bool} {w' : Watch}
    (h : terminalPty w .shutdown = some (left, w')) : left = (Wake.shutdown w'.value).leaves := by
  obtain ⟨seen, -, hseen⟩ : ∃ seen, w.changed = some seen ∧ (seen.2.value, seen.2) = (left, w') :=
    Option.map_eq_some_iff.1 h
  cases hseen
  rfl

theorem text_append (ms ms' : List Message) : text (ms ++ ms') = text ms ++ text ms' := by
  unfold text
  rw [List.filterMap_append, List.flatMap_append]

/-- Every read is decoded alone. -/
theorem text_stream (channel : ChannelId) (wakes : List Wake) :
    text (stream channel wakes) = (reads wakes).flatMap LossyUtf8.decode := by
  induction wakes with
  | nil => rfl
  | cons wake wakes ih =>
    have hchunk : text (wake.chunk.map fun chunk => .data channel (outputData chunk)).toList =
        (wake.chunk.map Chunk.bytes).toList.flatMap LossyUtf8.decode := by
      cases wake.chunk with
      | none => rfl
      | some chunk =>
        change (String.ofList (LossyUtf8.decode chunk.bytes)).toList ++ [] =
          LossyUtf8.decode chunk.bytes ++ []
        rw [String.toList_ofList]
    rw [stream, reads, text_append, List.flatMap_append, hchunk]
    split_ifs
    · rfl
    · rw [ih]

/-- The terminal shows the lossy decoding of all that was read iff no read ends within a sequence
that the next one goes on with. -/
theorem text_stream_eq_iff (channel : ChannelId) (wakes : List Wake) :
    text (stream channel wakes) = LossyUtf8.decode (reads wakes).flatten ↔
      LossyUtf8.Unsplit (reads wakes) := by
  rw [text_stream]
  exact LossyUtf8.flatMap_decode_eq_iff (reads wakes)

/-- A letter of two bytes whose second byte comes with the next read. -/
def cutLetter : List Wake :=
  [.readable (.output ⟨[0xC3], by decide, by decide⟩ true),
    .readable (.output ⟨[0xA9], by decide, by decide⟩ true), .readable .eof]

theorem cutLetter_corrupted :
    text (stream "term" cutLetter) ≠ LossyUtf8.decode (reads cutLetter).flatten := by
  decide

end Tenodera.Agent.TerminalOutput
