import Tenodera.Lib.Pieces

/-!
# Output that is read under a cap

`read_capped`, and what `wait_capped_with` makes of the two pipes of a command.  A reader hands its
bytes out in chunks of any size, and need not come to an end.  `readCapped_spec` says what the loop
returns in terms of the byte stream alone, so that the chunks do not matter.
-/

namespace Tenodera.Agent.CappedReads

open Stream' Pieces

/-- The size of `chunk`. -/
def chunkLen : ℕ := 8192

/-- The beginning of `chunk` that a read has filled. -/
structure Chunk where
  bytes : List UInt8
  nonempty : bytes ≠ []
  fits : bytes.length ≤ chunkLen

/-- What a read gives; `eof` is `Ok(0)`. -/
inductive Read
  | ok (chunk : Chunk)
  | eof
  | error

/-- A reader, by what one read after the other gives.  What comes after an `eof` or an error is
never asked for. -/
abbrev Reader := Stream' Read

/-! ## The loop -/

/-- `buf`, which never holds more than `cap` bytes. -/
structure Buffer (cap : ℕ) where
  bytes : List UInt8
  fits : bytes.length ≤ cap

variable {cap : ℕ}

/-- `Vec::new()`. -/
def Buffer.new (cap : ℕ) : Buffer cap := ⟨[], Nat.zero_le cap⟩

/-- `buf.extend_from_slice(&chunk[..n])`, of a chunk that does not go beyond the cap. -/
def Buffer.extend (buf : Buffer cap) (chunk : Chunk)
    (h : ¬cap < buf.bytes.length + chunk.bytes.length) : Buffer cap where
  bytes := buf.bytes ++ chunk.bytes
  fits := by
    rw [List.length_append]
    omega

theorem Buffer.length_lt_extend (buf : Buffer cap) (chunk : Chunk)
    (h : ¬cap < buf.bytes.length + chunk.bytes.length) :
    buf.bytes.length < (buf.extend chunk h).bytes.length := by
  have hpos : 0 < chunk.bytes.length := List.length_pos_iff.2 chunk.nonempty
  show buf.bytes.length < (buf.bytes ++ chunk.bytes).length
  rw [List.length_append]
  omega

/-- The loop of `read_capped`: every chunk that it goes on after leaves less room in `buf`. -/
def readLoop (buf : Buffer cap) (r : Reader) : List UInt8 × Bool :=
  match r.head with
  | .eof | .error => (buf.bytes, false)
  | .ok chunk =>
    if h : cap < buf.bytes.length + chunk.bytes.length then
      -- The room that is left is less than the chunk, so that the slice of it exists.
      (buf.bytes ++ chunk.bytes.take (cap - buf.bytes.length), true)
    else
      readLoop (buf.extend chunk h) r.tail
termination_by cap - buf.bytes.length
decreasing_by
  have hgrow : buf.bytes.length < (buf.extend chunk h).bytes.length := buf.length_lt_extend chunk h
  have hfits : (buf.extend chunk h).bytes.length ≤ cap := (buf.extend chunk h).fits
  omega

theorem readLoop_of_cut {buf : Buffer cap} {r : Reader} {chunk : Chunk} (hr : r.head = .ok chunk)
    (h : cap < buf.bytes.length + chunk.bytes.length) :
    readLoop buf r = (buf.bytes ++ chunk.bytes.take (cap - buf.bytes.length), true) := by
  rw [readLoop, hr]
  exact dif_pos h

theorem readLoop_of_fits {buf : Buffer cap} {r : Reader} {chunk : Chunk} (hr : r.head = .ok chunk)
    (h : ¬cap < buf.bytes.length + chunk.bytes.length) :
    readLoop buf r = readLoop (buf.extend chunk h) r.tail := by
  rw [readLoop, hr]
  exact dif_neg h

/-- `read_capped`. -/
def readCapped (r : Reader) (cap : ℕ) : List UInt8 × Bool := readLoop (Buffer.new cap) r

/-! ## The byte stream -/

/-- The chunk of a read; without one the stream is at its end. -/
def Read.chunk : Read → Option Chunk
  | ok chunk => some chunk
  | eof | error => none

/-- The chunks that the reader delivers until its end. -/
def chunks : Reader → Seq Chunk := Seq.corec fun r => r.head.chunk.map fun chunk => (chunk, r.tail)

def Chunk.piece (chunk : Chunk) : Seq1 UInt8 := Pieces.piece chunk.bytes chunk.nonempty

/-- The byte stream that the reader delivers, finite or not. -/
def stream (r : Reader) : Seq UInt8 := ((chunks r).map Chunk.piece).join

theorem chunks_of_end {r : Reader} (h : r.head.chunk = none) : chunks r = Seq.nil := by
  apply Seq.corec_nil
  rw [h]
  rfl

theorem chunks_of_ok {r : Reader} {chunk : Chunk} (h : r.head = .ok chunk) :
    chunks r = Seq.cons chunk (chunks r.tail) := by
  apply Seq.corec_cons
  rw [h]
  rfl

theorem stream_of_end {r : Reader} (h : r.head.chunk = none) : stream r = Seq.nil := by
  rw [stream, chunks_of_end h, Seq.map_nil, Seq.join_nil]

theorem stream_of_ok {r : Reader} {chunk : Chunk} (h : r.head = .ok chunk) :
    stream r = (Seq.ofList chunk.bytes).append (stream r.tail) := by
  rw [stream, chunks_of_ok h, Seq.map_cons]
  exact join_cons_piece chunk.nonempty _

def Chunk.single (b : UInt8) : Chunk where
  bytes := [b]
  nonempty := List.cons_ne_nil b []
  fits := by
    show 1 ≤ 8192
    decide

/-- The reader that delivers a stream byte by byte. -/
def bytewise (s : Seq UInt8) : Reader := fun n => ((s.get? n).map (.ok ∘ Chunk.single)).getD .eof

theorem chunks_bytewise (s : Seq UInt8) : chunks (bytewise s) = s.map Chunk.single := by
  apply Seq.eq_of_bisim' fun t t' => ∃ s, t = chunks (bytewise s) ∧ t' = s.map Chunk.single
  · exact ⟨s, rfl, rfl⟩
  · rintro _ _ ⟨s, rfl, rfl⟩
    cases s with
    | nil => exact .inl ⟨chunks_of_end rfl, Seq.map_nil _⟩
    | cons b s =>
      refine .inr ⟨Chunk.single b, chunks (bytewise s), s.map Chunk.single, ?_, ?_, s, rfl, rfl⟩
      · exact chunks_of_ok rfl
      · exact Seq.map_cons _ b s

/-- Every byte stream is delivered by a reader. -/
theorem stream_bytewise (s : Seq UInt8) : stream (bytewise s) = s := by
  have hret : Chunk.piece ∘ Chunk.single = Seq1.ret := rfl
  rw [stream, chunks_bytewise, ← Seq.map_comp, hret, Seq1.join_map_ret]

/-! ## What the loop returns -/

/-- What has been read, and then what is still to come. -/
def whole (buf : Buffer cap) (r : Reader) : Seq UInt8 := (Seq.ofList buf.bytes).append (stream r)

theorem whole_new (cap : ℕ) (r : Reader) : whole (Buffer.new cap) r = stream r := Seq.nil_append _

theorem whole_of_end (buf : Buffer cap) {r : Reader} (h : r.head.chunk = none) :
    whole buf r = Seq.ofList buf.bytes := by
  rw [whole, stream_of_end h, Seq.append_nil]

theorem whole_of_ok (buf : Buffer cap) {r : Reader} {chunk : Chunk} (hr : r.head = .ok chunk) :
    whole buf r = (Seq.ofList (buf.bytes ++ chunk.bytes)).append (stream r.tail) := by
  rw [whole, stream_of_ok hr, Seq.ofList_append, Seq.append_assoc]

theorem cap_of_end (buf : Buffer cap) {r : Reader} (h : r.head.chunk = none) :
    buf.bytes = (whole buf r).take cap ∧
      (false = true ↔ (cap : ℕ∞) < (whole buf r).length') := by
  rw [whole_of_end buf h, take_ofList, length_ofList, Nat.cast_lt]
  constructor
  · exact (List.take_of_length_le buf.fits).symm
  · exact iff_of_false Bool.false_ne_true (not_lt_of_ge buf.fits)

theorem cap_of_ok (buf : Buffer cap) {r : Reader} {chunk : Chunk} (hr : r.head = .ok chunk)
    (h : cap < buf.bytes.length + chunk.bytes.length) :
    buf.bytes ++ chunk.bytes.take (cap - buf.bytes.length) = (whole buf r).take cap ∧
      (true = true ↔ (cap : ℕ∞) < (whole buf r).length') := by
  have hlen : cap < (buf.bytes ++ chunk.bytes).length := by
    rw [List.length_append]
    exact h
  have hroom : cap - (buf.bytes ++ chunk.bytes).length = 0 := by omega
  rw [whole_of_ok buf hr, take_append, length_append]
  constructor
  · rw [hroom, Seq.take_zero, List.append_nil, List.take_append, List.take_of_length_le buf.fits]
  · exact iff_of_true rfl (lt_of_lt_of_le (Nat.cast_lt.2 hlen) le_self_add)

/-- A chunk that goes into the buffer leaves buffer and stream together as they are, so that the
loop returns what the cap lets through of the two. -/
theorem readLoop_spec (buf : Buffer cap) (r : Reader) :
    (readLoop buf r).1 = (whole buf r).take cap ∧
      ((readLoop buf r).2 = true ↔ (cap : ℕ∞) < (whole buf r).length') := by
  fun_induction readLoop buf r with
  | case1 buf r hr => exact cap_of_end buf (by rw [hr]; rfl)
  | case2 buf r hr => exact cap_of_end buf (by rw [hr]; rfl)
  | case3 buf r chunk hr h => exact cap_of_ok buf hr h
  | case4 buf r chunk hr h ih =>
    have hwhole : whole (buf.extend chunk h) r.tail = whole buf r := (whole_of_ok buf hr).symm
    rwa [hwhole] at ih

theorem readCapped_bytes (r : Reader) (cap : ℕ) :
    (readCapped r cap).1 = (stream r).take cap := by
  have hloop : (readCapped r cap).1 = (whole (Buffer.new cap) r).take cap :=
    (readLoop_spec (Buffer.new cap) r).1
  rwa [whole_new] at hloop

theorem readCapped_cut_iff (r : Reader) (cap : ℕ) :
    (readCapped r cap).2 = true ↔ (cap : ℕ∞) < (stream r).length' := by
  have hloop : (readCapped r cap).2 = true ↔ (cap : ℕ∞) < (whole (Buffer.new cap) r).length' :=
    (readLoop_spec (Buffer.new cap) r).2
  rwa [whole_new] at hloop

/-- Of every byte stream, however it is delivered, `read_capped` returns the beginning up to the
cap, and that it was cut exactly when there was more of it. -/
theorem readCapped_spec (r : Reader) (cap : ℕ) :
    (readCapped r cap).1 = (stream r).take cap ∧
      ((readCapped r cap).1.length : ℕ∞) = min (cap : ℕ∞) (stream r).length' ∧
      ((readCapped r cap).2 = true ↔ (cap : ℕ∞) < (stream r).length') := by
  refine ⟨readCapped_bytes r cap, ?_, readCapped_cut_iff r cap⟩
  rw [readCapped_bytes]
  exact length_take _ _

/-- Of a stream that ends. -/
theorem readCapped_of_finite {r : Reader} {l : List UInt8} (h : stream r = Seq.ofList l) (cap : ℕ) :
    readCapped r cap = (l.take cap, decide (cap < l.length)) := by
  have hcut : (readCapped r cap).2 = true ↔ cap < l.length := by
    rw [readCapped_cut_iff, h, length_ofList, Nat.cast_lt]
  apply Prod.ext
  · rw [readCapped_bytes, h, take_ofList]
  · exact Bool.eq_iff_iff.2 (hcut.trans decide_eq_true_iff.symm)

-- A stream that ends at the cap is not cut.
example {r : Reader} {l : List UInt8} (h : stream r = Seq.ofList l) :
    readCapped r l.length = (l, false) := by
  rw [readCapped_of_finite h, List.take_length, decide_eq_false (lt_irrefl _)]

/-- The result does not depend on the chunks. -/
theorem readCapped_congr {r r' : Reader} (h : stream r = stream r') (cap : ℕ) :
    readCapped r cap = readCapped r' cap := by
  apply Prod.ext
  · rw [readCapped_bytes, readCapped_bytes, h]
  · rw [Bool.eq_iff_iff, readCapped_cut_iff, readCapped_cut_iff, h]

theorem readLoop_agree (buf : Buffer cap) {r r' : Reader}
    (h : ∀ n, buf.bytes.length + n ≤ cap → r.get n = r'.get n) :
    readLoop buf r = readLoop buf r' := by
  have hhead : r'.head = r.head := (h 0 buf.fits).symm
  fun_induction readLoop buf r generalizing r' with
  | case1 buf r hr => rw [readLoop, hhead, hr]
  | case2 buf r hr => rw [readLoop, hhead, hr]
  | case3 buf r chunk hr hcut => rw [readLoop_of_cut (hhead.trans hr) hcut]
  | case4 buf r chunk hr hcut ih =>
    have htail : ∀ n, (buf.extend chunk hcut).bytes.length + n ≤ cap →
        r.tail.get n = r'.tail.get n := by
      intro n hn
      have hgrow : buf.bytes.length < (buf.extend chunk hcut).bytes.length :=
        buf.length_lt_extend chunk hcut
      apply h (n + 1)
      omega
    rw [readLoop_of_fits (hhead.trans hr) hcut]
    exact ih htail (htail 0 (buf.extend chunk hcut).fits).symm

/-- The loop makes `cap + 1` reads at most, also when the reader never ends. -/
theorem readCapped_agree {r r' : Reader} (h : ∀ n ≤ cap, r.get n = r'.get n) :
    readCapped r cap = readCapped r' cap := by
  refine readLoop_agree _ fun n hn => h n ?_
  exact le_of_add_le_right hn

/-! ## The two pipes of a command -/

/-- The `o` and the `e` of `collect`. -/
def collect (pipe : Option Reader) (cap : ℕ) : List UInt8 × Bool :=
  match pipe with
  | some p => readCapped p cap
  | none => ([], false)

/-- What a pipe has to give; one that was not made gives nothing. -/
def pipeStream : Option Reader → Seq UInt8
  | some p => stream p
  | none => Seq.nil

theorem collect_spec (pipe : Option Reader) (cap : ℕ) :
    (collect pipe cap).1 = (pipeStream pipe).take cap ∧
      ((collect pipe cap).2 = true ↔ (cap : ℕ∞) < (pipeStream pipe).length') := by
  cases pipe with
  | some p => exact ⟨readCapped_bytes p cap, readCapped_cut_iff p cap⟩
  | none =>
    show [] = Seq.nil.take cap ∧ (false = true ↔ (cap : ℕ∞) < Seq.nil.length')
    rw [Seq.take_nil, Seq.length'_nil]
    exact ⟨rfl, iff_of_false Bool.false_ne_true not_lt_zero⟩

structure CappedOutput (ExitStatus : Type) where
  status : ExitStatus
  stdout : List UInt8
  stderr : List UInt8
  /-- Output exceeded the size cap and was cut short. -/
  truncated : Bool
  /-- The command hit the wall-clock timeout and was killed. -/
  timedOut : Bool

/-- How the wait ends, with what `child.wait()` gives then. -/
inductive Wait (ExitStatus Error : Type)
  | finished (status : Except Error ExitStatus)
  | overran (status : Except Error ExitStatus)

variable {ExitStatus Error : Type}

/-- `wait_capped_with`, of a command whose pipes are `outPipe` and `errPipe`. -/
def waitCappedWith (outPipe errPipe : Option Reader) (cap : ℕ) :
    Wait ExitStatus Error → Except Error (CappedOutput ExitStatus)
  | .finished status => do
    let status ← status
    return {
      status
      stdout := (collect outPipe cap).1
      stderr := (collect errPipe cap).1
      truncated := (collect outPipe cap).2 || (collect errPipe cap).2
      timedOut := false }
  | .overran status => do
    let status ← status
    return { status, stdout := [], stderr := [], truncated := false, timedOut := true }

/-- The output of a command that was not killed is the beginning of each of its streams, and marked
as cut exactly when one of the two is longer than the cap. -/
theorem waitCappedWith_spec {outPipe errPipe : Option Reader} {wait : Wait ExitStatus Error}
    {output : CappedOutput ExitStatus} (h : waitCappedWith outPipe errPipe cap wait = .ok output)
    (hkept : output.timedOut = false) :
    output.stdout = (pipeStream outPipe).take cap ∧
      output.stderr = (pipeStream errPipe).take cap ∧
      (output.truncated = true ↔
        (cap : ℕ∞) < (pipeStream outPipe).length' ∨ (cap : ℕ∞) < (pipeStream errPipe).length') := by
  obtain ⟨hout, houtCut⟩ := collect_spec outPipe cap
  obtain ⟨herr, herrCut⟩ := collect_spec errPipe cap
  rcases wait with (_ | status) | (_ | status)
  · cases h
  · obtain rfl := Except.ok.inj h
    refine ⟨hout, herr, ?_⟩
    rw [Bool.or_eq_true]
    exact or_congr houtCut herrCut
  · cases h
  · obtain rfl := Except.ok.inj h
    cases hkept

end Tenodera.Agent.CappedReads
