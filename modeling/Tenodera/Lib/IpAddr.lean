import Mathlib.Data.Nat.Notation
import Tenodera.Lib.Words

/-!
# IP addresses of the Rust standard library

`std::net::IpAddr` with its parser (`FromStr`) and its `Display`.  The parser reads characters from
the front of a list and gives back the rest; a reader that fails has consumed nothing.
-/

structure Ipv4Addr where
  a : UInt8
  b : UInt8
  c : UInt8
  d : UInt8
  deriving DecidableEq, Repr

/-- The eight segments of an IPv6 address. -/
structure Ipv6Addr where
  segments : List UInt16
  length : segments.length = 8
  deriving DecidableEq

def Ipv6Addr.ofSegments (segments : List UInt16) : Option Ipv6Addr :=
  if h : segments.length = 8 then some ⟨segments, h⟩ else none

inductive IpAddr
  | v4 (addr : Ipv4Addr)
  | v6 (addr : Ipv6Addr)
  deriving DecidableEq

namespace IpAddr

/-- `is_loopback`. -/
def isLoopback : IpAddr → Bool
  | v4 addr => addr.a = 127
  | v6 addr => addr.segments = [0, 0, 0, 0, 0, 0, 0, 1]

/-! ## Parsing -/

/-- The value of a character as a digit: `char::to_digit`. -/
def toDigit (radix : ℕ) (c : Char) : Option ℕ :=
  let value :=
    if '0' ≤ c ∧ c ≤ '9' then some (c.toNat - '0'.toNat)
    else if 'a' ≤ c ∧ c ≤ 'z' then some (c.toNat - 'a'.toNat + 10)
    else if 'A' ≤ c ∧ c ≤ 'Z' then some (c.toNat - 'A'.toNat + 10)
    else none
  value.filter fun d => d < radix

/-- `read_number`: the longest run of digits, if it is not too long. -/
def readNumber (radix maxDigits : ℕ) (allowZeroPrefix : Bool) (cs : List Char) :
    Option (ℕ × List Char) :=
  let digits := cs.takeWhile fun c => (toDigit radix c).isSome
  if digits.length > maxDigits then none
  else if digits = [] then none
  else if ¬ allowZeroPrefix ∧ digits.head? = some '0' ∧ digits.length > 1 then none
  else
    some (digits.foldl (fun n c => radix * n + (toDigit radix c).getD 0) 0, cs.drop digits.length)

/-- `read_separator`: what comes before every item but the first. -/
def readSeparator (sep : Char) (first : Bool) (cs : List Char) : Option (List Char) :=
  if first then some cs
  else
    match cs with
    | c :: rest => if c = sep then some rest else none
    | [] => none

def readOctet (first : Bool) (cs : List Char) : Option (UInt8 × List Char) := do
  let cs ← readSeparator '.' first cs
  let (n, cs) ← readNumber 10 3 false cs
  if n < 256 then some (UInt8.ofNat n, cs) else none

def readIpv4Addr (cs : List Char) : Option (Ipv4Addr × List Char) := do
  let (a, cs) ← readOctet true cs
  let (b, cs) ← readOctet false cs
  let (c, cs) ← readOctet false cs
  let (d, cs) ← readOctet false cs
  some (⟨a, b, c, d⟩, cs)

/-- `read_groups` with `limit` groups left to read: the groups, and whether the last two of them
come from an embedded IPv4 address. -/
def readGroups (first : Bool) : ℕ → List Char → List UInt16 × Bool × List Char
  | 0, cs => ([], false, cs)
  | limit + 1, cs =>
    match if limit ≥ 1 then (readSeparator ':' first cs).bind readIpv4Addr else none with
    | some (addr, rest) =>
      ([addr.a.toUInt16 * 256 + addr.b.toUInt16, addr.c.toUInt16 * 256 + addr.d.toUInt16], true,
        rest)
    | none =>
      match (readSeparator ':' first cs).bind (readNumber 16 4 true) with
      | some (group, rest) =>
        let (groups, embedded, rest) := readGroups false limit rest
        (UInt16.ofNat group :: groups, embedded, rest)
      | none => ([], false, cs)

/-- `read_ipv6_addr`: eight groups, or fewer with `::` for the missing ones. -/
def readIpv6Addr (cs : List Char) : Option (Ipv6Addr × List Char) :=
  let (head, embedded, cs) := readGroups true 8 cs
  if head.length = 8 then (Ipv6Addr.ofSegments head).map fun addr => (addr, cs)
  else if embedded then none
  else
    match cs with
    | ':' :: ':' :: cs =>
      let (tail, _, cs) := readGroups true (8 - (head.length + 1)) cs
      let zeros := List.replicate (8 - head.length - tail.length) 0
      (Ipv6Addr.ofSegments (head ++ zeros ++ tail)).map fun addr => (addr, cs)
    | _ => none

def readIpAddr (cs : List Char) : Option (IpAddr × List Char) :=
  match readIpv4Addr cs with
  | some (addr, cs) => some (v4 addr, cs)
  | none => (readIpv6Addr cs).map fun p => (v6 p.1, p.2)

/-- `str::parse::<IpAddr>`: nothing may be left over. -/
def parse (s : String) : Option IpAddr :=
  match readIpAddr s.toList with
  | some (addr, []) => some addr
  | _ => none

example : parse "203.0.113.7" = some (v4 ⟨203, 0, 113, 7⟩) := by decide

example : parse "2001:db8::1" = some (v6 ⟨[0x2001, 0xdb8, 0, 0, 0, 0, 0, 1], rfl⟩) := by decide

/-! ## Printing -/

def decimal (n : UInt8) : List Char := Nat.toDigits 10 n.toNat

def hex (n : UInt16) : List Char := Nat.toDigits 16 n.toNat

def displayIpv4 (addr : Ipv4Addr) : List Char :=
  decimal addr.a ++ '.' :: (decimal addr.b ++ '.' :: (decimal addr.c ++ '.' :: decimal addr.d))

/-- `fmt_subslice`. -/
def displaySegments : List UInt16 → List Char
  | [] => []
  | [segment] => hex segment
  | segment :: segments => hex segment ++ ':' :: displaySegments segments

/-- A run of zero segments. -/
structure Span where
  start : ℕ
  len : ℕ
  deriving DecidableEq, Repr

/-- The run continues with, or begins at, the segment of that index. -/
def Span.extend (span : Span) (i : ℕ) : Span :=
  ⟨if span.len = 0 then i else span.start, span.len + 1⟩

/-- One round of the loop over the segments: the longest run so far and the one that reaches up to
here. -/
def nextSpan (spans : Span × Span) (segment : UInt16 × ℕ) : Span × Span :=
  if segment.1 = 0 then
    let current := spans.2.extend segment.2
    (if current.len > spans.1.len then current else spans.1, current)
  else (spans.1, ⟨0, 0⟩)

def longestZeros (segments : List UInt16) : Span :=
  (segments.zipIdx.foldl nextSpan (⟨0, 0⟩, ⟨0, 0⟩)).1

/-- `to_ipv4_mapped`. -/
def toIpv4Mapped (addr : Ipv6Addr) : Option Ipv4Addr :=
  match addr.segments with
  | [0, 0, 0, 0, 0, 0xffff, x, y] =>
    some ⟨(x >>> 8).toUInt8, x.toUInt8, (y >>> 8).toUInt8, y.toUInt8⟩
  | _ => none

def displayIpv6 (addr : Ipv6Addr) : List Char :=
  match toIpv4Mapped addr with
  | some mapped => "::ffff:".toList ++ displayIpv4 mapped
  | none =>
    let zeros := longestZeros addr.segments
    if zeros.len > 1 then
      displaySegments (addr.segments.take zeros.start) ++ ':' :: ':' ::
        displaySegments (addr.segments.drop (zeros.start + zeros.len))
    else displaySegments addr.segments

def display : IpAddr → List Char
  | v4 addr => displayIpv4 addr
  | v6 addr => displayIpv6 addr

/-- `IpAddr::to_string`. -/
def toString (addr : IpAddr) : String := String.ofList addr.display

example : (v6 ⟨[0x2001, 0xdb8, 0, 0, 0, 0, 0, 1], rfl⟩).toString = "2001:db8::1" := by decide

/-! ## The texts of the loopback addresses -/

theorem isDigit_of_mem_decimal {n : UInt8} {c : Char} (h : c ∈ decimal n) : c.isDigit :=
  Nat.isDigit_of_mem_toDigits (by decide) (by decide) h

theorem decimal_inj {m n : UInt8} (h : decimal m = decimal n) : m = n := by
  have hnat := congrArg (fun cs => Nat.ofDigitChars 10 cs 0) h
  simp only [decimal, Nat.ofDigitChars_ten_toDigits] at hnat
  exact UInt8.toNat_inj.1 hnat

theorem colon_notMem_toDigits (n : ℕ) : ':' ∉ Nat.toDigits 16 n := by
  have hdigit : ∀ d < 16, ':' ≠ Nat.digitChar d := by decide
  induction n using Nat.strongRecOn with
  | ind n ih =>
    rw [Nat.toDigits_eq_if (by decide)]
    split_ifs with hn
    · rw [List.mem_singleton]
      exact hdigit n hn
    · have hdiv : n / 16 < n := Nat.div_lt_self (by omega) (by decide)
      rw [List.mem_append, List.mem_singleton]
      rintro (hmem | heq)
      · exact ih _ hdiv hmem
      · exact hdigit _ (Nat.mod_lt n (by decide)) heq

theorem colon_notMem_hex (n : UInt16) : ':' ∉ hex n := colon_notMem_toDigits _

theorem hex_ne_nil (n : UInt16) : hex n ≠ [] := Nat.toDigits_ne_nil

theorem eq_one_of_hex {n : UInt16} (h : hex n = ['1']) : n = 1 := by
  have hlen : (Nat.toDigits 16 n.toNat).length ≤ 1 := by
    rw [show Nat.toDigits 16 n.toNat = ['1'] from h]
    exact Nat.le_refl 1
  have hlt : n.toNat < 16 := by
    simpa using (Nat.length_toDigits_le_iff (by decide) Nat.one_pos).1 hlen
  have hchar : ∀ d < 16, Nat.digitChar d = '1' → d = 1 := by decide
  have hd : Nat.digitChar n.toNat = '1' := by
    have heq : Nat.toDigits 16 n.toNat = ['1'] := h
    rw [Nat.toDigits_of_lt_base hlt] at heq
    exact (List.cons.inj heq).1
  exact UInt16.toNat_inj.1 (hchar _ hlt hd)

/-- Segments are written from a digit on. -/
theorem displaySegments_head {segments : List UInt16} (h : segments ≠ []) :
    ∃ c cs, displaySegments segments = c :: cs ∧ c ≠ ':' := by
  obtain ⟨segment, rest, rfl⟩ := List.exists_cons_of_ne_nil h
  obtain ⟨c, cs, hc⟩ := List.exists_cons_of_ne_nil (hex_ne_nil segment)
  have hne : c ≠ ':' := by
    rintro rfl
    exact colon_notMem_hex segment (hc ▸ List.mem_cons_self)
  cases rest with
  | nil => exact ⟨c, cs, hc, hne⟩
  | cons next rest => exact ⟨c, cs ++ ':' :: displaySegments (next :: rest), by
      rw [displaySegments, hc, List.cons_append]
      simp, hne⟩

theorem eq_nil_of_displaySegments {segments : List UInt16} {cs : List Char}
    (h : displaySegments segments ++ ':' :: cs = ':' :: ':' :: '1' :: []) : segments = [] := by
  by_contra hne
  obtain ⟨c, rest, hc, hcolon⟩ := displaySegments_head hne
  rw [hc, List.cons_append] at h
  exact hcolon (List.cons.inj h).1

theorem eq_one_of_displaySegments {segments : List UInt16}
    (h : displaySegments segments = ['1']) : segments = [1] := by
  match segments with
  | [segment] => rw [eq_one_of_hex h]
  | segment :: next :: rest =>
    have hlen := congrArg List.length h
    obtain ⟨c, cs, hc⟩ := List.exists_cons_of_ne_nil (hex_ne_nil segment)
    simp [displaySegments, hc] at hlen

/-- The run consists of zeros. -/
def Span.Zeros (segments : List UInt16) (span : Span) : Prop :=
  ∀ i, span.start ≤ i → i < span.start + span.len → segments[i]? = some 0

/-- Both runs consist of zeros, and the current one reaches up to the segments read so far. -/
structure ZeroSpans (segments : List UInt16) (n : ℕ) (spans : Span × Span) : Prop where
  longest : spans.1.Zeros segments
  current : spans.2.Zeros segments
  reaches : spans.2.len ≠ 0 → spans.2.start + spans.2.len = n

theorem Span.Zeros.extend {segments : List UInt16} {n : ℕ} {span : Span} (h : span.Zeros segments)
    (hreach : span.len ≠ 0 → span.start + span.len = n) (hn : segments[n]? = some 0) :
    (span.extend n).Zeros segments ∧ (span.extend n).start + (span.extend n).len = n + 1 := by
  by_cases hlen : span.len = 0
  · have hext : span.extend n = ⟨n, 1⟩ := by simp [Span.extend, hlen]
    rw [hext]
    refine ⟨fun i hle hlt => ?_, rfl⟩
    obtain rfl : i = n := by
      dsimp only at hle hlt
      omega
    exact hn
  · have hext : span.extend n = ⟨span.start, span.len + 1⟩ := by simp [Span.extend, hlen]
    have hend := hreach hlen
    rw [hext]
    refine ⟨fun i hle hlt => ?_, by dsimp only; omega⟩
    dsimp only at hle hlt
    by_cases hi : i = n
    · rw [hi, hn]
    · exact h i hle (by omega)

theorem ZeroSpans.next {segments : List UInt16} {n : ℕ} {spans : Span × Span} {segment : UInt16}
    (h : ZeroSpans segments n spans) (hn : segments[n]? = some segment) :
    ZeroSpans segments (n + 1) (nextSpan spans (segment, n)) := by
  unfold nextSpan
  by_cases hzero : segment = 0
  · subst hzero
    obtain ⟨hzeros, hend⟩ := h.current.extend h.reaches hn
    simp only [if_true]
    refine ⟨?_, hzeros, fun _ => hend⟩
    dsimp only
    split_ifs
    · exact hzeros
    · exact h.longest
  · simp only [hzero, if_false]
    exact ⟨h.longest, fun i _ hlt => absurd hlt (by simp), fun hne => absurd rfl hne⟩

theorem ZeroSpans.foldl {segments : List UInt16} (rest : List UInt16) (n : ℕ) (spans : Span × Span)
    (h : ZeroSpans segments n spans) (hrest : segments.drop n = rest) :
    ZeroSpans segments (n + rest.length) ((rest.zipIdx n).foldl nextSpan spans) := by
  induction rest generalizing n spans with
  | nil => exact h
  | cons segment rest ih =>
    have hn : segments[n]? = some segment := by
      rw [← List.head?_drop, hrest]
      rfl
    have htail : segments.drop (n + 1) = rest := by
      rw [← List.tail_drop, hrest]
      rfl
    have := ih (n + 1) _ (h.next hn) htail
    rwa [Nat.add_right_comm, Nat.add_assoc] at this

theorem zeros_longestZeros (segments : List UInt16) : (longestZeros segments).Zeros segments :=
  (ZeroSpans.foldl segments 0 (⟨0, 0⟩, ⟨0, 0⟩)
    ⟨fun i _ hlt => absurd hlt (by simp), fun i _ hlt => absurd hlt (by simp),
      fun hne => absurd rfl hne⟩ rfl).longest

/-- Only `::1` is written so. -/
theorem segments_of_displayIpv6 {addr : Ipv6Addr} (h : displayIpv6 addr = "::1".toList) :
    addr.segments = [0, 0, 0, 0, 0, 0, 0, 1] := by
  have htext : "::1".toList = [':', ':', '1'] := by decide
  rw [htext] at h
  unfold displayIpv6 at h
  split at h
  · have hlen := congrArg List.length h
    simp at hlen
  · dsimp only at h
    split_ifs at h with hlong
    · have hzeros := zeros_longestZeros addr.segments
      generalize longestZeros addr.segments = zeros at h hlong hzeros
      have hhead := eq_nil_of_displaySegments h
      rw [hhead] at h
      have htail := eq_one_of_displaySegments (List.cons.inj (List.cons.inj h).2).2
      obtain ⟨segments, hlength⟩ := addr
      dsimp only at hzeros hhead htail ⊢
      have hstart : zeros.start = 0 := by
        rcases List.take_eq_nil_iff.1 hhead with hzero | hnil
        · exact hzero
        · rw [hnil] at hlength
          cases hlength
      have hlen : zeros.len = 7 := by
        have := congrArg List.length htail
        rw [List.length_drop, hlength, hstart] at this
        simp only [List.length_singleton] at this
        omega
      rw [hstart, hlen] at htail
      have htake : segments.take 7 = List.replicate 7 0 := by
        refine List.ext_getElem (by simp [hlength]) fun i hi _ => ?_
        have hi7 : i < 7 := Nat.lt_of_lt_of_le hi (List.length_take_le 7 segments)
        have := hzeros i (by omega) (by omega)
        rw [List.getElem_replicate, List.getElem_take]
        exact (List.getElem?_eq_some_iff.1 this).2
      rw [← List.take_append_drop 7 segments, htake, show segments.drop 7 = [1] from htail]
      rfl
    · have hne : addr.segments ≠ [] := by
        intro hnil
        have := addr.length
        rw [hnil] at this
        cases this
      obtain ⟨c, cs, hc, hcolon⟩ := displaySegments_head hne
      rw [hc] at h
      exact absurd (List.cons.inj h).1 hcolon

theorem colon_mem_displaySegments {x y : UInt16} {rest : List UInt16} :
    ':' ∈ displaySegments (x :: y :: rest) := by
  simp [displaySegments]

theorem colon_mem_displayIpv6 (addr : Ipv6Addr) : ':' ∈ displayIpv6 addr := by
  unfold displayIpv6
  split
  · simp
  · dsimp only
    split_ifs
    · simp
    · match hs : addr.segments, addr.length with
      | x :: y :: rest, _ => exact colon_mem_displaySegments

/-- An IPv4 address is determined by its text. -/
theorem eq_of_displayIpv4 {addr addr' : Ipv4Addr} (h : displayIpv4 addr = displayIpv4 addr') :
    addr = addr' := by
  have hdot (n : UInt8) : '.' ∉ decimal n := fun hmem => by
    have := isDigit_of_mem_decimal hmem
    cases this
  unfold displayIpv4 at h
  obtain ⟨ha, h⟩ := Words.append_cons_inj (hdot _) (hdot _) h
  obtain ⟨hb, h⟩ := Words.append_cons_inj (hdot _) (hdot _) h
  obtain ⟨hc, hd⟩ := Words.append_cons_inj (hdot _) (hdot _) h
  obtain ⟨a, b, c, d⟩ := addr
  simp only at ha hb hc hd
  rw [decimal_inj ha, decimal_inj hb, decimal_inj hc, decimal_inj hd]

theorem colon_notMem_displayIpv4 (addr : Ipv4Addr) : ':' ∉ displayIpv4 addr := by
  have hcolon (n : UInt8) : ':' ∉ decimal n := fun hmem => by
    have := isDigit_of_mem_decimal hmem
    cases this
  simp [displayIpv4, hcolon]

/-- An address written like a loopback address is one. -/
theorem isLoopback_of_toString {addr : IpAddr}
    (h : addr.toString = "127.0.0.1" ∨ addr.toString = "::1") : addr.isLoopback := by
  have hdisplay : addr.display = "127.0.0.1".toList ∨ addr.display = "::1".toList := by
    rcases h with h | h
    · exact .inl (by rw [← h, toString, String.toList_ofList])
    · exact .inr (by rw [← h, toString, String.toList_ofList])
  cases addr with
  | v4 addr =>
    rcases hdisplay with h | h
    · have heq : displayIpv4 addr = displayIpv4 ⟨127, 0, 0, 1⟩ := h.trans (by decide)
      rw [eq_of_displayIpv4 heq]
      rfl
    · refine absurd ?_ (colon_notMem_displayIpv4 addr)
      rw [show displayIpv4 addr = _ from h]
      decide
  | v6 addr =>
    rcases hdisplay with h | h
    · have hcolon := colon_mem_displayIpv6 addr
      rw [show displayIpv6 addr = _ from h] at hcolon
      exact absurd hcolon (by decide)
    · simp [isLoopback, segments_of_displayIpv6 h]

end IpAddr
