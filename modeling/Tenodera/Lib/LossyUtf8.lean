import Mathlib.Tactic.Common
import Tenodera.Lib.Utf8

/-!
# Lossy decoding of UTF-8

`String::from_utf8_lossy` of the Rust standard library: what is not UTF-8 becomes a replacement
character for every maximal beginning of a sequence.  Decoding is not a homomorphism of
concatenation; `flatMap_decode_eq_iff` says for which cuts the parts decode to the whole.
-/

namespace LossyUtf8

def replacement : Char := '\uFFFD'

/-- A sequence that has begun: the next byte it takes, how many more it takes after that, and the
bits so far. -/
structure Begun where
  low : ℕ
  high : ℕ
  left : ℕ
  bits : ℕ
  lowIs : 0x80 ≤ low
  highIs : high ≤ 0xBF

/-- A continuation byte, without a further restriction. -/
def Begun.any (left bits : ℕ) : Begun := ⟨0x80, 0xBF, left, bits, by omega, by omega⟩

def Begun.takes (s : Begun) (b : UInt8) : Prop := s.low ≤ b.toNat ∧ b.toNat ≤ s.high

instance (s : Begun) (b : UInt8) : Decidable (s.takes b) :=
  inferInstanceAs (Decidable (_ ∧ _))

/-- The sequence that a leading byte begins.  After some bytes not every continuation is UTF-8: it
could be overlong, a surrogate, or too large. -/
def begin (b : ℕ) : Option Begun :=
  if 0xC2 ≤ b ∧ b ≤ 0xDF then some (.any 0 (b - 0xC0))
  else if b = 0xE0 then some ⟨0xA0, 0xBF, 1, 0, by omega, by omega⟩
  else if b = 0xED then some ⟨0x80, 0x9F, 1, 13, by omega, by omega⟩
  else if 0xE1 ≤ b ∧ b ≤ 0xEF then some (.any 1 (b - 0xE0))
  else if b = 0xF0 then some ⟨0x90, 0xBF, 2, 0, by omega, by omega⟩
  else if 0xF1 ≤ b ∧ b ≤ 0xF3 then some (.any 2 (b - 0xF0))
  else if b = 0xF4 then some ⟨0x80, 0x8F, 2, 4, by omega, by omega⟩
  else none

/-- The first byte after a sequence: what it gives, and the sequence it begins. -/
def start (b : UInt8) : List Char × Option Begun :=
  if b.toNat < 0x80 then ([Char.ofNat b.toNat], none)
  else
    match begin b.toNat with
    | some s => ([], some s)
    | none => ([replacement], none)

/-- A byte that a sequence takes. -/
def Begun.next (s : Begun) (b : UInt8) : List Char × Option Begun :=
  let bits := s.bits * 64 + (b.toNat - 0x80)
  match s.left with
  | 0 => ([Char.ofNat bits], none)
  | left + 1 => ([], some (.any left bits))

/-- A byte, after a sequence or within one. -/
def step : Option Begun → UInt8 → List Char × Option Begun
  | none, b => start b
  | some s, b => if s.takes b then s.next b else (replacement :: (start b).1, (start b).2)

/-- The text of the bytes after the beginning of a sequence, or after a whole one. -/
def decodeFrom : Option Begun → List UInt8 → List Char
  | none, [] => []
  | some _, [] => [replacement]
  | q, b :: bs => (step q b).1 ++ decodeFrom (step q b).2 bs

/-- What is certain of the text while more bytes may follow. -/
def certain : Option Begun → List UInt8 → List Char
  | _, [] => []
  | q, b :: bs => (step q b).1 ++ certain (step q b).2 bs

/-- The sequence that is unfinished after the bytes. -/
def unfinished : Option Begun → List UInt8 → Option Begun
  | q, [] => q
  | q, b :: bs => unfinished (step q b).2 bs

/-- `String::from_utf8_lossy`. -/
def decode (bs : List UInt8) : List Char := decodeFrom none bs

example : [[0x61, 0xFF, 0x62], [0xE2, 0x82, 0x61], [0xED, 0xA0, 0x80], [0xF0, 0x9F, 0x98, 0x80]].map
    decode = [['a', '\uFFFD', 'b'], ['\uFFFD', 'a'], ['\uFFFD', '\uFFFD', '\uFFFD'], ['😀']] := by
  decide

/-- The last sequence of the bytes is unfinished, and what comes next goes on with it. -/
def Splits (bs next : List UInt8) : Prop :=
  ∃ s ∈ unfinished none bs, ∃ b ∈ next.head?, s.takes b

instance (bs next : List UInt8) : Decidable (Splits bs next) :=
  inferInstanceAs (Decidable (∃ s ∈ unfinished none bs, ∃ b ∈ next.head?, s.takes b))

/-- No part ends within a sequence that the next part goes on with. -/
def Unsplit : List (List UInt8) → Prop
  | [] => True
  | bs :: parts => ¬ Splits bs parts.flatten ∧ Unsplit parts

instance : (parts : List (List UInt8)) → Decidable (Unsplit parts)
  | [] => .isTrue trivial
  | _ :: parts =>
    have := instDecidableUnsplit parts
    inferInstanceAs (Decidable (_ ∧ _))

variable {s : Begun} {q : Option Begun} {b : UInt8} {bs next : List UInt8}
  {parts : List (List UInt8)}

/-! ## Concatenation -/

theorem decodeFrom_eq (q : Option Begun) (bs : List UInt8) :
    decodeFrom q bs = certain q bs ++ decodeFrom (unfinished q bs) [] := by
  induction bs generalizing q with
  | nil => rfl
  | cons b bs ih =>
    rw [unfinished, certain, List.append_assoc, ← ih]
    cases q <;> rfl

theorem decodeFrom_append (q : Option Begun) (bs next : List UInt8) :
    decodeFrom q (bs ++ next) = certain q bs ++ decodeFrom (unfinished q bs) next := by
  induction bs generalizing q with
  | nil => rfl
  | cons b bs ih =>
    rw [unfinished, certain, List.append_assoc, ← ih]
    cases q <;> rfl

theorem start_of_takes (h : s.takes b) : start b = ([replacement], none) := by
  have hlow := Nat.le_trans s.lowIs h.1
  have hhigh := Nat.le_trans h.2 s.highIs
  have hbegin : begin b.toNat = none := by
    unfold begin
    iterate 7 rw [if_neg (by omega)]
  unfold start
  rw [if_neg (by omega), hbegin]

theorem step_of_takes (h : s.takes b) : step (some s) b = s.next b := if_pos h

theorem decodeFrom_of_not_takes (h : ¬ s.takes b) (bs : List UInt8) :
    decodeFrom (some s) (b :: bs) = replacement :: decode (b :: bs) := by
  have hstep : step (some s) b = (replacement :: (start b).1, (start b).2) := if_neg h
  rw [decodeFrom, hstep]
  rfl

theorem decode_of_takes (h : s.takes b) (bs : List UInt8) :
    decode (b :: bs) = replacement :: decode bs := by
  have hstep : step none b = ([replacement], none) := start_of_takes h
  rw [decode, decodeFrom, hstep]
  rfl

/-! ## Lengths -/

/-- The beginning of a sequence adds at most its own replacement. -/
theorem length_decodeFrom_le (q : Option Begun) (bs : List UInt8) :
    (decodeFrom q bs).length ≤ (decode bs).length + 1 := by
  induction bs generalizing q with
  | nil => cases q <;> simp [decodeFrom]
  | cons b bs ih =>
    cases q with
    | none => exact Nat.le_succ _
    | some s =>
      by_cases h : s.takes b
      · rw [decode_of_takes h, decodeFrom, step_of_takes h, Begun.next, List.length_cons]
        split
        · change (Char.ofNat _ :: decode bs).length ≤ _
          rw [List.length_cons]
          omega
        · exact Nat.le_trans (ih _) (Nat.le_succ _)
      · exact Nat.le_of_eq (by rw [decodeFrom_of_not_takes h, List.length_cons])

/-- A sequence that is not cut decodes to one character, a cut one to at least two. -/
theorem length_decodeFrom_of_takes (h : s.takes b) (bs : List UInt8) :
    (decodeFrom (some s) (b :: bs)).length ≤ (decode (b :: bs)).length := by
  rw [decode_of_takes h, decodeFrom, step_of_takes h, Begun.next, List.length_cons]
  split
  · exact Nat.le_refl _
  · exact length_decodeFrom_le _ bs

theorem decode_append (h : ¬ Splits bs next) : decode (bs ++ next) = decode bs ++ decode next := by
  unfold decode
  rw [decodeFrom_append, decodeFrom_eq none bs, List.append_assoc]
  refine congrArg (certain none bs ++ ·) ?_
  cases hq : unfinished none bs with
  | none => rfl
  | some s =>
    cases next with
    | nil => rfl
    | cons b next =>
      have hnot : ¬ s.takes b := fun htakes => h ⟨s, hq, b, rfl, htakes⟩
      exact decodeFrom_of_not_takes hnot next

theorem length_decode_append_lt (h : Splits bs next) :
    (decode (bs ++ next)).length < (decode bs).length + (decode next).length := by
  obtain ⟨s, hs, b, hb, htakes⟩ := h
  obtain ⟨rest, rfl⟩ := List.head?_eq_some_iff.1 hb
  have hshort := length_decodeFrom_of_takes htakes rest
  unfold decode at hshort ⊢
  rw [decodeFrom_append, decodeFrom_eq none bs, hs, List.length_append, List.length_append]
  change _ < (certain none bs).length + 1 + _
  omega

theorem length_decode_append_le (bs next : List UInt8) :
    (decode (bs ++ next)).length ≤ (decode bs).length + (decode next).length := by
  by_cases h : Splits bs next
  · exact Nat.le_of_lt (length_decode_append_lt h)
  · exact Nat.le_of_eq (by rw [decode_append h, List.length_append])

theorem length_decode_flatten_le (parts : List (List UInt8)) :
    (decode parts.flatten).length ≤ (parts.flatMap decode).length := by
  induction parts with
  | nil => exact Nat.le_refl _
  | cons bs parts ih =>
    rw [List.flatten_cons, List.flatMap_cons, List.length_append]
    have happend := length_decode_append_le bs parts.flatten
    omega

/-- The parts decode to the text of the whole iff no sequence is cut. -/
theorem flatMap_decode_eq_iff (parts : List (List UInt8)) :
    parts.flatMap decode = decode parts.flatten ↔ Unsplit parts := by
  induction parts with
  | nil => exact iff_of_true rfl trivial
  | cons bs parts ih =>
    rw [List.flatten_cons, List.flatMap_cons, Unsplit, ← ih]
    by_cases hsplit : Splits bs parts.flatten
    · refine iff_of_false (fun heq => ?_) fun h => h.1 hsplit
      have hlt := length_decode_append_lt hsplit
      have hle := length_decode_flatten_le parts
      rw [← heq, List.length_append] at hlt
      omega
    · rw [decode_append hsplit]
      constructor
      · intro heq
        exact ⟨hsplit, List.append_cancel_left heq⟩
      · rintro ⟨-, heq⟩
        rw [heq]

/-! ## Valid text -/

theorem decode_of_begin (h : begin b.toNat = some s) (bs : List UInt8) :
    decode (b :: bs) = decodeFrom (some s) bs := by
  have hb : ¬ b.toNat < 0x80 := fun hlt => by
    unfold begin at h
    iterate 7 rw [if_neg (by omega)] at h
    cases h
  have hstep : step none b = ([], some s) := by
    change start b = _
    rw [start, if_neg hb, h]
  rw [decode, decodeFrom, hstep]
  rfl

theorem decodeFrom_more {left : ℕ} (h : s.takes b) (hleft : s.left = left + 1) (bs : List UInt8) :
    decodeFrom (some s) (b :: bs) =
      decodeFrom (some (.any left (s.bits * 64 + (b.toNat - 0x80)))) bs := by
  rw [decodeFrom, step_of_takes h, Begun.next, hleft]
  rfl

theorem decodeFrom_last (h : s.takes b) (hleft : s.left = 0) (bs : List UInt8) :
    decodeFrom (some s) (b :: bs) =
      Char.ofNat (s.bits * 64 + (b.toNat - 0x80)) :: decode bs := by
  rw [decodeFrom, step_of_takes h, Begun.next, hleft]
  rfl

theorem begin_two {k : ℕ} (hlow : 2 ≤ k) (hhigh : k < 0x20) :
    begin (k + 0xC0) = some (.any 0 k) := by
  unfold begin
  rw [if_pos (by omega), Nat.add_sub_cancel]

/-- The second byte of a character of three is one that the first byte lets follow. -/
theorem begin_three {n : ℕ} (hlow : 0x7FF < n) (hhigh : n ≤ 0xFFFF)
    (hvalid : n < 0xD800 ∨ 0xDFFF < n) :
    ∃ s, begin (n / 4096 + 0xE0) = some s ∧ s.left = 1 ∧ s.bits = n / 4096 ∧
      s.low ≤ n / 64 % 64 + 0x80 ∧ n / 64 % 64 + 0x80 ≤ s.high := by
  unfold begin
  rw [if_neg (by omega)]
  by_cases hfirst : n / 4096 = 0
  · rw [if_pos (by omega)]
    refine ⟨_, rfl, rfl, hfirst.symm, ?_, ?_⟩
    · change 0xA0 ≤ _
      omega
    · change _ ≤ 0xBF
      omega
  rw [if_neg (by omega)]
  by_cases hsurrogates : n / 4096 = 13
  · rw [if_pos (by omega)]
    refine ⟨_, rfl, rfl, hsurrogates.symm, ?_, ?_⟩
    · change 0x80 ≤ _
      omega
    · change _ ≤ 0x9F
      omega
  rw [if_neg (by omega), if_pos (by omega), Nat.add_sub_cancel]
  refine ⟨_, rfl, rfl, rfl, ?_, ?_⟩
  · change 0x80 ≤ _
    omega
  · change _ ≤ 0xBF
    omega

theorem begin_four {n : ℕ} (hlow : 0xFFFF < n) (hhigh : n < 0x110000) :
    ∃ s, begin (n / 262144 + 0xF0) = some s ∧ s.left = 2 ∧ s.bits = n / 262144 ∧
      s.low ≤ n / 4096 % 64 + 0x80 ∧ n / 4096 % 64 + 0x80 ≤ s.high := by
  unfold begin
  iterate 4 rw [if_neg (by omega)]
  by_cases hfirst : n / 262144 = 0
  · rw [if_pos (by omega)]
    refine ⟨_, rfl, rfl, hfirst.symm, ?_, ?_⟩
    · change 0x90 ≤ _
      omega
    · change _ ≤ 0xBF
      omega
  rw [if_neg (by omega)]
  by_cases hmiddle : n / 262144 ≤ 3
  · rw [if_pos (by omega), Nat.add_sub_cancel]
    refine ⟨_, rfl, rfl, rfl, ?_, ?_⟩
    · change 0x80 ≤ _
      omega
    · change _ ≤ 0xBF
      omega
  rw [if_neg (by omega), if_pos (by omega)]
  refine ⟨_, rfl, rfl, ?_, ?_, ?_⟩
  · change 4 = _
    omega
  · change 0x80 ≤ _
    omega
  · change _ ≤ 0x8F
    omega

theorem toNat_ofNat {k : ℕ} (hk : k < 0x100) : (UInt8.ofNat k).toNat = k :=
  (UInt8.toNat_ofNat' ..).trans (Nat.mod_eq_of_lt hk)

theorem any_takes {left bits k : ℕ} (hk : k < 0x40) :
    (Begun.any left bits).takes (UInt8.ofNat (k + 0x80)) := by
  have hb : (UInt8.ofNat (k + 0x80)).toNat = k + 0x80 := toNat_ofNat (by omega)
  unfold Begun.takes
  rw [hb]
  change 0x80 ≤ _ ∧ _ ≤ 0xBF
  omega

/-- A character that is encoded as a whole is decoded as a whole. -/
theorem decode_encodeChar (c : Char) (bs : List UInt8) :
    decode (String.utf8EncodeChar c ++ bs) = c :: decode bs := by
  have hc : Char.ofNat c.val.toNat = c := Char.ofNat_toNat c
  have hvalid : c.val.toNat < 0xD800 ∨ 0xDFFF < c.val.toNat ∧ c.val.toNat < 0x110000 := c.valid
  have hdigit (k : ℕ) : k % 0x40 < 0x40 := Nat.mod_lt k (by decide)
  have hbits (k : ℕ) : (UInt8.ofNat (k % 0x40 + 0x80)).toNat - 0x80 = k % 0x40 := by
    have hk := hdigit k
    rw [toNat_ofNat (by omega), Nat.add_sub_cancel]
  unfold String.utf8EncodeChar
  generalize c.val.toNat = n at hc hvalid
  dsimp only
  split_ifs with hone htwo hthree
  · have hn : (UInt8.ofNat n).toNat = n := toNat_ofNat (by omega)
    have hstep : step none (UInt8.ofNat n) = ([c], none) := by
      change start (UInt8.ofNat n) = _
      rw [start, hn, if_pos (by omega), hc]
    change decode (UInt8.ofNat n :: bs) = _
    rw [decode, decodeFrom, hstep]
    rfl
  · have hfirst : (UInt8.ofNat (n / 64 % 0x20 + 0xC0)).toNat = n / 64 + 0xC0 := by
      rw [toNat_ofNat (by omega)]
      omega
    have hbegin : begin (UInt8.ofNat (n / 64 % 0x20 + 0xC0)).toNat = some (.any 0 (n / 64)) := by
      rw [hfirst, begin_two (by omega) (by omega)]
    rw [List.cons_append, List.cons_append, List.nil_append, decode_of_begin hbegin,
      decodeFrom_last (any_takes (hdigit n)) rfl, hbits]
    have hsum : n / 64 * 64 + n % 64 = n := Nat.div_add_mod' n 64
    change Char.ofNat (n / 64 * 64 + n % 64) :: _ = _
    rw [hsum, hc]
  · obtain ⟨s, hbegin, hleft, hs, hlow, hhigh⟩ :=
      begin_three (n := n) (by omega) hthree (by omega)
    have hfirst : (UInt8.ofNat (n / 4096 % 0x10 + 0xE0)).toNat = n / 4096 + 0xE0 := by
      rw [toNat_ofNat (by omega)]
      omega
    have hsecond : (UInt8.ofNat (n / 64 % 0x40 + 0x80)).toNat = n / 64 % 64 + 0x80 :=
      toNat_ofNat (by omega)
    have htakes : s.takes (UInt8.ofNat (n / 64 % 0x40 + 0x80)) := by
      unfold Begun.takes
      rw [hsecond]
      exact ⟨hlow, hhigh⟩
    rw [← hfirst] at hbegin
    rw [List.cons_append, List.cons_append, List.cons_append, List.nil_append,
      decode_of_begin hbegin, decodeFrom_more htakes hleft,
      decodeFrom_last (any_takes (hdigit n)) rfl, hbits, hbits, hs]
    have hsum : (n / 4096 * 64 + n / 64 % 64) * 64 + n % 64 = n := by omega
    change Char.ofNat ((n / 4096 * 64 + n / 64 % 64) * 64 + n % 64) :: _ = _
    rw [hsum, hc]
  · obtain ⟨s, hbegin, hleft, hs, hlow, hhigh⟩ := begin_four (n := n) (by omega) (by omega)
    have hfirst : (UInt8.ofNat (n / 262144 % 0x08 + 0xF0)).toNat = n / 262144 + 0xF0 := by
      rw [toNat_ofNat (by omega)]
      omega
    have hsecond : (UInt8.ofNat (n / 4096 % 0x40 + 0x80)).toNat = n / 4096 % 64 + 0x80 :=
      toNat_ofNat (by omega)
    have htakes : s.takes (UInt8.ofNat (n / 4096 % 0x40 + 0x80)) := by
      unfold Begun.takes
      rw [hsecond]
      exact ⟨hlow, hhigh⟩
    rw [← hfirst] at hbegin
    rw [List.cons_append, List.cons_append, List.cons_append, List.cons_append, List.nil_append,
      decode_of_begin hbegin, decodeFrom_more htakes hleft,
      decodeFrom_more (any_takes (hdigit (n / 64))) rfl,
      decodeFrom_last (any_takes (hdigit n)) rfl, hbits, hbits, hbits, hs]
    have hsum : ((n / 262144 * 64 + n / 4096 % 64) * 64 + n / 64 % 64) * 64 + n % 64 = n := by
      omega
    change Char.ofNat (((n / 262144 * 64 + n / 4096 % 64) * 64 + n / 64 % 64) * 64 + n % 64) ::
      _ = _
    rw [hsum, hc]

/-- The bytes of a text decode to the text. -/
theorem decode_bytes (cs : List Char) : decode (Utf8.bytes cs) = cs := by
  induction cs with
  | nil => rfl
  | cons c cs ih =>
    have hcons : Utf8.bytes (c :: cs) = String.utf8EncodeChar c ++ Utf8.bytes cs :=
      List.flatMap_cons
    rw [hcons, decode_encodeChar, ih]

end LossyUtf8
