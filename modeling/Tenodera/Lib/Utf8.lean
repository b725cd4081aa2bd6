import Mathlib.Algebra.GroupWithZero.Nat
import Mathlib.Data.List.TakeDrop
import Mathlib.Data.Nat.Notation

/-!
# Byte positions in a text

`str::as_bytes` and the slices `&s[..n]` and `&s[n..]` of the Rust standard library, which panic
when the position is inside a character or behind the end.  On ASCII text bytes are characters, and
no slice within the length panics.
-/

namespace Utf8

/-- `str::as_bytes`. -/
def bytes (cs : List Char) : List UInt8 := cs.flatMap String.utf8EncodeChar

/-- The characters before and from a byte position; none when it is not between two characters. -/
def splitAt : ℕ → List Char → Option (List Char × List Char)
  | 0, cs => some ([], cs)
  | _ + 1, [] => none
  | n + 1, c :: cs =>
    if c.utf8Size ≤ n + 1 then (splitAt (n + 1 - c.utf8Size) cs).map fun p => (c :: p.1, p.2)
    else none

/-- `&s[..n]`; none is a panic. -/
def sliceTo (s : String) (n : ℕ) : Option String :=
  (splitAt n s.toList).map fun p => String.ofList p.1

/-- `&s[n..]`; none is a panic. -/
def sliceFrom (s : String) (n : ℕ) : Option String :=
  (splitAt n s.toList).map fun p => String.ofList p.2

example : [0, 1, 2, 3, 4].map (sliceFrom "aé") = [some "aé", some "é", none, some "", none] := by
  decide

theorem utf8Encode_eq (s : String) : s.toByteArray = (bytes s.toList).toByteArray := by
  rw [← String.utf8Encode_toList]
  rfl

/-- A text is determined by its bytes. -/
theorem bytes_inj {s t : String} : bytes s.toList = bytes t.toList ↔ s = t := by
  refine ⟨fun h => String.toByteArray_inj.1 ?_, fun h => by rw [h]⟩
  rw [utf8Encode_eq, utf8Encode_eq, h]

/-! ## ASCII -/

def Ascii (cs : List Char) : Prop := ∀ c ∈ cs, c.utf8Size = 1

variable {cs : List Char} {s : String} {n : ℕ}

theorem bytes_eq_map (h : Ascii cs) : bytes cs = cs.map fun c => c.val.toUInt8 := by
  induction cs with
  | nil => rfl
  | cons c cs ih =>
    have hc : String.utf8EncodeChar c = [c.val.toUInt8] :=
      String.utf8EncodeChar_eq_singleton (h c List.mem_cons_self)
    have hcs : bytes cs = cs.map fun c => c.val.toUInt8 :=
      ih fun c' hc' => h c' (List.mem_cons_of_mem _ hc')
    rw [List.map_cons, ← hcs, bytes, List.flatMap_cons, hc]
    rfl

theorem utf8ByteSize_eq_length (h : Ascii s.toList) : s.utf8ByteSize = s.length := by
  have hbytes : s.utf8ByteSize = (bytes s.toList).length := by
    rw [← String.size_toByteArray, ← String.utf8Encode_toList, List.utf8Encode,
      List.size_toByteArray]
    rfl
  rw [hbytes, bytes_eq_map h, List.length_map, String.length_toList]

theorem splitAt_eq (h : Ascii cs) (hn : n ≤ cs.length) :
    splitAt n cs = some (cs.take n, cs.drop n) := by
  induction cs generalizing n with
  | nil =>
    obtain rfl : n = 0 := Nat.le_zero.1 hn
    rfl
  | cons c cs ih =>
    cases n with
    | zero => rfl
    | succ n =>
      have hc : c.utf8Size = 1 := h c List.mem_cons_self
      have hcs : splitAt n cs = some (cs.take n, cs.drop n) :=
        ih (fun c' hc' => h c' (List.mem_cons_of_mem _ hc')) (Nat.le_of_succ_le_succ hn)
      rw [splitAt, hc, if_pos (Nat.le_add_left 1 n), Nat.add_sub_cancel, hcs]
      rfl

end Utf8
