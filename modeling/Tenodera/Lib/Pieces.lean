import Mathlib.Data.ENat.Lattice
import Mathlib.Data.Seq.Basic

/-!
# Sequences in pieces

A sequence, finite or infinite, that comes in finite pieces, none of them empty.  `join_cons_piece`
splits its first piece off; the beginnings of the sequence and its length then follow from those of
the piece and of the rest.
-/

namespace Pieces

open Stream'

variable {α : Type*} {l : List α}

/-- A list that is not empty, as a piece of a sequence. -/
def piece (l : List α) (h : l ≠ []) : Seq1 α := (l.head h, Seq.ofList l.tail)

theorem join_cons_piece (h : l ≠ []) (s : Seq (Seq1 α)) :
    (Seq.cons (piece l h) s).join = (Seq.ofList l).append s.join := by
  rw [piece, Seq.join_cons, ← Seq.cons_append, ← Seq.ofList_cons, List.cons_head_tail]

theorem take_append (l : List α) (s : Seq α) (n : ℕ) :
    ((Seq.ofList l).append s).take n = l.take n ++ s.take (n - l.length) := by
  induction l generalizing n with
  | nil =>
    rw [Seq.ofList_nil, Seq.nil_append, List.take_nil]
    rfl
  | cons a l ih =>
    rw [Seq.ofList_cons, Seq.cons_append]
    obtain _ | n := n
    · rw [Nat.zero_sub, Seq.take_zero, Seq.take_zero]
      rfl
    · rw [Seq.take_succ_cons, ih, List.take_succ_cons, List.length_cons, Nat.add_sub_add_right]
      rfl

theorem length_append (l : List α) (s : Seq α) :
    ((Seq.ofList l).append s).length' = l.length + s.length' := by
  induction l with
  | nil =>
    rw [Seq.ofList_nil, Seq.nil_append]
    exact (zero_add _).symm
  | cons a l ih =>
    rw [Seq.ofList_cons, Seq.cons_append, Seq.length'_cons, ih, List.length_cons, Nat.cast_succ]
    exact add_right_comm _ _ _

theorem take_ofList (l : List α) (n : ℕ) : (Seq.ofList l).take n = l.take n := by
  rw [← Seq.append_nil (Seq.ofList l), take_append, Seq.take_nil, List.append_nil]

theorem length_ofList (l : List α) : (Seq.ofList l).length' = l.length := by
  rw [← Seq.append_nil (Seq.ofList l), length_append, Seq.length'_nil, add_zero]

theorem length_take (s : Seq α) (n : ℕ) : ((s.take n).length : ℕ∞) = min (n : ℕ∞) s.length' := by
  induction n generalizing s with
  | zero =>
    rw [Seq.take_zero]
    exact (min_eq_left zero_le).symm
  | succ n ih =>
    cases s with
    | nil =>
      rw [Seq.take_nil, Seq.length'_nil]
      exact (min_eq_right zero_le).symm
    | cons a s =>
      rw [Seq.take_succ_cons, Seq.length'_cons, List.length_cons, Nat.cast_succ, ih, Nat.cast_succ]
      exact (min_add_add_right _ _ _).symm

end Pieces
