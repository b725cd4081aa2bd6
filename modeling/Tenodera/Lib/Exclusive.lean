import Mathlib.Data.List.Basic

/-!
# A flag with one holder

Processes share a flag that says whether one of them is busy.  `Held holds flag l` is the invariant
of the list `l` of processes: the flag is up when one of them holds it, and never more than one
does.  The rules say what a step may do: leave the holders as they are, take the flag that is down,
or give it back.
-/

namespace Exclusive

variable {α : Type*} {holds : α → Bool} {flag : Bool} {l l' : List α} {a b : α} {i j : ℕ}

/-- As many processes hold the flag as it says. -/
def Held (holds : α → Bool) (flag : Bool) (l : List α) : Prop := l.countP holds = flag.toNat

theorem held_nil : Held holds false [] := rfl

theorem Held.countP_le (h : Held holds flag l) : l.countP holds ≤ 1 :=
  Nat.le_trans (Nat.le_of_eq h) (Bool.toNat_le flag)

theorem Held.flag_iff (h : Held holds flag l) : flag = true ↔ ∃ a ∈ l, holds a = true := by
  rw [← List.countP_pos_iff, h]
  cases flag <;> decide

theorem Held.unique (h : Held holds flag l) (hi : l[i]? = some a) (hj : l[j]? = some b)
    (ha : holds a = true) (hb : holds b = true) : i = j := by
  have hle := h.countP_le
  clear h
  induction l generalizing i j with
  | nil => simp at hi
  | cons c l ih =>
    -- a holder in the tail leaves no room for one at the head
    have htail (k : ℕ) (d : α) (hk : l[k]? = some d) (hd : holds d = true) :
        0 < l.countP holds := List.countP_pos_iff.2 ⟨d, List.mem_of_getElem? hk, hd⟩
    rw [List.countP_cons] at hle
    cases i with
    | zero =>
      cases j with
      | zero => rfl
      | succ j =>
        obtain rfl : c = a := by simpa using hi
        have := htail j b (by simpa using hj) hb
        rw [if_pos ha] at hle
        omega
    | succ i =>
      cases j with
      | zero =>
        obtain rfl : c = b := by simpa using hj
        have := htail i a (by simpa using hi) ha
        rw [if_pos hb] at hle
        omega
      | succ j =>
        have heq : i = j := ih (by simpa using hi) (by simpa using hj) (by omega)
        rw [heq]

/-- Who holds the flag is all that matters. -/
theorem Held.of_map_eq (h : Held holds flag l) (heq : l'.map holds = l.map holds) :
    Held holds flag l' := by
  have hcount (l : List α) : l.countP holds = (l.map holds).countP id := by
    rw [List.countP_map]
    rfl
  rw [Held, hcount, heq, ← hcount]
  exact h

/-- Processes join that do not hold the flag. -/
theorem Held.append (h : Held holds flag l) (hl : ∀ a ∈ l', holds a = false) :
    Held holds flag (l ++ l') := by
  have hzero : l'.countP holds = 0 :=
    List.countP_eq_zero.2 fun a ha => Bool.eq_false_iff.1 (hl a ha)
  rw [Held, List.countP_append, hzero]
  exact h

theorem Held.set_of_eq (h : Held holds flag l) (hi : l[i]? = some a) (hb : holds b = holds a) :
    Held holds flag (l.set i b) := by
  refine h.of_map_eq ?_
  rw [List.map_set, hb]
  refine List.ext_getElem? fun k => ?_
  rw [List.getElem?_set]
  split_ifs with hk hlt
  · rw [← hk, List.getElem?_map, hi, Option.map_some]
  · rw [List.getElem?_eq_none (by omega)]
  · rfl

/-- The flag is taken by a process that finds it down. -/
theorem Held.take (h : Held holds false l) (hi : l[i]? = some a) (hb : holds b = true) :
    Held holds true (l.set i b) := by
  obtain ⟨hlt, rfl⟩ := List.getElem?_eq_some_iff.1 hi
  have hzero : l.countP holds = 0 := h
  have hnot : ¬ holds l[i] = true := List.countP_eq_zero.1 hzero _ (List.getElem_mem hlt)
  rw [Held, List.countP_set hlt, hzero, if_neg hnot, if_pos hb]
  rfl

/-- The flag is given back by the process that holds it. -/
theorem Held.release (h : Held holds flag l) (hi : l[i]? = some a) (ha : holds a = true)
    (hb : holds b = false) : Held holds false (l.set i b) := by
  obtain ⟨hlt, rfl⟩ := List.getElem?_eq_some_iff.1 hi
  rw [Held, List.countP_set hlt, if_pos ha, if_neg (Bool.eq_false_iff.1 hb)]
  exact Nat.sub_eq_zero_of_le h.countP_le

end Exclusive
