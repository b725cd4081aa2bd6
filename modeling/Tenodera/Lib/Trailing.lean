import Tenodera.Lib.Words

/-!
# Lists up to what they end in

Two lists that differ only in the elements satisfying `p` at their ends, and the pieces of a list
between separators, where trailing separators are trailing empty pieces.
-/

namespace Trailing

variable {α β : Type*} {p : α → Bool}

/-- The lists differ at most in trailing elements satisfying `p`. -/
def Same (p : α → Bool) (a b : List α) : Prop := a.rdropWhile p = b.rdropWhile p

theorem Same.symm {a b : List α} (h : Same p a b) : Same p b a := Eq.symm h

theorem Same.trans {a b c : List α} (hab : Same p a b) (hbc : Same p b c) : Same p a c :=
  Eq.trans hab hbc

theorem rdropWhile_append (a b : List α) : (a ++ b).rdropWhile p =
    if b.rdropWhile p = [] then a.rdropWhile p else a ++ b.rdropWhile p := by
  by_cases h : ∀ c ∈ b, p c
  · rw [if_pos (List.rdropWhile_eq_nil_iff.2 h)]
    induction b using List.reverseRecOn with
    | nil => rw [List.append_nil]
    | append_singleton b c ih =>
      rw [← List.append_assoc, List.rdropWhile_concat_pos _ _ _ (h c (by simp)),
        ih fun d hd => h d (List.mem_append_left _ hd)]
  · rw [if_neg fun hnil => h (List.rdropWhile_eq_nil_iff.1 hnil)]
    push Not at h
    obtain ⟨c, hc, hp⟩ := h
    exact Words.rdropWhile_append ⟨c, hc, hp⟩ a

theorem rdropWhile_map {q : β → Bool} (f : α → β) (l : List α) :
    (l.map f).rdropWhile q = (l.rdropWhile fun a => q (f a)).map f := by
  rw [List.rdropWhile, ← List.map_reverse, List.dropWhile_map, ← List.map_reverse]
  rfl

/-- Only the end of the list behind matters. -/
theorem Same.append_left {a b : List α} (h : Same p a b) (l : List α) :
    Same p (l ++ a) (l ++ b) := by
  have hab : a.rdropWhile p = b.rdropWhile p := h
  rw [Same, rdropWhile_append, rdropWhile_append, hab]

/-- Up to an element that counts the lists are the same as they stand. -/
theorem Same.cut {a b : List α} {i : ℕ} {c : α} (h : Same p a b) (hi : a[i]? = some c)
    (hc : ¬ p c) : b.take i = a.take i ∧ Same p (b.drop (i + 1)) (a.drop (i + 1)) := by
  obtain ⟨hlt, rfl⟩ := List.getElem?_eq_some_iff.1 hi
  have hlength : (a.take i).length = i := List.length_take_of_le hlt.le
  have ha : a.rdropWhile p = a.take i ++ a[i] :: (a.drop (i + 1)).rdropWhile p := by
    conv_lhs => rw [← List.take_append_drop i a, List.drop_eq_getElem_cons hlt]
    exact Words.rdropWhile_append_cons hc _ _
  obtain ⟨tail, htail⟩ := List.rdropWhile_prefix p b
  have hb : b = a.take i ++ a[i] :: ((a.drop (i + 1)).rdropWhile p ++ tail) := by
    rw [← htail, ← show a.rdropWhile p = b.rdropWhile p from h, ha, List.append_assoc,
      List.cons_append]
  have hdrop : b.drop (i + 1) = (a.drop (i + 1)).rdropWhile p ++ tail := by
    rw [hb, ← List.drop_drop, List.drop_left' hlength]
    rfl
  have hcut : a.rdropWhile p = a.take i ++ a[i] :: (b.drop (i + 1)).rdropWhile p := by
    rw [show a.rdropWhile p = b.rdropWhile p from h, hdrop, ← Words.rdropWhile_append_cons hc, ← hb]
  rw [ha] at hcut
  exact ⟨by rw [hb, List.take_left' hlength],
    (List.cons.inj (List.append_cancel_left hcut)).2.symm⟩

/-- Lists that are the same stay so when an element that counts is replaced in both. -/
theorem Same.splice {a b : List α} {i : ℕ} {c : α} (h : Same p a b) (hi : a[i]? = some c)
    (hc : ¬ p c) (l : List α) :
    Same p (a.take i ++ l ++ a.drop (i + 1)) (b.take i ++ l ++ b.drop (i + 1)) := by
  obtain ⟨htake, hdrop⟩ := h.cut hi hc
  rw [htake]
  exact hdrop.symm.append_left (a.take i ++ l)

/-! ## Pieces -/

theorem intercalate_concat (sep : List α) (ls : List (List α)) (l : List α) (h : ls ≠ []) :
    sep.intercalate (ls ++ [l]) = sep.intercalate ls ++ (sep ++ l) := by
  induction ls with
  | nil => exact absurd rfl h
  | cons l' ls ih =>
    by_cases hnil : ls = []
    · rw [hnil, List.intercalate_singleton]
      simp
    · rw [List.cons_append, List.intercalate_cons_of_ne_nil (by simp), ih hnil,
        List.intercalate_cons_of_ne_nil hnil, List.append_assoc (l' ++ sep)]

variable [DecidableEq α] {a : α} {ls : List (List α)}

theorem splitOn_intercalate (a : α) (h : ls ≠ []) :
    ([a].intercalate ls).splitOn a = ls.flatMap fun l => l.splitOn a := by
  induction ls with
  | nil => exact absurd rfl h
  | cons l ls ih =>
    by_cases hnil : ls = []
    · rw [hnil, List.intercalate_singleton, List.flatMap_cons, List.flatMap_nil, List.append_nil]
    · rw [List.intercalate_cons_of_ne_nil hnil, List.append_assoc, List.singleton_append,
        List.splitOn_append_cons_self, ih hnil, List.flatMap_cons]

/-- Separators at the end are empty pieces at the end. -/
theorem same_splitOn (a : α) (l : List α) :
    Same (· = []) ((l.rdropWhile (· = a)).splitOn a) (l.splitOn a) := by
  induction l using List.reverseRecOn with
  | nil => rfl
  | append_singleton l b ih =>
    by_cases hb : b = a
    · subst hb
      rw [List.rdropWhile_concat_pos _ _ _ (by simp), List.splitOn_append_cons_self,
        List.splitOn_nil, Same, List.rdropWhile_concat_pos _ _ _ (by simp)]
      exact ih
    · rw [List.rdropWhile_concat_neg _ _ _ (by simpa using hb)]
      rfl

/-- Empty pieces at the end are separators at the end. -/
theorem same_intercalate {ls' : List (List α)} (h : Same (· = []) ls ls') (a : α) :
    Same (· = a) ([a].intercalate ls) ([a].intercalate ls') := by
  have hdrop (ls : List (List α)) :
      Same (· = a) ([a].intercalate (ls.rdropWhile (· = []))) ([a].intercalate ls) := by
    induction ls using List.reverseRecOn with
    | nil => rfl
    | append_singleton ls l ih =>
      by_cases hl : l = []
      · rw [List.rdropWhile_concat_pos _ _ _ (by simpa using hl), hl]
        refine ih.trans ?_
        by_cases hnil : ls = []
        · rw [hnil]
          rfl
        · rw [intercalate_concat [a] ls [] hnil, List.append_nil]
          exact (List.rdropWhile_concat_pos _ _ _ (by simp)).symm
      · rw [List.rdropWhile_concat_neg _ _ _ (by simpa using hl)]
        rfl
  refine (hdrop ls).symm.trans (Same.trans ?_ (hdrop ls'))
  rw [show ls.rdropWhile (· = []) = ls'.rdropWhile (· = []) from h]
  rfl

end Trailing
