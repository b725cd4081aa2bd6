import Mathlib.Data.List.DropRight
import Mathlib.Data.List.Basic

/-!
# Words

The pieces of a list between separators that are not empty, as `str::split_whitespace` gives them.
-/

namespace Words

variable {α : Type*} {p : α → Bool}

/-- A list is a piece without separators, or goes on after one. -/
theorem words_induction {P : List α → Prop} (last : ∀ l, (∀ a ∈ l, p a = false) → P l)
    (sep : ∀ l a rest, (∀ a ∈ l, p a = false) → p a = true → P rest → P (l ++ a :: rest))
    (l : List α) : P l := by
  induction hn : l.length using Nat.strong_induction_on generalizing l with
  | _ n ih =>
    cases hrest : l.dropWhile (fun a => !p a) with
    | nil =>
      refine last l fun a ha => ?_
      have hall := List.dropWhile_eq_nil_iff.1 hrest a ha
      simpa using hall
    | cons a rest =>
      have hsplit := l.takeWhile_append_dropWhile (p := fun a => !p a)
      have ha : p a = true := by
        have hhead := List.head_dropWhile_not (fun a => !p a) (l := l) (by rw [hrest]; simp)
        simpa [hrest] using hhead
      rw [hrest] at hsplit
      have hlength := congrArg List.length hsplit
      rw [List.length_append, List.length_cons] at hlength
      rw [← hsplit]
      refine sep _ a rest (fun b hb => ?_) ha (ih rest.length (by omega) rest rfl)
      simpa using List.mem_takeWhile_imp hb

/-- The parts before and after the first separator are determined. -/
theorem append_cons_inj {a : α} {x y x' y' : List α} (hx : a ∉ x) (hx' : a ∉ x')
    (h : x ++ a :: y = x' ++ a :: y') : x = x' ∧ y = y' := by
  rcases List.append_eq_append_iff.1 h with ⟨zs, rfl, hy⟩ | ⟨zs, rfl, hy⟩
  · cases zs with
    | nil => exact ⟨(List.append_nil x).symm, (List.cons.inj hy).2⟩
    | cons z zs =>
      rw [← (List.cons.inj hy).1] at hx'
      exact absurd (by simp) hx'
  · cases zs with
    | nil => exact ⟨List.append_nil x', (List.cons.inj hy).2.symm⟩
    | cons z zs =>
      rw [← (List.cons.inj hy).1] at hx
      exact absurd (by simp) hx

/-- Nothing is dropped before an element that stays. -/
theorem rdropWhile_append_cons {a : α} (ha : ¬ p a) (l l' : List α) :
    (l ++ a :: l').rdropWhile p = l ++ a :: l'.rdropWhile p := by
  induction l' using List.reverseRecOn with
  | nil => rw [List.rdropWhile_concat_neg _ _ _ ha, List.rdropWhile_nil]
  | append_singleton l' b ih =>
    rw [← List.cons_append, ← List.append_assoc]
    by_cases hb : p b
    · rw [List.rdropWhile_concat_pos _ _ _ hb, List.rdropWhile_concat_pos _ _ _ hb, ih]
    · rw [List.rdropWhile_concat_neg _ _ _ hb, List.rdropWhile_concat_neg _ _ _ hb,
        List.append_assoc, List.cons_append]

theorem rdropWhile_append {l' : List α} (h : ∃ a ∈ l', ¬ p a) (l : List α) :
    (l ++ l').rdropWhile p = l ++ l'.rdropWhile p := by
  obtain ⟨a, hmem, ha⟩ := h
  obtain ⟨x, y, rfl⟩ := List.append_of_mem hmem
  rw [← List.append_assoc, rdropWhile_append_cons ha, rdropWhile_append_cons ha, List.append_assoc]

/-- Nothing is dropped behind an element that stays. -/
theorem dropWhile_append_cons {a : α} (ha : ¬ p a) (l l' : List α) :
    (l ++ a :: l').dropWhile p = l.dropWhile p ++ a :: l' := by
  rw [List.dropWhile_append]
  split_ifs with hnil
  · rw [List.isEmpty_iff.1 hnil, List.dropWhile_cons_of_neg ha, List.nil_append]
  · rfl

theorem of_mem_intercalate {a : α} {sep : List α} {ls : List (List α)}
    (h : a ∈ sep.intercalate ls) : a ∈ sep ∨ ∃ l ∈ ls, a ∈ l := by
  induction ls with
  | nil => cases h
  | cons l ls ih =>
    by_cases hnil : ls = []
    · rw [hnil, List.intercalate_singleton] at h
      exact .inr ⟨l, List.mem_cons_self, h⟩
    · rw [List.intercalate_cons_of_ne_nil hnil, List.mem_append, List.mem_append] at h
      rcases h with (h | h) | h
      · exact .inr ⟨l, List.mem_cons_self, h⟩
      · exact .inl h
      · exact (ih h).imp_right fun ⟨l', hl', ha⟩ => ⟨l', List.mem_cons_of_mem l hl', ha⟩

/-- What begins and ends in an element that stays is kept whole. -/
theorem rdropWhile_dropWhile_eq_self {l : List α} (hhead : ∀ a ∈ l.head?, p a = false)
    (hlast : ∀ a ∈ l.getLast?, p a = false) : (l.dropWhile p).rdropWhile p = l := by
  have hdrop : l.dropWhile p = l := by
    cases l with
    | nil => rfl
    | cons a l => exact List.dropWhile_cons_of_neg (by simp [hhead a rfl])
  rw [hdrop]
  refine List.rdropWhile_eq_self_iff.2 fun hne => ?_
  simp [hlast _ (List.getLast?_eq_some_getLast hne)]

/-! ## The first separator -/

/-- `str::split_once`. -/
def splitOnce (p : α → Bool) (l : List α) : Option (List α × List α) :=
  match l.dropWhile fun a => !p a with
  | [] => none
  | _ :: rest => some (l.takeWhile (fun a => !p a), rest)

theorem splitOnce_of_none {l : List α} (h : ∀ a ∈ l, p a = false) : splitOnce p l = none := by
  have hnil : l.dropWhile (fun a => !p a) = [] :=
    List.dropWhile_eq_nil_iff.2 fun a ha => by simp [h a ha]
  rw [splitOnce, hnil]

theorem splitOnce_append_cons {a : α} {l : List α} (h : ∀ b ∈ l, p b = false) (ha : p a = true)
    (rest : List α) : splitOnce p (l ++ a :: rest) = some (l, rest) := by
  have hkeep : ∀ b ∈ l, (!p b) = true := fun b hb => by simp [h b hb]
  have hdrop : (l ++ a :: rest).dropWhile (fun a => !p a) = a :: rest := by
    rw [List.dropWhile_append_of_pos hkeep]
    exact List.dropWhile_cons_of_neg (by simp [ha])
  have htake : (l ++ a :: rest).takeWhile (fun a => !p a) = l := by
    rw [List.takeWhile_append_of_pos hkeep, List.takeWhile_cons_of_neg (by simp [ha]),
      List.append_nil]
  rw [splitOnce, hdrop, htake]

theorem append_of_splitOnce {l x y : List α} (h : splitOnce p l = some (x, y)) :
    ∃ a, p a = true ∧ l = x ++ a :: y := by
  induction l using words_induction (p := p) with
  | last l hl =>
    rw [splitOnce_of_none hl] at h
    cases h
  | sep l a rest hl ha _ =>
    rw [splitOnce_append_cons hl ha] at h
    cases h
    exact ⟨a, ha, rfl⟩

/-- What is taken off at the end stands behind the first separator, or there is none. -/
theorem splitOnce_rdropWhile {q : α → Bool} (hq : ∀ a, p a = true → q a = false) (l : List α) :
    splitOnce p (l.rdropWhile q) = (splitOnce p l).map fun s => (s.1, s.2.rdropWhile q) := by
  induction l using words_induction (p := p) with
  | last l hl =>
    rw [splitOnce_of_none hl,
      splitOnce_of_none fun a ha => hl a ((List.rdropWhile_prefix _ _).subset ha)]
    rfl
  | sep l a rest hl ha ih =>
    rw [rdropWhile_append_cons (by simp [hq a ha]), splitOnce_append_cons hl ha,
      splitOnce_append_cons hl ha]
    rfl

/-! ## Words -/

/-- The pieces between the elements satisfying `p`, without the empty ones. -/
def words [DecidableEq α] (p : α → Bool) (l : List α) : List (List α) :=
  (l.splitOnP p).filter (· ≠ [])

variable [DecidableEq α] {a : α} {l w : List α}

@[simp]
theorem words_nil : words p [] = [] := rfl

theorem words_append_sep (l l' : List α) (ha : p a = true) :
    words p (l ++ a :: l') = words p l ++ words p l' := by
  rw [words, List.splitOnP_append_cons l l' ha, List.filter_append]
  rfl

theorem words_cons_sep (l : List α) (ha : p a = true) : words p (a :: l) = words p l :=
  words_append_sep [] l ha

theorem words_concat_sep (l : List α) (ha : p a = true) : words p (l ++ [a]) = words p l := by
  rw [words_append_sep l [] ha, words_nil, List.append_nil]

/-- A piece without separators is one word. -/
theorem words_of_none (hl : l ≠ []) (h : ∀ a ∈ l, p a = false) : words p l = [l] := by
  rw [words, List.splitOnP_eq_singleton h]
  simp [hl]

/-- A word before a separator comes first. -/
theorem words_append_word (hl : l ≠ []) (h : ∀ a ∈ l, p a = false) (ha : p a = true)
    (l' : List α) : words p (l ++ a :: l') = l :: words p l' := by
  rw [words_append_sep l l' ha, words_of_none hl h, List.singleton_append]

/-- Words are not empty and have no separator in them. -/
theorem of_mem_words (hw : w ∈ words p l) : w ≠ [] ∧ ∀ a ∈ w, p a = false := by
  induction l using words_induction (p := p) with
  | last l hl =>
    by_cases hnil : l = []
    · rw [hnil] at hw
      cases hw
    · rw [words_of_none hnil hl, List.mem_singleton] at hw
      exact hw ▸ ⟨hnil, hl⟩
  | sep l a rest hl ha ih =>
    rw [words_append_sep l rest ha] at hw
    rcases List.mem_append.1 hw with hw | hw
    · by_cases hnil : l = []
      · rw [hnil] at hw
        cases hw
      · rw [words_of_none hnil hl, List.mem_singleton] at hw
        exact hw ▸ ⟨hnil, hl⟩
    · exact ih hw

/-- Separators in front of a text are no words. -/
theorem words_dropWhile_of_imp {q : α → Bool} (hq : ∀ a, q a = true → p a = true) (l : List α) :
    words p (l.dropWhile q) = words p l := by
  induction l with
  | nil => rfl
  | cons a l ih =>
    by_cases ha : q a = true
    · rw [List.dropWhile_cons_of_pos ha, ih, words_cons_sep l (hq a ha)]
    · rw [List.dropWhile_cons_of_neg ha]

theorem words_dropWhile (l : List α) : words p (l.dropWhile p) = words p l :=
  words_dropWhile_of_imp (fun _ => id) l

theorem words_rdropWhile (l : List α) : words p (l.rdropWhile p) = words p l := by
  induction l using List.reverseRecOn with
  | nil => rfl
  | append_singleton l a ih =>
    by_cases ha : p a = true
    · rw [List.rdropWhile_concat_pos _ _ _ ha, ih, words_concat_sep l ha]
    · rw [List.rdropWhile_concat_neg _ _ _ ha]

theorem words_eq_nil_iff : words p l = [] ↔ ∀ a ∈ l, p a = true := by
  have hpiece {l : List α} (hl : ∀ a ∈ l, p a = false) :
      words p l = [] ↔ ∀ a ∈ l, p a = true := by
    cases l with
    | nil => simp
    | cons a l =>
      rw [words_of_none (List.cons_ne_nil a l) hl]
      refine iff_of_false (List.cons_ne_nil _ _) fun hall => ?_
      exact Bool.false_ne_true ((hl a List.mem_cons_self).symm.trans (hall a List.mem_cons_self))
  induction l using words_induction (p := p) with
  | last l hl => exact hpiece hl
  | sep l a rest hl ha ih =>
    rw [words_append_sep l rest ha, List.append_eq_nil_iff, List.forall_mem_append,
      List.forall_mem_cons, and_iff_right ha]
    exact and_congr (hpiece hl) ih

theorem flatten_words (p : α → Bool) (l : List α) :
    (words p l).flatten = l.filter fun a => !p a := by
  have hpiece {l : List α} (hl : ∀ a ∈ l, p a = false) :
      (words p l).flatten = l.filter fun a => !p a := by
    rw [List.filter_eq_self.2 fun a ha => by simp [hl a ha]]
    by_cases hnil : l = []
    · rw [hnil]
      rfl
    · rw [words_of_none hnil hl, List.flatten_singleton]
  induction l using words_induction (p := p) with
  | last l hl => exact hpiece hl
  | sep l a rest hl ha ih =>
    rw [words_append_sep l rest ha, List.flatten_append, hpiece hl, ih, List.filter_append,
      List.filter_cons_of_neg (by simp [ha])]

theorem subset_of_mem_words (hw : w ∈ words p l) : w ⊆ l := by
  intro c hc
  have hmem : c ∈ (words p l).flatten := List.mem_flatten.2 ⟨w, hw, hc⟩
  rw [flatten_words] at hmem
  exact List.mem_of_mem_filter hmem

/-- Words that are joined by a separator are found again. -/
theorem words_intercalate {ws : List (List α)} (ha : p a = true)
    (h : ∀ w ∈ ws, w ≠ [] ∧ ∀ b ∈ w, p b = false) : words p ([a].intercalate ws) = ws := by
  induction ws with
  | nil => rfl
  | cons w ws ih =>
    obtain ⟨⟨hne, hw⟩, hws⟩ := List.forall_mem_cons.1 h
    by_cases hnil : ws = []
    · rw [hnil, List.intercalate_singleton, words_of_none hne hw]
    · rw [List.intercalate_cons_of_ne_nil hnil, List.append_assoc, List.singleton_append,
        words_append_word hne hw ha, ih hws]

end Words
