import Tenodera.Lib.Slices
import Tenodera.Lib.Words
import Tenodera.Lib.Text

/-!
# Padded columns

Columns of text with one space or more behind each, as command line tools print them.
-/

namespace Text

/-- Columns with a space behind each, and more of them; `pad` counts from the last column. -/
def padded (pad : ℕ → ℕ) : List (List Char) → List Char
  | [] => []
  | f :: fs => f ++ ' ' :: (List.replicate (pad fs.length) ' ' ++ padded pad fs)

/-- A column has no white space, and is not empty. -/
def IsColumn (f : List Char) : Prop := f ≠ [] ∧ ∀ c ∈ f, isWhitespace c = false

-- for all the characters of a text, not for all there are
instance (f : List Char) : Decidable (IsColumn f) :=
  have : Decidable (∀ c ∈ f, isWhitespace c = false) := List.decidableBAll _ f
  inferInstanceAs (Decidable (f ≠ [] ∧ ∀ c ∈ f, isWhitespace c = false))

variable {pad : ℕ → ℕ} {fields : List (List Char)} {a b pat cs : List Char} {c : Char}

theorem words_spaces (k : ℕ) (cs : List Char) :
    Words.words isWhitespace (List.replicate k ' ' ++ cs) = Words.words isWhitespace cs := by
  induction k with
  | zero => rfl
  | succ k ih => rw [List.replicate_succ, List.cons_append, Words.words_cons_sep _ (by decide), ih]

/-- The columns are the first words. -/
theorem words_padded (h : ∀ f ∈ fields, IsColumn f) (cs : List Char) :
    Words.words isWhitespace (padded pad fields ++ cs) =
      fields ++ Words.words isWhitespace cs := by
  induction fields with
  | nil => rfl
  | cons f fields ih =>
    rw [List.forall_mem_cons] at h
    rw [padded, List.append_assoc, List.cons_append,
      Words.words_append_word h.1.1 h.1.2 (by decide), List.append_assoc, words_spaces, ih h.2]
    rfl

theorem newline_notMem_padded (h : ∀ f ∈ fields, IsColumn f) : '\n' ∉ padded pad fields := by
  induction fields with
  | nil => exact List.not_mem_nil
  | cons f fields ih =>
    rw [List.forall_mem_cons] at h
    have hf : '\n' ∉ f := fun hmem => absurd (h.1.2 _ hmem) (by decide)
    simp [padded, hf, ih h.2]

/-! ## Patterns in columns -/

/-- A pattern does not reach over a character that it does not have. -/
theorem prefix_append_cons_iff (hc : c ∉ pat) : pat <+: a ++ c :: b ↔ pat <+: a := by
  refine ⟨fun h => ?_, fun h => h.trans (List.prefix_append _ _)⟩
  rcases List.prefix_or_prefix_of_prefix h (List.prefix_append a (c :: b)) with hpre | ⟨w, hw⟩
  · exact hpre
  · rw [← hw, List.prefix_append_right_inj] at h
    cases w with
    | nil => exact ⟨[], by rw [← hw, List.append_nil, List.append_nil]⟩
    | cons d w =>
      obtain rfl := (List.cons_prefix_cons.1 h).1
      exact absurd (hw ▸ List.mem_append_right a List.mem_cons_self) hc

theorem infix_append_cons_iff (hc : c ∉ pat) (hne : pat ≠ []) :
    pat <:+: a ++ c :: b ↔ pat <:+: a ∨ pat <:+: b := by
  induction a with
  | nil =>
    have hfirst : ¬ pat <+: c :: b := fun h =>
      hne (List.prefix_nil.1 ((prefix_append_cons_iff (a := []) hc).1 h))
    rw [List.nil_append, List.infix_cons_iff, List.infix_nil]
    simp [hfirst, hne]
  | cons d a ih =>
    have hfirst : pat <+: d :: (a ++ c :: b) ↔ pat <+: d :: a :=
      prefix_append_cons_iff (a := d :: a) hc
    rw [List.cons_append, List.infix_cons_iff, ih, hfirst, List.infix_cons_iff, or_assoc]

/-- What is found in a text is found in a longer one. -/
theorem splitFound_append_left {x y : List Char} (h : Utf8.splitFound pat a = some (x, y))
    (b : List Char) : Utf8.splitFound pat (a ++ b) = some (x, y ++ b) := by
  obtain ⟨rfl, ⟨y, rfl⟩, hfirst⟩ := Utf8.splitFound_eq_some_iff.1 h
  refine Utf8.splitFound_eq_some_iff.2 ⟨List.append_assoc _ _ _,
    (List.prefix_append pat y).trans (List.prefix_append _ b), fun a' b' hab => ?_⟩
  have hx : x <+: (x ++ (pat ++ y)) ++ b := by simp
  have ha' : a' ++ pat <+: (x ++ (pat ++ y)) ++ b := ⟨b', by rw [hab, List.append_assoc]⟩
  by_cases hlength : x.length ≤ a'.length
  · exact List.prefix_of_prefix_length_le hx ((List.prefix_append a' pat).trans ha') hlength
  · obtain ⟨z, hz⟩ : a' ++ pat <+: x ++ (pat ++ y) :=
      List.prefix_of_prefix_length_le ha' (List.prefix_append _ b) (by simp; omega)
    exact hfirst a' z (by rw [← hz, List.append_assoc])

/-- A pattern that is not in front of a character it does not have is found behind it. -/
theorem splitFound_append_cons (hc : c ∉ pat) (hne : pat ≠ []) (ha : ¬ pat <:+: a)
    (cs : List Char) : Utf8.splitFound pat (a ++ c :: cs) =
      (Utf8.splitFound pat cs).map fun s => (a ++ c :: s.1, s.2) := by
  cases hfound : Utf8.splitFound pat cs with
  | none =>
    rw [Option.map_none, Utf8.splitFound_eq_none_iff, infix_append_cons_iff hc hne, not_or]
    exact ⟨ha, Utf8.splitFound_eq_none_iff.1 hfound⟩
  | some s =>
    obtain ⟨rfl, hpat, hfirst⟩ := Utf8.splitFound_eq_some_iff.1 hfound
    rw [Option.map_some, Utf8.splitFound_eq_some_iff]
    refine ⟨by simp, hpat, fun a' b' hab => ?_⟩
    rcases List.append_eq_append_iff.1 hab with ⟨z, rfl, hz⟩ | ⟨z, rfl, hz⟩
    · -- Behind the character, or just there.
      cases z with
      | nil =>
        have hfront : pat <+: [] ++ c :: (s.1 ++ s.2) := ⟨b', hz.symm⟩
        exact absurd (List.prefix_nil.1 ((prefix_append_cons_iff hc).1 hfront)) hne
      | cons d z =>
        rw [List.cons_append] at hz
        obtain ⟨rfl, htail⟩ := List.cons_eq_cons.1 hz
        rw [List.prefix_append_right_inj, List.cons_prefix_cons]
        exact ⟨rfl, hfirst z b' htail⟩
    · have hfront : pat <+: z ++ c :: (s.1 ++ s.2) := ⟨b', hz⟩
      exact absurd (((prefix_append_cons_iff hc).1 hfront).isInfix.trans
        (List.suffix_append a' z).isInfix) ha

/-- A pattern without spaces is in one of the columns, or behind them. -/
theorem infix_padded_iff (hspace : ' ' ∉ pat) (hne : pat ≠ []) :
    pat <:+: padded pad fields ++ cs ↔ (∃ f ∈ fields, pat <:+: f) ∨ pat <:+: cs := by
  have hspaces (k : ℕ) (cs : List Char) :
      pat <:+: List.replicate k ' ' ++ cs ↔ pat <:+: cs := by
    induction k with
    | zero => rfl
    | succ k ih =>
      have hfirst := infix_append_cons_iff (a := []) (b := List.replicate k ' ' ++ cs) hspace hne
      rw [List.nil_append, ih] at hfirst
      rw [List.replicate_succ, List.cons_append, hfirst]
      simp [hne]
  induction fields with
  | nil => simp [padded]
  | cons f fields ih =>
    have ih : pat <:+: padded pad fields ++ cs ↔ (∃ f ∈ fields, pat <:+: f) ∨ pat <:+: cs := ih
    rw [padded, List.append_assoc, List.cons_append, infix_append_cons_iff hspace hne,
      List.append_assoc, hspaces, ih]
    simp [or_assoc]

end Text
