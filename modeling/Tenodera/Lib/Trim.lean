import Tenodera.Lib.Lines
import Tenodera.Lib.Words

/-!
# Trimmed texts

`Text.trimmed` takes white space off both ends and leaves the words of a text alone.
-/

namespace Text

variable {a b cs : List Char} {c : Char}

/-- ASCII characters behind the space are not white space. -/
theorem isWhitespace_of_ascii (hlow : 0x20 < c.toNat) (hhigh : c.toNat < 0x80) :
    isWhitespace c = false := by
  change 0x20 < c.val.toNat at hlow
  change c.val.toNat < 0x80 at hhigh
  simp only [isWhitespace, Bool.or_eq_false_iff, Bool.and_eq_false_iff, decide_eq_false_iff_not,
    UInt32.le_iff_toNat_le, ← UInt32.toNat_inj, UInt32.reduceToNat]
  omega

theorem isWhitespace_of_isAlphanum (h : c.isAlphanum = true) : isWhitespace c = false := by
  have hrange : 0x30 ≤ c.val.toNat ∧ c.val.toNat < 0x80 := by
    unfold Char.isAlphanum Char.isAlpha Char.isUpper Char.isLower Char.isDigit at h
    simp only [Bool.or_eq_true, Bool.and_eq_true, decide_eq_true_eq, UInt32.le_iff_toNat_le,
      ge_iff_le, Char.reduceVal, UInt32.reduceToNat] at h
    omega
  exact isWhitespace_of_ascii (by change _ < c.val.toNat; omega) hrange.2

/-- The characters that are not white space. -/
def solid (cs : List Char) : List Char := cs.filter fun c => !isWhitespace c

theorem solid_append (a b : List Char) : solid (a ++ b) = solid a ++ solid b :=
  List.filter_append a b

theorem solid_eq_nil_iff : solid cs = [] ↔ ∀ c ∈ cs, isWhitespace c = true := by
  rw [solid, List.filter_eq_nil_iff]
  simp

theorem solid_dropWhile (cs : List Char) : solid (cs.dropWhile isWhitespace) = solid cs := by
  induction cs with
  | nil => rfl
  | cons c cs ih =>
    by_cases hc : isWhitespace c = true
    · rw [List.dropWhile_cons_of_pos hc, ih, solid, solid, List.filter_cons_of_neg (by simp [hc])]
    · rw [List.dropWhile_cons_of_neg hc]

theorem solid_rdropWhile (cs : List Char) : solid (cs.rdropWhile isWhitespace) = solid cs := by
  have hreverse (cs : List Char) : solid cs.reverse = (solid cs).reverse := List.filter_reverse
  rw [List.rdropWhile, hreverse, solid_dropWhile, hreverse, List.reverse_reverse]

theorem solid_trimmed (cs : List Char) : solid (trimmed cs) = solid cs := by
  rw [trimmed, solid_rdropWhile, solid_dropWhile]

theorem words_trimmed (cs : List Char) :
    Words.words isWhitespace (trimmed cs) = Words.words isWhitespace cs := by
  rw [trimmed, Words.words_rdropWhile, Words.words_dropWhile]

/-- What is appended to a text is white space if trimming does not show it. -/
theorem isWhitespace_of_trimmed_append (h : trimmed (a ++ b) = trimmed a) :
    ∀ c ∈ b, isWhitespace c = true := by
  have hsolid := congrArg solid h
  rw [solid_trimmed, solid_trimmed, solid_append, List.append_right_eq_self] at hsolid
  exact solid_eq_nil_iff.1 hsolid

/-- Between two characters that are not white space nothing is taken off. -/
theorem trimmed_cons_append (hc : isWhitespace c = false) {d : Char} (hd : isWhitespace d = false)
    (a b : List Char) :
    trimmed (c :: (a ++ d :: b)) = c :: (a ++ d :: b.rdropWhile isWhitespace) := by
  rw [trimmed, List.dropWhile_cons_of_neg (by simp [hc]), ← List.cons_append,
    Words.rdropWhile_append_cons (by simp [hd]), List.cons_append]

theorem trimmed_concat (hc : isWhitespace c = true) (cs : List Char) :
    trimmed (cs ++ [c]) = trimmed cs := by
  rw [trimmed, List.dropWhile_append]
  split_ifs with hnil
  · rw [List.dropWhile_cons_of_pos hc, trimmed, List.isEmpty_iff.1 hnil]
    rfl
  · rw [List.rdropWhile_concat_pos _ _ _ hc, trimmed]

theorem trimmed_append (hb : ∀ c ∈ b, isWhitespace c = true) (a : List Char) :
    trimmed (a ++ b) = trimmed a := by
  induction b using List.reverseRecOn with
  | nil => rw [List.append_nil]
  | append_singleton b c ih =>
    rw [← List.append_assoc, trimmed_concat (hb c (by simp)),
      ih fun c' hc' => hb c' (List.mem_append_left _ hc')]

theorem length_trimmed_le (cs : List Char) : (trimmed cs).length ≤ cs.length :=
  (List.rdropWhile_prefix _ _).length_le.trans (List.dropWhile_suffix _).length_le

theorem trimmed_rdropWhile (cs : List Char) :
    trimmed (cs.rdropWhile isWhitespace) = trimmed cs := by
  induction cs using List.reverseRecOn with
  | nil => rfl
  | append_singleton cs c ih =>
    by_cases hc : isWhitespace c = true
    · rw [List.rdropWhile_concat_pos _ _ _ hc, ih, trimmed_concat hc]
    · rw [List.rdropWhile_concat_neg _ _ _ hc]

/-- The two ends can be trimmed in either order. -/
theorem dropWhile_rdropWhile (cs : List Char) :
    (cs.rdropWhile isWhitespace).dropWhile isWhitespace = trimmed cs := by
  induction cs using List.reverseRecOn with
  | nil => rfl
  | append_singleton cs c ih =>
    by_cases hc : isWhitespace c = true
    · rw [List.rdropWhile_concat_pos _ _ _ hc, ih, trimmed_concat hc]
    · rw [List.rdropWhile_concat_neg _ _ _ hc, trimmed, Words.dropWhile_append_cons hc,
        List.rdropWhile_concat_neg _ _ _ hc]

@[simp]
theorem trimmed_trimmed (cs : List Char) : trimmed (trimmed cs) = trimmed cs := by
  conv_lhs => rw [trimmed.eq_1 cs, trimmed_rdropWhile]
  rw [trimmed, List.dropWhile_idempotent, trimmed]

/-- A text that begins and ends in characters that are not white space. -/
theorem trimmed_eq_self (hhead : ∀ c ∈ cs.head?, isWhitespace c = false)
    (hlast : ∀ c ∈ cs.getLast?, isWhitespace c = false) : trimmed cs = cs :=
  Words.rdropWhile_dropWhile_eq_self hhead hlast

/-- A text that begins and ends in characters that are not white space is not cut by trimming. -/
theorem infix_trimmed_iff {pat : List Char} (hne : pat ≠ [])
    (hhead : ∀ c ∈ pat.head?, isWhitespace c = false)
    (hlast : ∀ c ∈ pat.getLast?, isWhitespace c = false) : pat <:+: trimmed cs ↔ pat <:+: cs := by
  constructor
  · exact fun h => h.trans
      ((List.rdropWhile_prefix _ _).isInfix.trans (List.dropWhile_suffix _).isInfix)
  · rintro ⟨x, y, rfl⟩
    have hfront (z : List Char) : (x ++ (pat ++ z)).dropWhile isWhitespace =
        x.dropWhile isWhitespace ++ (pat ++ z) := by
      obtain ⟨c, pat, rfl⟩ := List.exists_cons_of_ne_nil hne
      exact Words.dropWhile_append_cons (by simp [hhead c rfl]) x (pat ++ z)
    have hback (z : List Char) : (z ++ (pat ++ y)).rdropWhile isWhitespace =
        z ++ (pat ++ y.rdropWhile isWhitespace) := by
      obtain ⟨init, d, rfl⟩ := List.eq_nil_or_concat pat |>.resolve_left hne
      have hd : isWhitespace d = false := hlast d (by simp)
      rw [List.concat_eq_append, List.append_assoc, List.append_assoc, ← List.append_assoc,
        ← List.append_assoc z]
      exact Words.rdropWhile_append_cons (by simp [hd]) (z ++ init) y
    rw [List.append_assoc, trimmed, hfront, hback]
    exact ⟨_, _, List.append_assoc _ _ _⟩

/-- Nothing is taken off at the end of what begins with another character. -/
theorem head?_trimmed (cs : List Char) :
    (trimmed cs).head? = (cs.dropWhile isWhitespace).head? := by
  rw [trimmed]
  cases hdrop : cs.dropWhile isWhitespace with
  | nil => rfl
  | cons c l =>
    have hc : ¬ isWhitespace c = true := by
      have hhead := List.head_dropWhile_not isWhitespace (l := cs) (by simp [hdrop])
      simpa [hdrop] using hhead
    have hcons : (c :: l).rdropWhile isWhitespace = c :: l.rdropWhile isWhitespace :=
      Words.rdropWhile_append_cons hc [] l
    rw [hcons]
    rfl

theorem isWhitespace_of_head?_trimmed (h : (trimmed cs).head? = some c) :
    isWhitespace c = false := by
  rw [head?_trimmed] at h
  obtain ⟨l, hl⟩ := List.head?_eq_some_iff.1 h
  have hhead := List.head_dropWhile_not isWhitespace (l := cs) (by simp [hl])
  simpa [hl] using hhead

theorem isWhitespace_of_getLast?_trimmed (h : (trimmed cs).getLast? = some c) :
    isWhitespace c = false := by
  have hne : trimmed cs ≠ [] := by
    intro hnil
    rw [hnil] at h
    cases h
  have hlast : ¬ isWhitespace ((trimmed cs).getLast hne) = true :=
    List.rdropWhile_last_not isWhitespace (cs.dropWhile isWhitespace) hne
  rw [List.getLast?_eq_some_getLast hne] at h
  rw [← Option.some.inj h]
  exact Bool.eq_false_iff.2 hlast

/-! ## Carriage returns -/

@[simp]
theorem trimmed_bare (cs : List Char) : trimmed (bare cs) = trimmed cs := by
  induction cs using List.reverseRecOn with
  | nil => rfl
  | append_singleton cs c ih =>
    by_cases hc : c = '\r'
    · subst hc
      rw [bare, List.rdropWhile_concat_pos _ _ _ (by decide), trimmed_concat (by decide), ← bare,
        ih]
    · rw [bare, List.rdropWhile_concat_neg _ _ _ (by simpa using hc)]

theorem bare_trimmed (cs : List Char) : bare (trimmed cs) = trimmed cs := by
  refine List.rdropWhile_eq_self_iff.2 fun hne hlast => ?_
  have hcr : (trimmed cs).getLast? = some '\r' := by
    rw [List.getLast?_eq_some_getLast hne]
    exact congrArg some (of_decide_eq_true hlast)
  exact absurd (isWhitespace_of_getLast?_trimmed hcr) (by decide)

theorem trimmed_stripCr (cs : List Char) : trimmed (stripCr cs) = trimmed cs := by
  rw [← trimmed_bare, bare_stripCr, trimmed_bare]

end Text
