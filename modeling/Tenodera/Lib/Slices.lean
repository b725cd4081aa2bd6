import Tenodera.Lib.Utf8

/-!
# Slices and positions of patterns

`&s[i..j]` and `str::find` at byte positions.  A pattern that starts with a character it does not
have again cannot overlap itself, so where it is found first depends on what comes before it only.
-/

namespace Utf8

/-- `str::len`. -/
def size (cs : List Char) : ℕ := (cs.map Char.utf8Size).sum

/-- `&s[..n]`; none is a panic. -/
def prefixTo (n : ℕ) (cs : List Char) : Option (List Char) := (splitAt n cs).map Prod.fst

/-- `&s[n..]`; none is a panic. -/
def suffixFrom (n : ℕ) (cs : List Char) : Option (List Char) := (splitAt n cs).map Prod.snd

/-- `&s[i..j]`; none is a panic. -/
def slice (i j : ℕ) (cs : List Char) : Option (List Char) :=
  if i ≤ j then (suffixFrom i cs).bind (prefixTo (j - i)) else none

/-- `str::is_char_boundary`: the byte position is between two characters or at an end. -/
def Boundary (n : ℕ) (cs : List Char) : Prop := ∃ a, a <+: cs ∧ size a = n

/-- `str::find`: where a pattern starts first. -/
def find (pat : List Char) : List Char → Option ℕ
  | [] => if pat = [] then some 0 else none
  | c :: cs => if pat <+: c :: cs then some 0 else (find pat cs).map (· + c.utf8Size)

example : [slice 1 3 "aéb".toList, slice 1 2 "aéb".toList, slice 3 1 "aéb".toList] =
    [some ['é'], none, none] := by
  decide

example : [find "b=".toList "éb b=".toList, find "b=".toList "bb".toList] = [some 4, none] := by
  decide

/-- The text in front of the first place of a pattern, and from there on. -/
def splitFound (pat cs : List Char) : Option (List Char × List Char) :=
  (find pat cs).bind fun n => splitAt n cs

variable {cs a b w pat : List Char} {c : Char} {n i j : ℕ}

/-! ## Sizes -/

@[simp]
theorem size_nil : size [] = 0 := rfl

@[simp]
theorem size_cons (c : Char) (cs : List Char) : size (c :: cs) = c.utf8Size + size cs := rfl

@[simp]
theorem size_append (a b : List Char) : size (a ++ b) = size a + size b := by
  rw [size, List.map_append, List.sum_append]
  rfl

theorem size_eq_zero_iff : size cs = 0 ↔ cs = [] := by
  cases cs with
  | nil => simp
  | cons c cs =>
    have hc := c.utf8Size_pos
    rw [size_cons]
    refine iff_of_false (by omega) (List.cons_ne_nil c cs)

/-- Of two beginnings of a text the one with fewer bytes is the beginning of the other. -/
theorem prefix_of_size_le {l l' : List Char} (h : l <+: cs) (h' : l' <+: cs)
    (hsize : size l ≤ size l') : l <+: l' := by
  rcases List.prefix_or_prefix_of_prefix h h' with hprefix | ⟨r, rfl⟩
  · exact hprefix
  · rw [size_append] at hsize
    obtain rfl : r = [] := size_eq_zero_iff.1 (by omega)
    exact ⟨[], by rw [List.append_nil, List.append_nil]⟩

theorem eq_of_size_eq {a' b' : List Char} (h : a ++ b = a' ++ b') (hsize : size a = size a') :
    a = a' ∧ b = b' := by
  have hprefix : a <+: a' := prefix_of_size_le ⟨b, h⟩ ⟨b', rfl⟩ (Nat.le_of_eq hsize)
  have hprefix' : a' <+: a := prefix_of_size_le ⟨b', h.symm⟩ ⟨b, rfl⟩ (Nat.le_of_eq hsize.symm)
  obtain rfl : a = a' := hprefix.eq_of_length (Nat.le_antisymm hprefix.length_le hprefix'.length_le)
  exact ⟨rfl, List.append_cancel_left h⟩

/-! ## Slices -/

theorem splitAt_append (a b : List Char) : splitAt (size a) (a ++ b) = some (a, b) := by
  induction a with
  | nil => simp [splitAt]
  | cons c a ih =>
    have hc := c.utf8Size_pos
    obtain ⟨n, hn⟩ : ∃ n, size (c :: a) = n + 1 := ⟨size (c :: a) - 1, by simp; omega⟩
    have hn' : n + 1 = c.utf8Size + size a := by rw [← hn, size_cons]
    rw [hn, List.cons_append, splitAt, if_pos (by omega), hn', Nat.add_sub_cancel_left, ih]
    rfl

/-- A text is cut at a byte position between two of its characters. -/
theorem splitAt_eq_some_iff : splitAt n cs = some (a, b) ↔ cs = a ++ b ∧ size a = n := by
  constructor
  · intro h
    induction cs generalizing n a with
    | nil =>
      cases n with
      | zero =>
        cases h
        exact ⟨rfl, rfl⟩
      | succ n => cases h
    | cons c cs ih =>
      cases n with
      | zero =>
        cases h
        exact ⟨rfl, rfl⟩
      | succ n =>
        rw [splitAt] at h
        split_ifs at h with hle
        obtain ⟨⟨a', b'⟩, hsplit, hab⟩ := Option.map_eq_some_iff.1 h
        cases hab
        obtain ⟨hcs, hsize⟩ := ih hsplit
        rw [hcs, size_cons, hsize]
        exact ⟨rfl, by omega⟩
  · rintro ⟨rfl, rfl⟩
    exact splitAt_append a b

theorem prefixTo_append (a b : List Char) : prefixTo (size a) (a ++ b) = some a := by
  rw [prefixTo, splitAt_append]
  rfl

theorem suffixFrom_append (a b : List Char) : suffixFrom (size a) (a ++ b) = some b := by
  rw [suffixFrom, splitAt_append]
  rfl

theorem prefixTo_eq_some_iff : prefixTo n cs = some a ↔ a <+: cs ∧ size a = n := by
  constructor
  · intro h
    obtain ⟨⟨a', b⟩, hsplit, rfl⟩ := Option.map_eq_some_iff.1 h
    obtain ⟨rfl, hsize⟩ := splitAt_eq_some_iff.1 hsplit
    exact ⟨List.prefix_append _ _, hsize⟩
  · rintro ⟨⟨b, rfl⟩, rfl⟩
    exact prefixTo_append a b

theorem isSome_prefixTo_iff : (prefixTo n cs).isSome ↔ Boundary n cs := by
  rw [Option.isSome_iff_exists]
  exact exists_congr fun a => prefixTo_eq_some_iff

theorem suffixFrom_eq_some_iff : suffixFrom n cs = some b ↔ ∃ a, cs = a ++ b ∧ size a = n := by
  constructor
  · intro h
    obtain ⟨⟨a, b'⟩, hsplit, rfl⟩ := Option.map_eq_some_iff.1 h
    exact ⟨a, splitAt_eq_some_iff.1 hsplit⟩
  · rintro ⟨a, rfl, rfl⟩
    exact suffixFrom_append a b

theorem isSome_suffixFrom_iff : (suffixFrom n cs).isSome ↔ Boundary n cs := by
  rw [← isSome_prefixTo_iff, prefixTo, suffixFrom, Option.isSome_map, Option.isSome_map]

theorem slice_eq_some_iff :
    slice i j cs = some w ↔ ∃ a b, cs = a ++ (w ++ b) ∧ size a = i ∧ size (a ++ w) = j := by
  constructor
  · intro h
    unfold slice at h
    split_ifs at h with hle
    obtain ⟨rest, hrest, hw⟩ := Option.bind_eq_some_iff.1 h
    obtain ⟨a, rfl, hi⟩ := suffixFrom_eq_some_iff.1 hrest
    obtain ⟨⟨b, rfl⟩, hj⟩ := prefixTo_eq_some_iff.1 hw
    exact ⟨a, b, rfl, hi, by rw [size_append]; omega⟩
  · rintro ⟨a, b, rfl, rfl, rfl⟩
    rw [slice, size_append, if_pos (Nat.le_add_right _ _), suffixFrom_append, Option.bind_some,
      Nat.add_sub_cancel_left]
    exact prefixTo_append w b

/-! ## Positions -/

/-- A pattern that is found starts there, and nowhere before. -/
theorem find_eq_some_iff : find pat cs = some n ↔
    ∃ a b, cs = a ++ (pat ++ b) ∧ size a = n ∧ ∀ a' b', cs = a' ++ (pat ++ b') → a <+: a' := by
  constructor
  · intro h
    induction cs generalizing n with
    | nil =>
      rw [find] at h
      split_ifs at h with hpat
      cases h
      exact ⟨[], [], by simp [hpat], rfl, fun a' _ _ => List.nil_prefix⟩
    | cons c cs ih =>
      rw [find] at h
      split_ifs at h with hpat
      · cases h
        obtain ⟨b, hb⟩ := hpat
        exact ⟨[], b, hb.symm, rfl, fun a' _ _ => List.nil_prefix⟩
      · obtain ⟨m, hm, rfl⟩ := Option.map_eq_some_iff.1 h
        obtain ⟨a, b, rfl, hsize, hfirst⟩ := ih hm
        refine ⟨c :: a, b, rfl, by rw [size_cons, hsize, Nat.add_comm], fun a' b' hab => ?_⟩
        cases a' with
        | nil => exact absurd ⟨b', hab.symm⟩ hpat
        | cons c' a' =>
          obtain ⟨rfl, htail⟩ := List.cons_eq_cons.1 hab
          exact (List.prefix_cons_inj c).2 (hfirst a' b' htail)
  · rintro ⟨a, b, rfl, rfl, hfirst⟩
    induction a with
    | nil =>
      have hpat : pat <+: [] ++ (pat ++ b) := List.prefix_append pat b
      cases htext : [] ++ (pat ++ b) with
      | nil =>
        rw [htext] at hpat
        rw [find, if_pos (List.prefix_nil.1 hpat)]
        rfl
      | cons c cs =>
        rw [htext] at hpat
        rw [find, if_pos hpat]
        rfl
    | cons c a ih =>
      have hpat : ¬ pat <+: c :: (a ++ (pat ++ b)) := by
        rintro ⟨b', hb'⟩
        have hnil := List.prefix_nil.1 (hfirst [] b' hb'.symm)
        cases hnil
      rw [List.cons_append, find, if_neg hpat, ih fun a' b' hab => ?_]
      · rw [size_cons, Option.map_some, Nat.add_comm]
      · have hcons := hfirst (c :: a') b' (by rw [List.cons_append, hab, List.cons_append])
        exact (List.prefix_cons_inj c).1 hcons

theorem find_eq_none_iff : find pat cs = none ↔ ¬ pat <:+: cs := by
  induction cs with
  | nil => simp [find]
  | cons c cs ih =>
    rw [find, List.infix_cons_iff]
    split_ifs with hpat
    · simp [hpat]
    · simp [hpat, ih]

/-- The slices before and behind a character of one byte that was found. -/
theorem exists_of_find_char (hc : c.utf8Size = 1) (h : find [c] cs = some n) :
    ∃ a b, c ∉ a ∧ cs = a ++ c :: b ∧ prefixTo n cs = some a ∧ suffixFrom (n + 1) cs = some b := by
  obtain ⟨a, b, rfl, rfl, hfirst⟩ := find_eq_some_iff.1 h
  refine ⟨a, b, fun hmem => ?_, rfl, prefixTo_append a _, ?_⟩
  · obtain ⟨x, y, rfl⟩ := List.append_of_mem hmem
    have hle := (hfirst x (y ++ ([c] ++ b)) (by simp)).length_le
    rw [List.length_append, List.length_cons] at hle
    omega
  · exact suffixFrom_eq_some_iff.2 ⟨a ++ [c], by simp, by simp [hc]⟩

theorem find_char (hc : c ∉ a) (b : List Char) : find [c] (a ++ c :: b) = some (size a) := by
  refine find_eq_some_iff.2 ⟨a, b, rfl, rfl, fun a' b' hab => ?_⟩
  rcases List.append_eq_append_iff.1 hab with ⟨z, rfl, -⟩ | ⟨z, rfl, hz⟩
  · exact List.prefix_append a z
  · cases z with
    | nil => exact ⟨[], by rw [List.append_nil, List.append_nil]⟩
    | cons c' z =>
      obtain ⟨rfl, -⟩ := List.cons_eq_cons.1 hz
      exact absurd (List.mem_append_right a' List.mem_cons_self) hc

theorem find_char_eq_none_iff : find [c] cs = none ↔ c ∉ cs := by
  rw [find_eq_none_iff]
  exact not_congr ⟨fun h => h.subset List.mem_cons_self, fun h => by
    obtain ⟨x, y, rfl⟩ := List.append_of_mem h
    exact ⟨x, y, by simp⟩⟩

/-! ## Keys -/

/-- A pattern whose first character does not come again in it does not reach over the next one. -/
theorem key_prefix_of_append (hw : c ∉ w) (ha : a ≠ []) (h : c :: w <+: a ++ c :: b) :
    c :: w <+: a := by
  rcases List.prefix_or_prefix_of_prefix h (List.prefix_append a (c :: b)) with hprefix | ⟨t, ht⟩
  · exact hprefix
  · rw [← ht, List.prefix_append_right_inj] at h
    cases t with
    | nil => exact ⟨[], by rw [List.append_nil, ← ht, List.append_nil]⟩
    | cons c' t =>
      obtain ⟨rfl, -⟩ := List.cons_prefix_cons.1 h
      obtain ⟨a₀, a, rfl⟩ := List.exists_cons_of_ne_nil ha
      obtain ⟨-, rfl⟩ := List.cons_eq_cons.1 ht
      exact absurd (List.mem_append_right a List.mem_cons_self) hw

theorem key_infix_append_iff (hw : c ∉ w) (a b : List Char) :
    c :: w <:+: a ++ c :: b ↔ c :: w <:+: a ∨ c :: w <:+: c :: b := by
  constructor
  · intro h
    induction a with
    | nil => exact .inr h
    | cons a₀ a ih =>
      rw [List.cons_append, List.infix_cons_iff] at h
      rcases h with h | h
      · exact .inl (key_prefix_of_append (a := a₀ :: a) hw (List.cons_ne_nil _ _) h).isInfix
      · exact (ih h).imp_left fun h => h.trans (List.suffix_cons a₀ a).isInfix
  · rintro (h | h)
    · exact h.trans (List.prefix_append _ _).isInfix
    · exact h.trans (List.suffix_append _ _).isInfix

theorem key_infix_append_of_notMem (hc : c ∉ a) : c :: w <:+: a ++ b ↔ c :: w <:+: b := by
  induction a with
  | nil => rfl
  | cons c' a ih =>
    have hne : c ≠ c' := fun h => hc (h ▸ List.mem_cons_self)
    rw [List.cons_append, List.infix_cons_iff, List.cons_prefix_cons,
      ih fun hmem => hc (List.mem_cons_of_mem c' hmem)]
    exact or_iff_right fun h => hne h.1

/-- Such a pattern is not in a text with another beginning unless it is behind that. -/
theorem key_infix_cons_iff {w' : List Char} (hc : c ∉ w') (h : ¬ w <+: w') (h' : ¬ w' <+: w)
    (b : List Char) : c :: w <:+: c :: (w' ++ b) ↔ c :: w <:+: b := by
  rw [List.infix_cons_iff, key_infix_append_of_notMem hc, List.cons_prefix_cons]
  refine or_iff_right fun hprefix => ?_
  rcases List.prefix_or_prefix_of_prefix hprefix.2 (List.prefix_append w' b) with hw | hw
  · exact h hw
  · exact h' hw

/-- Such a pattern is found first where it stands iff it is not in what comes before. -/
theorem find_key_iff (hw : c ∉ w) (a b : List Char) :
    find (c :: w) (a ++ (c :: w ++ b)) = some (size a) ↔ ¬ c :: w <:+: a := by
  rw [find_eq_some_iff]
  constructor
  · rintro ⟨a', b', hab, hsize, hfirst⟩ ⟨x, y, rfl⟩
    obtain ⟨rfl, -⟩ := eq_of_size_eq hab hsize.symm
    have hle := (hfirst x (y ++ (c :: w ++ b)) (by simp)).length_le
    simp only [List.length_append, List.length_cons] at hle
    omega
  · intro hnot
    refine ⟨a, b, rfl, rfl, fun a' b' hab => ?_⟩
    rcases List.append_eq_append_iff.1 hab with ⟨z, rfl, -⟩ | ⟨z, rfl, hz⟩
    · exact List.prefix_append a z
    · by_cases hnil : z = []
      · simp [hnil]
      · have hprefix : c :: w <+: z ++ c :: (w ++ b) := ⟨b', by simpa using hz⟩
        have hin := (key_prefix_of_append hw hnil hprefix).isInfix
        exact absurd (hin.trans (List.suffix_append a' z).isInfix) hnot

/-! ## The text around a pattern -/

theorem splitFound_eq_none_iff : splitFound pat cs = none ↔ ¬ pat <:+: cs := by
  rw [← find_eq_none_iff, splitFound, Option.bind_eq_none_iff]
  refine ⟨fun h => ?_, fun h n hn => by rw [h] at hn; cases hn⟩
  by_contra hfound
  obtain ⟨n, hn⟩ := Option.ne_none_iff_exists'.1 hfound
  obtain ⟨a, b, rfl, rfl, -⟩ := find_eq_some_iff.1 hn
  have hnone := h _ hn
  rw [splitAt_append] at hnone
  cases hnone

theorem splitFound_eq_some_iff : splitFound pat cs = some (a, b) ↔
    cs = a ++ b ∧ pat <+: b ∧ ∀ a' b', cs = a' ++ (pat ++ b') → a <+: a' := by
  rw [splitFound, Option.bind_eq_some_iff]
  constructor
  · rintro ⟨n, hn, hsplit⟩
    obtain ⟨a', b', rfl, rfl, hfirst⟩ := find_eq_some_iff.1 hn
    rw [splitAt_append] at hsplit
    cases hsplit
    exact ⟨rfl, List.prefix_append pat b', hfirst⟩
  · rintro ⟨rfl, ⟨b, rfl⟩, hfirst⟩
    exact ⟨size a, find_eq_some_iff.2 ⟨a, b, rfl, rfl, hfirst⟩, splitAt_append a _⟩

/-- A pattern is found first where it stands iff it is not in what ends before that. -/
theorem splitFound_append_iff (hpat : pat ≠ []) (a b : List Char) :
    splitFound pat (a ++ (pat ++ b)) = some (a, pat ++ b) ↔ ¬ pat <:+: (a ++ pat).dropLast := by
  have hlength := List.length_pos_iff.2 hpat
  have hinit : (a ++ pat).dropLast <+: a ++ (pat ++ b) := by
    rw [← List.append_assoc]
    exact (List.dropLast_prefix _).trans (List.prefix_append _ b)
  rw [splitFound_eq_some_iff]
  constructor
  · rintro ⟨-, -, hfirst⟩ ⟨x, y, hxy⟩
    obtain ⟨z, hz⟩ := hinit
    have hle := (hfirst x (y ++ z) (by rw [← hz, ← hxy]; simp)).length_le
    have hsize := congrArg List.length hxy
    simp only [List.length_append, List.length_dropLast] at hsize
    omega
  · intro hnot
    refine ⟨rfl, List.prefix_append pat b, fun a' b' hab => ?_⟩
    have ha' : a' ++ pat <+: a ++ (pat ++ b) := ⟨b', by rw [hab, List.append_assoc]⟩
    by_contra hlonger
    have hlt : a'.length < a.length := by
      by_contra hge
      exact hlonger (List.prefix_of_prefix_length_le (List.prefix_append a _)
        ((List.prefix_append a' pat).trans ha') (by omega))
    have hin : a' ++ pat <+: (a ++ pat).dropLast := by
      refine List.prefix_of_prefix_length_le ha' hinit ?_
      simp only [List.length_append, List.length_dropLast]
      omega
    exact hnot ((List.suffix_append a' pat).isInfix.trans hin.isInfix)

/-- Of a pattern whose first character does not come again in it, only its places in front count. -/
theorem splitFound_key_iff (hw : c ∉ w) (a b : List Char) :
    splitFound (c :: w) (a ++ (c :: w ++ b)) = some (a, c :: w ++ b) ↔ ¬ c :: w <:+: a := by
  rw [← find_key_iff hw a b, splitFound, Option.bind_eq_some_iff]
  constructor
  · rintro ⟨n, hn, hsplit⟩
    obtain ⟨-, rfl⟩ := splitAt_eq_some_iff.1 hsplit
    exact hn
  · intro hn
    exact ⟨size a, hn, splitAt_append a _⟩

end Utf8
