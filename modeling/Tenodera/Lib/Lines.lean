import Tenodera.Lib.Text

/-!
# Lines and texts

`Text.linesOf` against `unlines`, which ends every line in a newline, and `bare`, which takes all
the carriage returns before a newline as part of the line terminator.
-/

namespace Text

/-- Every line, with a newline after it. -/
def unlines (ls : List (List Char)) : List Char := ls.flatMap fun l => l ++ ['\n']

/-- A line without the carriage returns at its end. -/
def bare (l : List Char) : List Char := l.rdropWhile (· = '\r')

section

variable {l cs rest : List Char} {ls : List (List Char)}

/-- A text is one line without a terminator, or a line with one and a text. -/
theorem lines_induction {P : List Char → Prop} (last : ∀ l, '\n' ∉ l → P l)
    (line : ∀ l rest, '\n' ∉ l → P rest → P (l ++ '\n' :: rest)) (cs : List Char) : P cs := by
  induction hn : cs.length using Nat.strong_induction_on generalizing cs with
  | _ n ih =>
    by_cases hmem : '\n' ∈ cs
    · obtain ⟨l, rest, rfl, hl⟩ := List.eq_append_cons_of_mem hmem
      refine line l rest hl (ih rest.length ?_ rest rfl)
      rw [← hn, List.length_append, List.length_cons]
      omega
    · exact last cs hmem

theorem linesOf_of_notMem (h : '\n' ∉ l) : linesOf l = if l = [] then [] else [l] := by
  rw [linesOf, List.splitOn_eq_singleton h]
  by_cases hl : l = [] <;> simp [hl]

theorem linesOf_append_newline (h : '\n' ∉ l) (rest : List Char) :
    linesOf (l ++ '\n' :: rest) = stripCr l :: linesOf rest := by
  have hne : rest.splitOn '\n' ≠ [] := List.splitOn_ne_nil '\n' rest
  rw [linesOf, List.splitOn_append_cons_self_of_not_mem h]
  rw [List.dropLast_cons_of_ne_nil hne, List.getLast?_cons_of_ne_nil hne, List.map_cons,
    List.cons_append]
  rfl

@[simp]
theorem linesOf_nil : linesOf [] = [] := rfl

@[simp]
theorem unlines_nil : unlines [] = [] := rfl

@[simp]
theorem unlines_cons (l : List Char) (ls : List (List Char)) :
    unlines (l :: ls) = l ++ '\n' :: unlines ls := by
  rw [unlines, List.flatMap_cons, List.append_assoc]
  rfl

theorem unlines_append (ls ls' : List (List Char)) :
    unlines (ls ++ ls') = unlines ls ++ unlines ls' :=
  List.flatMap_append

/-- The lines of a text after another one that ends in a newline. -/
theorem linesOf_append (cs rest : List Char) :
    linesOf (cs ++ '\n' :: rest) = linesOf (cs ++ ['\n']) ++ linesOf rest := by
  induction cs using lines_induction with
  | last l hl => rw [linesOf_append_newline hl, linesOf_append_newline hl, linesOf_nil,
      List.singleton_append]
  | line l cs hl ih =>
    rw [List.append_assoc, List.append_assoc, List.cons_append, List.cons_append,
      linesOf_append_newline hl, linesOf_append_newline hl, ih, List.cons_append]

theorem linesOf_unlines_append (h : ∀ l ∈ ls, '\n' ∉ l) (rest : List Char) :
    linesOf (unlines ls ++ rest) = ls.map stripCr ++ linesOf rest := by
  induction ls with
  | nil => rfl
  | cons l ls ih =>
    have hl : '\n' ∉ l := h l List.mem_cons_self
    rw [unlines_cons, List.append_assoc, List.cons_append, linesOf_append_newline hl,
      ih fun l' hl' => h l' (List.mem_cons_of_mem _ hl'), List.map_cons, List.cons_append]

theorem linesOf_unlines (h : ∀ l ∈ ls, '\n' ∉ l) : linesOf (unlines ls) = ls.map stripCr := by
  have hrest := linesOf_unlines_append h []
  rwa [List.append_nil, linesOf_nil, List.append_nil] at hrest

theorem prefix_stripCr (l : List Char) : stripCr l <+: l := by
  unfold stripCr
  split_ifs
  · exact List.dropLast_prefix l
  · exact List.prefix_refl l

theorem stripCr_append {l' : List Char} (h : l' ≠ []) (l : List Char) :
    stripCr (l ++ l') = l ++ stripCr l' := by
  rw [stripCr, List.getLast?_append_of_ne_nil _ h, List.dropLast_append_of_ne_nil h, stripCr]
  split_ifs <;> rfl

theorem stripCr_eq_self (h : l.getLast? ≠ some '\r') : stripCr l = l := if_neg h

/-- No line has a newline in it. -/
theorem newline_notMem_of_mem_linesOf (h : l ∈ linesOf cs) : '\n' ∉ l := by
  induction cs using lines_induction with
  | last l' hl' =>
    rw [linesOf_of_notMem hl'] at h
    split_ifs at h
    · cases h
    · rwa [List.mem_singleton.1 h]
  | line l' cs hl' ih =>
    rw [linesOf_append_newline hl'] at h
    rcases List.mem_cons.1 h with rfl | h
    · exact fun hmem => hl' ((prefix_stripCr l').subset hmem)
    · exact ih h

/-! ## Line terminators -/

@[simp]
theorem bare_nil : bare [] = [] := rfl

theorem bare_stripCr (l : List Char) : bare (stripCr l) = bare l := by
  unfold stripCr
  split_ifs with hlast
  · obtain ⟨l', rfl⟩ := List.getLast?_eq_some_iff.1 hlast
    rw [List.dropLast_concat, bare, bare, List.rdropWhile_concat_pos _ _ _ (by simp)]
  · rfl

theorem bare_map_stripCr (ls : List (List Char)) : (ls.map stripCr).map bare = ls.map bare := by
  rw [List.map_map]
  exact List.map_congr_left fun l _ => bare_stripCr l

/-- A newline at the end of a text that has none there changes no line. -/
theorem bare_linesOf_concat_newline (hne : cs ≠ []) (h : cs.getLast? ≠ some '\n') :
    (linesOf (cs ++ ['\n'])).map bare = (linesOf cs).map bare := by
  induction cs using lines_induction with
  | last l hl =>
    rw [linesOf_append_newline hl, linesOf_of_notMem hl, if_neg hne]
    simp [bare_stripCr]
  | line l cs hl ih =>
    have hcs : cs ≠ [] := by
      rintro rfl
      exact h List.getLast?_concat
    have hlast : cs.getLast? ≠ some '\n' := by
      rwa [List.getLast?_append, List.getLast?_cons_of_ne_nil hcs,
        Option.or_of_isSome (List.getLast?_isSome.2 hcs)] at h
    rw [List.append_assoc, List.cons_append, linesOf_append_newline hl, linesOf_append_newline hl,
      List.map_cons, List.map_cons, ih hcs hlast]

theorem bare_linesOf_unlines (h : ∀ l ∈ ls, '\n' ∉ l) :
    (linesOf (unlines ls)).map bare = ls.map bare := by
  rw [linesOf_unlines h, bare_map_stripCr]

theorem newline_notMem_of_mem_bare (h : l ∈ (linesOf cs).map bare) : '\n' ∉ l := by
  obtain ⟨l', hl', rfl⟩ := List.mem_map.1 h
  exact fun hmem => newline_notMem_of_mem_linesOf hl' ((List.rdropWhile_prefix _ _).subset hmem)

/-- A text and one behind it on a line of its own have the lines of both. -/
theorem bare_linesOf_append (cs rest : List Char) :
    (linesOf ((if cs ≠ [] ∧ cs.getLast? ≠ some '\n' then cs ++ ['\n'] else cs) ++ rest)).map bare =
      (linesOf cs).map bare ++ (linesOf rest).map bare := by
  split_ifs with hopen
  · rw [List.append_assoc, List.singleton_append, linesOf_append, List.map_append,
      bare_linesOf_concat_newline hopen.1 hopen.2]
  · rw [not_and_or, not_not, not_not] at hopen
    rcases hopen with rfl | hended
    · rfl
    · obtain ⟨cs', rfl⟩ := List.getLast?_eq_some_iff.1 hended
      rw [List.append_assoc, List.singleton_append, linesOf_append, List.map_append]

/-- Lines that are joined by newlines, with one at the end. -/
theorem intercalate_newline (h : ls ≠ []) : ['\n'].intercalate ls ++ ['\n'] = unlines ls := by
  induction ls with
  | nil => exact absurd rfl h
  | cons l ls ih =>
    by_cases hnil : ls = []
    · rw [hnil, List.intercalate_singleton, unlines_cons, unlines_nil]
    · rw [List.intercalate_cons_of_ne_nil hnil, unlines_cons, List.append_assoc, ih hnil,
        List.append_assoc, List.singleton_append]

/-- Lines that are joined by newlines, with none at the end. -/
theorem intercalate_newline_concat (ls : List (List Char)) (l : List Char) :
    ['\n'].intercalate (ls ++ [l]) = unlines ls ++ l := by
  induction ls with
  | nil => exact List.intercalate_singleton
  | cons l' ls ih =>
    rw [List.cons_append, List.intercalate_cons_of_ne_nil (by simp), ih, unlines_cons]
    simp

theorem linesOf_eq_nil_iff : linesOf cs = [] ↔ cs = [] := by
  induction cs using lines_induction with
  | last l hl =>
    rw [linesOf_of_notMem hl]
    split_ifs with hnil <;> simp [hnil]
  | line l cs hl ih =>
    rw [linesOf_append_newline hl]
    simp

/-- The last line of a text that does not end in a newline is not empty. -/
theorem ne_nil_of_getLast?_linesOf (hcs : cs.getLast? ≠ some '\n')
    (h : (linesOf cs).getLast? = some l) : l ≠ [] := by
  induction cs using lines_induction with
  | last l' hl' =>
    rw [linesOf_of_notMem hl'] at h
    split_ifs at h with hnil
    · cases h
    · cases h
      exact hnil
  | line l' cs hl' ih =>
    have hne : cs ≠ [] := by
      rintro rfl
      exact hcs List.getLast?_concat
    have hlast : cs.getLast? ≠ some '\n' := by
      rwa [List.getLast?_append, List.getLast?_cons_of_ne_nil hne,
        Option.or_of_isSome (List.getLast?_isSome.2 hne)] at hcs
    rw [linesOf_append_newline hl'] at h
    by_cases hnone : linesOf cs = []
    · exact absurd (linesOf_eq_nil_iff.1 hnone) hne
    · rw [List.getLast?_cons_of_ne_nil hnone] at h
      exact ih hlast h

theorem stripCr_eq_self_iff : stripCr l = l ↔ l.getLast? ≠ some '\r' := by
  refine ⟨fun h hlast => ?_, stripCr_eq_self⟩
  obtain ⟨l, rfl⟩ := List.getLast?_eq_some_iff.1 hlast
  rw [stripCr, if_pos hlast, List.dropLast_concat] at h
  simp at h

theorem map_stripCr_eq_self_iff : ls.map stripCr = ls ↔ ∀ l ∈ ls, l.getLast? ≠ some '\r' := by
  conv_lhs => rw [← List.map_id ls, List.map_map]
  rw [List.map_inj_left]
  exact forall₂_congr fun l _ => stripCr_eq_self_iff

/-- Lines are determined by the text in which a newline ends each of them. -/
theorem unlines_inj {ls' : List (List Char)} (h : ∀ l ∈ ls, '\n' ∉ l) (h' : ∀ l ∈ ls', '\n' ∉ l)
    (heq : unlines ls = unlines ls') : ls = ls' := by
  have hsplit {ls : List (List Char)} (h : ∀ l ∈ ls, '\n' ∉ l) :
      (unlines ls).splitOn '\n' = ls ++ [[]] := by
    have hfree : ∀ l ∈ ls ++ [[]], '\n' ∉ l := by
      intro l hl
      rcases List.mem_append.1 hl with hl | hl
      · exact h l hl
      · rw [List.mem_singleton.1 hl]
        exact List.not_mem_nil
    rw [← List.append_nil (unlines ls), ← intercalate_newline_concat,
      List.splitOn_intercalate '\n' hfree (by simp)]
  have hsame := hsplit h
  rw [heq, hsplit h'] at hsame
  exact (List.append_cancel_right hsame).symm

end

/-! ## Lines read one by one -/

section

variable {α β : Type*} {f g : α → Option β} {l : List α}

/-- A reader that makes nothing of an empty line and leaves the end of a line out of account finds
in the lines what it finds between the newlines. -/
theorem filterMap_linesOf {f : List Char → Option β} (hnil : f [] = none)
    (hcr : ∀ l, f (stripCr l) = f l) (cs : List Char) :
    (linesOf cs).filterMap f = (cs.splitOn '\n').filterMap f := by
  have hlast (l : List Char) :
      ((some l).filter (· ≠ [])).toList.filterMap f = [l].filterMap f := by
    by_cases hl : l = []
    · simp [hl, hnil]
    · rw [Option.filter_some_pos (by simpa using hl)]
      rfl
  obtain ⟨parts, l, hparts⟩ :=
    (List.eq_nil_or_concat' (cs.splitOn '\n')).resolve_left (List.splitOn_ne_nil '\n' cs)
  have hcomp : f ∘ stripCr = f := funext hcr
  rw [linesOf, hparts, List.dropLast_concat, List.getLast?_concat, List.filterMap_append, hlast,
    List.filterMap_map, hcomp, ← List.filterMap_append]

theorem length_filterMap_le (h : ∀ a ∈ l, g a = none → f a = none) :
    (l.filterMap f).length ≤ (l.filterMap g).length := by
  induction l with
  | nil => exact Nat.le_refl _
  | cons a l ih =>
    obtain ⟨ha, hl⟩ := List.forall_mem_cons.1 h
    have hlen : (l.filterMap f).length ≤ (l.filterMap g).length := ih hl
    cases hg : g a with
    | none => rwa [List.filterMap_cons_none hg, List.filterMap_cons_none (ha hg)]
    | some b =>
      rw [List.filterMap_cons_some hg, List.filterMap_cons, List.length_cons]
      split
      · omega
      · rw [List.length_cons]
        omega

/-- What is left out of the second list is left out of the first, so that none can be in the place
of another one. -/
theorem filterMap_eq_iff (h : ∀ a ∈ l, g a = none → f a = none) :
    l.filterMap f = l.filterMap g ↔ ∀ a ∈ l, f a = g a := by
  refine ⟨fun heq => ?_, fun heq => List.filterMap_congr heq⟩
  induction l with
  | nil => exact List.forall_mem_nil _
  | cons a l ih =>
    obtain ⟨ha, hl⟩ := List.forall_mem_cons.1 h
    cases hg : g a with
    | none =>
      rw [List.filterMap_cons_none (ha hg), List.filterMap_cons_none hg] at heq
      exact List.forall_mem_cons.2 ⟨(ha hg).trans hg.symm, ih hl heq⟩
    | some b =>
      cases hf : f a with
      | none =>
        have hlen := length_filterMap_le hl
        rw [List.filterMap_cons_none hf, List.filterMap_cons_some hg] at heq
        rw [heq, List.length_cons] at hlen
        omega
      | some b' =>
        rw [List.filterMap_cons_some hf, List.filterMap_cons_some hg, List.cons_eq_cons] at heq
        rw [List.forall_mem_cons, hf, hg, heq.1]
        exact ⟨rfl, ih hl heq.2⟩

end

end Text
