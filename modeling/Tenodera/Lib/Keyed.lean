import Mathlib.Data.List.Nodup

/-!
# Lists of things with keys

What is changed or taken out by its key, and what is changed or taken out by its position.
-/

namespace Keyed

variable {α κ : Type*} [DecidableEq κ] {key : α → κ} {l : List α} {i : ℕ} {a : α} {k : κ}

/-- A change by key is a change at a position iff the key is the one found there, and the change is
the same. -/
theorem map_ite_eq_modify_iff (hnodup : (l.map key).Nodup) (hi : l[i]? = some a) {f g : α → α}
    (hg : g a ≠ a) :
    l.map (fun b => if key b = k then f b else b) = l.modify i g ↔ key a = k ∧ f a = g a := by
  constructor
  · intro h
    have hget := congrArg (·[i]?) h
    simp only [List.getElem?_map, List.getElem?_modify, if_true, hi, Option.map_eq_map,
      Option.map_some, Option.some.injEq] at hget
    split_ifs at hget with hkey
    · exact ⟨hkey, hget⟩
    · exact absurd hget.symm hg
  · rintro ⟨rfl, hfg⟩
    refine List.ext_getElem? fun j => ?_
    rw [List.getElem?_map, List.getElem?_modify]
    cases hj : l[j]? with
    | none => simp
    | some b =>
      by_cases hij : i = j
      · subst hij
        rw [hi] at hj
        cases hj
        simp [hfg]
      · have hne : key b ≠ key a := by
          intro hkey
          have hlt := (List.getElem?_eq_some_iff.1 hi).1
          have hkeys : (l.map key)[i]? = (l.map key)[j]? := by
            rw [List.getElem?_map, List.getElem?_map, hi, hj, Option.map_some, Option.map_some,
              hkey]
          exact hij ((List.getElem?_inj (by simpa using hlt) hnodup).1 hkeys)
        simp [hij, hne]

/-- What is left without a key is what is left without a position iff the key is found there. -/
theorem filter_ne_eq_eraseIdx_iff (hnodup : (l.map key).Nodup) (hi : l[i]? = some a) :
    l.filter (fun b => key b ≠ k) = l.eraseIdx i ↔ key a = k := by
  obtain ⟨hlt, hget⟩ := List.getElem?_eq_some_iff.1 hi
  have hsplit : l.take i ++ a :: l.drop (i + 1) = l := by
    rw [← hget, ← List.drop_eq_getElem_cons hlt, List.take_append_drop]
  have hother : ∀ b ∈ l.take i ++ l.drop (i + 1), key b ≠ key a := by
    rw [← hsplit, List.map_append, List.map_cons] at hnodup
    have hkeys := List.nodup_middle.1 hnodup
    rw [List.nodup_cons, ← List.map_append] at hkeys
    exact fun b hb hkey => hkeys.1 (hkey ▸ List.mem_map_of_mem hb)
  rw [List.eraseIdx_eq_take_drop_succ]
  constructor
  · intro h
    by_contra hkey
    have hmem : a ∈ l.filter (fun b => key b ≠ k) :=
      List.mem_filter.2 ⟨hget ▸ List.getElem_mem hlt, by simpa using hkey⟩
    rw [h] at hmem
    exact hother a hmem rfl
  · rintro rfl
    have hfilter : l.filter (fun b => key b ≠ key a) =
        (l.take i ++ l.drop (i + 1)).filter fun b => key b ≠ key a := by
      conv_lhs => rw [← hsplit]
      rw [List.filter_append, List.filter_cons_of_neg (by simp), ← List.filter_append]
    rw [hfilter]
    exact List.filter_eq_self.2 fun b hb => by simpa using hother b hb

end Keyed
