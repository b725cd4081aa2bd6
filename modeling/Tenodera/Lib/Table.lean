import Mathlib.Data.List.AList

/-!
# Looking up after a change of a table
-/

namespace AList

variable {α β : Type*} [DecidableEq α] {s : AList fun _ : α => β} {a b : α} {x y : β}

theorem lookup_insert_eq_some_iff :
    (s.insert b y).lookup a = some x ↔ a = b ∧ y = x ∨ a ≠ b ∧ s.lookup a = some x := by
  by_cases h : a = b
  · subst h
    simp
  · simp [h, lookup_insert_ne h]

theorem lookup_erase_eq_some_iff :
    (s.erase b).lookup a = some x ↔ a ≠ b ∧ s.lookup a = some x := by
  by_cases h : a = b
  · subst h
    simp
  · simp [h, lookup_erase_ne h]

/-- What an insertion overwrites may as well be erased before. -/
theorem insert_erase_self : (s.erase a).insert a x = s.insert a x := by
  refine AList.ext ?_
  rw [entries_insert, entries_insert]
  exact congrArg _ (List.kerase_of_notMem_keys (List.notMem_keys_kerase a s.nodupKeys))

theorem erase_insert_of_notMem (h : a ∉ s) : (s.insert a x).erase a = s := by
  refine AList.ext ?_
  change (s.insert a x).entries.kerase a = s.entries
  rw [entries_insert_of_notMem h]
  exact List.kerase_cons_eq rfl

theorem insert_erase_of_ne (h : a ≠ b) : (s.erase b).insert a x = (s.insert a x).erase b := by
  refine AList.ext ?_
  rw [entries_insert]
  change _ = List.kerase b (s.insert a x).entries
  rw [entries_insert, List.kerase_cons_ne h.symm]
  exact congrArg _ (List.kerase_comm b a s.entries)

theorem exists_lookup_iff : (∃ k, s.lookup k = some x) ↔ ∃ e ∈ s.entries, e.2 = x := by
  constructor
  · rintro ⟨k, hk⟩
    exact ⟨⟨k, x⟩, mem_lookup_iff.1 hk, rfl⟩
  · rintro ⟨⟨k, y⟩, hmem, rfl⟩
    exact ⟨k, mem_lookup_iff.2 hmem⟩

/-- The entries that satisfy `p`: what `HashMap::retain` leaves. -/
def retain (s : AList fun _ : α => β) (p : α → β → Bool) : AList fun _ : α => β :=
  ⟨s.entries.filter fun e => p e.1 e.2, List.NodupKeys.sublist List.filter_sublist s.nodupKeys⟩

theorem lookup_retain_eq_some_iff {p : α → β → Bool} :
    (s.retain p).lookup a = some x ↔ s.lookup a = some x ∧ p a x := by
  rw [← Option.mem_def, ← Option.mem_def, mem_lookup_iff, mem_lookup_iff]
  exact List.mem_filter

theorem mem_retain_iff {p : α → Bool} : (a ∈ s.retain fun k _ => p k) ↔ a ∈ s ∧ p a := by
  rw [← lookup_isSome, ← lookup_isSome, Option.isSome_iff_exists, Option.isSome_iff_exists]
  simp only [lookup_retain_eq_some_iff, exists_and_right]

omit [DecidableEq α] in
/-- A table whose keys are keys of another one is not longer. -/
theorem length_entries_le {γ : Type*} {t : AList fun _ : α => γ} (h : ∀ a, a ∈ s → a ∈ t) :
    s.entries.length ≤ t.entries.length := by
  have hsub : s.keys ⊆ t.keys := fun a ha => mem_keys.1 (h a (mem_keys.2 ha))
  have hle : s.keys.length ≤ t.keys.length := (List.subperm_of_subset s.keys_nodup hsub).length_le
  simpa only [keys, List.keys, List.length_map] using hle

/-- The table with every value replaced by its image. -/
def mapValues {γ : Type*} (s : AList fun _ : α => β) (f : β → γ) : AList fun _ : α => γ :=
  ⟨s.entries.map fun e => ⟨e.1, f e.2⟩, by
    have hkeys : (s.entries.map fun e => (⟨e.1, f e.2⟩ : Σ _ : α, γ)).keys = s.entries.keys := by
      simp [List.keys]
    rw [List.NodupKeys, hkeys]
    exact s.nodupKeys⟩

theorem lookup_mapValues {γ : Type*} {f : β → γ} :
    (s.mapValues f).lookup a = (s.lookup a).map f := by
  refine Option.ext fun y => ?_
  rw [← Option.mem_def, mem_lookup_iff, Option.map_eq_some_iff]
  constructor
  · intro h
    obtain ⟨e, he, heq⟩ := List.mem_map.1 h
    cases heq
    exact ⟨e.2, mem_lookup_iff.2 he, rfl⟩
  · rintro ⟨x, hx, rfl⟩
    exact List.mem_map.2 ⟨⟨a, x⟩, mem_lookup_iff.1 hx, rfl⟩

theorem countP_insert {p : (Σ _ : α, β) → Bool} (h : a ∉ s) :
    (s.insert a x).entries.countP p = s.entries.countP p + if p ⟨a, x⟩ then 1 else 0 := by
  rw [entries_insert_of_notMem h, List.countP_cons]

theorem countP_erase {p : (Σ _ : α, β) → Bool} (h : s.lookup a = some x) :
    s.entries.countP p = (s.erase a).entries.countP p + if p ⟨a, x⟩ then 1 else 0 := by
  obtain ⟨y, l, r, hl, hs, herase⟩ :=
    List.exists_of_kerase (AList.mem_keys.1 (AList.lookup_isSome.1 (by rw [h]; rfl)))
  have hy : (⟨a, y⟩ : Σ _ : α, β) ∈ s.entries := by simp [hs]
  have hxy : y = x := Option.some.inj ((mem_lookup_iff.2 hy).symm.trans h)
  change _ = (List.kerase a s.entries).countP p + _
  rw [herase, hs, hxy, List.countP_append, List.countP_append, List.countP_cons]
  omega

theorem countP_erase_le {p : (Σ _ : α, β) → Bool} (a : α) :
    (s.erase a).entries.countP p ≤ s.entries.countP p :=
  (List.kerase_sublist a s.entries).countP_le

/-- A value under a key that is there takes the place of the old one. -/
theorem countP_insert_of_lookup {p : (Σ _ : α, β) → Bool} (h : s.lookup a = some x) (y : β) :
    (s.insert a y).entries.countP p + (if p ⟨a, x⟩ then 1 else 0) =
      s.entries.countP p + if p ⟨a, y⟩ then 1 else 0 := by
  have hnew : a ∉ s.erase a := fun hmem => (mem_erase.1 hmem).1 rfl
  rw [← insert_erase_self, countP_insert hnew, countP_erase h]
  omega

end AList
