import Mathlib.Data.List.Perm.Basic
import Mathlib.Order.Defs.LinearOrder
import Mathlib.Order.Lattice

/-!
# Ordered maps as lists

A `BTreeMap` as the list of its entries, which are sorted by their keys.
-/

namespace SortedMap

variable {α β : Type*} [LinearOrder α]

/-- `BTreeMap::insert`: an entry that has the key is overwritten. -/
def insert (k : α) (v : β) : List (α × β) → List (α × β)
  | [] => [(k, v)]
  | e :: es =>
    if k < e.1 then (k, v) :: e :: es
    else if k = e.1 then (k, v) :: es
    else e :: insert k v es

/-- The map that the entries make when they are inserted in order. -/
def ofList (es : List (α × β)) : List (α × β) := es.foldl (fun m e => insert e.1 e.2 m) []

def Sorted (es : List (α × β)) : Prop := es.Pairwise fun a b => a.1 < b.1

variable {k : α} {v : β} {e : α × β} {es m : List (α × β)}

theorem mem_insert (h : e ∈ insert k v es) : e = (k, v) ∨ e ∈ es := by
  induction es with
  | nil => exact .inl (List.mem_singleton.1 h)
  | cons e' es ih =>
    unfold insert at h
    split_ifs at h
    · exact List.mem_cons.1 h
    · exact (List.mem_cons.1 h).imp id (List.mem_cons_of_mem _)
    · rcases List.mem_cons.1 h with rfl | h
      · exact .inr List.mem_cons_self
      · exact (ih h).imp id (List.mem_cons_of_mem _)

theorem Sorted.insert (h : Sorted es) (k : α) (v : β) : Sorted (insert k v es) := by
  induction es with
  | nil => exact List.pairwise_singleton _ _
  | cons e es ih =>
    obtain ⟨hlt, hes⟩ := List.pairwise_cons.1 h
    unfold SortedMap.insert
    split_ifs with hk heq
    · refine List.pairwise_cons.2 ⟨fun e' he' => ?_, h⟩
      rcases List.mem_cons.1 he' with rfl | he'
      · exact hk
      · exact lt_trans hk (hlt e' he')
    · exact List.pairwise_cons.2 ⟨fun e' he' => heq ▸ hlt e' he', hes⟩
    · refine List.pairwise_cons.2 ⟨fun e' he' => ?_, ih hes⟩
      rcases mem_insert he' with rfl | he'
      · exact lt_of_le_of_ne (not_lt.1 hk) (Ne.symm heq)
      · exact hlt e' he'

theorem insert_of_last (h : ∀ e ∈ es, e.1 < k) : insert k v es = es ++ [(k, v)] := by
  induction es with
  | nil => rfl
  | cons e es ih =>
    have he : e.1 < k := h e List.mem_cons_self
    have hes : insert k v es = es ++ [(k, v)] := ih fun e' he' => h e' (List.mem_cons_of_mem _ he')
    rw [insert, if_neg (lt_asymm he), if_neg (ne_of_gt he), hes]
    rfl

theorem insert_perm (h : ∀ e ∈ es, e.1 ≠ k) : (insert k v es).Perm ((k, v) :: es) := by
  induction es with
  | nil => exact .refl _
  | cons e es ih =>
    have he : e.1 ≠ k := h e List.mem_cons_self
    have hes : (insert k v es).Perm ((k, v) :: es) :=
      ih fun e' he' => h e' (List.mem_cons_of_mem _ he')
    unfold insert
    rw [if_neg he.symm]
    split_ifs
    · exact .refl _
    · exact (hes.cons e).trans (.swap _ _ _)

/-! ## Whole lists -/

theorem sorted_foldl (h : Sorted m) : Sorted (es.foldl (fun m e => insert e.1 e.2 m) m) := by
  induction es generalizing m with
  | nil => exact h
  | cons e es ih => exact ih (h.insert e.1 e.2)

theorem sorted_ofList (es : List (α × β)) : Sorted (ofList es) := sorted_foldl List.Pairwise.nil

theorem mem_foldl (h : e ∈ es.foldl (fun m e => insert e.1 e.2 m) m) : e ∈ m ∨ e ∈ es := by
  induction es generalizing m with
  | nil => exact .inl h
  | cons e' es ih =>
    rcases ih h with h | h
    · rcases mem_insert h with rfl | h
      · exact .inr List.mem_cons_self
      · exact .inl h
    · exact .inr (List.mem_cons_of_mem _ h)

theorem mem_of_mem_ofList (h : e ∈ ofList es) : e ∈ es :=
  (mem_foldl h).resolve_left List.not_mem_nil

theorem foldl_of_sorted (h : Sorted (m ++ es)) :
    es.foldl (fun m e => insert e.1 e.2 m) m = m ++ es := by
  induction es generalizing m with
  | nil => exact (List.append_nil m).symm
  | cons e es ih =>
    have hlast : insert e.1 e.2 m = m ++ [e] :=
      insert_of_last fun e' he' => (List.pairwise_append.1 h).2.2 e' he' e List.mem_cons_self
    rw [List.foldl_cons, hlast, ih (by rwa [List.append_assoc]), List.append_assoc]
    rfl

/-- A sorted list is the map that it makes. -/
theorem ofList_of_sorted (h : Sorted es) : ofList es = es := foldl_of_sorted h

theorem foldl_perm (h : (m ++ es).Pairwise fun a b => a.1 ≠ b.1) :
    (es.foldl (fun m e => insert e.1 e.2 m) m).Perm (m ++ es) := by
  induction es generalizing m with
  | nil => rw [List.append_nil]; exact .refl _
  | cons e es ih =>
    have hperm : (insert e.1 e.2 m ++ es).Perm (m ++ e :: es) := by
      have hfresh : (insert e.1 e.2 m).Perm (e :: m) :=
        insert_perm fun e' he' => (List.pairwise_append.1 h).2.2 e' he' e List.mem_cons_self
      exact (hfresh.append_right es).trans List.perm_middle.symm
    exact (ih (hperm.symm.pairwise h Ne.symm)).trans hperm

/-- Without repeated keys the map has the entries of the list. -/
theorem ofList_perm (h : es.Pairwise fun a b => a.1 ≠ b.1) : (ofList es).Perm es := foldl_perm h

end SortedMap
