import Mathlib.Data.List.Basic
import Mathlib.Data.Nat.Notation
import Mathlib.Logic.Function.Basic

/-!
# Descriptor numbers

A process reaches what it has opened through numbers, and a number that was closed may be handed out
again for something else.  `Owns` is the discipline of owned descriptors: every number has one
holder, and refers to something fit for it.  `Tracks` is about the others, numbers that were looked
up and are used later: `Tracks.turn_eq_iff` says when such a number still means what it did.
-/

/-- What the numbers refer to; objects are counted in the order in which they are opened. -/
structure Descriptors where
  refersTo : ℕ → Option ℕ
  /-- How often a number was handed out. -/
  turn : ℕ → ℕ
  /-- How many objects were opened. -/
  opened : ℕ

/-- A number that was looked up: what it referred to, its turn, and how many objects had been
opened. -/
structure Seen where
  number : ℕ
  object : Option ℕ
  turn : ℕ
  opened : ℕ

namespace Descriptors

def empty : Descriptors := ⟨fun _ => none, fun _ => 0, 0⟩

/-- A new object, under all of the numbers. -/
def openAt (d : Descriptors) (numbers : List ℕ) : Descriptors where
  refersTo n := if n ∈ numbers then some d.opened else d.refersTo n
  turn n := if n ∈ numbers then d.turn n + 1 else d.turn n
  opened := d.opened + 1

/-- An owned descriptor, if there is one, is dropped. -/
def drop (d : Descriptors) (number : Option ℕ) : Descriptors :=
  { d with refersTo := fun n => if number = some n then none else d.refersTo n }

def look (d : Descriptors) (number : ℕ) : Seen :=
  ⟨number, d.refersTo number, d.turn number, d.opened⟩

/-- No number refers to an object that is still to be opened. -/
def Bounded (d : Descriptors) : Prop := ∀ n o, d.refersTo n = some o → o < d.opened

variable {d : Descriptors} {numbers : List ℕ} {number : Option ℕ} {n o : ℕ}

@[simp]
theorem opened_openAt : (d.openAt numbers).opened = d.opened + 1 := rfl

@[simp]
theorem opened_drop : (d.drop number).opened = d.opened := rfl

@[simp]
theorem turn_drop : (d.drop number).turn = d.turn := rfl

theorem refersTo_openAt_of_mem (h : n ∈ numbers) :
    (d.openAt numbers).refersTo n = some d.opened := if_pos h

theorem refersTo_openAt_of_notMem (h : n ∉ numbers) :
    (d.openAt numbers).refersTo n = d.refersTo n := if_neg h

theorem refersTo_drop_of_ne (h : number ≠ some n) : (d.drop number).refersTo n = d.refersTo n :=
  if_neg h

theorem refersTo_of_drop (h : (d.drop number).refersTo n = some o) : d.refersTo n = some o := by
  simp only [drop] at h
  split_ifs at h
  exact h

theorem Bounded.openAt (h : d.Bounded) : (d.openAt numbers).Bounded := by
  intro n o ho
  by_cases hn : n ∈ numbers
  · rw [refersTo_openAt_of_mem hn] at ho
    obtain rfl := Option.some.inj ho
    exact Nat.lt_succ_self d.opened
  · rw [refersTo_openAt_of_notMem hn] at ho
    exact Nat.lt_succ_of_lt (h n o ho)

theorem Bounded.drop (h : d.Bounded) : (d.drop number).Bounded :=
  fun n o ho => h n o (refersTo_of_drop ho)

/-! ## Owned numbers -/

/-- Every number that is held refers to an object fit for its holder, and has no other holder. -/
structure Owns {H : Type*} (d : Descriptors) (held : H → Option ℕ) (Fit : H → ℕ → Prop) :
    Prop where
  refers : ∀ k n, held k = some n → ∃ o, d.refersTo n = some o ∧ Fit k o
  unique : ∀ k k' n, held k = some n → held k' = some n → k = k'

section

variable {H : Type*} {held held' : H → Option ℕ} {Fit Fit' : H → ℕ → Prop}

/-- Numbers are handed over along `f`, and one may be dropped that nobody holds any longer. -/
theorem Owns.drop {f : H → H} (h : Owns d held Fit) (hf : Function.Injective f)
    (hheld : ∀ k n, held' k = some n → held (f k) = some n ∧ number ≠ some n)
    (hFit : ∀ k n o, held' k = some n → Fit (f k) o → Fit' k o) :
    Owns (d.drop number) held' Fit' := by
  constructor
  · intro k n hn
    obtain ⟨hold, hne⟩ := hheld k n hn
    obtain ⟨o, ho, hfit⟩ := h.refers (f k) n hold
    exact ⟨o, (refersTo_drop_of_ne hne).trans ho, hFit k n o hn hfit⟩
  · intro k k' n hk hk'
    exact hf (h.unique (f k) (f k') n (hheld k n hk).1 (hheld k' n hk').1)

theorem Owns.ne_of_free (h : Owns d held Fit) (hfree : d.refersTo n = none) (k : H) :
    held k ≠ some n := by
  intro hk
  obtain ⟨o, ho, -⟩ := h.refers k n hk
  rw [hfree] at ho
  cases ho

/-- Each number of a new object goes to one holder. -/
theorem Owns.openAt (h : Owns d held Fit)
    (hold : ∀ k n, held' k = some n → n ∉ numbers → held k = some n)
    (hnew : ∀ k n, held' k = some n → n ∈ numbers → Fit' k d.opened)
    (hunique : ∀ k k' n, n ∈ numbers → held' k = some n → held' k' = some n → k = k')
    (hFit : ∀ k o, Fit k o → Fit' k o) : Owns (d.openAt numbers) held' Fit' := by
  constructor
  · intro k n hk
    by_cases hn : n ∈ numbers
    · exact ⟨d.opened, refersTo_openAt_of_mem hn, hnew k n hk hn⟩
    · obtain ⟨o, ho, hfit⟩ := h.refers k n (hold k n hk hn)
      exact ⟨o, (refersTo_openAt_of_notMem hn).trans ho, hFit k o hfit⟩
  · intro k k' n hk hk'
    by_cases hn : n ∈ numbers
    · exact hunique k k' n hn hk hk'
    · exact h.unique k k' n (hold k n hk hn) (hold k' n hk' hn)

end

/-! ## Numbers used after they were looked up -/

/-- Since the look-up the number has kept its object or lost it, or it was handed out anew and
refers, if to anything, to a later object. -/
structure Tracks (d : Descriptors) (seen : Seen) : Prop where
  object_lt : ∀ o, seen.object = some o → o < seen.opened
  opened_le : seen.opened ≤ d.opened
  turn_le : seen.turn ≤ d.turn seen.number
  same : seen.turn = d.turn seen.number →
    ∀ o, d.refersTo seen.number = some o → seen.object = some o
  later : seen.turn < d.turn seen.number → ∀ o, d.refersTo seen.number = some o → seen.opened ≤ o

variable {seen : Seen}

theorem tracks_look (h : d.Bounded) (n : ℕ) : d.Tracks (d.look n) where
  object_lt := h n
  opened_le := Nat.le_refl d.opened
  turn_le := Nat.le_refl (d.turn n)
  same _ _ ho := ho
  later hlt := absurd hlt (Nat.lt_irrefl (d.turn n))

theorem Tracks.openAt (h : d.Tracks seen) : (d.openAt numbers).Tracks seen := by
  have hopened : seen.opened ≤ d.opened + 1 := Nat.le_succ_of_le h.opened_le
  by_cases hn : seen.number ∈ numbers
  · have hturn : (d.openAt numbers).turn seen.number = d.turn seen.number + 1 := if_pos hn
    have hle := h.turn_le
    refine ⟨h.object_lt, hopened, ?_, fun heq => ?_, fun _ o ho => ?_⟩
    · omega
    · omega
    · rw [refersTo_openAt_of_mem hn] at ho
      obtain rfl := Option.some.inj ho
      exact h.opened_le
  · have hturn : (d.openAt numbers).turn seen.number = d.turn seen.number := if_neg hn
    have hrefers := refersTo_openAt_of_notMem (d := d) hn
    refine ⟨h.object_lt, hopened, ?_, ?_, ?_⟩
    · rw [hturn]
      exact h.turn_le
    · rw [hturn, hrefers]
      exact h.same
    · rw [hturn, hrefers]
      exact h.later

theorem Tracks.drop (h : d.Tracks seen) : (d.drop number).Tracks seen where
  object_lt := h.object_lt
  opened_le := h.opened_le
  turn_le := h.turn_le
  same heq o ho := h.same heq o (refersTo_of_drop ho)
  later hlt o ho := h.later hlt o (refersTo_of_drop ho)

/-- An open number is in the turn it was looked up in iff it refers to an object of that time. -/
theorem Tracks.turn_eq_iff (h : d.Tracks seen) (ho : d.refersTo seen.number = some o) :
    d.turn seen.number = seen.turn ↔ o < seen.opened := by
  constructor
  · intro heq
    exact h.object_lt o (h.same heq.symm o ho)
  · intro hlt
    by_contra hne
    have hturn : seen.turn < d.turn seen.number := Nat.lt_of_le_of_ne h.turn_le (Ne.symm hne)
    exact absurd (h.later hturn o ho) (Nat.not_le.2 hlt)

end Descriptors
