import Mathlib.Data.List.Basic

/-!
# Programs that ask their environment for operations

`Prog Op Reply α` is a program that asks for operations, one after the other, goes on with the
replies, and ends with an `α`.  `Runs` are the ways it can go, over all replies; `Asks` and
`Returns` say which operations and which results occur in them, with one rule for each construct.
`Only P` says that every operation satisfies `P`, and `runOn` is the one run that a handler of the
operations gives on a state.
-/

namespace Effect

inductive Prog (Op : Type) (Reply : Op → Type) (α : Type)
  | pure (a : α)
  | ask (o : Op) (next : Reply o → Prog Op Reply α)

variable {Op : Type} {Reply : Op → Type} {α β : Type}

namespace Prog

def bind : Prog Op Reply α → (α → Prog Op Reply β) → Prog Op Reply β
  | pure a, f => f a
  | ask o next, f => ask o fun r => (next r).bind f

instance : Monad (Prog Op Reply) where
  pure := pure
  bind := bind

/-- The operation alone, with its reply as the result. -/
def perform (o : Op) : Prog Op Reply (Reply o) := ask o pure

/-- The program can go this way: these operations, in order, and this result. -/
def Runs : Prog Op Reply α → List Op → α → Prop
  | pure a, os, b => os = [] ∧ a = b
  | ask o next, os, b => ∃ r rest, os = o :: rest ∧ (next r).Runs rest b

/-- The program asks for the operation, for some replies. -/
def Asks : Prog Op Reply α → Op → Prop
  | pure _, _ => False
  | ask o next, o' => o' = o ∨ ∃ r, (next r).Asks o'

/-- The program ends with the result, for some replies. -/
def Returns : Prog Op Reply α → α → Prop
  | pure a, b => b = a
  | ask _ next, b => ∃ r, (next r).Returns b

/-- The program asks for the operation when the replies before satisfy `R`. -/
def AsksIf (R : ∀ o, Reply o → Prop) : Prog Op Reply α → Op → Prop
  | pure _, _ => False
  | ask o next, o' => o' = o ∨ ∃ r, R o r ∧ (next r).AsksIf R o'

/-- The program ends with the result when its replies satisfy `R`. -/
def ReturnsIf (R : ∀ o, Reply o → Prop) : Prog Op Reply α → α → Prop
  | pure a, b => b = a
  | ask o next, b => ∃ r, R o r ∧ (next r).ReturnsIf R b

variable {p : Prog Op Reply α} {f : α → Prog Op Reply β} {o : Op} {P : Op → Prop}

/-! ## Which operations a program asks for -/

@[simp]
theorem asks_pure (a : α) (o : Op) : (Pure.pure a : Prog Op Reply α).Asks o ↔ False := Iff.rfl

@[simp]
theorem returns_pure (a b : α) : (Pure.pure a : Prog Op Reply α).Returns b ↔ b = a := Iff.rfl

@[simp]
theorem asks_perform (o o' : Op) :
    (perform o : Prog Op Reply _).Asks o' ↔ o' = o := by
  simp [perform, Asks]

@[simp]
theorem returns_perform (o : Op) (r : Reply o) : (perform o : Prog Op Reply _).Returns r := ⟨r, rfl⟩

theorem asks_bind (p : Prog Op Reply α) (f : α → Prog Op Reply β) (o : Op) :
    (p >>= f).Asks o ↔ p.Asks o ∨ ∃ a, p.Returns a ∧ (f a).Asks o := by
  induction p with
  | pure a => simp [Bind.bind, bind, Asks, Returns]
  | ask o' next ih =>
    change (_ ∨ ∃ r, (next r >>= f).Asks o) ↔ (_ ∨ ∃ r, (next r).Asks o) ∨ _
    simp only [ih, exists_or, or_assoc, Returns]
    rw [exists_comm]
    simp only [exists_and_right]

theorem returns_bind (p : Prog Op Reply α) (f : α → Prog Op Reply β) (b : β) :
    (p >>= f).Returns b ↔ ∃ a, p.Returns a ∧ (f a).Returns b := by
  induction p with
  | pure a => simp [Bind.bind, bind, Returns]
  | ask o next ih =>
    change (∃ r, (next r >>= f).Returns b) ↔ _
    simp only [ih, Returns]
    rw [exists_comm]
    simp only [exists_and_right]

theorem exists_returns [∀ o, Nonempty (Reply o)] (p : Prog Op Reply α) : ∃ a, p.Returns a := by
  induction p with
  | pure a => exact ⟨a, rfl⟩
  | ask o next ih =>
    obtain ⟨r⟩ := ‹∀ o, Nonempty (Reply o)› o
    obtain ⟨a, ha⟩ := ih r
    exact ⟨a, r, ha⟩

theorem exists_runs_of_returns {a : α} (h : p.Returns a) : ∃ os, p.Runs os a := by
  induction p with
  | pure a' => exact ⟨[], rfl, Eq.symm h⟩
  | ask o next ih =>
    obtain ⟨r, h⟩ := h
    obtain ⟨os, hos⟩ := ih r h
    exact ⟨o :: os, r, os, rfl, hos⟩

theorem Runs.asks {os : List Op} {a : α} (h : p.Runs os a) (ho : o ∈ os) : p.Asks o := by
  induction p generalizing os with
  | pure a' =>
    obtain ⟨rfl, -⟩ := h
    cases ho
  | ask o' next ih =>
    obtain ⟨r, rest, rfl, h⟩ := h
    rcases List.mem_cons.1 ho with rfl | ho
    · exact Or.inl rfl
    · exact Or.inr ⟨r, ih r h ho⟩

/-- What a program asks for is what occurs in one of its runs. -/
theorem asks_iff_exists_runs [∀ o, Nonempty (Reply o)] :
    p.Asks o ↔ ∃ os a, p.Runs os a ∧ o ∈ os := by
  refine ⟨fun h => ?_, fun ⟨_, _, h, ho⟩ => h.asks ho⟩
  induction p with
  | pure _ => cases h
  | ask o' next ih =>
    rcases h with rfl | ⟨r, h⟩
    · obtain ⟨r⟩ := ‹∀ o, Nonempty (Reply o)› o
      obtain ⟨a, ha⟩ := (next r).exists_returns
      obtain ⟨os, hos⟩ := exists_runs_of_returns ha
      exact ⟨o :: os, a, ⟨r, os, rfl, hos⟩, List.mem_cons_self⟩
    · obtain ⟨os, a, hos, ho⟩ := ih r h
      exact ⟨o' :: os, a, ⟨r, os, rfl, hos⟩, List.mem_cons_of_mem _ ho⟩

/-! ## Programs whose replies satisfy a predicate -/

section

variable {R : ∀ o, Reply o → Prop}

@[simp]
theorem asksIf_pure (a : α) (o : Op) : (Pure.pure a : Prog Op Reply α).AsksIf R o ↔ False := Iff.rfl

@[simp]
theorem returnsIf_pure (a b : α) : (Pure.pure a : Prog Op Reply α).ReturnsIf R b ↔ b = a := Iff.rfl

@[simp]
theorem asksIf_perform (o o' : Op) : (perform o : Prog Op Reply _).AsksIf R o' ↔ o' = o := by
  simp [perform, AsksIf]

@[simp]
theorem returnsIf_perform (o : Op) (r : Reply o) :
    (perform o : Prog Op Reply _).ReturnsIf R r ↔ R o r := by
  simp [perform, ReturnsIf]

theorem asksIf_bind (p : Prog Op Reply α) (f : α → Prog Op Reply β) (o : Op) :
    (p >>= f).AsksIf R o ↔ p.AsksIf R o ∨ ∃ a, p.ReturnsIf R a ∧ (f a).AsksIf R o := by
  induction p with
  | pure a => simp [Bind.bind, bind, AsksIf, ReturnsIf]
  | ask o' next ih =>
    change (_ ∨ ∃ r, R o' r ∧ (next r >>= f).AsksIf R o) ↔
      (_ ∨ ∃ r, R o' r ∧ (next r).AsksIf R o) ∨ _
    simp only [ih, and_or_left, exists_or, or_assoc, ReturnsIf]
    refine or_congr_right (or_congr_right ⟨?_, ?_⟩)
    · rintro ⟨r, hr, a, ha, h⟩
      exact ⟨a, ⟨r, hr, ha⟩, h⟩
    · rintro ⟨a, ⟨r, hr, ha⟩, h⟩
      exact ⟨r, hr, a, ha, h⟩

theorem returnsIf_bind (p : Prog Op Reply α) (f : α → Prog Op Reply β) (b : β) :
    (p >>= f).ReturnsIf R b ↔ ∃ a, p.ReturnsIf R a ∧ (f a).ReturnsIf R b := by
  induction p with
  | pure a => simp [Bind.bind, bind, ReturnsIf]
  | ask o next ih =>
    change (∃ r, R o r ∧ (next r >>= f).ReturnsIf R b) ↔ _
    simp only [ih, ReturnsIf]
    constructor
    · rintro ⟨r, hr, a, ha, h⟩
      exact ⟨a, ⟨r, hr, ha⟩, h⟩
    · rintro ⟨a, ⟨r, hr, ha⟩, h⟩
      exact ⟨r, hr, a, ha, h⟩

/-- What a program asks for under a condition on the replies, it asks for. -/
theorem AsksIf.asks (h : p.AsksIf R o) : p.Asks o := by
  induction p with
  | pure _ => cases h
  | ask o' next ih =>
    rcases h with rfl | ⟨r, -, h⟩
    · exact .inl rfl
    · exact .inr ⟨r, ih r h⟩

theorem asksIf_true_iff : p.AsksIf (fun _ _ => True) o ↔ p.Asks o := by
  induction p with
  | pure _ => exact Iff.rfl
  | ask o' next ih => simp only [AsksIf, Asks, ih, true_and]

theorem ReturnsIf.returns {a : α} (h : p.ReturnsIf R a) : p.Returns a := by
  induction p with
  | pure _ => exact h
  | ask o' next ih =>
    obtain ⟨r, -, h⟩ := h
    exact ⟨r, ih r h⟩

end

/-! ## Programs on a state -/

section

variable {σ : Type} {exec : ∀ o, σ → Reply o × σ}

/-- The run of the program from a state: the handler replies to an operation and says what comes
after it. -/
def runOn (exec : ∀ o, σ → Reply o × σ) : Prog Op Reply α → σ → α × σ
  | pure a, s => (a, s)
  | ask o next, s => (next (exec o s).1).runOn exec (exec o s).2

@[simp]
theorem runOn_pure (a : α) (s : σ) : (Pure.pure a : Prog Op Reply α).runOn exec s = (a, s) := rfl

@[simp]
theorem runOn_perform (o : Op) (s : σ) : (perform o : Prog Op Reply _).runOn exec s = exec o s :=
  rfl

@[simp]
theorem runOn_bind (p : Prog Op Reply α) (f : α → Prog Op Reply β) (s : σ) :
    (p >>= f).runOn exec s = (f (p.runOn exec s).1).runOn exec (p.runOn exec s).2 := by
  induction p generalizing s with
  | pure a => rfl
  | ask o next ih => exact ih (exec o s).1 (exec o s).2

end

/-! ## Programs whose operations all satisfy a predicate -/

/-- Every operation that the program asks for satisfies `P`. -/
def Only (P : Op → Prop) (p : Prog Op Reply α) : Prop := ∀ o, p.Asks o → P o

theorem only_iff_runs [∀ o, Nonempty (Reply o)] :
    p.Only P ↔ ∀ os a, p.Runs os a → ∀ o ∈ os, P o := by
  refine ⟨fun h os a hos o ho => h o (hos.asks ho), fun h o ho => ?_⟩
  obtain ⟨os, a, hos, hmem⟩ := asks_iff_exists_runs.1 ho
  exact h os a hos o hmem

@[simp]
theorem only_pure (a : α) : (Pure.pure a : Prog Op Reply α).Only P := fun _ h => h.elim

@[simp]
theorem only_perform : (perform o : Prog Op Reply _).Only P ↔ P o := by
  simp [Only]

theorem only_bind_iff :
    (p >>= f).Only P ↔ p.Only P ∧ ∀ a, p.Returns a → (f a).Only P := by
  simp only [Only, asks_bind, or_imp, forall_and, forall_exists_index, and_imp]
  exact and_congr_right' ⟨fun h a ha o ho => h o a ha ho, fun h o a ha ho => h a ha o ho⟩

theorem Only.bind (hp : p.Only P) (hf : ∀ a, (f a).Only P) : (p >>= f).Only P :=
  only_bind_iff.2 ⟨hp, fun a _ => hf a⟩

theorem Only.ite {c : Prop} [Decidable c] {q : Prog Op Reply α} (hp : c → p.Only P)
    (hq : ¬ c → q.Only P) : (if c then p else q).Only P := by
  split_ifs with hc
  · exact hp hc
  · exact hq hc

theorem Only.forM {l : List β} {g : β → Prog Op Reply PUnit} (h : ∀ x ∈ l, (g x).Only P) :
    (l.forM g).Only P := by
  induction l with
  | nil => exact only_pure _
  | cons x l ih =>
    exact (h x List.mem_cons_self).bind fun _ => ih fun y hy => h y (List.mem_cons_of_mem _ hy)

theorem Only.findM? {l : List α} {g : α → Prog Op Reply Bool} (h : ∀ x ∈ l, (g x).Only P) :
    (l.findM? g).Only P := by
  induction l with
  | nil => exact only_pure _
  | cons x l ih =>
    refine (h x List.mem_cons_self).bind fun b => ?_
    cases b
    · exact ih fun y hy => h y (List.mem_cons_of_mem _ hy)
    · exact only_pure _

theorem mem_of_returns_findM? {l : List α} {g : α → Prog Op Reply Bool} {a : α}
    (h : (l.findM? g).Returns (some a)) : a ∈ l := by
  induction l with
  | nil => cases h
  | cons x l ih =>
    obtain ⟨b, -, hb⟩ := (returns_bind _ _ _).1 h
    cases b
    · exact List.mem_cons_of_mem _ (ih hb)
    · cases hb
      exact List.mem_cons_self

end Prog

end Effect
