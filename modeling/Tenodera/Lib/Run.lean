import Mathlib.Data.List.Basic

/-!
# Runs of a transition system

A system is a partial function `step : S → A → Option S`: the state after an action, or `none`
when the action is disabled.  `run` composes actions, `Meets C` says that every action of a run is
taken in a state meeting the side condition `C`, and `Always P` says that `P` holds in every state
the run goes through.  The rules at the end turn a fact about one step into a fact about runs.
-/

namespace Transition

variable {S A : Type*} (step : S → A → Option S)

/-- The state after the actions, in order; `none` when one of them is disabled. -/
def run : S → List A → Option S
  | s, [] => some s
  | s, a :: as => (step s a).bind fun t => run t as

/-- Every action is taken in a state that meets `C`. -/
def Meets (C : S → A → Prop) : S → List A → Prop
  | _, [] => True
  | s, a :: as => C s a ∧ ∀ t, step s a = some t → Meets C t as

/-- `P` holds in every state the actions lead through, the first and the last included. -/
def Always (P : S → Prop) : S → List A → Prop
  | s, [] => P s
  | s, a :: as => P s ∧ ∀ t, step s a = some t → Always P t as

instance Meets.instDecidable {C : S → A → Prop} [∀ s a, Decidable (C s a)] :
    ∀ s as, Decidable (Meets step C s as)
  | _, [] => .isTrue trivial
  | s, a :: as =>
    have : Decidable (∀ t, step s a = some t → Meets step C t as) :=
      match h : step s a with
      | none => .isTrue (by simp)
      | some t => @decidable_of_iff _ (Meets step C t as) (by simp) (Meets.instDecidable t as)
    inferInstanceAs (Decidable (C s a ∧ _))

variable {step} {C : S → A → Prop} {P I : S → Prop} {s t u : S} {a : A} {as : List A}

@[simp]
theorem run_nil (s : S) : run step s [] = some s := rfl

theorem run_cons (s : S) (a : A) (as : List A) :
    run step s (a :: as) = (step s a).bind fun t => run step t as := rfl

theorem run_cons_eq_some_iff :
    run step s (a :: as) = some u ↔ ∃ t, step s a = some t ∧ run step t as = some u := by
  rw [run_cons, Option.bind_eq_some_iff]

theorem run_append (s : S) (as bs : List A) :
    run step s (as ++ bs) = (run step s as).bind fun t => run step t bs := by
  induction as generalizing s with
  | nil => rfl
  | cons a as ih =>
    rw [List.cons_append, run_cons, run_cons, Option.bind_assoc]
    refine congrArg (Option.bind (step s a)) (funext fun t => ?_)
    exact ih t

theorem Always.head (h : Always step P s as) : P s := by
  cases as with
  | nil => exact h
  | cons a as => exact h.1

theorem Always.last (h : Always step P s as) (hr : run step s as = some t) : P t := by
  induction as generalizing s with
  | nil =>
    cases hr
    exact h
  | cons a as ih =>
    obtain ⟨r, hr, ht⟩ := run_cons_eq_some_iff.1 hr
    exact ih (h.2 r hr) ht

/-- An invariant that every step meeting `C` preserves holds after every run meeting `C`. -/
theorem invariant_of_meets (hstep : ∀ s a t, I s → C s a → step s a = some t → I t) (hs : I s)
    (hr : run step s as = some t) (hC : Meets step C s as) : I t := by
  induction as generalizing s with
  | nil =>
    cases hr
    exact hs
  | cons a as ih =>
    obtain ⟨r, hr, ht⟩ := run_cons_eq_some_iff.1 hr
    exact ih (hstep s a r hs hC.1 hr) ht (hC.2 r hr)

/-- When steps meeting `C` keep the invariant `I`, what `I` gives holds throughout a run meeting
`C`. -/
theorem always_of_meets (hstep : ∀ s a t, I s → C s a → step s a = some t → I t)
    (hP : ∀ s, I s → P s) (hs : I s) (hC : Meets step C s as) : Always step P s as := by
  induction as generalizing s with
  | nil => exact hP s hs
  | cons a as ih =>
    refine ⟨hP s hs, fun t ht => ?_⟩
    exact ih (hstep s a t hs hC.1 ht) (hC.2 t ht)

/-- When steps meeting `C` keep the invariant `I`, and `I` and `C` give `D`, a run meeting `C` meets
`D` as well. -/
theorem meets_of_invariant {D : S → A → Prop}
    (hstep : ∀ s a t, I s → C s a → step s a = some t → I t) (hD : ∀ s a, I s → C s a → D s a)
    (hs : I s) (hC : Meets step C s as) : Meets step D s as := by
  induction as generalizing s with
  | nil => trivial
  | cons a as ih =>
    refine ⟨hD s a hs hC.1, fun t ht => ?_⟩
    exact ih (hstep s a t hs hC.1 ht) (hC.2 t ht)

theorem meets_and {D : S → A → Prop} (hC : Meets step C s as) (hD : Meets step D s as) :
    Meets step (fun s a => C s a ∧ D s a) s as := by
  induction as generalizing s with
  | nil => trivial
  | cons a as ih => exact ⟨⟨hC.1, hD.1⟩, fun t ht => ih (hC.2 t ht) (hD.2 t ht)⟩

theorem meets_true (s : S) (as : List A) : Meets step (fun _ _ => True) s as := by
  induction as generalizing s with
  | nil => trivial
  | cons a as ih => exact ⟨trivial, fun t _ => ih t⟩

/-- An invariant that every step preserves holds after every run. -/
theorem invariant_of_run (hstep : ∀ s a t, I s → step s a = some t → I t) (hs : I s)
    (hr : run step s as = some t) : I t := by
  induction as generalizing s with
  | nil =>
    cases hr
    exact hs
  | cons a as ih =>
    obtain ⟨r, hr, ht⟩ := run_cons_eq_some_iff.1 hr
    exact ih (hstep s a r hs hr) ht

/-- What is seen of a state that every step changes as a function of what was seen. -/
theorem foldl_of_run {V : Type*} {seen : S → V} {next : V → A → V}
    (hstep : ∀ s a t, step s a = some t → seen t = next (seen s) a)
    (hr : run step s as = some t) : seen t = as.foldl next (seen s) := by
  induction as generalizing s with
  | nil =>
    cases hr
    rfl
  | cons a as ih =>
    obtain ⟨r, hr, ht⟩ := run_cons_eq_some_iff.1 hr
    rw [ih ht, List.foldl_cons, hstep s a r hr]

/-- Two systems in lock-step: what relates the states before related actions relates them after, so
that related lists of actions lead to related states. -/
theorem exists_run_of_related {R : A → A → Prop} {J : S → S → Prop} {s' : S} {as' : List A}
    (hstep : ∀ s s' a a' t, J s s' → C s a → R a a' → step s a = some t →
      ∃ t', step s' a' = some t' ∧ J t t')
    (hJ : J s s') (hR : List.Forall₂ R as as') (hr : run step s as = some t)
    (hC : Meets step C s as) : ∃ t', run step s' as' = some t' ∧ J t t' := by
  induction hR generalizing s s' with
  | nil =>
    cases hr
    exact ⟨s', rfl, hJ⟩
  | @cons a a' as as' ha _ ih =>
    obtain ⟨r, hr, ht⟩ := run_cons_eq_some_iff.1 hr
    obtain ⟨r', hr', hJ'⟩ := hstep s s' a a' r hJ hC.1 ha hr
    obtain ⟨t', ht', hJt⟩ := ih hJ' ht (hC.2 r hr)
    exact ⟨t', run_cons_eq_some_iff.2 ⟨r', hr', ht'⟩, hJt⟩

/-- When, among the states satisfying the invariant `I`, the steps meeting `C` are exactly those
that keep `P`, a run keeps `P` throughout iff all its steps meet `C`. -/
theorem always_iff_meets (hinv : ∀ s a t, I s → step s a = some t → I t)
    (hstep : ∀ s a t, I s → P s → step s a = some t → (P t ↔ C s a)) (hI : I s) (hP : P s)
    (hr : run step s as = some t) : Always step P s as ↔ Meets step C s as := by
  induction as generalizing s with
  | nil => exact iff_of_true hP trivial
  | cons a as ih =>
    obtain ⟨r, hr, ht⟩ := run_cons_eq_some_iff.1 hr
    simp only [Always, Meets, hr, Option.some.injEq, forall_eq']
    constructor
    · rintro ⟨-, hA⟩
      exact ⟨(hstep s a r hI hP hr).1 hA.head, (ih (hinv s a r hI hr) hA.head ht).1 hA⟩
    · rintro ⟨hC, hM⟩
      have hPr := (hstep s a r hI hP hr).2 hC
      exact ⟨hP, (ih (hinv s a r hI hr) hPr ht).2 hM⟩

end Transition
