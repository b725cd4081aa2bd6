import Mathlib.Data.List.Infix
import Tenodera.Lib.Run

/-!
# Queues over runs

What the steps of a run put into a queue and what they take out of it are two lists read off the
run.  `Tracks` compares them with what the queue holds: what came out is always a beginning of what
went in, and as long as the queue is in use nothing is missing in between.  The rules say what
putting in, taking out and giving up the queue do.
-/

namespace Transition

variable {S A B C : Type*} (step : S → A → Option S)

/-- What the steps of a run show, in order; an action that is disabled shows nothing. -/
def observed (obs : S → A → List B) : S → List A → List B
  | _, [] => []
  | s, a :: as =>
    match step s a with
    | none => []
    | some t => obs s a ++ observed obs t as

variable {step} {obs : S → A → List B} {obs' : S → A → List C} {s t : S} {a : A} {as : List A}

@[simp]
theorem observed_nil (s : S) : observed step obs s [] = [] := rfl

theorem observed_cons (h : step s a = some t) :
    observed step obs s (a :: as) = obs s a ++ observed step obs t as := by
  rw [observed, h]

theorem forall_mem_observed {P : B → Prop} (hobs : ∀ s a, ∀ b ∈ obs s a, P b) {b : B}
    (hb : b ∈ observed step obs s as) : P b := by
  induction as generalizing s with
  | nil => cases hb
  | cons a as ih =>
    rw [observed] at hb
    split at hb
    · cases hb
    · rcases List.mem_append.1 hb with hb | hb
      · exact hobs s a b hb
      · exact ih hb

/-- An invariant over the state and two lists of observations, kept by every step. -/
theorem invariant_of_observed₂ (obs : S → A → List B) (obs' : S → A → List C)
    (I : S → List B → List C → Prop)
    (hstep : ∀ s a t xs ys, I s xs ys → step s a = some t → I t (xs ++ obs s a) (ys ++ obs' s a))
    (xs : List B) (ys : List C) (hs : I s xs ys) (hr : run step s as = some t) :
    I t (xs ++ observed step obs s as) (ys ++ observed step obs' s as) := by
  induction as generalizing s xs ys with
  | nil =>
    cases hr
    simpa using hs
  | cons a as ih =>
    obtain ⟨r, hr, ht⟩ := run_cons_eq_some_iff.1 hr
    have hI := ih _ _ (hstep s a r xs ys hs hr) ht
    rw [observed_cons hr, observed_cons hr]
    simpa only [List.append_assoc] using hI

theorem invariant_of_observed (I : S → List B → Prop)
    (hstep : ∀ s a t xs, I s xs → step s a = some t → I t (xs ++ obs s a))
    (hs : I s []) (hr : run step s as = some t) : I t (observed step obs s as) :=
  invariant_of_observed₂ obs obs (fun s xs _ => I s xs) (fun s a t xs _ => hstep s a t xs) [] []
    hs hr

end Transition

namespace Fifo

variable {α : Type*} {sent received pending pending' : List α}
  {p q : Prop}

/-- `received` is what came out of a queue that `sent` was put into, `pending` what it holds;
`open_` says that the queue is still in use. -/
structure Tracks (sent received pending : List α) (open_ : Prop) : Prop where
  inOrder : received <+: sent
  complete : open_ → sent = received ++ pending

namespace Tracks

theorem empty : Tracks ([] : List α) [] [] p := ⟨List.prefix_rfl, fun _ => rfl⟩

/-- Nothing was put in yet: the queue can be opened. -/
theorem reopen (h : Tracks [] received pending p) : Tracks [] received [] q := by
  have hnil : received = [] := List.prefix_nil.1 h.inOrder
  exact ⟨h.inOrder, fun _ => by rw [hnil]; rfl⟩

theorem push (h : Tracks sent received pending p) (xs : List α) :
    Tracks (sent ++ xs) received (pending ++ xs) p where
  inOrder := h.inOrder.trans (List.prefix_append sent xs)
  complete hp := by rw [h.complete hp, List.append_assoc]

theorem pop (xs : List α) (h : Tracks sent received (xs ++ pending) p) (hp : p) :
    Tracks sent (received ++ xs) pending p := by
  have hsent : sent = received ++ xs ++ pending := by rw [h.complete hp, List.append_assoc]
  exact ⟨hsent ▸ List.prefix_append (received ++ xs) pending, fun _ => hsent⟩

/-- Once the queue is given up, it does not matter what is put in or what was left. -/
theorem close (h : Tracks sent received pending p) (xs : List α) (hq : ¬ q) :
    Tracks (sent ++ xs) received pending' q where
  inOrder := h.inOrder.trans (List.prefix_append sent xs)
  complete hq' := absurd hq' hq

theorem mono (h : Tracks sent received pending p) (hpq : q → p) :
    Tracks sent received pending q := ⟨h.inOrder, fun hq => h.complete (hpq hq)⟩

end Tracks

end Fifo
