import Mathlib.Data.List.Perm.Basic
import Mathlib.Logic.Function.Basic
import Tenodera.Lib.Run

/-!
# Load–modify–save on a shared cell

Tasks share one cell.  A task loads the cell, decides from the loaded value what to do (its
`Plan`), and either answers at once or saves a new value in a second step; the steps of different
tasks interleave freely.  A save is *stale* when the cell has changed since the task loaded it.
Without stale saves every interleaving is equivalent to running the tasks one after the other, in
the order in which they took effect, with the same answers (`serializable_of_fresh`).
-/

namespace Cell

open Transition

/-- What a task does with the value it loaded: answer at once, or write a value back and answer
according to whether the write went through. -/
inductive Plan (σ ρ : Type*)
  | answer (reply : ρ)
  | write (value : σ) (saved failed : ρ)
  deriving DecidableEq, Repr

namespace Plan

variable {σ τ ρ π : Type*}

/-- The plan, with its values and replies translated. -/
def map (f : σ → τ) (g : ρ → π) : Plan σ ρ → Plan τ π
  | answer reply => answer (g reply)
  | write value saved failed => write (f value) (g saved) (g failed)

/-- The plan carried out on the spot: its reply and the value it leaves. -/
def exec (s : σ) : Plan σ ρ → ρ × σ
  | answer reply => (reply, s)
  | write value saved _ => (saved, value)

end Plan

/-- How far a task has come. -/
inductive Phase (σ ρ : Type*)
  | idle
  | loaded (snapshot value : σ) (saved failed : ρ)
  | answered (reply : ρ)

/-- The cell, the tasks, and the tasks that took effect with their replies, in that order. -/
structure State (ι σ ρ : Type*) where
  cell : σ
  phase : ι → Phase σ ρ
  completed : List (ι × ρ)

inductive Action (ι : Type*)
  | load (i : ι)
  | save (i : ι) (ok : Bool)

section

variable {ι σ ρ : Type*} (plan : ι → σ → Plan σ ρ)

def State.init (s : σ) : State ι σ ρ := ⟨s, fun _ => .idle, []⟩

/-- A save that goes through finds the cell as its task had loaded it. -/
def Fresh (st : State ι σ ρ) : Action ι → Prop
  | .load _ => True
  | .save i ok =>
    match st.phase i with
    | .loaded snapshot _ _ _ => ok = true → st.cell = snapshot
    | _ => True

instance Fresh.instDecidable [DecidableEq σ] :
    ∀ (st : State ι σ ρ) (a : Action ι), Decidable (Fresh st a)
  | _, .load _ => .isTrue trivial
  | st, .save i ok =>
    match h : st.phase i with
    | .loaded snapshot _ _ _ =>
      @decidable_of_iff _ (ok = true → st.cell = snapshot) (by simp [Fresh, h]) inferInstance
    | .idle | .answered _ => .isTrue (by simp [Fresh, h])

/-- Executed one after the other from `s`, the tasks give the listed replies and leave `t`. -/
def Replays : σ → List (ι × ρ) → σ → Prop
  | s, [], t => s = t
  | s, (i, reply) :: rest, t =>
    ((plan i s).exec s).1 = reply ∧ Replays ((plan i s).exec s).2 rest t

instance Replays.instDecidable [DecidableEq σ] [DecidableEq ρ] :
    ∀ (s : σ) (order : List (ι × ρ)) (t : σ), Decidable (Replays plan s order t)
  | s, [], t => inferInstanceAs (Decidable (s = t))
  | s, (i, _) :: rest, t =>
    have := Replays.instDecidable ((plan i s).exec s).2 rest t
    inferInstanceAs (Decidable (_ ∧ _))

/-- The cell is what the tasks that took effect leave when executed one after the other, in some
order, and each of them answered what it answers there. -/
def Serializable (s : σ) (st : State ι σ ρ) : Prop :=
  ∃ order : List (ι × ρ), order.Perm st.completed ∧ Replays plan s order st.cell

/-- What holds along every run without stale saves: the pending writes are the ones the plans ask
for, and the tasks that took effect replay to the cell. -/
structure Invariant (s : σ) (st : State ι σ ρ) : Prop where
  planned : ∀ i snapshot value saved failed, st.phase i = .loaded snapshot value saved failed →
    plan i snapshot = .write value saved failed
  replays : Replays plan s st.completed st.cell

variable {plan}

theorem replays_append {s t u : σ} {xs ys : List (ι × ρ)} (hx : Replays plan s xs t)
    (hy : Replays plan t ys u) : Replays plan s (xs ++ ys) u := by
  induction xs generalizing s with
  | nil =>
    cases hx
    exact hy
  | cons x xs ih => exact ⟨hx.1, ih hx.2⟩

theorem replays_singleton {s : σ} {i : ι} {reply : ρ} {t : σ}
    (h : (plan i s).exec s = (reply, t)) : Replays plan s [(i, reply)] t := by
  simp [Replays, h]

theorem invariant_init (s : σ) : Invariant plan s (.init s) where
  planned := fun i _ _ _ _ h => by simp [State.init] at h
  replays := rfl

variable [DecidableEq ι]

variable (plan) in
/-- One step: a task loads the cell, or saves what it had planned. -/
def step (st : State ι σ ρ) : Action ι → Option (State ι σ ρ)
  | .load i =>
    match st.phase i with
    | .idle =>
      match plan i st.cell with
      | .answer reply =>
        some ⟨st.cell, Function.update st.phase i (.answered reply), st.completed ++ [(i, reply)]⟩
      | .write value saved failed =>
        some { st with phase := Function.update st.phase i (.loaded st.cell value saved failed) }
    | _ => none
  | .save i ok =>
    match st.phase i with
    | .loaded _ value saved failed =>
      if ok then
        some ⟨value, Function.update st.phase i (.answered saved), st.completed ++ [(i, saved)]⟩
      else some { st with phase := Function.update st.phase i (.answered failed) }
    | _ => none

/-- Giving task `i` a new phase keeps the pending writes as planned. -/
theorem planned_update {phase : ι → Phase σ ρ} {i : ι} {p : Phase σ ρ}
    (h : ∀ i snapshot value saved failed, phase i = .loaded snapshot value saved failed →
      plan i snapshot = .write value saved failed)
    (hp : ∀ snapshot value saved failed, p = .loaded snapshot value saved failed →
      plan i snapshot = .write value saved failed) :
    ∀ j snapshot value saved failed,
      Function.update phase i p j = .loaded snapshot value saved failed →
        plan j snapshot = .write value saved failed := by
  intro j snapshot value saved failed hj
  by_cases hji : j = i
  · subst hji
    rw [Function.update_self] at hj
    exact hp _ _ _ _ hj
  · rw [Function.update_of_ne hji] at hj
    exact h _ _ _ _ _ hj

theorem invariant_step {s : σ} (st : State ι σ ρ) (a : Action ι) (st' : State ι σ ρ)
    (h : Invariant plan s st) (hf : Fresh st a) (hs : step plan st a = some st') :
    Invariant plan s st' := by
  cases a with
  | load i =>
    simp only [step] at hs
    split at hs
    · split at hs
      · rename_i reply hp
        cases hs
        refine ⟨planned_update h.planned (fun _ _ _ _ e => by cases e), ?_⟩
        exact replays_append h.replays (replays_singleton (by rw [hp]; rfl))
      · rename_i value saved failed hp
        cases hs
        refine ⟨planned_update h.planned (fun _ _ _ _ e => ?_), h.replays⟩
        cases e
        exact hp
    · cases hs
  | save i ok =>
    simp only [step] at hs
    split at hs
    · rename_i snapshot value saved failed hph
      have hp := h.planned i _ _ _ _ hph
      split_ifs at hs with hok
      · cases hs
        have hcell : st.cell = snapshot := by
          simp only [Fresh, hph] at hf
          exact hf hok
        refine ⟨planned_update h.planned (fun _ _ _ _ e => by cases e), ?_⟩
        exact replays_append h.replays (replays_singleton (by rw [hcell, hp]; rfl))
      · cases hs
        exact ⟨planned_update h.planned (fun _ _ _ _ e => by cases e), h.replays⟩
    · cases hs

/-- Without stale saves, the order in which the tasks took effect is a serial order. -/
theorem serializable_of_fresh {s : σ} {as : List (Action ι)} {st : State ι σ ρ}
    (hr : run (step plan) (.init s) as = some st)
    (hf : Meets (step plan) Fresh (.init s) as) : Serializable plan s st :=
  have h := invariant_of_meets (I := Invariant plan s) invariant_step (invariant_init s) hr hf
  ⟨st.completed, .refl _, h.replays⟩

end

end Cell
