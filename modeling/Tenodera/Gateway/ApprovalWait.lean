import Mathlib.Algebra.Group.Nat.Defs
import Tenodera.Gateway.HostsConfig
import Tenodera.Lib.Run

/-!
# How long an agent waits for its approval

The loop of `wait_for_approval`, one wake-up at a time.  The `select!` of each iteration makes a new
`sleep(PENDING_TIMEOUT)`, and the loop sends a ping every 30 seconds: the time-out counts from the
last wake-up (`timeout_only_if`), and pings alone put it off for ever (`run_pings`).
-/

namespace Tenodera.Gateway.ApprovalWait

open Transition

/-- `PENDING_TIMEOUT`, in nanoseconds like all times here. -/
def pendingTimeout : ℕ := 86400 * 10 ^ 9

/-- The period of `ping_interval`. -/
def pingPeriod : ℕ := 30 * 10 ^ 9

/-- What `stream.next()` gives. -/
inductive Frame
  | close
  | streamEnded
  | failed
  /-- Any other frame: it is ignored. -/
  | other
  deriving DecidableEq, Repr

/-- The branch of the `select!` that is taken at a wake-up. -/
inductive Branch
  /-- `approve_rx` has an answer, or has lost its sender. -/
  | decision (answer : Option HostEntry)
  /-- The interval ticks: a ping is sent, or cannot be sent, after some time. -/
  | ping (sent : Bool) (took : ℕ)
  | frame (f : Frame)
  | timeout
  deriving DecidableEq

structure WakeUp where
  now : ℕ
  branch : Branch
  deriving DecidableEq

/-- A call that has not returned.  `entered` and `lastWake` are not part of the loop. -/
structure Waiting where
  entered : ℕ
  lastWake : ℕ
  /-- When this iteration's `sleep` was made. -/
  armed : ℕ
  nextPing : ℕ
  deriving DecidableEq

inductive State
  | waiting (w : Waiting)
  | returned (host : Option HostEntry)
  deriving DecidableEq

/-- `wait_for_approval` is entered: the interval's first tick is at once. -/
def enter (now : ℕ) : State := .waiting ⟨now, now, now, now + pingPeriod⟩

/-- What each branch does, at the time `now`; a timer that is not due has no branch to take. -/
def Waiting.take (w : Waiting) (now : ℕ) : Branch → Option State
  | .decision answer => some (.returned answer)
  | .ping sent took =>
    if now < w.nextPing then none
    else if sent then
      some (.waiting
        { w with lastWake := now, armed := now + took, nextPing := w.nextPing + pingPeriod })
    else some (.returned none)
  | .frame .other => some (.waiting { w with lastWake := now, armed := now })
  | .frame _ => some (.returned none)
  | .timeout => if now < w.armed + pendingTimeout then none else some (.returned none)

/-- A wake-up of the `select!`, which the iteration has reached by then. -/
def step : State → WakeUp → Option State
  | .waiting w, wake => if wake.now < w.armed then none else w.take wake.now wake.branch
  | .returned _, _ => none

/-- The call has returned, unless no wake-up has come since its time was up. -/
def Prompt : State → Prop
  | .waiting w => w.lastWake < w.entered + pendingTimeout
  | .returned _ => True

instance (s : State) : Decidable (Prompt s) := by
  rcases s <;> dsimp only [Prompt] <;> infer_instance

/-- The branch goes round the loop: a ping that is sent, or a frame that is ignored. -/
def Branch.goesOn : Branch → Bool
  | ping sent _ => sent
  | frame .other => true
  | _ => false

/-- The wake-up does not find the time up and a ping to send or a frame to ignore. -/
def LeavesInTime : State → WakeUp → Prop
  | .waiting w, wake => w.entered + pendingTimeout ≤ wake.now → wake.branch.goesOn = false
  | .returned _, _ => True

instance (s : State) (wake : WakeUp) : Decidable (LeavesInTime s wake) := by
  rcases s <;> dsimp only [LeavesInTime] <;> infer_instance

section

variable {w : Waiting} {s t : State} {wake : WakeUp} {host : Option HostEntry}

/-! ## Steps -/

/-- A wake-up goes round the loop or returns, as its branch says. -/
theorem step_cases (h : step (.waiting w) wake = some t) :
    (wake.branch.goesOn = true ∧ ∃ w', t = .waiting w' ∧ w'.entered = w.entered ∧
      w'.lastWake = wake.now) ∨
    (wake.branch.goesOn = false ∧ ∃ host, t = .returned host) := by
  obtain ⟨now, branch⟩ := wake
  obtain ⟨-, htake⟩ := Option.ite_none_left_eq_some.1 h
  cases branch with
  | decision answer =>
    cases htake
    exact .inr ⟨rfl, answer, rfl⟩
  | ping sent took =>
    obtain ⟨-, htake⟩ := Option.ite_none_left_eq_some.1 htake
    cases sent with
    | true =>
      cases htake
      exact .inl ⟨rfl, _, rfl, rfl, rfl⟩
    | false =>
      cases htake
      exact .inr ⟨rfl, none, rfl⟩
  | frame f =>
    cases f with
    | other =>
      cases htake
      exact .inl ⟨rfl, _, rfl, rfl, rfl⟩
    | close | streamEnded | failed =>
      cases htake
      exact .inr ⟨rfl, none, rfl⟩
  | timeout =>
    obtain ⟨-, htake⟩ := Option.ite_none_left_eq_some.1 htake
    cases htake
    exact .inr ⟨rfl, none, rfl⟩

theorem prompt_step (h : step s wake = some t) : Prompt t ↔ LeavesInTime s wake := by
  cases s with
  | returned host => cases h
  | waiting w =>
    obtain ⟨hon, w', rfl, hentered, hlast⟩ | ⟨hleaves, host, rfl⟩ := step_cases h
    · simp only [Prompt, LeavesInTime, hentered, hlast, hon]
      simp
    · exact iff_of_true trivial fun _ => hleaves

/-- The time-out comes only when nothing has happened for all of `PENDING_TIMEOUT`. -/
theorem timeout_only_if {now : ℕ} (h : step (.waiting w) ⟨now, .timeout⟩ = some t) :
    w.armed + pendingTimeout ≤ now := by
  obtain ⟨-, htake⟩ := Option.ite_none_left_eq_some.1 h
  exact Nat.le_of_not_lt (Option.ite_none_left_eq_some.1 htake).1

end

/-! ## Runs -/

/-- In every state of a run the call returns in time iff each wake-up that finds the time up is one
that leaves the loop. -/
theorem returns_in_time_iff (entered : ℕ) (wakes : List WakeUp) (t : State)
    (hr : run step (enter entered) wakes = some t) :
    Always step Prompt (enter entered) wakes ↔ Meets step LeavesInTime (enter entered) wakes :=
  always_iff_meets (I := fun _ => True) (fun _ _ _ _ _ => trivial)
    (fun _ _ _ _ _ h => prompt_step h) trivial
    (Nat.lt_add_of_pos_right (by decide)) hr

/-- An agent that is pinged once, and leaves when its time is up. -/
def leaving : List WakeUp := [⟨pingPeriod, .ping true 0⟩, ⟨pendingTimeout, .frame .close⟩]

theorem prompt_leaving : ∃ t, run step (enter 0) leaving = some t ∧
    Always step Prompt (enter 0) leaving :=
  ⟨_, rfl, (returns_in_time_iff 0 leaving _ rfl).2 (by decide)⟩

/-! ## Pings -/

/-- The pings of an agent that nobody decides about. -/
def pings (start : ℕ) : ℕ → List WakeUp
  | 0 => []
  | n + 1 => ⟨start + pingPeriod, .ping true 0⟩ :: pings (start + pingPeriod) n

/-- After any number of pings the call still waits. -/
theorem run_pings (entered start n : ℕ) :
    run step (.waiting ⟨entered, start, start, start + pingPeriod⟩) (pings start n) =
      some (.waiting ⟨entered, start + n * pingPeriod, start + n * pingPeriod,
        start + n * pingPeriod + pingPeriod⟩) := by
  induction n generalizing start with
  | zero => simp [pings]
  | succ n ih =>
    have hping : step (.waiting ⟨entered, start, start, start + pingPeriod⟩)
        ⟨start + pingPeriod, .ping true 0⟩ = some (.waiting ⟨entered, start + pingPeriod,
          start + pingPeriod, start + pingPeriod + pingPeriod⟩) := by
      simp [step, Waiting.take]
    have hsum : start + pingPeriod + n * pingPeriod = start + (n + 1) * pingPeriod := by
      rw [Nat.succ_mul]
      omega
    rw [pings, run_cons, hping, Option.bind_some, ih, hsum]

/-- A day of pings: the last one finds the time up, and the call goes on waiting. -/
theorem pings_not_prompt : ¬ Always step Prompt (enter 0) (pings 0 2880) := fun h =>
  absurd (h.last (run_pings 0 0 2880)) (by decide)

end Tenodera.Gateway.ApprovalWait
