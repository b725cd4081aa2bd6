import Mathlib.Data.Nat.Notation
import Tenodera.Lib.Run

/-!
# The loops of the streaming handlers

Every streaming handler waits in a loop of its own, for its timer or its child and for the shutdown
channel, whose sender the router keeps.  `prompt_iff` says which wake-ups leave the loop once that
sender was set or dropped; `spins` that three of the four loops may never be left.
-/

namespace Tenodera.Agent.StreamLoop

open Transition

/-! ## The shutdown channel -/

/-- A `watch::channel(false)`, from the receiver's side. -/
structure Watch where
  value : Bool
  /-- The receiver has not seen the value yet. -/
  unseen : Bool
  /-- The sender was dropped. -/
  closed : Bool
  deriving DecidableEq, Repr

namespace Watch

def new : Watch := ⟨false, false, false⟩

/-- `Sender::send`. -/
def send (w : Watch) (value : Bool) : Watch := { w with value, unseen := true }

/-- `Receiver::changed`, where it does not wait: it sees a new value, or fails without a sender. -/
def changed (w : Watch) : Option (Except Unit Unit × Watch) :=
  if w.unseen then some (.ok (), { w with unseen := false })
  else if w.closed then some (.error (), w)
  else none

end Watch

/-! ## The loops -/

/-- What a terminal finds when its child's output becomes readable. -/
inductive Readable
  | pollError
  | eof
  | output (sent : Bool)
  | readError
  | wouldBlock
  deriving DecidableEq, Repr

/-- The branch of the `select!` that is taken at a wake-up.  `sent` is false when the receiver of
the handler's messages is gone. -/
inductive Branch
  | tick (sent : Bool)
  | readable (result : Readable)
  | readToEnd
  | timeout
  | shutdown
  deriving DecidableEq, Repr

/-- `_ = shutdown.changed() => if *shutdown.borrow() { break; }`: is the loop left, and the channel
after it. -/
def onShutdown (w : Watch) : Option (Bool × Watch) :=
  w.changed.map fun (_, w) => (w.value, w)

/-- The loop of `TerminalPtyHandler::stream`. -/
def terminalPty (w : Watch) : Branch → Option (Bool × Watch)
  | .readable .pollError => some (true, w)
  | .readable .eof => some (true, w)
  | .readable (.output sent) => some (!sent, w)
  | .readable .readError => some (true, w)
  | .readable .wouldBlock => some (false, w)
  | .shutdown => onShutdown w
  | _ => none

/-- A loop that sends something at every tick. -/
def tickerLoop (w : Watch) : Branch → Option (Bool × Watch)
  | .tick sent => some (!sent, w)
  | .shutdown => onShutdown w
  | _ => none

/-- The loop of `NetworkStreamHandler::stream`. -/
def networkingStream : Watch → Branch → Option (Bool × Watch) := tickerLoop

/-- The loop of `StorageStreamHandler::stream`. -/
def storageStream : Watch → Branch → Option (Bool × Watch) := tickerLoop

/-- The loop of `StorageDuHandler::stream`, which looks at the error as well. -/
def storageDu (w : Watch) : Branch → Option (Bool × Watch)
  | .readToEnd => some (true, w)
  | .timeout => some (true, w)
  | .shutdown => w.changed.map fun (ch, w) => (ch matches .error _ || w.value, w)
  | _ => none

/-- The streaming handlers of the agent. -/
inductive Streaming
  | terminalPty
  | networkingStream
  | storageStream
  | storageDu
  deriving DecidableEq, Repr

def Streaming.loop : Streaming → Watch → Branch → Option (Bool × Watch)
  | terminalPty => StreamLoop.terminalPty
  | networkingStream => StreamLoop.networkingStream
  | storageStream => StreamLoop.storageStream
  | storageDu => StreamLoop.storageDu

/-! ## The system -/

/-- A handler in its loop, or after it.  `late` is not part of the agent: it counts the wake-ups
since the sender was set or dropped. -/
structure State where
  running : Bool
  watch : Watch
  late : ℕ
  deriving DecidableEq, Repr

def State.init : State := ⟨true, .new, 0⟩

/-- The sender was set to true or dropped. -/
def State.notified (s : State) : Bool := s.watch.value || s.watch.closed

inductive Action
  /-- The gateway closes the channel. -/
  | sendTrue
  /-- The entry of the channel leaves the router, or the router ends. -/
  | dropSender
  | wake (b : Branch)
  deriving DecidableEq, Repr

def step (h : Streaming) (s : State) : Action → Option State
  | .sendTrue => if s.watch.closed then none else some { s with watch := s.watch.send true }
  | .dropSender => some { s with watch := { s.watch with closed := true } }
  | .wake b =>
    if s.running then
      (h.loop s.watch b).map fun (left, watch) =>
        ⟨!left, watch, if s.notified then s.late + 1 else s.late⟩
    else none

/-- The loop is left by the first wake-up after the sender was set or dropped. -/
def Prompt (s : State) : Prop := s.running → s.late = 0

/-- The branch leaves the loop: that of the shutdown channel when the value is true, or for a
handler that looks at the error, and those of an end or a failure. -/
def Leaves (h : Streaming) (s : State) : Branch → Prop
  | .shutdown => h = .storageDu ∨ s.watch.value
  | .tick sent => ¬ sent
  | .readable (.output sent) => ¬ sent
  | .readable .wouldBlock => False
  | _ => True

/-- Once the sender was set or dropped, the wake-up is one that leaves the loop. -/
def Heeds (h : Streaming) (s : State) : Action → Prop
  | .wake b => s.notified → Leaves h s b
  | _ => True

instance (h : Streaming) (s : State) : ∀ b, Decidable (Leaves h s b)
  | .shutdown => inferInstanceAs (Decidable (_ ∨ _))
  | .tick _ => inferInstanceAs (Decidable (¬ _))
  | .readable .pollError => inferInstanceAs (Decidable True)
  | .readable .eof => inferInstanceAs (Decidable True)
  | .readable (.output _) => inferInstanceAs (Decidable (¬ _))
  | .readable .readError => inferInstanceAs (Decidable True)
  | .readable .wouldBlock => inferInstanceAs (Decidable False)
  | .readToEnd => inferInstanceAs (Decidable True)
  | .timeout => inferInstanceAs (Decidable True)

instance (h : Streaming) (s : State) : ∀ a, Decidable (Heeds h s a)
  | .wake _ => inferInstanceAs (Decidable (_ → _))
  | .sendTrue => inferInstanceAs (Decidable True)
  | .dropSender => inferInstanceAs (Decidable True)

/-! ## What a wake-up does -/

section

variable {h : Streaming} {s t : State} {w w' : Watch} {b : Branch} {left : Bool}

/-- Only true is ever sent. -/
def OnlyTrue (w : Watch) : Prop := w.unseen → w.value

theorem changed_cases {ch : Except Unit Unit} (hw : w.changed = some (ch, w')) :
    (w.unseen ∧ ch = .ok () ∧ w' = { w with unseen := false }) ∨
      (¬ w.unseen ∧ w.closed ∧ ch = .error () ∧ w' = w) := by
  unfold Watch.changed at hw
  split_ifs at hw with hunseen hclosed
  · obtain ⟨rfl, rfl⟩ := Prod.mk.inj (Option.some.inj hw)
    exact .inl ⟨hunseen, rfl, rfl⟩
  · obtain ⟨rfl, rfl⟩ := Prod.mk.inj (Option.some.inj hw)
    exact .inr ⟨hunseen, hclosed, rfl, rfl⟩

/-- The shutdown branch of the loops that look at the value alone. -/
theorem onShutdown_cases (hw : onShutdown w = some (left, w')) :
    left = w.value ∧ (w' = w ∨ w' = { w with unseen := false }) := by
  obtain ⟨⟨ch, w''⟩, hchanged, heq⟩ := Option.map_eq_some_iff.1 hw
  obtain ⟨rfl, rfl⟩ := Prod.mk.inj heq
  rcases changed_cases hchanged with ⟨-, -, rfl⟩ | ⟨-, -, -, rfl⟩
  · exact ⟨rfl, .inr rfl⟩
  · exact ⟨rfl, .inl rfl⟩

/-- The shutdown branch of `storage.du`, which is left for a missing sender as well. -/
theorem storageDu_shutdown_cases (hI : OnlyTrue w)
    (hw : storageDu w .shutdown = some (left, w')) :
    left = true ∧ (w' = w ∨ w' = { w with unseen := false }) := by
  obtain ⟨⟨ch, w''⟩, hchanged, heq⟩ := Option.map_eq_some_iff.1 hw
  obtain ⟨rfl, rfl⟩ := Prod.mk.inj heq
  rcases changed_cases hchanged with ⟨hunseen, rfl, rfl⟩ | ⟨-, -, rfl, rfl⟩
  · exact ⟨hI hunseen, .inr rfl⟩
  · exact ⟨rfl, .inl rfl⟩

theorem tickerLoop_cases (hw : tickerLoop s.watch b = some (left, w')) (hne : h ≠ .storageDu) :
    (left = true ↔ Leaves h s b) ∧
      (w' = s.watch ∨ w' = { s.watch with unseen := false }) := by
  cases b with
  | tick sent =>
    cases hw
    exact ⟨by simp [Leaves], .inl rfl⟩
  | shutdown =>
    obtain ⟨rfl, hw'⟩ := onShutdown_cases hw
    exact ⟨by simp [Leaves, hne], hw'⟩
  | _ => cases hw

theorem terminalPty_cases (hw : terminalPty s.watch b = some (left, w')) (hne : h ≠ .storageDu) :
    (left = true ↔ Leaves h s b) ∧
      (w' = s.watch ∨ w' = { s.watch with unseen := false }) := by
  cases b with
  | readable result =>
    cases result with
    | output sent =>
      cases hw
      exact ⟨by simp [Leaves], .inl rfl⟩
    | wouldBlock =>
      cases hw
      exact ⟨by simp [Leaves], .inl rfl⟩
    | _ =>
      cases hw
      exact ⟨iff_of_true rfl trivial, .inl rfl⟩
  | shutdown =>
    obtain ⟨rfl, hw'⟩ := onShutdown_cases hw
    exact ⟨by simp [Leaves, hne], hw'⟩
  | _ => cases hw

theorem storageDu_cases (hI : OnlyTrue s.watch) (hw : storageDu s.watch b = some (left, w')) :
    left = true ∧ Leaves .storageDu s b ∧
      (w' = s.watch ∨ w' = { s.watch with unseen := false }) := by
  cases b with
  | shutdown =>
    obtain ⟨rfl, hw'⟩ := storageDu_shutdown_cases hI hw
    exact ⟨rfl, .inl rfl, hw'⟩
  | readToEnd | timeout =>
    cases hw
    exact ⟨rfl, trivial, .inl rfl⟩
  | _ => cases hw

/-- What one wake-up does: it leaves the loop as `Leaves` says, and sees at most the value. -/
theorem loop_cases (hI : OnlyTrue s.watch) (hw : h.loop s.watch b = some (left, w')) :
    (left = true ↔ Leaves h s b) ∧
      (w' = s.watch ∨ w' = { s.watch with unseen := false }) := by
  cases h with
  | terminalPty => exact terminalPty_cases hw nofun
  | networkingStream => exact tickerLoop_cases hw nofun
  | storageStream => exact tickerLoop_cases hw nofun
  | storageDu =>
    obtain ⟨hleft, hleaves, hw'⟩ := storageDu_cases hI hw
    exact ⟨iff_of_true hleft hleaves, hw'⟩

theorem step_wake (ht : step h s (.wake b) = some t) :
    s.running ∧ ∃ left w', h.loop s.watch b = some (left, w') ∧
      t = ⟨!left, w', if s.notified then s.late + 1 else s.late⟩ := by
  by_cases hrunning : s.running
  · rw [step, if_pos hrunning] at ht
    obtain ⟨⟨left, w'⟩, hw, rfl⟩ := Option.map_eq_some_iff.1 ht
    exact ⟨hrunning, left, w', hw, rfl⟩
  · rw [step, if_neg hrunning] at ht
    cases ht

theorem onlyTrue_step (hI : OnlyTrue s.watch) {a : Action} (ht : step h s a = some t) :
    OnlyTrue t.watch := by
  cases a with
  | sendTrue =>
    simp only [step] at ht
    split_ifs at ht
    obtain rfl := Option.some.inj ht
    exact fun _ => rfl
  | dropSender =>
    obtain rfl := Option.some.inj ht
    exact hI
  | wake b =>
    obtain ⟨-, left, w', hw, rfl⟩ := step_wake ht
    obtain rfl | rfl := (loop_cases hI hw).2
    · exact hI
    · exact fun hunseen => absurd hunseen Bool.false_ne_true

/-- After a step the handler is as prompt as wanted iff the step is one that leaves in time. -/
theorem prompt_step (hI : OnlyTrue s.watch) (hP : Prompt s) {a : Action}
    (ht : step h s a = some t) : Prompt t ↔ Heeds h s a := by
  cases a with
  | sendTrue =>
    simp only [step] at ht
    split_ifs at ht
    obtain rfl := Option.some.inj ht
    exact iff_of_true hP trivial
  | dropSender =>
    obtain rfl := Option.some.inj ht
    exact iff_of_true hP trivial
  | wake b =>
    obtain ⟨hrunning, left, w', hw, rfl⟩ := step_wake ht
    have hleft := (loop_cases hI hw).1
    have hlate : s.late = 0 := hP hrunning
    simp only [Prompt, Heeds, ← hleft]
    by_cases hnotified : s.notified
    · simp [hnotified]
    · simp [hnotified, hlate]

end

/-! ## Whole lives -/

/-- A handler leaves its loop at the first wake-up after its sender was set or dropped, in every
state of a run, iff every wake-up from then on is one that leaves. -/
theorem prompt_iff (h : Streaming) (as : List Action) {s : State}
    (hr : run (step h) .init as = some s) :
    Always (step h) Prompt .init as ↔ Meets (step h) (Heeds h) .init as :=
  always_iff_meets (I := fun s => OnlyTrue s.watch) (fun _ _ _ hI ht => onlyTrue_step hI ht)
    (fun _ _ _ hI hP ht => prompt_step hI hP ht) nofun (fun _ => rfl) hr

/-- The gateway closes the channel of a terminal. -/
theorem prompt_closed : Always (step .terminalPty) Prompt .init
    [.wake (.readable (.output true)), .sendTrue, .dropSender, .wake .shutdown] :=
  (prompt_iff .terminalPty _ rfl).2 (by decide)

/-- `storage.du` is prompt whatever happens. -/
theorem storageDu_prompt (as : List Action) {s : State}
    (hr : run (step .storageDu) .init as = some s) : Prompt s := by
  refine (invariant_of_run (I := fun s => OnlyTrue s.watch ∧ Prompt s) ?_ ?_ hr).2
  · rintro s a t ⟨hI, hP⟩ ht
    refine ⟨onlyTrue_step hI ht, (prompt_step hI hP ht).2 ?_⟩
    cases a with
    | wake b =>
      obtain ⟨-, left, w', hw, -⟩ := step_wake ht
      exact fun _ => (storageDu_cases hI hw).2.1
    | _ => trivial
  · exact ⟨nofun, fun _ => rfl⟩

/-- A loop that looks at the value alone goes on without its sender, as often as it likes. -/
theorem spins (h : Streaming) (hne : h ≠ .storageDu) (n : ℕ) :
    run (step h) .init (.dropSender :: List.replicate n (.wake .shutdown)) =
      some ⟨true, ⟨false, false, true⟩, n⟩ := by
  have hwake (late : ℕ) : step h ⟨true, ⟨false, false, true⟩, late⟩ (.wake .shutdown) =
      some ⟨true, ⟨false, false, true⟩, late + 1⟩ := by
    cases h with
    | storageDu => exact absurd rfl hne
    | _ => rfl
  have hruns (late : ℕ) : run (step h) ⟨true, ⟨false, false, true⟩, late⟩
      (List.replicate n (.wake .shutdown)) = some ⟨true, ⟨false, false, true⟩, late + n⟩ := by
    induction n generalizing late with
    | zero => rfl
    | succ n ih =>
      rw [List.replicate_succ, run_cons, hwake, Option.bind_some, ih]
      congr 2
      omega
  exact (hruns 0).trans (by rw [Nat.zero_add])

/-- The connection to the gateway ends while a terminal is idle. -/
theorem not_prompt : ¬ ∀ (h : Streaming) (as : List Action) (s : State),
    run (step h) .init as = some s → Prompt s := by
  intro hall
  have hlate := hall .terminalPty _ _ (spins .terminalPty nofun 1) rfl
  exact absurd hlate Nat.one_ne_zero

end Tenodera.Agent.StreamLoop
