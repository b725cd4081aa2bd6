import Mathlib.Data.List.Basic
import Mathlib.Logic.Function.Basic
import Tenodera.Lib.Run

/-!
# The key of an agent

`load_or_create`, call by call, as any number of starts of the agent run it side by side on one
data directory.  `create_new` lets one of them write the key; the others may read it while it is
half written, and any of them may be killed at any point.
-/

namespace Tenodera.Agent.Identity

open Transition

/-! ## Starts of the agent -/

/-- The bytes of a signing key. -/
@[ext]
structure Seed where
  bytes : List UInt8
  length : bytes.length = 32

instance Seed.decidableEq : DecidableEq Seed := fun _ _ => decidable_of_iff _ Seed.ext_iff.symm

/-- How far a start has come. -/
inductive Phase
  | absent
  /-- There was nothing to read. -/
  | generating
  | creating (seed : Seed)
  /-- The file is its own, with so many bytes of the seed written. -/
  | writing (seed : Seed) (written : ℕ)
  | running (key : List UInt8)
  | ended
  deriving DecidableEq

inductive Action
  /-- `fs::read`, which may fail for other reasons than a missing file. -/
  | read (start : ℕ) (fails : Bool)
  /-- `getrandom::fill` and the data directory. -/
  | generate (start : ℕ) (seed : Option Seed)
  | create (start : ℕ) (fails : Bool)
  /-- One of the writes of `write_all`, of so many bytes at most. -/
  | write (start : ℕ) (count : ℕ)
  | sync (start : ℕ)
  /-- A call fails, or the process is killed. -/
  | stop (start : ℕ)
  deriving DecidableEq

/-- The key file, the starts, and the keys under which one of them has run. -/
structure State where
  file : Option (List UInt8)
  phase : ℕ → Phase
  keys : List (List UInt8)

def State.init (file : Option (List UInt8)) : State := ⟨file, fun _ => .absent, []⟩

def State.move (s : State) (start : ℕ) (p : Phase) : State :=
  { s with phase := Function.update s.phase start p }

def State.running (s : State) (start : ℕ) (key : List UInt8) : State :=
  { s.move start (.running key) with keys := key :: s.keys }

def step (s : State) : Action → Option State
  | .read start fails =>
    match s.phase start, fails, s.file with
    | .absent, false, some bytes =>
      if bytes.length = 32 then some (s.running start bytes) else some (s.move start .ended)
    | .absent, _, _ => some (s.move start .generating)
    | _, _, _ => none
  | .generate start seed =>
    match s.phase start, seed with
    | .generating, some seed => some (s.move start (.creating seed))
    | .generating, none => some (s.move start .ended)
    | _, _ => none
  | .create start fails =>
    match s.phase start, fails, s.file with
    | .creating seed, false, none => some { s.move start (.writing seed 0) with file := some [] }
    | .creating _, _, _ => some (s.move start .ended)
    | _, _, _ => none
  | .write start count =>
    match s.phase start with
    | .writing seed written =>
      let piece := (seed.bytes.drop written).take count
      some
        { s.move start (.writing seed (written + piece.length)) with
          file := s.file.map fun bytes =>
            bytes.take written ++ piece ++ bytes.drop (written + piece.length) }
    | _ => none
  | .sync start =>
    match s.phase start with
    | .writing seed written =>
      if written = 32 then some (s.running start seed.bytes) else none
    | _ => none
  | .stop start =>
    match s.phase start with
    | .absent => none
    | _ => some (s.move start .ended)

/-! ## The statement -/

def Phase.isWriting : Phase → Bool
  | writing _ _ => true
  | _ => false

/-- The file has no key, and nobody is about to complete it. -/
def Torn (s : State) : Prop :=
  (∃ bytes, s.file = some bytes ∧ bytes.length ≠ 32) ∧ ∀ start, ¬ (s.phase start).isWriting

/-- A start runs under the key of the file, once there is one, and all starts under one key; with a
torn file none of them runs, now or later. -/
structure Lasting (s t : State) : Prop where
  one : ∀ key ∈ t.keys, t.file = some key ∧ key.length = 32
  kept : ∀ key ∈ s.keys, t.file = some key
  torn : Torn s → t.file = s.file ∧ t.keys = s.keys

/-! ## What a step does -/

/-- What a step does, with what it finds. -/
inductive Steps (s : State) : Action → State → Prop
  | loaded {start : ℕ} {bytes : List UInt8} (hphase : s.phase start = .absent)
      (hfile : s.file = some bytes) (hlength : bytes.length = 32) :
      Steps s (.read start false) (s.running start bytes)
  | created {start : ℕ} {seed : Seed} (hphase : s.phase start = .creating seed)
      (hfile : s.file = none) :
      Steps s (.create start false) { s.move start (.writing seed 0) with file := some [] }
  | wrote {start count : ℕ} {seed : Seed} {written : ℕ}
      (hphase : s.phase start = .writing seed written) :
      Steps s (.write start count)
        { s.move start
            (.writing seed (written + ((seed.bytes.drop written).take count).length)) with
          file := s.file.map fun bytes =>
            bytes.take written ++ (seed.bytes.drop written).take count ++
              bytes.drop (written + ((seed.bytes.drop written).take count).length) }
  | synced {start : ℕ} {seed : Seed} (hphase : s.phase start = .writing seed 32) :
      Steps s (.sync start) (s.running start seed.bytes)
  | moved {a : Action} {start : ℕ} {p : Phase} (hp : p.isWriting = false)
      (hrunning : ∀ key, p ≠ .running key) : Steps s a (s.move start p)

theorem steps_of_step {s t : State} {a : Action} (h : step s a = some t) : Steps s a t := by
  cases a with
  | read start fails =>
    simp only [step] at h
    split at h
    · rename_i bytes hphase hfile
      split_ifs at h with hlength
      · cases h
        exact .loaded hphase hfile hlength
      · cases h
        exact .moved rfl nofun
    · cases h
      exact .moved rfl nofun
    · cases h
  | generate start seed =>
    simp only [step] at h
    split at h
    · cases h
      exact .moved rfl nofun
    · cases h
      exact .moved rfl nofun
    · cases h
  | create start fails =>
    simp only [step] at h
    split at h
    · rename_i seed hphase hfile
      cases h
      exact .created hphase hfile
    · cases h
      exact .moved rfl nofun
    · cases h
  | write start count =>
    simp only [step] at h
    split at h
    · rename_i seed written hphase
      cases h
      exact .wrote hphase
    · cases h
  | sync start =>
    simp only [step] at h
    split at h
    · rename_i seed written hphase
      split_ifs at h with hwritten
      cases h
      subst hwritten
      exact .synced hphase
    · cases h
  | stop start =>
    simp only [step] at h
    split at h
    · cases h
    · cases h
      exact .moved rfl nofun

/-! ## The invariant -/

/-- Who writes has the file to itself, with the beginning of its seed in it; who runs has its key
there. -/
structure Invariant (s : State) : Prop where
  writing : ∀ start seed written, s.phase start = .writing seed written →
    s.file = some (seed.bytes.take written) ∧ written ≤ 32 ∧
      ∀ other, (s.phase other).isWriting → other = start
  keys : ∀ key ∈ s.keys, s.file = some key ∧ key.length = 32

section

variable {s t u : State} {a : Action} {start : ℕ}

theorem invariant_init (file : Option (List UInt8)) : Invariant (.init file) where
  writing _ _ _ h := by cases h
  keys _ h := by cases h

theorem phase_move (s : State) (start other : ℕ) (p : Phase) :
    (s.move start p).phase other = if other = start then p else s.phase other :=
  Function.update_apply ..

/-- The writers after a start has gone on to a phase without writing. -/
theorem phase_of_isWriting_move {p : Phase} (hp : p.isWriting = false) {other : ℕ}
    (h : ((s.move start p).phase other).isWriting) :
    (s.move start p).phase other = s.phase other := by
  rw [phase_move] at h ⊢
  split_ifs at h ⊢ with heq
  · rw [hp] at h
    cases h
  · rfl

theorem Invariant.move {p : Phase} (hs : Invariant s) (hp : p.isWriting = false) :
    Invariant (s.move start p) := by
  have hwriting (other : ℕ) (h : ((s.move start p).phase other).isWriting) :
      (s.phase other).isWriting := phase_of_isWriting_move hp h ▸ h
  refine ⟨fun start' seed written h => ?_, hs.keys⟩
  have hold : s.phase start' = .writing seed written := by
    rw [← phase_of_isWriting_move hp (by rw [h]; rfl), h]
  obtain ⟨hfile, hle, hunique⟩ := hs.writing start' seed written hold
  exact ⟨hfile, hle, fun other hother => hunique other (hwriting other hother)⟩

theorem Invariant.running {key : List UInt8} (hs : Invariant s) (hfile : s.file = some key)
    (hlength : key.length = 32) : Invariant (s.running start key) := by
  have hmoved : Invariant (s.move start (.running key)) := hs.move rfl
  refine ⟨hmoved.writing, fun key' hmem => ?_⟩
  rcases List.mem_cons.1 hmem with rfl | hold
  · exact ⟨hfile, hlength⟩
  · exact hs.keys key' hold

/-- Nobody writes while there is no file. -/
theorem Invariant.not_isWriting (hs : Invariant s) (hfile : s.file = none) (other : ℕ) :
    ¬ (s.phase other).isWriting := by
  intro h
  rcases hphase : s.phase other with _ | _ | _ | ⟨seed, written⟩ | _ | _
  all_goals rw [hphase] at h
  case writing => cases hfile.symm.trans (hs.writing other seed written hphase).1
  all_goals cases h

theorem Invariant.create {seed : Seed} (hs : Invariant s) (hfile : s.file = none) :
    Invariant { s.move start (.writing seed 0) with file := some [] } := by
  refine ⟨fun start' seed' written h => ?_, fun key hmem => ?_⟩
  · change (s.move start (.writing seed 0)).phase start' = _ at h
    rw [phase_move] at h
    split_ifs at h with heq
    · cases h
      refine ⟨rfl, Nat.zero_le _, fun other hother => ?_⟩
      change ((s.move start (.writing seed 0)).phase other).isWriting at hother
      rw [phase_move] at hother
      split_ifs at hother with heq'
      · exact heq'.trans heq.symm
      · exact absurd hother (hs.not_isWriting hfile other)
    · exact absurd (by rw [h]; rfl) (hs.not_isWriting hfile start')
  · cases hfile.symm.trans (hs.keys key hmem).1

/-- A write continues the seed in the file. -/
theorem append_piece {bytes piece : List UInt8} {written : ℕ}
    (hpiece : piece <+: bytes.drop written) :
    (bytes.take written).take written ++ piece ++
      (bytes.take written).drop (written + piece.length) =
      bytes.take (written + piece.length) := by
  have hnothing : (bytes.take written).drop (written + piece.length) = [] :=
    List.drop_eq_nil_of_le (by rw [List.length_take]; omega)
  rw [hnothing, List.append_nil, List.take_take, Nat.min_self, List.take_add,
    ← List.prefix_iff_eq_take.1 hpiece]

theorem Invariant.write {seed : Seed} {written : ℕ} (hs : Invariant s)
    (hphase : s.phase start = .writing seed written) (piece : List UInt8)
    (hpiece : piece <+: seed.bytes.drop written) :
    Invariant
      { s.move start (.writing seed (written + piece.length)) with
        file := s.file.map fun bytes =>
          bytes.take written ++ piece ++ bytes.drop (written + piece.length) } := by
  obtain ⟨hfile, hle, hunique⟩ := hs.writing start seed written hphase
  have hlength := hpiece.length_le
  rw [List.length_drop, seed.length] at hlength
  have hfile' : (s.file.map fun bytes =>
      bytes.take written ++ piece ++ bytes.drop (written + piece.length)) =
      some (seed.bytes.take (written + piece.length)) := by
    rw [hfile, Option.map_some, append_piece hpiece]
  have hwriting (other : ℕ)
      (h : ((s.move start (.writing seed (written + piece.length))).phase other).isWriting) :
      other = start := by
    rw [phase_move] at h
    split_ifs at h with heq
    · exact heq
    · exact hunique other h
  refine ⟨fun start' seed' written' h => ?_, fun key hmem => ?_⟩
  · have heq : start' = start := hwriting start' (by rw [h]; rfl)
    subst heq
    cases (Function.update_self ..).symm.trans h
    exact ⟨hfile', by omega, hwriting⟩
  · -- a key in the file leaves nothing to write
    obtain ⟨hkey, hkeylength⟩ := hs.keys key hmem
    obtain rfl := Option.some.inj (hfile.symm.trans hkey)
    rw [List.length_take, seed.length] at hkeylength
    refine ⟨hfile'.trans (congrArg some ?_), ?_⟩
    · rw [List.take_of_length_le (by rw [seed.length]; omega),
        List.take_of_length_le (by rw [seed.length]; omega)]
    · rw [List.length_take, seed.length]
      omega

theorem invariant_step (hs : Invariant s) (h : step s a = some t) : Invariant t := by
  cases steps_of_step h with
  | loaded hphase hfile hlength => exact hs.running hfile hlength
  | created hphase hfile => exact hs.create hfile
  | wrote hphase => exact hs.write hphase _ (List.take_prefix _ _)
  | @synced start seed hphase =>
    obtain ⟨hfile, -, -⟩ := hs.writing start seed 32 hphase
    rw [List.take_of_length_le (Nat.le_of_eq seed.length)] at hfile
    exact hs.running hfile seed.length
  | moved hp => exact hs.move hp

/-! ## What stays -/

/-- A key under which a start has run stays in the file. -/
theorem keys_step (h : step s a = some t) : ∀ key ∈ s.keys, key ∈ t.keys := by
  intro key hmem
  cases steps_of_step h with
  | loaded | synced => exact List.mem_cons_of_mem _ hmem
  | created | wrote | moved => exact hmem

theorem torn_step (hs : Torn s) (h : step s a = some t) :
    t.file = s.file ∧ t.keys = s.keys ∧ Torn t := by
  obtain ⟨⟨bytes, hfile, hlength⟩, hnone⟩ := hs
  cases steps_of_step h with
  | loaded hphase hfile' hlength' =>
    cases hfile.symm.trans hfile'
    exact absurd hlength' hlength
  | created hphase hfile' => cases hfile.symm.trans hfile'
  | @wrote start count seed written hphase => exact absurd (by rw [hphase]; rfl) (hnone start)
  | @synced start seed hphase => exact absurd (by rw [hphase]; rfl) (hnone start)
  | moved hp =>
    refine ⟨rfl, rfl, ⟨bytes, hfile, hlength⟩, fun other h => ?_⟩
    exact hnone other (phase_of_isWriting_move hp h ▸ h)

end

/-- However many starts run side by side, and wherever they are killed: those that run do so under
one key, which stays in the file; and once a start was killed in the middle of writing the key,
none runs any more. -/
theorem lasting_of_run (file : Option (List UInt8)) (as bs : List Action) (s t : State)
    (hs : run step (.init file) as = some s) (ht : run step s bs = some t) : Lasting s t := by
  have hinvariant : Invariant s :=
    invariant_of_run (fun _ _ _ hs h => invariant_step hs h) (invariant_init file) hs
  have hinvariant' : Invariant t :=
    invariant_of_run (fun _ _ _ hs h => invariant_step hs h) hinvariant ht
  refine ⟨hinvariant'.keys, fun key hmem => ?_, fun htorn => ?_⟩
  · have hkept : key ∈ t.keys :=
      invariant_of_run (I := fun t => key ∈ t.keys) (fun _ _ _ hs h => keys_step h key hs) hmem ht
    exact (hinvariant'.keys key hkept).1
  · have hsame : t.file = s.file ∧ t.keys = s.keys ∧ Torn t := by
      refine invariant_of_run (I := fun t => t.file = s.file ∧ t.keys = s.keys ∧ Torn t)
        (fun u a t hu h => ?_) ⟨rfl, rfl, htorn⟩ ht
      obtain ⟨hfile, hkeys, htorn⟩ := torn_step hu.2.2 h
      exact ⟨hfile.trans hu.1, hkeys.trans hu.2.1, htorn⟩
    exact ⟨hsame.1, hsame.2.1⟩

def oneSeed : Seed := ⟨List.replicate 32 1, rfl⟩

def otherSeed : Seed := ⟨List.replicate 32 2, rfl⟩

/-- Two starts find no key; one of them writes its own, and is killed half-way. -/
def killedHalfway : List Action :=
  [.read 0 false, .read 1 false, .generate 0 (some oneSeed), .generate 1 (some otherSeed),
    .create 0 false, .create 1 false, .write 0 20, .stop 0]

/-- The next start fails, as all of them will. -/
theorem lasting_killedHalfway : ∃ s t, run step (.init none) killedHalfway = some s ∧
    run step s [.read 2 false] = some t ∧ Torn s ∧ Lasting s t := by
  refine ⟨_, _, rfl, rfl, ⟨⟨_, rfl, by decide⟩, fun start h => ?_⟩, ?_⟩
  · rcases start with _ | _ | start <;> cases h
  · exact lasting_of_run none killedHalfway [.read 2 false] _ _ rfl rfl

end Tenodera.Agent.Identity
