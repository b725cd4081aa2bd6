import Tenodera.Agent.GatewayPin
import Tenodera.Lib.Trim

/-!
# The id of a gateway over its restarts

A gateway makes its id up at its first start and reads it from a file ever after; agents pin the id
they meet first.  `load_or_create_gateway_id` takes every failure to read the file for a missing
one, and `fs::write` may leave a part of an id behind.  As long as the file can be read once an id
was served, no agent that has accepted the gateway is ever turned away from it.
-/

namespace Tenodera.Gateway.GatewayId

open Transition
open Agent (Pin.Machine Pin.Session Pin.Verdict Pin.Stable Pin.runSession Pin.loadGatewayId
  Pin.accepted_signChallenge Pin.not_refused_of_accepted Pin.runSession_unpinned)

/-! ## Starts -/

/-- The text of a `Uuid`. -/
structure Uuid where
  text : String
  length : text.length = 36
  chars : ∀ c ∈ text.toList, c.isAlphanum ∨ c = '-'

inductive Phase
  | stopped
  /-- In `fs::write` of a new id. -/
  | writing (gatewayId : String)
  | serving (gatewayId : String)
  deriving DecidableEq

/-- How `fs::write` goes. -/
inductive Writing
  | done
  /-- The directory or the file cannot be opened. -/
  | notOpened
  /-- The process is killed, or the disk is full, after so many characters. -/
  | cut (count : ℕ)
  deriving DecidableEq

inductive Action
  /-- `load_or_create_gateway_id` up to the write; reading may fail for any reason. -/
  | start (readFails : Bool) (uuid : Uuid)
  | write (out : Writing)
  | stop
  /-- An agent connects to this gateway and gets its challenge. -/
  | contact (agent : ℕ) (session : Pin.Session)
  /-- An agent gets a challenge elsewhere. -/
  | elsewhere (agent : ℕ) (session : Pin.Session)

/-- The files of the gateway and of its agents, and what has happened: the ids that were served, and
the contacts of agents with this gateway, the latest first. -/
structure State where
  file : Option String
  phase : Phase
  pins : ℕ → Option String
  served : List String
  contacts : List (ℕ × Pin.Verdict)

def State.init (file : Option String) : State := ⟨file, .stopped, fun _ => none, [], []⟩

def State.serve (s : State) (gatewayId : String) : State :=
  { s with phase := .serving gatewayId, served := gatewayId :: s.served }

def step (machines : ℕ → Pin.Machine) (s : State) : Action → Option State
  | .start readFails uuid =>
    match s.phase with
    | .stopped =>
      match s.file, readFails with
      | some content, false =>
        let gatewayId := Text.trim content
        if gatewayId ≠ "" then some (s.serve gatewayId)
        else some { s with phase := .writing uuid.text }
      | _, _ => some { s with phase := .writing uuid.text }
    | _ => none
  | .write out =>
    match s.phase with
    | .writing gatewayId =>
      match out with
      | .done => some { s.serve gatewayId with file := some gatewayId }
      | .notOpened => some { s with phase := .stopped }
      | .cut count =>
        some { s with phase := .stopped, file := some (.ofList (gatewayId.toList.take count)) }
    | _ => none
  | .stop =>
    match s.phase with
    | .serving _ => some { s with phase := .stopped }
    | _ => none
  | .contact agent a =>
    match s.phase with
    | .serving gatewayId =>
      if a.gatewayId = gatewayId then
        let outcome := Pin.runSession (machines agent) a (s.pins agent)
        some
          { s with
            pins := Function.update s.pins agent outcome.2
            contacts := (agent, outcome.1) :: s.contacts }
      else none
    | _ => none
  | .elsewhere agent a =>
    let outcome := Pin.runSession (machines agent) a (s.pins agent)
    some { s with pins := Function.update s.pins agent outcome.2 }

/-! ## The statement -/

/-- One id is served, and the agents that have accepted it are not turned away. -/
structure Constant (s : State) : Prop where
  one : ∀ g ∈ s.served, ∀ g' ∈ s.served, g = g'
  loyal : ∀ agent verdict rest, (agent, verdict) :: rest <:+ s.contacts →
    (∃ verdict', (agent, verdict') ∈ rest ∧ verdict'.accepted) → ¬ verdict.refused

/-- Once an id was served, the file can be read. -/
def Readable (s : State) : Action → Prop
  | .start readFails _ => s.served ≠ [] → readFails = false
  | _ => True

instance (s : State) (a : Action) : Decidable (Readable s a) := by
  unfold Readable
  split <;> infer_instance

/-! ## Ids -/

theorem Uuid.stable (uuid : Uuid) : Pin.Stable uuid.text := by
  have hsolid (c : Char) (hc : c ∈ uuid.text.toList) : Text.isWhitespace c = false := by
    rcases uuid.chars c hc with halpha | rfl
    · exact Text.isWhitespace_of_isAlphanum halpha
    · decide
  constructor
  · intro h
    have hlength := uuid.length
    rw [h] at hlength
    cases hlength
  · have htrimmed : Text.trimmed uuid.text.toList = uuid.text.toList :=
      Text.trimmed_eq_self (fun c hc => hsolid c (List.mem_of_mem_head? hc))
        fun c hc => hsolid c (List.mem_of_getLast? hc)
    rw [Text.trim, ← Text.trimmed, htrimmed, String.ofList_toList]

theorem stable_trim {s : String} (h : Text.trim s ≠ "") : Pin.Stable (Text.trim s) := by
  refine ⟨h, ?_⟩
  simp only [Text.trim, String.toList_ofList]
  exact congrArg String.ofList (Text.trimmed_trimmed s.toList)

/-! ## Sessions of an agent -/

section

variable {machine : Pin.Machine} {a : Pin.Session} {file : Option String} {g : String}

/-- The file has the id, as it is read. -/
def Pinned (g : String) (file : Option String) : Prop :=
  Pin.loadGatewayId false file = some (some g)

theorem loadGatewayId_true (file : Option String) : Pin.loadGatewayId true file = none := rfl

theorem loadGatewayId_false_ne_none (file : Option String) :
    Pin.loadGatewayId false file ≠ none := by
  unfold Pin.loadGatewayId
  rw [if_neg Bool.false_ne_true]
  cases file with
  | none => exact Option.some_ne_none _
  | some content =>
    dsimp only
    split_ifs <;> exact Option.some_ne_none _

/-- An agent keeps the id that it has pinned, and does not refuse it. -/
theorem runSession_of_pinned (machine : Pin.Machine) (a : Pin.Session) (h : Pinned g file) :
    (Pin.runSession machine a file).2 = file ∧
      (a.gatewayId = g → ¬ (Pin.runSession machine a file).1.refused) := by
  have h : Pin.loadGatewayId false file = some (some g) := h
  unfold Pin.runSession
  rcases hread : a.readFails with _ | _
  · rw [h]
    dsimp only
    split_ifs with hne
    · exact ⟨rfl, fun heq => absurd heq.symm hne⟩
    · exact ⟨rfl, fun _ => Pin.not_refused_of_accepted (Pin.accepted_signChallenge _ _ _)⟩
  · rw [loadGatewayId_true]
    exact ⟨rfl, fun _ => Bool.false_ne_true⟩

/-- An id that is accepted is pinned from then on. -/
theorem pinned_of_accepted (hstable : Pin.Stable a.gatewayId)
    (h : (Pin.runSession machine a file).1.accepted) :
    Pinned a.gatewayId (Pin.runSession machine a file).2 := by
  rcases hload : Pin.loadGatewayId false file with _ | _ | pinned
  · exact absurd hload (loadGatewayId_false_ne_none file)
  · rcases @Pin.runSession_unpinned machine a file hload with ⟨-, hfile, -⟩ | ⟨hrejected, -⟩
    · rw [hfile]
      simp [Pinned, Pin.loadGatewayId, hstable.1, hstable.2]
    · exact absurd h hrejected
  · rw [(runSession_of_pinned machine a hload).1]
    have hid : a.gatewayId = pinned := by
      unfold Pin.runSession at h
      rcases hread : a.readFails with _ | _
      · rw [hread, hload] at h
        dsimp only at h
        split_ifs at h with hne
        · cases h
        · exact (not_not.1 hne).symm
      · rw [hread, loadGatewayId_true] at h
        cases h
    rw [hid]
    exact hload

end

/-! ## The invariant -/

/-- An agent that has accepted the gateway has pinned its id. -/
def Loyal (g : String) (s : State) : Prop :=
  ∀ agent verdict, (agent, verdict) ∈ s.contacts → verdict.accepted → Pinned g (s.pins agent)

/-- Before an id is served nobody has met the gateway; after that the file has the id. -/
inductive Known (s : State) : Prop
  | fresh (served : s.served = []) (contacts : s.contacts = [])
      (idle : ∀ g, s.phase ≠ .serving g)
  | settled (g : String) (stable : Pin.Stable g) (mem : g ∈ s.served)
      (served : ∀ g' ∈ s.served, g' = g)
      (file : ∃ content, s.file = some content ∧ Text.trim content = g)
      (phase : s.phase = .stopped ∨ s.phase = .serving g) (loyal : Loyal g s)

structure Invariant (s : State) : Prop where
  known : Known s
  writing : ∀ g, s.phase = .writing g → Pin.Stable g
  loyal : ∀ agent verdict rest, (agent, verdict) :: rest <:+ s.contacts →
    (∃ verdict', (agent, verdict') ∈ rest ∧ verdict'.accepted) → ¬ verdict.refused

section

variable {machines : ℕ → Pin.Machine} {s t : State} {a : Action} {g : String}

theorem invariant_init (file : Option String) : Invariant (.init file) where
  known := .fresh rfl rfl nofun
  writing _ h := by cases h
  loyal _ _ _ h := by cases List.suffix_nil.1 h

theorem Invariant.constant (hs : Invariant s) : Constant s where
  loyal := hs.loyal
  one g hg g' hg' := by
    cases hs.known with
    | fresh served => rw [served] at hg; cases hg
    | settled g₀ _ _ served => exact (served g hg).trans (served g' hg').symm

/-- From now on an id is served. -/
theorem known_serve (hstable : Pin.Stable g)
    (hfile : ∃ content, s.file = some content ∧ Text.trim content = g)
    (hs : s.served = [] ∧ s.contacts = [] ∨ (∀ g' ∈ s.served, g' = g) ∧ Loyal g s) :
    Known (s.serve g) := by
  refine .settled g hstable List.mem_cons_self (fun g' hg' => ?_) hfile (.inr rfl) ?_
  · rcases List.mem_cons.1 hg' with rfl | hold
    · rfl
    · rcases hs with ⟨hserved, -⟩ | ⟨hserved, -⟩
      · rw [hserved] at hold
        cases hold
      · exact hserved g' hold
  · rcases hs with ⟨-, hcontacts⟩ | ⟨-, hloyal⟩
    · intro agent verdict hmem
      change _ ∈ s.contacts at hmem
      rw [hcontacts] at hmem
      cases hmem
    · exact hloyal

theorem invariant_start {readFails : Bool} {uuid : Uuid} (hs : Invariant s)
    (hreadable : s.served ≠ [] → readFails = false)
    (h : step machines s (.start readFails uuid) = some t) : Invariant t := by
  have hserve (g : String) (hknown : Known (s.serve g)) : Invariant (s.serve g) :=
    ⟨hknown, nofun, hs.loyal⟩
  have hwrite (hfresh : s.served = [] ∧ s.contacts = []) :
      Invariant { s with phase := .writing uuid.text } := by
    refine ⟨.fresh hfresh.1 hfresh.2 nofun, fun g hg => ?_, hs.loyal⟩
    cases hg
    exact uuid.stable
  simp only [step] at h
  split at h
  · cases hs.known with
    | fresh served contacts =>
      split at h
      · rename_i content hfile
        split_ifs at h with hblank
        · cases h
          exact hserve _ (known_serve (stable_trim hblank) ⟨content, hfile, rfl⟩
            (.inl ⟨served, contacts⟩))
        · cases h
          exact hwrite ⟨served, contacts⟩
      · cases h
        exact hwrite ⟨served, contacts⟩
    | settled g stable mem served file phase loyal =>
      obtain ⟨content, hfile, htrim⟩ := file
      rw [hfile, hreadable (List.ne_nil_of_mem mem)] at h
      dsimp only at h
      rw [htrim, if_pos stable.1] at h
      cases h
      exact hserve _ (known_serve stable ⟨content, hfile, htrim⟩ (.inr ⟨served, loyal⟩))
  · cases h

theorem invariant_write {out : Writing} (hs : Invariant s)
    (h : step machines s (.write out) = some t) : Invariant t := by
  simp only [step] at h
  split at h
  · rename_i g hphase
    have hstable := hs.writing g hphase
    have hfresh : s.served = [] ∧ s.contacts = [] := by
      cases hs.known with
      | fresh served contacts => exact ⟨served, contacts⟩
      | settled g' _ _ _ _ phase =>
        rw [hphase] at phase
        rcases phase with hstopped | hserving
        · cases hstopped
        · cases hserving
    cases out with
    | done =>
      cases h
      refine ⟨?_, nofun, hs.loyal⟩
      exact known_serve (s := { s with file := some g }) hstable ⟨g, rfl, hstable.2⟩ (.inl hfresh)
    | notOpened =>
      cases h
      exact ⟨.fresh hfresh.1 hfresh.2 nofun, nofun, hs.loyal⟩
    | cut count =>
      cases h
      exact ⟨.fresh hfresh.1 hfresh.2 nofun, nofun, hs.loyal⟩
  · cases h

theorem invariant_contact {agent : ℕ} {a : Pin.Session} (hs : Invariant s)
    (h : step machines s (.contact agent a) = some t) : Invariant t := by
  simp only [step] at h
  split at h
  · rename_i g' hphase
    split_ifs at h with hid
    cases h
    cases hs.known with
    | fresh _ _ idle => exact absurd hphase (idle g')
    | settled g stable mem served file phase loyal =>
      have hserving : g' = g := by
        rcases phase with hstopped | hserving
        · cases hphase.symm.trans hstopped
        · exact Phase.serving.inj (hphase.symm.trans hserving)
      rw [hserving] at hid
      -- what was pinned stays pinned, and what is accepted gets pinned
      have hkept (other : ℕ) (h : Pinned g (s.pins other)) :
          Pinned g (Function.update s.pins agent
            (Pin.runSession (machines agent) a (s.pins agent)).2 other) := by
        by_cases heq : other = agent
        · subst heq
          rw [Function.update_self, (runSession_of_pinned _ a h).1]
          exact h
        · rwa [Function.update_of_ne heq]
      refine ⟨.settled g stable mem served file phase fun other verdict hmem haccepted => ?_,
        hs.writing, fun other verdict rest hsuffix hbefore => ?_⟩
      · rcases List.mem_cons.1 hmem with heq | hold
        · cases heq
          dsimp only
          rw [Function.update_self, ← hid]
          exact pinned_of_accepted (hid ▸ stable) haccepted
        · exact hkept other (loyal other verdict hold haccepted)
      · rcases List.suffix_cons_iff.1 hsuffix with heq | hold
        · cases heq
          obtain ⟨verdict', hmem, haccepted⟩ := hbefore
          exact (runSession_of_pinned _ a (loyal agent verdict' hmem haccepted)).2 hid
        · exact hs.loyal other verdict rest hold hbefore
  · cases h

theorem invariant_step (hs : Invariant s) (hreadable : Readable s a)
    (h : step machines s a = some t) : Invariant t := by
  cases a with
  | start readFails uuid => exact invariant_start hs hreadable h
  | write out => exact invariant_write hs h
  | stop =>
    simp only [step] at h
    split at h
    · rename_i g' hphase
      cases h
      refine ⟨?_, nofun, hs.loyal⟩
      cases hs.known with
      | fresh served contacts idle => exact absurd hphase (idle g')
      | settled g stable mem served file _ loyal =>
        exact .settled g stable mem served file (.inl rfl) loyal
    · cases h
  | contact agent a => exact invariant_contact hs h
  | elsewhere agent a =>
    cases h
    refine ⟨?_, hs.writing, hs.loyal⟩
    cases hs.known with
    | fresh served contacts idle => exact .fresh served contacts idle
    | settled g stable mem served file phase loyal =>
      refine .settled g stable mem served file phase fun other verdict hmem haccepted => ?_
      have hpinned := loyal other verdict hmem haccepted
      dsimp only
      by_cases heq : other = agent
      · subst heq
        rw [Function.update_self, (runSession_of_pinned _ a hpinned).1]
        exact hpinned
      · rwa [Function.update_of_ne heq]

end

theorem forall_mem_of_all {text : String}
    (h : (text.toList.all fun c => c.isAlphanum || c = '-') = true) :
    ∀ c ∈ text.toList, c.isAlphanum ∨ c = '-' := by
  simpa using h

def oneUuid : Uuid where
  text := "6f9619ff-8b86-4d01-b42d-00c04fc964ff"
  length := rfl
  chars := forall_mem_of_all rfl

def otherUuid : Uuid where
  text := "0b2d8b5e-3f0c-4c6a-9d55-7f7f4f3a1c10"
  length := rfl
  chars := forall_mem_of_all rfl

/-- The first start is killed while it writes its id; the next one serves what is left of it. -/
def cutShort : List Action :=
  [.start false oneUuid, .write (.cut 8), .start true otherUuid, .write .notOpened,
    .start false otherUuid, .contact 0 ⟨none, false, .saved, "", "6f9619ff"⟩, .stop,
    .start false otherUuid, .elsewhere 0 ⟨none, false, .saved, "", "evil"⟩,
    .contact 0 ⟨some "gw", false, .saved, "", "6f9619ff"⟩]

end Tenodera.Gateway.GatewayId
