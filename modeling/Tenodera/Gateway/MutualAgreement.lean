import Tenodera.Agent.GatewayPin
import Tenodera.Gateway.Agreement
import Tenodera.Gateway.ChallengeBinding
import Tenodera.Lib.Base64

/-!
# Agreement of an agent and its gateway

That a signature was made is all that the gateway's side says about the holder of a key.  Here the
holder is an agent that runs `run_session`: it signs whatever challenge reaches it, but only under
the id of the gateway that it has pinned, and only for its own hostname.  Everybody else does what
they like with the messages, other gateways included.
-/

namespace Tenodera.Gateway.Mutual

open Protocol Transition
open Handshake (Greeting)
open Agent (Pin.Machine Pin.Session Pin.runSession Pin.signChallenge Pin.Stable
  Pin.runSession_pinned)

/-! ## The two parties -/

/-- The public key of an agent, and its host. -/
structure Holder where
  key : List UInt8
  machine : Pin.Machine

structure State where
  gateway : Handshake.State
  /-- The file with the id of the gateway of the agent. -/
  pin : Option String
  /-- The sessions that the agent signed in, the latest first. -/
  signed : List Pin.Session

def State.init (file : HostsFile) (pin : Option String) : State := ⟨.init file, pin, []⟩

inductive Action
  /-- The gateway goes on, or somebody else sends or signs. -/
  | gateway (action : Handshake.Action)
  /-- The agent gets a challenge, from whomever. -/
  | session (session : Pin.Session)

def signsWith (key : List UInt8) : Handshake.Action → Bool
  | .sign key' _ => key' = key
  | _ => false

/-- Nobody but the agent signs under its key, and the agent signs in its sessions only. -/
def step (crypto : Crypto) (gatewayId : String) (agent : Holder) (s : State) :
    Action → Option State
  | .gateway a =>
    if signsWith agent.key a then none
    else (Handshake.step crypto gatewayId s.gateway a).map fun gateway => { s with gateway }
  | .session a =>
    match Pin.runSession agent.machine a s.pin with
    | (.signed payload, pin) =>
      (Handshake.step crypto gatewayId s.gateway (.sign agent.key payload)).map
        fun gateway => ⟨gateway, pin, a :: s.signed⟩
    | (_, pin) => some { s with pin }

/-! ## The statement -/

/-- The actions of the gateway meet the condition. -/
def GatewayMeets (C : Handshake.State → Handshake.Action → Prop) (s : State) : Action → Prop
  | .gateway a => C s.gateway a
  | .session _ => True

instance (C : Handshake.State → Handshake.Action → Prop) [∀ s a, Decidable (C s a)] (s : State)
    (a : Action) : Decidable (GatewayMeets C s a) := by
  unfold GatewayMeets
  split <;> infer_instance

/-- The agent has answered the challenge of the connection as one of this gateway to itself, after
it was sent and before the gateway verified it. -/
def Answered (gatewayId : String) (agent : Holder) (t : State) (log : List Handshake.Event)
    (conn : ℕ) (g : Greeting) : Prop :=
  g.peer.hostname = agent.machine.hostname ∧
    (∃ a ∈ t.signed, a.gatewayId = gatewayId ∧ agent.machine.decode a.nonce = some g.nonce.bytes) ∧
    List.Sublist [.verified conn g.peer.publicKey (g.payload gatewayId),
      .signed agent.key (g.payload gatewayId), .challenged conn g.nonce] log

/-- The gateway registers the agent when it is the pinned one only, and each time on a challenge of
its own that the agent has answered. -/
structure Agreed (crypto : Crypto) (gatewayId : String) (agent : Holder) (pinned : String)
    (t : State) : Prop where
  answered : ∀ hostId conn log, .registered hostId conn :: log <:+ t.gateway.log →
    ∀ g ∈ t.gateway.greeting conn, crypto.keyBytes g.peer.publicKey = some agent.key →
      gatewayId = pinned ∧ Answered gatewayId agent t log conn g
  injective : ∀ conn conn' g g', t.gateway.greeting conn = some g →
    t.gateway.greeting conn' = some g' → g.nonce.bytes = g'.nonce.bytes → conn = conn'

/-! ## What a step of the gateway adds -/

section

variable {crypto : Crypto} {gatewayId : String} {s t : Handshake.State} {a : Handshake.Action}

/-- An approval signs nothing. -/
theorem signed_proceed {request : ℕ} {file file' : HostsFile} {a : Handshake.ApproveAction}
    {q q' : Handshake.Approval} {L : List Handshake.Event} {key payload : List UInt8}
    (h : Handshake.proceed request file a q = some (q', file', L)) :
    .signed key payload ∉ L := by
  cases Handshake.proceeds_of_proceed h <;> simp

/-- Signatures are made by their holders only. -/
theorem signed_step (h : Handshake.step crypto gatewayId s a = some t) :
    ∃ L, t.log = L ++ s.log ∧ ∀ key payload, .signed key payload ∈ L → a = .sign key payload := by
  cases Handshake.steps_of_step h with
  | @hello conn hello remoteIp nonce =>
    rcases Handshake.greet_cases hello remoteIp nonce s with heq | ⟨g, -, heq⟩
    · rw [heq]
      exact ⟨[], rfl, by simp⟩
    · rw [heq]
      exact ⟨[.challenged conn nonce], rfl, by simp⟩
  | @conn conn a g p shared L hg hadvance =>
    obtain ⟨-, -, -, -, hprivate⟩ := Handshake.advance_moves hadvance
    refine ⟨L, rfl, fun key payload hmem => ?_⟩
    cases hprivate _ hmem
  | @enterPending conn reason g =>
    unfold Handshake.enterPending
    split
    · exact ⟨[.inserted conn g.peer.publicKey], rfl, by simp⟩
    · exact ⟨[], rfl, by simp⟩
  | @pickUp conn host => exact ⟨[.received conn host], rfl, by simp⟩
  | giveUp | leavePending | others => exact ⟨[], rfl, by simp⟩
  | approveFound | approveNotFound => exact ⟨[_], rfl, by simp⟩
  | @approve request a q file L hproceed =>
    exact ⟨L, rfl, fun key payload hmem => absurd hmem (signed_proceed hproceed)⟩
  | @approveHand request job host =>
    unfold Handshake.hand
    dsimp only
    split
    · exact ⟨[_], rfl, by simp⟩
    · split_ifs
      · exact ⟨[_, _], rfl, by simp⟩
      · exact ⟨[_], rfl, by simp⟩
  | @sign key payload => exact ⟨[.signed key payload], rfl, by simp⟩

/-- A connection is greeted once, with a nonce that is challenged there and then. -/
theorem greeting_step (h : Handshake.step crypto gatewayId s a = some t) :
    t.greeting = s.greeting ∨ ∃ conn hello remoteIp g, a = .hello conn hello remoteIp g.nonce ∧
      t.greeting = Function.update s.greeting conn (some g) ∧
      t.log = .challenged conn g.nonce :: s.log := by
  cases Handshake.steps_of_step h with
  | @hello conn hello remoteIp nonce =>
    rcases Handshake.greet_cases hello remoteIp nonce s with heq | ⟨g, rfl, heq⟩
    · rw [heq]
      exact .inl rfl
    · rw [heq]
      exact .inr ⟨conn, hello, remoteIp, g, rfl, rfl, rfl⟩
  | enterPending =>
    left
    unfold Handshake.enterPending
    split <;> rfl
  | approveHand =>
    left
    unfold Handshake.hand
    dsimp only
    split
    · rfl
    · split_ifs <;> rfl
  | _ => exact .inl rfl

/-- The connections that were challenged have nonces of their own. -/
structure OwnNonces (s : Handshake.State) : Prop where
  challenged : ∀ conn g, s.greeting conn = some g → .challenged conn g.nonce ∈ s.log
  injective : ∀ conn conn' g g', s.greeting conn = some g → s.greeting conn' = some g' →
    g.nonce.bytes = g'.nonce.bytes → conn = conn'

theorem Nonce.ext {nonce nonce' : Nonce} (h : nonce.bytes = nonce'.bytes) : nonce = nonce' := by
  cases nonce
  cases nonce'
  cases h
  rfl

theorem ownNonces_init (file : HostsFile) : OwnNonces (.init file) where
  challenged _ _ h := by cases h
  injective _ _ _ _ h := by cases h

theorem OwnNonces.step (hs : OwnNonces s) (hfresh : Handshake.NoncesFresh s a)
    (h : Handshake.step crypto gatewayId s a = some t) : OwnNonces t := by
  obtain ⟨L, hlog, -⟩ := signed_step h
  rcases greeting_step h with heq | ⟨conn, hello, remoteIp, g, rfl, heq, hlog'⟩
  · refine ⟨fun c g hg => ?_, fun c c' g g' hg hg' => ?_⟩
    · rw [hlog]
      exact List.mem_append_right L (hs.challenged c g (heq ▸ hg))
    · exact hs.injective c c' g g' (heq ▸ hg) (heq ▸ hg')
  · have hnew (c : ℕ) (g' : Greeting) (hg' : s.greeting c = some g') :
        g'.nonce.bytes ≠ g.nonce.bytes := by
      intro hbytes
      refine hfresh _ (hs.challenged c g' hg') ?_
      simpa [Handshake.Event.uses] using Nonce.ext hbytes
    refine ⟨fun c g' hg' => ?_, fun c c' g' g'' hg' hg'' hbytes => ?_⟩
    · rw [heq] at hg'
      rw [hlog']
      by_cases hc : c = conn
      · subst hc
        rw [Function.update_self] at hg'
        cases hg'
        exact List.mem_cons_self
      · rw [Function.update_of_ne hc] at hg'
        exact List.mem_cons_of_mem _ (hs.challenged c g' hg')
    · rw [heq] at hg' hg''
      by_cases hc : c = conn
      · by_cases hc' : c' = conn
        · exact hc.trans hc'.symm
        · subst hc
          rw [Function.update_self] at hg'
          rw [Function.update_of_ne hc'] at hg''
          cases hg'
          exact absurd hbytes.symm (hnew c' g'' hg'')
      · rw [Function.update_of_ne hc] at hg'
        by_cases hc' : c' = conn
        · subst hc'
          rw [Function.update_self] at hg''
          cases hg''
          exact absurd hbytes (hnew c g' hg')
        · rw [Function.update_of_ne hc'] at hg''
          exact hs.injective c c' g' g'' hg' hg'' hbytes

end

/-! ## What the agent signs -/

/-- A session that is signed in has a nonce of 32 bytes, and is signed for the own host. -/
theorem payload_of_signChallenge {machine : Pin.Machine} {nonce gatewayId : String}
    {payload : List UInt8} (h : Pin.signChallenge machine nonce gatewayId = .signed payload) :
    ∃ n : Nonce, machine.decode nonce = some n.bytes ∧
      payload = buildChallengePayload n machine.hostname gatewayId := by
  unfold Pin.signChallenge at h
  split at h
  · cases h
  · rename_i bytes hdecode
    split_ifs at h with hlength
    cases h
    exact ⟨⟨bytes, hlength⟩, hdecode, rfl⟩

/-- The verdict of a session is that on its challenge, when it is a signature. -/
theorem signChallenge_of_runSession {machine : Pin.Machine} {a : Pin.Session}
    {pin : Option String} {payload : List UInt8}
    (h : (Pin.runSession machine a pin).1 = .signed payload) :
    Pin.signChallenge machine a.nonce a.gatewayId = .signed payload := by
  unfold Pin.runSession at h
  split at h
  · cases h
  · split_ifs at h
    exact h
  · split_ifs at h
    split at h
    · cases h
    · exact h

/-- The signature comes from a session, with the pinned gateway. -/
def Signed (agent : Holder) (pinned : String) (sessions : List Pin.Session)
    (payload : List UInt8) : Prop :=
  ∃ a ∈ sessions, a.gatewayId = pinned ∧ ∃ n : Nonce, agent.machine.decode a.nonce = some n.bytes ∧
    payload = buildChallengePayload n agent.machine.hostname pinned

section

variable {crypto : Crypto} {gatewayId pinned : String} {agent : Holder} {s t : State} {a : Action}

structure Invariant (crypto : Crypto) (gatewayId : String) (agent : Holder) (pinned : String)
    (s : State) : Prop where
  gateway : Handshake.Invariant crypto gatewayId s.gateway
  nonces : OwnNonces s.gateway
  pin : s.pin = some pinned
  signed : ∀ payload, .signed agent.key payload ∈ s.gateway.log →
    Signed agent pinned s.signed payload

theorem invariant_init (file : HostsFile) :
    Invariant crypto gatewayId agent pinned (.init file (some pinned)) where
  gateway := Handshake.invariant_init file
  nonces := ownNonces_init file
  pin := rfl
  signed _ h := by cases h

theorem invariant_step (sound : crypto.Sound) (hstable : Pin.Stable pinned)
    (hs : Invariant crypto gatewayId agent pinned s)
    (hideal : GatewayMeets (Handshake.SignaturesIdeal crypto gatewayId) s a)
    (hfresh : GatewayMeets Handshake.NoncesFresh s a)
    (h : step crypto gatewayId agent s a = some t) :
    Invariant crypto gatewayId agent pinned t := by
  cases a with
  | gateway a =>
    simp only [step] at h
    split_ifs at h with hkey
    obtain ⟨gateway, hstep, rfl⟩ := Option.map_eq_some_iff.1 h
    refine ⟨Handshake.invariant_step sound hs.gateway hideal hfresh hstep,
      hs.nonces.step hfresh hstep, hs.pin, fun payload hmem => ?_⟩
    obtain ⟨L, hlog, hsigned⟩ := signed_step hstep
    rw [hlog] at hmem
    rcases List.mem_append.1 hmem with hnew | hold
    · refine absurd ?_ hkey
      rw [hsigned _ _ hnew]
      exact decide_eq_true rfl
    · exact hs.signed payload hold
  | session a =>
    obtain ⟨hkept, hpinned, -⟩ := Pin.runSession_pinned agent.machine a hstable
    rw [← hs.pin] at hkept hpinned
    simp only [step] at h
    split at h
    · rename_i payload pin hrun
      obtain ⟨gateway, hstep, rfl⟩ := Option.map_eq_some_iff.1 h
      rw [hrun] at hkept hpinned
      have hgateway := Handshake.invariant_step (a := .sign agent.key payload) sound hs.gateway
        trivial trivial hstep
      have hnonces := hs.nonces.step (a := .sign agent.key payload) trivial hstep
      refine ⟨hgateway, hnonces, hkept.trans hs.pin, fun payload' hmem => ?_⟩
      cases hstep
      rcases List.mem_cons.1 hmem with heq | hold
      · cases heq
        have hid : a.gatewayId = pinned := hpinned rfl
        obtain ⟨n, hdecode, hpayload⟩ :=
          payload_of_signChallenge (signChallenge_of_runSession (congrArg Prod.fst hrun))
        exact ⟨a, List.mem_cons_self, hid, n, hdecode, hid ▸ hpayload⟩
      · obtain ⟨b, hb, hrest⟩ := hs.signed payload' hold
        exact ⟨b, List.mem_cons_of_mem a hb, hrest⟩
    · rename_i verdict pin _ hrun
      cases h
      rw [hrun] at hkept
      exact ⟨hs.gateway, hs.nonces, hkept.trans hs.pin, hs.signed⟩

/-- A signature under the key of the agent that the gateway took for its own challenge. -/
theorem Invariant.agreed (hs : Invariant crypto gatewayId agent pinned s)
    (hshort : (asBytes gatewayId).length < 65536) (hshort' : (asBytes pinned).length < 65536) :
    Agreed crypto gatewayId agent pinned s where
  injective := hs.nonces.injective
  answered hostId conn log hlog g hg hkey := by
    obtain ⟨g', hg', ⟨key, hkey', hproved⟩, -⟩ := hs.gateway.agreement hostId conn log hlog
    cases (Option.mem_def.1 hg).symm.trans hg'
    cases hkey.symm.trans hkey'
    have hmem : .signed agent.key (g.payload gatewayId) ∈ s.gateway.log := by
      refine hlog.subset (List.mem_cons_of_mem _ (hproved.subset ?_))
      exact List.mem_cons_of_mem _ List.mem_cons_self
    obtain ⟨a, ha, hid, n, hdecode, hpayload⟩ := hs.signed _ hmem
    have hsame : (⟨g.nonce, g.peer.hostname, gatewayId⟩ : Challenge) =
        ⟨n, agent.machine.hostname, pinned⟩ :=
      Challenge.eq_of_payload_eq_of_short hshort hshort' hpayload
    obtain ⟨hnonce, hhostname, heq⟩ := Challenge.mk.inj hsame
    exact ⟨heq, hhostname, ⟨a, ha, hid.trans heq.symm, hnonce ▸ hdecode⟩, hproved⟩

end

def webAgent : Holder where
  key := webKey
  machine := ⟨fun s => Base64.decode s.toList, "web"⟩

def webNonceB64 : String := "AAECAwQFBgcICQoLDA0ODxAREhMUFRYXGBkaGxwdHh8="

/-- The agent is pinned to the gateway "gw"; a gateway "evil" relays the nonce of "gw" to it under
its own id and is refused, then under the other one's. -/
def webRelays : List Action :=
  [.gateway (.hello 0 ⟨2, "web", false, some webKeyB64, none, none⟩ "127.0.0.1" webNonce),
    .session ⟨none, false, .saved, webNonceB64, "evil"⟩,
    .session ⟨none, false, .saved, webNonceB64, "gw"⟩,
    .gateway (.conn 0 (.respond webSignatureB64)), .gateway (.conn 0 .lookKey),
    .gateway (.conn 0 .lookHost), .gateway (.conn 0 (.takeToken 0)),
    .gateway (.conn 0 (.load ⟨"h1", "t0"⟩)), .gateway (.conn 0 (.save .done)),
    .gateway (.conn 0 .register)]

end Tenodera.Gateway.Mutual
