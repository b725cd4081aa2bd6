import Tenodera.Gateway.AgentKeys
import Tenodera.Lib.Utf8

/-!
# What a signature of a challenge binds

The payload writes the length of each text as a `u16`, so lengths that differ by a multiple of 65536
look the same: a text can be continued by the length and the beginning of the text behind it
(`Resplits`).  `distinguishes_iff` says that this is the one way in which two challenges have the
same payload, and `distinguishes_of_short` that short gateway ids rule it out.
-/

namespace Tenodera.Gateway

open Protocol

/-- What an agent signs. -/
structure Challenge where
  nonce : Nonce
  hostname : String
  gatewayId : String
  deriving DecidableEq

namespace Challenge

def payload (c : Challenge) : List UInt8 := buildChallengePayload c.nonce c.hostname c.gatewayId

/-- The length of a text as the payload has it. -/
def lengthBytes (s : String) : List UInt8 := toBeBytes (.ofNat (asBytes s).length)

/-- The hostname of `c'` is that of `c`, continued by the length of the gateway id of `c` and the
beginning of that id, over a multiple of 65536 bytes; the rest of that id is the length and the
gateway id of `c'`. -/
def Resplits (c c' : Challenge) : Prop :=
  c.nonce = c'.nonce ∧ ∃ bytes : List UInt8, 65536 ∣ bytes.length + 2 ∧
    asBytes c'.hostname = asBytes c.hostname ++ lengthBytes c.gatewayId ++ bytes ∧
    asBytes c.gatewayId = bytes ++ lengthBytes c'.gatewayId ++ asBytes c'.gatewayId

/-- Different challenges have different payloads, and no signature verifies for both. -/
def Distinguishes (crypto : Crypto) (c c' : Challenge) : Prop :=
  (c.payload = c'.payload → c = c') ∧
    ∀ pubkeyB64 sigB64, crypto.verifySignature pubkeyB64 sigB64 c.nonce c.hostname c.gatewayId →
      crypto.verifySignature pubkeyB64 sigB64 c'.nonce c'.hostname c'.gatewayId → c = c'

end Challenge

/-- `verify_strict` accepts a signature for one payload only. -/
def Crypto.Binding (crypto : Crypto) : Prop :=
  ∀ key payload payload' signature, crypto.verifyStrict key payload signature →
    crypto.verifyStrict key payload' signature → payload = payload'

namespace Challenge

variable {crypto : Crypto} {c c' : Challenge} {s t : String}

/-! ## Bytes -/

theorem asBytes_injective : Function.Injective asBytes := by
  intro s t h
  exact String.toByteArray_inj.1 (ByteArray.ext (Array.toList_inj.1 h))

theorem toBeBytes_injective : Function.Injective toBeBytes := by
  intro m n h
  obtain ⟨hhigh, hlow⟩ : (m >>> 8).toUInt8 = (n >>> 8).toUInt8 ∧ m.toUInt8 = n.toUInt8 := by
    simpa [toBeBytes] using h
  have hquot := congrArg UInt8.toNat hhigh
  have hmod := congrArg UInt8.toNat hlow
  have hm := m.toNat_lt
  have hn := n.toNat_lt
  simp only [UInt16.toNat_toUInt8, UInt16.toNat_shiftRight, Nat.shiftRight_eq_div_pow,
    UInt16.reduceToNat, Nat.reduceMod, Nat.reducePow] at hquot hmod
  exact UInt16.toNat_inj.1 (by omega)

theorem length_lengthBytes (s : String) : (lengthBytes s).length = 2 := rfl

/-- The length bytes tell lengths apart modulo 65536. -/
theorem lengthBytes_eq_iff :
    lengthBytes s = lengthBytes t ↔ (asBytes s).length % 65536 = (asBytes t).length % 65536 := by
  unfold lengthBytes
  rw [toBeBytes_injective.eq_iff, ← UInt16.toNat_inj, UInt16.toNat_ofNat', UInt16.toNat_ofNat']

/-! ## Payloads -/

/-- The bytes behind the nonce. -/
def texts (c : Challenge) : List UInt8 :=
  lengthBytes c.hostname ++ (asBytes c.hostname ++
    (lengthBytes c.gatewayId ++ asBytes c.gatewayId))

theorem payload_eq : c.payload = domainPrefix ++ (c.nonce.bytes ++ c.texts) := by
  simp only [payload, buildChallengePayload, lengthPrefixed, texts, lengthBytes, List.append_assoc]

theorem payload_eq_iff : c.payload = c'.payload ↔ c.nonce = c'.nonce ∧ c.texts = c'.texts := by
  rw [payload_eq, payload_eq, List.append_cancel_left_eq]
  constructor
  · intro h
    obtain ⟨hnonce, htexts⟩ := List.append_inj h (c.nonce.length.trans c'.nonce.length.symm)
    refine ⟨?_, htexts⟩
    cases hc : c.nonce
    cases hc' : c'.nonce
    simpa [hc, hc'] using hnonce
  · rintro ⟨hnonce, htexts⟩
    rw [hnonce, htexts]

/-- Texts of which one hostname continues the other one. -/
theorem eq_or_resplits_of_append {bytes : List UInt8} (hnonce : c.nonce = c'.nonce)
    (hlength : lengthBytes c.hostname = lengthBytes c'.hostname)
    (hhostname : asBytes c'.hostname = asBytes c.hostname ++ bytes)
    (hrest : lengthBytes c.gatewayId ++ asBytes c.gatewayId =
      bytes ++ (lengthBytes c'.gatewayId ++ asBytes c'.gatewayId)) : c = c' ∨ c.Resplits c' := by
  have hdvd : 65536 ∣ bytes.length := by
    rw [lengthBytes_eq_iff, hhostname, List.length_append] at hlength
    omega
  by_cases hempty : bytes = []
  · left
    subst hempty
    rw [List.append_nil] at hhostname
    rw [List.nil_append] at hrest
    obtain ⟨-, hid⟩ := List.append_inj hrest rfl
    cases c
    cases c'
    simp_all [asBytes_injective.eq_iff]
  · right
    -- The bytes are at least 65536, so they begin with the length of the gateway id.
    have hlong : 65536 ≤ bytes.length := Nat.le_of_dvd (List.length_pos_iff.2 hempty) hdvd
    have hbegins : lengthBytes c.gatewayId <+: bytes := by
      refine List.prefix_of_prefix_length_le ⟨_, hrest⟩ (List.prefix_append _ _) ?_
      rw [length_lengthBytes]
      omega
    obtain ⟨rest, rfl⟩ := hbegins
    rw [List.append_assoc, List.append_cancel_left_eq] at hrest
    rw [List.length_append, length_lengthBytes, Nat.add_comm] at hdvd
    rw [← List.append_assoc] at hhostname hrest
    exact ⟨hnonce, rest, hdvd, hhostname, hrest⟩

theorem eq_or_resplits (h : c.payload = c'.payload) : c = c' ∨ c.Resplits c' ∨ c'.Resplits c := by
  obtain ⟨hnonce, htexts⟩ := payload_eq_iff.1 h
  obtain ⟨hlength, hbody⟩ := List.append_inj htexts rfl
  rcases List.append_eq_append_iff.1 hbody with ⟨bytes, hhostname, hrest⟩ |
    ⟨bytes, hhostname, hrest⟩
  · rcases eq_or_resplits_of_append hnonce hlength hhostname hrest with heq | hsplit
    · exact .inl heq
    · exact .inr (.inl hsplit)
  · rcases eq_or_resplits_of_append hnonce.symm hlength.symm hhostname hrest with heq | hsplit
    · exact .inl heq.symm
    · exact .inr (.inr hsplit)

theorem Resplits.payload_eq (h : c.Resplits c') : c.payload = c'.payload := by
  obtain ⟨hnonce, bytes, hdvd, hhostname, hid⟩ := h
  have hlength : lengthBytes c.hostname = lengthBytes c'.hostname := by
    rw [lengthBytes_eq_iff, hhostname, List.length_append, List.length_append, length_lengthBytes]
    omega
  refine payload_eq_iff.2 ⟨hnonce, ?_⟩
  unfold texts
  rw [hlength, hhostname, hid]
  simp only [List.append_assoc]

theorem Resplits.ne (h : c.Resplits c') : c ≠ c' := by
  rintro rfl
  obtain ⟨-, bytes, -, hhostname, -⟩ := h
  have hlength := congrArg List.length hhostname
  rw [List.length_append, List.length_append, length_lengthBytes] at hlength
  omega

/-- A continued hostname takes 65534 bytes out of a gateway id. -/
theorem Resplits.length_le (h : c.Resplits c') : 65536 ≤ (asBytes c.gatewayId).length := by
  obtain ⟨-, bytes, hdvd, -, hid⟩ := h
  have hlong : 65536 ≤ bytes.length + 2 := Nat.le_of_dvd (Nat.succ_pos _) hdvd
  rw [hid, List.length_append, List.length_append, length_lengthBytes]
  omega

/-- Short gateway ids, such as those that gateways make for themselves, leave no room for a
continued hostname. -/
theorem eq_of_payload_eq_of_short (hid : (asBytes c.gatewayId).length < 65536)
    (hid' : (asBytes c'.gatewayId).length < 65536) (h : c.payload = c'.payload) : c = c' := by
  rcases eq_or_resplits h with heq | hsplit | hsplit
  · exact heq
  · exact absurd hsplit.length_le (Nat.not_le_of_lt hid)
  · exact absurd hsplit.length_le (Nat.not_le_of_lt hid')

/-! ## Signatures -/

/-- A signature verifies for the payload alone. -/
theorem verifySignature_congr (h : c.payload = c'.payload) (crypto : Crypto)
    (pubkeyB64 sigB64 : String) :
    crypto.verifySignature pubkeyB64 sigB64 c.nonce c.hostname c.gatewayId =
      crypto.verifySignature pubkeyB64 sigB64 c'.nonce c'.hostname c'.gatewayId := by
  unfold payload at h
  unfold Crypto.verifySignature
  rw [h]

theorem payload_eq_of_verifySignature (hbinding : crypto.Binding) {pubkeyB64 sigB64 : String}
    (h : crypto.verifySignature pubkeyB64 sigB64 c.nonce c.hostname c.gatewayId)
    (h' : crypto.verifySignature pubkeyB64 sigB64 c'.nonce c'.hostname c'.gatewayId) :
    c.payload = c'.payload := by
  unfold Crypto.verifySignature at h h'
  split at h
  next => cases h
  next key hkey =>
    rw [hkey] at h'
    split at h
    next => cases h
    next signature hsig =>
      rw [hsig] at h'
      exact hbinding key _ _ signature h h'

end Challenge

namespace Challenge

/-- Two challenges are told apart, by their payloads and by every signature, iff neither hostname is
the other one continued by bytes of a gateway id. -/
theorem distinguishes_iff (crypto : Crypto) (hbinding : crypto.Binding) (c c' : Challenge) :
    Distinguishes crypto c c' ↔ ¬ (c.Resplits c' ∨ c'.Resplits c) := by
  constructor
  · rintro ⟨hpayload, -⟩ (hsplit | hsplit)
    · exact hsplit.ne (hpayload hsplit.payload_eq)
    · exact hsplit.ne (hpayload hsplit.payload_eq.symm).symm
  · intro hsplit
    have hinj (h : c.payload = c'.payload) : c = c' := (eq_or_resplits h).resolve_right hsplit
    exact ⟨hinj, fun _ _ h h' => hinj (payload_eq_of_verifySignature hbinding h h')⟩

theorem webCrypto_binding : webCrypto.Binding := by
  intro key payload payload' signature h h'
  have hne : webSignature ≠ webSignature' := by decide
  simp only [webCrypto, decide_eq_true_eq] at h h'
  obtain ⟨-, ⟨rfl, rfl⟩ | ⟨rfl, rfl⟩⟩ := h
  · obtain ⟨-, ⟨rfl, -⟩ | ⟨-, heq⟩⟩ := h'
    · rfl
    · exact absurd heq hne
  · obtain ⟨-, ⟨-, heq⟩ | ⟨rfl, -⟩⟩ := h'
    · exact absurd heq.symm hne
    · rfl

/-- The two challenges that the agent on "web" has answered. -/
theorem distinguishes_web :
    Distinguishes webCrypto ⟨webNonce, "web", "gw"⟩ ⟨webNonce', "web", "gw"⟩ :=
  (distinguishes_iff webCrypto webCrypto_binding _ _).2 fun hsplit =>
    absurd (hsplit.elim (fun h => h.1) fun h => h.1.symm) (by decide)

/-! ## A transplanted signature -/

def filler : String := .ofList (List.replicate 65534 'x')

def webGatewayId : String := "6f9619ff-8b86-4d01-b42d-00c04fc964ff"

/-- The challenge of a gateway with an id of 65572 bytes to the agent on "web". -/
def longChallenge : Challenge := ⟨webNonce, "web", filler ++ "\x00$" ++ webGatewayId⟩

/-- The challenge with the same nonce of the real gateway, to an agent with a hostname of 65539
bytes. -/
def realChallenge : Challenge := ⟨webNonce, "web" ++ "\x00$" ++ filler, webGatewayId⟩

theorem asBytes_append (s t : String) : asBytes (s ++ t) = asBytes s ++ asBytes t := by
  simp [asBytes]

theorem length_asBytes (s : String) : (asBytes s).length = s.utf8ByteSize := rfl

theorem length_asBytes_replicate (n : ℕ) :
    (asBytes (.ofList (List.replicate n 'x'))).length = n := by
  have hascii : Utf8.Ascii (String.ofList (List.replicate n 'x')).toList := by
    intro c hc
    rw [String.toList_ofList] at hc
    obtain rfl := List.eq_of_mem_replicate hc
    rfl
  rw [length_asBytes, Utf8.utf8ByteSize_eq_length hascii, String.length_ofList,
    List.length_replicate]

theorem length_asBytes_filler : (asBytes filler).length = 65534 := length_asBytes_replicate 65534

theorem longChallenge_resplits : longChallenge.Resplits realChallenge := by
  have hlong : lengthBytes longChallenge.gatewayId = asBytes "\x00$" := by
    have hlength : (asBytes longChallenge.gatewayId).length = 65572 := by
      have hseparator : (asBytes "\x00$").length = 2 := rfl
      have hid : (asBytes webGatewayId).length = 36 := rfl
      rw [longChallenge, asBytes_append, asBytes_append, List.length_append, List.length_append,
        length_asBytes_filler, hseparator, hid]
    unfold lengthBytes
    rw [hlength]
    rfl
  refine ⟨rfl, asBytes filler, ?_, ?_, ?_⟩
  · exact ⟨1, by rw [length_asBytes_filler]⟩
  · rw [hlong]
    simp only [longChallenge, realChallenge, asBytes_append]
  · have hreal : lengthBytes realChallenge.gatewayId = asBytes "\x00$" := rfl
    rw [hreal]
    simp only [longChallenge, realChallenge, asBytes_append]

/-- Who gets the signature for the first challenge has one for the second. -/
theorem transplant : ¬ Distinguishes webCrypto longChallenge realChallenge ∧
    ∀ (crypto : Crypto) (pubkeyB64 sigB64 : String),
      crypto.verifySignature pubkeyB64 sigB64 longChallenge.nonce longChallenge.hostname
          longChallenge.gatewayId =
        crypto.verifySignature pubkeyB64 sigB64 realChallenge.nonce realChallenge.hostname
          realChallenge.gatewayId := by
  have hpayload := longChallenge_resplits.payload_eq
  exact ⟨fun h => longChallenge_resplits.ne (h.1 hpayload), verifySignature_congr hpayload⟩

end Challenge

end Tenodera.Gateway
