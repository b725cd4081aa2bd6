import Mathlib.Logic.Equiv.Basic
import Tenodera.Gateway.AgentAuth
import Tenodera.Gateway.Channels
import Tenodera.Protocol.Auth

/-!
# Keys and signatures of agents

`verifySignature` and the fingerprint of a key, over the functions of the cryptographic libraries.
Keys that a signature was verified under have different fingerprints.
-/

namespace Tenodera.Gateway

open Protocol

/-- What the gateway uses of its libraries. -/
structure Crypto where
  /-- `STANDARD.decode`. -/
  base64Decode : String → Option (List UInt8)
  /-- `VerifyingKey::from_bytes` takes the bytes for a key. -/
  isVerifyingKey : List UInt8 → Bool
  /-- `verify_strict` accepts the signature of the payload. -/
  verifyStrict (key payload signature : List UInt8) : Bool
  sha256 : List UInt8 → List UInt8

namespace Crypto

/-- Base64 has one text for the same bytes, and no two keys have the same digest. -/
structure Sound (crypto : Crypto) : Prop where
  base64 : ∀ s s' bytes,
    crypto.base64Decode s = some bytes → crypto.base64Decode s' = some bytes → s = s'
  sha256 : ∀ bytes bytes', bytes.length = 32 → bytes'.length = 32 →
    crypto.sha256 bytes = crypto.sha256 bytes' → bytes = bytes'

/-- The bytes of a text that `verify_signature` takes for a public key. -/
def keyBytes (crypto : Crypto) (pubkeyB64 : String) : Option (List UInt8) :=
  (crypto.base64Decode pubkeyB64).filter fun bytes =>
    bytes.length = 32 && crypto.isVerifyingKey bytes

/-- The bytes of a text that `verify_signature` takes for a signature. -/
def sigBytes (crypto : Crypto) (sigB64 : String) : Option (List UInt8) :=
  (crypto.base64Decode sigB64).filter fun bytes => bytes.length = 64

def verifySignature (crypto : Crypto) (pubkeyB64 sigB64 : String) (nonce : Nonce)
    (hostname gatewayId : String) : Bool :=
  match crypto.keyBytes pubkeyB64 with
  | none => false
  | some key =>
    match crypto.sigBytes sigB64 with
    | none => false
    | some signature =>
      crypto.verifyStrict key (buildChallengePayload nonce hostname gatewayId) signature

end Crypto

/-! ## Hexadecimal text -/

/-- `bytes_to_hex`: two lower-case digits for each byte. -/
def bytesToHex (bytes : List UInt8) : String :=
  .ofList (bytes.flatMap fun b => [hexDigit (b.toNat / 16), hexDigit (b.toNat % 16)])

theorem hexDigit_inj : ∀ m < 16, ∀ n < 16, hexDigit m = hexDigit n → m = n := by decide

theorem bytesToHex_injective : Function.Injective bytesToHex := by
  intro a b h
  have hdigits := String.ofList_injective h
  induction a generalizing b with
  | nil =>
    cases b with
    | nil => rfl
    | cons y ys => cases hdigits
  | cons x xs ih =>
    cases b with
    | nil => cases hdigits
    | cons y ys =>
      simp only [List.flatMap_cons, List.cons_append, List.nil_append, List.cons.injEq]
        at hdigits
      obtain ⟨hhigh, hlow, hrest⟩ := hdigits
      have hx := x.toNat_lt
      have hy := y.toNat_lt
      have hquot := hexDigit_inj _ (by omega) _ (by omega) hhigh
      have hmod := hexDigit_inj _ (by omega) _ (by omega) hlow
      have hxy : x = y := UInt8.toNat_inj.1 (by omega)
      rw [hxy, ih (congrArg String.ofList hrest) hrest]

/-! ## Fingerprints -/

namespace Crypto

/-- The digests that enrolment works with; `pubkey_fingerprint_hex` has no digits for a text that
does not decode. -/
def hashes (crypto : Crypto) : Hashes where
  tokenDigest value := bytesToHex (crypto.sha256 (asBytes value))
  pubkeyFingerprintHex pubkeyB64 :=
    match crypto.base64Decode pubkeyB64 with
    | some bytes => bytesToHex (crypto.sha256 bytes)
    | none => ""

variable {crypto : Crypto} {pubkeyB64 pubkeyB64' : String}

theorem isSome_keyBytes_of_verifySignature {sigB64 hostname gatewayId : String} {nonce : Nonce}
    (h : crypto.verifySignature pubkeyB64 sigB64 nonce hostname gatewayId) :
    (crypto.keyBytes pubkeyB64).isSome := by
  unfold verifySignature at h
  rcases hkey : crypto.keyBytes pubkeyB64 with _ | key
  · rw [hkey] at h
    cases h
  · rfl

theorem decode_of_keyBytes (h : (crypto.keyBytes pubkeyB64).isSome) :
    ∃ bytes, crypto.base64Decode pubkeyB64 = some bytes ∧ bytes.length = 32 := by
  obtain ⟨bytes, hbytes⟩ := Option.isSome_iff_exists.1 h
  obtain ⟨hdecode, hkey⟩ := Option.filter_eq_some_iff.1 hbytes
  exact ⟨bytes, hdecode, of_decide_eq_true (Bool.and_eq_true_iff.1 hkey).1⟩

/-- Public keys with the same fingerprint are the same. -/
theorem fingerprint_inj (sound : crypto.Sound) (h : (crypto.keyBytes pubkeyB64).isSome)
    (h' : (crypto.keyBytes pubkeyB64').isSome)
    (heq : crypto.hashes.pubkeyFingerprintHex pubkeyB64 =
      crypto.hashes.pubkeyFingerprintHex pubkeyB64') : pubkeyB64 = pubkeyB64' := by
  obtain ⟨bytes, hdecode, hlength⟩ := decode_of_keyBytes h
  obtain ⟨bytes', hdecode', hlength'⟩ := decode_of_keyBytes h'
  simp only [hashes, hdecode, hdecode'] at heq
  have hbytes := sound.sha256 bytes bytes' hlength hlength' (bytesToHex_injective heq)
  subst hbytes
  exact sound.base64 pubkeyB64 pubkeyB64' bytes hdecode hdecode'

end Crypto

/-! For the concrete runs: the key of an agent on the host "web", and its answers to two challenges
of the gateway "gw". -/

def webKey : List UInt8 :=
  [144, 3, 189, 189, 5, 5, 45, 45, 11, 112, 166, 246, 234, 159, 144, 124, 38, 211, 106, 188, 89,
    240, 124, 192, 13, 209, 28, 199, 234, 243, 217, 32]

def webKeyB64 : String := "kAO9vQUFLS0LcKb26p+QfCbTarxZ8HzADdEcx+rz2SA="

def webFingerprintHex : String :=
  "42913e8ae6fb568b041287fca83b6c98137531f745b95150379e94e861190786"

def webDigest : List UInt8 :=
  [66, 145, 62, 138, 230, 251, 86, 139, 4, 18, 135, 252, 168, 59, 108, 152, 19, 117, 49, 247, 69,
    185, 81, 80, 55, 158, 148, 232, 97, 25, 7, 134]

def webNonce : Nonce where
  bytes := (List.range 32).map .ofNat
  length := rfl

def webSignature : List UInt8 :=
  [64, 98, 121, 217, 85, 79, 56, 25, 66, 101, 210, 176, 103, 144, 230, 160, 137, 171, 102, 174, 143,
    125, 134, 177, 195, 46, 88, 90, 31, 184, 195, 11, 95, 137, 247, 174, 58, 172, 42, 204, 58, 144,
    56, 132, 224, 120, 35, 253, 135, 163, 103, 162, 3, 61, 222, 128, 46, 83, 126, 70, 162, 61, 250,
    9]

def webSignatureB64 : String :=
  "QGJ52VVPOBlCZdKwZ5DmoImrZq6PfYaxwy5YWh+4wwtfifeuOqwqzDqQOITgeCP9h6NnogM93oAuU35Goj36CQ=="

def webNonce' : Nonce where
  bytes := (List.range 32).map fun n => .ofNat (32 + n)
  length := rfl

def webSignature' : List UInt8 :=
  [157, 3, 226, 79, 230, 10, 22, 131, 224, 36, 130, 82, 190, 212, 23, 6, 116, 36, 127, 29, 61,
    138, 86, 96, 215, 238, 219, 159, 199, 110, 11, 108, 219, 172, 192, 252, 30, 147, 64, 117,
    201, 42, 252, 52, 98, 245, 118, 169, 188, 75, 24, 69, 105, 230, 9, 188, 226, 147, 30, 57,
    98, 205, 227, 1]

def webSignatureB64' : String :=
  "nQPiT+YKFoPgJIJSvtQXBnQkfx09ilZg1+7bn8duC2zbrMD8HpNAdckq/DRi9XapvEsYRWnmCbzikx45Ys3jAQ=="

/-- The functions of the libraries on the bytes of that agent. -/
def webCrypto : Crypto where
  base64Decode s :=
    if s = webKeyB64 then some webKey
    else if s = webSignatureB64 then some webSignature
    else if s = webSignatureB64' then some webSignature'
    else none
  isVerifyingKey bytes := bytes = webKey
  verifyStrict key payload signature :=
    key = webKey ∧
      (payload = buildChallengePayload webNonce "web" "gw" ∧ signature = webSignature ∨
        payload = buildChallengePayload webNonce' "web" "gw" ∧ signature = webSignature')
  sha256 := Equiv.swap webKey webDigest

theorem webCrypto_sound : webCrypto.Sound where
  base64 s s' bytes h h' := by
    have hne : webKey ≠ webSignature ∧ webKey ≠ webSignature' ∧ webSignature ≠ webSignature' := by
      decide
    simp only [webCrypto] at h h'
    split_ifs at h h' <;> simp_all
  sha256 _ _ _ _ h := (Equiv.swap webKey webDigest).injective h

end Tenodera.Gateway
