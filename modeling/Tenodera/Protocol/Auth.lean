import Mathlib.Data.List.Basic
import Mathlib.Data.Nat.Notation

/-!
# The payload that an agent signs
-/

namespace Tenodera.Protocol

/-- A random challenge of 32 bytes. -/
structure Nonce where
  bytes : List UInt8
  length : bytes.length = 32
  deriving DecidableEq

/-- `as_bytes`. -/
def asBytes (s : String) : List UInt8 := s.toUTF8.data.toList

/-- `to_be_bytes` of a `u16`. -/
def toBeBytes (n : UInt16) : List UInt8 := [(n >>> 8).toUInt8, n.toUInt8]

def domainPrefix : List UInt8 := asBytes "tenodera-agent-auth-v1\x00"

/-- A text with its length, `as u16`, before it. -/
def lengthPrefixed (s : String) : List UInt8 :=
  toBeBytes (.ofNat (asBytes s).length) ++ asBytes s

def buildChallengePayload (nonce : Nonce) (hostname gatewayId : String) : List UInt8 :=
  domainPrefix ++ nonce.bytes ++ lengthPrefixed hostname ++ lengthPrefixed gatewayId

/-- The bytes of a payload at which its nonce stands. -/
def nonceBytes (payload : List UInt8) : List UInt8 := (payload.drop domainPrefix.length).take 32

theorem nonceBytes_buildChallengePayload (nonce : Nonce) (hostname gatewayId : String) :
    nonceBytes (buildChallengePayload nonce hostname gatewayId) = nonce.bytes := by
  unfold nonceBytes buildChallengePayload
  rw [List.append_assoc, List.append_assoc, List.drop_left, List.take_left' nonce.length]

end Tenodera.Protocol
