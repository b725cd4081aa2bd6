import Mathlib.Data.List.AList
import Mathlib.Data.Nat.Notation

/-!
# Bootstrap tokens and pending agents

The two in-memory registries of agent enrolment: tokens that let an agent enrol by itself, and
agents that wait for an administrator.  A hash map is an `AList`; time is counted in ticks.
-/

namespace Tenodera.Gateway

/-- The hash functions of enrolment: the digest of a token's value and the hexadecimal fingerprint
of a public key. -/
structure Hashes where
  tokenDigest : String → String
  pubkeyFingerprintHex : String → String

/-! ## Bootstrap tokens -/

structure BootstrapToken where
  id : String
  valueDigest : String
  singleUse : Bool
  useCount : UInt32
  maxUses : Option UInt32
  expiresAt : ℕ
  /-- If present, only agents with this exact hostname can use the token. -/
  boundHostname : Option String
  /-- If true, replaces the public key of an already enrolled host. -/
  reEnroll : Bool
  deriving DecidableEq, Repr

namespace BootstrapToken

def isExpired (t : BootstrapToken) (now : ℕ) : Bool := now > t.expiresAt

def isExhausted (t : BootstrapToken) : Bool :=
  (t.singleUse && t.useCount > 0) || t.maxUses.any fun max => t.useCount ≥ max

def isValidFor (t : BootstrapToken) (hostname : String) (now : ℕ) : Bool :=
  !(t.isExpired now || t.isExhausted) && t.boundHostname.all fun bound => bound = hostname

end BootstrapToken

/-- The tokens by id. -/
abbrev BootstrapRegistry : Type := AList fun _ : String => BootstrapToken

namespace BootstrapRegistry

/-- `create`, with the id and the value drawn at random. -/
def create (hashes : Hashes) (now ttl : ℕ) (id value : String) (singleUse : Bool)
    (maxUses : Option UInt32) (boundHostname : Option String) (reEnroll : Bool)
    (tokens : BootstrapRegistry) : BootstrapRegistry :=
  tokens.insert id
    { id, valueDigest := hashes.tokenDigest value, singleUse, useCount := 0, maxUses,
      expiresAt := now + ttl, boundHostname, reEnroll }

/-- `validate_and_consume`: the `reEnroll` flag of a token that is valid for the hostname, which is
counted as used and removed once exhausted. -/
def validateAndConsume (hashes : Hashes) (now : ℕ) (tokenValue hostname : String)
    (tokens : BootstrapRegistry) : Option Bool × BootstrapRegistry :=
  let presented := hashes.tokenDigest tokenValue
  match tokens.entries.find? fun t => t.2.valueDigest = presented with
  | none => (none, tokens)
  | some ⟨key, token⟩ =>
    if ¬ token.isValidFor hostname now then (none, tokens)
    else
      let used := { token with useCount := token.useCount + 1 }
      if used.isExhausted then (some token.reEnroll, (tokens.insert key used).erase used.id)
      else (some token.reEnroll, tokens.insert key used)

def revoke (id : String) (tokens : BootstrapRegistry) : BootstrapRegistry := tokens.erase id

/-- `cleanup`: the expired tokens are removed. -/
def cleanup (now : ℕ) (tokens : BootstrapRegistry) : BootstrapRegistry :=
  ⟨tokens.entries.filter fun t => ¬ t.2.isExpired now,
    List.NodupKeys.sublist List.filter_sublist tokens.nodupKeys⟩

end BootstrapRegistry

/-! ## Pending agents -/

def maxPending : ℕ := 100

def maxPendingPerIp : ℕ := 5

/-- An agent that is connected and waits for approval. -/
structure PendingEntry where
  hostname : String
  pubkeyB64 : String
  fingerprintHex : String
  remoteIp : String
  osId : Option String
  /-- The connection behind `approve_tx`. -/
  approveTx : ℕ
  deriving DecidableEq, Repr

/-- The waiting agents by public key. -/
abbrev PendingRegistry : Type := AList fun _ : String => PendingEntry

namespace PendingRegistry

/-- `insert`: refused when the registry, or the share of the source address, is full. -/
def add (hashes : Hashes) (pubkeyB64 hostname remoteIp : String) (osId : Option String)
    (approveTx : ℕ) (pending : PendingRegistry) : Option PendingRegistry :=
  let isNew := pubkeyB64 ∉ pending
  if pending.entries.length ≥ maxPending ∧ isNew then none
  else if isNew ∧ pending.entries.countP (fun e => e.2.remoteIp = remoteIp) ≥ maxPendingPerIp then
    none
  else
    some (pending.insert pubkeyB64
      { hostname, pubkeyB64, fingerprintHex := hashes.pubkeyFingerprintHex pubkeyB64, remoteIp,
        osId, approveTx })

def entryForFingerprint (fingerprintHex : String) (pending : PendingRegistry) :
    Option PendingEntry :=
  (pending.entries.find? fun e => e.2.fingerprintHex = fingerprintHex).map (·.2)

/-- `approve`, up to the answer to the waiting connection: the entry it takes out. -/
def approve (fingerprintHex : String) (pending : PendingRegistry) :
    Option PendingEntry × PendingRegistry :=
  match pending.entryForFingerprint fingerprintHex with
  | none => (none, pending)
  | some e => (pending.lookup e.pubkeyB64, pending.erase e.pubkeyB64)

variable {hashes : Hashes} {pending pending' : PendingRegistry} {e : PendingEntry}

/-- An agent that is taken in gets the entry under its key. -/
theorem eq_insert_of_add {pubkeyB64 hostname remoteIp : String} {osId : Option String} {conn : ℕ}
    (h : pending.add hashes pubkeyB64 hostname remoteIp osId conn = some pending') :
    pending' = pending.insert pubkeyB64
      { hostname, pubkeyB64, fingerprintHex := hashes.pubkeyFingerprintHex pubkeyB64, remoteIp,
        osId, approveTx := conn } := by
  simp only [add] at h
  split_ifs at h
  exact (Option.some.inj h).symm

theorem of_entryForFingerprint {fingerprintHex : String}
    (h : pending.entryForFingerprint fingerprintHex = some e) :
    (∃ key, pending.lookup key = some e) ∧ e.fingerprintHex = fingerprintHex := by
  obtain ⟨⟨key, e'⟩, hfind, rfl⟩ := Option.map_eq_some_iff.1 h
  refine ⟨⟨key, AList.mem_lookup_iff.2 (List.mem_of_find?_eq_some hfind)⟩, ?_⟩
  simpa using List.find?_some hfind

/-- Under an entry there is something to find by its fingerprint. -/
theorem entryForFingerprint_ne_none {key : String} (h : pending.lookup key = some e) :
    pending.entryForFingerprint e.fingerprintHex ≠ none := by
  have hmem : (⟨key, e⟩ : Σ _ : String, PendingEntry) ∈ pending.entries := AList.mem_lookup_iff.1 h
  simp only [entryForFingerprint, ne_eq, Option.map_eq_none_iff, List.find?_eq_none]
  intro hnone
  exact hnone _ hmem (decide_eq_true rfl)

end PendingRegistry

end Tenodera.Gateway
