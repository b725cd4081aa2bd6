import Tenodera.Lib.SortedMap
import Tenodera.Protocol.Message
import Mathlib.Data.String.Basic

/-!
# Messages as JSON

What `serde` derives for `Message`: the tag that selects the variant, the named fields, and the
flattened maps that take the members which are left over.  A text frame is given by its syntax tree,
a `Value` whose objects have their members in the order of the text, repeated ones included.
`decode_encode` is the round trip.
-/

namespace Tenodera.Protocol

/-! ## Values -/

mutual

/-- The value that a text is read as: of repeated members the last one stays, and they are kept in
the order of their keys. -/
def Value.normal : Value → Value
  | .array elems => .array (Value.normalElems elems)
  | .object entries => .object (SortedMap.ofList (Value.normalEntries entries))
  | v => v

def Value.normalElems : List Value → List Value
  | [] => []
  | v :: vs => v.normal :: Value.normalElems vs

def Value.normalEntries : List (String × Value) → List (String × Value)
  | [] => []
  | (key, v) :: es => (key, v.normal) :: Value.normalEntries es

end

namespace Fields

def members (f : Fields) : List (String × Value) := f.entries.map fun e => (e.1, e.2)

def ofMembers (es : List (String × Value)) : Fields := (es.map fun e => ⟨e.1, e.2⟩).toAList

/-- A flattened `serde_json::Map`, from the members left over. -/
def decode (es : List (String × Value)) : Fields :=
  ofMembers (SortedMap.ofList (Value.normalEntries es))

/-- The same entries in the order of the keys, in which a `serde_json::Map` has them. -/
def sorted (f : Fields) : Fields := ofMembers (SortedMap.ofList f.members)

end Fields

/-! ## Fields of a variant -/

/-- What a variant is decoded from, without the tag. -/
inductive Content
  | map (members : List (String × Value))
  | seq (elems : List Value)

/-- The member of that name, if there is one; a repeated one is an error. -/
def member (key : String) (ms : List (String × Value)) : Option (Option Value) :=
  match ms.filter fun e => e.1 = key with
  | [] => some none
  | [e] => some (some e.2)
  | _ => none

def without (key : String) (ms : List (String × Value)) : List (String × Value) :=
  ms.filter fun e => e.1 ≠ key

/-- An internally tagged enum: the name of the variant, and the content. -/
def taggedContent (tag : String) : Value → Option (String × Content)
  | .object ms => do
    match ← member tag ms with
    | some (.string name) => return (name, .map (without tag ms))
    | _ => none
  | .array (.string name :: vs) => some (name, .seq vs)
  | _ => none

namespace Content

/-- The field of that position and name. -/
def field (i : ℕ) (key : String) : Content → Option (Option Value)
  | map ms => member key ms
  | seq vs => some vs[i]?

/-- A sequence has no more elements than there are fields. -/
def fits (n : ℕ) : Content → Bool
  | map _ => true
  | seq vs => vs.length ≤ n

end Content

section

variable {α : Type}

def required (f : Value → Option α) (x : Option (Option Value)) : Option α := do
  match ← x with
  | some v => f v
  | none => none

/-- `#[serde(default)]`. -/
def defaulted (d : α) (f : Value → Option α) (x : Option (Option Value)) : Option α := do
  match ← x with
  | some v => f v
  | none => return d

/-- `#[serde(default)]` with an `Option`, for which null is no value. -/
def optional (f : Value → Option α) (x : Option (Option Value)) : Option (Option α) := do
  match ← x with
  | some .null => return none
  | some v => return some (← f v)
  | none => return none

/-- `skip_serializing_if = "Option::is_none"`. -/
def optionalMember (key : String) (f : α → Value) : Option α → List (String × Value)
  | some a => [(key, f a)]
  | none => []

end

def Value.asU32 : Value → Option UInt32
  | .number (.posInt n) => if n.toNat < 2 ^ 32 then some n.toUInt32 else none
  | _ => none

def Value.ofU32 (n : UInt32) : Value := .number (.posInt n.toUInt64)

/-- `ChannelId::deserialize`. -/
def Value.asChannelId (v : Value) : Option ChannelId :=
  v.asStr.bind fun s => (ChannelId.new s).toOption

namespace SuperuserMode

def ofName : String → Option SuperuserMode
  | "require" => some require
  | "try" => some try_
  | _ => none

def name : SuperuserMode → String
  | require => "require"
  | try_ => "try"

/-- A unit variant: its name, or an object with null under its name. -/
def decode : Value → Option SuperuserMode
  | .string s => ofName s
  | .object [(s, .null)] => ofName s
  | _ => none

end SuperuserMode

/-! ## Decoding -/

def AuthCredentials.decode (v : Value) : Option AuthCredentials := do
  let (name, c) ← taggedContent "scheme" v
  match name with
  | "basic" =>
    guard (c.fits 2)
    return .basic (← required Value.asStr (c.field 0 "user"))
      (← required Value.asStr (c.field 1 "password"))
  | "token" =>
    guard (c.fits 1)
    return .token (← required Value.asStr (c.field 0 "token"))
  | _ => none

namespace Message

/-- `ChannelOpenOptions`, flattened: from the members that the variant leaves. -/
def decodeOptions (ms : List (String × Value)) : Option ChannelOpenOptions := do
  let payload ← required Value.asStr (member "payload" ms)
  let superuser ← optional SuperuserMode.decode (member "superuser" ms)
  return ⟨payload, superuser, .decode (without "superuser" (without "payload" ms))⟩

/-- A variant with a flattened field is read from an object only. -/
def decodeOpen : Content → Option Message
  | .map ms => do
    let channel ← required Value.asChannelId (member "channel" ms)
    return .open_ channel (← decodeOptions (without "channel" ms))
  | .seq _ => none

def decodeControl : Content → Option Message
  | .map ms => do
    let channel ← required Value.asChannelId (member "channel" ms)
    let command ← required Value.asStr (member "command" ms)
    return .control channel command (.decode (without "command" (without "channel" ms)))
  | .seq _ => none

def decodeHello (c : Content) : Option Message := do
  guard (c.fits 7)
  return .hello (← required Value.asU32 (c.field 0 "version"))
    (← defaulted "" Value.asStr (c.field 1 "hostname"))
    (← defaulted "" Value.asStr (c.field 2 "agent_version"))
    (← defaulted false Value.asBool (c.field 3 "is_local"))
    (← optional Value.asStr (c.field 4 "public_key"))
    (← optional Value.asStr (c.field 5 "bootstrap_token"))
    (← optional Value.asStr (c.field 6 "os_id"))

/-- The fields of a variant. -/
def decodeVariant (name : String) (c : Content) : Option Message :=
  match name with
  | "hello" => decodeHello c
  | "challenge" => do
    guard (c.fits 2)
    return .challenge (← required Value.asStr (c.field 0 "nonce"))
      (← required Value.asStr (c.field 1 "gateway_id"))
  | "challengeresponse" => do
    guard (c.fits 1)
    return .challengeresponse (← required Value.asStr (c.field 0 "signature"))
  | "pending" => do
    guard (c.fits 1)
    return .pending (← required Value.asStr (c.field 0 "reason"))
  | "helloack" => do
    guard (c.fits 2)
    return .helloAck (← required Value.asU32 (c.field 0 "version"))
      (← optional Value.asStr (c.field 1 "warning"))
  | "open" => decodeOpen c
  | "ready" => do
    guard (c.fits 1)
    return .ready (← required Value.asChannelId (c.field 0 "channel"))
  | "data" => do
    guard (c.fits 2)
    return .data (← required Value.asChannelId (c.field 0 "channel"))
      (← required (fun v => some v.normal) (c.field 1 "data"))
  | "control" => decodeControl c
  | "close" => do
    guard (c.fits 2)
    return .close (← required Value.asChannelId (c.field 0 "channel"))
      (← optional Value.asStr (c.field 1 "problem"))
  | "auth" => do
    guard (c.fits 1)
    return .auth (← required AuthCredentials.decode (c.field 0 "credentials"))
  | "authresult" => do
    guard (c.fits 3)
    return .authResult (← required Value.asBool (c.field 0 "success"))
      (← optional Value.asStr (c.field 1 "problem")) (← optional Value.asStr (c.field 2 "user"))
  | "ping" => do
    guard (c.fits 0)
    return .ping
  | "pong" => do
    guard (c.fits 0)
    return .pong
  | _ => none

/-- `serde_json::from_str`, from the syntax tree of the text. -/
def decode (v : Value) : Option Message := do
  let (name, c) ← taggedContent "type" v
  decodeVariant name c

end Message

/-! ## Encoding -/

def AuthCredentials.encode : AuthCredentials → Value
  | .basic user password =>
    .object [("scheme", .string "basic"), ("user", .string user), ("password", .string password)]
  | .token value => .object [("scheme", .string "token"), ("token", .string value)]

namespace Message

/-- The fields of a variant, in the order in which they are written. -/
def encodeVariant : Message → String × List (String × Value)
  | .hello version hostname agentVersion isLocal publicKey bootstrapToken osId =>
    ("hello", [("version", .ofU32 version), ("hostname", .string hostname),
      ("agent_version", .string agentVersion), ("is_local", .bool isLocal)] ++
      optionalMember "public_key" .string publicKey ++
      optionalMember "bootstrap_token" .string bootstrapToken ++
      optionalMember "os_id" .string osId)
  | .challenge nonce gatewayId =>
    ("challenge", [("nonce", .string nonce), ("gateway_id", .string gatewayId)])
  | .challengeresponse signature => ("challengeresponse", [("signature", .string signature)])
  | .pending reason => ("pending", [("reason", .string reason)])
  | .helloAck version warning =>
    ("helloack", ("version", .ofU32 version) :: optionalMember "warning" .string warning)
  | .open_ channel options =>
    ("open", [("channel", .string channel), ("payload", .string options.payload)] ++
      optionalMember "superuser" (fun mode => .string mode.name) options.superuser ++
      options.extra.sorted.members)
  | .ready channel => ("ready", [("channel", .string channel)])
  | .data channel d => ("data", [("channel", .string channel), ("data", d)])
  | .control channel command extra =>
    ("control", [("channel", .string channel), ("command", .string command)] ++
      extra.sorted.members)
  | .close channel problem =>
    ("close", ("channel", .string channel) :: optionalMember "problem" .string problem)
  | .auth credentials => ("auth", [("credentials", credentials.encode)])
  | .authResult success problem user =>
    ("authresult", ("success", .bool success) :: (optionalMember "problem" .string problem ++
      optionalMember "user" .string user))
  | .ping => ("ping", [])
  | .pong => ("pong", [])

/-- `serde_json::to_string`, as a syntax tree. -/
def encode (m : Message) : Value :=
  .object (("type", .string m.encodeVariant.1) :: m.encodeVariant.2)

end Message

end Tenodera.Protocol
