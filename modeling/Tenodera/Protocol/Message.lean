import Mathlib.Data.List.AList
import Mathlib.Data.String.Basic

/-!
# The wire protocol

JSON values, channel ids, the options of a channel, and the messages exchanged by browser, gateway
and agents.
-/

namespace Tenodera.Protocol

/-! ## JSON -/

/-- A number as `serde_json` keeps it; floating-point ones by their text. -/
inductive Number
  | posInt (n : UInt64)
  | negInt (n : Int64)
  | float (text : String)
  deriving DecidableEq, Repr

inductive Value
  | null
  | bool (b : Bool)
  | number (n : Number)
  | string (s : String)
  | array (elems : List Value)
  | object (entries : List (String × Value))
  deriving Repr

namespace Value

/-- `Value::as_u64`. -/
def asU64 : Value → Option UInt64
  | number (.posInt n) => some n
  | _ => none

/-- `Value::as_str`. -/
def asStr : Value → Option String
  | string s => some s
  | _ => none

/-- `Value::as_bool`. -/
def asBool : Value → Option Bool
  | bool b => some b
  | _ => none

/-- `Value::as_array`. -/
def asArray : Value → Option (List Value)
  | array elems => some elems
  | _ => none

/-- `Value::get` with a key. -/
def get (key : String) : Value → Option Value
  | object entries => entries.lookup key
  | _ => none

end Value

/-- The flattened fields of an object, without repeated keys. -/
abbrev Fields : Type := AList fun _ : String => Value

/-! ## Channels -/

/-- A channel id.  Ids built from strings inside the gateway are not validated in release builds;
`ChannelId.new` is what deserialization runs. -/
abbrev ChannelId : Type := String

/-- Maximum length of a channel id in bytes. -/
def maxChannelIdLen : ℕ := 128

def isChannelIdChar (c : Char) : Bool := c.isAlphanum || c = '-' || c = '_'

def ChannelId.new (s : String) : Except String ChannelId :=
  if s = "" then .error "channel id must not be empty"
  else if s.utf8ByteSize > maxChannelIdLen then .error "channel id exceeds 128 bytes"
  else if ¬ s.toList.all isChannelIdChar then .error "channel id contains invalid characters"
  else .ok s

inductive SuperuserMode
  | require
  | try_
  deriving DecidableEq, Repr

structure ChannelOpenOptions where
  /-- Which payload handler to use. -/
  payload : String
  superuser : Option SuperuserMode
  /-- Payload-specific options, passed through to the handler. -/
  extra : Fields

/-- `Value::Object(options.extra.clone())`. -/
def ChannelOpenOptions.toValue (options : ChannelOpenOptions) : Value :=
  .object (options.extra.entries.map fun e => (e.1, e.2))

/-! ## Messages -/

inductive AuthCredentials
  | basic (user password : String)
  | token (token : String)
  deriving DecidableEq, Repr

inductive Message
  | hello (version : UInt32) (hostname agentVersion : String) (isLocal : Bool)
      (publicKey bootstrapToken osId : Option String)
  | challenge (nonce gatewayId : String)
  | challengeresponse (signature : String)
  /-- The agent waits for an administrator: "enrollment_required" or "token_invalid". -/
  | pending (reason : String)
  | helloAck (version : UInt32) (warning : Option String)
  | open_ (channel : ChannelId) (options : ChannelOpenOptions)
  | ready (channel : ChannelId)
  | data (channel : ChannelId) (data : Value)
  | control (channel : ChannelId) (command : String) (extra : Fields)
  | close (channel : ChannelId) (problem : Option String)
  | auth (credentials : AuthCredentials)
  | authResult (success : Bool) (problem user : Option String)
  | ping
  | pong

/-- The channel a message belongs to. -/
def Message.channel : Message → Option ChannelId
  | open_ channel _ | ready channel | data channel _ | control channel _ _ | close channel _ =>
    some channel
  | _ => none

end Tenodera.Protocol
