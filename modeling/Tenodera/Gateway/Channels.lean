import Mathlib.Data.List.Basic
import Mathlib.Data.Nat.Notation
import Tenodera.Protocol.Message

/-!
# Channel ids on a shared agent

Many browser sessions and RPC calls share one connection to an agent.  On the way to the agent each
of them puts its own prefix in front of a channel id; on the way back the prefix says whose message
it is.
-/

namespace Tenodera.Gateway

open Protocol

def sessionPrefixLen : ℕ := 8

def isHexDigit (c : Char) : Bool := c.isDigit || ('a' ≤ c && c ≤ 'f')

/-- A session id: a version 4 uuid in its textual form. -/
structure Uuid where
  text : String
  digits : (text.toList.filter fun c => c ≠ '-').length = 32
  hex : text.toList.all fun c => c = '-' || isHexDigit c
  deriving DecidableEq

/-- `session_prefix`. -/
def sessionPrefix (sessionId : String) : String :=
  String.ofList ((sessionId.toList.filter fun c => c ≠ '-').take sessionPrefixLen)

def hexDigit (n : ℕ) : Char := "0123456789abcdef".toList.getD n '0'

/-- `format!("{:08x}", n)`. -/
def hex8 (n : UInt32) : String :=
  String.ofList ([7, 6, 5, 4, 3, 2, 1, 0].map fun i => hexDigit (n.toNat / 16 ^ i % 16))

example : hex8 0xdead01 = "00dead01" := by decide

/-- The id of a channel as the agent sees it. -/
def prefixed (pfx : String) (channel : ChannelId) : ChannelId := pfx ++ "-" ++ channel

/-- `prefix_message`. -/
def prefixMessage (m : Message) (pfx : String) : Message :=
  match m with
  | .open_ channel options => .open_ (prefixed pfx channel) options
  | .data channel d => .data (prefixed pfx channel) d
  | .control channel command extra => .control (prefixed pfx channel) command extra
  | .close channel problem => .close (prefixed pfx channel) problem
  | m => m

/-- The prefix and the client's part of a channel id.  Ids are ASCII, so that bytes are
characters. -/
def splitChannel (channel : ChannelId) : Option (String × ChannelId) :=
  let chars := channel.toList
  if chars.length ≤ sessionPrefixLen + 1 then none
  else if chars[sessionPrefixLen]? ≠ some '-' then none
  else
    some (String.ofList (chars.take sessionPrefixLen),
      String.ofList (chars.drop (sessionPrefixLen + 1)))

/-- `strip_prefix_from_message`: the message with the client's channel id, and the prefix. -/
def stripPrefixFromMessage (m : Message) : Option (Message × String) :=
  match m with
  | .data channel d => (splitChannel channel).map fun p => (.data p.2 d, p.1)
  | .control channel command extra =>
    (splitChannel channel).map fun p => (.control p.2 command extra, p.1)
  | .close channel problem => (splitChannel channel).map fun p => (.close p.2 problem, p.1)
  | .ready channel => (splitChannel channel).map fun p => (.ready p.2, p.1)
  | _ => none

theorem sessionPrefix_length (id : Uuid) : (sessionPrefix id.text).length = sessionPrefixLen := by
  rw [sessionPrefix, String.length_ofList, List.length_take, id.digits]
  rfl

/-- A prefix is its own prefix. -/
theorem sessionPrefix_idem (id : String) : sessionPrefix (sessionPrefix id) = sessionPrefix id := by
  have hfilter : ((id.toList.filter fun c => c ≠ '-').take sessionPrefixLen).filter
      (fun c => c ≠ '-') = (id.toList.filter fun c => c ≠ '-').take sessionPrefixLen := by
    refine List.filter_eq_self.2 fun c hc => ?_
    exact (List.mem_filter.1 (List.mem_of_mem_take hc)).2
  unfold sessionPrefix
  rw [String.toList_ofList, hfilter, List.take_take, min_self]

theorem hex8_length (n : UInt32) : (hex8 n).length = sessionPrefixLen := by
  simp [hex8, sessionPrefixLen]

theorem toList_prefixed (pfx id : String) :
    (prefixed pfx id).toList = pfx.toList ++ '-' :: id.toList := by
  simp [prefixed]

theorem prefixed_inj {p q x y : String} (hl : p.length = q.length)
    (h : prefixed p x = prefixed q y) : p = q ∧ x = y := by
  have hlist := congrArg String.toList h
  rw [toList_prefixed, toList_prefixed] at hlist
  obtain ⟨hp, hx⟩ := List.append_inj hlist (by simpa only [String.length_toList] using hl)
  exact ⟨String.toList_inj.1 hp, String.toList_inj.1 (List.cons.inj hx).2⟩

theorem of_splitChannel {channel pfx id : String} (h : splitChannel channel = some (pfx, id)) :
    channel = prefixed pfx id ∧ pfx.length = sessionPrefixLen := by
  simp only [splitChannel] at h
  split_ifs at h with hlen hdash
  cases h
  have hlt : sessionPrefixLen < channel.toList.length := by omega
  have hchar : channel.toList[sessionPrefixLen] = '-' := by
    simpa [List.getElem?_eq_getElem hlt] using hdash
  constructor
  · rw [← String.toList_inj, toList_prefixed, String.toList_ofList, String.toList_ofList, ← hchar,
      ← List.drop_eq_getElem_cons hlt, List.take_append_drop]
  · rw [String.length_ofList, List.length_take]
    omega

/-- The message on the way back carries the prefix and the client's id of the channel it came on. -/
theorem of_stripPrefixFromMessage {m m' : Message} {pfx : String}
    (h : stripPrefixFromMessage m = some (m', pfx)) :
    ∃ id, m.channel = some (prefixed pfx id) ∧ m'.channel = some id ∧
      pfx.length = sessionPrefixLen := by
  cases m with
  | data channel _ | control channel _ _ | close channel _ | ready channel =>
    obtain ⟨⟨p, id⟩, hp, he⟩ := Option.map_eq_some_iff.1 h
    cases he
    obtain ⟨rfl, hl⟩ := of_splitChannel hp
    exact ⟨id, rfl, rfl, hl⟩
  | _ => cases h

end Tenodera.Gateway
