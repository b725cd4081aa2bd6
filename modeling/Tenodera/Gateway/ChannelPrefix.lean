import Tenodera.Gateway.Channels
import Tenodera.Lib.Utf8

/-!
# The two sides of a channel id

The ids that the gateway forwards and the ids that agents accept fit together: what an Open may
carry, with a prefix in front, is an id for the agent, and taking the prefix off again gives back
the message and never panics on one that was decoded.
-/

namespace Tenodera.Gateway

open Protocol

/-! ## The code, with its panics -/

/-- `ChannelId::from`, which asserts in debug builds that the id is valid; none is a panic. -/
def channelIdFrom (debugAssertions : Bool) (s : String) : Option ChannelId :=
  match ChannelId.new s with
  | .ok _ => some s
  | .error _ => if debugAssertions then none else some s

/-- The part of `strip_prefix_from_message` that takes an id apart; the outer none is a panic. -/
def sliceChannel (debugAssertions : Bool) (channel : ChannelId) :
    Option (Option (String × ChannelId)) :=
  if channel.utf8ByteSize ≤ sessionPrefixLen + 1 then some none
  else do
    let pfx ← Utf8.sliceTo channel sessionPrefixLen
    if (Utf8.bytes channel.toList)[sessionPrefixLen]? ≠ some '-'.val.toUInt8 then return none
    let original ← Utf8.sliceFrom channel (sessionPrefixLen + 1)
    if original = "" then return none
    let original ← channelIdFrom debugAssertions original
    return some (pfx, original)

/-- `strip_prefix_from_message`, with the panics of its slices and conversions. -/
def stripPrefixOrPanic (debugAssertions : Bool) (m : Message) :
    Option (Option (Message × String)) :=
  match m with
  | .data channel d => do
    return (← sliceChannel debugAssertions channel).map fun p => (.data p.2 d, p.1)
  | .control channel command extra => do
    return (← sliceChannel debugAssertions channel).map fun p => (.control p.2 command extra, p.1)
  | .close channel problem => do
    return (← sliceChannel debugAssertions channel).map fun p => (.close p.2 problem, p.1)
  | .ready channel => do
    return (← sliceChannel debugAssertions channel).map fun p => (.ready p.2, p.1)
  | _ => some none

/-- An id that is not ASCII would panic, so that everything rests on the check of the decoder. -/
example : sliceChannel false "sevench\u00e9-x" = none := by decide

/-- What a decoded message satisfies. -/
def Decoded (m : Message) : Prop := ∀ channel ∈ m.channel, ChannelId.new channel = .ok channel

/-- The id of an Open that the loop of the browser's socket forwards. -/
structure Accepted (channel : ChannelId) : Prop where
  valid : ChannelId.new channel = .ok channel
  fits : ¬ channel.utf8ByteSize > maxChannelIdLen - (sessionPrefixLen + 1)

/-! ## Ids -/

section

variable {s p : String} {channel : ChannelId} {debugAssertions : Bool}

theorem channelId_valid_iff : ChannelId.new s = .ok s ↔
    s ≠ "" ∧ s.utf8ByteSize ≤ maxChannelIdLen ∧ ∀ c ∈ s.toList, isChannelIdChar c := by
  unfold ChannelId.new
  split_ifs with hempty hlen hchars
  · exact iff_of_false nofun fun h => h.1 hempty
  · exact iff_of_false nofun fun h => absurd h.2.1 (not_le.2 hlen)
  · exact iff_of_true rfl ⟨hempty, not_lt.1 hlen, List.all_eq_true.1 hchars⟩
  · exact iff_of_false nofun fun h => hchars (List.all_eq_true.2 h.2.2)

theorem utf8Size_of_isChannelIdChar {c : Char} (h : isChannelIdChar c) : c.utf8Size = 1 := by
  rw [Char.utf8Size_eq_one_iff]
  unfold isChannelIdChar Char.isAlphanum Char.isAlpha Char.isUpper Char.isLower at h
  simp only [Char.isDigit, Bool.or_eq_true, Bool.and_eq_true, decide_eq_true_eq, Char.ext_iff,
    ge_iff_le, UInt32.le_iff_toNat_le, ← UInt32.toNat_inj] at h ⊢
  simp only [UInt32.reduceToNat, Char.reduceVal] at h ⊢
  omega

theorem ascii_of_valid (h : ChannelId.new s = .ok s) : Utf8.Ascii s.toList :=
  fun c hc => utf8Size_of_isChannelIdChar ((channelId_valid_iff.1 h).2.2 c hc)

/-- A text that can be a session's prefix. -/
structure IsPrefix (p : String) : Prop where
  length : p.length = sessionPrefixLen
  chars : ∀ c ∈ p.toList, isChannelIdChar c

theorem isChannelIdChar_of_isHexDigit {c : Char} (h : isHexDigit c) : isChannelIdChar c := by
  unfold isChannelIdChar Char.isAlphanum Char.isAlpha Char.isLower
  simp only [isHexDigit, Bool.or_eq_true, Bool.and_eq_true, decide_eq_true_eq] at h ⊢
  rcases h with h | ⟨ha, hf⟩
  · exact Or.inl (Or.inl (Or.inr h))
  · have hz : c ≤ 'z' := le_trans hf (by decide)
    exact Or.inl (Or.inl (Or.inl (Or.inr ⟨ha, hz⟩)))

theorem isPrefix_sessionPrefix (id : Uuid) : IsPrefix (sessionPrefix id.text) := by
  refine ⟨sessionPrefix_length id, fun c hc => ?_⟩
  rw [sessionPrefix, String.toList_ofList] at hc
  obtain ⟨hmem, hdash⟩ := List.mem_filter.1 (List.mem_of_mem_take hc)
  have hdigit := List.all_eq_true.1 id.hex c hmem
  simp only [Bool.or_eq_true, decide_eq_true_eq] at hdigit hdash
  exact isChannelIdChar_of_isHexDigit (hdigit.resolve_left hdash)

/-- The room that the check of an Open leaves is the room that the prefix takes. -/
theorem valid_prefixed (hp : IsPrefix p) (h : Accepted channel) :
    ChannelId.new (prefixed p channel) = .ok (prefixed p channel) := by
  have hchars (c : Char) (hc : c ∈ (prefixed p channel).toList) : isChannelIdChar c := by
    rw [toList_prefixed, List.mem_append, List.mem_cons] at hc
    rcases hc with hc | rfl | hc
    · exact hp.chars c hc
    · rfl
    · exact (channelId_valid_iff.1 h.valid).2.2 c hc
  have hsize : p.utf8ByteSize = sessionPrefixLen :=
    (Utf8.utf8ByteSize_eq_length fun c hc => utf8Size_of_isChannelIdChar (hp.chars c hc)).trans
      hp.length
  refine channelId_valid_iff.2 ⟨fun hempty => ?_, ?_, hchars⟩
  · have hlist := congrArg String.toList hempty
    rw [toList_prefixed] at hlist
    exact List.append_ne_nil_of_right_ne_nil _ (List.cons_ne_nil _ _) hlist
  · have hfits := not_lt.1 h.fits
    rw [prefixed, String.utf8ByteSize_append, String.utf8ByteSize_append, hsize]
    unfold sessionPrefixLen maxChannelIdLen at *
    have hdash : "-".utf8ByteSize = 1 := rfl
    omega

theorem toUInt8_inj {c d : Char} (hc : c.utf8Size = 1) (hd : d.utf8Size = 1) :
    c.val.toUInt8 = d.val.toUInt8 ↔ c = d := by
  rw [Char.utf8Size_eq_one_iff, UInt32.le_iff_toNat_le] at hc hd
  have h127 : UInt32.toNat 127 = 127 := rfl
  rw [← UInt8.toNat_inj, UInt32.toNat_toUInt8, UInt32.toNat_toUInt8, Char.ext_iff,
    ← UInt32.toNat_inj]
  omega

theorem valid_drop {n : ℕ} (h : ChannelId.new channel = .ok channel)
    (hn : n < channel.toList.length) :
    String.ofList (channel.toList.drop n) ≠ "" ∧
      (String.ofList (channel.toList.drop n)).utf8ByteSize ≤ maxChannelIdLen ∧
      ∀ c ∈ (String.ofList (channel.toList.drop n)).toList, isChannelIdChar c := by
  have hascii : Utf8.Ascii channel.toList := ascii_of_valid h
  obtain ⟨-, hsize, hchars⟩ := channelId_valid_iff.1 h
  have hsub (c : Char) (hc : c ∈ (String.ofList (channel.toList.drop n)).toList) :
      c ∈ channel.toList := by
    rw [String.toList_ofList] at hc
    exact List.mem_of_mem_drop hc
  refine ⟨fun hempty => ?_, ?_, fun c hc => hchars c (hsub c hc)⟩
  · have hnil := congrArg String.toList hempty
    rw [String.toList_ofList, String.toList_empty, List.drop_eq_nil_iff] at hnil
    omega
  · rw [Utf8.utf8ByteSize_eq_length hascii, ← String.length_toList] at hsize
    rw [Utf8.utf8ByteSize_eq_length fun c hc => hascii c (hsub c hc), String.length_ofList,
      List.length_drop]
    omega

/-- On the ids that an agent can send, bytes are characters, nothing panics, and the conversion of
what is left finds a valid id. -/
theorem sliceChannel_eq (h : ChannelId.new channel = .ok channel) :
    sliceChannel debugAssertions channel = some (splitChannel channel) := by
  have hascii : Utf8.Ascii channel.toList := ascii_of_valid h
  have hsize : channel.utf8ByteSize = channel.toList.length :=
    (Utf8.utf8ByteSize_eq_length hascii).trans String.length_toList.symm
  unfold sliceChannel splitChannel
  rw [hsize]
  dsimp only
  by_cases hlen : channel.toList.length ≤ sessionPrefixLen + 1
  · rw [if_pos hlen, if_pos hlen]
  have hlt : sessionPrefixLen < channel.toList.length := by omega
  have hto : Utf8.sliceTo channel sessionPrefixLen =
      some (String.ofList (channel.toList.take sessionPrefixLen)) := by
    rw [Utf8.sliceTo, Utf8.splitAt_eq hascii hlt.le]
    rfl
  have hfrom : Utf8.sliceFrom channel (sessionPrefixLen + 1) =
      some (String.ofList (channel.toList.drop (sessionPrefixLen + 1))) := by
    rw [Utf8.sliceFrom, Utf8.splitAt_eq hascii hlt]
    rfl
  have hbyte : (Utf8.bytes channel.toList)[sessionPrefixLen]? = some '-'.val.toUInt8 ↔
      channel.toList[sessionPrefixLen]? = some '-' := by
    rw [Utf8.bytes_eq_map hascii, List.getElem?_map, List.getElem?_eq_getElem hlt]
    simp only [Option.map_some, Option.some.injEq]
    exact toUInt8_inj (hascii _ (List.getElem_mem hlt)) rfl
  have hrest : channelIdFrom debugAssertions
      (String.ofList (channel.toList.drop (sessionPrefixLen + 1))) =
      some (String.ofList (channel.toList.drop (sessionPrefixLen + 1))) := by
    rw [channelIdFrom, channelId_valid_iff.2 (valid_drop h (by omega))]
  have hne : String.ofList (channel.toList.drop (sessionPrefixLen + 1)) ≠ "" :=
    (valid_drop h (by omega)).1
  rw [if_neg hlen, if_neg hlen, hto, hfrom]
  by_cases hdash : channel.toList[sessionPrefixLen]? = some '-'
  · simp [hbyte.2 hdash, hdash, hne, hrest]
  · have hother := mt hbyte.1 hdash
    simp only [Option.bind_eq_bind, Option.bind_some, if_pos hother, if_pos hdash]
    rfl

theorem splitChannel_prefixed (hp : p.length = sessionPrefixLen) (h : channel ≠ "") :
    splitChannel (prefixed p channel) = some (p, channel) := by
  have hlength : p.toList.length = sessionPrefixLen := String.length_toList.trans hp
  have hpos : 0 < channel.toList.length :=
    List.length_pos_iff.2 fun hnil => h (String.toList_inj.1 (hnil.trans String.toList_empty.symm))
  unfold splitChannel
  rw [toList_prefixed]
  dsimp only
  rw [if_neg (by rw [List.length_append, List.length_cons]; omega), if_neg (by simp [hlength]),
    List.take_left' hlength, List.append_cons, List.drop_left' (by simp [hlength]),
    String.ofList_toList, String.ofList_toList]

end

/-! ## Messages -/

/-- The messages that go both ways on an open channel. -/
def TwoWay : Message → Prop
  | .data .. | .control .. | .close .. => True
  | _ => False

section

variable {m : Message} {p : String} {channel : ChannelId} {debugAssertions : Bool}

/-- Taking a prefix off a decoded message never panics. -/
theorem stripPrefixOrPanic_eq (h : Decoded m) :
    stripPrefixOrPanic debugAssertions m = some (stripPrefixFromMessage m) := by
  cases m with
  | data channel _ | control channel _ _ | close channel _ | ready channel =>
    have hslice : sliceChannel debugAssertions channel = some (splitChannel channel) :=
      sliceChannel_eq (h channel rfl)
    rw [stripPrefixOrPanic, hslice]
    rfl
  | _ => rfl

theorem stripPrefixFromMessage_prefixMessage (hp : IsPrefix p) (h : Accepted channel)
    (hm : TwoWay m) (hchannel : m.channel = some channel) :
    stripPrefixFromMessage (prefixMessage m p) = some (m, p) := by
  have hsplit : splitChannel (prefixed p channel) = some (p, channel) :=
    splitChannel_prefixed hp.length (channelId_valid_iff.1 h.valid).1
  cases m with
  | data _ _ | control _ _ _ | close _ _ =>
    obtain rfl := Option.some.inj hchannel
    simp only [prefixMessage, stripPrefixFromMessage, hsplit, Option.map_some]
  | _ => cases hm

theorem decoded_prefixMessage (hp : IsPrefix p) (h : Accepted channel) (hm : TwoWay m)
    (hchannel : m.channel = some channel) : Decoded (prefixMessage m p) := by
  cases m with
  | data _ _ | control _ _ _ | close _ _ =>
    obtain rfl := Option.some.inj hchannel
    rintro _ ⟨⟩
    exact valid_prefixed hp h
  | _ => cases hm

end

/-- The ids that the gateway forwards are ids for the agent, the agent's messages come back to the
client's channel, the channels of different sessions and different ids stay apart, a prefix is its
own prefix, and no message of an agent makes the gateway panic. -/
theorem prefixes_fit :
    (∀ (id : Uuid) (channel : ChannelId), Accepted channel →
      ChannelId.new (prefixed (sessionPrefix id.text) channel) =
        .ok (prefixed (sessionPrefix id.text) channel) ∧
      (∀ debugAssertions m, TwoWay m → m.channel = some channel →
        stripPrefixOrPanic debugAssertions (prefixMessage m (sessionPrefix id.text)) =
          some (some (m, sessionPrefix id.text))) ∧
      ∀ debugAssertions,
        stripPrefixOrPanic debugAssertions (.ready (prefixed (sessionPrefix id.text) channel)) =
          some (some (.ready channel, sessionPrefix id.text))) ∧
    (∀ (id id' : Uuid) (channel channel' : ChannelId),
      prefixed (sessionPrefix id.text) channel = prefixed (sessionPrefix id'.text) channel' →
      sessionPrefix id.text = sessionPrefix id'.text ∧ channel = channel') ∧
    (∀ id : String, sessionPrefix (sessionPrefix id) = sessionPrefix id) ∧
    ∀ debugAssertions m, Decoded m → stripPrefixOrPanic debugAssertions m ≠ none := by
  refine ⟨fun id channel h => ⟨?_, fun debugAssertions m hm hchannel => ?_, fun _ => ?_⟩,
    fun id id' channel channel' h => ?_, sessionPrefix_idem, fun debugAssertions m h => ?_⟩
  · exact valid_prefixed (isPrefix_sessionPrefix id) h
  · rw [stripPrefixOrPanic_eq (decoded_prefixMessage (isPrefix_sessionPrefix id) h hm hchannel),
      stripPrefixFromMessage_prefixMessage (isPrefix_sessionPrefix id) h hm hchannel]
  · have hsplit := splitChannel_prefixed (sessionPrefix_length id) (channelId_valid_iff.1 h.valid).1
    have hdecoded : Decoded (.ready (prefixed (sessionPrefix id.text) channel)) := by
      rintro _ ⟨⟩
      exact valid_prefixed (isPrefix_sessionPrefix id) h
    rw [stripPrefixOrPanic_eq hdecoded, stripPrefixFromMessage, hsplit]
    rfl
  · exact prefixed_inj ((sessionPrefix_length id).trans (sessionPrefix_length id').symm) h
  · rw [stripPrefixOrPanic_eq h]
    exact Option.some_ne_none _

/-- A session and a channel of a terminal. -/
def someSession : Uuid := ⟨"0123abcd-0123-4567-89ab-0123456789ab", by decide, by decide⟩

theorem prefixed_terminal :
    ChannelId.new (prefixed (sessionPrefix someSession.text) "term-1") =
      .ok (prefixed (sessionPrefix someSession.text) "term-1") ∧
    stripPrefixOrPanic true (.ready (prefixed (sessionPrefix someSession.text) "term-1")) =
      some (some (.ready "term-1", sessionPrefix someSession.text)) := by
  have haccepted : Accepted "term-1" := ⟨by decide, by decide⟩
  obtain ⟨hvalid, -, hready⟩ := prefixes_fit.1 someSession "term-1" haccepted
  exact ⟨hvalid, hready true⟩

end Tenodera.Gateway
