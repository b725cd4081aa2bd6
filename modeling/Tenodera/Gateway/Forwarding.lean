import Tenodera.Gateway.ChannelPrefix
import Tenodera.Gateway.Relay
import Tenodera.Lib.Table
import Tenodera.Protocol.Roundtrip

/-!
# What an agent reads

The gateway reads a frame of a browser, puts in the identity of its session, and writes a frame of
its own.  `forwarded_of_decode`: whatever was read can be written and read again, and an agent
reads the Open that the gateway put together.
-/

namespace Tenodera.Gateway.Relay

open Protocol Message

section

variable {w : WsId} {options : ChannelOpenOptions} {channel : ChannelId} {reserved : List String}
  {f : Fields} {key : String} {v : Value}

theorem mem_members_iff {e : String × Value} : e ∈ f.members ↔ f.lookup e.1 = some e.2 := by
  rw [← Option.mem_def, AList.mem_lookup_iff, Fields.members, List.mem_map]
  constructor
  · rintro ⟨e', he', rfl⟩
    exact he'
  · intro he
    exact ⟨⟨e.1, e.2⟩, he, rfl⟩

theorem plain_insert (h : f.Plain reserved) (hkey : key ∉ reserved) (hv : v.normal = v) :
    Fields.Plain reserved (f.insert key v) := by
  intro e he
  rcases AList.lookup_insert_eq_some_iff.1 (mem_members_iff.1 he) with ⟨heq, hval⟩ | ⟨-, hold⟩
  · rw [heq, ← hval]
    exact ⟨hkey, hv⟩
  · exact h e (mem_members_iff.2 hold)

theorem plain_erase (h : f.Plain reserved) (key : String) :
    Fields.Plain reserved (f.erase key) := by
  intro e he
  exact h e (mem_members_iff.2 (AList.lookup_erase_eq_some_iff.1 (mem_members_iff.1 he)).2)

/-- The identity has names of its own. -/
theorem plain_cleanOpen (w : WsId) (h : options.extra.Plain openFields) :
    (cleanOpen w options).extra.Plain openFields :=
  plain_insert (plain_insert (plain_erase h "host") (by decide) rfl) (by decide) rfl

theorem decode_encode_cleanOpen (hid : IsChannelId channel)
    (h : options.extra.Plain openFields) :
    ∃ received, decode (encode (.open_ channel (cleanOpen w options))) = some received ∧
      received.Same (.open_ channel (cleanOpen w options)) :=
  ⟨_, decode_encode ⟨hid, plain_cleanOpen w h⟩, same_sorted _⟩

end

/-- A message that was decoded is decoded from its own encoding again.  Of an Open the gateway
forwards what the agent then reads, with the id as it is or with the prefix of the session. -/
theorem forwarded_of_decode {frame : Value} {m : Message} (h : decode frame = some m) :
    decode m.encode = some m ∧
    ∀ (w : WsId) (channel : ChannelId) (options : ChannelOpenOptions), m = .open_ channel options →
      (∃ received, decode (encode (.open_ channel (cleanOpen w options))) = some received ∧
        received.Same (.open_ channel (cleanOpen w options))) ∧
      (Accepted channel → ∃ received,
        decode (encode (prefixMessage (.open_ channel (cleanOpen w options))
          (Owner.ws w).pfx)) = some received ∧
        received.Same (prefixMessage (.open_ channel (cleanOpen w options)) (Owner.ws w).pfx)) := by
  obtain ⟨hwell, hsorted⟩ := wellFormed_of_decode h
  refine ⟨by rw [decode_encode hwell, hsorted], ?_⟩
  rintro w channel options rfl
  obtain ⟨hid, hextra⟩ := hwell
  refine ⟨decode_encode_cleanOpen hid hextra, fun haccepted => ?_⟩
  refine decode_encode_cleanOpen ?_ hextra
  have hpfx : (Owner.ws w).pfx = sessionPrefix w.token.text := sessionPrefix_idem w.token.text
  rw [hpfx]
  exact valid_prefixed (isPrefix_sessionPrefix w.token) haccepted

/-- The Open of a terminal as a browser writes it, with a member twice and one that is null. -/
def terminalFrame : Value :=
  .object [("host", .string "db"), ("type", .string "open"), ("payload", .string "terminal.pty"),
    ("channel", .string "term-1"), ("superuser", .null), ("host", .string "web")]

theorem terminalFrame_forwarded : ∃ options, decode terminalFrame = some (.open_ "term-1" options) ∧
    decode (encode (.open_ "term-1" options)) = some (.open_ "term-1" options) ∧
    ∃ received, decode (encode (.open_ "term-1" (cleanOpen (alice 0) options))) = some received ∧
      received.Same (.open_ "term-1" (cleanOpen (alice 0) options)) := by
  have hframe : decode terminalFrame = some (.open_ "term-1" ⟨"terminal.pty", none,
      .decode [("host", .string "db"), ("host", .string "web")]⟩) := rfl
  obtain ⟨hagain, hopen⟩ := forwarded_of_decode hframe
  exact ⟨_, hframe, hagain, (hopen (alice 0) "term-1" _ rfl).1⟩

end Tenodera.Gateway.Relay
