import Mathlib.Data.Option.Basic
import Tenodera.Protocol.Codec

/-!
# What is decoded is what was encoded

`decode_encode` for the messages whose ids are valid and whose flattened members do not have the
name of a field, `wellFormed_of_decode` for why a decoded message is one of them.
-/

namespace Tenodera.Protocol

/-! ## Values -/

theorem Value.normalEntries_eq_self : ∀ es : List (String × Value),
    (∀ e ∈ es, e.2.normal = e.2) → Value.normalEntries es = es
  | [], _ => rfl
  | (key, v) :: es, h => by
    have hv : v.normal = v := h (key, v) List.mem_cons_self
    have hes : Value.normalEntries es = es :=
      Value.normalEntries_eq_self es fun e he => h e (List.mem_cons_of_mem _ he)
    rw [Value.normalEntries, hv, hes]

mutual

theorem Value.normal_normal : ∀ v : Value, v.normal.normal = v.normal
  | .array elems => by
    rw [Value.normal, Value.normal, Value.normalElems_normalElems]
  | .object entries => by
    have hvalues : ∀ e ∈ SortedMap.ofList (Value.normalEntries entries), e.2.normal = e.2 :=
      fun e he => Value.normal_of_mem_normalEntries entries e (SortedMap.mem_of_mem_ofList he)
    rw [Value.normal, Value.normal, Value.normalEntries_eq_self _ hvalues,
      SortedMap.ofList_of_sorted (SortedMap.sorted_ofList _)]
  | .null => rfl
  | .bool _ => rfl
  | .number _ => rfl
  | .string _ => rfl

theorem Value.normalElems_normalElems : ∀ vs : List Value,
    Value.normalElems (Value.normalElems vs) = Value.normalElems vs
  | [] => rfl
  | v :: vs => by
    rw [Value.normalElems, Value.normalElems, Value.normal_normal, Value.normalElems_normalElems]

theorem Value.normal_of_mem_normalEntries : ∀ es : List (String × Value),
    ∀ e ∈ Value.normalEntries es, e.2.normal = e.2
  | [] => nofun
  | (key, v) :: es => by
    intro e he
    rw [Value.normalEntries] at he
    rcases List.mem_cons.1 he with rfl | he
    · exact Value.normal_normal v
    · exact Value.normal_of_mem_normalEntries es e he

end

/-! ## Members -/

/-- None of the members has the name. -/
def Absent (key : String) (ms : List (String × Value)) : Prop := ∀ e ∈ ms, e.1 ≠ key

section

variable {key k : String} {v : Value} {ms ms' : List (String × Value)}

@[simp]
theorem absent_nil (key : String) : Absent key [] := nofun

@[simp]
theorem absent_cons : Absent key ((k, v) :: ms) ↔ k ≠ key ∧ Absent key ms :=
  List.forall_mem_cons

@[simp]
theorem absent_append : Absent key (ms ++ ms') ↔ Absent key ms ∧ Absent key ms' :=
  List.forall_mem_append

theorem absent_optionalMember {α : Type} (h : k ≠ key) (f : α → Value) (x : Option α) :
    Absent key (optionalMember k f x) := by
  cases x with
  | none => exact absent_nil key
  | some a => exact absent_cons.2 ⟨h, absent_nil key⟩

theorem member_eq_none_of_absent (h : Absent key ms) : member key ms = some none := by
  have hfilter : ms.filter (fun e => e.1 = key) = [] :=
    List.filter_eq_nil_iff.2 fun e he => by simpa using h e he
  rw [member, hfilter]

theorem member_cons_self (h : Absent key ms) : member key ((key, v) :: ms) = some (some v) := by
  have hfilter : ms.filter (fun e => e.1 = key) = [] :=
    List.filter_eq_nil_iff.2 fun e he => by simpa using h e he
  rw [member, List.filter_cons_of_pos (by simp), hfilter]

theorem member_cons_of_ne (h : k ≠ key) : member key ((k, v) :: ms) = member key ms := by
  rw [member, List.filter_cons_of_neg (by simpa using h)]
  rfl

theorem without_eq_self (h : Absent key ms) : without key ms = ms :=
  List.filter_eq_self.2 fun e he => by simpa using h e he

theorem without_cons_self : without key ((key, v) :: ms) = without key ms :=
  List.filter_cons_of_neg (by simp)

theorem absent_without (key : String) (ms : List (String × Value)) :
    Absent key (without key ms) := by
  intro e he
  simpa using (List.mem_filter.1 he).2

theorem Absent.without (h : Absent key ms) (k : String) : Absent key (without k ms) :=
  fun e he => h e (List.mem_filter.1 he).1

/-- The tag comes first, and no field has its name. -/
theorem taggedContent_cons {tag name : String} (h : Absent tag ms) :
    taggedContent tag (.object ((tag, .string name) :: ms)) = some (name, .map ms) := by
  simp only [taggedContent, member_cons_self h, without_cons_self, without_eq_self h]
  rfl

end

/-! ## Flattened members -/

namespace Fields

variable {es : List (String × Value)} {f : Fields}

theorem dedupKeys_eq_self {l : List (Σ _ : String, Value)} (h : l.NodupKeys) :
    l.dedupKeys = l := by
  induction l with
  | nil => rfl
  | cons e l ih =>
    obtain ⟨hfresh, hl⟩ := List.nodupKeys_cons.1 h
    rw [List.dedupKeys_cons, ih hl, List.kinsert_def, List.kerase_of_notMem_keys hfresh]

theorem entries_ofMembers (h : es.Pairwise fun a b => a.1 ≠ b.1) :
    (ofMembers es).entries = es.map fun e => ⟨e.1, e.2⟩ := by
  rw [ofMembers, AList.entries_toAList]
  exact dedupKeys_eq_self (List.nodupKeys_iff_pairwise.2 (List.pairwise_map.2 h))

theorem members_ofMembers (h : es.Pairwise fun a b => a.1 ≠ b.1) :
    (ofMembers es).members = es := by
  rw [members, entries_ofMembers h, List.map_map]
  exact List.map_id es

theorem members_pairwise (f : Fields) : f.members.Pairwise fun a b => a.1 ≠ b.1 :=
  List.pairwise_map.2 (List.nodupKeys_iff_pairwise.1 f.nodupKeys)

theorem pairwise_of_sorted (h : SortedMap.Sorted es) : es.Pairwise fun a b => a.1 ≠ b.1 :=
  h.imp fun hlt => ne_of_lt hlt

theorem members_decode (es : List (String × Value)) :
    (decode es).members = SortedMap.ofList (Value.normalEntries es) :=
  members_ofMembers (pairwise_of_sorted (SortedMap.sorted_ofList _))

theorem members_sorted (f : Fields) : f.sorted.members = SortedMap.ofList f.members :=
  members_ofMembers (pairwise_of_sorted (SortedMap.sorted_ofList _))

@[simp]
theorem sorted_sorted (f : Fields) : f.sorted.sorted = f.sorted := by
  rw [sorted, members_sorted, SortedMap.ofList_of_sorted (SortedMap.sorted_ofList _)]
  rfl

theorem sorted_decode (es : List (String × Value)) : (decode es).sorted = decode es := by
  rw [sorted, members_decode, SortedMap.ofList_of_sorted (SortedMap.sorted_ofList _)]
  rfl

/-- The order of the keys does not matter to a look-up. -/
theorem lookup_sorted (f : Fields) (key : String) : f.sorted.lookup key = f.lookup key := by
  have hperm : f.sorted.entries.Perm f.entries := by
    have hlist : (SortedMap.ofList f.members).Perm f.members :=
      SortedMap.ofList_perm f.members_pairwise
    rw [sorted, entries_ofMembers (pairwise_of_sorted (SortedMap.sorted_ofList _))]
    refine (hlist.map _).trans ?_
    rw [members, List.map_map]
    exact .of_eq (List.map_id f.entries)
  exact AList.perm_lookup hperm

end Fields

/-! ## Messages -/

/-- The flattened members are as they are read, and none has the name of a field. -/
def Fields.Plain (reserved : List String) (f : Fields) : Prop :=
  ∀ e ∈ f.members, e.1 ∉ reserved ∧ e.2.normal = e.2

theorem Fields.decode_members {reserved : List String} {f : Fields} (h : f.Plain reserved) :
    Fields.decode f.members = f.sorted := by
  rw [Fields.decode, Value.normalEntries_eq_self _ fun e he => (h e he).2]
  rfl

theorem Fields.Plain.sorted {reserved : List String} {f : Fields} (h : f.Plain reserved) :
    f.sorted.Plain reserved := by
  intro e he
  rw [Fields.members_sorted] at he
  exact h e (SortedMap.mem_of_mem_ofList he)

theorem Fields.Plain.absent {reserved : List String} {f : Fields} (h : f.Plain reserved)
    {key : String} (hkey : key ∈ reserved) : Absent key f.members :=
  fun e he heq => (h e he).1 (heq ▸ hkey)

/-- A valid id. -/
def IsChannelId (channel : ChannelId) : Prop := ChannelId.new channel = .ok channel

namespace Message

def openFields : List String := ["type", "channel", "payload", "superuser"]

def controlFields : List String := ["type", "channel", "command"]

/-- A message that can be read. -/
def WellFormed : Message → Prop
  | .open_ channel options => IsChannelId channel ∧ options.extra.Plain openFields
  | .ready channel => IsChannelId channel
  | .data channel d => IsChannelId channel ∧ d.normal = d
  | .control channel _ extra => IsChannelId channel ∧ extra.Plain controlFields
  | .close channel _ => IsChannelId channel
  | _ => True

/-- The message with its flattened members in the order of their keys, in which a map keeps them. -/
def sorted : Message → Message
  | .open_ channel options => .open_ channel { options with extra := options.extra.sorted }
  | .control channel command extra => .control channel command extra.sorted
  | m => m

/-- They are one message: a map has no order but that of its keys. -/
def Same (m m' : Message) : Prop := m.sorted = m'.sorted

theorem same_sorted (m : Message) : m.sorted.Same m := by
  cases m <;> simp [Same, sorted]

/-! ### What is written can be read -/

theorem asU32_ofU32 (n : UInt32) : (Value.ofU32 n).asU32 = some n := by
  have hlt : n.toUInt64.toNat < 2 ^ 32 := by
    rw [UInt32.toNat_toUInt64]
    exact n.toNat_lt
  simp only [Value.ofU32, Value.asU32, if_pos hlt, UInt32.toUInt32_toUInt64]

theorem asChannelId_string {channel : ChannelId} (h : IsChannelId channel) :
    (Value.string channel).asChannelId = some channel := by
  rw [IsChannelId] at h
  simp [Value.asChannelId, Value.asStr, h, Except.toOption]

theorem required_string {channel : ChannelId} (h : IsChannelId channel) :
    required Value.asChannelId (some (some (.string channel))) = some channel :=
  asChannelId_string h

theorem decode_credentials (credentials : AuthCredentials) :
    AuthCredentials.decode credentials.encode = some credentials := by
  cases credentials <;> rfl

section

variable {m : Message} {key k : String} {ms : List (String × Value)}

theorem absent_type_encode (h : m.WellFormed) : Absent "type" m.encodeVariant.2 := by
  cases m with
  | open_ channel options =>
    have hextra : Absent "type" options.extra.sorted.members := h.2.sorted.absent (by decide)
    simp [encodeVariant, absent_optionalMember, hextra]
  | control channel command extra =>
    have hextra : Absent "type" extra.sorted.members := h.2.sorted.absent (by decide)
    simp [encodeVariant, hextra]
  | _ => simp [encodeVariant, absent_optionalMember]

theorem decodeOptions_members {options : ChannelOpenOptions}
    (h : options.extra.Plain openFields) :
    decodeOptions (("payload", .string options.payload) ::
        (optionalMember "superuser" (fun mode => .string mode.name) options.superuser ++
          options.extra.sorted.members)) =
      some { options with extra := options.extra.sorted } := by
  obtain ⟨payload, superuser, extra⟩ := options
  have hpayload : Absent "payload" extra.sorted.members := h.sorted.absent (by decide)
  have hsuperuser : Absent "superuser" extra.sorted.members := h.sorted.absent (by decide)
  have hextra : Fields.decode extra.sorted.members = extra.sorted := by
    rw [Fields.decode_members h.sorted, Fields.sorted_sorted]
  have hrest : Absent "payload"
      (optionalMember "superuser" (fun mode => .string mode.name) superuser ++
        extra.sorted.members) :=
    absent_append.2 ⟨absent_optionalMember (by decide) _ _, hpayload⟩
  rw [decodeOptions, member_cons_self hrest, member_cons_of_ne (by decide), without_cons_self,
    without_eq_self hrest]
  cases superuser with
  | none =>
    rw [optionalMember, List.nil_append, member_eq_none_of_absent hsuperuser,
      without_eq_self hsuperuser, hextra]
    rfl
  | some mode =>
    rw [optionalMember, List.cons_append, List.nil_append, member_cons_self hsuperuser,
      without_cons_self, without_eq_self hsuperuser, hextra]
    cases mode <;> rfl

theorem decodeOpen_encodeVariant {channel : ChannelId} {options : ChannelOpenOptions}
    (h : (open_ channel options).WellFormed) :
    decodeOpen (.map (open_ channel options).encodeVariant.2) =
      some (open_ channel options).sorted := by
  obtain ⟨hid, hextra⟩ := h
  set rest := ("payload", .string options.payload) ::
    (optionalMember "superuser" (fun mode => .string mode.name) options.superuser ++
      options.extra.sorted.members) with hrest
  have habsent : Absent "channel" rest := by
    have hmembers : Absent "channel" options.extra.sorted.members :=
      hextra.sorted.absent (by decide)
    simp [hrest, absent_optionalMember, hmembers]
  have hfields : (open_ channel options).encodeVariant.2 =
      ("channel", .string channel) :: rest := by
    simp [encodeVariant, hrest]
  rw [hfields, decodeOpen, member_cons_self habsent, without_cons_self, without_eq_self habsent,
    decodeOptions_members hextra]
  rw [required_string hid]
  rfl

theorem decodeControl_encodeVariant {channel : ChannelId} {command : String} {extra : Fields}
    (h : (control channel command extra).WellFormed) :
    decodeControl (.map (control channel command extra).encodeVariant.2) =
      some (control channel command extra).sorted := by
  obtain ⟨hid, hextra⟩ := h
  have hchannel : Absent "channel" extra.sorted.members := hextra.sorted.absent (by decide)
  have hcommand : Absent "command" extra.sorted.members := hextra.sorted.absent (by decide)
  have hrest : Absent "channel" (("command", .string command) :: extra.sorted.members) :=
    absent_cons.2 ⟨by decide, hchannel⟩
  have hfields : (control channel command extra).encodeVariant.2 =
      ("channel", .string channel) :: ("command", .string command) :: extra.sorted.members := rfl
  rw [hfields, decodeControl, member_cons_self hrest, member_cons_of_ne (by decide),
    member_cons_self hcommand, without_cons_self, without_eq_self hrest, without_cons_self,
    without_eq_self hcommand, Fields.decode_members hextra.sorted, Fields.sorted_sorted]
  rw [required_string hid]
  rfl

theorem decodeVariant_encodeVariant (h : m.WellFormed) :
    decodeVariant m.encodeVariant.1 (.map m.encodeVariant.2) = some m.sorted := by
  cases m with
  | hello version hostname agentVersion isLocal publicKey bootstrapToken osId =>
    have hread : decodeHello (.map (hello version hostname agentVersion isLocal publicKey
          bootstrapToken osId).encodeVariant.2) =
        (Value.ofU32 version).asU32.bind fun n =>
          some (hello n hostname agentVersion isLocal publicKey bootstrapToken osId) := by
      cases publicKey <;> cases bootstrapToken <;> cases osId <;> rfl
    rw [asU32_ofU32] at hread
    exact hread
  | helloAck version warning =>
    have hread : decodeVariant "helloack" (.map (helloAck version warning).encodeVariant.2) =
        (Value.ofU32 version).asU32.bind fun n => some (helloAck n warning) := by
      cases warning <;> rfl
    rw [asU32_ofU32] at hread
    exact hread
  | open_ channel options => exact decodeOpen_encodeVariant h
  | ready channel =>
    have hread : decodeVariant "ready" (.map (ready channel).encodeVariant.2) =
        (Value.string channel).asChannelId.bind fun channel => some (ready channel) := rfl
    rw [asChannelId_string h] at hread
    exact hread
  | data channel d =>
    have hread : decodeVariant "data" (.map (data channel d).encodeVariant.2) =
        (Value.string channel).asChannelId.bind fun channel => some (data channel d.normal) := rfl
    rw [asChannelId_string h.1, h.2] at hread
    exact hread
  | control channel command extra => exact decodeControl_encodeVariant h
  | close channel problem =>
    have hread : decodeVariant "close" (.map (close channel problem).encodeVariant.2) =
        (Value.string channel).asChannelId.bind fun channel => some (close channel problem) := by
      cases problem <;> rfl
    rw [asChannelId_string h] at hread
    exact hread
  | auth credentials =>
    have hread : decodeVariant "auth" (.map (auth credentials).encodeVariant.2) =
        (AuthCredentials.decode credentials.encode).bind fun c => some (auth c) := rfl
    rw [decode_credentials] at hread
    exact hread
  | authResult success problem user => cases problem <;> cases user <;> rfl
  | _ => rfl

theorem decode_encode (h : m.WellFormed) : decode m.encode = some m.sorted := by
  rw [decode, encode, taggedContent_cons (absent_type_encode h)]
  exact decodeVariant_encodeVariant h

/-! ### What is read can be written -/

theorem exists_of_mem_normalEntries {e : String × Value}
    (he : e ∈ Value.normalEntries ms) : ∃ e' ∈ ms, e'.1 = e.1 := by
  induction ms with
  | nil => cases he
  | cons e' ms ih =>
    rw [Value.normalEntries] at he
    rcases List.mem_cons.1 he with rfl | he
    · exact ⟨e', List.mem_cons_self, rfl⟩
    · obtain ⟨e'', hmem, heq⟩ := ih he
      exact ⟨e'', List.mem_cons_of_mem _ hmem, heq⟩

theorem plain_decode {reserved : List String}
    (h : ∀ key ∈ reserved, Absent key ms) : (Fields.decode ms).Plain reserved := by
  intro e he
  rw [Fields.members_decode] at he
  have hmem : e ∈ Value.normalEntries ms := SortedMap.mem_of_mem_ofList he
  refine ⟨fun hkey => ?_, Value.normal_of_mem_normalEntries ms e hmem⟩
  obtain ⟨e', he', heq⟩ := exists_of_mem_normalEntries hmem
  exact h e.1 hkey e' he' heq

theorem required_eq_some_iff {α : Type} {f : Value → Option α} {x : Option (Option Value)} {a : α} :
    required f x = some a ↔ ∃ v, x = some (some v) ∧ f v = some a := by
  cases x with
  | none => exact iff_of_false nofun nofun
  | some x =>
    cases x with
    | none => exact iff_of_false nofun nofun
    | some v =>
      refine ⟨fun h => ⟨v, rfl, h⟩, ?_⟩
      rintro ⟨_, ⟨⟩, h⟩
      exact h

theorem isChannelId_of_required {x : Option (Option Value)} {channel : ChannelId}
    (h : required Value.asChannelId x = some channel) : IsChannelId channel := by
  obtain ⟨v, -, hv⟩ := required_eq_some_iff.1 h
  obtain ⟨s, -, hs⟩ := Option.bind_eq_some_iff.1 hv
  unfold IsChannelId
  unfold ChannelId.new at hs ⊢
  split_ifs at hs ⊢ <;> cases hs <;> first | rfl | contradiction

/-- The tag is no member of the content. -/
theorem absent_of_taggedContent {tag name : String} {v : Value}
    (h : taggedContent tag v = some (name, .map ms)) : Absent tag ms := by
  unfold taggedContent at h
  split at h
  · obtain ⟨x, -, hx⟩ := Option.bind_eq_some_iff.1 h
    split at hx
    · cases hx
      exact absent_without tag _
    · cases hx
  · cases h
  · cases h

theorem wellFormed_of_decodeOpen {c : Content} (hc : ∀ ms, c = .map ms → Absent "type" ms)
    (h : decodeOpen c = some m) : m.WellFormed ∧ m.sorted = m := by
  cases c with
  | seq => cases h
  | map ms =>
    simp only [decodeOpen, decodeOptions, Option.bind_eq_bind, Option.bind_eq_some_iff,
      Option.pure_def, Option.some.injEq] at h
    obtain ⟨channel, hchannel, -, ⟨payload, -, superuser, -, rfl⟩, rfl⟩ := h
    refine ⟨⟨isChannelId_of_required hchannel, plain_decode ?_⟩, ?_⟩
    · intro key hkey
      simp only [openFields, List.mem_cons, List.not_mem_nil, or_false] at hkey
      rcases hkey with rfl | rfl | rfl | rfl
      · exact (((hc ms rfl).without _).without _).without _
      · exact ((absent_without _ _).without _).without _
      · exact (absent_without _ _).without _
      · exact absent_without _ _
    · simp only [sorted, Fields.sorted_decode]

theorem wellFormed_of_decodeControl {c : Content} (hc : ∀ ms, c = .map ms → Absent "type" ms)
    (h : decodeControl c = some m) : m.WellFormed ∧ m.sorted = m := by
  cases c with
  | seq => cases h
  | map ms =>
    simp only [decodeControl, Option.bind_eq_bind, Option.bind_eq_some_iff, Option.pure_def,
      Option.some.injEq] at h
    obtain ⟨channel, hchannel, command, -, rfl⟩ := h
    refine ⟨⟨isChannelId_of_required hchannel, plain_decode ?_⟩, ?_⟩
    · intro key hkey
      simp only [controlFields, List.mem_cons, List.not_mem_nil, or_false] at hkey
      rcases hkey with rfl | rfl | rfl
      · exact ((hc ms rfl).without _).without _
      · exact (absent_without _ _).without _
      · exact absent_without _ _
    · simp only [sorted, Fields.sorted_decode]

/-- A message that was decoded is one that can be read again, and its members are in order. -/
theorem wellFormed_of_decode {v : Value} (h : decode v = some m) :
    m.WellFormed ∧ m.sorted = m := by
  obtain ⟨⟨name, c⟩, htag, hvariant⟩ := Option.bind_eq_some_iff.1 h
  have hc (ms : List (String × Value)) (hms : c = .map ms) : Absent "type" ms :=
    absent_of_taggedContent (hms ▸ htag)
  dsimp only at hvariant
  unfold decodeVariant at hvariant
  split at hvariant
  case h_6 => exact wellFormed_of_decodeOpen hc hvariant
  case h_9 => exact wellFormed_of_decodeControl hc hvariant
  case h_15 => cases hvariant
  case h_1 =>
    simp only [decodeHello, Option.bind_eq_bind, Option.bind_eq_some_iff, Option.pure_def,
      Option.some.injEq] at hvariant
    obtain ⟨_, -, _, -, _, -, _, -, _, -, _, -, _, -, _, -, rfl⟩ := hvariant
    exact ⟨trivial, rfl⟩
  all_goals
    simp only [Option.bind_eq_bind, Option.bind_eq_some_iff, Option.pure_def,
      Option.some.injEq] at hvariant
  case h_7 =>
    obtain ⟨_, -, channel, hchannel, rfl⟩ := hvariant
    exact ⟨isChannelId_of_required hchannel, rfl⟩
  case h_8 =>
    obtain ⟨_, -, channel, hchannel, d, hd, rfl⟩ := hvariant
    obtain ⟨v, -, hv⟩ := required_eq_some_iff.1 hd
    obtain rfl := Option.some.inj hv
    exact ⟨⟨isChannelId_of_required hchannel, Value.normal_normal v⟩, rfl⟩
  case h_10 =>
    obtain ⟨_, -, channel, hchannel, problem, -, rfl⟩ := hvariant
    exact ⟨isChannelId_of_required hchannel, rfl⟩
  case h_2 | h_5 =>
    obtain ⟨_, -, _, -, _, -, rfl⟩ := hvariant
    exact ⟨trivial, rfl⟩
  case h_3 | h_4 | h_11 =>
    obtain ⟨_, -, _, -, rfl⟩ := hvariant
    exact ⟨trivial, rfl⟩
  case h_12 =>
    obtain ⟨_, -, _, -, _, -, _, -, rfl⟩ := hvariant
    exact ⟨trivial, rfl⟩
  case h_13 | h_14 =>
    obtain ⟨_, -, rfl⟩ := hvariant
    exact ⟨trivial, rfl⟩

end

end Message

end Tenodera.Protocol
