import Tenodera.Gateway.RelayTables

/-!
# Messages on their way to an agent

What the queues towards an agent hold: messages of an owner that is attached to the connection, on
channels under its prefix, and every Open of a session with the identity of the session.
-/

namespace Tenodera.Gateway.Relay

open Protocol

/-! ## Identity of an Open -/

/-- The fields carry user and role of the session. -/
def Carries (w : WsId) (extra : Fields) : Prop :=
  extra.lookup "_user" = some (.string w.user) ∧
    extra.lookup "_role" = some (.string w.role.asStr)

/-- The options of an Open. -/
def optionsOf : Message → Option ChannelOpenOptions
  | .open_ _ options => some options
  | _ => none

/-- If the message is an Open of a session, it carries the identity of the session. -/
def Marked (o : Owner) (m : Message) : Prop :=
  ∀ w, o = .ws w → ∀ options, optionsOf m = some options → Carries w options.extra

theorem carries_cleanOpen (w : WsId) (options : ChannelOpenOptions) :
    Carries w (cleanOpen w options).extra := by
  constructor
  · rw [cleanOpen, AList.lookup_insert_ne (by decide), AList.lookup_insert]
  · rw [cleanOpen, AList.lookup_insert]

theorem marked_of_optionsOf {o : Owner} {m : Message} (h : optionsOf m = none) : Marked o m := by
  intro w _ options hoptions
  rw [h] at hoptions
  cases hoptions

theorem optionsOf_prefixMessage (m : Message) (pfx : String) :
    optionsOf (prefixMessage m pfx) = optionsOf m := by
  cases m <;> rfl

theorem Marked.prefixMessage {o : Owner} {m : Message} (h : Marked o m) (pfx : String) :
    Marked o (prefixMessage m pfx) := by
  intro w ho options hoptions
  rw [optionsOf_prefixMessage] at hoptions
  exact h w ho options hoptions

/-- Ready goes towards the gateway only; every other message gets the prefix if it has a channel. -/
def IsReady : Message → Prop
  | .ready _ => True
  | _ => False

theorem channel_prefixMessage {m : Message} {pfx : String} {channel : ChannelId}
    (hready : ¬ IsReady m) (h : (prefixMessage m pfx).channel = some channel) :
    ∃ id, channel = prefixed pfx id := by
  cases m with
  | open_ id _ | data id _ | control id _ _ | close id _ =>
    cases h
    exact ⟨id, rfl⟩
  | ready id => exact absurd trivial hready
  | _ => cases h

variable {s t : State} {act : Action}

/-! ## Where messages come from -/

attribute [local simp] Function.update_apply State.setConn State.setLink State.setSession
  State.setRpc State.emit State.attach State.enqueue State.release State.retain rpcDone

theorem link_handleOpen (w : WsId) (channel : ChannelId) (options : ChannelOpenOptions)
    (serial : ℕ) : (handleOpen w channel options serial s).link = s.link := by
  simp only [handleOpen, refuse]
  split_ifs
  · rfl
  · rfl
  · rfl
  · split
    · rfl
    · split
      · rfl
      · split_ifs
        · rfl
        · split <;> rfl

/-- Only Data, Control and Close go on at once. -/
theorem wsFrame_link {w : WsId} {m : Message} {serial : ℕ} (h : wsFrame w m serial s = some t) :
    t.link = s.link ∨ optionsOf m = none ∧ ¬ IsReady m := by
  simp only [wsFrame] at h
  split at h
  · split_ifs at h
    · cases m with
      | data _ _ | control _ _ _ | close _ _ => exact .inr ⟨rfl, id⟩
      | open_ channel options =>
        cases h
        exact .inl (link_handleOpen w channel options serial)
      | _ =>
        cases h
        exact .inl rfl
    · cases h
      exact .inl rfl
  · cases h

/-- The queue of a proxy task gets messages of a session: Opens with its identity, or others. -/
theorem proxy_of_step (hs : Wf s) (h : step s act = some t) {a : Attachment} {m : Message}
    (hm : m ∈ (t.link a).proxy) :
    m ∈ (s.link a).proxy ∨
      a ∈ s.attached ∧ (∃ w, a.owner = .ws w) ∧ Marked a.owner m ∧ ¬ IsReady m := by
  have heffect := step_effect h
  rcases proxy_of_effect heffect hm with hold | ⟨-, w, hholds⟩
  · exact .inl hold
  obtain ⟨howner, hattached⟩ := hs.holds w a hholds
  cases heffect with
  | @opened v p opening alive =>
    by_cases ha : a = p.attachment
    · subst ha
      have hp := (hs.holds v p.attachment (.inl ⟨p, opening, rfl⟩)).1
      have hmem : m ∈ (s.link p.attachment).proxy ∨
          m = .open_ p.channel (cleanOpen v p.options) := by
        simpa using hm
      rcases hmem with hold | rfl
      · exact .inl hold
      · refine .inr ⟨hattached, ⟨v, hp⟩, ?_, id⟩
        intro v' hv' options hoptions
        cases hp.symm.trans hv'
        cases hoptions
        exact carries_cleanOpen v p.options
    · exact .inl (by simpa [ha] using hm)
  | @routed v m' serial channel b route alive | @closed v m' serial channel b _ route alive =>
    by_cases ha : a = b
    · subst ha
      have hmem : m ∈ (s.link a).proxy ∨ m = m' := by simpa using hm
      rcases hmem with hold | rfl
      · exact .inl hold
      rcases wsFrame_link h with hlink | ⟨hoptions, hready⟩
      · rw [hlink] at hm
        exact .inl hm
      · exact .inr ⟨hattached, ⟨w, howner⟩, marked_of_optionsOf hoptions, hready⟩
    · exact .inl (by simpa [ha] using hm)
  | @proxied b _ rest alive queue =>
    left
    by_cases ha : a = b
    · subst ha
      rw [queue]
      exact List.mem_cons_of_mem _ (by simpa using hm)
    · simpa [ha] using hm
  | _ =>
    left
    first
      | exact hm
      | (simp at hm
         split_ifs at hm with ha <;> first | exact hm | exact ha ▸ hm | cases hm)

/-- What is true of a message that is sent to an agent for an owner: it is on a channel under the
owner's prefix, and an Open or a message of a session comes from an attachment. -/
structure Sent (s : State) (c : ConnId) (o : Owner) (m : Message) : Prop where
  channel : ∀ channel, m.channel = some channel → ∃ id, channel = prefixed o.pfx id
  marked : Marked o m
  attached : (∃ w, o = .ws w) ∨ (optionsOf m).isSome → ∃ a ∈ s.attached, a.owner = o ∧ a.conn = c

theorem Sent.of_effect {c : ConnId} {o : Owner} {m : Message} (hm : Sent s c o m)
    (h : Effect s act t) : Sent t c o m where
  channel := hm.channel
  marked := hm.marked
  attached ho := by
    obtain ⟨a, ha, heq⟩ := hm.attached ho
    exact ⟨a, attached_mono h ha, heq⟩

/-- What an RPC call sends. -/
theorem rpcSend_toAgent (hs : Wf s) {r : RpcId} (h : rpcSend r s = some t) {c : ConnId} {o : Owner}
    {m : Message} (hm : (o, m) ∈ (t.conn c).toAgent) :
    (o, m) ∈ (s.conn c).toAgent ∨ Sent s c o m := by
  have hchannel (a : Attachment) (channel : ChannelId)
      (hc : some (prefixed a.owner.pfx rpcChannel) = some channel) :
      ∃ id, channel = prefixed a.owner.pfx id := by
    cases hc
    exact ⟨rpcChannel, rfl⟩
  have howner {a : Attachment} (ha : (s.rpc r).attachment = some a) : ¬ ∃ w, a.owner = .ws w := by
    rintro ⟨w, hw⟩
    rw [(hs.calls r a ha).1] at hw
    cases hw
  have hmarked {a : Attachment} (ha : (s.rpc r).attachment = some a) (m : Message) :
      Marked a.owner m := by
    intro w hw
    exact absurd ⟨w, hw⟩ (howner ha)
  simp only [rpcSend] at h
  split at h
  · rename_i a payload requestData hr
    split_ifs at h
    cases h
    have hattachment : (s.rpc r).attachment = some a := by rw [hr]; rfl
    rcases mem_toAgent_enqueue hm with hold | ⟨-, rfl, rfl, rfl⟩
    · exact .inl hold
    · refine .inr ⟨hchannel a, hmarked hattachment _, fun _ => ⟨a, ?_, rfl, rfl⟩⟩
      exact hs.subscribedCalls r a (by rw [hr]; rfl)
  · rename_i a requestData hr
    split_ifs at h
    cases h
    have hattachment : (s.rpc r).attachment = some a := by rw [hr]; rfl
    rcases mem_toAgent_enqueue hm with hold | ⟨-, rfl, rfl, rfl⟩
    · exact .inl hold
    · refine .inr ⟨hchannel a, hmarked hattachment _, ?_⟩
      rintro (hw | hopen)
      · exact absurd hw (howner hattachment)
      · cases hopen
  · rename_i a hr
    split_ifs at h
    cases h
    have hattachment : (s.rpc r).attachment = some a := by rw [hr]; rfl
    rw [toAgent_rpcDone] at hm
    rcases mem_toAgent_enqueue hm with hold | ⟨-, rfl, rfl, rfl⟩
    · exact .inl hold
    · refine .inr ⟨hchannel a, hmarked hattachment _, ?_⟩
      rintro (hw | hopen)
      · exact absurd hw (howner hattachment)
      · cases hopen
  · cases h

/-- The queues towards the agents, and what has left them. -/
structure Outgoing (s : State) : Prop where
  proxy : ∀ a, ∀ m ∈ (s.link a).proxy,
    a ∈ s.attached ∧ (∃ w, a.owner = .ws w) ∧ Marked a.owner m ∧ ¬ IsReady m
  toAgent : ∀ c o m, (o, m) ∈ (s.conn c).toAgent → Sent s c o m
  sent : ∀ c o m, .toAgent c o m ∈ s.log → Sent s c o m

theorem outgoing_init : Outgoing State.init where
  proxy a m hm := by cases hm
  toAgent c o m hm := by cases hm
  sent c o m hm := by cases hm

/-- The queue of a writer gets messages from the proxy tasks and from the calls. -/
theorem Outgoing.toAgent_of_step (ho : Outgoing s) (hs : Wf s) (h : step s act = some t)
    {c : ConnId} {o : Owner} {m : Message} (hm : (o, m) ∈ (t.conn c).toAgent) :
    (o, m) ∈ (s.conn c).toAgent ∨ Sent s c o m := by
  have hnotRpc : (∃ r, act = .rpcSend r) ∨ ∀ r, act ≠ .rpcSend r := by
    by_cases hact : ∃ r, act = .rpcSend r
    · exact .inl hact
    · exact .inr fun r hr => hact ⟨r, hr⟩
  rcases hnotRpc with ⟨r, rfl⟩ | hact
  · exact rpcSend_toAgent hs h hm
  cases step_effect h with
  | @proxied a m' rest alive queue =>
    rcases mem_toAgent_enqueue hm with hold | ⟨-, rfl, rfl, rfl⟩
    · exact .inl hold
    · obtain ⟨hattached, -, hmarked, hready⟩ := ho.proxy a m' (by simp [queue])
      exact .inr
        { channel := fun _ hchannel => channel_prefixMessage hready hchannel
          marked := hmarked.prefixMessage _
          attached := fun _ => ⟨a, hattached, rfl, rfl⟩ }
  | @written d o' m' rest queue =>
    left
    by_cases hd : c = d
    · subst hd
      rw [queue]
      exact List.mem_cons_of_mem _ (by simpa using hm)
    · simpa [hd] using hm
  | @rpcOpened r _ _ _ _ _ | @rpcRequested r _ _ _ _ | @rpcClosed r _ _ _ =>
    exact absurd rfl (hact r)
  | _ =>
    left
    first
      | exact hm
      | (simp at hm
         split_ifs at hm with hd <;> first | exact hm | exact hd ▸ hm | cases hm)

theorem Outgoing.of_step (ho : Outgoing s) (hs : Wf s) (h : step s act = some t) :
    Outgoing t where
  proxy a m hm := by
    rcases proxy_of_step hs h hm with hold | ⟨hattached, hnew⟩
    · obtain ⟨hattached, hrest⟩ := ho.proxy a m hold
      exact ⟨attached_mono (step_effect h) hattached, hrest⟩
    · exact ⟨attached_mono (step_effect h) hattached, hnew⟩
  toAgent c o m hm := by
    rcases ho.toAgent_of_step hs h hm with hold | hsent
    · exact (ho.toAgent c o m hold).of_effect (step_effect h)
    · exact hsent.of_effect (step_effect h)
  sent c o m hm := by
    rcases log_of_effect (step_effect h) with heq | ⟨e, heq, hemits⟩
    · exact (ho.sent c o m (heq ▸ hm)).of_effect (step_effect h)
    · rw [heq] at hm
      rcases List.mem_cons.1 hm with rfl | hold
      · cases hemits with
        | toAgent queued => exact (ho.toAgent c o m queued).of_effect (step_effect h)
      · exact (ho.sent c o m hold).of_effect (step_effect h)

end Tenodera.Gateway.Relay
