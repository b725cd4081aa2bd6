import Tenodera.Agent.Router
import Tenodera.Gateway.Isolation
import Tenodera.Gateway.RelayMessages

/-!
# The identity that handlers see

The gateway puts user and role of the session into every Open, and the router of the agent puts them
into the Data that follows.  A router is shared by all owners of a connection, and it keeps the
options of a channel only until a handler closes the channel: `Guarded.of_step` says when a handler
still sees the session's own identity.
-/

namespace Tenodera.Gateway.Relay

open Protocol Transition
open Agent (Handlers Router Call membersNamed enrich)

/-! ## Routers -/

/-- The router at the agent's end of a connection, the number of messages it has taken, and who
called which handler, latest first. -/
structure Replay (H : Type*) where
  router : Router H
  taken : ℕ
  calls : List (Owner × Call H)

variable {H : Type*}

/-- The agent takes a message, if it decodes. -/
def Replay.take (hs : Handlers H) (p : Replay H) (o : Owner) (m : Message) : Replay H :=
  if decodes m then
    let handled := p.router.handle hs p.taken m
    { router := handled.router
      taken := p.taken + 1
      calls := handled.call.toList.map (fun call => (o, call)) ++ p.calls }
  else p

/-- What the messages sent over a connection so far have done at the agent. -/
def replay (hs : Handlers H) (c : ConnId) : List Event → Replay H
  | [] => ⟨Router.new, 0, []⟩
  | .toAgent c' o m :: log =>
    if c' = c then (replay hs c log).take hs o m else replay hs c log
  | _ :: log => replay hs c log

/-! ## The law -/

/-- The handler sees user and role of the session: in the options, or as members of an object; data
that is no object has neither. -/
def SeesIdentity (w : WsId) : Call H → Prop
  | .stream _ _ options | .open_ _ _ options => Carries w options.extra
  | .data _ _ (.object entries) =>
    membersNamed "_user" (.object entries) = [.string w.user] ∧
      membersNamed "_role" (.object entries) = [.string w.role.asStr]
  | .data _ _ value => membersNamed "_user" value = [] ∧ membersNamed "_role" value = []

/-- Every Open that is forwarded for a session, and every call of a handler on its behalf, carries
the identity of the session. -/
structure Identified (hs : Handlers H) (s : State) : Prop where
  opens : ∀ c w channel options,
    .toAgent c (.ws w) (.open_ channel options) ∈ s.log → Carries w options.extra
  calls : ∀ c w call, (.ws w, call) ∈ (replay hs c s.log).calls → SeesIdentity w call

/-- Who a session acts for; an RPC call puts the identity into its request by itself. -/
def Owner.identity : Owner → Option (String × Role)
  | ws w => some (w.user, w.role)
  | rpc _ => none

/-- The step attaches nobody under a prefix that somebody with another identity has had on the
connection. -/
def OwnIdentity (s : State) (act : Action) : Prop :=
  ∀ a ∈ s.attaching act, ∀ b ∈ s.attached,
    b.conn = a.conn → b.owner.pfx = a.owner.pfx → b.owner.identity = a.owner.identity

/-- The Open that a step brings to the agent. -/
def State.delivers (s : State) : Action → Option (ConnId × ChannelId × ChannelOpenOptions)
  | .write c =>
    match (s.conn c).toAgent.head? with
    | some (_, .open_ channel options) => some (c, channel, options)
    | _ => none
  | _ => none

/-- The step brings no one-shot request to the agent on a channel that its router still tracks as
streaming. -/
def KeepsOptions (hs : Handlers H) (s : State) (act : Action) : Prop :=
  ∀ p ∈ s.delivers act, Router.oneShot hs (replay hs p.1 s.log).taken p.2.1 p.2.2 →
    p.2.1 ∉ (replay hs p.1 s.log).router.activeChannels

/-- The steps after which handlers see the right identity. -/
def Undisturbed (hs : Handlers H) (s : State) (act : Action) : Prop :=
  OwnIdentity s act ∧ KeepsOptions hs s act

instance (hs : Handlers H) (s : State) (act : Action) : Decidable (Undisturbed hs s act) := by
  unfold Undisturbed OwnIdentity KeepsOptions
  infer_instance

/-! ## What the routers keep -/

variable {hs : Handlers H} {s t : State} {act : Action}

/-- The options that a router keeps for a channel come from an attachment under whose prefix the
channel is, with its identity. -/
def FromOwner (s : State) (c : ConnId) (channel : ChannelId) (options : ChannelOpenOptions) :
    Prop :=
  ∃ a ∈ s.attached, a.conn = c ∧ (∃ id, channel = prefixed a.owner.pfx id) ∧
    ∀ w, a.owner = .ws w → Carries w options.extra

theorem FromOwner.of_effect {c : ConnId} {channel : ChannelId} {options : ChannelOpenOptions}
    (hf : FromOwner s c channel options) (h : Effect s act t) : FromOwner t c channel options := by
  obtain ⟨a, ha, hrest⟩ := hf
  exact ⟨a, attached_mono h ha, hrest⟩

theorem fromOwner_of_sent {c : ConnId} {o : Owner} {channel : ChannelId}
    {options : ChannelOpenOptions} (h : Sent s c o (.open_ channel options)) :
    FromOwner s c channel options := by
  obtain ⟨a, ha, rfl, hconn⟩ := h.attached (.inr rfl)
  exact ⟨a, ha, hconn, h.channel channel rfl, fun w hw => h.marked w hw options rfl⟩

/-- On each connection a prefix stands for one identity, and a router that hands Data on has the
options of that identity. -/
structure Guarded (hs : Handlers H) (s : State) : Prop where
  wf : Wf s
  outgoing : Outgoing s
  oneIdentity : ∀ a ∈ s.attached, ∀ b ∈ s.attached,
    a.conn = b.conn → a.owner.pfx = b.owner.pfx → a.owner.identity = b.owner.identity
  kept : ∀ c, (replay hs c s.log).router.Kept (FromOwner s c)
  calls : ∀ c w call, (.ws w, call) ∈ (replay hs c s.log).calls → SeesIdentity w call

theorem Guarded.identified (hg : Guarded hs s) : Identified hs s where
  opens c w _ options hm := (hg.outgoing.sent c (.ws w) _ hm).marked w rfl options rfl
  calls := hg.calls

theorem guarded_init : Guarded hs State.init where
  wf := wf_init
  outgoing := outgoing_init
  oneIdentity a ha := by cases ha
  kept c := Router.kept_new
  calls c w call hm := by cases hm

theorem Guarded.oneIdentity_of_effect (hg : Guarded hs s) (hC : OwnIdentity s act)
    (h : Effect s act t) : ∀ a ∈ t.attached, ∀ b ∈ t.attached,
      a.conn = b.conn → a.owner.pfx = b.owner.pfx → a.owner.identity = b.owner.identity := by
  intro a ha b hb hconn hpfx
  rcases attached_of_effect h ha with ha | ⟨ha, -⟩ <;>
    rcases attached_of_effect h hb with hb | ⟨hb, -⟩
  · exact hg.oneIdentity a ha b hb hconn hpfx
  · exact hC b (attaching_of_attaches hb) a ha hconn hpfx
  · exact (hC a (attaching_of_attaches ha) b hb hconn.symm hpfx.symm).symm
  · have heq := (attaching_of_attaches ha).symm.trans (attaching_of_attaches hb)
    cases heq
    rfl

/-- The options of a channel under a session's prefix carry the identity of the session. -/
theorem Guarded.carries (hg : Guarded hs s) {c : ConnId} {w : WsId} {id : ChannelId}
    {options : ChannelOpenOptions} (hattached : ∃ a ∈ s.attached, a.owner = .ws w ∧ a.conn = c)
    (hf : FromOwner s c (prefixed (Owner.ws w).pfx id) options) : Carries w options.extra := by
  obtain ⟨a, ha, howner, rfl⟩ := hattached
  obtain ⟨b, hb, hconn, ⟨id', hid⟩, hcarries⟩ := hf
  have hlength : (Owner.ws w).pfx.length = b.owner.pfx.length := by
    rw [Owner.pfx_length, Owner.pfx_length]
  obtain ⟨hpfx, -⟩ := prefixed_inj hlength hid
  have hidentity := hg.oneIdentity a ha b hb hconn.symm (by rw [howner, hpfx])
  rw [howner] at hidentity
  cases hbowner : b.owner with
  | ws v =>
    rw [hbowner, Owner.identity, Owner.identity, Option.some.injEq, Prod.mk.injEq] at hidentity
    obtain ⟨huser, hrole⟩ := hidentity
    have hv := hcarries v hbowner
    rwa [Carries, ← huser, ← hrole] at hv
  | rpc r =>
    rw [hbowner] at hidentity
    cases hidentity

theorem seesIdentity_enrich {w : WsId} {options : ChannelOpenOptions} (handler : H)
    (channel : ChannelId) (data : Value) (h : Carries w options.extra) :
    SeesIdentity w (.data handler channel (enrich options data)) := by
  cases data with
  | object entries => exact Agent.membersNamed_enrich h.1 h.2 entries
  | _ => exact ⟨rfl, rfl⟩

/-- A handler that is called for a session sees the identity of the session. -/
theorem Guarded.seesIdentity (hg : Guarded hs s) {c : ConnId} {w : WsId} {m : Message}
    {call : Call H} (hsent : Sent s c (.ws w) m)
    (h : ((replay hs c s.log).router.handle hs (replay hs c s.log).taken m).call = some call) :
    SeesIdentity w call := by
  rcases Router.call_handle (hg.kept c) h with
    ⟨handler, channel, options, rfl, hcall⟩ | ⟨handler, channel, data, options, rfl, -, hf, rfl⟩
  · have hcarries := hsent.marked w rfl options rfl
    rcases hcall with rfl | rfl <;> exact hcarries
  · obtain ⟨id, rfl⟩ := hsent.channel channel rfl
    have hcarries := hg.carries (hsent.attached (.inl ⟨w, rfl⟩)) hf
    exact seesIdentity_enrich handler _ data hcarries

/-- A step takes the next message of a writer to its agent, or no router notices. -/
theorem replay_of_effect (hs : Handlers H) (h : Effect s act t) :
    (∀ c, replay hs c t.log = replay hs c s.log) ∨
    ∃ c o m, act = .write c ∧ (s.conn c).toAgent.head? = some (o, m) ∧
      t.log = .toAgent c o m :: s.log := by
  cases h with
  | @written c o m rest queue => exact .inr ⟨c, o, m, rfl, by rw [queue]; rfl, rfl⟩
  | _ => exact .inl fun c => rfl

theorem Guarded.kept_of_effect (hg : Guarded hs s) (h : Effect s act t) (c : ConnId) :
    (replay hs c s.log).router.Kept (FromOwner t c) := by
  intro channel handler htracked
  obtain ⟨options, hoptions, hf⟩ := hg.kept c channel handler htracked
  exact ⟨options, hoptions, hf.of_effect h⟩

theorem Guarded.kept_take (hg : Guarded hs s) (hC : KeepsOptions hs s act) (h : Effect s act t)
    {c : ConnId} {o : Owner} {m : Message} (hact : act = .write c)
    (hhead : (s.conn c).toAgent.head? = some (o, m)) :
    ((replay hs c s.log).take hs o m).router.Kept (FromOwner t c) := by
  have hkept := hg.kept_of_effect h c
  have hsent := hg.outgoing.toAgent c o m (List.mem_of_mem_head? hhead)
  unfold Replay.take
  split_ifs
  · refine hkept.handle fun channel options hm => ?_
    subst hm hact
    have hdelivers : s.delivers (.write c) = some (c, channel, options) := by
      simp only [State.delivers, hhead]
    exact ⟨(fromOwner_of_sent hsent).of_effect h, hC _ hdelivers⟩
  · exact hkept

theorem Guarded.calls_take (hg : Guarded hs s) {c : ConnId} {o : Owner} {m : Message}
    (hsent : Sent s c o m) {w : WsId} {call : Call H}
    (hcall : (.ws w, call) ∈ ((replay hs c s.log).take hs o m).calls) : SeesIdentity w call := by
  unfold Replay.take at hcall
  split_ifs at hcall
  · rcases List.mem_append.1 hcall with hnew | hold
    · obtain ⟨call', hcall', heq⟩ := List.mem_map.1 hnew
      cases heq
      exact hg.seesIdentity hsent (Option.mem_toList.1 hcall')
    · exact hg.calls c w call hold
  · exact hg.calls c w call hcall

theorem Guarded.of_step (hg : Guarded hs s) (hC : Undisturbed hs s act)
    (h : step s act = some t) : Guarded hs t := by
  have heffect := step_effect h
  refine ⟨hg.wf.of_effect heffect, hg.outgoing.of_step hg.wf h,
    hg.oneIdentity_of_effect hC.1 heffect, fun c => ?_, fun c w call hcall => ?_⟩
  · have hkept := hg.kept_of_effect heffect c
    rcases replay_of_effect hs heffect with hsame | ⟨d, o, m, hact, hhead, hlog⟩
    · rw [hsame]
      exact hkept
    · rw [hlog, replay]
      split_ifs with hd
      · subst hd
        exact hg.kept_take hC.2 heffect hact hhead
      · exact hkept
  · rcases replay_of_effect hs heffect with hsame | ⟨d, o, m, hact, hhead, hlog⟩
    · rw [hsame] at hcall
      exact hg.calls c w call hcall
    · rw [hlog, replay] at hcall
      split_ifs at hcall with hd
      · subst hd
        have hsent := hg.outgoing.toAgent d o m (List.mem_of_mem_head? hhead)
        exact hg.calls_take hsent hcall
      · exact hg.calls c w call hcall

end Tenodera.Gateway.Relay
