import Tenodera.Gateway.RelayTables

/-!
# Isolation of the owners of an agent

A connection to an agent tells the sessions and calls that share it apart by a prefix: eight digits
of the session's token, or a random number of the call.  Two sockets with one token have one prefix;
the second takes the entry of the first, and with it the messages of the first one's channels.
`isolated_of_meets` says that nothing else can go wrong.
-/

namespace Tenodera.Gateway.Relay

open Protocol Transition

/-- The message of an agent that an event hands to an owner, with the attachment it came through. -/
def Event.delivery : Event → Option (Attachment × Frame)
  | .toBrowser a frame | .toCaller a frame => some (a, frame)
  | _ => none

/-- The channel of the frame was opened by `o`, if by anyone. -/
def Frame.OpenedBy (frame : Frame) (o : Owner) : Prop := ∀ opener ∈ frame.opener, opener = o

/-- The attachment of a session lasts as long as the session, that of a call until the call removes
its entry. -/
def StillOpen (s : State) (a : Attachment) : Prop :=
  match a.owner with
  | .ws w => a ∈ s.attached ∧ (s.session w).loop.isRunning
  | .rpc r => (s.rpc r).subscribed = some a

/-- Messages go to the owner that opened their channel, and for every attachment that is still open
the reader finds its owner. -/
structure Isolated (s : State) : Prop where
  delivered : ∀ e ∈ s.log, ∀ a frame, e.delivery = some (a, frame) → frame.OpenedBy a.owner
  served : ∀ a, StillOpen s a →
    ∃ b, (s.conn a.conn).subscribers.lookup a.owner.pfx = some b ∧ b.owner = a.owner

/-- The attachment that a step sets up. -/
def State.attaching (s : State) : Action → Option Attachment
  | .wsConnect w => s.pending (.ws w)
  | .rpcSubscribe r => s.pending (.rpc r)
  | _ => none

/-- No other owner has attached to the connection under the same prefix before. -/
def OwnPrefix (s : State) (act : Action) : Prop :=
  ∀ a ∈ s.attaching act, ∀ b ∈ s.attached,
    b.conn = a.conn → b.owner.pfx = a.owner.pfx → b.owner = a.owner

instance (s : State) (act : Action) : Decidable (OwnPrefix s act) := by
  unfold OwnPrefix
  infer_instance

theorem Owner.pfx_length (o : Owner) : o.pfx.length = sessionPrefixLen := by
  cases o with
  | ws w => rw [Owner.pfx, sessionPrefix_idem, sessionPrefix_length]
  | rpc r => exact hex8_length r.raw

variable {s t : State} {act : Action}

theorem attaching_of_attaches {a : Attachment} (h : Attaches s act a) :
    s.attaching act = some a := by
  cases h with
  | session connecting => simp [State.attaching, State.pending, connecting]
  | call subscribing => simp [State.attaching, State.pending, subscribing]

/-- The last opener of a channel is one of its openers. -/
theorem opened_of_lastOpener {c : ConnId} {channel : ChannelId} {o : Owner} {log : List Event}
    (h : lastOpener c channel log = some o) :
    ∃ a id, .opened a id ∈ log ∧ a.conn = c ∧ prefixed a.owner.pfx id = channel ∧ a.owner = o := by
  induction log with
  | nil => cases h
  | cons e log ih =>
    have hlater (hlog : lastOpener c channel log = some o) :=
      (ih hlog).imp fun _ => Exists.imp fun _ => And.imp_left (List.mem_cons_of_mem e)
    cases e with
    | opened a id =>
      rw [lastOpener] at h
      split_ifs at h with hc
      · cases h
        exact ⟨a, id, List.mem_cons_self, hc.1, hc.2, rfl⟩
      · exact hlater h
    | _ => exact hlater h

/-- On each connection a prefix has one owner, and the frames that are on their way are on the
channels of the owner they go to. -/
structure Separated (s : State) : Prop where
  wf : Wf s
  oneOwner : ∀ a ∈ s.attached, ∀ b ∈ s.attached,
    a.conn = b.conn → a.owner.pfx = b.owner.pfx → a.owner = b.owner
  inbox : ∀ a, ∀ frame ∈ (s.link a).inbox, frame.OpenedBy a.owner
  dispatching : ∀ c frame a, (s.conn c).reader = .dispatching frame a → frame.OpenedBy a.owner
  isolated : Isolated s

/-- A frame under a subscriber's prefix is on a channel of the subscriber. -/
theorem Separated.openedBy (hs : Separated s) {c : ConnId} {m stripped : Message} {pfx : String}
    {a : Attachment} (strip : stripPrefixFromMessage m = some (stripped, pfx))
    (subscribed : (s.conn c).subscribers.lookup pfx = some a) :
    Frame.OpenedBy ⟨stripped, m.channel.bind fun ch => lastOpener c ch s.log⟩ a.owner := by
  obtain ⟨hattached, hconn, rfl⟩ := hs.wf.subscribed c pfx a subscribed
  obtain ⟨id, hchannel, -, -⟩ := of_stripPrefixFromMessage strip
  intro o ho
  rw [hchannel] at ho
  obtain ⟨b, id', hopened, hb, hprefixed, rfl⟩ := opened_of_lastOpener ho
  have hlength : b.owner.pfx.length = a.owner.pfx.length := by
    rw [Owner.pfx_length, Owner.pfx_length]
  obtain ⟨hpfx, -⟩ := prefixed_inj hlength hprefixed
  have hopener := hs.wf.opened b id' hopened
  exact hs.oneOwner b hopener a hattached (hb.trans hconn.symm) hpfx

theorem Separated.oneOwner_of_effect (hs : Separated s) (hC : OwnPrefix s act)
    (h : Effect s act t) : ∀ a ∈ t.attached, ∀ b ∈ t.attached,
      a.conn = b.conn → a.owner.pfx = b.owner.pfx → a.owner = b.owner := by
  intro a ha b hb hconn hpfx
  rcases attached_of_effect h ha with ha | ⟨ha, -⟩ <;>
    rcases attached_of_effect h hb with hb | ⟨hb, -⟩
  · exact hs.oneOwner a ha b hb hconn hpfx
  · exact hC b (attaching_of_attaches hb) a ha hconn hpfx
  · exact (hC a (attaching_of_attaches ha) b hb hconn.symm hpfx.symm).symm
  · have heq := (attaching_of_attaches ha).symm.trans (attaching_of_attaches hb)
    cases heq
    rfl

/-- An attachment that is still open was so before, or is new and has its entry. -/
theorem stillOpen_of_effect (hs : Wf s) (h : Effect s act t) {a : Attachment}
    (ha : StillOpen t a) :
    StillOpen s a ∨ (t.conn a.conn).subscribers.lookup a.owner.pfx = some a := by
  rcases howner : a.owner with w | r
  · simp only [StillOpen, howner] at ha ⊢
    obtain ⟨hattached, hrunning⟩ := ha
    rcases attached_of_effect h hattached with hold | ⟨-, hentry⟩
    · refine .inl ⟨hold, ?_⟩
      rcases loop_of_effect h w with heq | hmoves
      · rwa [← heq]
      · generalize (t.session w).loop = loop at hrunning hmoves
        cases hmoves with
        | up absent => exact absurd absent (hs.started a hold w howner)
        | opensCached select _ | connects select _ _ _ => simp [select, Loop.isRunning]
        | connected connecting _ => simp [connecting, Loop.isRunning]
        | returns running => exact running
        | ends _ => cases hrunning
    · exact .inr (howner ▸ hentry)
  · simp only [StillOpen, howner] at ha ⊢
    rcases rpc_of_effect h r with heq | hmoves
    · exact .inl (heq ▸ ha)
    · generalize t.rpc r = next at ha hmoves
      cases hmoves with
      | subscribes _ _ entry =>
        cases ha
        exact .inr (howner ▸ entry)
      | continues subscribed still _ =>
        rw [still] at ha
        cases ha
        exact .inl subscribed
      | starts _ _ _ _ _ | unsubscribes _ | returns _ => cases ha

theorem StillOpen.attached (hs : Wf s) {a : Attachment} (ha : StillOpen s a) : a ∈ s.attached := by
  rcases howner : a.owner with w | r <;> simp only [StillOpen, howner] at ha
  · exact ha.1
  · exact hs.subscribedCalls r a ha

theorem Separated.served_of_effect (hs : Separated s) (hC : OwnPrefix s act) (h : Effect s act t)
    {a : Attachment} (ha : StillOpen t a) :
    ∃ b, (t.conn a.conn).subscribers.lookup a.owner.pfx = some b ∧ b.owner = a.owner := by
  rcases stillOpen_of_effect hs.wf h ha with hopen | hentry
  swap
  · exact ⟨a, hentry, rfl⟩
  have hattached := hopen.attached hs.wf
  rcases subscribers_of_effect h a.conn a.owner.pfx with heq | hmoves
  · rw [heq]
    exact hs.isolated.served a hopen
  · generalize hconn : a.conn = c at hmoves ⊢
    generalize hpfx : a.owner.pfx = pfx at hmoves ⊢
    generalize (t.conn c).subscribers.lookup pfx = entry at hmoves ⊢
    cases hmoves with
    | up absent => exact absurd (hconn ▸ absent) (hs.wf.attached a hattached)
    | @attaches b hb _ =>
      have howner := hC b (attaching_of_attaches hb) a hattached hconn hpfx
      exact ⟨b, rfl, howner.symm⟩
    | @removes r b subscribed unsubscribed =>
      -- The entry that a call removes is its own.
      have hb := hs.wf.subscribedCalls r b subscribed
      have hr := (hs.wf.calls r b (Rpc.attachment_of_subscribed subscribed)).1
      have howner := (hs.oneOwner a hattached b hb hconn hpfx).trans hr
      simp only [StillOpen, howner] at ha
      rw [unsubscribed] at ha
      cases ha

theorem Separated.delivered_of_effect (hs : Separated s) (h : Effect s act t) {e : Event}
    (he : e ∈ t.log) {a : Attachment} {frame : Frame} (hd : e.delivery = some (a, frame)) :
    frame.OpenedBy a.owner := by
  rcases log_of_effect h with heq | ⟨e', heq, hemits⟩
  · exact hs.isolated.delivered e (heq ▸ he) a frame hd
  · rw [heq] at he
    rcases List.mem_cons.1 he with rfl | he
    · cases hemits with
      | toBrowser _ queued | toCaller _ queued =>
        cases hd
        exact hs.inbox a frame queued
      | _ => cases hd
    · exact hs.isolated.delivered e he a frame hd

theorem Separated.of_effect (hs : Separated s) (hC : OwnPrefix s act) (h : Effect s act t) :
    Separated t where
  wf := hs.wf.of_effect h
  oneOwner := hs.oneOwner_of_effect hC h
  inbox a frame hf := by
    rcases inbox_of_effect h hf with hf | ⟨-, c, hd⟩
    · exact hs.inbox a frame hf
    · exact hs.dispatching c frame a hd
  dispatching c frame a hd := by
    rcases reader_of_effect h c with heq | hmoves
    · exact hs.dispatching c frame a (heq ▸ hd)
    · rw [hd] at hmoves
      cases hmoves with
      | takes _ strip subscribed => exact hs.openedBy strip subscribed
  isolated := ⟨fun _ he _ _ => hs.delivered_of_effect h he, fun _ => hs.served_of_effect hC h⟩

theorem separated_init : Separated State.init where
  wf := wf_init
  oneOwner a ha := by cases ha
  inbox a frame hf := by cases hf
  dispatching c frame a hd := by cases hd
  isolated :=
    { delivered := fun e he => by cases he
      served := fun a ha => by cases ha.attached wf_init }

/-- As long as no two owners attach to one connection under one prefix, messages go to the owner
that opened their channel and no attachment is taken over. -/
theorem isolated_of_meets (as : List Action) (hr : run step State.init as = some s)
    (hC : Meets step OwnPrefix State.init as) : Isolated s :=
  (invariant_of_meets (fun _ _ _ hs hC h => hs.of_effect hC (step_effect h)) separated_init hr
    hC).isolated

/-! ## Two tabs -/

/-- The second tab opens a terminal while the first one has one; the agent sends the first one's
prompt. -/
def twoTabs : List Action :=
  [.agentUp webConn, .wsUp (alice 0), .wsUp (alice 1)] ++ opensTerminal (alice 0) "1" "web" ++
    opensTerminal (alice 1) "2" "web" ++
    [.agentRecv webConn (.data "3f2b8c1e-1" (.string "$ ")), .dispatch webConn,
      .forward ⟨.ws (alice 1), webConn, 0⟩]

/-- The second tab receives the prompt. -/
theorem second_tab_takes_over : ∃ s, run step State.init twoTabs = some s ∧ ¬ Isolated s := by
  refine ⟨_, rfl, fun h => ?_⟩
  have howner : Owner.ws (alice 0) = Owner.ws (alice 1) :=
    h.delivered _ List.mem_cons_self _ _ rfl _ rfl
  exact absurd howner (by decide)

def bobToken : Uuid where
  text := "90c4d7a2-1b3e-4f5a-9c8d-7e6f5a4b3c2d"
  digits := by decide
  hex := by decide

def bob : WsId := ⟨0, bobToken, "bob", .readonly⟩

def userCheck : RpcId := ⟨0, 0xdead01⟩

/-- Alice, bob and an RPC call use one agent. -/
def sharedAgent : List Action :=
  [.agentUp webConn, .wsUp (alice 0), .wsUp bob] ++ opensTerminal (alice 0) "1" "web" ++
    opensTerminal bob "1" "web" ++
    [.rpcStart userCheck "web" "users.manage" .null 0, .rpcSubscribe userCheck,
      .agentRecv webConn (.data "3f2b8c1e-1" (.string "$ ")), .dispatch webConn,
      .forward ⟨.ws (alice 0), webConn, 0⟩]

theorem isolated_sharedAgent : ∃ s, run step State.init sharedAgent = some s ∧ Isolated s :=
  ⟨_, rfl, isolated_of_meets sharedAgent rfl (by decide)⟩

end Tenodera.Gateway.Relay
