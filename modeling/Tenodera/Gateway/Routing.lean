import Tenodera.Gateway.RelayTables

/-!
# Channels of one session on several hosts

All agents of a session forward into one socket and report closed channels by id alone.  Messages
of the browser find their agent through `channel_routes`; nothing compares the messages of an agent
with it.  `fromOpener_of_meets` says what the agents and the browser have to do for a channel to
belong to one host.
-/

namespace Tenodera.Gateway.Relay

open Protocol Transition

/-- The host on which the session opened the channel last. -/
def openedOn (w : WsId) (channel : ChannelId) : List Event → Option String
  | [] => none
  | .opened a id :: log =>
    if a.owner = .ws w ∧ id = channel then some a.conn.host else openedOn w channel log
  | _ :: log => openedOn w channel log

/-- The message comes from the host on which the session opened its channel. -/
def FromHost (log : List Event) (a : Attachment) (m : Message) : Prop :=
  ∀ w channel, a.owner = .ws w → m.channel = some channel →
    openedOn w channel log = some a.conn.host

/-- What the browser receives on a channel comes from the agent on which the channel was opened, and
only that agent closes its route. -/
def FromOpener : List Event → Prop
  | [] => True
  | .toBrowser a frame :: log => FromHost log a frame.msg ∧ FromOpener log
  | .routeClosed _ route reporter :: log => route.conn.host = reporter.conn.host ∧ FromOpener log
  | _ :: log => FromOpener log

/-- The Open that the session is sending. -/
def Loop.sending : Loop → Option PendingOpen
  | opening p => some p
  | _ => none

/-- An agent uses the prefix of a session only on channels that the session opened on its host, and
a browser uses a channel id on one host only. -/
def KeepsToHost (s : State) : Action → Prop
  | .agentRecv c m =>
    ∀ p ∈ stripPrefixFromMessage m, ∀ a ∈ (s.conn c).subscribers.lookup p.2,
      ∀ w ∈ a.owner.session, ∀ id ∈ p.1.channel, openedOn w id s.log = some c.host
  | .wsOpen w =>
    ∀ p ∈ (s.session w).loop.sending, ∀ host ∈ openedOn w p.channel s.log,
      host = p.attachment.conn.host
  | _ => True

instance (s : State) (act : Action) : Decidable (KeepsToHost s act) := by
  rcases act <;> dsimp only [KeepsToHost] <;> infer_instance

variable {s t : State} {act : Action}

theorem openedOn_of_effect (hs : Wf s) (hC : KeepsToHost s act) (h : Effect s act t) {w : WsId}
    {channel : ChannelId} {host : String} (ho : openedOn w channel s.log = some host) :
    openedOn w channel t.log = some host := by
  rcases log_of_effect h with heq | ⟨e, heq, hemits⟩
  · rwa [heq]
  · rw [heq]
    cases hemits with
    | @opened v p opening =>
      rw [openedOn]
      split_ifs with hsame
      · obtain ⟨howner, rfl⟩ := hsame
        cases (hs.holds v _ (.inl ⟨p, opening, rfl⟩)).1.symm.trans howner
        exact congrArg some (hC p (by rw [opening]; rfl) host ho).symm
      · exact ho
    | @rpcOpened r a subscribed =>
      have howner := (hs.calls r a (Rpc.attachment_of_subscribed subscribed)).1
      rw [openedOn, if_neg (by simp [howner])]
      exact ho
    | _ => exact ho

theorem FromHost.of_effect (hs : Wf s) (hC : KeepsToHost s act) (h : Effect s act t)
    {a : Attachment} {m : Message} (hm : FromHost s.log a m) : FromHost t.log a m :=
  fun w channel ha hchannel => openedOn_of_effect hs hC h (hm w channel ha hchannel)

/-- Whatever is under way comes from the right host: frames, routes and reports of closed
channels. -/
structure Attributed (s : State) : Prop where
  wf : Wf s
  inbox : ∀ a, ∀ frame ∈ (s.link a).inbox, FromHost s.log a frame.msg
  dispatching : ∀ c frame a, (s.conn c).reader = .dispatching frame a →
    FromHost s.log a frame.msg
  routes : ∀ w channel a, (s.session w).routes.lookup channel = some a →
    openedOn w channel s.log = some a.conn.host
  reports : ∀ w channel reporter, (channel, reporter) ∈ (s.session w).closeNotify →
    openedOn w channel s.log = some reporter.conn.host
  fromOpener : FromOpener s.log

theorem Attributed.routes_of_effect (hs : Attributed s) (hC : KeepsToHost s act)
    (h : Effect s act t) {w : WsId} {channel : ChannelId} {a : Attachment}
    (ha : (t.session w).routes.lookup channel = some a) :
    openedOn w channel t.log = some a.conn.host := by
  rcases Relay.routes_of_effect h ha with hold | ⟨hlog, -, -, p, hp, rfl, -⟩
  · exact openedOn_of_effect hs.wf hC h (hs.routes w channel a hold)
  · have howner := (hs.wf.holds w _ (.inl ⟨p, hp, rfl⟩)).1
    rw [hlog, openedOn, if_pos ⟨howner, rfl⟩]

theorem Attributed.reports_of_effect (hs : Attributed s) (hC : KeepsToHost s act)
    (h : Effect s act t) {w : WsId} {channel : ChannelId} {reporter : Attachment}
    (hr : (channel, reporter) ∈ (t.session w).closeNotify) :
    openedOn w channel t.log = some reporter.conn.host := by
  refine openedOn_of_effect hs.wf hC h ?_
  rcases closeNotify_of_effect h hr with hold | ⟨howner, frame, hframe, hchannel⟩
  · exact hs.reports w channel reporter hold
  · exact hs.inbox reporter frame hframe w channel howner hchannel

theorem Attributed.fromOpener_of_effect (hs : Attributed s) (h : Effect s act t) :
    FromOpener t.log := by
  rcases log_of_effect h with heq | ⟨e, heq, hemits⟩
  · exact heq ▸ hs.fromOpener
  · rw [heq]
    cases hemits with
    | toBrowser _ queued => exact ⟨hs.inbox _ _ queued, hs.fromOpener⟩
    | routeClosed reported routed =>
      have hroute := hs.routes _ _ _ routed
      have hreport := hs.reports _ _ _ reported
      exact ⟨Option.some.inj (hroute.symm.trans hreport), hs.fromOpener⟩
    | _ => exact hs.fromOpener

theorem Attributed.of_effect (hs : Attributed s) (hC : KeepsToHost s act) (h : Effect s act t) :
    Attributed t where
  wf := hs.wf.of_effect h
  inbox a frame hf := by
    refine FromHost.of_effect hs.wf hC h ?_
    rcases inbox_of_effect h hf with hf | ⟨-, c, hd⟩
    · exact hs.inbox a frame hf
    · exact hs.dispatching c frame a hd
  dispatching c frame a hd := by
    refine FromHost.of_effect hs.wf hC h ?_
    rcases reader_of_effect h c with heq | hmoves
    · exact hs.dispatching c frame a (heq ▸ hd)
    · rw [hd] at hmoves
      cases hmoves with
      | takes _ strip subscribed =>
        obtain ⟨-, hconn, -⟩ := hs.wf.subscribed c _ a subscribed
        intro w channel howner hchannel
        rw [hconn]
        exact hC _ strip a subscribed w (by rw [howner]; rfl) channel hchannel
  routes w channel a := hs.routes_of_effect hC h
  reports w channel reporter := hs.reports_of_effect hC h
  fromOpener := hs.fromOpener_of_effect h

theorem attributed_init : Attributed State.init where
  wf := wf_init
  inbox a frame hf := by cases hf
  dispatching c frame a hd := by cases hd
  routes w channel a ha := by simp [State.init] at ha
  reports w channel reporter hr := by cases hr
  fromOpener := trivial

/-- As long as agents use a session's prefix only on channels opened on their host, and browsers use
a channel id on one host only, nothing reaches a channel from another host. -/
theorem fromOpener_of_meets (as : List Action) (hr : run step State.init as = some s)
    (hC : Meets step KeepsToHost State.init as) : FromOpener s.log :=
  (invariant_of_meets (fun _ _ _ hs hC h => hs.of_effect hC (step_effect h)) attributed_init hr
    hC).fromOpener

/-! ## Two hosts -/

def dbConn : ConnId := ⟨"db", 0⟩

/-- Alice has a terminal on two hosts. -/
def twoHosts : List Action :=
  [.agentUp webConn, .agentUp dbConn, .wsUp (alice 0)] ++ opensTerminal (alice 0) "1" "web" ++
    opensTerminal (alice 0) "2" "db"

/-- The agent of `web` closes the terminal on `db`. -/
def foreignClose : List Action :=
  twoHosts ++ [.agentRecv webConn (.close "3f2b8c1e-2" none), .dispatch webConn,
    .forward ⟨.ws (alice 0), webConn, 0⟩, .closeNotified (alice 0)]

theorem foreign_agent_closes : ∃ s, run step State.init foreignClose = some s ∧
    ¬ FromOpener s.log := by
  refine ⟨_, rfl, fun h => ?_⟩
  have hhost : "db" = "web" := h.1
  exact absurd hhost (by decide)

/-- Both agents use their own terminal, and `db` closes it. -/
def ownClose : List Action :=
  twoHosts ++ [.agentRecv webConn (.data "3f2b8c1e-1" (.string "$ ")), .dispatch webConn,
    .forward ⟨.ws (alice 0), webConn, 0⟩, .agentRecv dbConn (.close "3f2b8c1e-2" none),
    .dispatch dbConn, .forward ⟨.ws (alice 0), dbConn, 0⟩, .closeNotified (alice 0)]

theorem fromOpener_ownClose : ∃ s, run step State.init ownClose = some s ∧ FromOpener s.log :=
  ⟨_, rfl, fromOpener_of_meets ownClose rfl (by decide)⟩

end Tenodera.Gateway.Relay
