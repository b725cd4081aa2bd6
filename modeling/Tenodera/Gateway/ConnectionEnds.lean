import Tenodera.Gateway.Kick

/-!
# The end of an agent connection

When the reader of a connection ends, the subscribers go and with them the forwarders of the browser
sessions; nothing tells the browsers.  `Handled` is what a browser can expect of the end of a
connection: it is told about every channel that it has open there, and once the agent is back it
gets to the new connection.  `handled_iff` says that this is so exactly when there is nothing to
handle: no channel is open through a connection that ends, no call or Open holds on to it when the
agent comes back, and its clean-up does not come late.
-/

namespace Tenodera.Gateway.ConnectionEnds

open Protocol Transition
open Relay (WsId ConnId Attachment PendingOpen Effect Wf alice webConn opensTerminal)

/-! ## What the browsers and agents know -/

structure State extends Relay.State where
  /-- Not part of the gateway: the channels that a browser has open, with their attachments.  It has
  closed none of them, and no Close of the agent has reached it. -/
  channels : WsId → AList fun _ : ChannelId => Attachment
  /-- Not part of the gateway: a send to the browser has failed. -/
  gone : WsId → Bool
  /-- Not part of the gateway: the connection that the agent of a host has made last. -/
  newest : String → Option ConnId

def State.init : State where
  toState := .init
  channels _ := ∅
  gone _ := false
  newest _ := none

/-- The Open that the loop of a session is sending. -/
def opening (s : Relay.State) (w : WsId) : Option PendingOpen :=
  match (s.session w).loop with
  | .opening p => some p
  | _ => none

/-- The channels after the browser opens one, closes one or sees one closed. -/
def channelsAfter (s : Relay.State) (channels : WsId → AList fun _ : ChannelId => Attachment) :
    Relay.Action → WsId → AList fun _ : ChannelId => Attachment
  | .wsOpen w =>
    match opening s w with
    | some p =>
      if (s.link p.attachment).proxyAlive then
        Function.update channels w ((channels w).insert p.channel p.attachment)
      else channels
    | none => channels
  | .wsFrame w (.close channel problem) _ =>
    if Relay.decodes (.close channel problem) then
      Function.update channels w ((channels w).erase channel)
    else channels
  | .forward a =>
    match a.owner, (s.link a).inbox with
    | .ws w, ⟨.close channel _, _⟩ :: _ =>
      Function.update channels w ((channels w).erase channel)
    | _, _ => channels
  | .wsEnd w _ => Function.update channels w ∅
  | _ => channels

/-- A forwarder that ends with messages in its inbox could not send one of them. -/
def goneAfter (s : Relay.State) (gone : WsId → Bool) : Relay.Action → WsId → Bool
  | .forwarderEnds a =>
    match a.owner with
    | .ws w => if (s.link a).inbox.isEmpty then gone else Function.update gone w true
    | .rpc _ => gone
  | _ => gone

def newestAfter (newest : String → Option ConnId) : Relay.Action → String → Option ConnId
  | .agentUp c => Function.update newest c.host (some c)
  | _ => newest

def step (s : State) (act : Relay.Action) : Option State :=
  (Relay.step s.toState act).map fun t =>
    { toState := t
      channels := channelsAfter s.toState s.channels act
      gone := goneAfter s.toState s.gone act
      newest := newestAfter s.newest act }

/-! ## The statement -/

def Kicked (s : Relay.State) (c : ConnId) : Prop := some c ∈ s.log.map Relay.Event.kick

instance (s : Relay.State) (c : ConnId) : Decidable (Kicked s c) :=
  inferInstanceAs (Decidable (_ ∈ _))

/-- The connection has ended for the attachment: it was kicked, or its reader has ended and the
forwarder, which alone could tell the browser, as well. -/
def Over (s : Relay.State) (a : Attachment) : Prop :=
  Kicked s a.conn ∨ (s.conn a.conn).reader.isLive = false ∧ (s.link a).inboxAlive = false

instance (s : Relay.State) (a : Attachment) : Decidable (Over s a) :=
  inferInstanceAs (Decidable (_ ∨ _))

/-- The agent of the host is connected, and this is its newest connection. -/
def Current (s : State) (c : ConnId) : Prop :=
  s.newest c.host = some c ∧ (s.conn c).reader.isLive ∧ ¬ Kicked s.toState c

instance (s : State) (c : ConnId) : Decidable (Current s c) :=
  inferInstanceAs (Decidable (_ ∧ _))

/-- What browsers can expect when connections end.  A browser that takes messages has no channel
open through a connection that is over, so that it has been told or has closed the channel itself.
The routes through such a connection are gone, or about to be taken out.  When the agent is
connected, an Open for its host goes to its newest connection, whether or not the session has a
sender in its cache. -/
structure Handled (s : State) : Prop where
  told : ∀ w, s.gone w = false → ∀ channel a, (s.channels w).lookup channel = some a →
    ¬ Over s.toState a
  freed : ∀ w, s.gone w = false → ∀ channel a, (s.session w).routes.lookup channel = some a →
    ¬ Over s.toState a ∨ ∃ reporter, (channel, reporter) ∈ (s.session w).closeNotify
  renewed : ∀ c, Current s c → s.registry.lookup c.host = some c ∧
    ∀ w a, Relay.validCached w c.host s.toState = some a → a.conn = c

/-- No channel of the browser is open through the attachment. -/
def Unused (s : State) (w : WsId) (a : Attachment) : Prop :=
  s.gone w = false → ∀ e ∈ (s.channels w).entries, e.2 ≠ a

instance (s : State) (w : WsId) (a : Attachment) : Decidable (Unused s w a) :=
  inferInstanceAs (Decidable (_ → _))

/-- Connections end only when there is nothing to handle.  The last of a reader and a forwarder
ends, and a host is kicked, with no channel open through the connection; no Open is sent on through
a connection that is over.  An agent comes back when nobody holds a connection of its host that a
session has a sender of; and when it is back, nobody else holds the old connection that a session
attaches to, and no clean-up of an old connection is still to come. -/
def EndsUnused (s : State) : Relay.Action → Prop
  | .forwarderEnds a => (s.link a).inbox.isEmpty → (s.conn a.conn).reader.isLive = false →
    ∀ w ∈ a.owner.session, Unused s w a
  | .agentGone c => ∀ a ∈ s.attached, a.conn = c → (s.link a).inboxAlive = false →
    ∀ w ∈ a.owner.session, Unused s w a
  | .kick host => ∀ c ∈ s.registry.lookup host, ∀ a ∈ s.attached, a.conn = c →
    ∀ w ∈ a.owner.session, Unused s w a
  | .wsOpen w => s.gone w = false → ∀ p ∈ opening s.toState w,
    (s.link p.attachment).proxyAlive → ¬ Over s.toState p.attachment
  | .agentUp c => ∀ a ∈ s.attached, ∀ w ∈ a.owner.session,
    (s.session w).remoteSenders.lookup c.host = some a → (s.conn a.conn).held = 0
  | .wsConnect w => ∀ a ∈ s.pending (.ws w), ∀ c ∈ s.newest a.conn.host,
    Current s c → c ≠ a.conn → (s.conn a.conn).held ≤ 1
  | .cleanup c => ∀ d ∈ s.newest c.host, ¬ Current s d
  | _ => True

instance (s : State) (act : Relay.Action) : Decidable (EndsUnused s act) := by
  rcases act <;> dsimp only [EndsUnused] <;> infer_instance

/-! ## What a step does -/

/-- The changes of the channels that a browser has open. -/
inductive ChannelMoves (s : Relay.State) (w : WsId) :
    Relay.Action → ChannelId → Option Attachment → Prop
  | opens {p : PendingOpen} (opening : opening s w = some p)
      (alive : (s.link p.attachment).proxyAlive) :
      ChannelMoves s w (.wsOpen w) p.channel (some p.attachment)
  | clientCloses {channel : ChannelId} {problem : Option String} {serial : ℕ}
      (decodes : Relay.decodes (.close channel problem)) :
      ChannelMoves s w (.wsFrame w (.close channel problem) serial) channel none
  | agentCloses {a : Attachment} {channel : ChannelId} {problem : Option String}
      {opener : Option Relay.Owner} {rest : List Relay.Frame} (owner : a.owner = .ws w)
      (queue : (s.link a).inbox = ⟨.close channel problem, opener⟩ :: rest) :
      ChannelMoves s w (.forward a) channel none
  | ends {reason : Relay.EndReason} {channel : ChannelId} :
      ChannelMoves s w (.wsEnd w reason) channel none

theorem lookup_channelsAfter {s : Relay.State} {act : Relay.Action}
    {channels channels' : WsId → AList fun _ : ChannelId => Attachment}
    (h : channelsAfter s channels act = channels') (w : WsId) (channel : ChannelId) :
    (channels' w).lookup channel = (channels w).lookup channel ∨
      ChannelMoves s w act channel ((channels' w).lookup channel) := by
  cases act with
  | wsOpen v =>
    simp only [channelsAfter] at h
    split at h
    · rename_i p hp
      split_ifs at h with halive
      · subst h
        by_cases hw : w = v
        · subst hw
          by_cases hchannel : channel = p.channel
          · subst hchannel
            exact .inr (by simpa using .opens hp halive)
          · exact .inl (by simp [AList.lookup_insert_ne hchannel])
        · exact .inl (by simp [hw])
      · exact .inl (by rw [h])
    · exact .inl (by rw [h])
  | wsFrame v m serial =>
    cases m with
    | close closed problem =>
      simp only [channelsAfter] at h
      split_ifs at h with hdecodes
      · subst h
        by_cases hw : w = v
        · subst hw
          by_cases hchannel : channel = closed
          · subst hchannel
            exact .inr (by simpa using .clientCloses hdecodes)
          · exact .inl (by simp [AList.lookup_erase_ne hchannel])
        · exact .inl (by simp [hw])
      · exact .inl (by rw [h])
    | _ => exact .inl (by rw [← h]; rfl)
  | forward a =>
    simp only [channelsAfter] at h
    split at h
    · rename_i v closed problem opener rest howner hqueue
      subst h
      by_cases hw : w = v
      · subst hw
        by_cases hchannel : channel = closed
        · subst hchannel
          exact .inr (by simpa using .agentCloses howner hqueue)
        · exact .inl (by simp [AList.lookup_erase_ne hchannel])
      · exact .inl (by simp [hw])
    · exact .inl (by rw [h])
  | wsEnd v reason =>
    subst h
    by_cases hw : w = v
    · subst hw
      exact .inr (by simpa [channelsAfter] using .ends)
    · exact .inl (by simp [channelsAfter, hw])
  | _ => exact .inl (by rw [← h]; rfl)

variable {s t : State} {act : Relay.Action}

theorem toState_of_step (h : step s act = some t) : Relay.step s.toState act = some t.toState := by
  obtain ⟨r, hr, rfl⟩ := Option.map_eq_some_iff.1 h
  exact hr

theorem effect_of_step (h : step s act = some t) : Effect s.toState act t.toState :=
  Relay.step_effect (toState_of_step h)

theorem channels_of_step (h : step s act = some t) (w : WsId) (channel : ChannelId) :
    (t.channels w).lookup channel = (s.channels w).lookup channel ∨
      ChannelMoves s.toState w act channel ((t.channels w).lookup channel) := by
  obtain ⟨r, hr, rfl⟩ := Option.map_eq_some_iff.1 h
  exact lookup_channelsAfter rfl w channel

/-- A browser that still takes messages has taken them all along, and a forwarder of it that ends
has nothing more to send. -/
theorem gone_of_step (h : step s act = some t) {w : WsId} (hw : t.gone w = false) :
    s.gone w = false ∧ ∀ a : Attachment, act = .forwarderEnds a → a.owner = .ws w →
      (s.link a).inbox.isEmpty := by
  obtain ⟨r, hr, rfl⟩ := Option.map_eq_some_iff.1 h
  cases act with
  | forwarderEnds b =>
    cases howner : b.owner with
    | ws v =>
      simp only [goneAfter, howner] at hw
      by_cases hempty : (s.link b).inbox.isEmpty
      · rw [if_pos hempty] at hw
        exact ⟨hw, fun a ha _ => by cases ha; exact hempty⟩
      · rw [if_neg hempty] at hw
        by_cases hv : w = v
        · simp [hv] at hw
        · rw [Function.update_of_ne hv] at hw
          refine ⟨hw, fun a ha hb => ?_⟩
          cases ha
          cases howner.symm.trans hb
          exact absurd rfl hv
    | rpc r =>
      simp only [goneAfter, howner] at hw
      refine ⟨hw, fun a ha hb => ?_⟩
      cases ha
      cases howner.symm.trans hb
  | _ => exact ⟨hw, fun a ha => by cases ha⟩

theorem newest_of_step (h : step s act = some t) {host : String} {c : ConnId}
    (hc : t.newest host = some c) : s.newest host = some c ∨ act = .agentUp c ∧ c.host = host := by
  obtain ⟨r, hr, rfl⟩ := Option.map_eq_some_iff.1 h
  cases act with
  | agentUp d =>
    by_cases hhost : host = d.host
    · subst hhost
      simp only [newestAfter, Function.update_self, Option.some.injEq] at hc
      subst hc
      exact .inr ⟨rfl, rfl⟩
    · simp only [newestAfter, Function.update_of_ne hhost] at hc
      exact .inl hc
  | _ => exact .inl hc

/-! ## What the gateway does -/

section Relay

variable {s t : Relay.State} {act : Relay.Action}

theorem kicked_iff {c : ConnId} : Kicked s c ↔ .kicked c ∈ s.log := by
  constructor
  · intro h
    obtain ⟨e, he, hkick⟩ := List.mem_map.1 h
    cases e with
    | kicked d =>
      cases hkick
      exact he
    | _ => cases hkick
  · exact fun h => List.mem_map.2 ⟨_, h, rfl⟩

theorem kicked_mono (h : Effect s act t) {c : ConnId} (hc : Kicked s c) : Kicked t c :=
  kicked_iff.2 (Relay.log_mono h (kicked_iff.1 hc))

theorem kicked_of_effect (h : Effect s act t) {c : ConnId} (hc : Kicked t c) :
    Kicked s c ∨ ∃ host, act = .kick host ∧ s.registry.lookup host = some c := by
  rw [kicked_iff] at hc ⊢
  rcases Relay.log_of_effect h with heq | ⟨e, heq, hemits⟩
  · exact .inl (heq ▸ hc)
  · rw [heq] at hc
    rcases List.mem_cons.1 hc with rfl | hc
    · cases hemits with
      | @kicked host _ registered => exact .inr ⟨host, rfl, registered⟩
    · exact .inl hc

theorem kicked_of_kick {host : String} {c : ConnId} (registered : s.registry.lookup host = some c) :
    Kicked (Relay.kick host s) c := by
  rw [kicked_iff, Relay.kick, registered]
  exact List.mem_cons_self

/-- The forwarder of a session lives until it ends by itself. -/
theorem forwarder_kept (hs : Wf s) (h : Effect s act t) {a : Attachment} {w : WsId}
    (howner : a.owner = .ws w) (ha : (s.link a).inboxAlive) :
    (t.link a).inboxAlive ∨ act = .forwarderEnds a := by
  rcases Relay.inboxAlive_kept h ha with hkept | hends | ⟨r, hr⟩
  · exact .inl hkept
  · exact .inr hends
  · cases howner.symm.trans (hs.calls r a hr).1

theorem isLive_kept (h : Effect s act t) {c : ConnId} (hc : (s.conn c).reader.isLive) :
    (t.conn c).reader.isLive ∨ act = .agentGone c := by
  rcases Relay.reader_of_effect h c with heq | hmoves
  · exact .inl (heq ▸ hc)
  · generalize (t.conn c).reader = reader at hmoves ⊢
    cases hmoves with
    | ends _ => exact .inr rfl
    | unregisters ended =>
      rw [ended] at hc
      cases hc
    | closes unregistered =>
      rw [unregistered] at hc
      cases hc
    | _ => exact .inl rfl

/-- The step ends the connection for the attachment, so far as it has not been kicked. -/
inductive Ends (s : Relay.State) : Relay.Action → Attachment → Prop
  | kicked {host : String} {a : Attachment} (registered : s.registry.lookup host = some a.conn) :
      Ends s (.kick host) a
  | reader {a : Attachment} (dead : (s.link a).inboxAlive = false) : Ends s (.agentGone a.conn) a
  | forwarder {a : Attachment} (ended : (s.conn a.conn).reader.isLive = false) :
      Ends s (.forwarderEnds a) a

theorem over_of_effect (hs : Wf s) (h : Effect s act t) {a : Attachment} {w : WsId}
    (howner : a.owner = .ws w) (hover : Over t a) : Over s a ∨ Ends s act a := by
  rcases hover with hkicked | ⟨hreader, hinbox⟩
  · rcases kicked_of_effect h hkicked with hold | ⟨host, rfl, hhost⟩
    · exact .inl (.inl hold)
    · exact .inr (.kicked hhost)
  · by_cases hlive : (s.conn a.conn).reader.isLive
    · rcases isLive_kept h hlive with hkept | rfl
      · cases hkept.symm.trans hreader
      · refine .inr (.reader ?_)
        by_contra halive
        rcases forwarder_kept hs h howner (by simpa using halive) with hkept | hends
        · cases hkept.symm.trans hinbox
        · cases hends
    · rw [Bool.not_eq_true] at hlive
      by_cases halive : (s.link a).inboxAlive
      · rcases forwarder_kept hs h howner halive with hkept | rfl
        · cases hkept.symm.trans hinbox
        · exact .inr (.forwarder hlive)
      · exact .inl (.inr ⟨hlive, by simpa using halive⟩)

theorem Ends.over {a : Attachment} (hends : Ends s act a) (h : Relay.step s act = some t) :
    Over t a := by
  cases hends with
  | kicked registered =>
    cases h
    exact .inl (kicked_of_kick registered)
  | reader dead =>
    simp only [Relay.step, Relay.agentGone] at h
    split at h
    · cases h
      exact .inr ⟨by simp [Relay.State.setConn, Relay.Reader.isLive], dead⟩
    · cases h
  | forwarder ended =>
    simp only [Relay.step, Relay.forwarderEnds] at h
    split at h
    · split_ifs at h
      cases h
      exact .inr ⟨ended, by simp [Relay.State.setLink]⟩
    · cases h

/-- A connection whose token is alive was alive before. -/
theorem tokenAlive_of_effect (hs : Wf s) (h : Effect s act t) {c : ConnId}
    (hstarted : (s.conn c).reader ≠ .absent) (hc : t.tokenAlive c) : s.tokenAlive c := by
  simp only [Relay.State.tokenAlive, Bool.or_eq_true, decide_eq_true_eq] at hc ⊢
  rcases hc with hc | hc
  · left
    exact (Relay.registry_of_effect h hc).resolve_right fun hnew => hstarted hnew.2.1
  · rcases Relay.held_of_effect h hc with hold | ⟨host, hhost⟩
    · exact .inr hold
    · left
      rwa [(hs.registered host c hhost).1]

end Relay

/-! ## The invariant -/

/-- What the browsers have open belongs to their sessions; a route without an open channel is about
to be taken out; and connections are found under their own host. -/
structure Consistent (s : State) : Prop where
  wf : Wf s.toState
  owner : ∀ w channel a, (s.channels w).lookup channel = some a →
    a.owner = .ws w ∧ a ∈ s.attached
  routed : ∀ w channel a, (s.session w).routes.lookup channel = some a →
    (s.channels w).lookup channel = some a ∨
      ∃ reporter, (channel, reporter) ∈ (s.session w).closeNotify
  idle : ∀ w, (s.session w).loop.isRunning = false → ∀ channel,
    (s.session w).routes.lookup channel = none
  hosts : ∀ w host a, (s.session w).remoteSenders.lookup host = some a → a.conn.host = host
  connecting : ∀ w p, (s.session w).loop = .connecting p → p.attachment.conn.host = p.host
  newest : ∀ host c, s.newest host = some c → c.host = host ∧ (s.conn c).reader ≠ .absent
  kicked : ∀ c, Kicked s.toState c → (s.conn c).reader ≠ .absent

theorem consistent_init : Consistent State.init where
  wf := Relay.wf_init
  owner w channel a h := by simp [State.init] at h
  routed w channel a h := by simp [State.init, Relay.State.init] at h
  idle w h channel := by simp [State.init, Relay.State.init]
  hosts w host a h := by simp [State.init, Relay.State.init] at h
  connecting w p h := by simp [State.init, Relay.State.init] at h
  newest host c h := by simp [State.init] at h
  kicked c h := by simp [Kicked, State.init, Relay.State.init] at h

section Steps

variable {s t : Relay.State} {act : Relay.Action} {w : WsId} {channel : ChannelId}

theorem loop_of_opening {p : PendingOpen} (h : opening s w = some p) :
    (s.session w).loop = .opening p := by
  unfold opening at h
  split at h
  · rename_i hloop
    cases h
    exact hloop
  · cases h

theorem eq_of_agentUp {c : ConnId} (h : Relay.agentUp c s = some t) :
    (s.conn c).reader = .absent ∧
      t = { s.setConn c ⟨.reading, ∅, [], true, 0⟩ with
        registry := s.registry.insert c.host c } := by
  unfold Relay.agentUp at h
  split at h
  · rename_i habsent
    exact ⟨habsent, (Option.some.inj h).symm⟩
  · cases h

theorem eq_of_wsConnect {p : PendingOpen} (hp : (s.session w).loop = .connecting p)
    (h : Relay.wsConnect w s = some t) :
    t = ((s.attach p.attachment ⟨[], true, [], true⟩).release p.attachment.conn).setSession w
      { s.session w with
        loop := .opening p
        remoteSenders := (s.session w).remoteSenders.insert p.host p.attachment } := by
  simp only [Relay.wsConnect, hp] at h
  split_ifs at h
  exact (Option.some.inj h).symm

theorem held_wsConnect {p : PendingOpen} (hp : (s.session w).loop = .connecting p)
    (h : Relay.wsConnect w s = some t) :
    (t.conn p.attachment.conn).held = (s.conn p.attachment.conn).held - 1 := by
  simp [eq_of_wsConnect hp h, Relay.State.attach, Relay.State.release, Relay.State.setSession,
    Relay.State.setConn, Relay.State.setLink]

theorem connecting_of_pending {a : Attachment} (h : s.pending (.ws w) = some a) :
    ∃ p, (s.session w).loop = .connecting p ∧ p.attachment = a := by
  simp only [Relay.State.pending] at h
  split at h
  · rename_i p hp
    exact ⟨p, hp, Option.some.inj h⟩
  · cases h

theorem session_wsEnd (reason : Relay.EndReason) (h : Relay.wsEnd w reason s = some t) :
    t.session w = ⟨.ended, ∅, ∅, []⟩ := by
  unfold Relay.wsEnd at h
  split at h
  · cases h
    exact Function.update_self ..
  · cases h

theorem routes_wsOpen {p : PendingOpen} (hp : opening s w = some p)
    (halive : (s.link p.attachment).proxyAlive) (h : Relay.wsOpen w s = some t) :
    (t.session w).routes.lookup p.channel = some p.attachment := by
  simp only [Relay.wsOpen, loop_of_opening hp, halive, not_true_eq_false, if_false] at h
  split_ifs at h
  cases h
  simp [Relay.State.setSession, Relay.State.setLink, Relay.State.emit]

theorem routes_handleRouted {m : Message} (h : Relay.handleRouted w channel m true s = some t) :
    (t.session w).routes.lookup channel = none := by
  simp only [Relay.handleRouted] at h
  split at h
  · rename_i hnone
    cases h
    exact hnone
  · split_ifs at h
    · cases h
      simp [Relay.State.setSession, Relay.State.setLink, Relay.State.emit]
    · cases h
      simp [Relay.State.setSession]

theorem routes_close {problem : Option String} (serial : ℕ)
    (hdecodes : Relay.decodes (.close channel problem))
    (h : Relay.wsFrame w (.close channel problem) serial s = some t) :
    (t.session w).routes.lookup channel = none := by
  simp only [Relay.wsFrame, hdecodes, not_true_eq_false, if_false] at h
  split at h
  · exact routes_handleRouted h
  · cases h

/-- The forwarder reports the Close that it sends to a browser whose loop is running. -/
theorem closeNotify_forward {a : Attachment} {problem : Option String}
    {opener : Option Relay.Owner} {rest : List Relay.Frame} (howner : a.owner = .ws w)
    (hqueue : (s.link a).inbox = ⟨.close channel problem, opener⟩ :: rest)
    (hrunning : (s.session w).loop.isRunning) (h : Relay.forward a s = some t) :
    (channel, a) ∈ (t.session w).closeNotify := by
  simp only [Relay.forward, howner, hqueue] at h
  split at h
  · rename_i hv halive hframe
    cases hv
    cases hframe
    simp only [hrunning, Option.some.injEq] at h
    subst h
    simp [Relay.State.setSession]
  · cases h

end Steps

section Steps

variable {s t : State} {act : Relay.Action}

theorem channels_wsOpen {w : WsId} {p : PendingOpen} (hp : opening s.toState w = some p)
    (halive : (s.link p.attachment).proxyAlive) (h : step s (.wsOpen w) = some t) :
    (t.channels w).lookup p.channel = some p.attachment := by
  obtain ⟨r, -, rfl⟩ := Option.map_eq_some_iff.1 h
  simp [channelsAfter, hp, halive]

theorem opening_of_loop {s : Relay.State} {w : WsId} {p : PendingOpen}
    (h : (s.session w).loop = .opening p) : opening s w = some p := by
  rw [opening, h]

theorem Consistent.routed_of_step (hs : Consistent s) (h : step s act = some t) {w : WsId}
    {channel : ChannelId} {a : Attachment}
    (ha : (t.session w).routes.lookup channel = some a) :
    (t.channels w).lookup channel = some a ∨
      ∃ reporter, (channel, reporter) ∈ (t.session w).closeNotify := by
  have heffect := effect_of_step h
  have hstep := toState_of_step h
  rcases Relay.routes_of_effect heffect ha with hold | ⟨-, rfl, halive, p, hp, rfl, rfl⟩
  · rcases hs.routed w channel a hold with hopen | ⟨reporter, hreport⟩
    · rcases channels_of_step h w channel with hsame | hmoves
      · exact .inl (hsame.trans hopen)
      · generalize (t.channels w).lookup channel = x at hmoves ⊢
        cases hmoves with
        | opens hp halive =>
          rw [routes_wsOpen hp halive hstep] at ha
          exact .inl ha
        | @clientCloses _ problem serial hdecodes =>
          cases ha.symm.trans (routes_close serial hdecodes hstep)
        | @agentCloses b _ problem opener rest howner hqueue =>
          have hrunning : (s.session w).loop.isRunning := by
            by_contra hidle
            have hnone := hs.idle w (by simpa using hidle) channel
            cases hold.symm.trans hnone
          exact .inr ⟨b, closeNotify_forward howner hqueue hrunning hstep⟩
        | @ends reason =>
          rw [session_wsEnd reason hstep] at ha
          cases ha
    · rcases Relay.closeNotify_kept heffect hreport with hkept | hnone
      · exact .inr ⟨reporter, hkept⟩
      · cases ha.symm.trans hnone
  · exact .inl (channels_wsOpen (opening_of_loop hp) halive h)

theorem Consistent.idle_of_step (hs : Consistent s) (h : step s act = some t) {w : WsId}
    (hw : (t.session w).loop.isRunning = false) (channel : ChannelId) :
    (t.session w).routes.lookup channel = none := by
  have heffect := effect_of_step h
  refine Option.eq_none_iff_forall_ne_some.2 fun a ha => ?_
  rcases Relay.loop_of_effect heffect w with heq | hmoves
  · rw [heq] at hw
    rcases Relay.routes_of_effect heffect ha with hold | ⟨-, -, -, p, hp, -⟩
    · cases hold.symm.trans (hs.idle w hw channel)
    · rw [hp] at hw
      cases hw
  · generalize (t.session w).loop = loop at hw hmoves
    cases hmoves with
    | @ends reason _ =>
      rw [session_wsEnd reason (toState_of_step h)] at ha
      cases ha
    | _ => cases hw

theorem Consistent.of_step (hs : Consistent s) (h : step s act = some t) : Consistent t := by
  have heffect := effect_of_step h
  exact
    { wf := hs.wf.of_effect heffect
      owner := fun w channel a ha => by
        rcases channels_of_step h w channel with hsame | hmoves
        · exact (hs.owner w channel a (hsame ▸ ha)).imp id (Relay.attached_mono heffect)
        · rw [ha] at hmoves
          cases hmoves with
          | opens hp _ =>
            have hholds := hs.wf.holds w _ (.inl ⟨_, loop_of_opening hp, rfl⟩)
            exact hholds.imp id (Relay.attached_mono heffect)
      routed := fun w channel a => hs.routed_of_step h
      idle := fun w => hs.idle_of_step h
      hosts := fun w host a ha => by
        rcases Relay.remoteSenders_of_effect heffect ha with hold | ⟨-, p, hp, rfl, rfl, -⟩
        · exact hs.hosts w host a hold
        · exact hs.connecting w p hp
      connecting := fun w p hp => by
        rcases Relay.loop_of_effect heffect w with heq | hmoves
        · exact hs.connecting w p (heq ▸ hp)
        · rw [hp] at hmoves
          cases hmoves with
          | connects _ _ registered _ => exact (hs.wf.registered _ _ registered).1
      newest := fun host c hc => by
        rcases newest_of_step h hc with hold | ⟨rfl, rfl⟩
        · exact (hs.newest host c hold).imp id (Relay.started_reader heffect)
        · obtain ⟨-, heq⟩ := eq_of_agentUp (toState_of_step h)
          simp [heq, Relay.State.setConn]
      kicked := fun c hc => by
        rcases kicked_of_effect heffect hc with hold | ⟨host, -, hhost⟩
        · exact Relay.started_reader heffect (hs.kicked c hold)
        · exact Relay.started_reader heffect (hs.wf.registered host c hhost).2 }

/-! ## Handling the end of a connection -/

theorem current_of_step (hs : Consistent s) (h : step s act = some t) {c : ConnId}
    (hc : Current t c) : Current s c ∨ act = .agentUp c := by
  have heffect := effect_of_step h
  obtain ⟨hnewest, hlive, hkicked⟩ := hc
  rcases newest_of_step h hnewest with hold | ⟨hup, -⟩
  · have hstarted := (hs.newest _ c hold).2
    exact .inl ⟨hold, Relay.isLive_of_effect heffect hstarted hlive,
      fun hk => hkicked (kicked_mono heffect hk)⟩
  · exact .inr hup

theorem Consistent.told_of_step (hs : Consistent s) (hP : Handled s) (hC : EndsUnused s act)
    (h : step s act = some t) {w : WsId} (hw : t.gone w = false) {channel : ChannelId}
    {a : Attachment} (ha : (t.channels w).lookup channel = some a) : ¬ Over t.toState a := by
  intro hover
  obtain ⟨hgone, hempty⟩ := gone_of_step h hw
  have heffect := effect_of_step h
  rcases channels_of_step h w channel with hsame | hmoves
  · rw [hsame] at ha
    obtain ⟨howner, hattached⟩ := hs.owner w channel a ha
    have hsession : w ∈ a.owner.session := by rw [howner]; rfl
    have hused : ¬ Unused s w a := fun hunused =>
      hunused hgone ⟨channel, a⟩ (AList.mem_lookup_iff.1 ha) rfl
    rcases over_of_effect hs.wf heffect howner hover with hold | hends
    · exact hP.told w hgone channel a ha hold
    · cases hends with
      | kicked registered => exact hused (hC a.conn registered a hattached rfl w hsession)
      | reader dead => exact hused (hC a hattached rfl dead w hsession)
      | forwarder ended => exact hused (hC (hempty a rfl howner) ended w hsession)
  · rw [ha] at hmoves
    cases hmoves with
    | @opens p hp halive =>
      have howner := (hs.wf.holds w _ (.inl ⟨p, loop_of_opening hp, rfl⟩)).1
      rcases over_of_effect hs.wf heffect howner hover with hold | hends
      · exact hC hgone p hp halive hold
      · cases hends

theorem Consistent.registered_of_step (hs : Consistent s) (hP : Handled s)
    (hC : EndsUnused s act) (h : step s act = some t) {c : ConnId} (hc : Current t c) :
    t.registry.lookup c.host = some c := by
  rcases current_of_step hs h hc with hold | rfl
  · rcases Relay.registry_kept (effect_of_step h) (hP.renewed c hold).1 with
      hkept | rfl | ⟨d, hhost, rfl | rfl⟩
    · exact hkept
    · have hkicked := kicked_of_kick (hP.renewed c hold).1
      rw [Option.some.inj (toState_of_step h)] at hkicked
      exact absurd hkicked hc.2.2
    · obtain ⟨r, hr, rfl⟩ := Option.map_eq_some_iff.1 h
      have hnewest := hc.1
      rw [← hhost] at hnewest ⊢
      simp only [newestAfter, Function.update_self, Option.some.injEq] at hnewest
      subst hnewest
      simp [(eq_of_agentUp hr).2]
    · exact absurd hold (hC c (hhost ▸ hold.1))
  · simp [(eq_of_agentUp (toState_of_step h)).2]

theorem tokenAlive_cases {s : Relay.State} {c : ConnId} (h : s.tokenAlive c) :
    s.registry.lookup c.host = some c ∨ 0 < (s.conn c).held := by
  simpa [Relay.State.tokenAlive] using h

/-- No session has a sender of another connection of the host whose token is still alive. -/
theorem Consistent.cached_of_step (hs : Consistent s) (hP : Handled s) (hC : EndsUnused s act)
    (h : step s act = some t) {c : ConnId} (hc : Current t c) {w : WsId} {a : Attachment}
    (ha : Relay.validCached w c.host t.toState = some a) : a.conn = c := by
  have heffect := effect_of_step h
  have hregistered := hs.registered_of_step hP hC h hc
  obtain ⟨hsender, htoken⟩ := Option.filter_eq_some_iff.1 ha
  by_contra hne
  have hheld : a.conn.host = c.host → 0 < (t.conn a.conn).held := fun hhost =>
    (tokenAlive_cases htoken).resolve_left fun hconn => by
      rw [hhost, hregistered] at hconn
      exact hne (Option.some.inj hconn).symm
  rcases Relay.remoteSenders_of_effect heffect hsender with hold | ⟨rfl, p, hp, rfl, hhost, -⟩
  · obtain ⟨howner, hattached⟩ := hs.wf.holds w a (.inr (.inl ⟨_, hold⟩))
    rcases current_of_step hs h hc with hcurrent | rfl
    · have halive := tokenAlive_of_effect hs.wf heffect (hs.wf.attached a hattached) htoken
      exact hne ((hP.renewed c hcurrent).2 w a (Option.filter_eq_some_iff.2 ⟨hold, halive⟩))
    · have hzero := hC a hattached w (by rw [howner]; rfl) hold
      have hsame : (t.conn a.conn).held = (s.conn a.conn).held := by
        simp [(eq_of_agentUp (toState_of_step h)).2, Relay.State.setConn, hne]
      have hpos := hheld (hs.hosts w _ a hold)
      omega
  · have hconn : p.attachment.conn.host = c.host := (hs.connecting w p hp).trans hhost
    have hcurrent := (current_of_step hs h hc).resolve_right fun hup => by cases hup
    have hpending : p.attachment ∈ s.pending (.ws w) := by simp [Relay.State.pending, hp]
    have hone := hC _ hpending c (by rw [hconn]; exact hcurrent.1) hcurrent (Ne.symm hne)
    have hpos := hheld hconn
    rw [held_wsConnect hp (toState_of_step h)] at hpos
    omega

theorem Consistent.handled_of_step (hs : Consistent s) (hP : Handled s) (hC : EndsUnused s act)
    (h : step s act = some t) : Handled t where
  told w hw channel a := hs.told_of_step hP hC h hw
  freed w hw channel a ha := by
    rcases hs.routed_of_step h ha with hopen | hreport
    · exact .inl (hs.told_of_step hP hC h hw hopen)
    · exact .inr hreport
  renewed c hc := ⟨hs.registered_of_step hP hC h hc, fun w a => hs.cached_of_step hP hC h hc⟩

/-! ## What the end of a connection takes -/

theorem unused_of_ends (hP : Handled t) (h : step s act = some t)
    {a : Attachment} (hends : Ends s.toState act a) {w : WsId} (hw : w ∈ a.owner.session)
    (hgone : s.gone w = false → t.gone w = false) : Unused s w a := by
  rintro hbefore ⟨channel, b⟩ hmem rfl
  have hopen := AList.mem_lookup_iff.2 hmem
  have hkept : (t.channels w).lookup channel = some b := by
    rcases channels_of_step h w channel with hsame | hmoves
    · exact hsame.trans hopen
    · generalize (t.channels w).lookup channel = x at hmoves
      cases hmoves <;> cases hends
  exact hP.told w (hgone hbefore) channel b hkept (hends.over (toState_of_step h))

theorem current_kept (h : step s act = some t) {c : ConnId} (hc : Current s c) :
    Current t c ∨ act = .agentGone c ∨ (∃ host, act = .kick host) ∨ ∃ d, act = .agentUp d := by
  have heffect := effect_of_step h
  obtain ⟨hnewest, hlive, hkicked⟩ := hc
  by_cases hkick : ∃ host, act = .kick host
  · exact .inr (.inr (.inl hkick))
  by_cases hup : ∃ d, act = .agentUp d
  · exact .inr (.inr (.inr hup))
  rcases isLive_kept heffect hlive with hkept | rfl
  · refine .inl ⟨?_, hkept, fun hk => ?_⟩
    · obtain ⟨r, -, rfl⟩ := Option.map_eq_some_iff.1 h
      cases act with
      | agentUp d => exact absurd ⟨d, rfl⟩ hup
      | _ => exact hnewest
    · rcases kicked_of_effect heffect hk with hold | ⟨host, rfl, -⟩
      · exact hkicked hold
      · exact hkick ⟨host, rfl⟩
  · exact .inr (.inl rfl)

theorem Consistent.cleanup_of_step (hs : Consistent s) (hP : Handled t) {c : ConnId}
    (h : step s (.cleanup c) = some t) : EndsUnused s (.cleanup c) := by
  intro d hd hcurrent
  rcases current_kept h hcurrent with hkept | hother | ⟨host, hother⟩ | ⟨e, hother⟩
  · have hregistered := (hP.renewed d hkept).1
    have hcleanup := toState_of_step h
    simp only [Relay.step, Relay.cleanup] at hcleanup
    split at hcleanup
    · rw [← Option.some.inj hcleanup, (hs.newest _ d hd).1] at hregistered
      cases (AList.lookup_erase _ _).symm.trans hregistered
    · cases hcleanup
  all_goals cases hother

theorem Consistent.agentUp_of_step (hs : Consistent s) (hP : Handled t) {c : ConnId}
    (h : step s (.agentUp c) = some t) : EndsUnused s (.agentUp c) := by
  intro a hattached w hw hsender
  obtain ⟨habsent, heq⟩ := eq_of_agentUp (toState_of_step h)
  have hne : a.conn ≠ c := fun hconn => hs.wf.attached a hattached (hconn ▸ habsent)
  have hcurrent : Current t c := by
    refine ⟨?_, by simp [heq, Relay.State.setConn, Relay.Reader.isLive], fun hkicked => ?_⟩
    · obtain ⟨r, -, rfl⟩ := Option.map_eq_some_iff.1 h
      simp [newestAfter]
    · rcases kicked_of_effect (effect_of_step h) hkicked with hold | ⟨host, hother, -⟩
      · exact hs.kicked c hold habsent
      · cases hother
  by_contra hheld
  refine hne ((hP.renewed c hcurrent).2 w a (Option.filter_eq_some_iff.2 ⟨?_, ?_⟩))
  · rw [heq]
    exact hsender
  · have hpos : 0 < (t.conn a.conn).held := by
      simp [heq, Relay.State.setConn, hne, Nat.pos_of_ne_zero hheld]
    simp [Relay.State.tokenAlive, hpos]

theorem Consistent.wsConnect_of_step (hs : Consistent s) (hP : Handled t) {w : WsId}
    (h : step s (.wsConnect w) = some t) : EndsUnused s (.wsConnect w) := by
  intro a ha c hc hcurrent hne
  obtain ⟨p, hp, rfl⟩ := connecting_of_pending ha
  by_contra hheld
  rcases current_kept h hcurrent with hkept | hother | ⟨host, hother⟩ | ⟨e, hother⟩
  · have heq := eq_of_wsConnect hp (toState_of_step h)
    have hhost : c.host = p.host := (hs.newest _ c hc).1.trans (hs.connecting w p hp)
    refine hne ((hP.renewed c hkept).2 w p.attachment (Option.filter_eq_some_iff.2 ⟨?_, ?_⟩)).symm
    · rw [hhost, heq]
      simp [Relay.State.setSession]
    · have hpos : 0 < (t.conn p.attachment.conn).held := by
        rw [held_wsConnect hp (toState_of_step h)]
        omega
      simp [Relay.State.tokenAlive, hpos]
  all_goals cases hother

theorem Consistent.wsOpen_of_step (hs : Consistent s) (hP : Handled t) {w : WsId}
    (h : step s (.wsOpen w) = some t) : EndsUnused s (.wsOpen w) := by
  intro hgone p hp halive hover
  have hstarted := hs.wf.attached _ (hs.wf.holds w _ (.inl ⟨p, loop_of_opening hp, rfl⟩)).2
  have heffect := effect_of_step h
  have hafter : t.gone w = false := by
    obtain ⟨r, -, rfl⟩ := Option.map_eq_some_iff.1 h
    exact hgone
  refine hP.told w hafter p.channel _ (channels_wsOpen hp halive h) ?_
  rcases hover with hkicked | ⟨hreader, hinbox⟩
  · exact .inl (kicked_mono heffect hkicked)
  · refine .inr ⟨?_, ?_⟩
    · by_contra hlive
      have hbefore := Relay.isLive_of_effect heffect hstarted (by simpa using hlive)
      cases hbefore.symm.trans hreader
    · by_contra hlive
      rcases Relay.inboxAlive_of_effect heffect (by simpa using hlive) with hbefore | ⟨hattaches, -⟩
      · cases hbefore.symm.trans hinbox
      · cases hattaches

theorem Consistent.endsUnused_of_step (hs : Consistent s) (hP : Handled t)
    (h : step s act = some t) : EndsUnused s act := by
  cases act with
  | forwarderEnds a =>
    intro hempty hlive w hw
    refine unused_of_ends hP h (.forwarder hlive) hw fun hgone => ?_
    obtain ⟨r, -, rfl⟩ := Option.map_eq_some_iff.1 h
    cases howner : a.owner <;> simp [goneAfter, howner, hempty, hgone]
  | agentGone c =>
    intro a hattached hconn hdead w hw
    subst hconn
    exact unused_of_ends hP h (.reader hdead) hw fun hgone => by
      obtain ⟨r, -, rfl⟩ := Option.map_eq_some_iff.1 h
      exact hgone
  | kick host =>
    intro c hhost a hattached hconn w hw
    subst hconn
    exact unused_of_ends hP h (.kicked hhost) hw fun hgone => by
      obtain ⟨r, -, rfl⟩ := Option.map_eq_some_iff.1 h
      exact hgone
  | wsOpen w => exact hs.wsOpen_of_step hP h
  | cleanup c => exact hs.cleanup_of_step hP h
  | agentUp c => exact hs.agentUp_of_step hP h
  | wsConnect w => exact hs.wsConnect_of_step hP h
  | _ => trivial

theorem handled_init : Handled State.init where
  told w _ channel a h := by simp [State.init] at h
  freed w _ channel a h := by simp [State.init, Relay.State.init] at h
  renewed c h := by simp [Current, State.init] at h

/-- Browsers get what they can expect throughout a run iff connections end only when there is
nothing to handle. -/
theorem handled_iff (as : List Relay.Action) (hr : run step State.init as = some s) :
    Always step Handled State.init as ↔ Meets step EndsUnused State.init as :=
  always_iff_meets (fun _ _ _ hs h => hs.of_step h)
    (fun _ _ _ hs hP h =>
      ⟨fun hPt => hs.endsUnused_of_step hPt h, fun hC => hs.handled_of_step hP hC h⟩)
    consistent_init handled_init hr

end Steps

/-! ## Alice and an agent that goes away -/

/-- Alice has a terminal on `web`. -/
def aliceOnWeb : List Relay.Action :=
  .agentUp webConn :: .wsUp (alice 0) :: opensTerminal (alice 0) "1" "web"

/-- The agent goes away. -/
def webEnds : List Relay.Action :=
  [.agentGone webConn, .cleanup webConn, .abortWriter webConn,
    .forwarderEnds ⟨.ws (alice 0), webConn, 0⟩]

theorem alice_not_told : ∃ s, run step State.init (aliceOnWeb ++ webEnds) = some s ∧
    ¬ Handled s := by
  refine ⟨_, rfl, fun h => ?_⟩
  exact h.told (alice 0) rfl "1" ⟨.ws (alice 0), webConn, 0⟩ (by decide) (by decide)

/-- The agent closes the terminal. -/
def webCloses : List Relay.Action :=
  [.agentRecv webConn (.close "3f2b8c1e-1" none), .dispatch webConn,
    .forward ⟨.ws (alice 0), webConn, 0⟩, .closeNotified (alice 0)]

/-- The agent is back, and Alice has another terminal there. -/
def webReturns : List Relay.Action := .agentUp ⟨"web", 1⟩ :: opensTerminal (alice 0) "2" "web"

theorem handled_webReturns :
    Always step Handled State.init (aliceOnWeb ++ webCloses ++ webEnds ++ webReturns) :=
  (handled_iff (aliceOnWeb ++ webCloses ++ webEnds ++ webReturns) rfl).2 (by decide)

end Tenodera.Gateway.ConnectionEnds
