import Tenodera.Gateway.RelayTables

/-!
# Kicking the old agent of a host

After a key is replaced the connection that was authenticated with the old key is taken out of the
registry.  Its reader, its writer and the sessions that are attached to it do not look at the
registry.  `silentAfterKick_of_meets` says when the connection is silent nevertheless.
-/

namespace Tenodera.Gateway.Relay

open Protocol Transition

/-- A message passes from the connection to an owner, or from a session to the connection. -/
def Event.Crosses (c : ConnId) : Event → Prop
  | .toBrowser a _ | .toCaller a _ => a.conn = c
  | .toAgent d (.ws _) _ => d = c
  | _ => False

instance (c : ConnId) (e : Event) : Decidable (e.Crosses c) := by
  unfold Event.Crosses
  split <;> infer_instance

def Event.kick : Event → Option ConnId
  | .kicked c => some c
  | _ => none

/-- Once a connection is kicked, no message passes through it. -/
def SilentAfterKick (log : List Event) : Prop :=
  log.Pairwise fun later earlier => ∀ c ∈ earlier.kick, ¬ later.Crosses c

instance (log : List Event) : Decidable (SilentAfterKick log) := by
  unfold SilentAfterKick
  infer_instance

def Reader.target : Reader → Option Attachment
  | dispatching _ a => some a
  | _ => none

def Event.acquisition : Event → Option Attachment
  | .acquired a => some a
  | _ => none

/-- Nothing the agent has sent can reach the owner of `a`: its inbox is empty, and the reader does
not reach a receiver. -/
def NoIntake (s : State) (a : Attachment) : Prop :=
  (s.link a).inbox.isEmpty ∧ ((s.link a).inboxAlive → (s.conn a.conn).reader.isLive →
    (s.conn a.conn).subscribers.lookup a.owner.pfx ≠ some a ∧
      (s.conn a.conn).reader.target ≠ some a)

/-- Nothing of the owner of `a` can reach the agent: the proxy task has an empty queue, and no
session holds its sender. -/
def NoOutlet (s : State) (a : Attachment) : Prop :=
  (s.conn a.conn).writerAlive → (s.link a).proxyAlive →
    (s.link a).proxy.isEmpty ∧ ∀ w ∈ a.owner.session, ¬ (s.session w).holds a

/-- A message can pass between the connection and the owner. -/
def Passable (s : State) (c : ConnId) (o : Owner) : Prop :=
  (s.conn c).reader.isLive ∨ (s.conn c).writerAlive ∧ o.session.isSome

/-- Nobody uses the connection any more, and nobody is about to attach to it. -/
def Detached (s : State) (c : ConnId) : Prop :=
  (∀ a ∈ s.attached, a.conn = c → NoIntake s a ∧ NoOutlet s a) ∧
    (∀ q ∈ (s.conn c).toAgent, q.1.session = none) ∧
      ∀ e ∈ s.log, ∀ a ∈ e.acquisition, a.conn = c → Passable s c a.owner →
        s.pending a.owner ≠ some a

/-- A connection is kicked only when nobody uses it. -/
def KicksDetached (s : State) : Action → Prop
  | .kick host => ∀ c ∈ s.registry.lookup host, Detached s c
  | _ => True

instance (s : State) (c : ConnId) : Decidable (Detached s c) := by
  unfold Detached
  have (a : Attachment) : Decidable (NoIntake s a ∧ NoOutlet s a) := by
    unfold NoIntake NoOutlet
    infer_instance
  have (o : Owner) : Decidable (Passable s c o) := by
    unfold Passable
    infer_instance
  infer_instance

instance (s : State) (act : Action) : Decidable (KicksDetached s act) := by
  rcases act <;> dsimp only [KicksDetached] <;> infer_instance

/-- What `Detached` says, for everybody there may be. -/
structure Quiet (s : State) (c : ConnId) : Prop where
  started : (s.conn c).reader ≠ .absent
  inbox : ∀ a, a.conn = c → (s.link a).inbox = []
  entries : (s.conn c).reader.isLive → ∀ a, a.conn = c → (s.link a).inboxAlive →
    (s.conn c).subscribers.lookup a.owner.pfx ≠ some a
  target : ∀ frame a, (s.conn c).reader = .dispatching frame a → (s.link a).inboxAlive = false
  toAgent : ∀ w m, (.ws w, m) ∉ (s.conn c).toAgent
  proxy : (s.conn c).writerAlive → ∀ a, a.conn = c → (s.link a).proxyAlive →
    (s.link a).proxy = [] ∧ ∀ w, ¬ (s.session w).holds a
  pending : ∀ o, Passable s c o → ∀ a, s.pending o = some a → a.conn ≠ c

variable {s t : State} {act : Action} {c : ConnId}

theorem Detached.quiet (hd : Detached s c) (hs : Wf s) (hstarted : (s.conn c).reader ≠ .absent) :
    Quiet s c where
  started := hstarted
  inbox a hc := by
    by_contra hne
    have hattached := hs.linked a (.inr (.inr hne))
    exact hne (List.isEmpty_iff.1 (hd.1 a hattached hc).1.1)
  entries hlive a hc halive := by
    subst hc
    exact ((hd.1 a (hs.linked a (.inl halive)) rfl).1.2 halive hlive).1
  target frame a hdisp := by
    obtain ⟨hattached, rfl⟩ := hs.dispatching c frame a hdisp
    have hlive : (s.conn a.conn).reader.isLive := by rw [hdisp]; rfl
    by_contra halive
    have htarget := ((hd.1 a hattached rfl).1.2 (by simpa using halive) hlive).2
    rw [hdisp] at htarget
    exact htarget rfl
  toAgent w m hm := by
    cases hd.2.1 (.ws w, m) hm
  proxy hwriter a hc halive := by
    subst hc
    have hattached := hs.linked a (.inr (.inl halive))
    obtain ⟨hempty, hholds⟩ := (hd.1 a hattached rfl).2 hwriter halive
    refine ⟨List.isEmpty_iff.1 hempty, fun w hw => ?_⟩
    exact hholds w (by rw [(hs.holds w a hw).1]; rfl) hw
  pending o hpass a ha hc := by
    obtain ⟨rfl, -, hacquired⟩ := hs.pending o a ha
    exact hd.2.2 _ hacquired a rfl hc hpass ha

/-- A kicked connection: nobody uses it, and no host leads to it. -/
structure Cut (s : State) (c : ConnId) : Prop where
  quiet : Quiet s c
  unregistered : ∀ host, s.registry.lookup host ≠ some c

theorem Quiet.writerAlive_of_effect (hq : Quiet s c) (h : Effect s act t)
    (hw : (t.conn c).writerAlive) : (s.conn c).writerAlive :=
  (Relay.writerAlive_of_effect h hw).resolve_right hq.started

theorem Quiet.inboxAlive_of_effect (hq : Quiet s c) (hs : Wf s) (h : Effect s act t)
    (hlive : (s.conn c).reader.isLive) {a : Attachment} (hc : a.conn = c)
    (ha : (t.link a).inboxAlive) : (s.link a).inboxAlive :=
  (Relay.inboxAlive_of_effect h ha).resolve_right fun hnew =>
    hq.pending a.owner (.inl hlive) a (hs.of_attaches hnew.1).2 hc

theorem Quiet.inbox_of_effect (hq : Quiet s c) (hs : Wf s) (h : Effect s act t) {a : Attachment}
    (hc : a.conn = c) : (t.link a).inbox = [] := by
  refine List.eq_nil_iff_forall_not_mem.2 fun frame hframe => ?_
  rcases Relay.inbox_of_effect h hframe with hold | ⟨halive, d, hdisp⟩
  · rw [hq.inbox a hc] at hold
    cases hold
  · obtain ⟨-, rfl⟩ := hs.dispatching d frame a hdisp
    subst hc
    rw [hq.target frame a hdisp] at halive
    cases halive

theorem Quiet.entries_of_effect (hq : Quiet s c) (hs : Wf s) (h : Effect s act t)
    (hlive : (t.conn c).reader.isLive) {a : Attachment} (hc : a.conn = c)
    (ha : (t.link a).inboxAlive) : (t.conn c).subscribers.lookup a.owner.pfx ≠ some a := by
  intro hentry
  have hlive := isLive_of_effect h hq.started hlive
  rcases subscribers_of_effect h c a.owner.pfx with heq | hmoves
  · exact hq.entries hlive a hc (hq.inboxAlive_of_effect hs h hlive hc ha) (heq ▸ hentry)
  · rw [hentry] at hmoves
    generalize a.owner.pfx = pfx at hmoves
    cases hmoves with
    | attaches hnew _ => exact hq.pending a.owner (.inl hlive) a (hs.of_attaches hnew).2 hc

theorem Quiet.target_of_effect (hq : Quiet s c) (hs : Wf s) (h : Effect s act t) {frame : Frame}
    {a : Attachment} (hdisp : (t.conn c).reader = .dispatching frame a) :
    (t.link a).inboxAlive = false := by
  have hlive := isLive_of_effect h hq.started (by rw [hdisp]; rfl)
  have hc := ((hs.of_effect h).dispatching c frame a hdisp).2
  by_contra halive
  have halive := hq.inboxAlive_of_effect hs h hlive hc (by simpa using halive)
  rcases reader_of_effect h c with heq | hmoves
  · rw [hq.target frame a (heq ▸ hdisp)] at halive
    cases halive
  · rw [hdisp] at hmoves
    cases hmoves with
    | takes _ _ subscribed =>
      obtain ⟨-, -, rfl⟩ := hs.subscribed c _ a subscribed
      exact hq.entries hlive a hc halive subscribed

theorem Quiet.toAgent_of_effect (hq : Quiet s c) (hs : Wf s) (h : Effect s act t) (w : WsId)
    (m : Message) : (.ws w, m) ∉ (t.conn c).toAgent := by
  intro hm
  rcases Relay.toAgent_of_effect h hm with hold | ⟨hwriter, a, howner, hc, hsource⟩
  · exact hq.toAgent w m hold
  · rcases hsource with ⟨halive, hne⟩ | ⟨r, hr⟩
    · exact hne (hq.proxy hwriter a hc halive).1
    · cases howner.symm.trans (hs.calls r a hr).1

theorem Quiet.proxy_of_effect (hq : Quiet s c) (h : Effect s act t)
    (hwriter : (t.conn c).writerAlive) {a : Attachment} (hc : a.conn = c)
    (ha : (t.link a).proxyAlive) :
    (t.link a).proxy = [] ∧ ∀ w, ¬ (t.session w).holds a := by
  have hwriter := hq.writerAlive_of_effect h hwriter
  have halive : (s.link a).proxyAlive :=
    (proxyAlive_of_effect h ha).resolve_right fun ⟨⟨w, hpending⟩, _⟩ =>
      hq.pending (.ws w) (.inr ⟨hwriter, rfl⟩) a hpending hc
  obtain ⟨hempty, hholds⟩ := hq.proxy hwriter a hc halive
  refine ⟨List.eq_nil_iff_forall_not_mem.2 fun m hm => ?_, fun w hw => ?_⟩
  · rcases Relay.proxy_of_effect h hm with hold | ⟨-, w, hw⟩
    · rw [hempty] at hold
      cases hold
    · exact hholds w hw
  · rcases holds_of_effect h hw with hold | ⟨hpending, -⟩
    · exact hholds w hold
    · exact hq.pending (.ws w) (.inr ⟨hwriter, rfl⟩) a hpending hc

theorem Cut.of_effect (hcut : Cut s c) (hs : Wf s) (h : Effect s act t) : Cut t c where
  quiet :=
    { started := started_reader h hcut.quiet.started
      inbox := fun a => hcut.quiet.inbox_of_effect hs h
      entries := fun hlive a => hcut.quiet.entries_of_effect hs h hlive
      target := fun frame a => hcut.quiet.target_of_effect hs h
      toAgent := hcut.quiet.toAgent_of_effect hs h
      proxy := fun hwriter a => hcut.quiet.proxy_of_effect h hwriter
      pending := fun o hpass a ha hc => by
        have hpass : Passable s c o :=
          hpass.imp (isLive_of_effect h hcut.quiet.started)
            (And.imp_left (hcut.quiet.writerAlive_of_effect h))
        rcases pending_of_effect h ha with hold | ⟨-, ⟨host, hregistered⟩, -⟩
        · exact hcut.quiet.pending o hpass a hold hc
        · exact hcut.unregistered host (hc ▸ hregistered) }
  unregistered host hc := by
    rcases registry_of_effect h hc with hold | ⟨-, habsent, -⟩
    · exact hcut.unregistered host hold
    · exact hcut.quiet.started habsent

/-- Nothing passes through a connection that has been cut. -/
theorem Cut.not_crosses (hcut : Cut s c) {e : Event} (he : Emits s act e) : ¬ e.Crosses c := by
  intro hcrosses
  cases he with
  | toAgent queued =>
    rename_i o m
    cases o with
    | ws w =>
      cases hcrosses
      exact hcut.quiet.toAgent w m queued
    | rpc r => cases hcrosses
  | toBrowser _ queued | toCaller _ queued =>
    rw [hcut.quiet.inbox _ hcrosses] at queued
    cases queued
  | _ => cases hcrosses

/-- All kicked connections are cut. -/
structure AllCut (s : State) : Prop where
  wf : Wf s
  cut : ∀ c, .kicked c ∈ s.log → Cut s c
  silent : SilentAfterKick s.log

theorem AllCut.of_step (hs : AllCut s) (hC : KicksDetached s act) (h : step s act = some t) :
    AllCut t := by
  have heffect := step_effect h
  refine ⟨hs.wf.of_effect heffect, fun c hc => ?_, ?_⟩
  · rcases log_of_effect heffect with heq | ⟨e, heq, hemits⟩
    · exact (hs.cut c (heq ▸ hc)).of_effect hs.wf heffect
    · rw [heq] at hc
      rcases List.mem_cons.1 hc with rfl | hc
      · cases hemits with
        | @kicked host _ registered =>
          obtain ⟨hhost, hstarted⟩ := hs.wf.registered host c registered
          have hquiet := (hC c registered).quiet hs.wf hstarted
          simp only [step, kick, registered, Option.some.injEq] at h
          subst h
          refine ⟨⟨hquiet.1, hquiet.2, hquiet.3, hquiet.4, hquiet.5, hquiet.6, hquiet.7⟩, ?_⟩
          intro host' hregistered
          obtain ⟨hne, hold⟩ := AList.lookup_erase_eq_some_iff.1 hregistered
          exact hne ((hs.wf.registered host' c hold).1.symm.trans hhost)
      · exact (hs.cut c hc).of_effect hs.wf heffect
  · rcases log_of_effect heffect with heq | ⟨e, heq, hemits⟩
    · exact heq ▸ hs.silent
    · rw [heq]
      refine List.pairwise_cons.2 ⟨fun earlier hearlier c hkicked => ?_, hs.silent⟩
      cases earlier with
      | kicked d =>
        cases hkicked
        exact (hs.cut c hearlier).not_crosses hemits
      | _ => cases hkicked

theorem allCut_init : AllCut State.init where
  wf := wf_init
  cut c hc := by cases hc
  silent := .nil

/-- As long as only connections are kicked that nobody uses, no message passes through a connection
after it was kicked. -/
theorem silentAfterKick_of_meets (as : List Action) (hr : run step State.init as = some s)
    (hC : Meets step KicksDetached State.init as) : SilentAfterKick s.log :=
  (invariant_of_meets (fun _ _ _ hs hC h => hs.of_step hC h) allCut_init hr hC).silent

/-! ## Alice and the old agent -/

/-- Alice has a terminal when the agent is kicked.  The old agent still reaches her, and she it. -/
def kickedInUse : List Action :=
  [.agentUp webConn, .wsUp (alice 0)] ++ opensTerminal (alice 0) "1" "web" ++
    [.kick "web", .agentRecv webConn (.data "3f2b8c1e-1" (.string "Password: ")),
      .dispatch webConn, .forward ⟨.ws (alice 0), webConn, 0⟩,
      .wsFrame (alice 0) (.data "1" (.string "secret")) 0,
      .proxyStep ⟨.ws (alice 0), webConn, 0⟩, .proxyStep ⟨.ws (alice 0), webConn, 0⟩,
      .write webConn, .write webConn]

theorem old_agent_reaches_alice : ∃ s, run step State.init kickedInUse = some s ∧
    ¬ SilentAfterKick s.log :=
  ⟨_, rfl, by decide⟩

/-- Alice's tab is gone, and the forwarder with it, when the agent is kicked. -/
def kickedUnused : List Action :=
  [.agentUp webConn, .wsUp (alice 0)] ++ opensTerminal (alice 0) "1" "web" ++
    [.proxyStep ⟨.ws (alice 0), webConn, 0⟩, .write webConn, .wsEnd (alice 0) .streamEnded,
      .agentRecv webConn (.data "3f2b8c1e-1" (.string "$ ")), .dispatch webConn,
      .forwarderEnds ⟨.ws (alice 0), webConn, 0⟩, .kick "web",
      .agentRecv webConn (.data "3f2b8c1e-1" (.string "Password: ")), .dispatch webConn]

theorem silentAfterKick_kickedUnused : ∃ s, run step State.init kickedUnused = some s ∧
    SilentAfterKick s.log :=
  ⟨_, rfl, silentAfterKick_of_meets kickedUnused rfl (by decide)⟩

end Tenodera.Gateway.Relay
