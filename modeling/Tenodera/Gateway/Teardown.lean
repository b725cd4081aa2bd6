import Tenodera.Gateway.RelayTables

/-!
# The end of a session

When the socket loop is left, its senders are dropped and nothing else happens: no Close goes to
the agents, and the subscribers keep the session's entries.  `tornDown_iff` says that a session
leaves nothing behind exactly when there is nothing to tear down by the time it ends.
-/

namespace Tenodera.Gateway.Relay

open Protocol Transition

def Event.opening : Event → Option (Attachment × ChannelId)
  | .opened a channel => some (a, channel)
  | _ => none

def closedChannel : Message → Option ChannelId
  | .close channel _ => some channel
  | _ => none

/-- The owner has opened the channel on the connection, and neither side has closed it since. -/
def isOpenOn (c : ConnId) (o : Owner) (channel : ChannelId) : List Event → Bool
  | [] => false
  | .opened a id :: log =>
    if a.conn = c ∧ a.owner = o ∧ id = channel then true else isOpenOn c o channel log
  | .closed a id :: log =>
    if a.conn = c ∧ a.owner = o ∧ id = channel then false else isOpenOn c o channel log
  | .fromAgent d m :: log =>
    if d = c ∧ closedChannel m = some (prefixed o.pfx channel) then false
    else isOpenOn c o channel log
  | _ :: log => isOpenOn c o channel log

/-- On the agents that are connected, no channel of the session is open and no entry is its. -/
def Settled (s : State) (w : WsId) : Prop :=
  (∀ e ∈ s.log, ∀ p ∈ e.opening, p.1.owner = .ws w → (s.conn p.1.conn).reader.isLive →
    isOpenOn p.1.conn (.ws w) p.2 s.log = false) ∧
  ∀ a ∈ s.attached, a.owner = .ws w → (s.conn a.conn).reader.isLive →
    ∀ b ∈ (s.conn a.conn).subscribers.lookup a.owner.pfx, b.owner ≠ .ws w

instance (s : State) (w : WsId) : Decidable (Settled s w) := by
  unfold Settled
  infer_instance

/-- Every session that has ended is torn down. -/
def TornDown (s : State) : Prop := ∀ w, (s.session w).loop = .ended → Settled s w

/-- A session ends only when there is nothing to tear down. -/
def LeavesNothing (s : State) : Action → Prop
  | .wsEnd w _ => Settled s w
  | _ => True

instance (s : State) (act : Action) : Decidable (LeavesNothing s act) := by
  rcases act <;> dsimp only [LeavesNothing] <;> infer_instance

variable {s t : State} {act : Action}

/-- A session that has ended, or that this step ends, is not in the middle of an Open. -/
theorem idle_of_ended (h : Effect s act t) {w : WsId} (hw : (t.session w).loop = .ended)
    {p : PendingOpen} :
    (s.session w).loop ≠ .connecting p ∧ (s.session w).loop ≠ .opening p := by
  rcases loop_of_effect h w with heq | hmoves
  · rw [← heq, hw]
    simp
  · rw [hw] at hmoves
    cases hmoves with
    | ends select => simp [select]

theorem owner_ne_of_attaches (hs : Wf s) (h : Effect s act t) {w : WsId}
    (hw : (t.session w).loop = .ended) {a : Attachment} (ha : Attaches s act a) :
    a.owner ≠ .ws w := by
  intro howner
  have hpending := (hs.of_attaches ha).2
  rw [howner] at hpending
  simp only [State.pending] at hpending
  split at hpending
  · rename_i connecting
    exact (idle_of_ended h hw).1 connecting
  · cases hpending

/-- No event opens a channel of a session that has ended. -/
theorem owner_ne_of_opened (hs : Wf s) (h : Effect s act t) {w : WsId}
    (hw : (t.session w).loop = .ended) {a : Attachment} {channel : ChannelId}
    (he : Emits s act (.opened a channel)) : a.owner ≠ .ws w := by
  intro howner
  cases he with
  | @opened v p opening =>
    cases (hs.holds v _ (.inl ⟨p, opening, rfl⟩)).1.symm.trans howner
    exact (idle_of_ended h hw).2 opening
  | rpcOpened subscribed =>
    cases (hs.calls _ a (Rpc.attachment_of_subscribed subscribed)).1.symm.trans howner

theorem isOpenOn_of_effect (hs : Wf s) (h : Effect s act t) {w : WsId}
    (hw : (t.session w).loop = .ended) {c : ConnId} {channel : ChannelId}
    (hclosed : isOpenOn c (.ws w) channel s.log = false) :
    isOpenOn c (.ws w) channel t.log = false := by
  rcases log_of_effect h with heq | ⟨e, heq, hemits⟩
  · rwa [heq]
  · rw [heq]
    cases e with
    | opened a id =>
      have howner := owner_ne_of_opened hs h hw hemits
      rwa [isOpenOn, if_neg fun hsame => howner hsame.2.1]
    | closed a id | fromAgent d m =>
      rw [isOpenOn]
      split_ifs
      · rfl
      · exact hclosed
    | _ => exact hclosed

theorem Settled.of_effect {w : WsId} (hsettled : Settled s w) (hs : Wf s) (h : Effect s act t)
    (hw : (t.session w).loop = .ended) : Settled t w := by
  constructor
  · intro e he p hp howner hlive
    have hold : e ∈ s.log := by
      rcases log_of_effect h with heq | ⟨e', heq, hemits⟩
      · rwa [← heq]
      · rw [heq] at he
        rcases List.mem_cons.1 he with rfl | he
        · cases e with
          | opened a id =>
            cases hp
            exact absurd howner (owner_ne_of_opened hs h hw hemits)
          | _ => cases hp
        · exact he
    have hstarted : (s.conn p.1.conn).reader ≠ .absent := by
      cases e with
      | opened a id =>
        cases hp
        exact hs.attached _ (hs.opened _ _ hold)
      | _ => cases hp
    exact isOpenOn_of_effect hs h hw
      (hsettled.1 e hold p hp howner (isLive_of_effect h hstarted hlive))
  · intro a ha howner hlive b hb
    rcases attached_of_effect h ha with hold | ⟨hattaches, -⟩
    swap
    · exact absurd howner (owner_ne_of_attaches hs h hw hattaches)
    have hstarted := hs.attached a hold
    rcases subscribers_of_effect h a.conn a.owner.pfx with heq | hmoves
    · exact hsettled.2 a hold howner (isLive_of_effect h hstarted hlive) b (heq ▸ hb)
    · rw [hb] at hmoves
      generalize a.conn = c at hmoves
      generalize a.owner.pfx = pfx at hmoves
      cases hmoves with
      | attaches hattaches _ => exact owner_ne_of_attaches hs h hw hattaches

/-- The steps that keep every ended session torn down are those that end no other one. -/
theorem tornDown_step (hs : Wf s) (hP : TornDown s) (h : step s act = some t) :
    TornDown t ↔ LeavesNothing s act := by
  have heffect := step_effect h
  constructor
  · intro hT
    cases act with
    | wsEnd w reason =>
      simp only [step, wsEnd] at h
      split at h
      · cases h
        -- Only the session itself has changed.
        exact hT w (by simp [State.setSession])
      · cases h
    | _ => trivial
  · intro hC w hw
    have hsettled : Settled s w := by
      rcases loop_of_effect heffect w with heq | hmoves
      · exact hP w (heq ▸ hw)
      · rw [hw] at hmoves
        cases hmoves with
        | ends _ => exact hC
    exact hsettled.of_effect hs heffect hw

/-- In a run all sessions that end are torn down iff none of them, when it ends, has an open channel
or an entry on an agent that is connected. -/
theorem tornDown_iff (as : List Action) (hr : run step State.init as = some s) :
    Always step TornDown State.init as ↔ Meets step LeavesNothing State.init as := by
  have hinit : TornDown State.init := fun w hw => by cases hw
  exact always_iff_meets (fun _ _ _ hs h => hs.of_effect (step_effect h))
    (fun _ _ _ hs hP h => tornDown_step hs hP h) wf_init hinit hr

/-! ## What is left open stays open -/

/-- The agent has sent a Close for the channel of the owner. -/
def ClosedByAgent (c : ConnId) (o : Owner) (channel : ChannelId) (log : List Event) : Prop :=
  ∃ m, .fromAgent c m ∈ log ∧ closedChannel m = some (prefixed o.pfx channel)

theorem ended_of_effect (h : Effect s act t) {w : WsId} (hw : (s.session w).loop = .ended) :
    (t.session w).loop = .ended := by
  rcases loop_of_effect h w with heq | hmoves
  · rw [heq, hw]
  · generalize (t.session w).loop = loop at hmoves ⊢
    cases hmoves <;> simp_all [Loop.isRunning]

/-- No Close of a session that has ended is accepted. -/
theorem owner_ne_of_closed (hs : Wf s) {w : WsId} (hw : (s.session w).loop = .ended)
    {a : Attachment} {channel : ChannelId} (he : Emits s act (.closed a channel)) :
    a.owner ≠ .ws w := by
  intro howner
  cases he with
  | @closed v _ _ _ _ select route =>
    cases (hs.holds v a (.inr (.inr ⟨channel, route⟩))).1.symm.trans howner
    rw [select] at hw
    cases hw
  | @rpcClosed r _ closing =>
    cases (hs.calls r a (by rw [closing]; rfl)).1.symm.trans howner

theorem leftOpen_of_effect (hs : Wf s) (h : Effect s act t) {w : WsId}
    (hw : (s.session w).loop = .ended) {c : ConnId} {channel : ChannelId}
    (hopen : isOpenOn c (.ws w) channel s.log ∨ ClosedByAgent c (.ws w) channel s.log) :
    isOpenOn c (.ws w) channel t.log ∨ ClosedByAgent c (.ws w) channel t.log := by
  rcases hopen with hopen | ⟨m, hm, hclosed⟩
  swap
  · exact .inr ⟨m, log_mono h hm, hclosed⟩
  rcases log_of_effect h with heq | ⟨e, heq, hemits⟩
  · exact .inl (heq ▸ hopen)
  · rw [heq]
    cases e with
    | opened a id =>
      left
      rw [isOpenOn]
      split_ifs
      · rfl
      · exact hopen
    | closed a id =>
      have howner := owner_ne_of_closed hs hw hemits
      left
      rwa [isOpenOn, if_neg fun hsame => howner hsame.2.1]
    | fromAgent d m =>
      by_cases hm : d = c ∧ closedChannel m = some (prefixed (Owner.ws w).pfx channel)
      · obtain ⟨rfl, hclosed⟩ := hm
        exact .inr ⟨m, List.mem_cons_self, hclosed⟩
      · left
        rwa [isOpenOn, if_neg hm]
    | _ => exact .inl hopen

/-- A channel that a session leaves open stays open until the agent closes it of its own accord. -/
theorem leftOpen_of_run {bs : List Action} (hs : Wf s) (hr : run step s bs = some t) {w : WsId}
    (hw : (s.session w).loop = .ended) {c : ConnId} {channel : ChannelId}
    (hopen : isOpenOn c (.ws w) channel s.log) :
    isOpenOn c (.ws w) channel t.log ∨ ClosedByAgent c (.ws w) channel t.log := by
  have hstep (s t : State) (act : Action)
      (hI : Wf s ∧ (s.session w).loop = .ended ∧
        (isOpenOn c (.ws w) channel s.log ∨ ClosedByAgent c (.ws w) channel s.log))
      (h : step s act = some t) : Wf t ∧ (t.session w).loop = .ended ∧
        (isOpenOn c (.ws w) channel t.log ∨ ClosedByAgent c (.ws w) channel t.log) := by
    obtain ⟨hs, hw, hleft⟩ := hI
    have heffect := step_effect h
    exact ⟨hs.of_effect heffect, ended_of_effect heffect hw, leftOpen_of_effect hs heffect hw hleft⟩
  exact (invariant_of_run (fun s act t => hstep s t act) ⟨hs, hw, .inl hopen⟩ hr).2.2

/-! ## A closed tab -/

/-- Alice opens a terminal and closes the tab; all queues are empty. -/
def closedTab : List Action :=
  [.agentUp webConn, .wsUp (alice 0)] ++ opensTerminal (alice 0) "1" "web" ++
    [.proxyStep ⟨.ws (alice 0), webConn, 0⟩, .write webConn, .wsEnd (alice 0) .clientClose]

theorem terminal_outlives_tab : ∃ s, run step State.init closedTab = some s ∧
    (∀ a ∈ s.attached, (s.link a).proxy = [] ∧ (s.conn a.conn).toAgent = []) ∧ ¬ TornDown s := by
  refine ⟨_, rfl, ?_, fun h => ?_⟩
  · intro a ha
    cases List.mem_singleton.1 ha
    exact ⟨rfl, rfl⟩
  · exact absurd (h (alice 0) rfl) (by decide)

/-- The agent disconnects before the tab is closed. -/
def agentFirst : List Action :=
  [.agentUp webConn, .wsUp (alice 0)] ++ opensTerminal (alice 0) "1" "web" ++
    [.agentGone webConn, .cleanup webConn, .abortWriter webConn,
      .wsEnd (alice 0) .sessionInvalidated]

theorem tornDown_agentFirst : ∃ s, run step State.init agentFirst = some s ∧
    Always step TornDown State.init agentFirst :=
  ⟨_, rfl, (tornDown_iff agentFirst rfl).2 (by decide)⟩

end Tenodera.Gateway.Relay
