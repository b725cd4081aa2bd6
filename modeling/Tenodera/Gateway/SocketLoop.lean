import Tenodera.Gateway.RelayComponents
import Tenodera.Gateway.Sessions

/-!
# The socket loop and the session store

The loop of a browser's WebSocket connection touches its session when a text frame comes in, and
looks every few seconds whether the session is still in the store.  Here the relay runs next to the
store: a frame is taken and touched in one step and sent on to an agent in a later one, and the
requests, the reaper and the clock may come in between.  `forwardsValid_of_meets` says when every
frame that is sent on belongs to a session that is valid at that time.
-/

namespace Tenodera.Gateway.Socket

open Protocol Transition
open Relay (WsId)

/-- The relay, the session store, and the sessions whose loop has taken a frame and is not back at
its `select!`; a frame that is still to be sent along its route is kept with its session. -/
structure State where
  relay : Relay.State
  sessions : Sessions.State
  hand : AList fun _ : WsId => Option Message

def State.init (store : SessionStore) : State := ⟨.init, .init store, ∅⟩

inductive Action
  /-- The HTTP requests, the reaper and the clock. -/
  | session (a : Sessions.Action)
  | authenticate (w : WsId)
  /-- A text frame comes in; `none` when it does not decode. -/
  | receive (w : WsId) (m : Option Message) (serial : ℕ)
  /-- The frame in hand is sent along the route of its channel. -/
  | send (w : WsId)
  /-- The periodic check of the session. -/
  | check (w : WsId)
  /-- A step of the relay that no socket loop takes upon a frame or a check. -/
  | relay (a : Relay.Action)

/-- The frame goes along a route that is still served. -/
def isRouted (s : Relay.State) (w : WsId) (m : Message) : Bool :=
  match m with
  | .data channel _ | .control channel _ _ | .close channel _ =>
    Relay.decodes m && ((s.session w).routes.lookup channel).any fun a => (s.link a).proxyAlive
  | _ => false

def isSelect : Relay.Loop → Bool
  | .select => true
  | _ => false

/-- The loop is back at its `select!`, or still busy with the frame. -/
def settle (w : WsId) (s : Relay.State) (hand : AList fun _ : WsId => Option Message) :
    AList fun _ : WsId => Option Message :=
  if isSelect (s.session w).loop then hand.erase w else hand.insert w none

namespace State

variable (s : State)

def touch (w : WsId) : State :=
  { s with sessions.store := s.sessions.store.touch s.sessions.now w.token.text }

def isValid (w : WsId) : Bool := s.sessions.store.isValid s.sessions.now w.token.text

end State

/-- The token is looked up and the session touched; `w` carries the user and the role found. -/
def authenticate (w : WsId) (s : State) : Option State :=
  let now := s.sessions.now
  match s.sessions.store.getValid now w.token.text with
  | (none, store) => some { s with sessions.store := store }
  | (some session, store) =>
    if ¬ (session.user = w.user ∧ session.role = w.role) then none
    else if elapsedSecs session.lastActivity now > store.idleTimeoutSecs then
      some { s with sessions.store := store.remove w.token.text }
    else
      (Relay.step s.relay (.wsUp w)).map fun relay =>
        { s with relay, sessions.store := store.touch now w.token.text }

/-- A text frame is touched, and dealt with up to the point where it is sent to an agent. -/
def receive (w : WsId) (m : Option Message) (serial : ℕ) (s : State) : Option State :=
  if ¬ isSelect (s.relay.session w).loop ∨ w ∈ s.hand then none
  else
    let touched := s.touch w
    match m with
    | none => some touched
    | some m =>
      if isRouted s.relay w m then some { touched with hand := s.hand.insert w (some m) }
      else
        (Relay.step s.relay (.wsFrame w m serial)).map fun relay =>
          { touched with relay, hand := settle w relay s.hand }

def send (w : WsId) (s : State) : Option State :=
  match s.hand.lookup w with
  | some (some m) =>
    (Relay.step s.relay (.wsFrame w m 0)).map fun relay =>
      { s with relay, hand := settle w relay s.hand }
  | _ => none

/-- The periodic check looks for the session with `get`. -/
def check (w : WsId) (s : State) : Option State :=
  if ¬ isSelect (s.relay.session w).loop ∨ w ∈ s.hand then none
  else
    match s.sessions.store.get w.token.text with
    | some _ => some s
    | none =>
      (Relay.step s.relay (.wsEnd w .sessionInvalidated)).map fun relay => { s with relay }

def relayStep (a : Relay.Action) (s : State) : Option State :=
  match a with
  | .wsUp _ | .wsFrame .. => none
  | .wsConnect w | .wsOpen w =>
    (Relay.step s.relay a).map fun relay => { s with relay, hand := settle w relay s.hand }
  | .closeNotified w =>
    if w ∈ s.hand then none else (Relay.step s.relay a).map fun relay => { s with relay }
  | .wsEnd w reason =>
    if w ∈ s.hand ∨ reason = .sessionInvalidated then none
    else (Relay.step s.relay a).map fun relay => { s with relay }
  | _ => (Relay.step s.relay a).map fun relay => { s with relay }

def step (s : State) : Action → Option State
  | .session (.touch _) => none
  | .session a => (Sessions.step s.sessions a).map fun sessions => { s with sessions }
  | .authenticate w => authenticate w s
  | .receive w m serial => receive w m serial s
  | .send w => send w s
  | .check w => check w s
  | .relay a => relayStep a s

/-! ## Frames that are sent on -/

/-- The session whose loop sends a frame of its client to an agent in this step. -/
def forwarder (s : State) : Action → Option WsId
  | .send w =>
    match s.hand.lookup w with
    | some (some m) => if isRouted s.relay w m then some w else none
    | _ => none
  | .relay (.wsOpen w) =>
    match (s.relay.session w).loop with
    | .opening p => if (s.relay.link p.attachment).proxyAlive then some w else none
    | _ => none
  | _ => none

/-- A frame that is sent on belongs to a session that is valid now. -/
def ForwardsValid (s : State) (a : Action) : Prop := ∀ w ∈ forwarder s a, s.isValid w

/-- The loop will have to wait before it has sent the frame on: it is an Open that is not refused
at once, or it goes along a route. -/
def goesOn (s : Relay.State) (w : WsId) (m : Message) (serial : ℕ) : Bool :=
  isRouted s w m ||
    (Relay.step s (.wsFrame w m serial)).any fun t => !isSelect (t.session w).loop

/-- A frame that goes on is taken while its session is in the store and within its maximum lifetime,
and while it is in hand no request, no pass of the reaper and no passing of time invalidates its
session. -/
def KeepsSession (s : State) : Action → Prop
  | .receive w (some m) serial =>
    goesOn s.relay w m serial →
      (s.sessions.store.get w.token.text).any (s.sessions.store.ageOk s.sessions.now)
  | .session a =>
    ∀ sessions ∈ Sessions.step s.sessions a, ∀ w ∈ s.hand.keys,
      sessions.store.isValid sessions.now w.token.text
  | _ => True

instance (s : State) (a : Action) : Decidable (KeepsSession s a) := by
  cases a with
  | receive w m serial => cases m <;> dsimp only [KeepsSession] <;> infer_instance
  | _ => dsimp only [KeepsSession]; infer_instance

/-! ## The invariant -/

/-- The sessions with a frame in hand are valid, and a loop that is busy with an Open has it in
hand. -/
structure Guarded (s : State) : Prop where
  valid : ∀ w ∈ s.hand, s.isValid w
  busy : ∀ w, isSelect (s.relay.session w).loop = false → (s.relay.session w).loop.isRunning →
    w ∈ s.hand

section

variable {s t : State} {a : Action}

theorem mem_settle_iff {v w : WsId} {relay : Relay.State}
    {hand : AList fun _ : WsId => Option Message} :
    v ∈ settle w relay hand ↔
      v = w ∧ isSelect (relay.session w).loop = false ∨ v ≠ w ∧ v ∈ hand := by
  unfold settle
  split_ifs with h
  · simp [h]
  · by_cases hv : v = w
    · simp [hv, h]
    · simp [hv]

/-- A loop becomes busy only through a frame of its own, or in `connect_session`. -/
theorem loop_cases {r r' : Relay.State} {act : Relay.Action} (h : Relay.step r act = some r')
    (w : WsId) : (r'.session w).loop = (r.session w).loop ∨ isSelect (r'.session w).loop ∨
      ¬ (r'.session w).loop.isRunning ∨ act = .wsConnect w ∨
        ∃ m serial, act = .wsFrame w m serial := by
  rcases Relay.loop_of_effect (Relay.step_effect h) w with heq | hmoves
  · exact .inl heq
  · generalize (r'.session w).loop = loop at hmoves ⊢
    cases hmoves with
    | up _ | returns _ => exact .inr (.inl rfl)
    | ends _ => exact .inr (.inr (.inl nofun))
    | connected _ _ => exact .inr (.inr (.inr (.inl rfl)))
    | opensCached _ _ | connects _ _ _ _ => exact .inr (.inr (.inr (.inr ⟨_, _, rfl⟩)))

/-- The busy loops after a relay action that is not about one of the sessions in question. -/
theorem Guarded.busy_of_relay (hs : Guarded s) {relay : Relay.State} {act : Relay.Action}
    (h : Relay.step s.relay act = some relay) {w : WsId} (hconnect : act ≠ .wsConnect w)
    (hframe : ∀ m serial, act ≠ .wsFrame w m serial)
    (hsel : isSelect (relay.session w).loop = false) (hrun : (relay.session w).loop.isRunning) :
    w ∈ s.hand := by
  rcases loop_cases h w with heq | hsel' | hrun' | hact | ⟨m, serial, hact⟩
  · rw [heq] at hsel hrun
    exact hs.busy w hsel hrun
  · cases hsel.symm.trans hsel'
  · exact absurd hrun hrun'
  · exact absurd hact hconnect
  · exact absurd hact (hframe m serial)

/-- The busy loops after an action of one session, whose frame is then settled. -/
theorem Guarded.busy_settle (hs : Guarded s) {relay : Relay.State} {act : Relay.Action} {w : WsId}
    (h : Relay.step s.relay act = some relay) (hconnect : ∀ v, v ≠ w → act ≠ .wsConnect v)
    (hframe : ∀ v m serial, v ≠ w → act ≠ .wsFrame v m serial) (v : WsId)
    (hsel : isSelect (relay.session v).loop = false) (hrun : (relay.session v).loop.isRunning) :
    v ∈ settle w relay s.hand := by
  rw [mem_settle_iff]
  by_cases hv : v = w
  · subst hv
    exact .inl ⟨rfl, hsel⟩
  · exact .inr ⟨hv, hs.busy_of_relay h (hconnect v hv) (fun m serial => hframe v m serial hv) hsel
      hrun⟩

/-- Settling a frame of a session that had one in hand leaves only valid sessions. -/
theorem Guarded.valid_settle (hs : Guarded s) {relay : Relay.State} {w v : WsId}
    (hw : isSelect (relay.session w).loop = false → s.isValid w)
    (hv : v ∈ settle w relay s.hand) : s.isValid v := by
  rcases mem_settle_iff.1 hv with ⟨rfl, hsel⟩ | ⟨-, hmem⟩
  · exact hw hsel
  · exact hs.valid v hmem

theorem Guarded.of_authenticate {w : WsId} (hs : Guarded s) (h : authenticate w s = some t) :
    Guarded t := by
  simp only [authenticate] at h
  have hget (v : WsId) (hv : v ∈ s.hand) :
      (s.sessions.store.getValid s.sessions.now w.token.text).2.isValid s.sessions.now
        v.token.text := Sessions.isValid_getValid (hs.valid v hv)
  rcases hres : s.sessions.store.getValid s.sessions.now w.token.text with ⟨_ | session, store⟩
  · rw [hres] at h hget
    cases h
    exact ⟨hget, hs.busy⟩
  · rw [hres] at h hget
    dsimp only at h
    split_ifs at h with huser hidle
    · -- `get_valid` has just renewed the session
      rw [Sessions.lastActivity_getValid hres, elapsedSecs_self] at hidle
      exact absurd hidle (Nat.not_lt_zero _)
    · obtain ⟨relay, hrelay, rfl⟩ := Option.map_eq_some_iff.1 h
      refine ⟨fun v hv => Sessions.isValid_touch (hget v hv), fun v hsel hrun => ?_⟩
      exact hs.busy_of_relay hrelay (by simp) (by simp) hsel hrun

theorem Guarded.of_touch (hs : Guarded s) (w : WsId) : Guarded (s.touch w) :=
  ⟨fun v hv => Sessions.isValid_touch (hs.valid v hv), hs.busy⟩

theorem Guarded.of_receive {w : WsId} {m : Option Message} {serial : ℕ} (hs : Guarded s)
    (hC : KeepsSession s (.receive w m serial)) (h : receive w m serial s = some t) :
    Guarded t := by
  simp only [receive] at h
  split_ifs at h with hloop
  rcases m with _ | m
  · cases h
    exact hs.of_touch w
  · dsimp only at h
    split_ifs at h with hrouted
    · cases h
      have hw : (s.touch w).isValid w :=
        Sessions.isValid_touch_self (hC (by rw [goesOn, hrouted, Bool.true_or]))
      refine ⟨fun v hv => ?_, fun v hsel hrun => ?_⟩
      swap
      · exact (AList.mem_insert _).2 (.inr (hs.busy v hsel hrun))
      rcases (AList.mem_insert _).1 hv with rfl | hv
      · exact hw
      · exact (hs.of_touch w).valid v hv
    · obtain ⟨relay, hrelay, rfl⟩ := Option.map_eq_some_iff.1 h
      refine ⟨fun v hv => (hs.of_touch w).valid_settle (fun hsel => ?_) hv, ?_⟩
      · refine Sessions.isValid_touch_self (hC ?_)
        rw [goesOn, hrelay, Option.any_some, hsel, Bool.not_false, Bool.or_true]
      · exact hs.busy_settle hrelay (fun _ _ => nofun) fun v m serial hv heq => by
          cases heq
          exact hv rfl

theorem Guarded.of_send {w : WsId} (hs : Guarded s) (h : send w s = some t) : Guarded t := by
  simp only [send] at h
  split at h
  · rename_i m hm
    obtain ⟨relay, hrelay, rfl⟩ := Option.map_eq_some_iff.1 h
    have hw : w ∈ s.hand := AList.lookup_isSome.1 (by rw [hm]; rfl)
    refine ⟨fun v hv => hs.valid_settle (fun _ => hs.valid w hw) hv, ?_⟩
    exact hs.busy_settle hrelay (fun _ _ => nofun) fun v m serial hv heq => by
      cases heq
      exact hv rfl
  · cases h

theorem Guarded.of_check {w : WsId} (hs : Guarded s) (h : check w s = some t) : Guarded t := by
  simp only [check] at h
  split_ifs at h
  split at h
  · cases h
    exact hs
  · obtain ⟨relay, hrelay, rfl⟩ := Option.map_eq_some_iff.1 h
    exact ⟨hs.valid, fun v hsel hrun => hs.busy_of_relay hrelay (by simp) (by simp) hsel hrun⟩

/-- An Open that its loop is busy with is in hand. -/
theorem Guarded.mem_of_relay (hs : Guarded s) {relay : Relay.State} {w : WsId}
    {act : Relay.Action} (hact : act = .wsConnect w ∨ act = .wsOpen w)
    (h : Relay.step s.relay act = some relay) : w ∈ s.hand := by
  refine hs.busy w ?_ ?_
  all_goals
    rcases hact with rfl | rfl
    all_goals
      simp only [Relay.step, Relay.wsConnect, Relay.wsOpen] at h
      split at h
      · rename_i hloop
        rw [hloop]
        rfl
      · cases h

theorem Guarded.of_relay {act : Relay.Action} (hs : Guarded s) (h : relayStep act s = some t) :
    Guarded t := by
  cases act with
  | wsUp w | wsFrame w m serial => cases h
  | wsConnect w | wsOpen w =>
    obtain ⟨relay, hrelay, rfl⟩ := Option.map_eq_some_iff.1 h
    have hw := hs.valid w (hs.mem_of_relay (by simp) hrelay)
    refine ⟨fun v hv => hs.valid_settle (fun _ => hw) hv, ?_⟩
    exact hs.busy_settle hrelay (fun v hv heq => by cases heq <;> exact hv rfl)
      fun _ _ _ _ => nofun
  | closeNotified w | wsEnd w reason =>
    simp only [relayStep] at h
    split_ifs at h
    obtain ⟨relay, hrelay, rfl⟩ := Option.map_eq_some_iff.1 h
    exact ⟨hs.valid, fun v hsel hrun => hs.busy_of_relay hrelay (by simp) (by simp) hsel hrun⟩
  | _ =>
    simp only [relayStep] at h
    obtain ⟨relay, hrelay, rfl⟩ := Option.map_eq_some_iff.1 h
    exact ⟨hs.valid, fun v hsel hrun => hs.busy_of_relay hrelay (by simp) (by simp) hsel hrun⟩

theorem Guarded.of_step (hs : Guarded s) (hC : KeepsSession s a) (h : step s a = some t) :
    Guarded t := by
  cases a with
  | session a =>
    have hstep : (Sessions.step s.sessions a).map (fun sessions => { s with sessions }) =
        some t := by
      cases a with
      | touch id => cases h
      | _ => exact h
    obtain ⟨sessions, hsessions, rfl⟩ := Option.map_eq_some_iff.1 hstep
    exact ⟨fun w hw => hC sessions hsessions w (AList.mem_keys.1 hw), hs.busy⟩
  | authenticate w => exact hs.of_authenticate h
  | receive w m serial => exact hs.of_receive hC h
  | send w => exact hs.of_send h
  | check w => exact hs.of_check h
  | relay act => exact hs.of_relay h

/-- In an invariant state, only valid sessions have a frame to be sent on. -/
theorem Guarded.forwardsValid (hs : Guarded s) : ForwardsValid s a := by
  intro w hw
  cases a with
  | send v =>
    simp only [forwarder] at hw
    split at hw
    · rename_i m hm
      split_ifs at hw
      · cases hw
        exact hs.valid w (AList.lookup_isSome.1 (by rw [hm]; rfl))
      · cases hw
    · cases hw
  | relay act =>
    cases act with
    | wsOpen v =>
      simp only [forwarder] at hw
      split at hw
      · rename_i p hp
        split_ifs at hw
        · cases hw
          exact hs.valid w (hs.busy w (by rw [hp]; rfl) (by rw [hp]; rfl))
        · cases hw
      · cases hw
    | _ => cases hw
  | _ => cases hw

theorem guarded_init (store : SessionStore) : Guarded (.init store) where
  valid w hw := absurd hw (AList.notMem_empty w)
  busy w _ hrun := by cases hrun

end

/-! ## A terminal after the logout -/

open Relay (webConn alice terminalOn)

/-- Alice logs in and opens a terminal on host `web`. -/
def terminal : List Action :=
  [.session (.create (alice 0).token.text "alice" .admin), .relay (.agentUp webConn),
    .authenticate (alice 0), .receive (alice 0) (some (.open_ "1" (terminalOn "web"))) 0,
    .relay (.wsConnect (alice 0)), .relay (.wsOpen (alice 0))]

/-- She presses a key in it. -/
def typing : List Action :=
  [.receive (alice 0) (some (.data "1" (.string "l"))) 0, .send (alice 0)]

end Tenodera.Gateway.Socket
