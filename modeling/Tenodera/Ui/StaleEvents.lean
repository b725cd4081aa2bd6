import Tenodera.Ui.Transport

/-!
# Events of sockets that were left

The handlers of `transport.ts` do not ask whether their socket is still the current one, and
`disconnect()` is over before the close event of its socket comes.  `orderly_iff` says for which
orders of calls and events the transport keeps its sockets apart.
-/

namespace Tenodera.Ui.Transport

open Protocol
open Transition (run Always Meets always_iff_meets)

/-! ## What should hold, and when it does -/

/-- No close event has altered what belongs to a newer socket, no reconnect is scheduled after a
`disconnect()`, and the promises of closed sockets are settled. -/
structure Orderly (s : State) : Prop where
  undisturbed : s.disturbed = false
  quiet : s.away → s.reconnectTimer = false
  settled : ∀ i, (s.socket i).readyState = .closed → (s.socket i).outcome.isSome

/-- Whether the last of all calls of `connect()` and `disconnect()` was `disconnect()`. -/
def awayAfter (away : Bool) (calls : List Call) : Bool :=
  calls.foldl (fun away c => match c with
    | .connect => false
    | .disconnect => true
    | _ => away) away

/-- A socket closes when no newer one is current, when it has failed or got its auth result, and
while nobody has left; a reconnect attempt fails while nobody has left. -/
def InOrder (s : State) : Action → Prop
  | .onclose i listeners watchers =>
    (∀ j ∈ ((s.closes i).calls listeners).ws, j ≤ i) ∧
      (s.failing = some i ∨ (s.socket i).answered) ∧
      awayAfter s.away (listeners ++ watchers) = false
  | .reaction watchers => s.reactions.head? = some false → awayAfter s.away watchers = false
  | _ => True

instance (s : State) (a : Action) : Decidable (InOrder s a) := by
  rcases a <;> dsimp only [InOrder] <;> infer_instance

/-- Only an auth result or a failure settles the promise of a socket. -/
structure Socket.Sound (socket : Socket) : Prop where
  answered : socket.answered → socket.outcome.isSome
  outcome : socket.outcome.isSome → socket.answered ∨ socket.readyState = .closed

structure Invariant (s : State) : Prop where
  promise : s.connectPromise = s.ws
  owners : ∀ l ∈ s.channelListeners, ∀ j, l.owner = some j → s.ws = some j
  unflagged : s.intentionalClose = false
  failed : ∀ i, s.failing = some i → (s.socket i).outcome.isSome
  sound : ∀ i, (s.socket i).Sound

section

variable {s t : State} {i j : ℕ} {c : Call} {calls watchers listeners : List Call} {a : Action}

/-! ## Calls -/

/-- The frame is on its way or not; nothing else happens. -/
theorem exists_send (s : State) (frame : Value) :
    ∃ sent, (s.send frame).getD s = { s with sent := sent } := by
  unfold State.send
  split
  · exact ⟨_, rfl⟩
  · split
    · exact ⟨_, rfl⟩
    · exact ⟨_, rfl⟩
    · exact ⟨_, rfl⟩

theorem send_eq_some {frame : Value} (h : s.send frame = some t) :
    ∃ sent, t = { s with sent := sent } := by
  obtain ⟨sent, hsent⟩ := exists_send s frame
  rw [h] at hsent
  exact ⟨sent, hsent⟩

/-- The socket is the same, but for a closing handshake. -/
structure Socket.Same (socket socket' : Socket) : Prop where
  outcome : socket'.outcome = socket.outcome
  answered : socket'.answered = socket.answered
  closed : socket'.readyState = .closed ↔ socket.readyState = .closed

theorem Socket.Same.refl (socket : Socket) : socket.Same socket := ⟨rfl, rfl, .rfl⟩

theorem Socket.Same.trans {socket socket' socket'' : Socket} (h : socket.Same socket')
    (h' : socket'.Same socket'') : socket.Same socket'' :=
  ⟨h'.outcome.trans h.outcome, h'.answered.trans h.answered, h'.closed.trans h.closed⟩

theorem Socket.same_close (socket : Socket) : socket.Same socket.close := by
  unfold Socket.close
  split
  · rename_i hstate
    exact ⟨rfl, rfl, by simp [hstate]⟩
  · rename_i hstate
    exact ⟨rfl, rfl, by simp [hstate]⟩
  · exact .refl socket

theorem exists_closeWs (s : State) :
    ∃ f, s.closeWs = { s with socket := f } ∧ ∀ i, (s.socket i).Same (f i) := by
  unfold State.closeWs
  split
  · exact ⟨s.socket, rfl, fun i => .refl _⟩
  · rename_i k _
    refine ⟨_, rfl, fun i => ?_⟩
    by_cases hi : i = k
    · subst hi
      rw [Function.update_self]
      exact (s.socket i).same_close
    · rw [Function.update_of_ne hi]
      exact .refl _

/-- The outcomes of a call. -/
inductive Effect (s : State) : Call → State → Prop
  | waits : Effect s .connect { s with away := false }
  | connects (hnone : s.connectPromise = none) :
      Effect s .connect
        { s with
          away := false
          created := s.created + 1
          ws := some s.created
          connectPromise := some s.created }
  | leaves (f : ℕ → Socket) (hsame : ∀ i, (s.socket i).Same (f i)) :
      Effect s .disconnect
        { s with
          socket := f
          reconnectTimer := false
          reconnectAttempt := 0
          ws := none
          connectPromise := none
          channelListeners := []
          intentionalClose := false
          away := true }
  | opens (payload : String) (options : List (String × Value)) (channel : String) (next : ℕ)
      (sent : List (ℕ × Value)) :
      Effect s (.openChannel payload options)
        { s with
          nextChannelId := next
          channelListeners := s.channelListeners ++ [⟨channel, s.ws⟩]
          sent := sent }
  | sends (channel : String) (data : Value) (sent : List (ℕ × Value)) :
      Effect s (.send channel data) { s with sent := sent }
  | closes (channel : String) (sent : List (ℕ × Value)) (listeners : List Listener)
      (hsub : listeners ⊆ s.channelListeners) :
      Effect s (.closeChannel channel) { s with sent := sent, channelListeners := listeners }

theorem effect_call (s : State) (c : Call) : Effect s c (s.call c) := by
  cases c with
  | connect =>
    unfold State.call State.connect
    dsimp only
    split
    · exact .waits
    · exact .connects ‹_›
  | disconnect =>
    obtain ⟨f, hclose, hsame⟩ := exists_closeWs
      { s with intentionalClose := true, reconnectTimer := false, reconnectAttempt := 0 }
    unfold State.call State.disconnect
    dsimp only
    rw [hclose]
    exact .leaves f hsame
  | openChannel payload options =>
    unfold State.call State.openChannel
    dsimp only
    obtain ⟨sent, hsent⟩ := exists_send _ _
    rw [hsent]
    exact .opens payload options _ _ sent
  | send channel data =>
    obtain ⟨sent, hsent⟩ := exists_send s
      (.object [("type", .string "data"), ("channel", .string channel), ("data", data)])
    unfold State.call State.sendData
    dsimp only
    rw [hsent]
    exact .sends channel data sent
  | closeChannel channel =>
    unfold State.call State.closeChannel
    dsimp only
    split
    · exact .closes channel s.sent s.channelListeners (List.Subset.refl _)
    · rename_i hsend
      obtain ⟨sent, rfl⟩ := send_eq_some hsend
      exact .closes channel sent _ (List.filter_subset_self _)

theorem Effect.away (h : Effect s c t) : t.away = awayAfter s.away [c] := by
  cases h <;> rfl

theorem Effect.quiet (h : Effect s c t) (hs : s.away → s.reconnectTimer = false) :
    t.away → t.reconnectTimer = false := by
  cases h with
  | waits | connects => exact fun haway => by cases haway
  | leaves => exact fun _ => rfl
  | opens | sends | closes => exact hs

/-- A call leaves the outcomes of the sockets alone. -/
theorem Effect.same (h : Effect s c t) (i : ℕ) : (s.socket i).Same (t.socket i) := by
  cases h with
  | leaves f hsame => exact hsame i
  | waits | connects | opens | sends | closes => exact .refl _

theorem Effect.disturbed (h : Effect s c t) : t.disturbed = s.disturbed := by
  cases h <;> rfl

theorem Effect.failing (h : Effect s c t) : t.failing = s.failing := by
  cases h <;> rfl

/-- Sockets that are the same but for closing handshakes keep the invariant's clauses about them. -/
theorem Invariant.of_same (hI : Invariant s) (hsame : ∀ i, (s.socket i).Same (t.socket i))
    (hfailing : t.failing = s.failing) (hpromise : t.connectPromise = t.ws)
    (howners : ∀ l ∈ t.channelListeners, ∀ j, l.owner = some j → t.ws = some j)
    (hflag : t.intentionalClose = false) : Invariant t where
  promise := hpromise
  owners := howners
  unflagged := hflag
  failed i hi := by
    rw [(hsame i).outcome]
    exact hI.failed i (hfailing ▸ hi)
  sound i :=
    { answered := by
        rw [(hsame i).answered, (hsame i).outcome]
        exact (hI.sound i).answered
      outcome := by
        rw [(hsame i).outcome, (hsame i).answered, (hsame i).closed]
        exact (hI.sound i).outcome }

theorem Effect.invariant (h : Effect s c t) (hI : Invariant s) : Invariant t := by
  have hsame := h.same
  have hfailing := h.failing
  cases h with
  | waits => exact hI.of_same hsame hfailing hI.promise hI.owners hI.unflagged
  | connects hnone =>
    refine hI.of_same hsame hfailing rfl (fun l hl j hj => ?_) hI.unflagged
    have hws : s.ws = some j := hI.owners l hl j hj
    rw [← hI.promise, hnone] at hws
    cases hws
  | leaves => exact hI.of_same hsame hfailing rfl (fun l hl => by cases hl) rfl
  | opens =>
    refine hI.of_same hsame hfailing hI.promise (fun l hl j hj => ?_) hI.unflagged
    obtain hl | hl := List.mem_append.1 hl
    · exact hI.owners l hl j hj
    · obtain rfl := List.mem_singleton.1 hl
      exact hj
  | sends => exact hI.of_same hsame hfailing hI.promise hI.owners hI.unflagged
  | closes _ _ _ hsub =>
    exact hI.of_same hsame hfailing hI.promise (fun l hl => hI.owners l (hsub hl)) hI.unflagged

/-! ## What callbacks call -/

/-- What every call keeps, calls keep. -/
theorem calls_induction {P : State → Prop} (hP : ∀ s c t, Effect s c t → P s → P t) (hs : P s)
    (calls : List Call) : P (s.calls calls) := by
  induction calls generalizing s with
  | nil => exact hs
  | cons c calls ih => exact ih (hP s c _ (effect_call s c) hs)

theorem away_calls (s : State) (calls : List Call) :
    (s.calls calls).away = awayAfter s.away calls := by
  induction calls generalizing s with
  | nil => rfl
  | cons c calls ih =>
    refine (ih (s.call c)).trans ?_
    rw [(effect_call s c).away]
    rfl

theorem awayAfter_append (away : Bool) (calls calls' : List Call) :
    awayAfter away (calls ++ calls') = awayAfter (awayAfter away calls) calls' :=
  List.foldl_append

theorem invariant_calls (hI : Invariant s) (calls : List Call) : Invariant (s.calls calls) :=
  calls_induction (fun _ _ _ h hI => h.invariant hI) hI calls

theorem quiet_calls (hs : s.away → s.reconnectTimer = false) (calls : List Call) :
    (s.calls calls).away → (s.calls calls).reconnectTimer = false :=
  calls_induction (P := fun s => s.away → s.reconnectTimer = false) (fun _ _ _ h => h.quiet) hs
    calls

theorem same_calls (s : State) (calls : List Call) (i : ℕ) :
    (s.socket i).Same ((s.calls calls).socket i) :=
  calls_induction (P := fun t => (s.socket i).Same (t.socket i))
    (fun _ _ _ h hs => hs.trans (h.same i)) (.refl _) calls

theorem disturbed_calls (s : State) (calls : List Call) :
    (s.calls calls).disturbed = s.disturbed :=
  calls_induction (P := fun t => t.disturbed = s.disturbed)
    (fun _ _ _ h hs => h.disturbed.trans hs) rfl calls

/-- Calls do not disturb what is in order. -/
theorem orderly_calls (ho : Orderly s) (calls : List Call) : Orderly (s.calls calls) where
  undisturbed := (disturbed_calls s calls).trans ho.undisturbed
  quiet := quiet_calls ho.quiet calls
  settled i hi := by
    have hsame := same_calls s calls i
    rw [hsame.outcome]
    exact ho.settled i (hsame.closed.1 hi)

/-! ## The reconnect timer -/

/-- The timer is set already, or it is set when the watchers have been told. -/
theorem scheduleReconnect_cases (h : s.scheduleReconnect watchers = some t) :
    (s.reconnectTimer = true ∧ watchers = [] ∧ t = s) ∨
    t = { { s with reconnectAttempt := s.reconnectAttempt + 1 }.calls watchers with
      reconnectTimer := true } := by
  unfold State.scheduleReconnect at h
  split at h
  · rename_i htimer
    obtain ⟨hnil, heq⟩ := Option.ite_none_right_eq_some.1 h
    exact .inl ⟨htimer, List.isEmpty_iff.1 hnil, (Option.some.inj heq).symm⟩
  · cases h
    exact .inr rfl

theorem invariant_scheduleReconnect (hI : Invariant s)
    (h : s.scheduleReconnect watchers = some t) : Invariant t := by
  obtain ⟨-, -, rfl⟩ | rfl := scheduleReconnect_cases h
  · exact hI
  · have hI' : Invariant { s with reconnectAttempt := s.reconnectAttempt + 1 } := { hI with }
    exact { invariant_calls hI' watchers with }

/-- A reconnect is scheduled in order iff nobody has left by then. -/
theorem orderly_scheduleReconnect_iff (hquiet : s.away → s.reconnectTimer = false)
    (h : s.scheduleReconnect watchers = some t) :
    Orderly t ↔ s.disturbed = false ∧
      (∀ i, (s.socket i).readyState = .closed → (s.socket i).outcome.isSome) ∧
      awayAfter s.away watchers = false := by
  obtain ⟨htimer, rfl, rfl⟩ | rfl := scheduleReconnect_cases h
  · have haway : t.away = false := by
      cases haway : t.away with
      | false => rfl
      | true => exact absurd (hquiet haway) (by simp [htimer])
    exact ⟨fun ho => ⟨ho.undisturbed, ho.settled, haway⟩, fun ho => ⟨ho.1, hquiet, ho.2.1⟩⟩
  · -- the watchers call what they like before the timer is set
    have hsame := same_calls { s with reconnectAttempt := s.reconnectAttempt + 1 } watchers
    have haway := away_calls { s with reconnectAttempt := s.reconnectAttempt + 1 } watchers
    have hkept := disturbed_calls { s with reconnectAttempt := s.reconnectAttempt + 1 } watchers
    constructor
    · intro ho
      refine ⟨hkept.symm.trans ho.undisturbed, fun i hi => ?_, ?_⟩
      · have hout := ho.settled i ((hsame i).closed.2 hi)
        exact (hsame i).outcome ▸ hout
      · refine haway.symm.trans (Bool.eq_false_iff.2 fun h => ?_)
        have htimer := ho.quiet h
        cases htimer
    · rintro ⟨hundisturbed, hsettled, hstays⟩
      refine ⟨hkept.trans hundisturbed, fun h => ?_, fun i hi => ?_⟩
      · have hleft := haway.symm.trans h
        rw [hstays] at hleft
        cases hleft
      · have hout := hsettled i ((hsame i).closed.1 hi)
        rw [← (hsame i).outcome] at hout
        exact hout

/-! ## The events of a socket -/

theorem Orderly.of_same (ho : Orderly s) (hsame : ∀ i, (s.socket i).Same (t.socket i))
    (hdisturbed : t.disturbed = s.disturbed) (hquiet : t.away → t.reconnectTimer = false) :
    Orderly t where
  undisturbed := hdisturbed.trans ho.undisturbed
  quiet := hquiet
  settled i hi := by
    rw [(hsame i).outcome]
    exact ho.settled i ((hsame i).closed.1 hi)

/-- `ws?.close()` does no harm. -/
theorem closeWs_spec (s : State) :
    (Invariant s → Invariant s.closeWs) ∧ (Orderly s → Orderly s.closeWs) := by
  obtain ⟨f, hclose, hsame⟩ := exists_closeWs s
  rw [hclose]
  exact ⟨fun hI => hI.of_same hsame rfl hI.promise hI.owners hI.unflagged,
    fun ho => ho.of_same hsame rfl ho.quiet⟩

theorem setSocket_setSocket (s : State) (i : ℕ) (socket socket' : Socket) :
    (s.setSocket i socket).setSocket i socket' = s.setSocket i socket' := by
  unfold State.setSocket
  rw [Function.update_idem]

theorem socket_setSocket (s : State) (i : ℕ) (socket : Socket) :
    (s.setSocket i socket).socket i = socket :=
  Function.update_self ..

/-- The promise of the socket is settled then; of the rest, only the reactions change. -/
theorem exists_settle (s : State) (i : ℕ) (fulfilled : Bool) :
    ∃ outcome attempts reactions, s.settle i fulfilled =
      { s.setSocket i { s.socket i with outcome := some outcome, attempts := attempts } with
        reactions := reactions } := by
  unfold State.settle
  split
  · rename_i outcome houtcome
    refine ⟨outcome, (s.socket i).attempts, s.reactions, ?_⟩
    have hsocket : ({ s.socket i with outcome := some outcome } : Socket) = s.socket i := by
      rw [← houtcome]
    rw [hsocket]
    unfold State.setSocket
    rw [Function.update_eq_self]
  · exact ⟨_, _, _, rfl⟩

theorem invariant_setSocket (hI : Invariant s) {socket : Socket} (hsound : socket.Sound)
    (hout : (s.socket i).outcome.isSome → socket.outcome.isSome) :
    Invariant (s.setSocket i socket) := by
  have hfailed : ∀ j, s.failing = some j →
      (Function.update s.socket i socket j).outcome.isSome :=
    (Function.forall_update_iff s.socket fun j x => s.failing = some j → x.outcome.isSome).2
      ⟨fun hi => hout (hI.failed i hi), fun j _ => hI.failed j⟩
  have hall : ∀ j, (Function.update s.socket i socket j).Sound :=
    (Function.forall_update_iff s.socket fun _ x => x.Sound).2 ⟨hsound, fun j _ => hI.sound j⟩
  exact { hI with failed := hfailed, sound := hall }

/-- A socket may change when its promise stays settled, and is settled once the socket closes. -/
theorem orderly_setSocket (ho : Orderly s) (i : ℕ) (socket : Socket)
    (hout : (s.socket i).outcome.isSome → socket.outcome.isSome)
    (hclosed : socket.readyState = .closed →
      (s.socket i).readyState = .closed ∨ socket.outcome.isSome) :
    Orderly (s.setSocket i socket) := by
  have hall : ∀ j, (Function.update s.socket i socket j).readyState = .closed →
      (Function.update s.socket i socket j).outcome.isSome :=
    (Function.forall_update_iff s.socket fun _ x =>
      x.readyState = .closed → x.outcome.isSome).2
      ⟨fun h => (hclosed h).elim (fun hi => hout (ho.settled i hi)) id, fun j _ => ho.settled j⟩
  exact { ho with settled := hall }

theorem onopen_spec (hI : Invariant s) (hstate : (s.socket i).readyState = .connecting) :
    Invariant (s.onopen i) ∧ (Orderly s → Orderly (s.onopen i)) := by
  have hsound : ({ s.socket i with readyState := .open_ } : Socket).Sound :=
    { answered := (hI.sound i).answered
      outcome := fun h => ((hI.sound i).outcome h).imp_right fun hclosed => by
        rw [hstate] at hclosed
        cases hclosed }
  have hinv := invariant_setSocket hI hsound id
  have hord (ho : Orderly s) :=
    orderly_setSocket ho i { s.socket i with readyState := .open_ } id
      fun hclosed => by cases hclosed
  unfold State.onopen
  dsimp only
  obtain ⟨sent, hsent⟩ := exists_send _ _
  rw [hsent]
  exact ⟨{ hinv with }, fun ho => { hord ho with }⟩

theorem onmessage_spec (hI : Invariant s) (message : Incoming) :
    Invariant (s.onmessage i message) ∧ (Orderly s → Orderly (s.onmessage i message)) := by
  cases message with
  | other => exact ⟨hI, id⟩
  | ping =>
    unfold State.onmessage
    obtain ⟨sent, hsent⟩ := exists_send s (.object [("type", .string "pong")])
    rw [hsent]
    exact ⟨{ hI with }, fun ho => { ho with }⟩
  | authResult success =>
    unfold State.onmessage
    dsimp only
    obtain ⟨outcome, attempts, reactions, hsettle⟩ :=
      exists_settle (s.setSocket i { s.socket i with answered := true }) i success
    rw [setSocket_setSocket, socket_setSocket] at hsettle
    have hsound : ({ s.socket i with
        answered := true, outcome := some outcome, attempts := attempts } : Socket).Sound :=
      ⟨fun _ => rfl, fun _ => .inl rfl⟩
    have hinv := invariant_setSocket (i := i) hI hsound fun _ => rfl
    have hord (ho : Orderly s) :=
      orderly_setSocket ho i { s.socket i with
        answered := true, outcome := some outcome, attempts := attempts } (fun _ => rfl)
        fun _ => .inr rfl
    rw [hsettle]
    split
    · exact ⟨{ hinv with }, fun ho => { hord ho with }⟩
    · obtain ⟨hinv', hord'⟩ := closeWs_spec { s.setSocket i { s.socket i with
          answered := true, outcome := some outcome, attempts := attempts } with
        reactions := reactions }
      exact ⟨hinv' { hinv with }, fun ho => hord' { hord ho with }⟩

theorem onerror_spec (hI : Invariant s) :
    Invariant (s.onerror i) ∧ (Orderly s → Orderly (s.onerror i)) := by
  obtain ⟨outcome, attempts, reactions, hsettle⟩ :=
    exists_settle (s.setSocket i { s.socket i with readyState := .closed }) i false
  rw [setSocket_setSocket, socket_setSocket] at hsettle
  have hsound : ({ s.socket i with
      readyState := .closed, outcome := some outcome, attempts := attempts } : Socket).Sound :=
    ⟨fun _ => rfl, fun _ => .inr rfl⟩
  have hinv := invariant_setSocket (i := i) hI hsound fun _ => rfl
  have hord (ho : Orderly s) :=
    orderly_setSocket ho i { s.socket i with
      readyState := .closed, outcome := some outcome, attempts := attempts } (fun _ => rfl)
      fun _ => .inr rfl
  unfold State.onerror
  rw [hsettle]
  refine ⟨{ hinv with failed := fun j hj => ?_ }, fun ho => { hord ho with }⟩
  obtain rfl : i = j := Option.some.inj hj
  show ((s.setSocket i _).socket i).outcome.isSome
  rw [socket_setSocket]
  rfl

theorem onTimer_spec (hI : Invariant s) :
    Invariant s.onTimer ∧ (Orderly s → Orderly s.onTimer) := by
  unfold State.onTimer
  dsimp only
  split
  · exact ⟨{ hI with }, fun ho => { ho with quiet := fun _ => rfl }⟩
  · have hI' : Invariant ({ s with reconnectTimer := false }.connect) :=
      (effect_call { s with reconnectTimer := false } .connect).invariant { hI with }
    have ho' (ho : Orderly s) : Orderly ({ s with reconnectTimer := false }.connect) :=
      orderly_calls (s := { s with reconnectTimer := false }) { ho with quiet := fun _ => rfl }
        [.connect]
    generalize { s with reconnectTimer := false }.connect = u at hI' ho' ⊢
    split
    · exact ⟨hI', ho'⟩
    · rename_i i _
      split
      · have hsound : ({ u.socket i with attempts := (u.socket i).attempts + 1 } : Socket).Sound :=
          ⟨(hI'.sound i).answered, (hI'.sound i).outcome⟩
        exact ⟨invariant_setSocket hI' hsound id, fun ho => orderly_setSocket (ho' ho) i _ id .inl⟩
      · exact ⟨{ hI' with }, fun ho => { ho' ho with }⟩

/-! ## The close event -/

theorem isNewer_eq_false_iff (ws : Option ℕ) :
    State.isNewer i ws = false ↔ ∀ j ∈ ws, j ≤ i := by
  cases ws with
  | none => simp [State.isNewer]
  | some j => simp [State.isNewer]

/-- The handler takes everything from a newer socket, and nothing if there is none. -/
theorem alters_eq (hI : Invariant s) :
    s.alters i { s with ws := none, connectPromise := none, channelListeners := [] } =
      State.isNewer i s.ws := by
  have howner (l : Listener) (hl : l ∈ s.channelListeners)
      (hnewer : State.isNewer i l.owner = true) : State.isNewer i s.ws = true := by
    obtain ⟨j, hj, hlt⟩ := (Option.any_eq_true _ _).1 hnewer
    rw [hI.owners l hl j hj]
    exact hlt
  unfold State.alters
  rw [hI.promise]
  refine Bool.eq_iff_iff.2 ⟨fun h => ?_, fun h => ?_⟩
  · simp only [Bool.or_eq_true, Bool.and_eq_true, List.any_eq_true] at h
    obtain (⟨hnewer, -⟩ | ⟨hnewer, -⟩) | ⟨l, hl, hnewer, -⟩ := h
    · exact hnewer
    · exact hnewer
    · exact howner l hl hnewer
  · obtain ⟨j, hj, -⟩ := (Option.any_eq_true _ _).1 h
    rw [h, hj]
    rfl

theorem invariant_closes (hI : Invariant s) : Invariant (s.closes i) := by
  have hsound : ({ s.socket i with readyState := .closed } : Socket).Sound :=
    ⟨(hI.sound i).answered, fun _ => .inr rfl⟩
  exact { invariant_setSocket hI hsound id with failed := fun _ h => by cases h }

/-- The promises of the closed sockets are settled when the handler is over iff the one of this
socket was before. -/
theorem settled_closes_iff (ho : Orderly s) (i : ℕ) (listeners : List Call) :
    (∀ j, (((s.closes i).calls listeners).socket j).readyState = .closed →
      (((s.closes i).calls listeners).socket j).outcome.isSome) ↔
    (s.socket i).outcome.isSome := by
  have hsame := same_calls (s.closes i) listeners
  have hself : (s.closes i).socket i = { s.socket i with readyState := .closed } :=
    Function.update_self ..
  constructor
  · intro h
    have hi := h i ((hsame i).closed.2 (by rw [hself]))
    rw [(hsame i).outcome, hself] at hi
    exact hi
  · intro h j hj
    rw [(hsame j).outcome]
    by_cases hji : j = i
    · subst hji
      rw [hself]
      exact h
    · have hother : (s.closes i).socket j = s.socket j := Function.update_of_ne hji ..
      rw [hother]
      refine ho.settled j ?_
      rw [← hother]
      exact (hsame j).closed.1 hj

/-- A promise is settled before the close event by the error event or an auth result. -/
theorem isSome_outcome_iff (hI : Invariant s)
    (hopen : s.failing = some i ∨ (s.socket i).readyState ≠ .closed) :
    (s.socket i).outcome.isSome ↔ s.failing = some i ∨ (s.socket i).answered := by
  constructor
  · intro hout
    obtain hfailing | hstate := hopen
    · exact .inl hfailing
    · exact .inr (((hI.sound i).outcome hout).resolve_right hstate)
  · rintro (hfailing | hanswered)
    · exact hI.failed i hfailing
    · exact (hI.sound i).answered hanswered

theorem onclose_spec (hI : Invariant s)
    (hopen : s.failing = some i ∨ (s.socket i).readyState ≠ .closed)
    (h : s.onclose i listeners watchers = some t) :
    Invariant t ∧ (Orderly s → (Orderly t ↔ InOrder s (.onclose i listeners watchers))) := by
  have hI' := invariant_calls (invariant_closes (i := i) hI) listeners
  have hquiet (ho : Orderly s) := quiet_calls (s := s.closes i) ho.quiet listeners
  have hsettled (ho : Orderly s) := settled_closes_iff ho i listeners
  have hdisturbed := disturbed_calls (s.closes i) listeners
  have haway : ((s.closes i).calls listeners).away = awayAfter s.away listeners :=
    away_calls (s.closes i) listeners
  unfold State.onclose at h
  unfold InOrder
  dsimp only at h ⊢
  generalize (s.closes i).calls listeners = u at *
  rw [alters_eq hI', hdisturbed, hI'.unflagged, if_neg Bool.false_ne_true] at h
  have hcleared : Invariant
      { u with
        ws := none
        connectPromise := none
        channelListeners := []
        intentionalClose := false
        disturbed := (s.closes i).disturbed || State.isNewer i u.ws } :=
    ⟨rfl, (fun l hl => by cases hl), rfl, hI'.failed, hI'.sound⟩
  refine ⟨invariant_scheduleReconnect hcleared h, fun ho => ?_⟩
  refine (orderly_scheduleReconnect_iff (by exact hquiet ho) h).trans ?_
  refine and_congr ?_ (and_congr ?_ ?_)
  · rw [← isNewer_eq_false_iff]
    show ((s.disturbed || State.isNewer i u.ws) = false ↔ _)
    rw [ho.undisturbed, Bool.false_or]
  · exact (hsettled ho).trans (isSome_outcome_iff hI hopen)
  · rw [awayAfter_append, ← haway]

/-! ## Steps -/

theorem invariant_init : Invariant .init :=
  ⟨rfl, (fun l hl => by cases hl), rfl, (fun i h => by cases h),
    fun i => ⟨(fun h => by cases h), fun h => by cases h⟩⟩

theorem orderly_init : Orderly .init := ⟨rfl, fun h => (by cases h), fun i h => by cases h⟩

/-- One action at a time: the invariant stays, and order does iff the action is in order. -/
theorem step_spec (hI : Invariant s) (h : step s a = some t) :
    Invariant t ∧ (Orderly s → (Orderly t ↔ InOrder s a)) := by
  cases a with
  | call c =>
    cases h
    exact ⟨(effect_call s c).invariant hI,
      fun ho => iff_of_true (orderly_calls ho [c]) trivial⟩
  | setSession sessionId =>
    cases h
    exact ⟨{ hI with }, fun ho => iff_of_true { ho with } trivial⟩
  | onopen i =>
    obtain ⟨⟨-, -, hstate⟩, heq⟩ := Option.ite_none_right_eq_some.1 h
    cases heq
    obtain ⟨hI', ho'⟩ := onopen_spec hI hstate
    exact ⟨hI', fun ho => iff_of_true (ho' ho) trivial⟩
  | onmessage i message =>
    obtain ⟨-, heq⟩ := Option.ite_none_right_eq_some.1 h
    cases heq
    obtain ⟨hI', ho'⟩ := onmessage_spec (i := i) hI message
    exact ⟨hI', fun ho => iff_of_true (ho' ho) trivial⟩
  | onerror i =>
    obtain ⟨-, heq⟩ := Option.ite_none_right_eq_some.1 h
    cases heq
    obtain ⟨hI', ho'⟩ := onerror_spec (i := i) hI
    exact ⟨hI', fun ho => iff_of_true (ho' ho) trivial⟩
  | onclose i listeners watchers =>
    obtain ⟨hguard, hclose⟩ := Option.ite_none_right_eq_some.1 h
    refine onclose_spec hI ?_ hclose
    obtain ⟨hfailing, -⟩ | ⟨-, -, hstate | hstate⟩ := hguard
    · exact .inl hfailing
    · exact .inr (by simp [hstate])
    · exact .inr (by simp [hstate])
  | timer =>
    obtain ⟨-, heq⟩ := Option.ite_none_right_eq_some.1 h
    cases heq
    obtain ⟨hI', ho'⟩ := onTimer_spec hI
    exact ⟨hI', fun ho => iff_of_true (ho' ho) trivial⟩
  | reaction watchers =>
    simp only [step] at h
    unfold InOrder
    split at h
    · cases h
    · rename_i rest hreactions
      cases h
      have hI' : Invariant { s with reactions := rest, reconnectAttempt := 0 } := { hI with }
      refine ⟨invariant_calls hI' watchers, fun ho => iff_of_true ?_ ?_⟩
      · have ho' : Orderly { s with reactions := rest, reconnectAttempt := 0 } := { ho with }
        exact orderly_calls ho' watchers
      · rw [hreactions]
        exact fun h => by cases h
    · rename_i rest hreactions
      have hI' : Invariant { s with reactions := rest } := { hI with }
      refine ⟨invariant_scheduleReconnect hI' h, fun ho => ?_⟩
      rw [orderly_scheduleReconnect_iff (by exact ho.quiet) h, hreactions]
      exact ⟨fun h _ => h.2.2, fun h => ⟨ho.undisturbed, ho.settled, h rfl⟩⟩

end

/-! ## Runs -/

/-- The transport keeps its sockets apart throughout a run iff every close event and every failed
reconnect attempt comes in order. -/
theorem orderly_iff (as : List Action) (t : State) (hr : run step .init as = some t) :
    Always step Orderly .init as ↔ Meets step InOrder .init as :=
  always_iff_meets (fun _ _ _ hI h => (step_spec hI h).1)
    (fun _ _ _ hI ho h => (step_spec hI h).2 ho) invariant_init orderly_init hr

/-- The gateway is restarted while someone is logged in, and the page connects again. -/
def restarted : List Action :=
  [.setSession "s1", .call .connect, .onopen 0, .onmessage 0 (.authResult true),
    .call (.openChannel "system.info" []), .onclose 0 [.closeChannel "1"] [], .timer, .onopen 1,
    .onmessage 1 (.authResult true), .reaction []]

theorem orderly_restarted : Always step Orderly .init restarted :=
  (orderly_iff restarted _ rfl).2 (by decide)

/-- The page of a host goes, and the next one comes before the old socket is closed. -/
def revisited : List Action :=
  [.setSession "s1", .call .connect, .onopen 0, .onmessage 0 (.authResult true),
    .call .disconnect, .call .connect, .onclose 0 [] []]

/-- Someone logs out, and the socket is closed a little later. -/
def loggedOut : List Action :=
  [.setSession "s1", .call .connect, .onopen 0, .onmessage 0 (.authResult true),
    .call .disconnect, .setSession "", .onclose 0 [] []]

/-- The gateway goes down before it has answered. -/
def unanswered : List Action :=
  [.setSession "s1", .call .connect, .onopen 0, .onclose 0 [] []]

/-- The new socket is gone, a reconnect is scheduled for nobody, and a promise stays open. -/
theorem not_orderly :
    (∃ t, run step .init revisited = some t ∧ t.disturbed = true ∧ t.ws = none ∧
      (t.socket 1).readyState = .connecting ∧ ¬ Always step Orderly .init revisited) ∧
    (∃ t, run step .init loggedOut = some t ∧ t.away = true ∧ t.reconnectTimer = true ∧
      ¬ Always step Orderly .init loggedOut) ∧
    ∃ t, run step .init unanswered = some t ∧ (t.socket 0).readyState = .closed ∧
      (t.socket 0).outcome = none ∧ ¬ Always step Orderly .init unanswered := by
  refine ⟨⟨_, rfl, rfl, rfl, rfl, fun h => ?_⟩, ⟨_, rfl, rfl, rfl, fun h => ?_⟩,
    ⟨_, rfl, rfl, rfl, fun h => ?_⟩⟩
  · have hlast := (h.last (t := _) rfl).undisturbed
    exact absurd hlast (by decide)
  · have hlast := (h.last (t := _) rfl).quiet rfl
    exact absurd hlast (by decide)
  · have hlast := (h.last (t := _) rfl).settled 0 rfl
    exact absurd hlast (by decide)

end Tenodera.Ui.Transport
