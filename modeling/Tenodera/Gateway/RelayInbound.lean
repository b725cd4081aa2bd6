import Tenodera.Gateway.RelayTables
import Tenodera.Lib.Fifo

/-!
# The order of messages from an agent

On its way to an owner a message waits twice: in the hands of the reader, and in the inbox of the
attachment.  What the owner receives is a beginning of what the reader took for it; as long as the
receiver lives nothing is lost in between.
-/

namespace Tenodera.Gateway.Relay

open Protocol Fifo

variable {s t : State} {act : Action} {a : Attachment}

/-- The messages that the reader of a connection takes for `a`, with the client's channel id. -/
def arrival (a : Attachment) (s : State) : Action → List Message
  | .agentRecv c m =>
    if decodes m then
      match stripPrefixFromMessage m with
      | none => []
      | some (stripped, pfx) =>
        if (s.conn c).subscribers.lookup pfx = some a then [stripped] else []
    else []
  | _ => []

/-- The messages an event passes on to the owner of `a`: the browser or the caller. -/
def Event.passedTo (a : Attachment) : Event → List Message
  | .toBrowser b frame | .toCaller b frame => if b = a then [frame.msg] else []
  | _ => []

/-- The messages passed on to the owner of `a`, the first one first. -/
def passed (a : Attachment) (log : List Event) : List Message :=
  log.reverse.flatMap (Event.passedTo a)

/-- The message that a reader has in hand for `a`. -/
def Reader.inHand (a : Attachment) : Reader → List Message
  | .dispatching frame b => if b = a then [frame.msg] else []
  | _ => []

/-- What is on its way to the owner of `a` inside the gateway. -/
def State.incoming (s : State) (a : Attachment) : List Message :=
  (s.link a).inbox.map Frame.msg ++ (s.conn a.conn).reader.inHand a

@[simp]
theorem passed_nil : passed a [] = [] := rfl

theorem passed_cons (e : Event) (log : List Event) :
    passed a (e :: log) = passed a log ++ e.passedTo a := by
  simp [passed]

/-! ## Inboxes -/

attribute [local simp] Function.update_apply State.setConn State.setLink State.setSession
  State.setRpc State.emit State.attach State.enqueue State.release State.retain rpcDone passed_cons
  Event.passedTo

/-- The moves of the inbox of `a` and of what its owner has received. -/
inductive InboxMoves (s t : State) (a : Attachment) : Action → Prop
  | kept {act : Action} (inbox : (t.link a).inbox = (s.link a).inbox)
      (alive : (t.link a).inboxAlive = (s.link a).inboxAlive)
      (passed : passed a t.log = passed a s.log) : InboxMoves s t a act
  | filled {c : ConnId} {frame : Frame} (dispatching : (s.conn c).reader = .dispatching frame a)
      (inbox : (t.link a).inbox = (s.link a).inbox ++ [frame])
      (alive : (t.link a).inboxAlive = (s.link a).inboxAlive)
      (passed : passed a t.log = passed a s.log) : InboxMoves s t a (.dispatch c)
  | emptied {act : Action} {frame : Frame} (inbox : (s.link a).inbox = frame :: (t.link a).inbox)
      (alive : (t.link a).inboxAlive = (s.link a).inboxAlive)
      (passed : passed a t.log = passed a s.log ++ [frame.msg]) : InboxMoves s t a act
  | opened {act : Action} (attaches : Attaches s act a) (fresh : a ∉ s.attached)
      (inbox : (t.link a).inbox = []) (passed : passed a t.log = passed a s.log) :
      InboxMoves s t a act
  | closed {act : Action} (inbox : (t.link a).inbox = []) (alive : (t.link a).inboxAlive = false)
      (passed : passed a t.log = passed a s.log) : InboxMoves s t a act

theorem inboxMoves_of_effect (h : Effect s act t) (a : Attachment) : InboxMoves s t a act := by
  cases h with
  | @delivered c frame b dispatching alive =>
    by_cases hb : a = b
    · subst hb
      exact .filled dispatching (by simp) (by simp) rfl
    · exact .kept (by simp [hb]) (by simp [hb]) rfl
  | @connected w p connecting fresh _ =>
    by_cases hp : a = p.attachment
    · subst hp
      exact .opened (.session connecting) fresh (by simp) rfl
    · exact .kept (by simp [hp]) (by simp [hp]) rfl
  | @rpcSubscribed r b payload requestData subscribing fresh _ =>
    by_cases hb : a = b
    · subst hb
      exact .opened (.call subscribing) fresh (by simp) rfl
    · exact .kept (by simp [hb]) (by simp [hb]) rfl
  | @forwarded b w frame rest _ _ queue | @reported b w frame rest channel problem _ _ queue _
  | @rpcReceived r b frame rest _ queue =>
    by_cases hb : a = b
    · subst hb
      exact .emptied (by simpa using queue) (by simp) (by simp)
    · exact .kept (by simp [hb]) (by simp [hb]) (by simp [Ne.symm hb])
  | @forwarderEnded b =>
    by_cases hb : a = b
    · subst hb
      exact .closed (by simp) (by simp) rfl
    · exact .kept (by simp [hb]) (by simp [hb]) rfl
  | @rpcClosed r b m _ | @rpcRejected r b _ | @rpcGivenUp r b _ =>
    by_cases hb : a = b
    · subst hb
      exact .closed (by simp) (by simp) (by simp)
    · exact .kept (by simp [hb]) (by simp [hb]) (by simp)
  | @opened w p _ _ | @closed w m serial channel b _ _ _ | @routed w m serial channel b _ _ =>
    refine .kept ?_ ?_ (by simp)
    · simp
      split_ifs with hb <;> first | rfl | rw [hb]
    · simp
      split_ifs with hb <;> first | rfl | rw [hb]
  | @proxyEnded b | @proxied b m rest _ _ =>
    refine .kept ?_ ?_ (by simp)
    · simp
      split_ifs with hb <;> first | rfl | rw [hb]
    · simp
      split_ifs with hb <;> first | rfl | rw [hb]
  | _ => exact .kept rfl rfl (by simp)

/-! ## In hand -/

/-- Only taking and dispatching a message changes what a reader has in hand. -/
theorem inHand_of_effect (h : Effect s act t) (hrecv : ∀ c m, act ≠ .agentRecv c m)
    (hdispatch : ∀ c, act ≠ .dispatch c) (c : ConnId) :
    (t.conn c).reader.inHand a = (s.conn c).reader.inHand a := by
  rcases reader_of_effect h c with heq | hmoves
  · rw [heq]
  · generalize (t.conn c).reader = reader at hmoves ⊢
    cases hmoves with
    | takes _ _ _ => exact absurd rfl (hrecv _ _)
    | releases _ => exact absurd rfl (hdispatch _)
    | up absent => rw [absent]; rfl
    | ends reading => rw [reading]; rfl
    | unregisters ended => rw [ended]; rfl
    | closes unregistered => rw [unregistered]; rfl

/-- The reader takes exactly what arrives, and nothing else changes on the way to an owner. -/
theorem agentRecv_incoming (hs : Wf s) {c : ConnId} {m : Message} (h : agentRecv c m s = some t) :
    t.incoming a = s.incoming a ++ arrival a s (.agentRecv c m) ∧ t.link = s.link ∧
      t.attached = s.attached ∧ passed a t.log = passed a s.log := by
  simp only [agentRecv] at h
  split at h
  case h_2 => cases h
  case h_1 reading =>
  have hkept : (s.emit (.fromAgent c m)).incoming a = s.incoming a := rfl
  have hpassed : passed a (s.emit (.fromAgent c m)).log = passed a s.log := by simp
  split_ifs at h with hdecodes
  · split at h
    · rename_i strip
      cases h
      simp only [arrival, if_pos hdecodes, strip]
      exact ⟨by simpa using hkept, rfl, rfl, hpassed⟩
    · rename_i stripped pfx strip
      split at h
      · rename_i unsubscribed
        cases h
        simp only [arrival, if_pos hdecodes, strip, unsubscribed]
        exact ⟨by simpa using hkept, rfl, rfl, hpassed⟩
      · rename_i b subscribed
        cases h
        have hb : b.conn = c := (hs.subscribed c pfx b subscribed).2.1
        refine ⟨?_, rfl, rfl, hpassed⟩
        simp only [arrival, if_pos hdecodes, strip, subscribed, Option.some.injEq]
        by_cases ha : b = a
        · subst ha
          simp [State.incoming, Reader.inHand, hb, reading]
        · by_cases hc : a.conn = c
          · simp [State.incoming, Reader.inHand, hc, reading, ha]
          · simp [State.incoming, hc, ha]
  · cases h
    simp only [arrival, if_neg hdecodes]
    exact ⟨by simpa using hkept, rfl, rfl, hpassed⟩

/-- What the reader had in hand for a living receiver is in the inbox now. -/
theorem dispatch_incoming (hs : Wf s) {c : ConnId} (h : dispatch c s = some t) :
    (t.link a).inboxAlive = (s.link a).inboxAlive ∧ passed a t.log = passed a s.log ∧
      ((s.link a).inboxAlive → t.incoming a = s.incoming a) ∧
      ((s.link a).inboxAlive = false → (t.link a).inbox = (s.link a).inbox) := by
  simp only [dispatch] at h
  split at h
  case h_2 => cases h
  case h_1 frame b dispatching =>
  have hb : b.conn = c := (hs.dispatching c frame b dispatching).2
  have hhand (hba : b ≠ a) :
      (if a.conn = c then Reader.reading else (s.conn a.conn).reader).inHand a =
        (s.conn a.conn).reader.inHand a := by
    split_ifs with hc
    · simp [hc, dispatching, Reader.inHand, hba]
    · rfl
  split_ifs at h with halive
  · cases h
    by_cases hba : b = a
    · subst hba
      exact ⟨by simp, rfl, fun _ => by simp [State.incoming, Reader.inHand, hb, dispatching],
        fun hdead => absurd halive (by simp [hdead])⟩
    · have hhand := hhand hba
      refine ⟨by simp [Ne.symm hba], rfl, fun _ => ?_, fun _ => by simp [Ne.symm hba]⟩
      simp only [State.incoming, State.setLink, State.setConn, Function.update_apply,
        if_neg (Ne.symm hba), apply_ite Conn.reader, hhand]
  · cases h
    refine ⟨rfl, rfl, fun ha => ?_, fun _ => rfl⟩
    have hba : b ≠ a := fun hba => halive (hba ▸ ha)
    have hhand := hhand hba
    simp only [State.incoming, State.setConn, Function.update_apply, apply_ite Conn.reader, hhand]

/-! ## Runs -/

/-- What has arrived for `a` so far is what its owner has received, and what is on its way. -/
structure Inbound (a : Attachment) (s : State) (arrived : List Message) : Prop where
  wf : Wf s
  early : a ∉ s.attached → arrived = []
  tracks : Tracks arrived (passed a s.log) (s.incoming a) (s.link a).inboxAlive
  gone : (s.link a).inboxAlive = false → (s.link a).inbox = []

theorem inbound_init (a : Attachment) : Inbound a State.init [] where
  wf := wf_init
  early _ := rfl
  tracks := .empty
  gone _ := rfl

theorem attached_of_arrival (hs : Wf s) (h : arrival a s act ≠ []) : a ∈ s.attached := by
  cases act with
  | agentRecv c m =>
    simp only [arrival] at h
    split_ifs at h
    · split at h
      · exact absurd rfl h
      · split_ifs at h with subscribed
        · exact (hs.subscribed c _ a subscribed).1
        · exact absurd rfl h
    · exact absurd rfl h
  | _ => exact absurd rfl h

theorem Inbound.of_agentRecv {arrived : List Message} (hs : Inbound a s arrived) {c : ConnId}
    {m : Message} (h : step s (.agentRecv c m) = some t) :
    Inbound a t (arrived ++ arrival a s (.agentRecv c m)) := by
  obtain ⟨hincoming, hlink, hattached, hpassed⟩ := agentRecv_incoming (a := a) hs.wf h
  constructor
  · exact hs.wf.of_effect (step_effect h)
  · intro ha
    rw [hattached] at ha
    have hnone : arrival a s (.agentRecv c m) = [] := by
      by_contra hne
      exact ha (attached_of_arrival hs.wf hne)
    rw [hs.early ha, hnone]
    rfl
  · rw [hincoming, hlink, hpassed]
    exact hs.tracks.push _
  · rw [hlink]
    exact hs.gone

theorem Inbound.of_moves {arrived : List Message} (hs : Inbound a s arrived) (h : Effect s act t)
    (hrecv : ∀ c m, act ≠ .agentRecv c m) (hdispatch : ∀ c, act ≠ .dispatch c) :
    Inbound a t arrived := by
  have hhand := inHand_of_effect (a := a) h hrecv hdispatch a.conn
  have hearly (ha : a ∉ t.attached) : arrived = [] := hs.early fun hs => ha (attached_mono h hs)
  have hwf := hs.wf.of_effect h
  have htracks := hs.tracks
  cases inboxMoves_of_effect h a with
  | kept inbox alive passed =>
    refine ⟨hwf, hearly, ?_, by rw [alive, inbox]; exact hs.gone⟩
    rw [State.incoming, hhand, inbox, alive, passed]
    exact htracks
  | filled _ _ _ _ => exact absurd rfl (hdispatch _)
  | @emptied _ frame inbox alive passed =>
    have halive : (s.link a).inboxAlive := by
      by_contra hdead
      rw [hs.gone (by simpa using hdead)] at inbox
      cases inbox
    refine ⟨hwf, hearly, ?_, fun hdead => by rw [alive, halive] at hdead; cases hdead⟩
    rw [State.incoming, hhand, alive, passed]
    rw [State.incoming, inbox] at htracks
    exact htracks.pop [frame.msg] halive
  | opened _ fresh inbox passed =>
    have hnone := hs.early fresh
    refine ⟨hwf, hearly, ?_, fun _ => inbox⟩
    have hempty : (s.conn a.conn).reader.inHand a = [] := by
      cases hreader : (s.conn a.conn).reader with
      | dispatching frame b =>
        have hb : b ≠ a := fun hb => fresh (hb ▸ (hs.wf.dispatching _ frame b hreader).1)
        exact if_neg hb
      | _ => rfl
    rw [State.incoming, hhand, inbox, hempty, passed, hnone]
    rw [hnone] at htracks
    exact htracks.reopen
  | closed inbox alive passed =>
    refine ⟨hwf, hearly, ?_, fun _ => inbox⟩
    have hclosed : Tracks (arrived ++ []) (Relay.passed a s.log) (t.incoming a)
        ((t.link a).inboxAlive = true) := htracks.close [] (by simp [alive])
    rw [passed]
    simpa using hclosed

theorem Inbound.of_dispatch {arrived : List Message} (hs : Inbound a s arrived) {c : ConnId}
    (h : step s (.dispatch c) = some t) : Inbound a t arrived := by
  have heffect := step_effect h
  have hearly (ha : a ∉ t.attached) : arrived = [] :=
    hs.early fun hs => ha (attached_mono heffect hs)
  have hwf := hs.wf.of_effect heffect
  obtain ⟨halive, hpassed, hincoming, hinbox⟩ := dispatch_incoming (a := a) hs.wf h
  refine ⟨hwf, hearly, ?_, fun hdead => ?_⟩
  · rw [hpassed, halive]
    refine ⟨hs.tracks.inOrder, fun ha => ?_⟩
    rw [hincoming ha]
    exact hs.tracks.complete ha
  · rw [halive] at hdead
    rw [hinbox hdead]
    exact hs.gone hdead

theorem Inbound.of_step {arrived : List Message} (hs : Inbound a s arrived)
    (h : step s act = some t) : Inbound a t (arrived ++ arrival a s act) := by
  cases act with
  | agentRecv c m => exact hs.of_agentRecv h
  | dispatch c => simpa [arrival] using hs.of_dispatch h
  | _ => simpa [arrival] using hs.of_moves (step_effect h) (by simp) (by simp)

/-- What has arrived for `a` in a run. -/
def arrivals (a : Attachment) (as : List Action) : List Message :=
  Transition.observed step (arrival a) State.init as

theorem inbound_of_run {as : List Action} (h : Transition.run step State.init as = some s)
    (a : Attachment) : Inbound a s (arrivals a as) :=
  Transition.invariant_of_observed (Inbound a) (fun _ _ _ _ hs h => hs.of_step h) (inbound_init a) h

/-- The owner of an attachment receives the messages that the agent's connection took for it in
their order, each at most once; while its receiver lives, those it has not received are in its inbox
or in the reader's hands. -/
theorem passed_in_order {as : List Action} (h : Transition.run step State.init as = some s)
    (a : Attachment) :
    passed a s.log <+: arrivals a as ∧
      ((s.link a).inboxAlive → arrivals a as = passed a s.log ++ s.incoming a) :=
  ⟨(inbound_of_run h a).tracks.inOrder, (inbound_of_run h a).tracks.complete⟩

/-- The agent prints twice; the browser has been sent the first message when the reader has the
second one in hand. -/
def printsTwice : List Action :=
  [.agentUp webConn, .wsUp (alice 0)] ++ opensTerminal (alice 0) "1" "web" ++
    [.agentRecv webConn (.data "3f2b8c1e-1" (.string "ls")), .dispatch webConn,
      .forward ⟨.ws (alice 0), webConn, 0⟩,
      .agentRecv webConn (.data "3f2b8c1e-1" (.string "$ "))]

theorem passed_in_order_printsTwice : ∃ s, Transition.run step State.init printsTwice = some s ∧
    passed ⟨.ws (alice 0), webConn, 0⟩ s.log = [.data "1" (.string "ls")] ∧
    arrivals ⟨.ws (alice 0), webConn, 0⟩ printsTwice =
      passed ⟨.ws (alice 0), webConn, 0⟩ s.log ++ s.incoming ⟨.ws (alice 0), webConn, 0⟩ := by
  refine ⟨_, rfl, rfl, ?_⟩
  exact (passed_in_order (rfl : Transition.run step State.init printsTwice = _) _).2 rfl

end Tenodera.Gateway.Relay
