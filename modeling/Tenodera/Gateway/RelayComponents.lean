import Tenodera.Gateway.RelaySteps
import Tenodera.Lib.Table

/-!
# Where the relay's state comes from

For every component of the state one lemma says where a new value of the component comes from.  The
invariants are derived from these lemmas and never look at the outcomes of a step.  The last case of
each proof is the outcomes that leave the component alone.
-/

namespace Tenodera.Gateway.Relay

open Protocol

variable {s t : State} {act : Action}

/-! ## Connections -/

attribute [local simp] Function.update_apply State.setConn State.setLink State.setSession
  State.setRpc State.emit State.attach State.enqueue State.release State.retain rpcDone
  AList.lookup_insert_eq_some_iff AList.lookup_erase_eq_some_iff

theorem registry_of_effect (h : Effect s act t) {host : String} {c : ConnId}
    (hc : t.registry.lookup host = some c) :
    s.registry.lookup host = some c ∨
      c.host = host ∧ (s.conn c).reader = .absent ∧ (t.conn c).reader = .reading := by
  cases h with
  | agentUp absent =>
    rcases AList.lookup_insert_eq_some_iff.1 hc with ⟨rfl, rfl⟩ | ⟨-, hc⟩
    · exact .inr ⟨rfl, absent, by simp⟩
    · exact .inl hc
  | kicked _ | unregistered _ => exact .inl (AList.lookup_erase_eq_some_iff.1 hc).2
  | _ => exact .inl hc

theorem registry_kept (h : Effect s act t) {host : String} {c : ConnId}
    (hc : s.registry.lookup host = some c) :
    t.registry.lookup host = some c ∨ act = .kick host ∨
      ∃ d : ConnId, d.host = host ∧ (act = .agentUp d ∨ act = .cleanup d) := by
  cases h with
  | @agentUp d absent =>
    by_cases hhost : d.host = host
    · exact .inr (.inr ⟨d, hhost, .inl rfl⟩)
    · exact .inl (AList.lookup_insert_eq_some_iff.2 (.inr ⟨Ne.symm hhost, hc⟩))
  | @kicked host' d registered =>
    by_cases hhost : host' = host
    · exact .inr (.inl (by rw [hhost]))
    · exact .inl (AList.lookup_erase_eq_some_iff.2 ⟨Ne.symm hhost, hc⟩)
  | @unregistered d ended =>
    by_cases hhost : d.host = host
    · exact .inr (.inr ⟨d, hhost, .inr rfl⟩)
    · exact .inl (AList.lookup_erase_eq_some_iff.2 ⟨Ne.symm hhost, hc⟩)
  | _ => exact .inl hc

/-- The moves of the reader of `c`. -/
inductive ReaderMoves (s : State) (c : ConnId) : Action → Reader → Prop
  | up (absent : (s.conn c).reader = .absent) : ReaderMoves s c (.agentUp c) .reading
  | takes {m stripped : Message} {pfx : String} {a : Attachment}
      (reading : (s.conn c).reader = .reading)
      (strip : stripPrefixFromMessage m = some (stripped, pfx))
      (subscribed : (s.conn c).subscribers.lookup pfx = some a) :
      ReaderMoves s c (.agentRecv c m)
        (.dispatching ⟨stripped, m.channel.bind fun ch => lastOpener c ch s.log⟩ a)
  | releases {frame : Frame} {a : Attachment}
      (dispatching : (s.conn c).reader = .dispatching frame a) :
      ReaderMoves s c (.dispatch c) .reading
  | ends (reading : (s.conn c).reader = .reading) : ReaderMoves s c (.agentGone c) .ended
  | unregisters (ended : (s.conn c).reader = .ended) : ReaderMoves s c (.cleanup c) .unregistered
  | closes (unregistered : (s.conn c).reader = .unregistered) :
      ReaderMoves s c (.abortWriter c) .closed

theorem reader_of_effect (h : Effect s act t) (c : ConnId) :
    (t.conn c).reader = (s.conn c).reader ∨ ReaderMoves s c act (t.conn c).reader := by
  cases h with
  | @agentUp d absent =>
    by_cases hc : c = d
    · subst hc
      exact .inr (by simpa using .up absent)
    · exact .inl (by simp [hc])
  | @taken d m stripped pfx a reading strip subscribed =>
    by_cases hc : c = d
    · subst hc
      exact .inr (by simpa using .takes reading strip subscribed)
    · exact .inl (by simp [hc])
  | @delivered d frame a dispatching _ | @lost d frame a dispatching =>
    by_cases hc : c = d
    · subst hc
      exact .inr (by simpa using .releases dispatching)
    · exact .inl (by simp [hc])
  | @agentGone d reading =>
    by_cases hc : c = d
    · subst hc
      exact .inr (by simpa using .ends reading)
    · exact .inl (by simp [hc])
  | @unregistered d ended =>
    by_cases hc : c = d
    · subst hc
      exact .inr (by simpa using .unregisters ended)
    · exact .inl (by simp [hc])
  | @writerAborted d unregistered =>
    by_cases hc : c = d
    · subst hc
      exact .inr (by simpa using .closes unregistered)
    · exact .inl (by simp [hc])
  | _ =>
    left
    first
      | rfl
      | (simp
         split_ifs with hc <;> first | rfl | rw [hc])

/-- The agent is connected: its reader takes frames. -/
def Reader.isLive : Reader → Bool
  | reading | dispatching _ _ => true
  | _ => false

theorem isLive_of_effect (h : Effect s act t) {c : ConnId} (hstarted : (s.conn c).reader ≠ .absent)
    (hc : (t.conn c).reader.isLive) : (s.conn c).reader.isLive := by
  rcases reader_of_effect h c with heq | hmoves
  · rwa [← heq]
  · generalize (t.conn c).reader = reader at hc hmoves
    cases hmoves with
    | up absent => exact absurd absent hstarted
    | takes reading _ _ => rw [reading]; rfl
    | releases dispatching => rw [dispatching]; rfl
    | _ => cases hc

/-! ## Attachments and subscribers -/

def Owner.session : Owner → Option WsId
  | ws w => some w
  | rpc _ => none

/-- The attachment that an owner is about to set up: in `connect_session`, or at the start of
`execute_rpc`. -/
def State.pending (s : State) : Owner → Option Attachment
  | .ws w =>
    match (s.session w).loop with
    | .connecting p => some p.attachment
    | _ => none
  | .rpc r =>
    match s.rpc r with
    | .subscribing a _ _ => some a
    | _ => none

/-- The step attaches `a`. -/
inductive Attaches (s : State) : Action → Attachment → Prop
  | session {w : WsId} {p : PendingOpen} (connecting : (s.session w).loop = .connecting p) :
      Attaches s (.wsConnect w) p.attachment
  | call {r : RpcId} {a : Attachment} {payload : String} {requestData : Value}
      (subscribing : s.rpc r = .subscribing a payload requestData) :
      Attaches s (.rpcSubscribe r) a

theorem attached_of_effect (h : Effect s act t) {a : Attachment} (ha : a ∈ t.attached) :
    a ∈ s.attached ∨
      Attaches s act a ∧ (t.conn a.conn).subscribers.lookup a.owner.pfx = some a := by
  cases h with
  | connected connecting _ _ =>
    rcases List.mem_cons.1 ha with rfl | ha
    · exact .inr ⟨.session connecting, by simp⟩
    · exact .inl ha
  | rpcSubscribed subscribing _ _ =>
    rcases List.mem_cons.1 ha with rfl | ha
    · exact .inr ⟨.call subscribing, by simp⟩
    · exact .inl ha
  | _ => exact .inl ha

theorem attached_mono (h : Effect s act t) {a : Attachment} (ha : a ∈ s.attached) :
    a ∈ t.attached := by
  cases h with
  | connected _ _ _ | rpcSubscribed _ _ _ => exact List.mem_cons_of_mem _ ha
  | _ => exact ha

/-- The attachment whose entry a call still has to remove. -/
def Rpc.subscribed : Rpc → Option Attachment
  | opening a _ _ | awaitReady a _ | sending a _ | awaitResponse a | unsubscribing a _ => some a
  | _ => none

/-- The changes of an entry among the subscribers. -/
inductive SubscriberMoves (s t : State) (act : Action) :
    ConnId → String → Option Attachment → Prop
  | up {c : ConnId} {pfx : String} (absent : (s.conn c).reader = .absent) :
      SubscriberMoves s t act c pfx none
  | attaches {a : Attachment} (attaches : Attaches s act a) (attached : a ∈ t.attached) :
      SubscriberMoves s t act a.conn a.owner.pfx (some a)
  | removes {r : RpcId} {a : Attachment} (subscribed : (s.rpc r).subscribed = some a)
      (unsubscribed : (t.rpc r).subscribed = none) :
      SubscriberMoves s t act a.conn a.owner.pfx none

theorem subscribers_of_effect (h : Effect s act t) (c : ConnId) (pfx : String) :
    (t.conn c).subscribers.lookup pfx = (s.conn c).subscribers.lookup pfx ∨
      SubscriberMoves s t act c pfx ((t.conn c).subscribers.lookup pfx) := by
  cases h with
  | @agentUp d absent =>
    by_cases hc : c = d
    · subst hc
      exact .inr (by simpa using .up absent)
    · exact .inl (by simp [hc])
  | @connected w p connecting _ _ =>
    by_cases hc : c = p.attachment.conn
    · subst hc
      by_cases hp : pfx = p.attachment.owner.pfx
      · subst hp
        exact .inr (by simpa using .attaches (.session connecting) (by simp))
      · exact .inl (by simp [AList.lookup_insert_ne hp])
    · exact .inl (by simp [hc])
  | @rpcSubscribed r a payload requestData subscribing _ _ =>
    by_cases hc : c = a.conn
    · subst hc
      by_cases hp : pfx = a.owner.pfx
      · subst hp
        exact .inr (by simpa using .attaches (.call subscribing) (by simp))
      · exact .inl (by simp [AList.lookup_insert_ne hp])
    · exact .inl (by simp [hc])
  | @rpcUnsubscribed r a unsubscribing | @rpcRejected r a unsubscribing =>
    have hs : (s.rpc r).subscribed = some a := by rw [unsubscribing]; rfl
    by_cases hc : c = a.conn
    · subst hc
      by_cases hp : pfx = a.owner.pfx
      · subst hp
        exact .inr (by simpa using .removes hs (by simp [Rpc.subscribed]))
      · exact .inl (by simp [AList.lookup_erase_ne hp])
    · exact .inl (by simp [hc])
  | _ =>
    left
    first
      | rfl
      | (simp
         split_ifs with hc <;> first | rfl | rw [hc])

/-! ## Queues -/

/-- A message enters an inbox only from the hands of a reader. -/
theorem inbox_of_effect (h : Effect s act t) {a : Attachment} {frame : Frame}
    (hf : frame ∈ (t.link a).inbox) :
    frame ∈ (s.link a).inbox ∨
      (s.link a).inboxAlive ∧ ∃ c, (s.conn c).reader = .dispatching frame a := by
  cases h with
  | @delivered c f b dispatching alive =>
    by_cases ha : a = b
    · subst ha
      have hmem : frame ∈ (s.link a).inbox ∨ frame = f := by simpa using hf
      rcases hmem with hmem | rfl
      · exact .inl hmem
      · exact .inr ⟨alive, c, dispatching⟩
    · exact .inl (by simpa [ha] using hf)
  | @forwarded b _ f rest _ _ queue | @reported b _ f rest _ _ _ _ queue _
  | @rpcReceived _ b f rest _ queue =>
    left
    by_cases ha : a = b
    · subst ha
      rw [queue]
      exact List.mem_cons_of_mem _ (by simpa using hf)
    · simpa [ha] using hf
  | _ =>
    left
    first
      | exact hf
      | (simp at hf
         split_ifs at hf with ha <;> first | exact hf | exact ha ▸ hf | cases hf)

theorem inboxAlive_of_effect (h : Effect s act t) {a : Attachment}
    (ha : (t.link a).inboxAlive) :
    (s.link a).inboxAlive ∨ Attaches s act a ∧ a ∈ t.attached := by
  cases h with
  | @connected w p connecting _ _ =>
    by_cases hp : a = p.attachment
    · subst hp
      exact .inr ⟨.session connecting, by simp⟩
    · exact .inl (by simpa [hp] using ha)
  | @rpcSubscribed r b payload requestData subscribing _ _ =>
    by_cases hb : a = b
    · subst hb
      exact .inr ⟨.call subscribing, by simp⟩
    · exact .inl (by simpa [hb] using ha)
  | _ =>
    left
    first
      | exact ha
      | (simp at ha
         split_ifs at ha with hb <;> first | exact ha | exact hb ▸ ha)

theorem proxyAlive_of_effect (h : Effect s act t) {a : Attachment}
    (ha : (t.link a).proxyAlive) :
    (s.link a).proxyAlive ∨ (∃ w, s.pending (.ws w) = some a) ∧ a ∈ t.attached := by
  cases h with
  | @connected w p connecting _ _ =>
    by_cases hp : a = p.attachment
    · subst hp
      exact .inr ⟨⟨w, by simp [State.pending, connecting]⟩, by simp⟩
    · exact .inl (by simpa [hp] using ha)
  | _ =>
    left
    first
      | exact ha
      | (simp at ha
         split_ifs at ha with hb <;> first | exact ha | exact hb ▸ ha)

/-- The session holds a sender to the proxy task of `a`. -/
def Session.holds (session : Session) (a : Attachment) : Prop :=
  (∃ p, session.loop = .opening p ∧ p.attachment = a) ∨
    (∃ host, session.remoteSenders.lookup host = some a) ∨
      ∃ channel, session.routes.lookup channel = some a

instance (session : Session) (a : Attachment) : Decidable (session.holds a) :=
  have : Decidable (∃ p, session.loop = .opening p ∧ p.attachment = a) :=
    match hloop : session.loop with
    | .opening p => decidable_of_iff (p.attachment = a) (by simp)
    | .absent | .select | .connecting _ | .ended => .isFalse (by simp)
  have : Decidable (∃ host, session.remoteSenders.lookup host = some a) :=
    decidable_of_iff' _ AList.exists_lookup_iff
  have : Decidable (∃ channel, session.routes.lookup channel = some a) :=
    decidable_of_iff' _ AList.exists_lookup_iff
  inferInstanceAs (Decidable (_ ∨ _ ∨ _))

/-- Only sessions that hold the sender put messages into the queue of a proxy task. -/
theorem proxy_of_effect (h : Effect s act t) {a : Attachment} {m : Message}
    (hm : m ∈ (t.link a).proxy) :
    m ∈ (s.link a).proxy ∨ (s.link a).proxyAlive ∧ ∃ w, (s.session w).holds a := by
  cases h with
  | @opened w p opening alive =>
    by_cases ha : a = p.attachment
    · subst ha
      exact .inr ⟨alive, w, .inl ⟨p, opening, rfl⟩⟩
    · exact .inl (by simpa [ha] using hm)
  | @routed w _ _ channel b route alive | @closed w _ _ channel b _ route alive =>
    by_cases ha : a = b
    · subst ha
      exact .inr ⟨alive, w, .inr (.inr ⟨channel, route⟩)⟩
    · exact .inl (by simpa [ha] using hm)
  | @proxied b _ rest alive queue =>
    left
    by_cases ha : a = b
    · subst ha
      rw [queue]
      exact List.mem_cons_of_mem _ (by simpa using hm)
    · simpa [ha] using hm
  | _ =>
    left
    first
      | exact hm
      | (simp at hm
         split_ifs at hm with ha <;> first | exact hm | exact ha ▸ hm | cases hm)

theorem writerAlive_of_effect (h : Effect s act t) {c : ConnId} (hc : (t.conn c).writerAlive) :
    (s.conn c).writerAlive ∨ (s.conn c).reader = .absent := by
  cases h with
  | @agentUp d absent =>
    by_cases hd : c = d
    · exact .inr (hd ▸ absent)
    · exact .inl (by simpa [hd] using hc)
  | _ =>
    left
    first
      | exact hc
      | (simp at hc
         split_ifs at hc with hd <;> first | exact hc | exact hd ▸ hc)

theorem mem_toAgent_enqueue {c d : ConnId} {o o' : Owner} {m m' : Message}
    (hm : (o, m) ∈ ((s.enqueue d o' m').conn c).toAgent) :
    (o, m) ∈ (s.conn c).toAgent ∨ (s.conn c).writerAlive ∧ c = d ∧ o = o' ∧ m = m' := by
  by_cases hd : c = d
  · subst hd
    by_cases hw : (s.conn c).writerAlive
    · have hmem : (o, m) ∈ (s.conn c).toAgent ∨ o = o' ∧ m = m' := by simpa [hw] using hm
      exact hmem.imp id fun ho => ⟨hw, rfl, ho⟩
    · exact .inl (by simpa [hw] using hm)
  · exact .inl (by simpa [hd] using hm)

theorem toAgent_rpcDone (r : RpcId) (a : Attachment) (c : ConnId) :
    ((rpcDone r a s).conn c).toAgent = (s.conn c).toAgent := by
  by_cases hd : c = a.conn
  · simp [hd]
  · simp [hd]

/-- What the writer is given comes from a proxy task or from a call. -/
theorem toAgent_of_effect (h : Effect s act t) {c : ConnId} {o : Owner} {m : Message}
    (hm : (o, m) ∈ (t.conn c).toAgent) :
    (o, m) ∈ (s.conn c).toAgent ∨ (s.conn c).writerAlive ∧ ∃ a : Attachment, a.owner = o ∧
      a.conn = c ∧ ((s.link a).proxyAlive ∧ (s.link a).proxy ≠ [] ∨
        ∃ r, (s.rpc r).attachment = some a) := by
  cases h with
  | @written d o' m' rest queue =>
    left
    by_cases hd : c = d
    · subst hd
      rw [queue]
      exact List.mem_cons_of_mem _ (by simpa using hm)
    · simpa [hd] using hm
  | @proxied a m' rest alive queue =>
    rcases mem_toAgent_enqueue hm with hm | ⟨hw, rfl, rfl, -⟩
    · exact .inl hm
    · exact .inr ⟨hw, a, rfl, rfl, .inl ⟨alive, by simp [queue]⟩⟩
  | @rpcOpened r a payload requestData m' hr | @rpcRequested r a requestData m' hr =>
    rcases mem_toAgent_enqueue hm with hm | ⟨hw, rfl, rfl, -⟩
    · exact .inl hm
    · exact .inr ⟨hw, a, rfl, rfl, .inr ⟨r, by rw [hr]; rfl⟩⟩
  | @rpcClosed r a m' hr =>
    rw [toAgent_rpcDone] at hm
    rcases mem_toAgent_enqueue hm with hm | ⟨hw, rfl, rfl, -⟩
    · exact .inl hm
    · exact .inr ⟨hw, a, rfl, rfl, .inr ⟨r, by rw [hr]; rfl⟩⟩
  | _ =>
    left
    first
      | exact hm
      | (simp at hm
         split_ifs at hm with hd <;> first | exact hm | exact hd ▸ hm | cases hm)

/-! ## Sessions and calls -/

/-- The moves of the loop of a session. -/
inductive LoopMoves (s t : State) (w : WsId) : Action → Loop → Prop
  | up (absent : (s.session w).loop = .absent) : LoopMoves s t w (.wsUp w) .select
  | opensCached {m : Message} {serial : ℕ} {p : PendingOpen}
      (select : (s.session w).loop = .select)
      (cached : (s.session w).remoteSenders.lookup p.host = some p.attachment) :
      LoopMoves s t w (.wsFrame w m serial) (.opening p)
  | connects {m : Message} {serial : ℕ} {p : PendingOpen} (select : (s.session w).loop = .select)
      (owner : p.attachment.owner = .ws w)
      (registered : s.registry.lookup p.host = some p.attachment.conn)
      (acquired : .acquired p.attachment ∈ t.log) :
      LoopMoves s t w (.wsFrame w m serial) (.connecting p)
  | connected {p : PendingOpen} (connecting : (s.session w).loop = .connecting p)
      (attached : p.attachment ∈ t.attached) : LoopMoves s t w (.wsConnect w) (.opening p)
  | returns {act : Action} (running : (s.session w).loop.isRunning) : LoopMoves s t w act .select
  | ends {reason : EndReason} (select : (s.session w).loop = .select) :
      LoopMoves s t w (.wsEnd w reason) .ended

theorem loop_of_effect (h : Effect s act t) (w : WsId) :
    (t.session w).loop = (s.session w).loop ∨ LoopMoves s t w act (t.session w).loop := by
  cases h with
  | @wsUp v absent =>
    by_cases hw : w = v
    · subst hw
      exact .inr (by simpa using .up absent)
    · exact .inl (by simp [hw])
  | @refused _ v loop select host reply running =>
    by_cases hw : w = v
    · subst hw
      exact .inr (by simpa [select] using .returns running)
    · exact .inl (by simp [hw])
  | @openCached v m serial p select cached =>
    by_cases hw : w = v
    · subst hw
      exact .inr (by simpa using .opensCached select cached)
    · exact .inl (by simp [hw])
  | @openFresh v m serial host channel options c select registered =>
    by_cases hw : w = v
    · subst hw
      exact .inr (by simpa using .connects select rfl registered (by simp))
    · exact .inl (by simp [hw])
  | @connected v p connecting _ _ =>
    by_cases hw : w = v
    · subst hw
      exact .inr (by simpa using .connected connecting (by simp))
    · exact .inl (by simp [hw])
  | @opened v p opening _ =>
    by_cases hw : w = v
    · subst hw
      exact .inr (by simpa using .returns (by rw [opening]; rfl))
    · exact .inl (by simp [hw])
  | @ended v reason select =>
    by_cases hw : w = v
    · subst hw
      exact .inr (by simpa using .ends select)
    · exact .inl (by simp [hw])
  | _ =>
    left
    first
      | rfl
      | (simp
         split_ifs with hw <;> first | rfl | rw [hw])

/-- The session has just been given the sender of `a` by `connect_session`. -/
theorem remoteSenders_of_effect (h : Effect s act t) {w : WsId} {host : String} {a : Attachment}
    (ha : (t.session w).remoteSenders.lookup host = some a) :
    (s.session w).remoteSenders.lookup host = some a ∨
      act = .wsConnect w ∧ ∃ p, (s.session w).loop = .connecting p ∧ p.attachment = a ∧
        p.host = host ∧ a ∈ t.attached := by
  cases h with
  | @wsUp v _ | @ended v _ _ =>
    left
    by_cases hw : w = v
    · simp [hw] at ha
    · simpa [hw] using ha
  | @refused _ v _ _ host' _ _ | @openFresh v _ _ host' _ _ _ _ _ =>
    left
    by_cases hw : w = v
    · subst hw
      have herase : ((s.session w).remoteSenders.erase host').lookup host = some a := by
        simpa using ha
      exact (AList.lookup_erase_eq_some_iff.1 herase).2
    · simpa [hw] using ha
  | @connected v p connecting _ _ =>
    by_cases hw : w = v
    · subst hw
      have hinsert : ((s.session w).remoteSenders.insert p.host p.attachment).lookup host =
          some a := by
        simpa using ha
      rcases AList.lookup_insert_eq_some_iff.1 hinsert with ⟨rfl, rfl⟩ | ⟨-, ha⟩
      · exact .inr ⟨rfl, p, connecting, rfl, rfl, by simp⟩
      · exact .inl ha
    · exact .inl (by simpa [hw] using ha)
  | _ =>
    left
    first
      | exact ha
      | (simp at ha
         split_ifs at ha with hw <;> first | exact ha | exact hw ▸ ha)

theorem routes_of_effect (h : Effect s act t) {w : WsId} {channel : ChannelId} {a : Attachment}
    (ha : (t.session w).routes.lookup channel = some a) :
    (s.session w).routes.lookup channel = some a ∨
      t.log = .opened a channel :: s.log ∧ act = .wsOpen w ∧ (s.link a).proxyAlive ∧
        ∃ p, (s.session w).loop = .opening p ∧ p.attachment = a ∧ p.channel = channel := by
  cases h with
  | @wsUp v _ | @ended v _ _ =>
    left
    by_cases hw : w = v
    · simp [hw] at ha
    · simpa [hw] using ha
  | @opened v p opening alive =>
    by_cases hw : w = v
    · subst hw
      have hinsert : ((s.session w).routes.insert p.channel p.attachment).lookup channel =
          some a := by
        simpa using ha
      rcases AList.lookup_insert_eq_some_iff.1 hinsert with ⟨rfl, rfl⟩ | ⟨-, ha⟩
      · exact .inr ⟨rfl, rfl, alive, p, opening, rfl, rfl⟩
      · exact .inl ha
    · exact .inl (by simpa [hw] using ha)
  | @closed v m serial channel' b _ _ _ | @routeDropped v m serial channel'
  | @routeClosed v channel' reporter route rest _ _ | @closeNoted v channel' reporter rest _ =>
    left
    by_cases hw : w = v
    · subst hw
      have herase : ((s.session w).routes.erase channel').lookup channel = some a := by
        simpa using ha
      exact (AList.lookup_erase_eq_some_iff.1 herase).2
    · simpa [hw] using ha
  | _ =>
    left
    first
      | exact ha
      | (simp at ha
         split_ifs at ha with hw <;> first | exact ha | exact hw ▸ ha)

theorem closeNotify_of_effect (h : Effect s act t) {w : WsId} {channel : ChannelId}
    {reporter : Attachment} (hr : (channel, reporter) ∈ (t.session w).closeNotify) :
    (channel, reporter) ∈ (s.session w).closeNotify ∨
      reporter.owner = .ws w ∧
        ∃ frame ∈ (s.link reporter).inbox, frame.msg.channel = some channel := by
  cases h with
  | @wsUp v _ | @ended v _ _ =>
    left
    by_cases hw : w = v
    · simp [hw] at hr
    · simpa [hw] using hr
  | @routeClosed v channel' reporter' route rest reports _
  | @closeNoted v channel' reporter' rest reports =>
    left
    by_cases hw : w = v
    · subst hw
      rw [reports]
      exact List.mem_cons_of_mem _ (by simpa using hr)
    · simpa [hw] using hr
  | @reported b v frame rest channel' problem owner alive queue msg =>
    by_cases hw : w = v
    · subst hw
      have hmem : (channel, reporter) ∈ (s.session w).closeNotify ∨
          channel = channel' ∧ reporter = b := by
        simpa using hr
      rcases hmem with hmem | ⟨rfl, rfl⟩
      · exact .inl hmem
      · exact .inr ⟨owner, frame, by simp [queue], by rw [msg]; rfl⟩
    · exact .inl (by simpa [hw] using hr)
  | _ =>
    left
    first
      | exact hr
      | (simp at hr
         split_ifs at hr with hw <;> first | exact hr | exact hw ▸ hr)

/-- A report stays until it is taken, and the route of its channel with it. -/
theorem closeNotify_kept (h : Effect s act t) {w : WsId} {channel : ChannelId}
    {reporter : Attachment} (hr : (channel, reporter) ∈ (s.session w).closeNotify) :
    (channel, reporter) ∈ (t.session w).closeNotify ∨
      (t.session w).routes.lookup channel = none := by
  cases h with
  | @wsUp v _ | @ended v _ _ =>
    by_cases hw : w = v
    · exact .inr (by simp [hw])
    · exact .inl (by simpa [hw] using hr)
  | @routeClosed v channel' reporter' route rest reports _
  | @closeNoted v channel' reporter' rest reports =>
    by_cases hw : w = v
    · subst hw
      rw [reports] at hr
      rcases List.mem_cons.1 hr with hhead | hrest
      · cases hhead
        exact .inr (by simp)
      · exact .inl (by simpa using hrest)
    · exact .inl (by simpa [hw] using hr)
  | _ =>
    left
    first
      | exact hr
      | (simp
         split_ifs with hw <;> first | exact hr | (subst hw; simp [hr]))

/-- The moves of a call. -/
inductive RpcMoves (s t : State) (r : RpcId) : Rpc → Prop
  | starts (host : String) {payload : String} {requestData : Value} {a : Attachment}
      (idle : s.rpc r = .idle) (owner : a.owner = .rpc r)
      (registered : s.registry.lookup host = some a.conn) (acquired : .acquired a ∈ t.log) :
      RpcMoves s t r (.subscribing a payload requestData)
  | subscribes {a : Attachment} {payload : String} {requestData : Value}
      (subscribing : s.rpc r = .subscribing a payload requestData) (attached : a ∈ t.attached)
      (entry : (t.conn a.conn).subscribers.lookup a.owner.pfx = some a) :
      RpcMoves s t r (.opening a payload requestData)
  | continues {a : Attachment} {next : Rpc} (subscribed : (s.rpc r).subscribed = some a)
      (still : next.subscribed = some a) (attachment : next.attachment = some a) :
      RpcMoves s t r next
  | unsubscribes {a : Attachment} (unsubscribing : s.rpc r = .unsubscribing a true) :
      RpcMoves s t r (.closing a)
  | returns {a : Attachment} (attachment : (s.rpc r).attachment = some a) : RpcMoves s t r .done

theorem Rpc.subscribed_of_waiting {rpc : Rpc} {a : Attachment} (h : rpc.waiting = some a) :
    rpc.subscribed = some a := by
  cases rpc <;> simp_all [Rpc.waiting, Rpc.subscribed]

theorem Rpc.attachment_of_subscribed {rpc : Rpc} {a : Attachment} (h : rpc.subscribed = some a) :
    rpc.attachment = some a := by
  cases rpc <;> simp_all [Rpc.attachment, Rpc.subscribed]

theorem Rpc.subscribed_received {rpc : Rpc} {a : Attachment} (m : Message)
    (h : rpc.waiting = some a) : (rpc.received m).subscribed = some a := by
  cases rpc with
  | awaitReady b requestData => cases m <;> exact h
  | awaitResponse b => exact h
  | _ => cases h

theorem rpc_of_effect (h : Effect s act t) (r : RpcId) :
    t.rpc r = s.rpc r ∨ RpcMoves s t r (t.rpc r) := by
  cases h with
  | @rpcStarted q host payload requestData serial c idle registered =>
    by_cases hr : r = q
    · subst hr
      exact .inr (by simpa using .starts host idle rfl registered (by simp))
    · exact .inl (by simp [hr])
  | @rpcSubscribed q a payload requestData subscribing _ _ =>
    by_cases hr : r = q
    · subst hr
      exact .inr (by simpa using .subscribes subscribing (by simp) (by simp))
    · exact .inl (by simp [hr])
  | @rpcOpened q a payload requestData m hq | @rpcRequested q a requestData m hq =>
    by_cases hr : r = q
    · subst hr
      exact .inr (by simpa using .continues (by rw [hq]; rfl) rfl rfl)
    · exact .inl (by simp [hr])
  | @rpcReceived q a frame rest waiting queue =>
    by_cases hr : r = q
    · subst hr
      have hs := Rpc.subscribed_received frame.msg waiting
      have ha := Rpc.attachment_of_subscribed hs
      exact .inr (by simpa using .continues (Rpc.subscribed_of_waiting waiting) hs ha)
    · exact .inl (by simp [hr])
  | @rpcUnsubscribed q a unsubscribing =>
    by_cases hr : r = q
    · subst hr
      exact .inr (by simpa using .unsubscribes unsubscribing)
    · exact .inl (by simp [hr])
  | @rpcClosed q a m hq | @rpcRejected q a hq =>
    by_cases hr : r = q
    · subst hr
      exact .inr (by simpa using .returns (by rw [hq]; rfl))
    · exact .inl (by simp [hr])
  | @rpcGivenUp q a waiting =>
    by_cases hr : r = q
    · subst hr
      have hs := Rpc.subscribed_of_waiting waiting
      exact .inr (by simpa using .returns (Rpc.attachment_of_subscribed hs))
    · exact .inl (by simp [hr])
  | _ => exact .inl rfl

/-- A receiver lives until its forwarder ends, or its call returns. -/
theorem inboxAlive_kept (h : Effect s act t) {a : Attachment} (ha : (s.link a).inboxAlive) :
    (t.link a).inboxAlive ∨ act = .forwarderEnds a ∨ ∃ r, (s.rpc r).attachment = some a := by
  cases h with
  | @forwarderEnded b =>
    by_cases hb : a = b
    · subst hb
      exact .inr (.inl rfl)
    · exact .inl (by simpa [hb] using ha)
  | @rpcClosed r b m closing =>
    by_cases hb : a = b
    · subst hb
      exact .inr (.inr ⟨r, by rw [closing]; rfl⟩)
    · exact .inl (by simpa [hb] using ha)
  | @rpcRejected r b unsubscribing =>
    by_cases hb : a = b
    · subst hb
      exact .inr (.inr ⟨r, by rw [unsubscribing]; rfl⟩)
    · exact .inl (by simpa [hb] using ha)
  | @rpcGivenUp r b waiting =>
    by_cases hb : a = b
    · subst hb
      have hs := Rpc.subscribed_of_waiting waiting
      exact .inr (.inr ⟨r, Rpc.attachment_of_subscribed hs⟩)
    · exact .inl (by simpa [hb] using ha)
  | _ =>
    left
    first
      | exact ha
      | (simp
         split_ifs with hb <;> first | exact ha | exact hb ▸ ha | rfl)

/-- An `AgentConn` gets its first holder through the registry. -/
theorem held_of_effect (h : Effect s act t) {c : ConnId} (hc : 0 < (t.conn c).held) :
    0 < (s.conn c).held ∨ ∃ host, s.registry.lookup host = some c := by
  cases h with
  | @openFresh w m serial host channel options d select registered
  | @rpcStarted r host payload requestData serial d idle registered =>
    by_cases hd : c = d
    · subst hd
      exact .inr ⟨host, registered⟩
    · exact .inl (by simpa [hd] using hc)
  | _ =>
    left
    first
      | exact hc
      | (simp at hc
         split_ifs at hc with hd <;> first | exact hc | (subst hd; dsimp only at hc; omega))

/-! ## Events -/

/-- The events a step can add. -/
inductive Emits (s : State) : Action → Event → Prop
  | acquired {act : Action} {a : Attachment} : Emits s act (.acquired a)
  | opened {w : WsId} {p : PendingOpen} (opening : (s.session w).loop = .opening p) :
      Emits s (.wsOpen w) (.opened p.attachment p.channel)
  | rpcOpened {r : RpcId} {a : Attachment} (subscribed : (s.rpc r).subscribed = some a) :
      Emits s (.rpcSend r) (.opened a rpcChannel)
  | closed {w : WsId} {m : Message} {serial : ℕ} {channel : ChannelId} {a : Attachment}
      (select : (s.session w).loop = .select)
      (route : (s.session w).routes.lookup channel = some a) :
      Emits s (.wsFrame w m serial) (.closed a channel)
  | rpcClosed {r : RpcId} {a : Attachment} (closing : s.rpc r = .closing a) :
      Emits s (.rpcSend r) (.closed a rpcChannel)
  | fromAgent {c : ConnId} {m : Message} : Emits s (.agentRecv c m) (.fromAgent c m)
  | toAgent {c : ConnId} {o : Owner} {m : Message} (queued : (o, m) ∈ (s.conn c).toAgent) :
      Emits s (.write c) (.toAgent c o m)
  | toBrowser {a : Attachment} {frame : Frame} (alive : (s.link a).inboxAlive)
      (queued : frame ∈ (s.link a).inbox) : Emits s (.forward a) (.toBrowser a frame)
  | toCaller {r : RpcId} {a : Attachment} {frame : Frame} (waiting : (s.rpc r).waiting = some a)
      (queued : frame ∈ (s.link a).inbox) : Emits s (.rpcRecv r) (.toCaller a frame)
  | fromGateway {act : Action} {w : WsId} {m : Message} : Emits s act (.fromGateway w m)
  | routeClosed {w : WsId} {channel : ChannelId} {route reporter : Attachment}
      (reported : (channel, reporter) ∈ (s.session w).closeNotify)
      (routed : (s.session w).routes.lookup channel = some route) :
      Emits s (.closeNotified w) (.routeClosed channel route reporter)
  | kicked {host : String} {c : ConnId} (registered : s.registry.lookup host = some c) :
      Emits s (.kick host) (.kicked c)

theorem log_of_effect (h : Effect s act t) :
    t.log = s.log ∨ ∃ e, t.log = e :: s.log ∧ Emits s act e := by
  cases h with
  | dropped | taken _ _ _ => exact .inr ⟨_, rfl, .fromAgent⟩
  | kicked registered => exact .inr ⟨_, rfl, .kicked registered⟩
  | openFresh _ _ | rpcStarted _ _ => exact .inr ⟨_, rfl, .acquired⟩
  | written queue => exact .inr ⟨_, rfl, .toAgent (by simp [queue])⟩
  | answered reply => exact .inr ⟨_, rfl, .fromGateway⟩
  | refused _ _ _ _ => exact .inr ⟨_, rfl, .fromGateway⟩
  | opened opening _ => exact .inr ⟨_, rfl, .opened opening⟩
  | closed select route _ => exact .inr ⟨_, rfl, .closed select route⟩
  | routeClosed reports hroute => exact .inr ⟨_, rfl, .routeClosed (by simp [reports]) hroute⟩
  | forwarded _ alive queue => exact .inr ⟨_, rfl, .toBrowser alive (by simp [queue])⟩
  | reported _ alive queue _ => exact .inr ⟨_, rfl, .toBrowser alive (by simp [queue])⟩
  | rpcOpened opening => exact .inr ⟨_, rfl, .rpcOpened (by rw [opening]; rfl)⟩
  | rpcClosed closing => exact .inr ⟨_, rfl, .rpcClosed closing⟩
  | rpcReceived waiting queue => exact .inr ⟨_, rfl, .toCaller waiting (by simp [queue])⟩
  | _ => exact .inl rfl

theorem log_mono (h : Effect s act t) {e : Event} (he : e ∈ s.log) : e ∈ t.log := by
  rcases log_of_effect h with heq | ⟨e', heq, -⟩
  · rwa [heq]
  · rw [heq]
    exact List.mem_cons_of_mem e' he

theorem pending_of_effect (h : Effect s act t) {o : Owner} {a : Attachment}
    (ha : t.pending o = some a) :
    s.pending o = some a ∨
      a.owner = o ∧ (∃ host, s.registry.lookup host = some a.conn) ∧ .acquired a ∈ t.log := by
  cases o with
  | ws w =>
    simp only [State.pending] at ha ⊢
    rcases loop_of_effect h w with heq | hmoves
    · exact .inl (heq ▸ ha)
    · generalize (t.session w).loop = loop at ha hmoves
      cases hmoves with
      | connects _ owner registered acquired =>
        cases ha
        exact .inr ⟨owner, ⟨_, registered⟩, acquired⟩
      | _ => cases ha
  | rpc r =>
    simp only [State.pending] at ha ⊢
    rcases rpc_of_effect h r with heq | hmoves
    · exact .inl (heq ▸ ha)
    · generalize t.rpc r = next at ha hmoves
      cases hmoves with
      | starts host _ owner registered acquired =>
        cases ha
        exact .inr ⟨owner, ⟨host, registered⟩, acquired⟩
      | continues _ still _ => cases next <;> simp [Rpc.subscribed] at ha still
      | _ => cases ha

/-- A session gets hold of a sender only through `connect_session`. -/
theorem holds_of_effect (h : Effect s act t) {w : WsId} {a : Attachment}
    (ha : (t.session w).holds a) :
    (s.session w).holds a ∨ s.pending (.ws w) = some a ∧ a ∈ t.attached := by
  rcases ha with ⟨p, hp, rfl⟩ | ⟨host, hhost⟩ | ⟨channel, hchannel⟩
  · rcases loop_of_effect h w with heq | hmoves
    · exact .inl (.inl ⟨p, heq ▸ hp, rfl⟩)
    · rw [hp] at hmoves
      cases hmoves with
      | opensCached _ cached => exact .inl (.inr (.inl ⟨_, cached⟩))
      | connected connecting attached =>
        exact .inr ⟨by simp [State.pending, connecting], attached⟩
  · rcases remoteSenders_of_effect h hhost with hold | ⟨-, p, hp, rfl, -, hattached⟩
    · exact .inl (.inr (.inl ⟨host, hold⟩))
    · exact .inr ⟨by simp [State.pending, hp], hattached⟩
  · rcases routes_of_effect h hchannel with hold | ⟨-, -, -, p, hp, rfl, -⟩
    · exact .inl (.inr (.inr ⟨channel, hold⟩))
    · exact .inl (.inl ⟨p, hp, rfl⟩)

end Tenodera.Gateway.Relay
