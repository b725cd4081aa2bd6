import Mathlib.Data.Finset.Basic
import Mathlib.Data.Set.Finite.Basic
import Tenodera.Gateway.RelayTables

/-!
# A session that does not read

The reader of an agent keeps the lock on the subscribers until the frame that it has in hand is in
the queue of a session.  What a full queue hinders is what could be done if the queue were drained;
`unhindered_iff` says which frames let a full queue hinder the other sessions of the agent.
-/

namespace Tenodera.Gateway.Relay

open Protocol Transition

/-- The queue has no room, and its receiver is still there. -/
def State.IsFull (s : State) (a : Attachment) : Prop :=
  (s.link a).inboxAlive ∧ hasRoom (s.link a).inbox a.inboxCap = false

instance (s : State) (a : Attachment) : Decidable (s.IsFull a) :=
  inferInstanceAs (Decidable (_ ∧ _))

/-- The state with the queue of an attachment drained. -/
def State.drain (s : State) (a : Attachment) : State := s.setLink a { s.link a with inbox := [] }

/-- The state in which a session has come to subscribe. -/
def State.withConnecting (s : State) (w : WsId) (p : PendingOpen) : State :=
  s.setSession w { s.session w with loop := .connecting p }

/-- The step can be taken, at once or when the reader has put away the frame that it has in hand. -/
def Possible (c : ConnId) (act : Action) (s : State) : Prop :=
  (step s act).isSome ∨ ∃ t, step s (.dispatch c) = some t ∧ (step t act).isSome

/-- The attachment that a frame of the agent is for. -/
def addressee (s : State) (c : ConnId) (m : Message) : Option Attachment :=
  if decodes m then
    (stripPrefixFromMessage m).bind fun stripped => (s.conn c).subscribers.lookup stripped.2
  else none

/-- The full queue of a session hinders neither a frame for somebody else nor a new session: what
could be done with the queue drained can be done. -/
structure Unhindered (s : State) : Prop where
  frames : ∀ a w b m, a.owner = .ws w → s.IsFull a → addressee s a.conn m = some b → b ≠ a →
    Possible a.conn (.agentRecv a.conn m) (s.drain a) → Possible a.conn (.agentRecv a.conn m) s
  sessions : ∀ a w w' p, a.owner = .ws w → s.IsFull a → p.attachment.conn = a.conn →
    p.attachment ∉ s.attached →
    Possible a.conn (.wsConnect w') ((s.withConnecting w' p).drain a) →
      Possible a.conn (.wsConnect w') (s.withConnecting w' p)

/-- The agent sends no frame for a session whose queue is full. -/
def SpareFull (s : State) : Action → Prop
  | .agentRecv c m => ∀ a ∈ addressee s c m, a.owner.session ≠ none → ¬ s.IsFull a
  | _ => True

instance (s : State) (act : Action) : Decidable (SpareFull s act) := by
  rcases act <;> dsimp only [SpareFull] <;> infer_instance

section

variable {s t : State} {act : Action} {a b : Attachment} {c : ConnId} {m : Message} {w : WsId}
  {p : PendingOpen}

/-! ## What is possible -/

theorem isSome_dispatch_iff : (step s (.dispatch c)).isSome ↔
    ∃ frame a, (s.conn c).reader = .dispatching frame a ∧ ¬ s.IsFull a := by
  simp only [step, dispatch]
  cases hreader : (s.conn c).reader with
  | dispatching frame a =>
    unfold State.IsFull
    by_cases halive : (s.link a).inboxAlive
    · by_cases hroom : hasRoom (s.link a).inbox a.inboxCap <;> simp [halive, hroom]
    · simp [halive]
  | _ => simp

theorem reader_dispatch (h : step s (.dispatch c) = some t) :
    (t.conn c).reader = .reading ∧ t.attached = s.attached ∧ t.session = s.session := by
  simp only [step, dispatch] at h
  split at h
  · split_ifs at h <;> cases h <;> simp [State.setLink, State.setConn]
  · cases h

theorem isSome_agentRecv_iff :
    (step s (.agentRecv c m)).isSome ↔ (s.conn c).reader = .reading := by
  simp only [step, agentRecv]
  split
  · next hreading =>
    refine iff_of_true ?_ hreading
    split_ifs
    · split
      · rfl
      · split <;> rfl
    · rfl
  · next hother => exact iff_of_false (by simp) hother

theorem possible_agentRecv_iff : Possible c (.agentRecv c m) s ↔
    (s.conn c).reader = .reading ∨ (step s (.dispatch c)).isSome := by
  unfold Possible
  rw [isSome_agentRecv_iff]
  refine or_congr_right ?_
  constructor
  · rintro ⟨t, ht, -⟩
    rw [ht]
    rfl
  · intro h
    obtain ⟨t, ht⟩ := Option.isSome_iff_exists.1 h
    exact ⟨t, ht, isSome_agentRecv_iff.2 (reader_dispatch ht).1⟩

theorem isSome_wsConnect_iff (hloop : (s.session w).loop = .connecting p)
    (hfresh : p.attachment ∉ s.attached) : (step s (.wsConnect w)).isSome ↔
      (s.conn p.attachment.conn).reader.isDispatching = false := by
  simp only [step, wsConnect, hloop, hfresh, false_or]
  split_ifs with hlocked <;> simp [hlocked]

theorem possible_wsConnect_iff (hloop : (s.session w).loop = .connecting p)
    (hfresh : p.attachment ∉ s.attached) (hc : p.attachment.conn = c) :
    Possible c (.wsConnect w) s ↔
      (s.conn c).reader.isDispatching = false ∨ (step s (.dispatch c)).isSome := by
  unfold Possible
  rw [isSome_wsConnect_iff hloop hfresh, hc]
  refine or_congr_right ?_
  constructor
  · rintro ⟨t, ht, -⟩
    rw [ht]
    rfl
  · intro h
    obtain ⟨t, ht⟩ := Option.isSome_iff_exists.1 h
    obtain ⟨hreading, hattached, hsession⟩ := reader_dispatch ht
    refine ⟨t, ht, (isSome_wsConnect_iff (p := p) (by rw [hsession, hloop]) ?_).2 ?_⟩
    · rwa [hattached]
    · rw [hc, hreading]
      rfl

theorem isFull_drain_iff : (s.drain a).IsFull b ↔ s.IsFull b ∧ b ≠ a := by
  unfold State.IsFull State.drain State.setLink
  by_cases hb : b = a
  · subst hb
    simp [hasRoom]
  · simp [hb]

theorem isSome_dispatch_drain_iff : (step (s.drain a) (.dispatch c)).isSome ↔
    ∃ frame b, (s.conn c).reader = .dispatching frame b ∧ ¬ (s.IsFull b ∧ b ≠ a) := by
  rw [isSome_dispatch_iff]
  simp only [isFull_drain_iff]
  rfl

/-! ## What a full queue hinders -/

/-- The reader has in hand a frame for a session whose queue is full. -/
def Stuck (s : State) : Prop :=
  ∃ c frame a, (s.conn c).reader = .dispatching frame a ∧ a.owner.session ≠ none ∧ s.IsFull a

theorem owner_of_session_ne_none (h : a.owner.session ≠ none) : ∃ w, a.owner = .ws w := by
  cases howner : a.owner with
  | ws w => exact ⟨w, rfl⟩
  | rpc r => exact absurd (by rw [howner]; rfl) h

/-- A serial number that no attachment has. -/
theorem exists_fresh (s : State) (o : Owner) (c : ConnId) :
    ∃ serial, (⟨o, c, serial⟩ : Attachment) ∉ s.attached := by
  obtain ⟨serial, hserial⟩ :=
    Infinite.exists_notMem_finset (s.attached.map Attachment.serial).toFinset
  refine ⟨serial, fun hmem => hserial ?_⟩
  rw [List.mem_toFinset]
  exact List.mem_map_of_mem hmem

/-- A full queue hinders others iff the reader has a frame for it in hand. -/
theorem unhindered_iff_not_stuck (hs : Wf s) : Unhindered s ↔ ¬ Stuck s := by
  constructor
  · rintro h ⟨c, frame, a, hreader, hsession, hfull⟩
    obtain ⟨w, howner⟩ := owner_of_session_ne_none hsession
    obtain ⟨-, rfl⟩ := hs.dispatching c frame a hreader
    obtain ⟨serial, hfresh⟩ := exists_fresh s (.ws w) a.conn
    let p : PendingOpen := ⟨"", "", ⟨"", none, ∅⟩, ⟨.ws w, a.conn, serial⟩⟩
    have hloop : ((s.withConnecting w p).session w).loop = .connecting p := by
      simp [State.withConnecting, State.setSession]
    have hdrained : Possible a.conn (.wsConnect w) ((s.withConnecting w p).drain a) := by
      refine (possible_wsConnect_iff (s := (s.withConnecting w p).drain a) hloop hfresh rfl).2
        (.inr ?_)
      exact isSome_dispatch_drain_iff.2 ⟨frame, a, hreader, fun hin => hin.2 rfl⟩
    have hpossible := h.sessions a w w p howner hfull rfl hfresh hdrained
    rcases (possible_wsConnect_iff hloop hfresh rfl).1 hpossible with hunlocked | hdispatch
    · have hlocked : (s.conn a.conn).reader.isDispatching = false := hunlocked
      rw [hreader] at hlocked
      cases hlocked
    · obtain ⟨frame', b, hreader', hroom⟩ := isSome_dispatch_iff.1 hdispatch
      have heq : Reader.dispatching frame a = .dispatching frame' b := hreader.symm.trans hreader'
      cases heq
      exact hroom hfull
  · intro h
    -- The reader can put away what it has in hand, unless that is for the full queue.
    have hdispatch {a : Attachment} {w : WsId} (howner : a.owner = .ws w) (hfull : s.IsFull a) :
        (∃ frame b, (s.conn a.conn).reader = .dispatching frame b ∧ ¬ (s.IsFull b ∧ b ≠ a)) →
          ∃ frame b, (s.conn a.conn).reader = .dispatching frame b ∧ ¬ s.IsFull b := by
      rintro ⟨frame, b, hreader, hroom⟩
      refine ⟨frame, b, hreader, fun hfull' => ?_⟩
      have hba : b = a := by
        by_contra hne
        exact hroom ⟨hfull', hne⟩
      subst hba
      exact h ⟨b.conn, frame, b, hreader, by simp [howner, Owner.session], hfull⟩
    constructor
    · intro a w b m howner hfull _ _ hdrained
      refine possible_agentRecv_iff.2 ((possible_agentRecv_iff.1 hdrained).imp id fun hd => ?_)
      exact isSome_dispatch_iff.2 (hdispatch howner hfull (isSome_dispatch_drain_iff.1 hd))
    · intro a w w' p howner hfull hc hfresh hdrained
      have hloop : ((s.withConnecting w' p).session w').loop = .connecting p := by
        simp [State.withConnecting, State.setSession]
      have hdrainedLoop : (((s.withConnecting w' p).drain a).session w').loop = .connecting p :=
        hloop
      refine (possible_wsConnect_iff hloop hfresh hc).2
        (((possible_wsConnect_iff hdrainedLoop hfresh hc).1 hdrained).imp id fun hd => ?_)
      have hd' := (isSome_dispatch_drain_iff (s := s.withConnecting w' p)).1 hd
      exact isSome_dispatch_iff.2 (hdispatch howner hfull hd')

/-! ## Steps -/

attribute [local simp] Function.update_apply State.setConn State.setLink State.setSession
  State.setRpc State.emit State.attach State.enqueue State.release State.retain rpcDone

/-- Only a delivery fills a queue. -/
theorem isFull_of_effect (h : Effect s act t) (ha : a ∈ s.attached) (hfull : t.IsFull a) :
    s.IsFull a ∨ ∃ c frame, act = .dispatch c ∧ (s.conn c).reader = .dispatching frame a := by
  have hrest {frame : Frame} {rest : List Frame} {cap : ℕ} (hroom : hasRoom rest cap = false) :
      hasRoom (frame :: rest) cap = false := by
    simp only [hasRoom, decide_eq_false_iff_not, List.length_cons] at hroom ⊢
    omega
  obtain ⟨halive, hroom⟩ := hfull
  cases h with
  | @delivered c frame b dispatching _ =>
    by_cases hb : a = b
    · subst hb
      exact .inr ⟨c, frame, rfl, dispatching⟩
    · exact .inl ⟨by simpa [hb] using halive, by simpa [hb] using hroom⟩
  | connected _ fresh _ | rpcSubscribed _ fresh _ =>
    have hne := ne_of_mem_of_not_mem ha fresh
    exact .inl ⟨by simpa [hne] using halive, by simpa [hne] using hroom⟩
  | @forwarded b _ frame rest _ alive queue | @reported b _ frame rest _ _ _ alive queue _ =>
    by_cases hb : a = b
    · subst hb
      refine .inl ⟨alive, ?_⟩
      rw [queue]
      exact hrest (by simpa using hroom)
    · exact .inl ⟨by simpa [hb] using halive, by simpa [hb] using hroom⟩
  | @rpcReceived _ b frame rest _ queue =>
    by_cases hb : a = b
    · subst hb
      refine .inl ⟨by simpa using halive, ?_⟩
      rw [queue]
      exact hrest (by simpa using hroom)
    · exact .inl ⟨by simpa [hb] using halive, by simpa [hb] using hroom⟩
  | _ =>
    left
    first
      | exact ⟨halive, hroom⟩
      | (simp at halive hroom
         split_ifs at halive hroom with hb <;>
           first | exact ⟨halive, hroom⟩ | (subst hb; exact ⟨halive, hroom⟩))

/-- The reader takes a frame in hand for the one it is addressed to. -/
theorem agentRecv_cases (hreading : (s.conn c).reader = .reading) :
    addressee s c m = none ∧ step s (.agentRecv c m) = some (s.emit (.fromAgent c m)) ∨
      ∃ frame a, addressee s c m = some a ∧
        step s (.agentRecv c m) = some ((s.emit (.fromAgent c m)).setConn c
          { s.conn c with reader := .dispatching frame a }) := by
  simp only [step, agentRecv, hreading, addressee]
  by_cases hdecodes : decodes m
  · simp only [hdecodes, not_true_eq_false, if_false, if_true]
    cases stripPrefixFromMessage m with
    | none => exact .inl ⟨rfl, rfl⟩
    | some stripped =>
      obtain ⟨msg, pfx⟩ := stripped
      cases hlookup : (s.conn c).subscribers.lookup pfx with
      | none => exact .inl ⟨hlookup, by simp [hlookup]⟩
      | some a =>
        exact .inr ⟨⟨msg, m.channel.bind fun ch => lastOpener c ch s.log⟩, a, hlookup,
          by simp only [hlookup]⟩
  · simp [hdecodes]

/-- A step keeps the reader from getting stuck iff it does not take a frame for a full queue. -/
theorem stuck_step (hs : Wf s) (hnot : ¬ Stuck s) (h : step s act = some t) :
    ¬ Stuck t ↔ SpareFull s act := by
  have heffect := step_effect h
  constructor
  · intro ht
    unfold SpareFull
    split
    · next c m =>
      intro a ha hsession hfull
      have hreading := isSome_agentRecv_iff.1 (Option.isSome_of_eq_some h)
      rcases agentRecv_cases (m := m) hreading with ⟨hnone, -⟩ | ⟨frame, b, hb, heq⟩
      · rw [hnone] at ha
        cases ha
      · rw [hb] at ha
        cases ha
        rw [heq] at h
        cases h
        exact ht ⟨c, frame, a, by simp, hsession, hfull⟩
    · trivial
  · rintro hspare ⟨c, frame, a, hreader, hsession, hfull⟩
    rcases reader_of_effect heffect c with heq | hmoves
    · -- The reader had the frame in hand already.
      rw [heq] at hreader
      obtain ⟨hattached, hconn⟩ := hs.dispatching c frame a hreader
      rcases isFull_of_effect heffect hattached hfull with hfull | ⟨d, frame', rfl, hdispatching⟩
      · exact hnot ⟨c, frame, a, hreader, hsession, hfull⟩
      · have hd := (hs.dispatching d frame' a hdispatching).2
        have hreading := (reader_dispatch h).1
        rw [← hd, hconn, heq, hreader] at hreading
        cases hreading
    · rw [hreader] at hmoves
      cases hmoves with
      | @takes m stripped pfx _ reading strip subscribed =>
        rcases agentRecv_cases (m := m) reading with ⟨-, heq⟩ | ⟨frame', b, hb, heq⟩
        · rw [heq] at h
          cases h
          have hkept : (s.conn c).reader = .dispatching _ a := hreader
          rw [reading] at hkept
          cases hkept
        · rw [heq] at h
          cases h
          simp at hreader
          obtain ⟨-, rfl⟩ := hreader
          exact hspare b hb hsession hfull

theorem not_stuck_init : ¬ Stuck .init := by
  rintro ⟨c, frame, a, hreader, -⟩
  cases hreader

/-- In every state of a run full queues hinder nobody iff the reader takes no frame for one. -/
theorem unhindered_iff (as : List Action) (hr : run step .init as = some s) :
    Always step Unhindered .init as ↔ Meets step SpareFull .init as :=
  always_iff_meets (I := Wf) (fun _ _ _ hs h => hs.of_effect (step_effect h))
    (fun _ _ _ hs hun h => (unhindered_iff_not_stuck (hs.of_effect (step_effect h))).trans
      (stuck_step hs ((unhindered_iff_not_stuck hs).1 hun) h))
    wf_init ((unhindered_iff_not_stuck wf_init).2 not_stuck_init) hr

end

/-! ## A tab that is not read -/

/-- The agent sends one frame after the other. -/
def sends (c : ConnId) (m : Message) : ℕ → List Action
  | 0 => []
  | n + 1 => .agentRecv c m :: .dispatch c :: sends c m n

/-- The reader takes a frame and puts it away. -/
theorem send_one {s : State} {c : ConnId} {m : Message} {a : Attachment}
    (hreading : (s.conn c).reader = .reading) (ha : addressee s c m = some a)
    (halive : (s.link a).inboxAlive) (hroom : hasRoom (s.link a).inbox a.inboxCap) :
    ∃ taken put frame, step s (.agentRecv c m) = some taken ∧ step taken (.dispatch c) = some put ∧
      put.conn c = { s.conn c with reader := .reading } ∧
      put.link a = { s.link a with inbox := (s.link a).inbox ++ [frame] } := by
  obtain ⟨hnone, -⟩ | ⟨frame, b, hb, htake⟩ := agentRecv_cases (m := m) hreading
  · rw [hnone] at ha
    cases ha
  rw [hb] at ha
  cases ha
  let put := ((s.emit (.fromAgent c m)).setConn c { s.conn c with reader := .reading }).setLink a
    { s.link a with inbox := (s.link a).inbox ++ [frame] }
  refine ⟨_, put, frame, htake, ?_, ?_, ?_⟩
  · simp [put, step, dispatch, State.setConn, State.setLink, State.emit, halive, hroom]
  · simp [put, State.setConn, State.setLink]
  · simp [put, State.setLink]

/-- The agent sends something to a tab whose queue has room for it all. -/
theorem run_sends {c : ConnId} {m : Message} {a : Attachment} (n : ℕ) {s : State}
    (hreading : (s.conn c).reader = .reading) (ha : addressee s c m = some a)
    (halive : (s.link a).inboxAlive) (hroom : (s.link a).inbox.length + n ≤ a.inboxCap + 1) :
    ∃ t, run step s (sends c m n) = some t ∧ (t.conn c).reader = .reading ∧
      addressee t c m = some a ∧ (t.link a).inboxAlive ∧
      (t.link a).inbox.length = (s.link a).inbox.length + n := by
  induction n generalizing s with
  | zero => exact ⟨s, rfl, hreading, ha, halive, rfl⟩
  | succ n ih =>
    have hfits : hasRoom (s.link a).inbox a.inboxCap = true := decide_eq_true (by omega)
    obtain ⟨taken, put, frame, htake, hput, hconn, hlink⟩ := send_one hreading ha halive hfits
    have haddressee : addressee put c m = some a := by
      rw [← ha]
      unfold addressee
      rw [hconn]
    have hlength : (put.link a).inbox.length = (s.link a).inbox.length + 1 := by
      rw [hlink, List.length_append, List.length_singleton]
    have hreader : (put.conn c).reader = .reading := by rw [hconn]
    have hstill : (put.link a).inboxAlive := by rw [hlink]; exact halive
    obtain ⟨t, ht, hreading', haddressee', halive', hlength'⟩ :=
      ih hreader haddressee hstill (by omega)
    refine ⟨t, ?_, hreading', haddressee', halive', by omega⟩
    rw [sends, run_cons, htake, Option.bind_some, run_cons, hput, Option.bind_some, ht]

/-- Alice's first tab has a terminal and does not read what it shows. -/
def aliceTerminal : List Action :=
  ([.agentUp webConn, .wsUp (alice 0)] : List Action) ++ opensTerminal (alice 0) "1" "web"

def prompt : Message := .data "3f2b8c1e-1" (.string "$ ")

theorem unhindered_aliceTerminal :
    ∃ s, run step .init (aliceTerminal ++ sends webConn prompt 2) = some s ∧
      Always step Unhindered .init (aliceTerminal ++ sends webConn prompt 2) :=
  ⟨_, rfl, (unhindered_iff (aliceTerminal ++ sends webConn prompt 2) rfl).2 (by decide)⟩

/-- Her queue is full, and another frame for her comes. -/
def unread : List Action :=
  aliceTerminal ++ (sends webConn prompt 257 ++ [.agentRecv webConn prompt])

theorem unread_hinders : ∃ s, run step .init unread = some s ∧
    ¬ Always step Unhindered .init unread := by
  let a : Attachment := ⟨.ws (alice 0), webConn, 0⟩
  obtain ⟨s, hs, hreading, ha, halive, hempty⟩ : ∃ s, run step .init aliceTerminal = some s ∧
      (s.conn webConn).reader = .reading ∧ addressee s webConn prompt = some a ∧
      (s.link a).inboxAlive ∧ (s.link a).inbox = [] := ⟨_, rfl, rfl, rfl, rfl, rfl⟩
  have hroom : (s.link a).inbox.length + 257 ≤ a.inboxCap + 1 := by
    rw [hempty]
    decide
  obtain ⟨t, ht, hreading, ha, halive, hlength⟩ := run_sends 257 hreading ha halive hroom
  have hfull : t.IsFull a := by
    rw [hempty] at hlength
    exact ⟨halive, decide_eq_false (by rw [hlength]; decide)⟩
  obtain ⟨hnone, -⟩ | ⟨frame, b, hb, htake⟩ := agentRecv_cases (m := prompt) hreading
  · rw [hnone] at ha
    cases ha
  rw [hb] at ha
  cases ha
  have hrun : run step .init unread = some ((t.emit (.fromAgent webConn prompt)).setConn webConn
      { t.conn webConn with reader := .dispatching frame a }) := by
    rw [unread, run_append, hs, Option.bind_some, run_append, ht, Option.bind_some, run_cons,
      htake]
    rfl
  refine ⟨_, hrun, fun h => ?_⟩
  refine (unhindered_iff_not_stuck (wf_of_run hrun)).1 (h.last hrun) ?_
  exact ⟨webConn, frame, a, by simp [State.setConn], by decide, hfull⟩

end Tenodera.Gateway.Relay
