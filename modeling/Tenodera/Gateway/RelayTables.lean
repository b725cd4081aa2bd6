import Tenodera.Gateway.RelayComponents
import Tenodera.Lib.Run

/-!
# The tables of the relay

Registry, subscribers, sessions and calls agree about who is attached to what, in every state that
can be reached.
-/

namespace Tenodera.Gateway.Relay

open Protocol

variable {s t : State} {act : Action}

/-- The tables of the gateway are consistent: an entry among the subscribers belongs to an
attachment to that connection under that prefix, and what a session or a call holds is its own. -/
structure Wf (s : State) : Prop where
  registered : ∀ host c, s.registry.lookup host = some c →
    c.host = host ∧ (s.conn c).reader ≠ .absent
  subscribed : ∀ c pfx a, (s.conn c).subscribers.lookup pfx = some a →
    a ∈ s.attached ∧ a.conn = c ∧ a.owner.pfx = pfx
  attached : ∀ a ∈ s.attached, (s.conn a.conn).reader ≠ .absent
  started : ∀ a ∈ s.attached, ∀ w, a.owner = .ws w → (s.session w).loop ≠ .absent
  dispatching : ∀ c frame a, (s.conn c).reader = .dispatching frame a →
    a ∈ s.attached ∧ a.conn = c
  pending : ∀ o a, s.pending o = some a →
    a.owner = o ∧ (s.conn a.conn).reader ≠ .absent ∧ .acquired a ∈ s.log
  holds : ∀ w a, (s.session w).holds a → a.owner = .ws w ∧ a ∈ s.attached
  calls : ∀ r a, (s.rpc r).attachment = some a →
    a.owner = .rpc r ∧ (s.conn a.conn).reader ≠ .absent
  subscribedCalls : ∀ r a, (s.rpc r).subscribed = some a → a ∈ s.attached
  linked : ∀ a, (s.link a).inboxAlive ∨ (s.link a).proxyAlive ∨ (s.link a).inbox ≠ [] →
    a ∈ s.attached
  opened : ∀ a channel, .opened a channel ∈ s.log → a ∈ s.attached

theorem wf_init : Wf State.init where
  registered host c h := by simp [State.init] at h
  subscribed c pfx a h := by simp [State.init] at h
  attached a h := by simp [State.init] at h
  started a h := by simp [State.init] at h
  dispatching c frame a h := by simp [State.init] at h
  pending o a h := by cases o <;> cases h
  holds w a h := by simp [State.init, Session.holds] at h
  calls r a h := by simp [State.init, Rpc.attachment] at h
  subscribedCalls r a h := by simp [State.init, Rpc.subscribed] at h
  linked a h := by simp [State.init] at h
  opened a channel h := by simp [State.init] at h

theorem started_reader (h : Effect s act t) {c : ConnId} (hc : (s.conn c).reader ≠ .absent) :
    (t.conn c).reader ≠ .absent := by
  rcases reader_of_effect h c with heq | hmoves
  · rwa [heq]
  · generalize (t.conn c).reader = reader at hmoves ⊢
    cases hmoves <;> simp_all

theorem started_loop (h : Effect s act t) {w : WsId} (hw : (s.session w).loop ≠ .absent) :
    (t.session w).loop ≠ .absent := by
  rcases loop_of_effect h w with heq | hmoves
  · rwa [heq]
  · generalize (t.session w).loop = loop at hmoves ⊢
    cases hmoves <;> simp_all

theorem pending_of_attaches {a : Attachment} (ha : Attaches s act a) :
    ∃ o, s.pending o = some a := by
  cases ha with
  | @session w p connecting => exact ⟨.ws w, by simp [State.pending, connecting]⟩
  | @call r a _ _ subscribing => exact ⟨.rpc r, by simp [State.pending, subscribing]⟩

theorem Wf.of_attaches (hs : Wf s) {a : Attachment} (ha : Attaches s act a) :
    (s.conn a.conn).reader ≠ .absent ∧ s.pending a.owner = some a := by
  obtain ⟨o, ho⟩ := pending_of_attaches ha
  obtain ⟨rfl, hreader, -⟩ := hs.pending o a ho
  exact ⟨hreader, ho⟩

theorem Wf.calls_of_effect (hs : Wf s) (h : Effect s act t) {r : RpcId} {a : Attachment}
    (ha : (t.rpc r).attachment = some a) :
    a.owner = .rpc r ∧ (t.conn a.conn).reader ≠ .absent := by
  have hkept (hold : (s.rpc r).attachment = some a) :
      a.owner = .rpc r ∧ (t.conn a.conn).reader ≠ .absent :=
    (hs.calls r a hold).imp id (started_reader h)
  rcases rpc_of_effect h r with heq | hmoves
  · exact hkept (heq ▸ ha)
  · generalize t.rpc r = next at ha hmoves
    cases hmoves with
    | starts host idle owner registered _ =>
      cases ha
      exact ⟨owner, started_reader h (hs.registered _ _ registered).2⟩
    | subscribes subscribing _ _ =>
      cases ha
      exact hkept (by rw [subscribing]; rfl)
    | continues subscribed _ attachment =>
      rw [attachment] at ha
      cases ha
      exact hkept (Rpc.attachment_of_subscribed subscribed)
    | unsubscribes unsubscribing =>
      cases ha
      exact hkept (by rw [unsubscribing]; rfl)
    | returns _ => cases ha

theorem Wf.subscribedCalls_of_effect (hs : Wf s) (h : Effect s act t) {r : RpcId} {a : Attachment}
    (ha : (t.rpc r).subscribed = some a) : a ∈ t.attached := by
  rcases rpc_of_effect h r with heq | hmoves
  · exact attached_mono h (hs.subscribedCalls r a (heq ▸ ha))
  · generalize t.rpc r = next at ha hmoves
    cases hmoves with
    | subscribes _ attached _ =>
      cases ha
      exact attached
    | continues subscribed still _ =>
      rw [still] at ha
      cases ha
      exact attached_mono h (hs.subscribedCalls r _ subscribed)
    | starts _ _ _ _ _ | unsubscribes _ | returns _ => cases ha

theorem Wf.opened_of_effect (hs : Wf s) (h : Effect s act t) {a : Attachment} {channel : ChannelId}
    (ho : .opened a channel ∈ t.log) : a ∈ t.attached := by
  rcases log_of_effect h with heq | ⟨e, heq, hemits⟩
  · exact attached_mono h (hs.opened a channel (heq ▸ ho))
  · rw [heq] at ho
    rcases List.mem_cons.1 ho with rfl | ho
    · cases hemits with
      | opened opening => exact attached_mono h (hs.holds _ _ (.inl ⟨_, opening, rfl⟩)).2
      | rpcOpened subscribed => exact attached_mono h (hs.subscribedCalls _ a subscribed)
    · exact attached_mono h (hs.opened a channel ho)

theorem Wf.of_effect (hs : Wf s) (h : Effect s act t) : Wf t where
  registered host c hc := by
    rcases registry_of_effect h hc with hc | ⟨rfl, -, hreading⟩
    · exact (hs.registered host c hc).imp id (started_reader h)
    · exact ⟨rfl, by simp [hreading]⟩
  subscribed c pfx a ha := by
    rcases subscribers_of_effect h c pfx with heq | hmoves
    · exact (hs.subscribed c pfx a (heq ▸ ha)).imp (attached_mono h) id
    · rw [ha] at hmoves
      cases hmoves with
      | attaches _ attached => exact ⟨attached, rfl, rfl⟩
  attached a ha := by
    rcases attached_of_effect h ha with ha | ⟨hattaches, -⟩
    · exact started_reader h (hs.attached a ha)
    · exact started_reader h (hs.of_attaches hattaches).1
  started a ha w hw := by
    rcases attached_of_effect h ha with ha | ⟨hattaches, -⟩
    · exact started_loop h (hs.started a ha w hw)
    · have hpending := (hs.of_attaches hattaches).2
      refine started_loop h fun habsent => ?_
      simp [hw, State.pending, habsent] at hpending
  dispatching c frame a hd := by
    rcases reader_of_effect h c with heq | hmoves
    · exact (hs.dispatching c frame a (heq ▸ hd)).imp (attached_mono h) id
    · rw [hd] at hmoves
      cases hmoves with
      | takes _ _ subscribed =>
        obtain ⟨hattached, hconn, -⟩ := hs.subscribed c _ a subscribed
        exact ⟨attached_mono h hattached, hconn⟩
  pending o a ha := by
    rcases pending_of_effect h ha with hold | ⟨howner, ⟨host, hregistered⟩, hacquired⟩
    · obtain ⟨howner, hreader, hacquired⟩ := hs.pending o a hold
      exact ⟨howner, started_reader h hreader, log_mono h hacquired⟩
    · exact ⟨howner, started_reader h (hs.registered host _ hregistered).2, hacquired⟩
  holds w a ha := by
    rcases holds_of_effect h ha with hold | ⟨hpending, hattached⟩
    · exact (hs.holds w a hold).imp id (attached_mono h)
    · exact ⟨(hs.pending _ a hpending).1, hattached⟩
  calls r a := hs.calls_of_effect h
  subscribedCalls r a := hs.subscribedCalls_of_effect h
  linked a ha := by
    rcases ha with ha | ha | ha
    · rcases inboxAlive_of_effect h ha with hold | ⟨-, hattached⟩
      · exact attached_mono h (hs.linked a (.inl hold))
      · exact hattached
    · rcases proxyAlive_of_effect h ha with hold | ⟨-, hattached⟩
      · exact attached_mono h (hs.linked a (.inr (.inl hold)))
      · exact hattached
    · obtain ⟨frame, hframe⟩ := List.exists_mem_of_ne_nil _ ha
      rcases inbox_of_effect h hframe with hold | ⟨hold, -⟩
      · exact attached_mono h (hs.linked a (.inr (.inr (List.ne_nil_of_mem hold))))
      · exact attached_mono h (hs.linked a (.inl hold))
  opened a channel := hs.opened_of_effect h

theorem wf_of_run {s : State} {as : List Action} (h : Transition.run step State.init as = some s) :
    Wf s :=
  Transition.invariant_of_run (fun _ _ _ hs h => hs.of_effect (step_effect h)) wf_init h

end Tenodera.Gateway.Relay
