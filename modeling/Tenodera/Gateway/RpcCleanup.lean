import Mathlib.Data.List.Find
import Tenodera.Gateway.RelayTables

/-!
# What an RPC call leaves behind

`execute_rpc` subscribes to the agent, opens a channel and has both to undo on every path.  Other
sessions and calls go on meanwhile, so the subscribers are compared with those who should be there:
the sessions, which stay for good, and the running calls.  `clean_iff` says which returns of a call
keep the table and the channel tidy.
-/

namespace Tenodera.Gateway.Relay

open Protocol Transition

/-! ## What should be there -/

/-- The owner of the attachment is a session, or a call that still has its entry to remove. -/
def State.isPresent (s : State) (a : Attachment) : Bool :=
  match a.owner with
  | .ws _ => true
  | .rpc r => (s.rpc r).subscribed = some a

/-- Who of them subscribed to a connection under a prefix last. -/
def State.expected (s : State) (c : ConnId) (pfx : String) : Option Attachment :=
  s.attached.find? fun a => a.conn = c && a.owner.pfx = pfx && s.isPresent a

/-- The agent has closed the channel of a call since the call opened it. -/
def agentClosed (a : Attachment) : List Event → Bool
  | [] => false
  | .opened b _ :: log => if b = a then false else agentClosed a log
  | .fromAgent c (.close channel _) :: log =>
    (c = a.conn && channel = prefixed a.owner.pfx rpcChannel) || agentClosed a log
  | _ :: log => agentClosed a log

/-- The subscribers of every connection are those that should be there, so that a call that has
returned has changed nothing; and such a call has closed its channel if it has opened it, unless the
agent did. -/
structure Clean (s : State) : Prop where
  table : ∀ c pfx, (s.conn c).subscribers.lookup pfx = s.expected c pfx
  closes : ∀ r a, a.owner = .rpc r → s.rpc r = .done → .opened a rpcChannel ∈ s.log →
    .closed a rpcChannel ∈ s.log ∨ agentClosed a s.log

/-- A call gives up only when the agent has closed its channel and its entry has been taken over; it
unsubscribes only when nobody else is there under its prefix, and without a Close of its own only
when the agent has closed the channel. -/
def CleansUp (s : State) : Action → Prop
  | .rpcGivesUp r => ∀ a ∈ (s.rpc r).waiting,
      agentClosed a s.log ∧ (s.conn a.conn).subscribers.lookup a.owner.pfx ≠ some a
  | .rpcUnsubscribe r =>
    match s.rpc r with
    | .unsubscribing a thenClose => (thenClose = false → agentClosed a s.log) ∧
      ∀ b ∈ s.attached, b.conn = a.conn → b.owner.pfx = a.owner.pfx → s.isPresent b → b = a
    | _ => True
  | _ => True

instance (s : State) (act : Action) : Decidable (CleansUp s act) := by
  rcases act <;> dsimp only [CleansUp] <;> first | infer_instance | (split <;> infer_instance)

section

variable {s t : State} {act : Action} {r : RpcId} {a : Attachment} {c : ConnId} {pfx : String}

/-! ## The calls and the log -/

/-- The attachment over which the call has sent its Open. -/
def Rpc.hasOpened : Rpc → Option Attachment
  | awaitReady a _ | sending a _ | awaitResponse a | unsubscribing a _ | closing a => some a
  | _ => none

/-- The log knows where the calls are. -/
structure CallLog (s : State) : Prop where
  opened : ∀ r a, (s.rpc r).hasOpened = some a → .opened a rpcChannel ∈ s.log
  of_opened : ∀ r a channel, a.owner = .rpc r → .opened a channel ∈ s.log →
    s.rpc r = .done ∨ (s.rpc r).attachment = some a
  of_closed : ∀ r a channel, a.owner = .rpc r → .closed a channel ∈ s.log → s.rpc r = .done

theorem callLog_init : CallLog .init := ⟨nofun, nofun, nofun⟩

theorem Rpc.attachment_of_hasOpened {rpc : Rpc} (h : rpc.hasOpened = some a) :
    rpc.attachment = some a := by
  cases rpc <;> simp_all [Rpc.hasOpened, Rpc.attachment]

theorem Rpc.hasOpened_of_waiting {rpc : Rpc} (h : rpc.waiting = some a) :
    rpc.hasOpened = some a := by
  cases rpc <;> simp_all [Rpc.hasOpened, Rpc.waiting]

theorem Rpc.hasOpened_received {rpc : Rpc} (m : Message) (h : rpc.waiting = some a) :
    (rpc.received m).hasOpened = some a := by
  cases rpc with
  | awaitReady b requestData => cases m <;> exact h
  | awaitResponse b => exact h
  | _ => cases h

/-- A call that has returned stays so. -/
theorem done_of_effect (h : Effect s act t) (hr : s.rpc r = .done) : t.rpc r = .done := by
  rcases rpc_of_effect h r with heq | hmoves
  · rw [heq, hr]
  · generalize t.rpc r = next at hmoves
    cases hmoves <;> simp_all [Rpc.subscribed, Rpc.attachment]

/-- Who has opened a channel for a call is running. -/
theorem attachment_of_emits_opened (hs : Wf s) {channel : ChannelId} (howner : a.owner = .rpc r)
    (h : Emits s act (.opened a channel)) : (s.rpc r).subscribed = some a := by
  cases h with
  | @opened w p opening =>
    have hw := (hs.holds w _ (.inl ⟨_, opening, rfl⟩)).1
    cases howner.symm.trans hw
  | @rpcOpened q a subscribed =>
    obtain ⟨hq, -⟩ := hs.calls q a (Rpc.attachment_of_subscribed subscribed)
    cases howner.symm.trans hq
    exact subscribed

theorem closing_of_emits_closed (hs : Wf s) {channel : ChannelId} (howner : a.owner = .rpc r)
    (h : Emits s act (.closed a channel)) : act = .rpcSend r ∧ s.rpc r = .closing a := by
  cases h with
  | @closed w m serial channel a select route =>
    have hw := (hs.holds w a (.inr (.inr ⟨_, route⟩))).1
    cases howner.symm.trans hw
  | @rpcClosed q a closing =>
    obtain ⟨hq, -⟩ := hs.calls q a (by rw [closing]; rfl)
    cases howner.symm.trans hq
    exact ⟨rfl, closing⟩

theorem done_of_emits_closed {b : Attachment} {channel : ChannelId}
    (h : Effect s (.rpcSend r) t) (closing : s.rpc r = .closing b)
    (heq : t.log = .closed a channel :: s.log) : t.rpc r = .done := by
  cases h with
  | kept => simp at heq
  | refused _ _ _ _ => simp [State.emit] at heq
  | rpcOpened opening =>
    rw [closing] at opening
    cases opening
  | rpcRequested sending =>
    rw [closing] at sending
    cases sending
  | rpcClosed _ => simp [rpcDone, State.setRpc]

theorem hasOpened_of_effect (h : Effect s act t) (ha : (t.rpc r).hasOpened = some a) :
    (s.rpc r).hasOpened = some a ∨ .opened a rpcChannel ∈ t.log := by
  have hkept {q : RpcId} {next : Rpc} (hnext : q = r → next.hasOpened = some a →
      (s.rpc r).hasOpened = some a ∨ .opened a rpcChannel ∈ t.log)
      (hq : t.rpc = Function.update s.rpc q next) :
      (s.rpc r).hasOpened = some a ∨ .opened a rpcChannel ∈ t.log := by
    rw [hq] at ha
    by_cases hr : q = r
    · subst hr
      rw [Function.update_self] at ha
      exact hnext rfl ha
    · rw [Function.update_of_ne (Ne.symm hr)] at ha
      exact .inl ha
  cases h with
  | rpcStarted _ _ | rpcSubscribed _ _ _ => exact hkept (by simp [Rpc.hasOpened]) rfl
  | rpcOpened _ =>
    refine hkept (fun _ hnext => ?_) rfl
    cases hnext
    exact .inr List.mem_cons_self
  | rpcRequested sending =>
    refine hkept (fun hr hnext => ?_) rfl
    cases hnext
    subst hr
    exact .inl (by rw [sending]; rfl)
  | rpcReceived waiting _ =>
    refine hkept (fun hr hnext => ?_) rfl
    subst hr
    rw [Rpc.hasOpened_received _ waiting] at hnext
    cases hnext
    exact .inl (Rpc.hasOpened_of_waiting waiting)
  | rpcUnsubscribed unsubscribing =>
    refine hkept (fun hr hnext => ?_) rfl
    cases hnext
    subst hr
    exact .inl (by rw [unsubscribing]; rfl)
  | rpcClosed _ | rpcRejected _ | rpcGivenUp _ => exact hkept (by simp [Rpc.hasOpened]) rfl
  | _ => exact .inl ha

/-- A call keeps its attachment until it returns. -/
theorem attachment_kept (h : Effect s act t) (ha : (s.rpc r).attachment = some a) :
    t.rpc r = .done ∨ (t.rpc r).attachment = some a := by
  rcases rpc_of_effect h r with heq | hmoves
  · exact .inr (heq ▸ ha)
  · generalize t.rpc r = next at hmoves
    cases hmoves with
    | starts _ idle _ _ _ =>
      rw [idle] at ha
      cases ha
    | subscribes subscribing _ _ =>
      rw [subscribing] at ha
      exact .inr ha
    | continues subscribed _ attachment =>
      rw [Rpc.attachment_of_subscribed subscribed] at ha
      exact .inr (attachment.trans ha)
    | unsubscribes unsubscribing =>
      rw [unsubscribing] at ha
      exact .inr ha
    | returns _ => exact .inl rfl

theorem CallLog.of_effect (hlog : CallLog s) (hs : Wf s) (h : Effect s act t) : CallLog t where
  opened r a ha := by
    rcases hasOpened_of_effect h ha with hold | hnew
    · exact log_mono h (hlog.opened r a hold)
    · exact hnew
  of_opened r a channel howner ho := by
    have hrunning (ha : (s.rpc r).attachment = some a) := attachment_kept h ha
    have hold (ho : .opened a channel ∈ s.log) :
        t.rpc r = .done ∨ (t.rpc r).attachment = some a := by
      rcases hlog.of_opened r a channel howner ho with hdone | ha
      · exact .inl (done_of_effect h hdone)
      · exact hrunning ha
    rcases log_of_effect h with heq | ⟨e, heq, hemits⟩
    · exact hold (heq ▸ ho)
    · rw [heq] at ho
      rcases List.mem_cons.1 ho with rfl | ho
      · have hsub := attachment_of_emits_opened hs howner hemits
        exact hrunning (Rpc.attachment_of_subscribed hsub)
      · exact hold ho
  of_closed r a channel howner hc := by
    have hold (hc : .closed a channel ∈ s.log) : t.rpc r = .done :=
      done_of_effect h (hlog.of_closed r a channel howner hc)
    rcases log_of_effect h with heq | ⟨e, heq, hemits⟩
    · exact hold (heq ▸ hc)
    · rw [heq] at hc
      rcases List.mem_cons.1 hc with rfl | hc
      · obtain ⟨rfl, closing⟩ := closing_of_emits_closed hs howner hemits
        exact done_of_emits_closed h closing heq
      · exact hold hc

/-! ## The table -/

theorem isPresent_congr (hrpc : ∀ r, (t.rpc r).subscribed = (s.rpc r).subscribed) (a : Attachment) :
    t.isPresent a = s.isPresent a := by
  unfold State.isPresent
  split
  · rfl
  · rw [hrpc]

/-- Nothing about the table has changed. -/
theorem expected_congr (hattached : t.attached = s.attached)
    (hrpc : ∀ r, (t.rpc r).subscribed = (s.rpc r).subscribed) :
    t.expected c pfx = s.expected c pfx := by
  unfold State.expected
  rw [hattached]
  refine congrArg (s.attached.find? ·) (funext fun a => ?_)
  rw [isPresent_congr hrpc]

/-- Who subscribes is expected from then on. -/
theorem expected_cons (hattached : t.attached = a :: s.attached) (hpresent : t.isPresent a)
    (hothers : ∀ b ∈ s.attached, t.isPresent b = s.isPresent b) (c : ConnId) (pfx : String) :
    t.expected c pfx =
      if a.conn = c ∧ a.owner.pfx = pfx then some a else s.expected c pfx := by
  have hrest : (s.attached.find? fun b => b.conn = c && b.owner.pfx = pfx && t.isPresent b) =
      s.expected c pfx := by
    unfold State.expected
    refine List.find?_congr fun b hb => ?_
    rw [hothers b hb]
  unfold State.expected at hrest ⊢
  rw [hattached, List.find?_cons, hpresent, hrest]
  by_cases hin : a.conn = c ∧ a.owner.pfx = pfx
  · simp [hin]
  · have hout : (a.conn = c && a.owner.pfx = pfx : Bool) = false := by simpa using hin
    rw [hout, if_neg hin]
    rfl

/-- A step that leaves the subscribers, the attachments and the calls' entries alone. -/
theorem table_congr (htable : ∀ c pfx, (s.conn c).subscribers.lookup pfx = s.expected c pfx)
    (hconn : ∀ c, (t.conn c).subscribers = (s.conn c).subscribers)
    (hattached : t.attached = s.attached)
    (hrpc : ∀ r, (t.rpc r).subscribed = (s.rpc r).subscribed) (c : ConnId) (pfx : String) :
    (t.conn c).subscribers.lookup pfx = t.expected c pfx := by
  rw [hconn, htable, expected_congr hattached hrpc]

theorem lookup_attach (link : Link) (c : ConnId) (pfx : String) :
    ((s.attach a link).conn c).subscribers.lookup pfx =
      if a.conn = c ∧ a.owner.pfx = pfx then some a
      else (s.conn c).subscribers.lookup pfx := by
  unfold State.attach State.setLink State.setConn
  dsimp only
  by_cases hc : c = a.conn
  · subst hc
    rw [Function.update_self]
    by_cases hp : pfx = a.owner.pfx
    · subst hp
      simp
    · rw [AList.lookup_insert_ne hp, if_neg fun hin => hp hin.2.symm]
  · rw [Function.update_of_ne hc, if_neg fun hin => hc hin.1.symm]

/-- A step that subscribes. -/
theorem table_attach (a : Attachment) (link : Link)
    (htable : ∀ c pfx, (s.conn c).subscribers.lookup pfx = s.expected c pfx)
    (hconn : ∀ c, (t.conn c).subscribers = ((s.attach a link).conn c).subscribers)
    (hattached : t.attached = a :: s.attached) (hpresent : t.isPresent a)
    (hothers : ∀ b ∈ s.attached, t.isPresent b = s.isPresent b) (c : ConnId) (pfx : String) :
    (t.conn c).subscribers.lookup pfx = t.expected c pfx := by
  rw [hconn, lookup_attach, expected_cons hattached hpresent hothers, htable]

attribute [local simp] Function.update_apply State.setConn State.setLink State.setSession
  State.setRpc State.emit State.attach State.enqueue State.release State.retain rpcDone

/-- Every step but the returns of calls keeps the table as it should be. -/
theorem table_of_effect (hs : Wf s)
    (htable : ∀ c pfx, (s.conn c).subscribers.lookup pfx = s.expected c pfx)
    (h : Effect s act t) (hunsubscribe : ∀ r, act ≠ .rpcUnsubscribe r)
    (hgivesUp : ∀ r, act ≠ .rpcGivesUp r) (c : ConnId) (pfx : String) :
    (t.conn c).subscribers.lookup pfx = t.expected c pfx := by
  have hupdate {q : RpcId} {next : Rpc} (hq : t.rpc = Function.update s.rpc q next)
      (hnext : next.subscribed = (s.rpc q).subscribed) (r : RpcId) :
      (t.rpc r).subscribed = (s.rpc r).subscribed := by
    rw [hq]
    by_cases hr : r = q
    · subst hr
      rw [Function.update_self, hnext]
    · rw [Function.update_of_ne hr]
  cases h with
  | @agentUp d absent =>
    have hexpected : State.expected { s.setConn d ⟨.reading, ∅, [], true, 0⟩ with
        registry := s.registry.insert d.host d } c pfx = s.expected c pfx :=
      expected_congr rfl fun _ => rfl
    rw [hexpected]
    by_cases hc : c = d
    · subst hc
      have hnone : s.expected c pfx = none := by
        refine List.find?_eq_none.2 fun a ha hin => ?_
        simp only [Bool.and_eq_true, decide_eq_true_eq] at hin
        obtain ⟨⟨rfl, -⟩, -⟩ := hin
        exact hs.attached a ha absent
      simp [hnone]
    · simpa [hc] using htable c pfx
  | @connected w p connecting _ _ =>
    have howner : p.attachment.owner = .ws w :=
      (hs.pending (.ws w) p.attachment (by simp [State.pending, connecting])).1
    refine table_attach p.attachment ⟨[], true, [], true⟩ htable (fun c => ?_) ?_ ?_
      (fun _ _ => ?_) c pfx
    · simp
      split_ifs <;> simp
    · rfl
    · simp [State.isPresent, howner]
    · rfl
  | @rpcSubscribed q a payload requestData subscribing fresh _ =>
    have howner : a.owner = .rpc q := (hs.calls q a (by rw [subscribing]; rfl)).1
    refine table_attach a ⟨[], false, [], true⟩ htable (fun _ => ?_) ?_ ?_ (fun b hb => ?_) c pfx
    · rfl
    · rfl
    · simp [State.isPresent, howner, Rpc.subscribed]
    · have hne : a ≠ b := fun heq => fresh (heq ▸ hb)
      unfold State.isPresent
      split
      · rfl
      · next r hr =>
        by_cases hrq : r = q
        · subst hrq
          simp [Rpc.subscribed, subscribing, hne]
        · simp [hrq]
  | rpcStarted idle _ =>
    refine table_congr htable (fun c => ?_) ?_ (hupdate rfl (by rw [idle]; rfl)) c pfx
    · simp
      split_ifs with hc <;> simp [hc]
    · rfl
  | rpcOpened running | rpcRequested running =>
    refine table_congr htable (fun c => ?_) ?_ (hupdate rfl (by rw [running]; rfl)) c pfx
    · simp
      split_ifs with hc <;> simp [hc]
    · rfl
  | rpcClosed closing =>
    refine table_congr htable (fun c => ?_) ?_ (hupdate rfl (by rw [closing]; rfl)) c pfx
    · simp
      split_ifs with hc <;> simp [hc]
    · rfl
  | rpcReceived waiting _ =>
    have hsub := Rpc.subscribed_of_waiting waiting
    refine table_congr htable (fun _ => ?_) ?_
      (hupdate rfl ((Rpc.subscribed_received _ waiting).trans hsub.symm)) c pfx
    · rfl
    · rfl
  | rpcUnsubscribed _ | rpcRejected _ => exact absurd rfl (hunsubscribe _)
  | rpcGivenUp _ => exact absurd rfl (hgivesUp _)
  | _ =>
    refine table_congr htable (fun c => ?_) ?_ (fun _ => ?_) c pfx
    · first
        | rfl
        | (simp
           split_ifs with hc <;> first | rfl | rw [hc])
    · rfl
    · rfl

/-! ## The returns of calls -/

/-- Taking out what was not found first does not change what is found first. -/
theorem find?_and_ne {p : Attachment → Bool} {l : List Attachment} (h : l.find? p ≠ some a) :
    (l.find? fun b => p b && decide (b ≠ a)) = l.find? p := by
  induction l with
  | nil => rfl
  | cons b l ih =>
    rw [List.find?_cons] at h ⊢
    rw [List.find?_cons]
    by_cases hb : p b
    · have hne : b ≠ a := fun heq => h (by rw [hb, heq])
      simp [hb, hne]
    · rw [Bool.not_eq_true] at hb
      simp only [hb] at h
      simpa [hb] using ih h

/-- A call that lets go of its entry is the only one that should not be there any more. -/
theorem isPresent_release (hs : Wf s) (hsub : (s.rpc r).subscribed = some a)
    (hself : (t.rpc r).subscribed = none)
    (hrest : ∀ q, q ≠ r → (t.rpc q).subscribed = (s.rpc q).subscribed) (b : Attachment) :
    t.isPresent b = (s.isPresent b && decide (b ≠ a)) := by
  have howner : a.owner = .rpc r := (hs.calls r a (Rpc.attachment_of_subscribed hsub)).1
  unfold State.isPresent
  split
  · next w hw =>
    have hne : b ≠ a := fun heq => by simp [heq, howner] at hw
    simp [hne]
  · next q hq =>
    by_cases hqr : q = r
    · subst hqr
      by_cases hba : b = a
      · simp [hself, hba]
      · have hab : a ≠ b := Ne.symm hba
        simp [hself, hsub, hab]
    · have hne : b ≠ a := fun heq => by
        rw [heq, howner, Owner.rpc.injEq] at hq
        exact hqr hq.symm
      simp [hrest q hqr, hne]

theorem expected_release (hattached : t.attached = s.attached)
    (hpresent : ∀ b, t.isPresent b = (s.isPresent b && decide (b ≠ a))) :
    t.expected c pfx =
      s.attached.find? fun b =>
        (b.conn = c && b.owner.pfx = pfx && s.isPresent b) && decide (b ≠ a) := by
  unfold State.expected
  rw [hattached]
  refine congrArg (s.attached.find? ·) (funext fun b => ?_)
  simp only [hpresent, Bool.and_assoc]

/-- Elsewhere nobody misses the call. -/
theorem expected_release_elsewhere (hattached : t.attached = s.attached)
    (hpresent : ∀ b, t.isPresent b = (s.isPresent b && decide (b ≠ a)))
    (helsewhere : ¬ (a.conn = c ∧ a.owner.pfx = pfx)) : t.expected c pfx = s.expected c pfx := by
  rw [expected_release hattached hpresent]
  refine find?_and_ne fun hfound => helsewhere ?_
  have hin := List.find?_some hfound
  simp only [Bool.and_eq_true, decide_eq_true_eq] at hin
  exact hin.1

/-- A call that leaves its entry behind. -/
theorem table_leave_iff (htable : ∀ c pfx, (s.conn c).subscribers.lookup pfx = s.expected c pfx)
    (hconn : ∀ c, (t.conn c).subscribers = (s.conn c).subscribers)
    (hattached : t.attached = s.attached)
    (hpresent : ∀ b, t.isPresent b = (s.isPresent b && decide (b ≠ a))) :
    (∀ c pfx, (t.conn c).subscribers.lookup pfx = t.expected c pfx) ↔
      (s.conn a.conn).subscribers.lookup a.owner.pfx ≠ some a := by
  constructor
  · intro ht hstill
    have hfound := ht a.conn a.owner.pfx
    rw [hconn, hstill, expected_release hattached hpresent] at hfound
    have hin := List.find?_some hfound.symm
    simp at hin
  · intro hgone c pfx
    rw [hconn, htable, expected_release hattached hpresent]
    refine (find?_and_ne fun hfound => hgone ?_).symm
    have hin := List.find?_some hfound
    simp only [Bool.and_eq_true, decide_eq_true_eq] at hin
    obtain ⟨⟨rfl, rfl⟩, -⟩ := hin
    rw [htable]
    exact hfound

/-- A call that removes the entry under its prefix. -/
theorem table_remove_iff (htable : ∀ c pfx, (s.conn c).subscribers.lookup pfx = s.expected c pfx)
    (hconn : ∀ c, (t.conn c).subscribers =
      if c = a.conn then (s.conn a.conn).subscribers.erase a.owner.pfx else (s.conn c).subscribers)
    (hattached : t.attached = s.attached)
    (hpresent : ∀ b, t.isPresent b = (s.isPresent b && decide (b ≠ a))) :
    (∀ c pfx, (t.conn c).subscribers.lookup pfx = t.expected c pfx) ↔
      ∀ b ∈ s.attached, b.conn = a.conn → b.owner.pfx = a.owner.pfx → s.isPresent b → b = a := by
  constructor
  · intro ht b hb hin hpfx hpresent'
    have hnone := ht a.conn a.owner.pfx
    rw [hconn, if_pos rfl, AList.lookup_erase, expected_release hattached hpresent] at hnone
    have hout := List.find?_eq_none.1 hnone.symm b hb
    simpa [hin, hpfx, hpresent'] using hout
  · intro halone c pfx
    by_cases hin : a.conn = c ∧ a.owner.pfx = pfx
    · obtain ⟨rfl, rfl⟩ := hin
      rw [hconn, if_pos rfl, AList.lookup_erase, expected_release hattached hpresent]
      refine (List.find?_eq_none.2 fun b hb hfound => ?_).symm
      simp only [Bool.and_eq_true, decide_eq_true_eq] at hfound
      obtain ⟨⟨⟨hc, hpfx⟩, hpresent'⟩, hne⟩ := hfound
      exact hne (halone b hb hc hpfx hpresent')
    · rw [expected_release_elsewhere hattached hpresent hin, ← htable, hconn]
      split_ifs with hc
      · subst hc
        exact AList.lookup_erase_ne fun hp => hin ⟨rfl, hp.symm⟩
      · rfl

/-! ## The channels of calls -/

theorem agentClosed_cons {e : Event} {log : List Event} (he : ∀ channel, e ≠ .opened a channel)
    (h : agentClosed a log) : agentClosed a (e :: log) := by
  cases e with
  | opened b channel =>
    have hne : b ≠ a := fun heq => he channel (by rw [heq])
    simpa [agentClosed, hne] using h
  | fromAgent c m => cases m <;> simp [agentClosed, h]
  | _ => exact h

/-- What the log says about a call that has returned stays so. -/
theorem closes_of_done (hs : Wf s) (h : Effect s act t)
    (hcloses : ∀ a, a.owner = .rpc r → s.rpc r = .done → .opened a rpcChannel ∈ s.log →
      .closed a rpcChannel ∈ s.log ∨ agentClosed a s.log)
    (howner : a.owner = .rpc r) (hdone : s.rpc r = .done) (hopened : .opened a rpcChannel ∈ t.log) :
    .closed a rpcChannel ∈ t.log ∨ agentClosed a t.log := by
  have hquiet {channel : ChannelId} (hemits : Emits s act (.opened a channel)) : False := by
    have hsub := attachment_of_emits_opened hs howner hemits
    rw [hdone] at hsub
    cases hsub
  rcases log_of_effect h with heq | ⟨e, heq, hemits⟩
  · rw [heq] at hopened ⊢
    exact hcloses a howner hdone hopened
  · rw [heq] at hopened ⊢
    rcases List.mem_cons.1 hopened with rfl | hopened
    · exact (hquiet hemits).elim
    · refine (hcloses a howner hdone hopened).imp (List.mem_cons_of_mem e) fun hclosed => ?_
      refine agentClosed_cons (fun channel he => ?_) hclosed
      subst he
      exact hquiet hemits

/-- What the log has to say about a call that returns without a Close of its own. -/
theorem closes_of_return_iff (hlog : CallLog s) (hs : Wf s) (hsub : (s.rpc r).hasOpened = some a)
    (hrunning : s.rpc r ≠ .done) (hsame : t.log = s.log) :
    (∀ b, b.owner = .rpc r → .opened b rpcChannel ∈ t.log →
      .closed b rpcChannel ∈ t.log ∨ agentClosed b t.log) ↔ agentClosed a s.log := by
  have hattachment := Rpc.attachment_of_hasOpened hsub
  have howner := (hs.calls r a hattachment).1
  rw [hsame]
  constructor
  · intro hcloses
    rcases hcloses a howner (hlog.opened r a hsub) with hclosed | hclosed
    · exact absurd (hlog.of_closed r a rpcChannel howner hclosed) hrunning
    · exact hclosed
  · intro hclosed b hb hopened
    rcases hlog.of_opened r b rpcChannel hb hopened with hdone | hcall
    · exact absurd hdone hrunning
    · rw [hattachment, Option.some.injEq] at hcall
      exact .inr (hcall ▸ hclosed)

/-- A call that returns with its Close. -/
theorem closes_of_rpcSend (hlog : CallLog s) (h : Effect s (.rpcSend r) t)
    (howner : a.owner = .rpc r) (hrunning : s.rpc r ≠ .done) (hdone : t.rpc r = .done)
    (hopened : .opened a rpcChannel ∈ t.log) : .closed a rpcChannel ∈ t.log := by
  cases h with
  | kept => exact absurd hdone hrunning
  | refused _ _ _ _ => exact absurd hdone hrunning
  | rpcOpened _ => simp at hdone
  | rpcRequested _ => simp at hdone
  | @rpcClosed r b m closing =>
    have hold : .opened a rpcChannel ∈ s.log := by simpa using hopened
    rcases hlog.of_opened r a rpcChannel howner hold with hreturned | hcall
    · exact absurd hreturned hrunning
    · rw [closing] at hcall
      cases hcall
      exact List.mem_cons_self

/-- Only three of a call's steps let it return. -/
theorem done_of_moves (h : Effect s act t) (hrunning : s.rpc r ≠ .done) (hdone : t.rpc r = .done) :
    act = .rpcSend r ∨ act = .rpcUnsubscribe r ∨ act = .rpcGivesUp r := by
  have hupdate {q : RpcId} {next : Rpc} (hq : t.rpc = Function.update s.rpc q next) : q = r := by
    by_contra hne
    rw [hq, Function.update_of_ne (Ne.symm hne)] at hdone
    exact hrunning hdone
  cases h with
  | rpcStarted _ _ | rpcSubscribed _ _ _ | rpcOpened _ | rpcRequested _ | rpcUnsubscribed _ =>
    cases hupdate rfl
    simp at hdone
  | @rpcReceived q a frame rest waiting _ =>
    cases hupdate rfl
    have hsub := Rpc.subscribed_received frame.msg waiting
    simp only [Function.update_self, State.setRpc] at hdone
    rw [hdone] at hsub
    cases hsub
  | rpcClosed _ =>
    cases hupdate rfl
    exact .inl rfl
  | rpcRejected _ =>
    cases hupdate rfl
    exact .inr (.inl rfl)
  | rpcGivenUp _ =>
    cases hupdate rfl
    exact .inr (.inr rfl)
  | _ => exact absurd hdone hrunning

/-- When one call returns, only its channel is in question. -/
theorem closes_iff (hs : Wf s) (h : Effect s act t)
    (hcloses : ∀ q b, b.owner = .rpc q → s.rpc q = .done → .opened b rpcChannel ∈ s.log →
      .closed b rpcChannel ∈ s.log ∨ agentClosed b s.log)
    (hrest : ∀ q, q ≠ r → t.rpc q = s.rpc q) (hdone : t.rpc r = .done) :
    (∀ q b, b.owner = .rpc q → t.rpc q = .done → .opened b rpcChannel ∈ t.log →
      .closed b rpcChannel ∈ t.log ∨ agentClosed b t.log) ↔
      ∀ b, b.owner = .rpc r → .opened b rpcChannel ∈ t.log →
        .closed b rpcChannel ∈ t.log ∨ agentClosed b t.log := by
  constructor
  · intro ht b hb
    exact ht r b hb hdone
  · intro ht q b hb hq
    by_cases hqr : q = r
    · subst hqr
      exact ht b hb
    · rw [hrest q hqr] at hq
      exact closes_of_done hs h (hcloses q) hb hq

/-! ## Every step -/

theorem clean_iff_table_and (s : State) :
    Clean s ↔ (∀ c pfx, (s.conn c).subscribers.lookup pfx = s.expected c pfx) ∧
      ∀ r a, a.owner = .rpc r → s.rpc r = .done → .opened a rpcChannel ∈ s.log →
        .closed a rpcChannel ∈ s.log ∨ agentClosed a s.log :=
  ⟨fun h => ⟨h.table, h.closes⟩, fun h => ⟨h.1, h.2⟩⟩

theorem clean_rpcGivesUp (hlog : CallLog s) (hs : Wf s) (hclean : Clean s)
    (h : rpcGivesUp r s = some t) : Clean t ↔ CleansUp s (.rpcGivesUp r) := by
  obtain ⟨a, waiting, rfl⟩ := Option.map_eq_some_iff.1 h
  have heffect : Effect s (.rpcGivesUp r) (rpcDone r a s) := .rpcGivenUp waiting
  have hsub := Rpc.subscribed_of_waiting waiting
  have hrunning : s.rpc r ≠ .done := fun hdone => by simp [hdone, Rpc.waiting] at waiting
  have hrest (q : RpcId) (hq : q ≠ r) : (rpcDone r a s).rpc q = s.rpc q :=
    Function.update_of_ne hq _ _
  have hdone : (rpcDone r a s).rpc r = .done := Function.update_self ..
  have hpresent := isPresent_release (t := rpcDone r a s) hs hsub (by rw [hdone]; rfl)
    fun q hq => by rw [hrest q hq]
  have htable := table_leave_iff (t := rpcDone r a s) hclean.table
    (fun c => by simp; split_ifs with hc <;> simp [hc]) rfl hpresent
  have hcloses := (closes_iff hs heffect hclean.closes hrest hdone).trans
    (closes_of_return_iff hlog hs (Rpc.hasOpened_of_waiting waiting) hrunning rfl)
  rw [clean_iff_table_and, htable, hcloses, and_comm]
  simp [CleansUp, waiting]

theorem clean_rpcUnsubscribe (hlog : CallLog s) (hs : Wf s) (hclean : Clean s)
    (h : rpcUnsubscribe r s = some t) : Clean t ↔ CleansUp s (.rpcUnsubscribe r) := by
  have heffect := rpcUnsubscribe_effect h
  simp only [rpcUnsubscribe] at h
  split at h
  swap
  · cases h
  next a thenClose unsubscribing =>
  have hrunning : s.rpc r ≠ .done := fun hdone => by simp [hdone] at unsubscribing
  have hsub : (s.rpc r).subscribed = some a := by rw [unsubscribing]; rfl
  have hopened : (s.rpc r).hasOpened = some a := by rw [unsubscribing]; rfl
  split_ifs at h with hlocked hclose
  · cases h
    subst hclose
    have htable := table_remove_iff
      (t := (s.setConn a.conn { s.conn a.conn with
        subscribers := (s.conn a.conn).subscribers.erase a.owner.pfx }).setRpc r (.closing a))
      hclean.table (fun c => by simp; split_ifs <;> simp) rfl
      (isPresent_release hs hsub (by simp [Rpc.subscribed]) fun q hq => by simp [hq])
    rw [clean_iff_table_and, htable]
    have hcloses : ∀ q b, b.owner = .rpc q →
        (Function.update s.rpc r (.closing a)) q = .done → .opened b rpcChannel ∈ s.log →
        .closed b rpcChannel ∈ s.log ∨ agentClosed b s.log := by
      intro q b hb hq
      by_cases hqr : q = r
      · subst hqr
        simp at hq
      · rw [Function.update_of_ne hqr] at hq
        exact hclean.closes q b hb hq
    simp only [CleansUp, unsubscribing]
    constructor
    · rintro ⟨halone, -⟩
      exact ⟨by simp, halone⟩
    · rintro ⟨-, halone⟩
      exact ⟨halone, hcloses⟩
  · cases h
    rw [Bool.not_eq_true] at hclose
    subst hclose
    have hrest (q : RpcId) (hq : q ≠ r) : (rpcDone r a (s.setConn a.conn { s.conn a.conn with
        subscribers := (s.conn a.conn).subscribers.erase a.owner.pfx })).rpc q = s.rpc q :=
      Function.update_of_ne hq _ _
    have htable := table_remove_iff
      (t := rpcDone r a (s.setConn a.conn { s.conn a.conn with
        subscribers := (s.conn a.conn).subscribers.erase a.owner.pfx }))
      hclean.table (fun c => by simp; split_ifs <;> simp) rfl
      (isPresent_release hs hsub (by simp [Rpc.subscribed]) fun q hq => by rw [hrest q hq])
    have hcloses := (closes_iff hs heffect hclean.closes hrest (Function.update_self ..)).trans
      (closes_of_return_iff hlog hs hopened hrunning rfl)
    rw [clean_iff_table_and, htable, hcloses, and_comm]
    simp [CleansUp, unsubscribing]

theorem clean_step (hlog : CallLog s) (hs : Wf s) (hclean : Clean s) (h : step s act = some t) :
    Clean t ↔ CleansUp s act := by
  have heffect := step_effect h
  by_cases hreturns : (∃ r, act = .rpcUnsubscribe r) ∨ ∃ r, act = .rpcGivesUp r
  · rcases hreturns with ⟨r, rfl⟩ | ⟨r, rfl⟩
    · exact clean_rpcUnsubscribe hlog hs hclean h
    · exact clean_rpcGivesUp hlog hs hclean h
  · obtain ⟨hunsubscribe, hgivesUp⟩ := not_or.1 hreturns
    rw [not_exists] at hunsubscribe hgivesUp
    refine iff_of_true ⟨table_of_effect hs hclean.table heffect hunsubscribe hgivesUp, ?_⟩ ?_
    · intro r a howner hdone hopened
      by_cases hrunning : s.rpc r = .done
      · exact closes_of_done hs heffect (hclean.closes r) howner hrunning hopened
      · rcases done_of_moves heffect hrunning hdone with rfl | rfl | rfl
        · exact .inl (closes_of_rpcSend hlog heffect howner hrunning hdone hopened)
        · exact absurd rfl (hunsubscribe r)
        · exact absurd rfl (hgivesUp r)
    · unfold CleansUp
      split
      · exact absurd rfl (hgivesUp _)
      · exact absurd rfl (hunsubscribe _)
      · trivial

theorem clean_init : Clean .init where
  table c pfx := by simp [State.init, State.expected]
  closes r a _ hdone := by simp [State.init] at hdone

/-- A run is tidy throughout exactly when every call gives up and unsubscribes at the right
moment. -/
theorem clean_iff (as : List Action) (hr : run step .init as = some s) :
    Always step Clean .init as ↔ Meets step CleansUp .init as :=
  always_iff_meets (I := fun s => Wf s ∧ CallLog s)
    (fun _ _ _ hI h => ⟨hI.1.of_effect (step_effect h), hI.2.of_effect hI.1 (step_effect h)⟩)
    (fun _ _ _ hI hclean h => clean_step hI.2 hI.1 hclean h) ⟨wf_init, callLog_init⟩ clean_init hr

end

/-! ## A call that is answered, and one that is not -/

def whoami : RpcId := ⟨0, 0xdead01⟩

/-- The call up to its Open. -/
def opensRpc : List Action :=
  [.agentUp webConn, .rpcStart whoami "web" "users.manage" .null 0, .rpcSubscribe whoami,
    .rpcSend whoami]

/-- The agent is ready, answers, and the call closes its channel. -/
def answeredRpc : List Action :=
  opensRpc ++
    ([.agentRecv webConn (.ready "00dead01-rpc"), .dispatch webConn, .rpcRecv whoami,
      .rpcSend whoami, .agentRecv webConn (.data "00dead01-rpc" .null), .dispatch webConn,
      .rpcRecv whoami, .rpcUnsubscribe whoami, .rpcSend whoami] : List Action)

theorem clean_answeredRpc :
    ∃ s, run step .init answeredRpc = some s ∧ Always step Clean .init answeredRpc :=
  ⟨_, rfl, (clean_iff answeredRpc rfl).2 (by decide)⟩

/-- The agent is never ready: the call leaves its entry behind. -/
theorem timed_out_not_clean : ∃ s, run step .init (opensRpc ++ [.rpcGivesUp whoami]) = some s ∧
    ¬ Always step Clean .init (opensRpc ++ [.rpcGivesUp whoami]) := by
  refine ⟨_, rfl, fun h => ?_⟩
  have htable := (h.last rfl).table webConn "00dead01"
  revert htable
  decide

end Tenodera.Gateway.Relay
