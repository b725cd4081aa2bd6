import Tenodera.Gateway.RelayMessages
import Tenodera.Lib.Fifo

/-!
# The order of messages to an agent

On its way to an agent a message waits in the queue of a proxy task, where an RPC call has none, and
in the queue of the writer task, which all owners share.  What the writer sends is woven from
beginnings of what the owners sent; as long as proxy and writer live nothing is lost in between.
-/

namespace Tenodera.Gateway.Relay

open Protocol Fifo

variable {s t : State} {act : Action} {a : Attachment} {c : ConnId}

/-- What a call is about to send, and through which attachment. -/
def Rpc.outgoing : Rpc → Option (Attachment × Message)
  | opening a payload _ => some (a, .open_ rpcChannel ⟨payload, none, ∅⟩)
  | sending a requestData => some (a, .data rpcChannel requestData)
  | closing a => some (a, .close rpcChannel none)
  | _ => none

/-- The messages that the owner of `a` sends through it, with its own channel ids. -/
def submission (a : Attachment) (s : State) : Action → List Message
  | .wsOpen w =>
    match (s.session w).loop with
    | .opening p => if p.attachment = a then [.open_ p.channel (cleanOpen w p.options)] else []
    | _ => []
  | .wsFrame w m _ =>
    if decodes m then
      match m with
      | .data channel _ | .control channel _ _ | .close channel _ =>
        if (s.session w).routes.lookup channel = some a then [m] else []
      | _ => []
    else []
  | .rpcSend r =>
    match (s.rpc r).outgoing with
    | some (b, m) => if b = a then [m] else []
    | none => []
  | _ => []

/-- The message as the agent is to see it. -/
def Attachment.wrap (a : Attachment) (m : Message) : Message := prefixMessage m a.owner.pfx

/-- The messages that are handed to the writer of `c`, with where they come from. -/
def handing (c : ConnId) (s : State) : Action → List (Attachment × Message)
  | .proxyStep b =>
    match (s.link b).proxy with
    | m :: _ => if b.conn = c then [(b, b.wrap m)] else []
    | [] => []
  | .rpcSend r =>
    match (s.rpc r).outgoing with
    | some (b, m) => if b.conn = c then [(b, b.wrap m)] else []
    | none => []
  | _ => []

/-- The messages that come from `a`. -/
def ofAttachment (a : Attachment) (handed : List (Attachment × Message)) : List Message :=
  (handed.filter fun e => e.1 = a).map Prod.snd

/-- The writer knows the owner of a message only. -/
def untag (e : Attachment × Message) : Owner × Message := (e.1.owner, e.2)

/-- The messages an event sends to the agent of `c`. -/
def Event.writtenTo (c : ConnId) : Event → List (Owner × Message)
  | .toAgent d o m => if d = c then [(o, m)] else []
  | _ => []

/-- The messages sent to the agent of `c`, the first one first. -/
def written (c : ConnId) (log : List Event) : List (Owner × Message) :=
  log.reverse.flatMap (Event.writtenTo c)

@[simp]
theorem written_nil : written c [] = [] := rfl

theorem written_cons (e : Event) (log : List Event) :
    written c (e :: log) = written c log ++ e.writtenTo c := by
  simp [written]

theorem ofAttachment_append (xs ys : List (Attachment × Message)) :
    ofAttachment a (xs ++ ys) = ofAttachment a xs ++ ofAttachment a ys := by
  simp [ofAttachment]

/-! ## The queue of a proxy task -/

attribute [local simp] Function.update_apply State.setConn State.setLink State.setSession
  State.setRpc State.emit State.attach State.enqueue State.release State.retain rpcDone written_cons
  Event.writtenTo

/-- The actions that put something into the queue of a proxy task, or take something out of it. -/
def Action.usesProxy : Action → Bool
  | .wsOpen _ | .wsFrame _ _ _ | .proxyStep _ => true
  | _ => false

/-- The moves of the queue of a proxy task that are not made by the messages in it. -/
inductive ProxyMoves (s t : State) (a : Attachment) : Prop
  | kept (proxy : (t.link a).proxy = (s.link a).proxy)
      (alive : (t.link a).proxyAlive = (s.link a).proxyAlive) : ProxyMoves s t a
  | opened (fresh : a ∉ s.attached) (proxy : (t.link a).proxy = []) : ProxyMoves s t a
  | closed {r : RpcId} (call : (s.rpc r).attachment = some a) (proxy : (t.link a).proxy = [])
      (alive : (t.link a).proxyAlive = false) : ProxyMoves s t a

theorem proxyMoves_of_effect (h : Effect s act t) (hact : act.usesProxy = false)
    (a : Attachment) : ProxyMoves s t a := by
  cases h with
  | @opened | @routed | @closed | @proxied | @proxyEnded => cases hact
  | @connected w p _ fresh _ =>
    by_cases hp : a = p.attachment
    · subst hp
      exact .opened fresh (by simp)
    · exact .kept (by simp [hp]) (by simp [hp])
  | @rpcSubscribed r b payload requestData subscribing fresh _ =>
    by_cases hb : a = b
    · subst hb
      exact .opened fresh (by simp)
    · exact .kept (by simp [hb]) (by simp [hb])
  | @rpcClosed r b m closing =>
    by_cases hb : a = b
    · subst hb
      exact .closed (r := r) (by rw [closing]; rfl) (by simp) (by simp)
    · exact .kept (by simp [hb]) (by simp [hb])
  | @rpcRejected r b unsubscribing =>
    by_cases hb : a = b
    · subst hb
      exact .closed (r := r) (by rw [unsubscribing]; rfl) (by simp) (by simp)
    · exact .kept (by simp [hb]) (by simp [hb])
  | @rpcGivenUp r b waiting =>
    by_cases hb : a = b
    · subst hb
      have hcall := Rpc.attachment_of_subscribed (Rpc.subscribed_of_waiting waiting)
      exact .closed hcall (by simp) (by simp)
    · exact .kept (by simp [hb]) (by simp [hb])
  | @delivered c frame b _ _ | @forwarded b w frame rest _ _ _
  | @reported b w frame rest channel problem _ _ _ _ | @forwarderEnded b
  | @rpcReceived r b frame rest _ _ =>
    by_cases hb : a = b
    · subst hb
      exact .kept (by simp) (by simp)
    · exact .kept (by simp [hb]) (by simp [hb])
  | _ => exact .kept rfl rfl

/-- The owner of `a` sends `xs`: a living proxy task gets them, a dead one changes nothing. -/
structure Submits (s t : State) (a : Attachment) (xs : List Message) : Prop where
  alive : (t.link a).proxyAlive = (s.link a).proxyAlive
  queued : (s.link a).proxyAlive → (t.link a).proxy = (s.link a).proxy ++ xs
  lost : (s.link a).proxyAlive = false → (t.link a).proxy = (s.link a).proxy

theorem Submits.none (h : t.link a = s.link a) : Submits s t a [] :=
  ⟨by rw [h], fun _ => by rw [h, List.append_nil], fun _ => by rw [h]⟩

theorem Submits.dead {xs : List Message} (h : t.link a = s.link a)
    (hdead : ¬ (s.link a).proxyAlive) : Submits s t a xs :=
  ⟨by rw [h], fun halive => absurd halive hdead, fun _ => by rw [h]⟩

theorem Submits.alive_queue {xs : List Message}
    (h : t.link a = { s.link a with proxy := (s.link a).proxy ++ xs })
    (halive : (s.link a).proxyAlive) : Submits s t a xs :=
  ⟨by rw [h], fun _ => by rw [h], fun hdead => by rw [halive] at hdead; cases hdead⟩

theorem wsOpen_submits {w : WsId} (h : wsOpen w s = some t) :
    Submits s t a (submission a s (.wsOpen w)) := by
  simp only [wsOpen] at h
  split at h
  case h_2 => cases h
  case h_1 p opening =>
  simp only [submission, opening]
  split_ifs at h with halive hroom
  · cases h
    split_ifs with hp
    · subst hp
      exact .alive_queue (by simp) halive
    · exact .none (by simp [Ne.symm hp])
  · cases h
    split_ifs with hp
    · subst hp
      exact .dead rfl halive
    · exact .none rfl

theorem handleRouted_submits {w : WsId} {channel : ChannelId} {m : Message} {isClose : Bool}
    (h : handleRouted w channel m isClose s = some t) :
    Submits s t a (if (s.session w).routes.lookup channel = some a then [m] else []) := by
  simp only [handleRouted] at h
  split at h
  · rename_i noRoute
    cases h
    rw [noRoute, if_neg (by simp)]
    exact .none rfl
  · rename_i b route
    simp only [route, Option.some.injEq]
    split_ifs at h with halive hroom hclose
    all_goals cases h
    all_goals split_ifs with hb
    · subst hb
      exact .alive_queue (by simp) halive
    · exact .none (by simp [Ne.symm hb])
    · subst hb
      exact .alive_queue (by simp) halive
    · exact .none (by simp [Ne.symm hb])
    · subst hb
      exact .dead rfl halive
    · exact .none rfl

theorem wsFrame_submits {w : WsId} {m : Message} {serial : ℕ} (h : wsFrame w m serial s = some t) :
    Submits s t a (submission a s (.wsFrame w m serial)) := by
  simp only [wsFrame] at h
  simp only [submission]
  split at h
  case h_2 => cases h
  case h_1 =>
  split_ifs at h with hdecodes
  · rw [if_pos hdecodes]
    cases m with
    | data _ _ | control _ _ _ | close _ _ => exact handleRouted_submits h
    | open_ channel options =>
      cases h
      exact .none (by rw [link_handleOpen])
    | _ =>
      cases h
      exact .none rfl
  · cases h
    rw [if_neg hdecodes]
    exact .none rfl

/-- A session sends only through what it holds. -/
theorem holds_of_submission {w : WsId}
    (hact : act = .wsOpen w ∨ ∃ m serial, act = .wsFrame w m serial)
    (h : submission a s act ≠ []) : (s.session w).holds a := by
  rcases hact with rfl | ⟨m, serial, rfl⟩
  · simp only [submission] at h
    split at h
    · rename_i p opening
      split_ifs at h with hp
      · exact .inl ⟨p, opening, hp⟩
      · exact absurd rfl h
    · exact absurd rfl h
  · simp only [submission] at h
    split_ifs at h
    · split at h
      case h_4 => exact absurd rfl h
      all_goals
        split_ifs at h with route
        · exact .inr (.inr ⟨_, route⟩)
        · exact absurd rfl h
    · exact absurd rfl h

theorem proxyStep_link {b : Attachment} (h : proxyStep b s = some t) :
    (s.link b).proxyAlive ∧ ∃ m rest, (s.link b).proxy = m :: rest ∧
      ((t.link b).proxy = rest ∧ (t.link b).proxyAlive ∨
        (t.link b).proxy = [] ∧ (t.link b).proxyAlive = false) ∧
      (∀ a ≠ b, t.link a = s.link a) ∧ t.attached = s.attached := by
  simp only [proxyStep] at h
  split at h
  case h_2 => cases h
  case h_1 m rest alive queue =>
  split_ifs at h with hwriter hroom
  · cases h
    exact ⟨alive, m, rest, queue, .inl ⟨by simp, by simpa using alive⟩,
      fun a ha => by simp [ha], rfl⟩
  · cases h
    exact ⟨alive, m, rest, queue, .inr ⟨by simp, by simp⟩, fun a ha => by simp [ha], rfl⟩

theorem rpcSend_link {r : RpcId} (h : rpcSend r s = some t) :
    t.attached = s.attached ∧ (t.link a = s.link a ∨
      (s.rpc r).attachment = some a ∧ (t.link a).proxy = [] ∧ (t.link a).proxyAlive = false) := by
  simp only [rpcSend] at h
  split at h
  case h_4 => cases h
  · split_ifs at h
    cases h
    exact ⟨rfl, .inl rfl⟩
  · split_ifs at h
    cases h
    exact ⟨rfl, .inl rfl⟩
  · rename_i b closing
    split_ifs at h
    cases h
    by_cases hb : a = b
    · subst hb
      exact ⟨rfl, .inr ⟨by rw [closing]; rfl, by simp, by simp⟩⟩
    · exact ⟨rfl, .inl (by simp [hb])⟩

theorem Rpc.attachment_of_outgoing {rpc : Rpc} {m : Message} (h : rpc.outgoing = some (a, m)) :
    rpc.attachment = some a := by
  cases rpc <;> simp_all [Rpc.attachment, Rpc.outgoing]

/-! ## From the owner to the writer -/

/-- Nothing is lost between the owner of `a` and the writer: a call needs no proxy task. -/
def State.carries (s : State) (a : Attachment) : Prop :=
  match a.owner with
  | .ws _ => (s.link a).proxyAlive
  | .rpc _ => True

/-- What the owner of `a` has sent so far is what was handed to the writer, and what the proxy task
still has. -/
structure Outbound (a : Attachment) (s : State) (submitted : List Message)
    (handed : List (Attachment × Message)) : Prop where
  wf : Wf s
  early : (∃ w, a.owner = .ws w) → a ∉ s.attached → submitted = []
  tracks : Tracks (submitted.map a.wrap) (ofAttachment a handed) ((s.link a).proxy.map a.wrap)
    (s.carries a)
  gone : (s.link a).proxyAlive = false → (s.link a).proxy = []
  session : (s.link a).proxyAlive → ∃ w, a.owner = .ws w

theorem outbound_init (a : Attachment) : Outbound a State.init [] [] where
  wf := wf_init
  early _ _ := rfl
  tracks := .empty
  gone _ := rfl
  session h := by cases h

theorem carries_iff_of_alive (h : (t.link a).proxyAlive = (s.link a).proxyAlive) :
    t.carries a ↔ s.carries a := by
  unfold State.carries
  rw [h]

theorem Outbound.of_submits {submitted xs : List Message} {handed : List (Attachment × Message)}
    (hs : Outbound a s submitted handed) (h : Effect s act t) (hsubmits : Submits s t a xs)
    (hxs : xs ≠ [] → (∃ w, a.owner = .ws w) ∧ a ∈ s.attached) :
    Outbound a t (submitted ++ xs) handed := by
  refine ⟨hs.wf.of_effect h, fun hw ha => ?_, ?_, fun hdead => ?_, fun halive => ?_⟩
  · have hold : a ∉ s.attached := fun hold => ha (attached_mono h hold)
    have hnone : xs = [] := by
      by_contra hne
      exact hold (hxs hne).2
    rw [hs.early hw hold, hnone]
    rfl
  · by_cases halive : (s.link a).proxyAlive
    · rw [hsubmits.queued halive, List.map_append, List.map_append]
      exact (hs.tracks.push _).mono (carries_iff_of_alive hsubmits.alive).1
    · by_cases hne : xs = []
      · rw [hsubmits.lost (by simpa using halive), hne, List.append_nil]
        exact hs.tracks.mono (carries_iff_of_alive hsubmits.alive).1
      · obtain ⟨⟨w, hw⟩, -⟩ := hxs hne
        rw [List.map_append]
        refine hs.tracks.close _ ?_
        rw [carries_iff_of_alive hsubmits.alive, State.carries, hw]
        exact halive
  · have hold : (s.link a).proxyAlive = false := by rw [← hsubmits.alive]; exact hdead
    rw [hsubmits.lost hold]
    exact hs.gone hold
  · exact hs.session (by rw [← hsubmits.alive]; exact halive)

theorem Outbound.of_proxyStep {submitted : List Message} {handed : List (Attachment × Message)}
    (hs : Outbound a s submitted handed) {b : Attachment} (h : step s (.proxyStep b) = some t) :
    Outbound a t submitted (handed ++ handing a.conn s (.proxyStep b)) := by
  have hwf := hs.wf.of_effect (step_effect h)
  obtain ⟨halive, m, rest, hqueue, hmoves, hother, hattached⟩ := proxyStep_link h
  have hearly (hw : ∃ w, a.owner = .ws w) (ha : a ∉ t.attached) : submitted = [] :=
    hs.early hw (by rwa [hattached] at ha)
  simp only [handing, hqueue]
  by_cases hb : b = a
  · subst hb
    have hcarries : s.carries b := by
      unfold State.carries
      split
      · exact halive
      · trivial
    have htracks := hs.tracks
    rw [hqueue] at htracks
    have hpop := htracks.pop [b.wrap m] hcarries
    refine ⟨hwf, hearly, ?_, fun hdead => ?_, fun _ => hs.session halive⟩
    · rw [if_pos rfl, ofAttachment_append]
      have hof : ofAttachment b [(b, b.wrap m)] = [b.wrap m] := by simp [ofAttachment]
      rw [hof]
      rcases hmoves with ⟨hproxy, -⟩ | ⟨-, hdead⟩
      · rw [hproxy]
        exact hpop.mono fun _ => hcarries
      · obtain ⟨w, hw⟩ := hs.session halive
        have hlost : ¬ t.carries b := by simp [State.carries, hw, hdead]
        have hclosed : Tracks (submitted.map b.wrap ++ []) (ofAttachment b handed ++ [b.wrap m])
            ((t.link b).proxy.map b.wrap) (t.carries b) := hpop.close [] hlost
        simpa using hclosed
    · rcases hmoves with ⟨-, hlive⟩ | ⟨hproxy, -⟩
      · rw [hlive] at hdead
        cases hdead
      · exact hproxy
  · have hlink := hother a (Ne.symm hb)
    have hof : ofAttachment a (if b.conn = a.conn then [(b, b.wrap m)] else []) = [] := by
      split_ifs <;> simp [ofAttachment, hb]
    refine ⟨hwf, hearly, ?_, by rw [hlink]; exact hs.gone, by rw [hlink]; exact hs.session⟩
    rw [ofAttachment_append, hof, List.append_nil, hlink]
    exact hs.tracks.mono (carries_iff_of_alive (by rw [hlink])).1

/-- What a call sends is with the writer at once. -/
theorem Outbound.of_call {submitted : List Message} {handed : List (Attachment × Message)}
    (hs : Outbound a s submitted handed) (xs : List Message) (hs' : List (Attachment × Message))
    (hwf : Wf t) {r : RpcId} (howner : a.owner = .rpc r) (halive : (t.link a).proxyAlive = false)
    (hproxy : (t.link a).proxy = [])
    (hxs : xs.map a.wrap = ofAttachment a hs') :
    Outbound a t (submitted ++ xs) (handed ++ hs') := by
  have hdead : (s.link a).proxyAlive = false := by
    by_contra hlive
    obtain ⟨w, hw⟩ := hs.session (by simpa using hlive)
    rw [howner] at hw
    cases hw
  have hcarries (s : State) : s.carries a := by
    rw [State.carries, howner]
    trivial
  have hcomplete := hs.tracks.complete (hcarries s)
  rw [hs.gone hdead, List.map_nil, List.append_nil] at hcomplete
  have hsame : (submitted ++ xs).map a.wrap = ofAttachment a (handed ++ hs') := by
    rw [List.map_append, ofAttachment_append, hcomplete, hxs]
  refine ⟨hwf, ?_, ⟨by rw [hsame], fun _ => by simp [hsame, hproxy]⟩, fun _ => hproxy, ?_⟩
  · rintro ⟨w, hw⟩
    rw [howner] at hw
    cases hw
  · intro hlive
    rw [halive] at hlive
    cases hlive

theorem ofAttachment_handing (r : RpcId) :
    (submission a s (.rpcSend r)).map a.wrap = ofAttachment a (handing a.conn s (.rpcSend r)) := by
  simp only [submission, handing]
  cases (s.rpc r).outgoing with
  | none => rfl
  | some e =>
    obtain ⟨b, m⟩ := e
    by_cases hb : b = a
    · subst hb
      simp [ofAttachment]
    · simp only [if_neg hb]
      split_ifs <;> simp [ofAttachment, hb]

theorem submission_rpcSend_of_ws (hs : Wf s) {r : RpcId} {w : WsId} (hw : a.owner = .ws w) :
    submission a s (.rpcSend r) = [] := by
  simp only [submission]
  cases houtgoing : (s.rpc r).outgoing with
  | none => rfl
  | some e =>
    obtain ⟨b, m⟩ := e
    refine if_neg fun hb => ?_
    subst hb
    rw [(hs.calls r b (Rpc.attachment_of_outgoing houtgoing)).1] at hw
    cases hw

theorem Outbound.of_rpcSend {submitted : List Message} {handed : List (Attachment × Message)}
    (hs : Outbound a s submitted handed) {r : RpcId} (h : step s (.rpcSend r) = some t) :
    Outbound a t (submitted ++ submission a s (.rpcSend r))
      (handed ++ handing a.conn s (.rpcSend r)) := by
  have hwf := hs.wf.of_effect (step_effect h)
  obtain ⟨hattached, hlink⟩ := rpcSend_link (a := a) h
  have hsame := ofAttachment_handing (a := a) (s := s) r
  cases howner : a.owner with
  | rpc q =>
    have hdead : (s.link a).proxyAlive = false := by
      by_contra hlive
      obtain ⟨w, hw⟩ := hs.session (by simpa using hlive)
      rw [howner] at hw
      cases hw
    rcases hlink with hlink | ⟨-, hproxy, halive⟩
    · exact hs.of_call _ _ hwf howner (by rw [hlink]; exact hdead)
        (by rw [hlink]; exact hs.gone hdead) hsame
    · exact hs.of_call _ _ hwf howner halive hproxy hsame
  | ws w =>
    rw [submission_rpcSend_of_ws hs.wf howner, List.map_nil] at hsame
    rw [submission_rpcSend_of_ws hs.wf howner, List.append_nil]
    rcases hlink with hlink | ⟨hcall, -, -⟩
    · refine ⟨hwf, by rw [hattached]; exact hs.early, ?_, by rw [hlink]; exact hs.gone,
        by rw [hlink]; exact hs.session⟩
      rw [ofAttachment_append, ← hsame, List.append_nil, hlink]
      exact hs.tracks.mono (carries_iff_of_alive (by rw [hlink])).1
    · rw [(hs.wf.calls r a hcall).1] at howner
      cases howner

theorem Outbound.of_moves {submitted : List Message} {handed : List (Attachment × Message)}
    (hs : Outbound a s submitted handed) (h : Effect s act t) (hact : act.usesProxy = false) :
    Outbound a t submitted handed := by
  have hwf := hs.wf.of_effect h
  have hearly (hw : ∃ w, a.owner = .ws w) (ha : a ∉ t.attached) : submitted = [] :=
    hs.early hw fun hold => ha (attached_mono h hold)
  have hsession (halive : (t.link a).proxyAlive) : ∃ w, a.owner = .ws w := by
    rcases proxyAlive_of_effect h halive with hold | ⟨⟨w, hpending⟩, -⟩
    · exact hs.session hold
    · exact ⟨w, (hs.wf.pending _ a hpending).1⟩
  cases proxyMoves_of_effect h hact a with
  | kept proxy alive =>
    refine ⟨hwf, hearly, ?_, by rw [alive, proxy]; exact hs.gone, hsession⟩
    rw [proxy]
    exact hs.tracks.mono (carries_iff_of_alive alive).1
  | opened fresh proxy =>
    cases howner : a.owner with
    | ws w =>
      have hnone := hs.early ⟨w, howner⟩ fresh
      refine ⟨hwf, hearly, ?_, fun _ => proxy, hsession⟩
      have htracks := hs.tracks
      rw [hnone] at htracks ⊢
      rw [proxy]
      exact htracks.reopen
    | rpc r =>
      have halive : (t.link a).proxyAlive = false := by
        by_contra hlive
        obtain ⟨w, hw⟩ := hsession (by simpa using hlive)
        rw [howner] at hw
        cases hw
      simpa using hs.of_call [] [] hwf howner halive proxy rfl
  | @closed r call proxy alive =>
    have howner := (hs.wf.calls r a call).1
    simpa using hs.of_call [] [] hwf howner alive proxy rfl

theorem Outbound.of_step {submitted : List Message} {handed : List (Attachment × Message)}
    (hs : Outbound a s submitted handed) (h : step s act = some t) :
    Outbound a t (submitted ++ submission a s act) (handed ++ handing a.conn s act) := by
  have hholds (w : WsId) (hact : act = .wsOpen w ∨ ∃ m serial, act = .wsFrame w m serial)
      (hne : submission a s act ≠ []) : (∃ w, a.owner = .ws w) ∧ a ∈ s.attached := by
    obtain ⟨howner, hattached⟩ := hs.wf.holds w a (holds_of_submission hact hne)
    exact ⟨⟨w, howner⟩, hattached⟩
  have heffect := step_effect h
  cases act with
  | wsOpen w =>
    simpa [handing] using hs.of_submits heffect (wsOpen_submits h) (hholds w (.inl rfl))
  | wsFrame w m serial =>
    simpa [handing] using
      hs.of_submits heffect (wsFrame_submits h) (hholds w (.inr ⟨m, serial, rfl⟩))
  | proxyStep b => simpa [submission] using hs.of_proxyStep h
  | rpcSend r => exact hs.of_rpcSend h
  | _ => simpa [submission, handing] using hs.of_moves heffect rfl

/-! ## The queue of the writer -/

/-- The actions that hand something to a writer. -/
def Action.usesWriter : Action → Bool
  | .proxyStep _ | .rpcSend _ => true
  | _ => false

/-- The moves of a writer's queue and of what the writer has sent, but for what it is handed. -/
inductive WriterMoves (s t : State) (c : ConnId) : Prop
  | kept (queue : (t.conn c).toAgent = (s.conn c).toAgent)
      (alive : (t.conn c).writerAlive = (s.conn c).writerAlive)
      (written : written c t.log = written c s.log) : WriterMoves s t c
  | sent {o : Owner} {m : Message} (queue : (s.conn c).toAgent = (o, m) :: (t.conn c).toAgent)
      (alive : (t.conn c).writerAlive = (s.conn c).writerAlive)
      (written : written c t.log = written c s.log ++ [(o, m)]) : WriterMoves s t c
  | opened (absent : (s.conn c).reader = .absent) (queue : (t.conn c).toAgent = [])
      (written : written c t.log = written c s.log) : WriterMoves s t c
  | closed (queue : (t.conn c).toAgent = []) (alive : (t.conn c).writerAlive = false)
      (written : written c t.log = written c s.log) : WriterMoves s t c

theorem writerMoves_of_effect (h : Effect s act t) (hact : act.usesWriter = false)
    (c : ConnId) : WriterMoves s t c := by
  cases h with
  | @proxied | @proxyEnded | @rpcOpened | @rpcRequested | @rpcClosed => cases hact
  | @agentUp d absent =>
    by_cases hd : c = d
    · subst hd
      exact .opened absent (by simp) rfl
    · exact .kept (by simp [hd]) (by simp [hd]) rfl
  | @written d o m rest queue =>
    by_cases hd : c = d
    · subst hd
      exact .sent (by simpa using queue) (by simp) (by simp)
    · exact .kept (by simp [hd]) (by simp [hd]) (by simp [Ne.symm hd])
  | @writerAborted d _ | @writerFailed d =>
    by_cases hd : c = d
    · subst hd
      exact .closed (by simp) (by simp) rfl
    · exact .kept (by simp [hd]) (by simp [hd]) rfl
  | _ =>
    refine .kept ?_ ?_ (by simp)
    · first
      | rfl
      | (simp
         split_ifs with hd <;> first | rfl | rw [hd])
    · first
      | rfl
      | (simp
         split_ifs with hd <;> first | rfl | rw [hd])

/-- The writer of `c` is handed `es`: a living one gets them, with a dead one they are lost. -/
structure Hands (s t : State) (c : ConnId) (es : List (Attachment × Message)) : Prop where
  alive : (t.conn c).writerAlive = (s.conn c).writerAlive
  queued : (s.conn c).writerAlive → (t.conn c).toAgent = (s.conn c).toAgent ++ es.map untag
  lost : (s.conn c).writerAlive = false → (t.conn c).toAgent = (s.conn c).toAgent
  written : written c t.log = written c s.log

theorem Hands.enqueue (b : Attachment) (m : Message)
    (hqueue : (t.conn c).toAgent = ((s.enqueue b.conn b.owner m).conn c).toAgent)
    (halive : (t.conn c).writerAlive = ((s.enqueue b.conn b.owner m).conn c).writerAlive)
    (hwritten : Relay.written c t.log = Relay.written c s.log) :
    Hands s t c (if b.conn = c then [(b, m)] else []) := by
  by_cases hc : b.conn = c
  · subst hc
    refine ⟨by simpa using halive, fun hlive => ?_, fun hdead => ?_, hwritten⟩
    · rw [hqueue]
      simp [hlive, untag]
    · rw [hqueue]
      simp [hdead]
  · rw [if_neg hc]
    refine ⟨by simpa [Ne.symm hc] using halive, fun _ => ?_, fun _ => ?_, hwritten⟩
    · simpa [Ne.symm hc] using hqueue
    · simpa [Ne.symm hc] using hqueue

theorem proxyStep_hands {b : Attachment} (h : proxyStep b s = some t) :
    Hands s t c (handing c s (.proxyStep b)) := by
  simp only [proxyStep] at h
  split at h
  case h_2 => cases h
  case h_1 m rest alive queue =>
  simp only [handing, queue]
  split_ifs at h with hwriter hroom
  · cases h
    exact .enqueue b (b.wrap m) rfl rfl rfl
  · cases h
    refine ⟨rfl, fun hlive => ?_, fun _ => rfl, rfl⟩
    have hc : b.conn ≠ c := fun hc => hwriter (by rw [hc]; exact hlive)
    rw [if_neg hc]
    exact (List.append_nil _).symm

theorem rpcSend_hands {r : RpcId} (h : rpcSend r s = some t) :
    Hands s t c (handing c s (.rpcSend r)) := by
  simp only [rpcSend] at h
  simp only [handing]
  split at h
  case h_4 => cases h
  · rename_i b payload requestData opening
    split_ifs at h
    cases h
    simp only [opening, Rpc.outgoing]
    exact .enqueue b _ rfl rfl (by simp)
  · rename_i b requestData sending
    split_ifs at h
    cases h
    simp only [sending, Rpc.outgoing]
    exact .enqueue b _ rfl rfl rfl
  · rename_i b closing
    split_ifs at h
    cases h
    simp only [closing, Rpc.outgoing]
    refine .enqueue b _ ?_ ?_ (by simp)
    · rw [toAgent_rpcDone]
      rfl
    · simp
      split_ifs <;> rfl

theorem started_of_handing (hs : Wf s) (h : step s act = some t) (hne : handing c s act ≠ []) :
    (s.conn c).reader ≠ .absent := by
  cases act with
  | proxyStep b =>
    obtain ⟨halive, m, rest, hqueue, -⟩ := proxyStep_link h
    simp only [handing, hqueue] at hne
    split_ifs at hne with hc
    · exact hc ▸ hs.attached b (hs.linked b (.inr (.inl halive)))
    · exact absurd rfl hne
  | rpcSend r =>
    simp only [handing] at hne
    split at hne
    · rename_i b m houtgoing
      split_ifs at hne with hc
      · exact hc ▸ (hs.calls r b (Rpc.attachment_of_outgoing houtgoing)).2
      · exact absurd rfl hne
    · exact absurd rfl hne
  | _ => exact absurd rfl hne

/-! ## From the writer to the agent -/

/-- What was handed to the writer of `c` so far is what it has sent, and what it still has. -/
structure Writing (c : ConnId) (s : State) (handed : List (Attachment × Message)) : Prop where
  wf : Wf s
  early : (s.conn c).reader = .absent → handed = []
  tracks : Tracks (handed.map untag) (written c s.log) (s.conn c).toAgent (s.conn c).writerAlive
  gone : (s.conn c).writerAlive = false → (s.conn c).toAgent = []

theorem writing_init (c : ConnId) : Writing c State.init [] where
  wf := wf_init
  early _ := rfl
  tracks := .empty
  gone _ := rfl

theorem Writing.of_hands {handed es : List (Attachment × Message)} (hs : Writing c s handed)
    (h : Effect s act t) (hhands : Hands s t c es) (hes : es ≠ [] → (s.conn c).reader ≠ .absent) :
    Writing c t (handed ++ es) := by
  refine ⟨hs.wf.of_effect h, fun habsent => ?_, ?_, fun hdead => ?_⟩
  · have hold : (s.conn c).reader = .absent := by
      by_contra hstarted
      exact started_reader h hstarted habsent
    have hnone : es = [] := by
      by_contra hne
      exact hes hne hold
    rw [hs.early hold, hnone]
    rfl
  · rw [hhands.written, hhands.alive, List.map_append]
    by_cases hlive : (s.conn c).writerAlive
    · rw [hhands.queued hlive]
      exact hs.tracks.push _
    · exact hs.tracks.close _ hlive
  · rw [hhands.alive] at hdead
    rw [hhands.lost hdead]
    exact hs.gone hdead

theorem Writing.of_moves {handed : List (Attachment × Message)} (hs : Writing c s handed)
    (h : Effect s act t) (hact : act.usesWriter = false) : Writing c t handed := by
  have hwf := hs.wf.of_effect h
  have hearly (habsent : (t.conn c).reader = .absent) : handed = [] := by
    refine hs.early ?_
    by_contra hstarted
    exact started_reader h hstarted habsent
  have htracks := hs.tracks
  cases writerMoves_of_effect h hact c with
  | kept queue alive written =>
    refine ⟨hwf, hearly, ?_, by rw [alive, queue]; exact hs.gone⟩
    rw [queue, alive, written]
    exact htracks
  | @sent o m queue alive written =>
    have hlive : (s.conn c).writerAlive := by
      by_contra hdead
      rw [hs.gone (by simpa using hdead)] at queue
      cases queue
    refine ⟨hwf, hearly, ?_, fun hdead => by rw [alive, hlive] at hdead; cases hdead⟩
    rw [written, alive]
    rw [queue] at htracks
    exact htracks.pop [(o, m)] hlive
  | opened absent queue written =>
    refine ⟨hwf, hearly, ?_, fun _ => queue⟩
    have hnone := hs.early absent
    rw [hnone] at htracks ⊢
    rw [written, queue]
    exact htracks.reopen
  | closed queue alive written =>
    refine ⟨hwf, hearly, ?_, fun _ => queue⟩
    have hlost : ¬ (t.conn c).writerAlive = true := by simp [alive]
    rw [written]
    simpa using htracks.close [] hlost

theorem Writing.of_step {handed : List (Attachment × Message)} (hs : Writing c s handed)
    (h : step s act = some t) : Writing c t (handed ++ handing c s act) := by
  have hstarted := started_of_handing (c := c) hs.wf h
  cases act with
  | proxyStep b => exact hs.of_hands (step_effect h) (proxyStep_hands h) hstarted
  | rpcSend r => exact hs.of_hands (step_effect h) (rpcSend_hands h) hstarted
  | _ => simpa [handing] using hs.of_moves (step_effect h) rfl

/-! ## Runs -/

/-- What the owner of `a` has sent through it in a run. -/
def submissions (a : Attachment) (as : List Action) : List Message :=
  Transition.observed step (submission a) State.init as

/-- What the writer of `c` was handed in a run. -/
def handings (c : ConnId) (as : List Action) : List (Attachment × Message) :=
  Transition.observed step (handing c) State.init as

theorem outbound_of_run {as : List Action} (h : Transition.run step State.init as = some s)
    (a : Attachment) : Outbound a s (submissions a as) (handings a.conn as) :=
  Transition.invariant_of_observed₂ (submission a) (handing a.conn) (Outbound a)
    (fun _ _ _ _ _ hs h => hs.of_step h) [] [] (outbound_init a) h

theorem writing_of_run {as : List Action} (h : Transition.run step State.init as = some s)
    (c : ConnId) : Writing c s (handings c as) :=
  Transition.invariant_of_observed (Writing c) (fun _ _ _ _ hs h => hs.of_step h) (writing_init c) h

theorem conn_of_mem_handings {as : List Action} {e : Attachment × Message}
    (he : e ∈ handings c as) : e.1.conn = c := by
  refine Transition.forall_mem_observed (P := fun e => e.1.conn = c) (fun s act e he => ?_) he
  cases act with
  | proxyStep b =>
    simp only [handing] at he
    split at he
    · split_ifs at he with hc
      · rwa [List.mem_singleton.1 he]
      · cases he
    · cases he
  | rpcSend r =>
    simp only [handing] at he
    split at he
    · split_ifs at he with hc
      · rwa [List.mem_singleton.1 he]
      · cases he
    · cases he
  | _ => cases he

/-- What the agent of `c` has been sent is woven from beginnings of what the owners attached to the
connection have sent, in their order and under their prefixes; while the writer and the proxy task
of an owner live, what is missing is in their queues. -/
theorem written_interleaves {as : List Action} (h : Transition.run step State.init as = some s)
    (c : ConnId) : ∃ sent queued : List (Attachment × Message),
      written c s.log = sent.map untag ∧
      ((s.conn c).writerAlive → (s.conn c).toAgent = queued.map untag) ∧
      (∀ e ∈ sent, e.1.conn = c) ∧
      ∀ a : Attachment, a.conn = c →
        ofAttachment a sent <+: (submissions a as).map a.wrap ∧
        ((s.conn c).writerAlive → s.carries a →
          (submissions a as).map a.wrap =
            ofAttachment a (sent ++ queued) ++ (s.link a).proxy.map a.wrap) := by
  have hwriting := (writing_of_run h c).tracks
  let n := (written c s.log).length
  refine ⟨(handings c as).take n, (handings c as).drop n, ?_, fun hlive => ?_, fun e he => ?_, ?_⟩
  · rw [List.map_take]
    exact List.prefix_iff_eq_take.1 hwriting.inOrder
  · rw [List.map_drop, hwriting.complete hlive, List.drop_left]
  · exact conn_of_mem_handings (List.mem_of_mem_take he)
  · rintro a rfl
    have hout := (outbound_of_run h a).tracks
    constructor
    · have hsplit : ofAttachment a ((handings a.conn as).take n) <+:
          ofAttachment a (handings a.conn as) :=
        ((List.take_prefix n (handings a.conn as)).filter _).map _
      exact hsplit.trans hout.inOrder
    · intro _ hcarries
      rw [List.take_append_drop]
      exact hout.complete hcarries

/-- Two tabs open a terminal and type, the second one faster than the gateway works. -/
def twoTypists : List Action :=
  [.agentUp webConn, .wsUp (alice 0), .wsUp (alice 1)] ++ opensTerminal (alice 0) "1" "web" ++
    opensTerminal (alice 1) "2" "web" ++
    [.proxyStep ⟨.ws (alice 1), webConn, 0⟩, .write webConn,
      .wsFrame (alice 1) (.data "2" (.string "l")) 0,
      .wsFrame (alice 0) (.data "1" (.string "q")) 0,
      .proxyStep ⟨.ws (alice 0), webConn, 0⟩, .wsFrame (alice 1) (.data "2" (.string "s")) 0,
      .proxyStep ⟨.ws (alice 1), webConn, 0⟩, .write webConn]

theorem written_interleaves_twoTypists :
    ∃ s, Transition.run step State.init twoTypists = some s ∧
      (written webConn s.log).length = 2 ∧
      ∃ sent queued : List (Attachment × Message), written webConn s.log = sent.map untag ∧
        (submissions ⟨.ws (alice 1), webConn, 0⟩ twoTypists).map
            (Attachment.wrap ⟨.ws (alice 1), webConn, 0⟩) =
          ofAttachment ⟨.ws (alice 1), webConn, 0⟩ (sent ++ queued) ++
            [.data "3f2b8c1e-2" (.string "s")] := by
  have hrun : ∃ s, Transition.run step State.init twoTypists = some s ∧
      (written webConn s.log).length = 2 ∧ (s.conn webConn).writerAlive = true ∧
      (s.link ⟨.ws (alice 1), webConn, 0⟩).proxyAlive = true ∧
      (s.link ⟨.ws (alice 1), webConn, 0⟩).proxy = [.data "2" (.string "s")] :=
    ⟨_, rfl, rfl, rfl, rfl, rfl⟩
  obtain ⟨s, hrun, hlength, hlive, hcarries, hproxy⟩ := hrun
  obtain ⟨sent, queued, hwritten, -, -, hall⟩ := written_interleaves hrun webConn
  have hcomplete := (hall ⟨.ws (alice 1), webConn, 0⟩ rfl).2 hlive hcarries
  rw [hproxy] at hcomplete
  have hwrap : Attachment.wrap ⟨.ws (alice 1), webConn, 0⟩ (.data "2" (.string "s")) =
      .data "3f2b8c1e-2" (.string "s") := rfl
  rw [List.map_singleton, hwrap] at hcomplete
  exact ⟨s, hrun, hlength, sent, queued, hwritten, hcomplete⟩

end Tenodera.Gateway.Relay
