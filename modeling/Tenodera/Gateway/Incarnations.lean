import Tenodera.Gateway.Relay
import Tenodera.Lib.Run
import Tenodera.Lib.Table

/-!
# Channel ids that are opened again

The socket loop of one browser session with its forwarders: `channel_routes`, `remote_senders` and
the queue of closed channels.  A client may open an id again after the route of the id is gone, and
every such Open is a new incarnation of the channel.  The queue of closed channels carries the id
only, so that the Close of one incarnation takes away the route of the next one, unless an id is
opened again only after every Close of it has been taken (`served_of_meets`).
-/

namespace Tenodera.Gateway.Incarnations

open Protocol Transition
open Relay (WsId cleanOpen maxChannelsPerSession maxRemoteAgents)

/-! ## The session -/

/-- An entry of `channel_routes`. -/
structure Route where
  /-- The proxy sender, by its number. -/
  sender : ℕ
  /-- Not part of the gateway: the number of the Open that put the route in. -/
  incarnation : ℕ
  deriving DecidableEq, Repr

/-- What has happened to the routes and messages.  None of it is part of the gateway. -/
inductive Event
  | toAgent (r : Route) (m : Message)
  /-- A Close of the client is on its way to the agent. -/
  | clientClosed (channel : ChannelId) (r : Route)
  /-- A send to the proxy task has failed. -/
  | lost (channel : ChannelId) (r : Route)
  /-- The loop has taken the notification that this incarnation is closed. -/
  | notified (channel : ChannelId) (incarnation : ℕ)
  | toClient (m : Message)
  /-- The answer to an Open without a route. -/
  | refused (channel : ChannelId) (problem : String)

structure State where
  /-- `channel_routes`. -/
  routes : AList fun _ : ChannelId => Route
  /-- `remote_senders`, by host. -/
  remoteSenders : AList fun _ : String => ℕ
  /-- What `close_rx` holds, with the incarnation that was closed. -/
  closeNotify : List (ChannelId × ℕ)
  /-- What `from_agent` holds, by sender, with the incarnation that each message belongs to. -/
  forwarders : AList fun _ : ℕ => List (Message × ℕ)
  /-- The senders so far. -/
  senders : ℕ
  /-- Not part of the gateway: the channels opened so far, with their routes. -/
  opened : List (ChannelId × Route)
  history : List Event

/-- The session is authenticated. -/
def State.init : State := ⟨∅, ∅, [], ∅, 0, [], []⟩

/-- The answers that the loop gets while it handles a frame. -/
structure Answers where
  /-- The token of the cached sender is alive. -/
  tokenAlive : Bool
  /-- `connect_session` finds the host. -/
  online : Bool
  /-- The send to the proxy task goes through. -/
  sent : Bool
  deriving DecidableEq, Repr

/-- The gateway answers an Open with a Close of its own. -/
def refuse (channel : ChannelId) (problem : String) (s : State) : State :=
  { s with history := .refused channel problem :: s.history }

/-- The cached sender of the host, if its token is alive, and otherwise that of a new session with
the agent. -/
def senderFor (host : String) (ans : Answers) (s : State) : Except String ℕ × State :=
  match (s.remoteSenders.lookup host).filter fun _ => ans.tokenAlive with
  | some sender => (.ok sender, s)
  | none =>
    let evicted := { s with remoteSenders := s.remoteSenders.erase host }
    if evicted.remoteSenders.entries.length ≥ maxRemoteAgents then
      (.error "remote-agent-limit-exceeded", evicted)
    else if ans.online then
      (.ok s.senders,
        { evicted with
          remoteSenders := evicted.remoteSenders.insert host s.senders
          forwarders := s.forwarders.insert s.senders []
          senders := s.senders + 1 })
    else (.error "host-offline", evicted)

/-- The route is put in and the Open sent to the proxy task; when that is gone, the route and the
sender are taken out again. -/
def sendOpen (w : WsId) (channel : ChannelId) (options : ChannelOpenOptions) (host : String)
    (sender : ℕ) (ans : Answers) (s : State) : State :=
  let r : Route := ⟨sender, s.opened.length⟩
  let routed := { s with routes := s.routes.insert channel r }
  if ans.sent then
    { routed with
      opened := (channel, r) :: s.opened
      history := .toAgent r (.open_ channel (cleanOpen w options)) :: s.history }
  else
    refuse channel "host-offline"
      { routed with
        routes := routed.routes.erase channel
        remoteSenders := s.remoteSenders.erase host }

def handleOpen (w : WsId) (channel : ChannelId) (options : ChannelOpenOptions) (ans : Answers)
    (s : State) : State :=
  if s.routes.entries.length ≥ maxChannelsPerSession then refuse channel "channel-limit-exceeded" s
  else if channel.utf8ByteSize > maxChannelIdLen - (sessionPrefixLen + 1) then
    refuse channel "channel-id-too-long" s
  else if channel ∈ s.routes then refuse channel "duplicate-channel-id" s
  else
    match (options.extra.lookup "host").bind Value.asStr with
    | none => refuse channel "host-required" s
    | some host =>
      match senderFor host ans s with
      | (.error problem, s) => refuse channel problem s
      | (.ok sender, s) => sendOpen w channel options host sender ans s

/-- A Data, Control or Close of the client goes through the route of its channel. -/
def handleRouted (channel : ChannelId) (m : Message) (isClose : Bool) (ans : Answers) (s : State) :
    State :=
  match s.routes.lookup channel with
  | none => s
  | some r =>
    if ¬ ans.sent then
      { s with
        routes := s.routes.erase channel
        history := .lost channel r :: s.history }
    else if isClose then
      { s with
        routes := s.routes.erase channel
        history := .clientClosed channel r :: .toAgent r m :: s.history }
    else { s with history := .toAgent r m :: s.history }

/-- A frame of the client, once it is decoded. -/
def handleFrame (w : WsId) (m : Message) (ans : Answers) (s : State) : State :=
  match m with
  | .open_ channel options => handleOpen w channel options ans s
  | .data channel d => handleRouted channel (.data channel d) false ans s
  | .control channel command extra =>
    handleRouted channel (.control channel command extra) false ans s
  | .close channel problem => handleRouted channel (.close channel problem) true ans s
  | _ => s

inductive Action
  | frame (m : Message) (ans : Answers)
  /-- An agent sends a message for an incarnation that was opened on it. -/
  | agentSends (sender : ℕ) (m : Message) (incarnation : ℕ)
  /-- A forwarder takes its next message; it ends when the browser does not get it. -/
  | forward (sender : ℕ) (sent : Bool)
  | forwarderEnds (sender : ℕ)
  /-- The loop takes a notification. -/
  | closeNotified

/-- One step of the loop, of a forwarder or of an agent.  The loop does nothing else while it
handles a frame. -/
def step (w : WsId) (s : State) : Action → Option State
  | .frame m ans => some (handleFrame w m ans s)
  | .agentSends sender m incarnation =>
    match s.forwarders.lookup sender, m.channel with
    | some inbox, some channel =>
      if (channel, ⟨sender, incarnation⟩) ∈ s.opened then
        some
          { s with
            forwarders := s.forwarders.insert sender (inbox ++ [(m, incarnation)]) }
      else none
    | _, _ => none
  | .forward sender sent =>
    match s.forwarders.lookup sender with
    | some ((m, incarnation) :: rest) =>
      if sent then
        let forwarded :=
          { s with
            forwarders := s.forwarders.insert sender rest
            history := .toClient m :: s.history }
        match m with
        | .close channel _ =>
          some { forwarded with closeNotify := s.closeNotify ++ [(channel, incarnation)] }
        | _ => some forwarded
      else some { s with forwarders := s.forwarders.erase sender }
    | _ => none
  | .forwarderEnds sender =>
    match s.forwarders.lookup sender with
    | some [] => some { s with forwarders := s.forwarders.erase sender }
    | _ => none
  | .closeNotified =>
    match s.closeNotify with
    | (channel, incarnation) :: rest =>
      some
        { s with
          routes := s.routes.erase channel
          closeNotify := rest
          history := .notified channel incarnation :: s.history }
    | [] => none

/-! ## The statement -/

/-- The route is gone for a reason of its own: the client closes the channel, a send fails, or the
loop is notified that this incarnation is closed. -/
def Event.ends (channel : ChannelId) (r : Route) : Event → Bool
  | clientClosed ch r' | lost ch r' => ch = channel ∧ r' = r
  | notified ch incarnation => ch = channel ∧ incarnation = r.incarnation
  | _ => false

/-- Every channel that was opened, and did not end for a reason of its own, has its route, and data
for it reaches its agent. -/
def Served (w : WsId) (s : State) : Prop :=
  ∀ channel r, (channel, r) ∈ s.opened → (∀ e ∈ s.history, e.ends channel r = false) →
    s.routes.lookup channel = some r ∧
      ∀ d ans, ans.sent → step w s (.frame (.data channel d) ans) =
        some { s with history := .toAgent r (.data channel d) :: s.history }

/-- The limits of a session. -/
def Bounded (s : State) : Prop :=
  s.routes.entries.length ≤ 512 ∧ s.remoteSenders.entries.length ≤ 50

/-- The channel that a message closes. -/
def closeOf : Message × ℕ → Option (ChannelId × ℕ)
  | (.close channel _, incarnation) => some (channel, incarnation)
  | _ => none

/-- The Closes of agents that the loop has not taken yet: those that wait for a forwarder, and those
that wait for the loop. -/
def underWay (s : State) : List (ChannelId × ℕ) :=
  s.closeNotify ++ s.forwarders.entries.flatMap fun f => f.2.filterMap closeOf

/-- A client opens an id only when no Close of it is under way; an agent closes no incarnation of a
channel while a later one has the route. -/
def Timely (s : State) : Action → Prop
  | .frame (.open_ channel _) ans =>
    ans.sent → channel ∉ s.routes → ∀ x ∈ underWay s, x.1 ≠ channel
  | .agentSends _ (.close channel _) incarnation =>
    ∀ r ∈ s.routes.lookup channel, r.incarnation = incarnation
  | _ => True

instance (s : State) (a : Action) : Decidable (Timely s a) := by
  unfold Timely
  split
  all_goals infer_instance

/-! ## What a step does -/

/-- What a step does to the routes and to the Closes under way. -/
inductive Effect (s t : State) : Action → Prop
  | kept {a : Action} (routes : t.routes = s.routes) (underWay : underWay t ⊆ underWay s)
      (opened : t.opened = s.opened) (history : s.history ⊆ t.history) : Effect s t a
  | opened {channel : ChannelId} {options : ChannelOpenOptions} {ans : Answers} (r : Route)
      (sent : ans.sent) (free : channel ∉ s.routes)
      (routes : t.routes = s.routes.insert channel r) (underWay : underWay t ⊆ underWay s)
      (opened : t.opened = (channel, r) :: s.opened) (history : s.history ⊆ t.history) :
      Effect s t (.frame (.open_ channel options) ans)
  | dropped {m : Message} {ans : Answers} (channel : ChannelId) (r : Route)
      (route : s.routes.lookup channel = some r) (routes : t.routes = s.routes.erase channel)
      (underWay : underWay t = underWay s) (opened : t.opened = s.opened)
      (history : s.history ⊆ t.history) (ends : ∃ e ∈ t.history, e.ends channel r) :
      Effect s t (.frame m ans)
  | sent {sender : ℕ} {m : Message} {incarnation : ℕ} (routes : t.routes = s.routes)
      (underWay : ∀ x ∈ underWay t, x ∈ underWay s ∨ closeOf (m, incarnation) = some x)
      (opened : t.opened = s.opened) (history : s.history ⊆ t.history) :
      Effect s t (.agentSends sender m incarnation)
  | notified (channel : ChannelId) (incarnation : ℕ)
      (first : (channel, incarnation) ∈ underWay s) (routes : t.routes = s.routes.erase channel)
      (underWay : underWay t ⊆ underWay s) (opened : t.opened = s.opened)
      (history : t.history = .notified channel incarnation :: s.history) :
      Effect s t .closeNotified

section

variable {w : WsId} {s t : State}

theorem mem_underWay {x : ChannelId × ℕ} : x ∈ underWay s ↔ x ∈ s.closeNotify ∨
    ∃ sender inbox, s.forwarders.lookup sender = some inbox ∧ x ∈ inbox.filterMap closeOf := by
  rw [underWay, List.mem_append, List.mem_flatMap]
  refine or_congr_right ⟨?_, ?_⟩
  · rintro ⟨⟨sender, inbox⟩, hmem, hx⟩
    exact ⟨sender, inbox, AList.mem_lookup_iff.2 hmem, hx⟩
  · rintro ⟨sender, inbox, hlookup, hx⟩
    exact ⟨⟨sender, inbox⟩, AList.mem_lookup_iff.1 hlookup, hx⟩

/-- The inbox of a forwarder is put in place. -/
theorem underWay_insert {sender : ℕ} {inbox : List (Message × ℕ)} {x : ChannelId × ℕ}
    (hx : x ∈ underWay t) (hforwarders : t.forwarders = s.forwarders.insert sender inbox)
    (hnotify : t.closeNotify = s.closeNotify) :
    x ∈ underWay s ∨ x ∈ inbox.filterMap closeOf := by
  rcases mem_underWay.1 hx with hold | ⟨sender', inbox', hlookup, hmem⟩
  · exact .inl (mem_underWay.2 (.inl (hnotify ▸ hold)))
  · rw [hforwarders] at hlookup
    rcases AList.lookup_insert_eq_some_iff.1 hlookup with ⟨-, rfl⟩ | ⟨-, hlookup⟩
    · exact .inr hmem
    · exact .inl (mem_underWay.2 (.inr ⟨sender', inbox', hlookup, hmem⟩))

theorem underWay_erase {sender : ℕ} (hforwarders : t.forwarders = s.forwarders.erase sender)
    (hnotify : t.closeNotify = s.closeNotify) : underWay t ⊆ underWay s := by
  intro x hx
  rcases mem_underWay.1 hx with hold | ⟨sender', inbox', hlookup, hmem⟩
  · exact mem_underWay.2 (.inl (hnotify ▸ hold))
  · rw [hforwarders] at hlookup
    exact mem_underWay.2
      (.inr ⟨sender', inbox', (AList.lookup_erase_eq_some_iff.1 hlookup).2, hmem⟩)

theorem underWay_of_eq (hforwarders : t.forwarders = s.forwarders)
    (hnotify : t.closeNotify = s.closeNotify) : underWay t = underWay s := by
  rw [underWay, underWay, hforwarders, hnotify]

/-- Looking for the sender of a host changes nothing about channels. -/
theorem senderFor_keeps (host : String) (ans : Answers) (s : State) :
    (senderFor host ans s).2.routes = s.routes ∧ (senderFor host ans s).2.opened = s.opened ∧
      (senderFor host ans s).2.history = s.history ∧
        underWay (senderFor host ans s).2 ⊆ underWay s := by
  unfold senderFor
  split
  · exact ⟨rfl, rfl, rfl, List.Subset.refl _⟩
  · dsimp only
    split_ifs
    · exact ⟨rfl, rfl, rfl, List.Subset.refl _⟩
    · refine ⟨rfl, rfl, rfl, fun x hx => ?_⟩
      rcases underWay_insert (s := s) hx rfl rfl with hold | hnew
      · exact hold
      · cases hnew
    · exact ⟨rfl, rfl, rfl, List.Subset.refl _⟩

theorem effect_sendOpen {channel : ChannelId} {options : ChannelOpenOptions} {ans : Answers}
    {host : String} {sender : ℕ} {u : State} (hfree : channel ∉ s.routes)
    (hroutes : u.routes = s.routes) (hopened : u.opened = s.opened)
    (hhistory : u.history = s.history) (hunderWay : underWay u ⊆ underWay s) :
    Effect s (sendOpen w channel options host sender ans u)
      (.frame (.open_ channel options) ans) := by
  unfold sendOpen
  dsimp only
  split_ifs with hsent
  · refine .opened ⟨sender, u.opened.length⟩ hsent hfree ?_ hunderWay ?_ ?_
    · rw [hroutes]
    · rw [hopened]
    · rw [hhistory]
      exact List.subset_cons_self _ _
  · refine .kept ?_ hunderWay hopened ?_
    · rw [hroutes]
      exact AList.erase_insert_of_notMem hfree
    · exact hhistory ▸ List.subset_cons_self _ _

theorem effect_handleOpen (channel : ChannelId) (options : ChannelOpenOptions) (ans : Answers) :
    Effect s (handleOpen w channel options ans s) (.frame (.open_ channel options) ans) := by
  have hrefused (problem : String) (u : State) (hroutes : u.routes = s.routes)
      (hopened : u.opened = s.opened) (hhistory : u.history = s.history)
      (hunderWay : underWay u ⊆ underWay s) :
      Effect s (refuse channel problem u) (.frame (.open_ channel options) ans) :=
    .kept hroutes hunderWay hopened (hhistory ▸ List.subset_cons_self _ _)
  unfold handleOpen
  split_ifs with hlimit hsize hmem
  · exact hrefused _ s rfl rfl rfl (List.Subset.refl _)
  · exact hrefused _ s rfl rfl rfl (List.Subset.refl _)
  · exact hrefused _ s rfl rfl rfl (List.Subset.refl _)
  · split
    · exact hrefused _ s rfl rfl rfl (List.Subset.refl _)
    · rename_i host _
      obtain ⟨hroutes, hopened, hhistory, hunderWay⟩ := senderFor_keeps host ans s
      split
      · rename_i problem u heq
        rw [heq] at hroutes hopened hhistory hunderWay
        exact hrefused problem u hroutes hopened hhistory hunderWay
      · rename_i sender u heq
        rw [heq] at hroutes hopened hhistory hunderWay
        exact effect_sendOpen hmem hroutes hopened hhistory hunderWay

theorem effect_handleRouted (channel : ChannelId) (m m' : Message) (isClose : Bool)
    (ans : Answers) : Effect s (handleRouted channel m isClose ans s) (.frame m' ans) := by
  unfold handleRouted
  split
  · exact .kept rfl (List.Subset.refl _) rfl (List.Subset.refl _)
  · rename_i r hroute
    have hhistory (e : Event) : s.history ⊆ e :: s.history := List.subset_cons_self _ _
    split_ifs
    · refine .dropped channel r hroute rfl (underWay_of_eq rfl rfl) rfl ?_ ?_
      · exact fun e he => List.mem_cons_of_mem _ (hhistory _ he)
      · exact ⟨_, List.mem_cons_self, by simp [Event.ends]⟩
    · exact .kept rfl (List.Subset.refl _) rfl (hhistory _)
    · refine .dropped channel r hroute rfl (underWay_of_eq rfl rfl) rfl (hhistory _) ?_
      exact ⟨_, List.mem_cons_self, by simp [Event.ends]⟩

theorem effect_step {a : Action} (h : step w s a = some t) : Effect s t a := by
  cases a with
  | frame m ans =>
    cases h
    cases m with
    | open_ channel options => exact effect_handleOpen channel options ans
    | data channel d => exact effect_handleRouted channel _ _ false ans
    | control channel command extra => exact effect_handleRouted channel _ _ false ans
    | close channel problem => exact effect_handleRouted channel _ _ true ans
    | _ => exact .kept rfl (List.Subset.refl _) rfl (List.Subset.refl _)
  | agentSends sender m incarnation =>
    simp only [step] at h
    split at h
    · rename_i inbox channel hlookup hchannel
      split_ifs at h
      cases h
      refine .sent rfl (fun x hx => ?_) rfl (List.Subset.refl _)
      rcases underWay_insert (s := s) hx rfl rfl with hold | hnew
      · exact .inl hold
      · rw [List.filterMap_append, List.mem_append] at hnew
        rcases hnew with hold | hnew
        · exact .inl (mem_underWay.2 (.inr ⟨sender, inbox, hlookup, hold⟩))
        · exact .inr (by simpa using hnew)
    · cases h
  | forward sender sent =>
    simp only [step] at h
    split at h
    · rename_i m incarnation rest hlookup
      have hrest (x : ChannelId × ℕ) (hx : x ∈ rest.filterMap closeOf) : x ∈ underWay s := by
        refine mem_underWay.2 (.inr ⟨sender, _, hlookup, ?_⟩)
        rw [← List.singleton_append, List.filterMap_append]
        exact List.mem_append_right _ hx
      have hforwarded (u : State) (hforwarders : u.forwarders = s.forwarders.insert sender rest)
          (hnotify : u.closeNotify = s.closeNotify) : underWay u ⊆ underWay s := by
        intro x hx
        rcases underWay_insert hx hforwarders hnotify with hold | hmem
        · exact hold
        · exact hrest x hmem
      split_ifs at h
      · split at h
        · rename_i channel problem
          cases h
          refine .kept rfl (fun x hx => ?_) rfl (List.subset_cons_self _ _)
          rcases mem_underWay.1 hx with hnotify | hinbox
          · rcases List.mem_append.1 hnotify with hold | hnew
            · exact mem_underWay.2 (.inl hold)
            · refine mem_underWay.2 (.inr ⟨sender, _, hlookup, ?_⟩)
              rw [List.mem_singleton.1 hnew]
              exact List.mem_cons_self
          · exact hforwarded { s with forwarders := s.forwarders.insert sender rest } rfl rfl
              (mem_underWay.2 (.inr hinbox))
        · cases h
          exact .kept rfl (hforwarded _ rfl rfl) rfl (List.subset_cons_self _ _)
      · cases h
        exact .kept rfl (underWay_erase rfl rfl) rfl (List.Subset.refl _)
    · cases h
  | forwarderEnds sender =>
    simp only [step] at h
    split at h
    · cases h
      exact .kept rfl (underWay_erase rfl rfl) rfl (List.Subset.refl _)
    · cases h
  | closeNotified =>
    simp only [step] at h
    split at h
    · rename_i channel incarnation rest hnotify
      cases h
      refine .notified channel incarnation ?_ rfl (fun x hx => ?_) rfl rfl
      · exact mem_underWay.2 (.inl (hnotify ▸ List.mem_cons_self))
      · rcases mem_underWay.1 hx with hold | hforwarded
        · exact mem_underWay.2 (.inl (hnotify ▸ List.mem_cons_of_mem _ hold))
        · exact mem_underWay.2 (.inr hforwarded)
    · cases h

end

/-! ## The limits -/

section

variable {w : WsId} {s t : State}

theorem length_erase_le {α β : Type} [DecidableEq α] (table : AList fun _ : α => β) (a : α) :
    (table.erase a).entries.length ≤ table.entries.length :=
  AList.length_entries_le fun _ h => (AList.mem_erase.1 h).2

theorem length_insert_le {α β : Type} [DecidableEq α] {table : AList fun _ : α => β} {a : α} {b : β}
    {n : ℕ} (hmem : a ∉ table) (h : table.entries.length < n) :
    (table.insert a b).entries.length ≤ n := by
  rw [AList.entries_insert_of_notMem hmem]
  exact h

theorem bounded_senderFor (hs : Bounded s) (host : String) (ans : Answers) :
    Bounded (senderFor host ans s).2 := by
  have herase : (s.remoteSenders.erase host).entries.length ≤ 50 :=
    (length_erase_le s.remoteSenders host).trans hs.2
  unfold senderFor
  split
  · exact hs
  · dsimp only
    split_ifs with hlimit
    · exact ⟨hs.1, herase⟩
    · refine ⟨hs.1, length_insert_le (fun hmem => (AList.mem_erase.1 hmem).1 rfl) ?_⟩
      exact Nat.not_le.1 hlimit
    · exact ⟨hs.1, herase⟩

theorem bounded_sendOpen (hs : Bounded s) {channel : ChannelId} (hfree : channel ∉ s.routes)
    (hlimit : s.routes.entries.length < maxChannelsPerSession) (options : ChannelOpenOptions)
    (host : String) (sender : ℕ) (ans : Answers) :
    Bounded (sendOpen w channel options host sender ans s) := by
  have hinsert (r : Route) : (s.routes.insert channel r).entries.length ≤ 512 :=
    length_insert_le hfree hlimit
  unfold sendOpen
  dsimp only
  split_ifs
  · exact ⟨hinsert _, hs.2⟩
  · exact ⟨(length_erase_le ..).trans (hinsert _), (length_erase_le ..).trans hs.2⟩

theorem bounded_handleOpen (hs : Bounded s) (channel : ChannelId) (options : ChannelOpenOptions)
    (ans : Answers) : Bounded (handleOpen w channel options ans s) := by
  unfold handleOpen
  split_ifs with hlimit hsize hmem
  · exact hs
  · exact hs
  · exact hs
  · split
    · exact hs
    · rename_i host _
      obtain ⟨hroutes, -⟩ := senderFor_keeps host ans s
      have hbounded := bounded_senderFor hs host ans
      split
      · rename_i problem u heq
        rw [heq] at hbounded
        exact hbounded
      · rename_i sender u heq
        rw [heq] at hroutes hbounded
        dsimp only at hroutes
        refine bounded_sendOpen hbounded ?_ ?_ options host sender ans
        · rwa [hroutes]
        · rw [hroutes]
          exact Nat.not_le.1 hlimit

theorem bounded_handleRouted (hs : Bounded s) (channel : ChannelId) (m : Message) (isClose : Bool)
    (ans : Answers) : Bounded (handleRouted channel m isClose ans s) := by
  have herase : (s.routes.erase channel).entries.length ≤ 512 :=
    (length_erase_le s.routes channel).trans hs.1
  unfold handleRouted
  split
  · exact hs
  · split_ifs
    · exact ⟨herase, hs.2⟩
    · exact hs
    · exact ⟨herase, hs.2⟩

theorem bounded_step {a : Action} (hs : Bounded s) (h : step w s a = some t) : Bounded t := by
  cases a with
  | frame m ans =>
    cases h
    cases m with
    | open_ channel options => exact bounded_handleOpen hs channel options ans
    | data channel d => exact bounded_handleRouted hs channel _ false ans
    | control channel command extra => exact bounded_handleRouted hs channel _ false ans
    | close channel problem => exact bounded_handleRouted hs channel _ true ans
    | _ => exact hs
  | agentSends sender m incarnation =>
    simp only [step] at h
    split at h
    · split_ifs at h
      cases h
      exact hs
    · cases h
  | forward sender sent =>
    simp only [step] at h
    split at h
    · split_ifs at h
      · split at h
        all_goals
          cases h
          exact hs
      · cases h
        exact hs
    · cases h
  | forwarderEnds sender =>
    simp only [step] at h
    split at h
    · cases h
      exact hs
    · cases h
  | closeNotified =>
    simp only [step] at h
    split at h
    · rename_i channel n rest _
      cases h
      exact ⟨(length_erase_le s.routes channel).trans hs.1, hs.2⟩
    · cases h

end

/-! ## Runs -/

/-- A Close under way for a channel with a route is that of this route, and the channels that have
not ended have their routes. -/
structure Invariant (s : State) : Prop where
  underWay : ∀ channel incarnation, (channel, incarnation) ∈ underWay s →
    ∀ r, s.routes.lookup channel = some r → r.incarnation = incarnation
  routes : ∀ channel r, (channel, r) ∈ s.opened → (∀ e ∈ s.history, e.ends channel r = false) →
    s.routes.lookup channel = some r

section

variable {w : WsId} {s t : State} {a : Action}

theorem invariant_init : Invariant .init where
  underWay _ _ h := by cases h
  routes _ _ h := by cases h

theorem Invariant.served (hs : Invariant s) : Served w s := by
  intro channel r hopened hends
  have hroute := hs.routes channel r hopened hends
  refine ⟨hroute, fun d ans hsent => ?_⟩
  simp [step, handleFrame, handleRouted, hroute, hsent]

/-- What did not end later did not end before. -/
theorem not_ends_mono {channel : ChannelId} {r : Route} (hhistory : s.history ⊆ t.history)
    (h : ∀ e ∈ t.history, e.ends channel r = false) : ∀ e ∈ s.history, e.ends channel r = false :=
  fun e he => h e (hhistory he)

theorem invariant_step (hs : Invariant s) (htimely : Timely s a) (h : step w s a = some t) :
    Invariant t := by
  cases effect_step h with
  | kept hroutes hunderWay hopened hhistory =>
    refine ⟨fun channel n hn r hr => ?_, fun channel r hr hends => ?_⟩
    · rw [hroutes] at hr
      exact hs.underWay channel n (hunderWay hn) r hr
    · rw [hroutes]
      rw [hopened] at hr
      exact hs.routes channel r hr (not_ends_mono hhistory hends)
  | @opened channel options ans r hsent hfree hroutes hunderWay hopened hhistory =>
    refine ⟨fun channel' n hn r' hr' => ?_, fun channel' r' hr' hends => ?_⟩
    · have hne : channel' ≠ channel := htimely hsent hfree (channel', n) (hunderWay hn)
      rw [hroutes, AList.lookup_insert_ne hne] at hr'
      exact hs.underWay channel' n (hunderWay hn) r' hr'
    · rw [hroutes]
      rw [hopened] at hr'
      rcases List.mem_cons.1 hr' with heq | hold
      · cases heq
        exact AList.lookup_insert s.routes
      · have hroute := hs.routes channel' r' hold (not_ends_mono hhistory hends)
        have hne : channel' ≠ channel := by
          rintro rfl
          exact hfree (AList.lookup_isSome.1 (Option.isSome_of_eq_some hroute))
        rwa [AList.lookup_insert_ne hne]
  | dropped channel r hroute hroutes hunderWay hopened hhistory hended =>
    refine ⟨fun channel' n hn r' hr' => ?_, fun channel' r' hr' hends => ?_⟩
    · rw [hroutes] at hr'
      rw [hunderWay] at hn
      exact hs.underWay channel' n hn r' (AList.lookup_erase_eq_some_iff.1 hr').2
    · rw [hopened] at hr'
      have hold := hs.routes channel' r' hr' (not_ends_mono hhistory hends)
      rw [hroutes]
      refine AList.lookup_erase_eq_some_iff.2 ⟨?_, hold⟩
      rintro rfl
      cases hroute.symm.trans hold
      obtain ⟨e, he, hend⟩ := hended
      rw [hends e he] at hend
      cases hend
  | @sent sender m n hroutes hunderWay hopened hhistory =>
    refine ⟨fun channel' n' hn r' hr' => ?_, fun channel' r' hr' hends => ?_⟩
    · rw [hroutes] at hr'
      rcases hunderWay _ hn with hold | hnew
      · exact hs.underWay channel' n' hold r' hr'
      · cases m with
        | close channel problem =>
          cases hnew
          exact htimely r' hr'
        | _ => cases hnew
    · rw [hroutes]
      rw [hopened] at hr'
      exact hs.routes channel' r' hr' (not_ends_mono hhistory hends)
  | notified channel n hfirst hroutes hunderWay hopened hhistory =>
    refine ⟨fun channel' n' hn r' hr' => ?_, fun channel' r' hr' hends => ?_⟩
    · rw [hroutes] at hr'
      exact hs.underWay channel' n' (hunderWay hn) r' (AList.lookup_erase_eq_some_iff.1 hr').2
    · rw [hopened] at hr'
      have hold := hs.routes channel' r' hr'
        (not_ends_mono (hhistory ▸ List.subset_cons_self _ _) hends)
      rw [hroutes]
      refine AList.lookup_erase_eq_some_iff.2 ⟨?_, hold⟩
      rintro rfl
      -- the notification is that of the route itself
      have hown := hs.underWay channel' n hfirst r' hold
      have hend := hends (.notified channel' n) (hhistory ▸ List.mem_cons_self)
      simp [Event.ends, hown] at hend

end

/-- In every run the limits hold, and, when every id is opened again only after every Close of it
has been taken, no route is lost to the Close of an earlier incarnation. -/
theorem served_of_meets (w : WsId) (as : List Action) (s : State)
    (hr : run (step w) .init as = some s) :
    Bounded s ∧ (Meets (step w) Timely .init as → Served w s) := by
  refine ⟨?_, fun htimely => ?_⟩
  · exact invariant_of_run (fun _ _ _ hs h => bounded_step hs h)
      ⟨Nat.zero_le _, Nat.zero_le _⟩ hr
  · exact (invariant_of_meets (fun _ _ _ hs hC h => invariant_step hs hC h) invariant_init hr
      htimely).served

/-- Every send goes through. -/
def allWell : Answers := ⟨true, true, true⟩

/-- A client opens a terminal and the agent closes it; the client closes it, too, and opens the id
again on another host.  The Close of the agent is taken at the given time. -/
def reopens (early late : List Action) : List Action :=
  [.frame (.open_ "1" (Relay.terminalOn "web")) allWell, .agentSends 0 (.close "1" none) 0,
    .forward 0 true] ++ early ++
  [.frame (.close "1" none) allWell, .frame (.open_ "1" (Relay.terminalOn "db")) allWell] ++ late

theorem served_reopens : ∃ s,
    run (step (Relay.alice 0)) .init (reopens [.closeNotified] []) = some s ∧
      s.routes.lookup "1" = some ⟨1, 1⟩ ∧ Bounded s ∧ Served (Relay.alice 0) s :=
  have h := served_of_meets (Relay.alice 0) (reopens [.closeNotified] []) _ rfl
  ⟨_, rfl, rfl, h.1, h.2 (by decide)⟩

/-- Taken after the id was opened again, the Close of the first terminal removes the route of the
second one, and what the client types is lost. -/
theorem not_served_reopens : ∃ s,
    run (step (Relay.alice 0)) .init (reopens [] [.closeNotified]) = some s ∧
      ("1", ⟨1, 1⟩) ∈ s.opened ∧
      step (Relay.alice 0) s (.frame (.data "1" (.string "ls")) allWell) = some s ∧
      ¬ Served (Relay.alice 0) s := by
  refine ⟨_, rfl, by decide, rfl, fun h => ?_⟩
  obtain ⟨hroute, -⟩ := h "1" ⟨1, 1⟩ (by decide) (by decide)
  cases hroute

end Tenodera.Gateway.Incarnations
