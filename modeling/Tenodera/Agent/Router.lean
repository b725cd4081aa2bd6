import Tenodera.Lib.Table
import Tenodera.Protocol.Message

/-!
# The router of an agent

A router hands the messages of one connection to the gateway on to the handlers.  Every Open brings
the identity of its session; the router keeps the options of a channel and puts that identity into
the Data that follows.  `Router.Kept.handle` says when it still has the options it needs.
-/

namespace Tenodera.Agent

open Protocol

/-! ## Handlers -/

/-- The handlers of an agent.  What a handler answers depends on the host as well; the number of
messages that the router has taken before stands for that. -/
structure Handlers (H : Type*) where
  /-- The handler registered for a payload. -/
  byPayload : String → Option H
  isStreaming : H → Bool
  open_ : ℕ → H → ChannelId → ChannelOpenOptions → List Message
  data : ℕ → H → ChannelId → Value → List Message

/-- What a handler is called with. -/
inductive Call (H : Type*)
  | stream (handler : H) (channel : ChannelId) (options : ChannelOpenOptions)
  | open_ (handler : H) (channel : ChannelId) (options : ChannelOpenOptions)
  | data (handler : H) (channel : ChannelId) (data : Value)

/-! ## The router -/

structure Router (H : Type*) where
  /-- The streaming channels; an entry stays until the gateway closes its channel. -/
  activeChannels : AList fun _ : ChannelId => H
  channelHandlers : AList fun _ : ChannelId => H
  channelOptions : AList fun _ : ChannelId => ChannelOpenOptions

/-- What becomes of a message: the router after it, the handler called, and the responses. -/
structure Handled (H : Type*) where
  router : Router H
  call : Option (Call H)
  responses : List Message

/-- `Map::insert`, up to the order of the members. -/
def insertMember (key : String) (value : Value) (entries : List (String × Value)) :
    List (String × Value) :=
  (key, value) :: entries.filter fun e => e.1 ≠ key

/-- The members with one field of the options put in, if the options have it. -/
def injectField (options : ChannelOpenOptions) (key : String) (entries : List (String × Value)) :
    List (String × Value) :=
  match options.extra.lookup key with
  | some value => insertMember key value entries
  | none => entries

/-- The data with the session context of the stored options; only objects can take it. -/
def enrich (options : ChannelOpenOptions) : Value → Value
  | .object entries => .object (injectField options "_role" (injectField options "_user" entries))
  | data => data

/-- The message closes the channel. -/
def closes (channel : ChannelId) : Message → Bool
  | .close c _ => c = channel
  | _ => false

variable {H : Type*}

namespace Router

def new : Router H := ⟨∅, ∅, ∅⟩

/-- The handler that Data on the channel goes to: that of a streaming channel comes first. -/
def tracked (r : Router H) (channel : ChannelId) : Option H :=
  r.activeChannels.lookup channel <|> r.channelHandlers.lookup channel

def handleOpen (hs : Handlers H) (n : ℕ) (r : Router H) (channel : ChannelId)
    (options : ChannelOpenOptions) : Handled H :=
  match hs.byPayload options.payload with
  | some handler =>
    if hs.isStreaming handler then
      { router :=
          { r with
            activeChannels := r.activeChannels.insert channel handler
            channelOptions := r.channelOptions.insert channel options }
        call := some (.stream handler channel options)
        responses := [] }
    else
      let handlers := r.channelHandlers.insert channel handler
      let opts := r.channelOptions.insert channel options
      let msgs := hs.open_ n handler channel options
      -- A one-shot handler has closed the channel already: the tracking is freed.
      let closed := msgs.any (closes channel)
      { router :=
          { r with
            channelHandlers := if closed then handlers.erase channel else handlers
            channelOptions := if closed then opts.erase channel else opts }
        call := some (.open_ handler channel options)
        responses := msgs }
  | none =>
    ⟨r, none, [.close channel (some ("unknown-payload: " ++ options.payload))]⟩

def handleData (hs : Handlers H) (n : ℕ) (r : Router H) (channel : ChannelId) (data : Value) :
    Handled H :=
  match r.tracked channel with
  | some handler =>
    let enriched :=
      match r.channelOptions.lookup channel with
      | some options => enrich options data
      | none => data
    ⟨r, some (.data handler channel enriched), hs.data n handler channel enriched⟩
  | none => ⟨r, none, []⟩

def handleClose (r : Router H) (channel : ChannelId) : Handled H :=
  { router :=
      { activeChannels := r.activeChannels.erase channel
        channelHandlers := r.channelHandlers.erase channel
        channelOptions := r.channelOptions.erase channel }
    call := none
    responses := [] }

/-- `Router::handle`, for the message that comes after `n` others. -/
def handle (hs : Handlers H) (n : ℕ) (r : Router H) : Message → Handled H
  | .open_ channel options => r.handleOpen hs n channel options
  | .data channel data => r.handleData hs n channel data
  | .close channel _ => r.handleClose channel
  | .ping => ⟨r, none, [.pong]⟩
  | _ => ⟨r, none, []⟩

end Router

/-! ## What is handed to the handlers -/

variable {hs : Handlers H} {n : ℕ} {r : Router H} {channel : ChannelId}
  {options : ChannelOpenOptions} {handler : H} {m : Message}

/-- The values of the members of that name; only objects have members. -/
def membersNamed (key : String) : Value → List Value
  | .object entries => (entries.filter fun e => e.1 = key).map Prod.snd
  | _ => []

theorem membersNamed_insertMember_self (key : String) (value : Value)
    (entries : List (String × Value)) :
    membersNamed key (.object (insertMember key value entries)) = [value] := by
  simp [membersNamed, insertMember]

theorem membersNamed_insertMember_of_ne {key key' : String} (h : key' ≠ key) (value : Value)
    (entries : List (String × Value)) :
    membersNamed key' (.object (insertMember key value entries)) =
      membersNamed key' (.object entries) := by
  have hpred (e : String × Value) :
      (decide (e.1 = key') && decide (e.1 ≠ key)) = decide (e.1 = key') := by
    by_cases he : e.1 = key'
    · simp [he, h]
    · simp [he]
  simp only [membersNamed, insertMember]
  rw [List.filter_cons_of_neg (by simpa using h.symm), List.filter_filter]
  simp only [hpred]

/-- An object that takes the context has it once, whatever it had before. -/
theorem membersNamed_enrich {user role : Value} (huser : options.extra.lookup "_user" = some user)
    (hrole : options.extra.lookup "_role" = some role) (entries : List (String × Value)) :
    membersNamed "_user" (enrich options (.object entries)) = [user] ∧
      membersNamed "_role" (enrich options (.object entries)) = [role] := by
  simp only [enrich, injectField, huser, hrole]
  constructor
  · rw [membersNamed_insertMember_of_ne (by decide), membersNamed_insertMember_self]
  · rw [membersNamed_insertMember_self]

namespace Router

/-- Where Data goes to a handler there are options, and they are as `P` says. -/
def Kept (P : ChannelId → ChannelOpenOptions → Prop) (r : Router H) : Prop :=
  ∀ channel handler, r.tracked channel = some handler →
    ∃ options, r.channelOptions.lookup channel = some options ∧ P channel options

/-- The Open is a one-shot request: its handler closes the channel at once. -/
def oneShot (hs : Handlers H) (n : ℕ) (channel : ChannelId) (options : ChannelOpenOptions) : Bool :=
  match hs.byPayload options.payload with
  | some handler =>
    !hs.isStreaming handler && (hs.open_ n handler channel options).any (closes channel)
  | none => false

variable {P : ChannelId → ChannelOpenOptions → Prop}

theorem kept_new : (new : Router H).Kept P := by
  intro channel handler h
  cases h

/-- A change of the tables on one channel leaves the others alone. -/
theorem Kept.of_change (channel : ChannelId) {r' : Router H} (hr : r.Kept P)
    (hactive : ∀ c, c ≠ channel → r'.activeChannels.lookup c = r.activeChannels.lookup c)
    (hhandlers : ∀ c, c ≠ channel → r'.channelHandlers.lookup c = r.channelHandlers.lookup c)
    (hoptions : ∀ c, c ≠ channel → r'.channelOptions.lookup c = r.channelOptions.lookup c)
    (hchannel : ∀ handler, r'.tracked channel = some handler →
      ∃ options, r'.channelOptions.lookup channel = some options ∧ P channel options) :
    r'.Kept P := by
  intro c handler hc
  by_cases heq : c = channel
  · subst heq
    exact hchannel handler hc
  · rw [tracked, hactive c heq, hhandlers c heq] at hc
    rw [hoptions c heq]
    exact hr c handler hc

theorem Kept.handleOpen (hr : r.Kept P) (hP : P channel options)
    (hopen : oneShot hs n channel options → channel ∉ r.activeChannels) :
    (r.handleOpen hs n channel options).router.Kept P := by
  unfold Router.handleOpen
  split
  swap
  · exact hr
  rename_i handler hhandler
  split_ifs with hstreaming
  · refine hr.of_change channel (fun c hc => AList.lookup_insert_ne hc)
      (fun _ _ => rfl) (fun c hc => AList.lookup_insert_ne hc) ?_
    intro _ _
    exact ⟨options, AList.lookup_insert _, hP⟩
  · by_cases hclosed : (hs.open_ n handler channel options).any (closes channel)
    · have hshot : oneShot hs n channel options := by
        simp only [oneShot, hhandler, hclosed, Bool.and_true, Bool.not_eq_true']
        simpa using hstreaming
      have hactive : r.activeChannels.lookup channel = none :=
        AList.lookup_eq_none.2 (hopen hshot)
      simp only [hclosed, if_true]
      refine hr.of_change channel (fun _ _ => rfl) (fun c hc => ?_) (fun c hc => ?_) ?_
      · rw [AList.lookup_erase_ne hc, AList.lookup_insert_ne hc]
      · rw [AList.lookup_erase_ne hc, AList.lookup_insert_ne hc]
      · intro _ htracked
        simp [tracked, hactive] at htracked
    · simp only [hclosed, Bool.false_eq_true, if_false]
      refine hr.of_change channel (fun _ _ => rfl)
        (fun c hc => AList.lookup_insert_ne hc) (fun c hc => AList.lookup_insert_ne hc) ?_
      intro _ _
      exact ⟨options, AList.lookup_insert _, hP⟩

theorem Kept.handleClose (hr : r.Kept P) (channel : ChannelId) :
    (r.handleClose channel).router.Kept P := by
  refine hr.of_change channel (fun c hc => AList.lookup_erase_ne hc)
    (fun c hc => AList.lookup_erase_ne hc) (fun c hc => AList.lookup_erase_ne hc) ?_
  intro _ htracked
  simp [Router.handleClose, tracked] at htracked

/-- As long as no one-shot request comes on a channel that is tracked as streaming, the router has
the options of every channel that it tracks. -/
theorem Kept.handle (hr : r.Kept P)
    (hm : ∀ channel options, m = .open_ channel options →
      P channel options ∧ (oneShot hs n channel options → channel ∉ r.activeChannels)) :
    (r.handle hs n m).router.Kept P := by
  cases m with
  | open_ channel options =>
    obtain ⟨hP, hopen⟩ := hm channel options rfl
    exact hr.handleOpen hP hopen
  | data channel data =>
    have hrouter : (r.handleData hs n channel data).router = r := by
      unfold handleData
      split <;> rfl
    rw [Router.handle, hrouter]
    exact hr
  | close channel problem => exact hr.handleClose channel
  | _ => exact hr

/-- A handler is called with the options of an Open, or with Data in which the options kept for the
channel have been put. -/
theorem call_handle {call : Call H} (hr : r.Kept P) (h : (r.handle hs n m).call = some call) :
    (∃ handler channel options, m = .open_ channel options ∧
      (call = .stream handler channel options ∨ call = .open_ handler channel options)) ∨
    ∃ handler channel data options, m = .data channel data ∧
      r.channelOptions.lookup channel = some options ∧ P channel options ∧
      call = .data handler channel (enrich options data) := by
  cases m with
  | open_ channel options =>
    left
    simp only [handle, Router.handleOpen] at h
    split at h
    · rename_i handler _
      split_ifs at h
      · cases h
        exact ⟨handler, channel, options, rfl, .inl rfl⟩
      all_goals
        cases h
        exact ⟨handler, channel, options, rfl, .inr rfl⟩
    · cases h
  | data channel data =>
    right
    simp only [handle, handleData] at h
    split at h
    · rename_i handler htracked
      obtain ⟨options, hoptions, hP⟩ := hr channel handler htracked
      rw [hoptions] at h
      cases h
      exact ⟨handler, channel, data, options, rfl, hoptions, hP, rfl⟩
    · cases h
  | _ => cases h

end Router

end Tenodera.Agent
