import Tenodera.Agent.Router
import Tenodera.Lib.Run

/-!
# The tables of the router

The router over the life of a connection, any messages and any handlers.  A channel ends in four
ways, and only the router's own ones free its entries: `tidy_iff` says when no entry outlives its
channel, `dispatched_iff` when Data reaches the handler that opened the channel last.
-/

namespace Tenodera.Agent.Serving

open Protocol Transition

variable {H : Type*}

/-! ## The system -/

/-- The router, and what the connection has seen.  `current` and `streams` are not part of the
agent. -/
structure State (H : Type*) where
  router : Router H
  taken : ℕ
  /-- The open channels, each with the handler and the options of the Open accepted last. -/
  current : AList fun _ : ChannelId => H × ChannelOpenOptions
  /-- The channels of the streams that are still running. -/
  streams : List ChannelId

def State.init : State H := ⟨.new, 0, ∅, []⟩

inductive Action
  | message (m : Message)
  /-- A streaming handler ends its channel by itself, past the router. -/
  | streamCloses (channel : ChannelId)

/-- The open channels without those that the responses close. -/
def closeAll (msgs : List Message) (current : AList fun _ : ChannelId => H × ChannelOpenOptions) :
    AList fun _ : ChannelId => H × ChannelOpenOptions :=
  current.retain fun channel _ => !msgs.any (closes channel)

/-- The open channels after a message and its responses.  Whether the Close that refuses an unknown
payload ends the channel that had the id before is left open. -/
def State.opened (hs : Handlers H) (refusalCloses : Bool) (s : State H) (m : Message)
    (msgs : List Message) : AList fun _ : ChannelId => H × ChannelOpenOptions :=
  match m with
  | .open_ channel options =>
    match hs.byPayload options.payload with
    | some handler => closeAll msgs (s.current.insert channel (handler, options))
    | none => if refusalCloses then s.current.erase channel else s.current
  | .data _ _ => closeAll msgs s.current
  | .close channel _ => s.current.erase channel
  | _ => s.current

def started (call : Option (Call H)) : List ChannelId :=
  match call with
  | some (.stream _ channel _) => [channel]
  | _ => []

def step (hs : Handlers H) (refusalCloses : Bool) (s : State H) : Action → Option (State H)
  | .message m =>
    let handled := s.router.handle hs s.taken m
    some
      { router := handled.router
        taken := s.taken + 1
        current := s.opened hs refusalCloses m handled.responses
        streams := started handled.call ++ s.streams }
  | .streamCloses channel =>
    if channel ∈ s.streams then
      some { s with current := s.current.erase channel, streams := s.streams.erase channel }
    else none

/-! ## What is wanted -/

/-- One of the tables has an entry for the channel. -/
def Mentions (r : Router H) (channel : ChannelId) : Prop :=
  channel ∈ r.activeChannels ∨ channel ∈ r.channelHandlers ∨ channel ∈ r.channelOptions

instance (r : Router H) (channel : ChannelId) : Decidable (Mentions r channel) :=
  inferInstanceAs (Decidable (_ ∨ _ ∨ _))

/-- No table mentions a closed channel, nor has it more entries than there are open channels. -/
structure Tidy (s : State H) : Prop where
  freed : ∀ channel, channel ∉ s.current → ¬ Mentions s.router channel
  active : s.router.activeChannels.entries.length ≤ s.current.entries.length
  handlers : s.router.channelHandlers.entries.length ≤ s.current.entries.length
  options : s.router.channelOptions.entries.length ≤ s.current.entries.length

/-- The handler that Data on a channel goes to, and the options it goes with. -/
def target (r : Router H) (channel : ChannelId) : Option (H × Option ChannelOpenOptions) :=
  (r.tracked channel).map fun handler => (handler, r.channelOptions.lookup channel)

/-- Data goes to the handler, and with the options, of the Open accepted last, and on a closed
channel nowhere. -/
def Dispatched (s : State H) : Prop :=
  ∀ channel, target s.router channel =
    (s.current.lookup channel).map fun opened => (opened.1, some opened.2)

/-! ## When the tables are kept -/

/-- What the handler of a tracked channel answers to Data on it. -/
def dataReplies (hs : Handlers H) (n : ℕ) (r : Router H) (channel : ChannelId) (data : Value) :
    List Message :=
  match r.tracked channel, r.channelOptions.lookup channel with
  | some handler, some options => hs.data n handler channel (enrich options data)
  | some handler, none => hs.data n handler channel data
  | none, _ => []

/-- What the responses close is not in the tables, where the router frees only the one-shot entries
of the channel it opens. -/
def Frees (hs : Handlers H) (refusalCloses : Bool) (s : State H) : Action → Prop
  | .message (.open_ channel options) =>
    match hs.byPayload options.payload with
    | some handler =>
      if hs.isStreaming handler then True
      else
        ∀ c, (hs.open_ s.taken handler channel options).any (closes c) →
          if c = channel then c ∉ s.router.activeChannels else ¬ Mentions s.router c
    | none => refusalCloses → ¬ Mentions s.router channel
  | .message (.data channel data) =>
    ∀ c, (dataReplies hs s.taken s.router channel data).any (closes c) → ¬ Mentions s.router c
  | .message _ => True
  | .streamCloses channel => ¬ Mentions s.router channel

/-- No streaming channel stays behind under the id of an Open of another kind, and what the
responses close is not tracked. -/
def Unshadowed (hs : Handlers H) (refusalCloses : Bool) (s : State H) : Action → Prop
  | .message (.open_ channel options) =>
    match hs.byPayload options.payload with
    | some handler =>
      if hs.isStreaming handler then True
      else
        channel ∉ s.router.activeChannels ∧
        ∀ c, (hs.open_ s.taken handler channel options).any (closes c) → c ≠ channel →
          s.router.tracked c = none
    | none => refusalCloses → s.router.tracked channel = none
  | .message (.data channel data) =>
    ∀ c, (dataReplies hs s.taken s.router channel data).any (closes c) →
      s.router.tracked c = none
  | .message _ => True
  | .streamCloses channel => s.router.tracked channel = none

section

variable {hs : Handlers H} {refusalCloses : Bool} {s t : State H} {r : Router H} {n : ℕ}
  {channel c : ChannelId} {options : ChannelOpenOptions} {handler : H} {msgs : List Message}

@[simp]
theorem router_handleData (hs : Handlers H) (n : ℕ) (r : Router H) (channel : ChannelId)
    (data : Value) : (r.handleData hs n channel data).router = r := by
  unfold Router.handleData
  cases r.tracked channel <;> rfl

@[simp]
theorem responses_handleData (hs : Handlers H) (n : ℕ) (r : Router H) (channel : ChannelId)
    (data : Value) :
    (r.handleData hs n channel data).responses = dataReplies hs n r channel data := by
  unfold Router.handleData dataReplies
  cases r.tracked channel with
  | none => rfl
  | some handler => cases r.channelOptions.lookup channel <;> rfl

/-- Data is handed over as `target` says. -/
theorem call_handleData (hs : Handlers H) (n : ℕ) (r : Router H) (channel : ChannelId)
    (data : Value) :
    (r.handleData hs n channel data).call = (target r channel).map fun t =>
      .data t.1 channel (match t.2 with
        | some options => enrich options data
        | none => data) := by
  unfold Router.handleData target
  cases r.tracked channel with
  | none => rfl
  | some handler => rfl

theorem handleOpen_of_unknown (h : hs.byPayload options.payload = none) :
    r.handleOpen hs n channel options =
      ⟨r, none, [.close channel (some ("unknown-payload: " ++ options.payload))]⟩ := by
  unfold Router.handleOpen
  rw [h]

theorem handleOpen_of_streaming (h : hs.byPayload options.payload = some handler)
    (hstreaming : hs.isStreaming handler) :
    r.handleOpen hs n channel options =
      { router :=
          { r with
            activeChannels := r.activeChannels.insert channel handler
            channelOptions := r.channelOptions.insert channel options }
        call := some (.stream handler channel options)
        responses := [] } := by
  unfold Router.handleOpen
  rw [h]
  dsimp only
  rw [if_pos hstreaming]

theorem handleOpen_of_oneShot (h : hs.byPayload options.payload = some handler)
    (hstreaming : ¬ hs.isStreaming handler) :
    r.handleOpen hs n channel options =
      { router :=
          if (hs.open_ n handler channel options).any (closes channel) then
            { r with
              channelHandlers := (r.channelHandlers.insert channel handler).erase channel
              channelOptions := (r.channelOptions.insert channel options).erase channel }
          else
            { r with
              channelHandlers := r.channelHandlers.insert channel handler
              channelOptions := r.channelOptions.insert channel options }
        call := some (.open_ handler channel options)
        responses := hs.open_ n handler channel options } := by
  unfold Router.handleOpen
  rw [h]
  dsimp only
  rw [if_neg hstreaming]
  split_ifs <;> rfl

theorem mem_closeAll {current : AList fun _ : ChannelId => H × ChannelOpenOptions} :
    c ∈ closeAll msgs current ↔ c ∈ current ∧ ¬ msgs.any (closes c) := by
  rw [closeAll, AList.mem_retain_iff]
  simp

/-! ## Entries -/

theorem tidy_iff_freed :
    Tidy s ↔ ∀ channel, channel ∉ s.current → ¬ Mentions s.router channel := by
  refine ⟨Tidy.freed, fun h => ?_⟩
  have hopen (channel : ChannelId) (hm : Mentions s.router channel) : channel ∈ s.current := by
    by_contra hclosed
    exact h channel hclosed hm
  refine ⟨h, ?_, ?_, ?_⟩
  · exact AList.length_entries_le fun channel hc => hopen channel (.inl hc)
  · exact AList.length_entries_le fun channel hc => hopen channel (.inr (.inl hc))
  · exact AList.length_entries_le fun channel hc => hopen channel (.inr (.inr hc))

theorem mentions_handleOpen_of_ne (hne : c ≠ channel) :
    Mentions (r.handleOpen hs n channel options).router c ↔ Mentions r c := by
  cases hhandler : hs.byPayload options.payload with
  | none => rw [handleOpen_of_unknown hhandler]
  | some handler =>
    by_cases hstreaming : hs.isStreaming handler
    · rw [handleOpen_of_streaming hhandler hstreaming]
      simp [Mentions, hne]
    · rw [handleOpen_of_oneShot hhandler hstreaming]
      dsimp only
      split_ifs <;> simp [Mentions, hne]

/-- After an Open that is not one of a stream the channel is forgotten only when it is closed at
once and no stream had it before. -/
theorem mentions_handleOpen_self (hhandler : hs.byPayload options.payload = some handler)
    (hstreaming : ¬ hs.isStreaming handler) :
    Mentions (r.handleOpen hs n channel options).router channel ↔
      ((hs.open_ n handler channel options).any (closes channel) →
        channel ∈ r.activeChannels) := by
  rw [handleOpen_of_oneShot hhandler hstreaming]
  dsimp only
  split_ifs with hclosed <;> simp [Mentions, hclosed]

/-- An Open tidies up after itself iff no response closes what is left in a table. -/
theorem tidy_step_open (h : Tidy s)
    (ht : step hs refusalCloses s (.message (.open_ channel options)) = some t) :
    Tidy t ↔ Frees hs refusalCloses s (.message (.open_ channel options)) := by
  have hfreed := h.freed
  obtain rfl := Option.some.inj ht
  rw [tidy_iff_freed]
  simp only [Frees, Router.handle, State.opened]
  cases hhandler : hs.byPayload options.payload with
  | none =>
    simp only [handleOpen_of_unknown hhandler]
    by_cases hrefusal : refusalCloses
    · rw [if_pos hrefusal]
      refine ⟨fun hall _ => hall channel fun hmem => (AList.mem_erase.1 hmem).1 rfl,
        fun hchannel c hc => ?_⟩
      by_cases heq : c = channel
      · exact heq ▸ hchannel hrefusal
      · exact hfreed c fun hmem => hc (AList.mem_erase.2 ⟨heq, hmem⟩)
    · rw [if_neg hrefusal]
      exact iff_of_true hfreed fun hrefusal' => absurd hrefusal' hrefusal
  | some handler =>
    dsimp only
    by_cases hstreaming : hs.isStreaming handler
    · rw [if_pos hstreaming, iff_true]
      intro c hc
      have hresponses : (s.router.handleOpen hs s.taken channel options).responses = [] := by
        rw [handleOpen_of_streaming hhandler hstreaming]
      rw [hresponses, mem_closeAll, AList.mem_insert] at hc
      have hne : c ≠ channel := fun heq => hc ⟨.inl heq, Bool.false_ne_true⟩
      rw [mentions_handleOpen_of_ne hne]
      exact hfreed c fun hmem => hc ⟨.inr hmem, Bool.false_ne_true⟩
    · have hresponses : (s.router.handleOpen hs s.taken channel options).responses =
          hs.open_ s.taken handler channel options := by
        rw [handleOpen_of_oneShot hhandler hstreaming]
      rw [if_neg hstreaming, hresponses]
      refine forall_congr' fun c => ?_
      rw [mem_closeAll, AList.mem_insert]
      by_cases heq : c = channel
      · subst heq
        rw [mentions_handleOpen_self hhandler hstreaming, if_pos rfl]
        tauto
      · rw [mentions_handleOpen_of_ne heq, if_neg heq]
        have hold := hfreed c
        tauto

theorem tidy_step_data {data : Value} (h : Tidy s)
    (ht : step hs refusalCloses s (.message (.data channel data)) = some t) :
    Tidy t ↔ Frees hs refusalCloses s (.message (.data channel data)) := by
  have hfreed := h.freed
  obtain rfl := Option.some.inj ht
  rw [tidy_iff_freed]
  simp only [Frees, Router.handle, State.opened, router_handleData, responses_handleData]
  refine forall_congr' fun c => ?_
  rw [mem_closeAll]
  have hold := hfreed c
  tauto

theorem tidy_step_close {problem : Option String} (h : Tidy s)
    (ht : step hs refusalCloses s (.message (.close channel problem)) = some t) : Tidy t := by
  obtain rfl := Option.some.inj ht
  rw [tidy_iff_freed]
  intro c hc
  by_cases heq : c = channel
  · subst heq
    simp [Mentions, Router.handle, Router.handleClose]
  · have hold := h.freed c fun hmem => hc (AList.mem_erase.2 ⟨heq, hmem⟩)
    simpa [Mentions, Router.handle, Router.handleClose, heq] using hold

theorem tidy_step_streamCloses (h : Tidy s)
    (ht : step hs refusalCloses s (.streamCloses channel) = some t) :
    Tidy t ↔ Frees hs refusalCloses s (.streamCloses channel) := by
  have hfreed := h.freed
  simp only [step] at ht
  split_ifs at ht
  obtain rfl := Option.some.inj ht
  rw [tidy_iff_freed]
  constructor
  · intro hall
    exact hall channel fun hmem => (AList.mem_erase.1 hmem).1 rfl
  · intro hchannel c hc
    by_cases heq : c = channel
    · exact heq ▸ hchannel
    · exact hfreed c fun hmem => hc (AList.mem_erase.2 ⟨heq, hmem⟩)

theorem tidy_step (h : Tidy s) {a : Action} (ht : step hs refusalCloses s a = some t) :
    Tidy t ↔ Frees hs refusalCloses s a := by
  cases a with
  | streamCloses channel => exact tidy_step_streamCloses h ht
  | message m =>
    cases m with
    | open_ channel options => exact tidy_step_open h ht
    | data channel data => exact tidy_step_data h ht
    | close channel problem => exact iff_of_true (tidy_step_close h ht) trivial
    | _ =>
      obtain rfl := Option.some.inj ht
      exact iff_of_true (tidy_iff_freed.2 h.freed) trivial

/-! ## Dispatch -/

/-- Streams are the only channels of the table that Data looks in first. -/
def StreamsOnly (hs : Handlers H) (r : Router H) : Prop :=
  ∀ channel handler, r.activeChannels.lookup channel = some handler → hs.isStreaming handler

theorem StreamsOnly.handleOpen (h : StreamsOnly hs r) :
    StreamsOnly hs (r.handleOpen hs n channel options).router := by
  cases hhandler : hs.byPayload options.payload with
  | none =>
    rw [handleOpen_of_unknown hhandler]
    exact h
  | some handler =>
    by_cases hstreaming : hs.isStreaming handler
    · rw [handleOpen_of_streaming hhandler hstreaming]
      intro c handler' hc
      rcases AList.lookup_insert_eq_some_iff.1 hc with ⟨-, rfl⟩ | ⟨-, hc⟩
      · exact hstreaming
      · exact h c handler' hc
    · rw [handleOpen_of_oneShot hhandler hstreaming]
      split_ifs <;> exact h

theorem StreamsOnly.step (h : StreamsOnly hs s.router) {a : Action}
    (ht : step hs refusalCloses s a = some t) : StreamsOnly hs t.router := by
  cases a with
  | streamCloses channel =>
    simp only [Serving.step] at ht
    split_ifs at ht
    obtain rfl := Option.some.inj ht
    exact h
  | message m =>
    obtain rfl := Option.some.inj ht
    cases m with
    | open_ channel options => exact h.handleOpen
    | data channel data =>
      simp only [Router.handle, router_handleData]
      exact h
    | close channel problem =>
      intro c handler hc
      exact h c handler (AList.lookup_erase_eq_some_iff.1 hc).2
    | _ => exact h

theorem target_eq_none_iff : target r channel = none ↔ r.tracked channel = none :=
  Option.map_eq_none_iff

theorem lookup_closeAll_of_not {current : AList fun _ : ChannelId => H × ChannelOpenOptions}
    (h : ¬ msgs.any (closes c)) : (closeAll msgs current).lookup c = current.lookup c := by
  apply Option.ext
  intro opened
  rw [closeAll, AList.lookup_retain_eq_some_iff]
  simp only [Bool.eq_false_iff.2 h, Bool.not_false, and_true]

theorem lookup_closeAll_of_any {current : AList fun _ : ChannelId => H × ChannelOpenOptions}
    (h : msgs.any (closes c)) : (closeAll msgs current).lookup c = none := by
  rw [AList.lookup_eq_none, mem_closeAll]
  exact fun hc => hc.2 h

theorem target_handleOpen_of_ne (hne : c ≠ channel) :
    target (r.handleOpen hs n channel options).router c = target r c := by
  cases hhandler : hs.byPayload options.payload with
  | none => rw [handleOpen_of_unknown hhandler]
  | some handler =>
    by_cases hstreaming : hs.isStreaming handler
    · rw [handleOpen_of_streaming hhandler hstreaming]
      simp [target, Router.tracked, AList.lookup_insert_ne hne]
    · rw [handleOpen_of_oneShot hhandler hstreaming]
      dsimp only
      split_ifs <;>
        simp [target, Router.tracked, AList.lookup_insert_ne hne, AList.lookup_erase_ne hne]

/-- After an Open that is not one of a stream, Data goes to its handler with its options, or nowhere
when it closed the channel, unless a stream is still in the way. -/
theorem target_handleOpen_self (hhandler : hs.byPayload options.payload = some handler)
    (hstreaming : ¬ hs.isStreaming handler) (hactive : channel ∉ r.activeChannels) :
    target (r.handleOpen hs n channel options).router channel =
      if (hs.open_ n handler channel options).any (closes channel) then none
      else some (handler, some options) := by
  have hnone : r.activeChannels.lookup channel = none := AList.lookup_eq_none.2 hactive
  rw [handleOpen_of_oneShot hhandler hstreaming]
  dsimp only
  split_ifs <;> simp [target, Router.tracked, hnone]

theorem target_handleOpen_of_mem (hhandler : hs.byPayload options.payload = some handler)
    (hstreaming : ¬ hs.isStreaming handler)
    {stale : H} (hactive : r.activeChannels.lookup channel = some stale) :
    (target (r.handleOpen hs n channel options).router channel).map Prod.fst = some stale := by
  rw [handleOpen_of_oneShot hhandler hstreaming]
  dsimp only
  split_ifs <;> simp [target, Router.tracked, hactive]

theorem dispatched_step_open (hI : StreamsOnly hs s.router) (h : Dispatched s)
    (ht : step hs refusalCloses s (.message (.open_ channel options)) = some t) :
    Dispatched t ↔ Unshadowed hs refusalCloses s (.message (.open_ channel options)) := by
  obtain rfl := Option.some.inj ht
  simp only [Dispatched, Unshadowed, Router.handle, State.opened]
  cases hhandler : hs.byPayload options.payload with
  | none =>
    simp only [handleOpen_of_unknown hhandler]
    by_cases hrefusal : refusalCloses
    · rw [if_pos hrefusal]
      constructor
      · intro hall _
        have hchannel := hall channel
        rw [AList.lookup_erase, Option.map_none] at hchannel
        exact target_eq_none_iff.1 hchannel
      · intro hchannel c
        by_cases heq : c = channel
        · subst heq
          rw [AList.lookup_erase, target_eq_none_iff.2 (hchannel hrefusal), Option.map_none]
        · rw [AList.lookup_erase_ne heq]
          exact h c
    · rw [if_neg hrefusal]
      exact iff_of_true h fun hrefusal' => absurd hrefusal' hrefusal
  | some handler =>
    dsimp only
    by_cases hstreaming : hs.isStreaming handler
    · rw [if_pos hstreaming, iff_true]
      intro c
      have hresponses : (s.router.handleOpen hs s.taken channel options).responses = [] := by
        rw [handleOpen_of_streaming hhandler hstreaming]
      rw [hresponses, lookup_closeAll_of_not (by simp)]
      by_cases heq : c = channel
      · subst heq
        rw [handleOpen_of_streaming hhandler hstreaming]
        simp [target, Router.tracked]
      · rw [target_handleOpen_of_ne heq, AList.lookup_insert_ne heq]
        exact h c
    · have hresponses : (s.router.handleOpen hs s.taken channel options).responses =
          hs.open_ s.taken handler channel options := by
        rw [handleOpen_of_oneShot hhandler hstreaming]
      rw [if_neg hstreaming, hresponses]
      constructor
      · intro hall
        constructor
        · intro hmem
          obtain ⟨stale, hstale⟩ := Option.isSome_iff_exists.1 (AList.lookup_isSome.2 hmem)
          -- The stale stream takes the Data, and is no handler of the Open.
          have hfst := target_handleOpen_of_mem (n := s.taken) hhandler hstreaming hstale
          rw [hall channel] at hfst
          by_cases hclosed : (hs.open_ s.taken handler channel options).any (closes channel)
          · rw [lookup_closeAll_of_any hclosed] at hfst
            cases hfst
          · rw [lookup_closeAll_of_not hclosed, AList.lookup_insert] at hfst
            obtain rfl := Option.some.inj hfst
            exact hstreaming (hI channel handler hstale)
        · intro c hclosed hne
          have hc := hall c
          rw [target_handleOpen_of_ne hne, lookup_closeAll_of_any hclosed, Option.map_none] at hc
          exact target_eq_none_iff.1 hc
      · rintro ⟨hactive, hothers⟩ c
        by_cases heq : c = channel
        · subst heq
          rw [target_handleOpen_self hhandler hstreaming hactive]
          split_ifs with hclosed
          · rw [lookup_closeAll_of_any hclosed, Option.map_none]
          · rw [lookup_closeAll_of_not hclosed, AList.lookup_insert, Option.map_some]
        · rw [target_handleOpen_of_ne heq]
          by_cases hclosed : (hs.open_ s.taken handler channel options).any (closes c)
          · rw [lookup_closeAll_of_any hclosed, Option.map_none]
            exact target_eq_none_iff.2 (hothers c hclosed heq)
          · rw [lookup_closeAll_of_not hclosed, AList.lookup_insert_ne heq]
            exact h c

theorem dispatched_step_data {data : Value} (h : Dispatched s)
    (ht : step hs refusalCloses s (.message (.data channel data)) = some t) :
    Dispatched t ↔ Unshadowed hs refusalCloses s (.message (.data channel data)) := by
  obtain rfl := Option.some.inj ht
  simp only [Dispatched, Unshadowed, Router.handle, State.opened, router_handleData,
    responses_handleData]
  refine forall_congr' fun c => ?_
  by_cases hclosed : (dataReplies hs s.taken s.router channel data).any (closes c)
  · rw [lookup_closeAll_of_any hclosed, Option.map_none, target_eq_none_iff]
    exact ⟨fun hc _ => hc, fun hc => hc hclosed⟩
  · rw [lookup_closeAll_of_not hclosed]
    exact iff_of_true (h c) fun hc => absurd hc hclosed

theorem dispatched_step_close {problem : Option String} (h : Dispatched s)
    (ht : step hs refusalCloses s (.message (.close channel problem)) = some t) :
    Dispatched t := by
  obtain rfl := Option.some.inj ht
  intro c
  by_cases heq : c = channel
  · subst heq
    simp [target, Router.tracked, Router.handle, Router.handleClose, State.opened]
  · have hc := h c
    simpa [target, Router.tracked, Router.handle, Router.handleClose, State.opened,
      AList.lookup_erase_ne heq] using hc

theorem dispatched_step_streamCloses (h : Dispatched s)
    (ht : step hs refusalCloses s (.streamCloses channel) = some t) :
    Dispatched t ↔ Unshadowed hs refusalCloses s (.streamCloses channel) := by
  simp only [step] at ht
  split_ifs at ht
  obtain rfl := Option.some.inj ht
  constructor
  · intro hall
    have hchannel := hall channel
    rw [AList.lookup_erase, Option.map_none] at hchannel
    exact target_eq_none_iff.1 hchannel
  · intro hchannel c
    by_cases heq : c = channel
    · subst heq
      rw [AList.lookup_erase, target_eq_none_iff.2 hchannel, Option.map_none]
    · rw [AList.lookup_erase_ne heq]
      exact h c

theorem dispatched_step (hI : StreamsOnly hs s.router) (h : Dispatched s) {a : Action}
    (ht : step hs refusalCloses s a = some t) :
    Dispatched t ↔ Unshadowed hs refusalCloses s a := by
  cases a with
  | streamCloses channel => exact dispatched_step_streamCloses h ht
  | message m =>
    cases m with
    | open_ channel options => exact dispatched_step_open hI h ht
    | data channel data => exact dispatched_step_data h ht
    | close channel problem => exact iff_of_true (dispatched_step_close h ht) trivial
    | _ =>
      obtain rfl := Option.some.inj ht
      exact iff_of_true h trivial

end

/-! ## Whole connections -/

/-- A stream, a request that is answered at once, and one that waits for Data. -/
def sampleHandlers : Handlers String where
  byPayload payload :=
    if payload ∈ ["storage.stream", "system.info", "certs.manage"] then some payload else none
  isStreaming handler := handler = "storage.stream"
  open_ _ handler channel _ :=
    if handler = "system.info" then [.ready channel, .data channel .null, .close channel none]
    else [.ready channel]
  data _ handler channel _ :=
    if handler = "certs.manage" then [.data channel .null, .close channel none] else []

def openOn (payload : String) (channel : ChannelId) : Action :=
  .message (.open_ channel ⟨payload, none, ∅⟩)

theorem tidy_init : Tidy (State.init : State H) := by
  rw [tidy_iff_freed]
  intro channel _
  simp [Mentions, State.init, Router.new]

theorem dispatched_init : Dispatched (State.init : State H) := fun _ => rfl

/-- The tables of the router stay tidy exactly as long as every channel that a response closes, or
its stream, is not in a table any more. -/
theorem tidy_iff (hs : Handlers H) (refusalCloses : Bool) (as : List Action) {s : State H}
    (hr : run (step hs refusalCloses) .init as = some s) :
    Always (step hs refusalCloses) Tidy .init as ↔
      Meets (step hs refusalCloses) (Frees hs refusalCloses) .init as :=
  always_iff_meets (I := fun _ => True) (fun _ _ _ _ _ => trivial)
    (fun _ _ _ _ h ht => tidy_step h ht) trivial tidy_init hr

theorem tidy_request : Always (step sampleHandlers true) Tidy .init
    [openOn "system.info" "c1", openOn "storage.stream" "c2", .message (.close "c2" none)] := by
  apply (tidy_iff sampleHandlers true _ rfl).2
  refine ⟨?_, fun t ht => ⟨trivial, fun _ _ => ⟨trivial, fun _ _ => trivial⟩⟩⟩
  simp [Frees, sampleHandlers, openOn, closes, Mentions, State.init, Router.new]

/-- The reply of `certs.manage` closes the channel, and its entries stay. -/
theorem not_tidy : ¬ ∃ refusalCloses, ∀ (as : List Action) (s : State String),
    run (step sampleHandlers refusalCloses) .init as = some s → Tidy s := by
  rintro ⟨refusalCloses, h⟩
  have hfreed := (h [openOn "certs.manage" "c1", .message (.data "c1" .null)] _ rfl).freed "c1"
  cases refusalCloses with
  | false => exact absurd (by decide) (hfreed (by decide))
  | true => exact absurd (by decide) (hfreed (by decide))

/-- Data is dispatched by the latest accepted Open exactly as long as no stream stays behind under
the id of another Open and no tracked channel is closed by a response or by its stream. -/
theorem dispatched_iff (hs : Handlers H) (refusalCloses : Bool) (as : List Action) {s : State H}
    (hr : run (step hs refusalCloses) .init as = some s) :
    Always (step hs refusalCloses) Dispatched .init as ↔
      Meets (step hs refusalCloses) (Unshadowed hs refusalCloses) .init as :=
  always_iff_meets (I := fun s => StreamsOnly hs s.router) (fun _ _ _ h ht => h.step ht)
    (fun _ _ _ hI h ht => dispatched_step hI h ht) nofun dispatched_init hr

theorem dispatched_request : Always (step sampleHandlers true) Dispatched .init
    [openOn "system.info" "c1", openOn "certs.manage" "c1", .message (.close "c1" none)] := by
  apply (dispatched_iff sampleHandlers true _ rfl).2
  refine ⟨?_, fun t ht => ⟨?_, fun _ _ => ⟨trivial, fun _ _ => trivial⟩⟩⟩
  · simp [Unshadowed, sampleHandlers, openOn, closes, State.init, Router.new]
  · obtain rfl := Option.some.inj ht
    simp [Unshadowed, sampleHandlers, openOn, closes, Router.handle, Router.handleOpen,
      State.init, Router.new]

/-- A stream ends itself and its id is used again: Data goes to the stream. -/
theorem not_dispatched : ¬ ∃ refusalCloses, ∀ (as : List Action) (s : State String),
    run (step sampleHandlers refusalCloses) .init as = some s → Dispatched s := by
  rintro ⟨refusalCloses, h⟩
  have hs := h [openOn "storage.stream" "c1", .streamCloses "c1", openOn "certs.manage" "c1"] _ rfl
  have hstale := congrArg (Option.map Prod.fst) (hs "c1")
  cases refusalCloses with
  | false => exact absurd hstale (by decide)
  | true => exact absurd hstale (by decide)

end Tenodera.Agent.Serving
