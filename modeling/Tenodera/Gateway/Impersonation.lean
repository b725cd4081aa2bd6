import Tenodera.Gateway.AgentRouters
import Tenodera.Gateway.Scrubbed

/-!
# No browser speaks for somebody else

Two runs in which the browsers send the same frames, except for members `_user` and `_role`, lead
through states that agree except for these members, and the handlers of the agents are called with
the same arguments: `identified_of_meets`.
-/

namespace Tenodera.Gateway.Relay

open Protocol Transition
open Agent (Handlers Router Call enrich)

/-- The same step, except for members `_user` and `_role` in a frame of a browser. -/
def Action.Resembles (a a' : Action) : Prop := a.scrub = a'.scrub

/-- The same steps, except for members `_user` and `_role` in the frames of browsers. -/
def SameButIdentity (as as' : List Action) : Prop := List.Forall₂ Action.Resembles as as'

variable {H : Type*} {hs : Handlers H} {s s' t t' : State} {act act' : Action}

/-! ## What the router makes of the members -/

/-- Enriched data depends on the other members only. -/
theorem enrich_eq {w : WsId} {options : ChannelOpenOptions} (h : Carries w options.extra)
    (entries : List (String × Value)) :
    enrich options (.object entries) =
      .object (("_role", .string w.role.asStr) :: ("_user", .string w.user) ::
        scrubMembers entries) := by
  have hkeys (e : String × Value) :
      (decide (e.1 ≠ "_role") && decide (e.1 ≠ "_user")) = decide (¬ isIdentityKey e.1) := by
    simp [isIdentityKey, Bool.and_comm]
  simp only [enrich, Agent.injectField, h.1, h.2, Agent.insertMember, scrubMembers]
  rw [List.filter_cons_of_pos (by simp), List.filter_filter]
  simp only [hkeys]

theorem enrich_congr {w : WsId} {options : ChannelOpenOptions} (h : Carries w options.extra)
    {data data' : Value} (hdata : scrubValue data = scrubValue data') :
    enrich options data = enrich options data' := by
  cases data with
  | object entries =>
    cases data' with
    | object entries' =>
      have hentries : scrubMembers entries = scrubMembers entries' := by
        simpa [scrubValue] using hdata
      rw [enrich_eq h, enrich_eq h, hentries]
    | _ => cases hdata
  | _ =>
    cases data' with
    | object entries' => cases hdata
    | _ => exact congrArg (enrich options) hdata

/-- Two messages that differ only in these members do the same at the agent. -/
theorem Guarded.take_congr (hg : Guarded hs s) {c : ConnId} {o : Owner} {m m' : Message}
    (hsent : Sent s c o m) (hm : o.scrub m = o.scrub m') :
    (replay hs c s.log).take hs o m = (replay hs c s.log).take hs o m' := by
  cases o with
  | rpc r => exact congrArg _ hm
  | ws w =>
    cases m with
    | data channel data =>
      cases m' with
      | data channel' data' =>
        obtain ⟨rfl, hdata⟩ : channel = channel' ∧ scrubValue data = scrubValue data' := by
          simpa [Owner.scrub, scrubData] using hm
        have hhandle : (replay hs c s.log).router.handleData hs (replay hs c s.log).taken channel
            data = (replay hs c s.log).router.handleData hs (replay hs c s.log).taken channel
              data' := by
          cases htracked : (replay hs c s.log).router.tracked channel with
          | none => simp only [Router.handleData, htracked]
          | some handler =>
            obtain ⟨options, hoptions, hf⟩ := hg.kept c channel handler htracked
            obtain ⟨id, rfl⟩ := hsent.channel channel rfl
            have hcarries := hg.carries (hsent.attached (.inl ⟨w, rfl⟩)) hf
            simp only [Router.handleData, htracked, hoptions, enrich_congr hcarries hdata]
        have hdecodes : decodes (.data channel data) = decodes (.data channel data') := rfl
        simp only [Replay.take, Router.handle, hhandle, hdecodes]
      | _ => cases hm
    | _ =>
      cases m' with
      | data channel' data' => cases hm
      | _ => exact congrArg _ hm

/-! ## Two runs -/

/-- Two states that agree except for the members, with routers that agree altogether. -/
structure Alike (hs : Handlers H) (s s' : State) : Prop where
  left : Guarded hs s
  right : Guarded hs s'
  scrubbed : s.scrub = s'.scrub
  routers : ∀ c, replay hs c s.log = replay hs c s'.log

theorem attaching_scrub (s : State) (act : Action) :
    s.scrub.attaching act.scrub = s.attaching act := by
  cases act with
  | wsConnect w =>
    simp only [State.attaching, Action.scrub, State.pending, session_scrub, Session.scrub]
    cases (s.session w).loop <;> rfl
  | _ => rfl

theorem delivers_scrub (s : State) (act : Action) :
    s.scrub.delivers act.scrub = s.delivers act := by
  cases act with
  | write c =>
    simp only [State.delivers, Action.scrub, conn_scrub, Conn.scrub, List.head?_map]
    cases (s.conn c).toAgent.head? with
    | none => rfl
    | some p =>
      obtain ⟨o, m⟩ := p
      cases o with
      | ws w => cases m <;> rfl
      | rpc r => cases m <;> rfl
  | _ => rfl

theorem Alike.undisturbed (h : Alike hs s s') (hact : act.Resembles act')
    (hC : Undisturbed hs s act) : Undisturbed hs s' act' := by
  have hattaching : s'.attaching act' = s.attaching act := by
    rw [← attaching_scrub s', ← h.scrubbed, ← hact, attaching_scrub]
  have hdelivers : s'.delivers act' = s.delivers act := by
    rw [← delivers_scrub s', ← h.scrubbed, ← hact, delivers_scrub]
  have hattached : s'.attached = s.attached := (congrArg State.attached h.scrubbed).symm
  constructor
  · rw [OwnIdentity, hattaching, hattached]
    exact hC.1
  · intro p hp
    rw [hdelivers] at hp
    rw [← h.routers]
    exact hC.2 p hp

/-- A step that is not a send to an agent leaves the routers alone. -/
theorem replay_of_ne_write (h : Effect s act t) (hact : ∀ c, act ≠ .write c) (c : ConnId) :
    replay hs c t.log = replay hs c s.log := by
  rcases replay_of_effect hs h with hsame | ⟨d, _, _, hwrite, -, -⟩
  · exact hsame c
  · exact absurd hwrite (hact d)

theorem write_log {c : ConnId} (h : write c s = some t) :
    ∃ o m, (s.conn c).toAgent.head? = some (o, m) ∧ t.log = .toAgent c o m :: s.log := by
  simp only [write] at h
  split at h
  · rename_i o m rest hqueue
    cases h
    exact ⟨o, m, by rw [hqueue]; rfl, rfl⟩
  · cases h

theorem Alike.routers_of_write (h : Alike hs s s') {c : ConnId} (hs' : write c s = some t)
    (ht' : write c s' = some t') (d : ConnId) :
    replay hs d t.log = replay hs d t'.log := by
  obtain ⟨o, m, hhead, hlog⟩ := write_log hs'
  obtain ⟨o', m', hhead', hlog'⟩ := write_log ht'
  have hqueue := congrArg (fun r : State => (r.conn c).toAgent.head?) h.scrubbed
  simp only [conn_scrub, Conn.scrub, List.head?_map, hhead, hhead', Option.map_some,
    Option.some.injEq, Prod.mk.injEq] at hqueue
  obtain ⟨rfl, hm⟩ := hqueue
  have hsent := h.left.outgoing.toAgent c o m (List.mem_of_mem_head? hhead)
  rw [hlog, hlog', replay, replay, ← h.routers]
  split_ifs with hd
  · subst hd
    exact h.left.take_congr hsent hm
  · rfl

/-- The two systems go on in lock-step. -/
theorem Alike.step (h : Alike hs s s') (hC : Undisturbed hs s act) (hact : act.Resembles act')
    (hs' : step s act = some t) : ∃ t', step s' act' = some t' ∧ Alike hs t t' := by
  have hscrub : (Relay.step s' act').map State.scrub = some t.scrub := by
    rw [← step_scrub h.right.wf, ← hact, ← h.scrubbed, step_scrub h.left.wf, hs', Option.map_some]
  obtain ⟨t', ht', hscrubbed⟩ := Option.map_eq_some_iff.1 hscrub
  refine ⟨t', ht', h.left.of_step hC hs', h.right.of_step (h.undisturbed hact hC) ht',
    hscrubbed.symm, fun d => ?_⟩
  by_cases hwrite : ∃ c, act = .write c
  · obtain ⟨c, rfl⟩ := hwrite
    have hact' : act' = .write c := by
      cases act' with
      | wsFrame w m serial => cases hact
      | _ => exact hact.symm
    subst hact'
    exact h.routers_of_write hs' ht' d
  · have hne (c : ConnId) : act ≠ .write c := fun hc => hwrite ⟨c, hc⟩
    have hne' (c : ConnId) : act' ≠ .write c := by
      rintro rfl
      cases act with
      | wsFrame w m serial => cases hact
      | _ => exact hne c hact
    rw [replay_of_ne_write (step_effect hs') hne, replay_of_ne_write (step_effect ht') hne',
      h.routers]

theorem alike_init : Alike hs State.init State.init where
  left := guarded_init
  right := guarded_init
  scrubbed := rfl
  routers _ := rfl

/-- As long as a prefix stands for one identity on a connection and no one-shot request comes on a
channel that the agent still tracks as streaming, every handler sees the identity of the session,
and other members `_user` and `_role` in the frames make no difference to any handler. -/
theorem identified_of_meets (hs : Handlers H) {as as' : List Action}
    (hsame : SameButIdentity as as') (hr : run step State.init as = some s)
    (hC : Meets step (Undisturbed hs) State.init as) :
    Identified hs s ∧ ∃ s', run step State.init as' = some s' ∧ Identified hs s' ∧
      ∀ c, (replay hs c s'.log).calls = (replay hs c s.log).calls := by
  obtain ⟨s', hr', h⟩ := exists_run_of_related (R := Action.Resembles)
    (J := Alike hs) (fun _ _ _ _ _ hJ hC hact hstep => hJ.step hC hact hstep) alike_init hsame hr hC
  refine ⟨h.left.identified, s', hr', h.right.identified, fun c => ?_⟩
  rw [h.routers c]

/-! ## A disk usage scan -/

inductive UsageHandler
  | storageDu
  | systemInfo
  deriving DecidableEq, Repr

/-- Two handlers of the agent; the answer of the second one is that of a host called web. -/
def usageHandlers : Handlers UsageHandler where
  byPayload payload :=
    if payload = "storage.du" then some .storageDu
    else if payload = "system.info" then some .systemInfo
    else none
  isStreaming handler := handler = .storageDu
  open_ _ handler channel _ :=
    match handler with
    | .storageDu => []
    | .systemInfo =>
      [.ready channel,
        .data channel
          (.object [("hostname", .string "web"), ("os", .null),
            ("uptime_secs", .number (.posInt 60)), ("boot_time", .string ""),
            ("host_time", .string ""), ("host_tz", .string "UTC")]),
        .close channel none]
  data _ _ _ _ := []

def bobOnWeb : Attachment := ⟨.ws bob, webConn, 0⟩

def onWeb (payload : String) : ChannelOpenOptions :=
  ⟨payload, none, AList.singleton "host" (.string "web")⟩

/-- Bob sends a frame on a channel whose route is there. -/
def bobSends (m : Message) : List Action :=
  [.wsFrame bob m 0, .proxyStep bobOnWeb, .write webConn]

def agentSends (m : Message) : List Action :=
  [.agentRecv webConn m, .dispatch webConn, .forward bobOnWeb]

/-- Bob, who may only read, scans the disk of a host. -/
def bobScans : List Action :=
  [.agentUp webConn, .wsUp bob, .wsFrame bob (.open_ "1" (onWeb "storage.du")) 0, .wsConnect bob,
    .wsOpen bob, .proxyStep bobOnWeb, .write webConn]

def asAdmin : Value := .object [("_role", .string "admin")]

/-- The scan ends and closes its channel; bob opens the channel again, for a one-shot request, and
sends Data after it. -/
def bobReopens : List Action :=
  bobScans ++ agentSends (.ready "90c4d7a2-1") ++ agentSends (.data "90c4d7a2-1" .null) ++
    agentSends (.close "90c4d7a2-1" none) ++
    [.closeNotified bob, .wsFrame bob (.open_ "1" (onWeb "system.info")) 0, .wsOpen bob,
      .proxyStep bobOnWeb, .write webConn] ++
    bobSends (.data "1" asAdmin)

/-- The handler of the scan is called with the role that bob has given himself. -/
theorem reopened_channel_forges :
    ∃ s, run step State.init bobReopens = some s ∧ ¬ Identified usageHandlers s := by
  refine ⟨_, rfl, fun h => ?_⟩
  have hcall := h.calls webConn bob (.data .storageDu "90c4d7a2-1" asAdmin) (.head _)
  have hrole : Value.string "admin" = Value.string "readonly" := List.head_eq_of_cons_eq hcall.2
  simp at hrole

/-- While the scan goes on, the role in bob's Data makes no difference. -/
theorem identified_bobScans :
    ∃ s, run step State.init (bobScans ++ bobSends (.data "1" asAdmin)) = some s ∧
      Identified usageHandlers s ∧
      ∃ s', run step State.init (bobScans ++ bobSends (.data "1" (.object []))) = some s' ∧
        Identified usageHandlers s' ∧
        ∀ c, (replay usageHandlers c s'.log).calls = (replay usageHandlers c s.log).calls := by
  have hsame : SameButIdentity (bobScans ++ bobSends (.data "1" asAdmin))
      (bobScans ++ bobSends (.data "1" (.object []))) := by
    refine List.rel_append (R := Action.Resembles) (List.forall₂_same.2 fun _ _ => rfl) ?_
    exact .cons rfl (.cons rfl (.cons rfl .nil))
  exact ⟨_, rfl, identified_of_meets usageHandlers hsame rfl (by decide)⟩

end Tenodera.Gateway.Relay
