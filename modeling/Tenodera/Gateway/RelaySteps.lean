import Mathlib.Tactic.Common
import Tenodera.Gateway.Relay

/-!
# What a step of the relay can do

`step_effect` lists the outcomes of a step, once for all that is proved about steps.
-/

namespace Tenodera.Gateway.Relay

open Protocol

/-- The outcomes of a step. -/
inductive Effect (s : State) : Action → State → Prop
  | kept {act : Action} : Effect s act s
  | agentUp {c : ConnId} (absent : (s.conn c).reader = .absent) :
      Effect s (.agentUp c)
        { s.setConn c ⟨.reading, ∅, [], true, 0⟩ with registry := s.registry.insert c.host c }
  | kicked {host : String} {c : ConnId} (registered : s.registry.lookup host = some c) :
      Effect s (.kick host) { s.emit (.kicked c) with registry := s.registry.erase host }
  | dropped {c : ConnId} {m : Message} : Effect s (.agentRecv c m) (s.emit (.fromAgent c m))
  | taken {c : ConnId} {m stripped : Message} {pfx : String} {a : Attachment}
      (reading : (s.conn c).reader = .reading)
      (strip : stripPrefixFromMessage m = some (stripped, pfx))
      (subscribed : (s.conn c).subscribers.lookup pfx = some a) :
      Effect s (.agentRecv c m)
        ((s.emit (.fromAgent c m)).setConn c
          { s.conn c with
            reader := .dispatching ⟨stripped, m.channel.bind fun ch => lastOpener c ch s.log⟩ a })
  | delivered {c : ConnId} {frame : Frame} {a : Attachment}
      (dispatching : (s.conn c).reader = .dispatching frame a) (alive : (s.link a).inboxAlive) :
      Effect s (.dispatch c)
        ((s.setConn c { s.conn c with reader := .reading }).setLink a
          { s.link a with inbox := (s.link a).inbox ++ [frame] })
  | lost {c : ConnId} {frame : Frame} {a : Attachment}
      (dispatching : (s.conn c).reader = .dispatching frame a) :
      Effect s (.dispatch c) (s.setConn c { s.conn c with reader := .reading })
  | agentGone {c : ConnId} (reading : (s.conn c).reader = .reading) :
      Effect s (.agentGone c) (s.setConn c { s.conn c with reader := .ended })
  | unregistered {c : ConnId} (ended : (s.conn c).reader = .ended) :
      Effect s (.cleanup c)
        { s.setConn c { s.conn c with reader := .unregistered } with
          registry := s.registry.erase c.host }
  | writerAborted {c : ConnId} (unregistered : (s.conn c).reader = .unregistered) :
      Effect s (.abortWriter c)
        (s.setConn c { s.conn c with reader := .closed, toAgent := [], writerAlive := false })
  | written {c : ConnId} {o : Owner} {m : Message} {rest : List (Owner × Message)}
      (queue : (s.conn c).toAgent = (o, m) :: rest) :
      Effect s (.write c) ((s.setConn c { s.conn c with toAgent := rest }).emit (.toAgent c o m))
  | writerFailed {c : ConnId} :
      Effect s (.writerFails c)
        (s.setConn c { s.conn c with toAgent := [], writerAlive := false })
  | wsUp {w : WsId} (absent : (s.session w).loop = .absent) :
      Effect s (.wsUp w) (s.setSession w ⟨.select, ∅, ∅, []⟩)
  | answered {w : WsId} {m : Message} {serial : ℕ} (reply : Message) :
      Effect s (.wsFrame w m serial) (s.emit (.fromGateway w reply))
  | refused {act : Action} {w : WsId} {loop : Loop} (select : loop = .select) (host : String)
      (reply : Message) (running : (s.session w).loop.isRunning) :
      Effect s act
        ((s.setSession w
          { s.session w with loop, remoteSenders := (s.session w).remoteSenders.erase host }).emit
            (.fromGateway w reply))
  | openCached {w : WsId} {m : Message} {serial : ℕ} {p : PendingOpen}
      (select : (s.session w).loop = .select)
      (cached : (s.session w).remoteSenders.lookup p.host = some p.attachment) :
      Effect s (.wsFrame w m serial) (s.setSession w { s.session w with loop := .opening p })
  | openFresh {w : WsId} {m : Message} {serial : ℕ} {host : String} {channel : ChannelId}
      {options : ChannelOpenOptions} {c : ConnId} (select : (s.session w).loop = .select)
      (registered : s.registry.lookup host = some c) :
      Effect s (.wsFrame w m serial)
        (((s.setSession w
          { s.session w with
            remoteSenders := (s.session w).remoteSenders.erase host
            loop := .connecting ⟨host, channel, options, ⟨.ws w, c, serial⟩⟩ }).retain c).emit
              (.acquired ⟨.ws w, c, serial⟩))
  | connected {w : WsId} {p : PendingOpen} (connecting : (s.session w).loop = .connecting p)
      (fresh : p.attachment ∉ s.attached)
      (unlocked : (s.conn p.attachment.conn).reader.isDispatching = false) :
      Effect s (.wsConnect w)
        (((s.attach p.attachment ⟨[], true, [], true⟩).release p.attachment.conn).setSession w
          { s.session w with
            loop := .opening p
            remoteSenders := (s.session w).remoteSenders.insert p.host p.attachment })
  | opened {w : WsId} {p : PendingOpen} (opening : (s.session w).loop = .opening p)
      (alive : (s.link p.attachment).proxyAlive) :
      Effect s (.wsOpen w)
        (((s.setSession w
          { s.session w with
            loop := .select
            routes := (s.session w).routes.insert p.channel p.attachment }).setLink p.attachment
              { s.link p.attachment with
                proxy := (s.link p.attachment).proxy ++
                  [.open_ p.channel (cleanOpen w p.options)] }).emit
                    (.opened p.attachment p.channel))
  | routed {w : WsId} {m : Message} {serial : ℕ} {channel : ChannelId} {a : Attachment}
      (route : (s.session w).routes.lookup channel = some a) (alive : (s.link a).proxyAlive) :
      Effect s (.wsFrame w m serial)
        (s.setLink a { s.link a with proxy := (s.link a).proxy ++ [m] })
  | closed {w : WsId} {m : Message} {serial : ℕ} {channel : ChannelId} {a : Attachment}
      (select : (s.session w).loop = .select)
      (route : (s.session w).routes.lookup channel = some a) (alive : (s.link a).proxyAlive) :
      Effect s (.wsFrame w m serial)
        (((s.setSession w
          { s.session w with routes := (s.session w).routes.erase channel }).setLink a
            { s.link a with proxy := (s.link a).proxy ++ [m] }).emit (.closed a channel))
  | routeDropped {w : WsId} {m : Message} {serial : ℕ} (channel : ChannelId) :
      Effect s (.wsFrame w m serial)
        (s.setSession w { s.session w with routes := (s.session w).routes.erase channel })
  | routeClosed {w : WsId} {channel : ChannelId} {reporter route : Attachment}
      {rest : List (ChannelId × Attachment)}
      (reports : (s.session w).closeNotify = (channel, reporter) :: rest)
      (hroute : (s.session w).routes.lookup channel = some route) :
      Effect s (.closeNotified w)
        ((s.setSession w
          { s.session w with
            routes := (s.session w).routes.erase channel, closeNotify := rest }).emit
              (.routeClosed channel route reporter))
  | closeNoted {w : WsId} {channel : ChannelId} {reporter : Attachment}
      {rest : List (ChannelId × Attachment)}
      (reports : (s.session w).closeNotify = (channel, reporter) :: rest) :
      Effect s (.closeNotified w)
        (s.setSession w
          { s.session w with
            routes := (s.session w).routes.erase channel, closeNotify := rest })
  | ended {w : WsId} {reason : EndReason} (select : (s.session w).loop = .select) :
      Effect s (.wsEnd w reason) (s.setSession w ⟨.ended, ∅, ∅, []⟩)
  | proxyEnded {a : Attachment} :
      Effect s (.proxyStep a) (s.setLink a { s.link a with proxy := [], proxyAlive := false })
  | proxied {a : Attachment} {m : Message} {rest : List Message}
      (alive : (s.link a).proxyAlive) (queue : (s.link a).proxy = m :: rest) :
      Effect s (.proxyStep a)
        ((s.setLink a { s.link a with proxy := rest }).enqueue a.conn a.owner
          (prefixMessage m a.owner.pfx))
  | forwarded {a : Attachment} {w : WsId} {frame : Frame} {rest : List Frame}
      (owner : a.owner = .ws w) (alive : (s.link a).inboxAlive)
      (queue : (s.link a).inbox = frame :: rest) :
      Effect s (.forward a)
        ((s.setLink a { s.link a with inbox := rest }).emit (.toBrowser a frame))
  | reported {a : Attachment} {w : WsId} {frame : Frame} {rest : List Frame} {channel : ChannelId}
      {problem : Option String} (owner : a.owner = .ws w) (alive : (s.link a).inboxAlive)
      (queue : (s.link a).inbox = frame :: rest) (msg : frame.msg = .close channel problem) :
      Effect s (.forward a)
        (((s.setLink a { s.link a with inbox := rest }).emit (.toBrowser a frame)).setSession w
          { s.session w with closeNotify := (s.session w).closeNotify ++ [(channel, a)] })
  | forwarderEnded {a : Attachment} :
      Effect s (.forwarderEnds a) (s.setLink a { s.link a with inbox := [], inboxAlive := false })
  | rpcStarted {r : RpcId} {host payload : String} {requestData : Value} {serial : ℕ} {c : ConnId}
      (idle : s.rpc r = .idle) (registered : s.registry.lookup host = some c) :
      Effect s (.rpcStart r host payload requestData serial)
        (((s.setRpc r (.subscribing ⟨.rpc r, c, serial⟩ payload requestData)).retain c).emit
          (.acquired ⟨.rpc r, c, serial⟩))
  | rpcSubscribed {r : RpcId} {a : Attachment} {payload : String} {requestData : Value}
      (subscribing : s.rpc r = .subscribing a payload requestData) (fresh : a ∉ s.attached)
      (unlocked : (s.conn a.conn).reader.isDispatching = false) :
      Effect s (.rpcSubscribe r)
        ((s.attach a ⟨[], false, [], true⟩).setRpc r (.opening a payload requestData))
  | rpcOpened {r : RpcId} {a : Attachment} {payload : String} {requestData : Value} {m : Message}
      (opening : s.rpc r = .opening a payload requestData) :
      Effect s (.rpcSend r)
        (((s.enqueue a.conn a.owner m).emit (.opened a rpcChannel)).setRpc r
          (.awaitReady a requestData))
  | rpcRequested {r : RpcId} {a : Attachment} {requestData : Value} {m : Message}
      (sending : s.rpc r = .sending a requestData) :
      Effect s (.rpcSend r) ((s.enqueue a.conn a.owner m).setRpc r (.awaitResponse a))
  | rpcClosed {r : RpcId} {a : Attachment} {m : Message} (closing : s.rpc r = .closing a) :
      Effect s (.rpcSend r)
        (rpcDone r a ((s.enqueue a.conn a.owner m).emit (.closed a rpcChannel)))
  | rpcReceived {r : RpcId} {a : Attachment} {frame : Frame} {rest : List Frame}
      (waiting : (s.rpc r).waiting = some a) (queue : (s.link a).inbox = frame :: rest) :
      Effect s (.rpcRecv r)
        (((s.setLink a { s.link a with inbox := rest }).emit (.toCaller a frame)).setRpc r
          ((s.rpc r).received frame.msg))
  | rpcUnsubscribed {r : RpcId} {a : Attachment} (unsubscribing : s.rpc r = .unsubscribing a true) :
      Effect s (.rpcUnsubscribe r)
        ((s.setConn a.conn
          { s.conn a.conn with
            subscribers := (s.conn a.conn).subscribers.erase a.owner.pfx }).setRpc r (.closing a))
  | rpcRejected {r : RpcId} {a : Attachment} (unsubscribing : s.rpc r = .unsubscribing a false) :
      Effect s (.rpcUnsubscribe r)
        (rpcDone r a (s.setConn a.conn
          { s.conn a.conn with
            subscribers := (s.conn a.conn).subscribers.erase a.owner.pfx }))
  | rpcGivenUp {r : RpcId} {a : Attachment} (waiting : (s.rpc r).waiting = some a) :
      Effect s (.rpcGivesUp r) (rpcDone r a s)

variable {s t : State} {act : Action}

/-! ## Agent connections -/

theorem agentUp_effect {c : ConnId} (h : agentUp c s = some t) : Effect s (.agentUp c) t := by
  unfold agentUp at h
  split at h
  · rename_i absent
    cases h
    exact .agentUp absent
  · cases h

theorem kick_effect {host : String} : Effect s (.kick host) (kick host s) := by
  unfold kick
  split
  · rename_i registered
    exact .kicked registered
  · exact .kept

theorem agentRecv_effect {c : ConnId} {m : Message} (h : agentRecv c m s = some t) :
    Effect s (.agentRecv c m) t := by
  simp only [agentRecv] at h
  split at h
  · rename_i reading
    split_ifs at h
    · split at h
      · cases h
        exact .dropped
      · rename_i stripped pfx strip
        split at h
        · cases h
          exact .dropped
        · rename_i a subscribed
          cases h
          exact .taken reading strip subscribed
    · cases h
      exact .dropped
  · cases h

theorem dispatch_effect {c : ConnId} (h : dispatch c s = some t) : Effect s (.dispatch c) t := by
  simp only [dispatch] at h
  split at h
  · rename_i dispatching
    split_ifs at h with halive
    · cases h
      exact .delivered dispatching halive
    · cases h
      exact .lost dispatching
  · cases h

theorem agentGone_effect {c : ConnId} (h : agentGone c s = some t) :
    Effect s (.agentGone c) t := by
  unfold agentGone at h
  split at h
  · rename_i reading
    cases h
    exact .agentGone reading
  · cases h

theorem cleanup_effect {c : ConnId} (h : cleanup c s = some t) : Effect s (.cleanup c) t := by
  unfold cleanup at h
  split at h
  · rename_i ended
    cases h
    exact .unregistered ended
  · cases h

theorem abortWriter_effect {c : ConnId} (h : abortWriter c s = some t) :
    Effect s (.abortWriter c) t := by
  unfold abortWriter at h
  split at h
  · rename_i unregistered
    cases h
    exact .writerAborted unregistered
  · cases h

theorem write_effect {c : ConnId} (h : write c s = some t) : Effect s (.write c) t := by
  unfold write at h
  split at h
  · rename_i queue
    cases h
    exact .written queue
  · cases h

theorem writerFails_effect {c : ConnId} (h : writerFails c s = some t) :
    Effect s (.writerFails c) t := by
  unfold writerFails at h
  split_ifs at h
  cases h
  exact .writerFailed

/-! ## Browser sessions -/

theorem wsUp_effect {w : WsId} (h : wsUp w s = some t) : Effect s (.wsUp w) t := by
  unfold wsUp at h
  split at h
  · rename_i absent
    cases h
    exact .wsUp absent
  · cases h

theorem handleOpen_effect {w : WsId} {channel : ChannelId} {options : ChannelOpenOptions}
    {serial : ℕ} {m : Message} (select : (s.session w).loop = .select) :
    Effect s (.wsFrame w m serial) (handleOpen w channel options serial s) := by
  have running : (s.session w).loop.isRunning = true := by rw [select]; rfl
  simp only [handleOpen]
  split_ifs
  · exact .answered _
  · exact .answered _
  · exact .answered _
  · split
    · exact .answered _
    · rename_i host _
      split
      · rename_i a ha
        exact .openCached select (Option.filter_eq_some_iff.1 ha).1
      · split_ifs
        · exact .refused select host _ running
        · split
          · exact .refused select host _ running
          · rename_i c hc
            exact .openFresh select hc

theorem handleRouted_effect {w : WsId} {channel : ChannelId} {m : Message} {isClose : Bool}
    {serial : ℕ} (select : (s.session w).loop = .select)
    (h : handleRouted w channel m isClose s = some t) :
    Effect s (.wsFrame w m serial) t := by
  simp only [handleRouted] at h
  split at h
  · cases h
    exact .kept
  · rename_i a ha
    split_ifs at h with halive hroom hclose
    · cases h
      exact .closed select ha halive
    · cases h
      exact .routed ha halive
    · cases h
      exact .routeDropped channel

theorem wsFrame_effect {w : WsId} {m : Message} {serial : ℕ} (h : wsFrame w m serial s = some t) :
    Effect s (.wsFrame w m serial) t := by
  simp only [wsFrame] at h
  split at h
  · rename_i select
    split_ifs at h
    · cases m with
      | ping =>
        cases h
        exact .answered _
      | open_ channel options =>
        cases h
        exact handleOpen_effect select
      | data channel _ | control channel _ _ | close channel _ =>
        exact handleRouted_effect select h
      | _ =>
        cases h
        exact .kept
    · cases h
      exact .kept
  · cases h

theorem wsConnect_effect {w : WsId} (h : wsConnect w s = some t) : Effect s (.wsConnect w) t := by
  simp only [wsConnect] at h
  split at h
  · rename_i connecting
    split_ifs at h with hblocked
    cases h
    obtain ⟨fresh, unlocked⟩ := not_or.1 hblocked
    exact .connected connecting fresh (by simpa using unlocked)
  · cases h

theorem wsOpen_effect {w : WsId} (h : wsOpen w s = some t) : Effect s (.wsOpen w) t := by
  simp only [wsOpen] at h
  split at h
  · rename_i p opening
    split_ifs at h with halive
    · cases h
      exact .opened opening halive
    · cases h
      exact .refused rfl p.host _ (by rw [opening]; rfl)
  · cases h

theorem closeNotified_effect {w : WsId} (h : closeNotified w s = some t) :
    Effect s (.closeNotified w) t := by
  simp only [closeNotified] at h
  split at h
  · rename_i reports
    split at h
    · rename_i route hroute
      cases h
      exact .routeClosed reports hroute
    · cases h
      exact .closeNoted reports
  · cases h

theorem wsEnd_effect {w : WsId} {reason : EndReason} (h : wsEnd w reason s = some t) :
    Effect s (.wsEnd w reason) t := by
  unfold wsEnd at h
  split at h
  · rename_i select
    cases h
    exact .ended select
  · cases h

theorem proxyStep_effect {a : Attachment} (h : proxyStep a s = some t) :
    Effect s (.proxyStep a) t := by
  simp only [proxyStep] at h
  split at h
  · rename_i alive queue
    split_ifs at h
    · cases h
      exact .proxied alive queue
    · cases h
      exact .proxyEnded
  · cases h

theorem forward_effect {a : Attachment} (h : forward a s = some t) : Effect s (.forward a) t := by
  simp only [forward] at h
  split at h
  · rename_i owner alive queue
    split at h
    · rename_i msg _
      cases h
      exact .reported owner alive queue msg
    · cases h
      exact .forwarded owner alive queue
  · cases h

theorem forwarderEnds_effect {a : Attachment} (h : forwarderEnds a s = some t) :
    Effect s (.forwarderEnds a) t := by
  simp only [forwarderEnds] at h
  split at h
  · split_ifs at h
    cases h
    exact .forwarderEnded
  · cases h

/-! ## RPC calls -/

theorem rpcStart_effect {r : RpcId} {host payload : String} {requestData : Value} {serial : ℕ}
    (h : rpcStart r host payload requestData serial s = some t) :
    Effect s (.rpcStart r host payload requestData serial) t := by
  unfold rpcStart at h
  split at h
  · rename_i idle registered
    cases h
    exact .rpcStarted idle registered
  · cases h

theorem rpcSubscribe_effect {r : RpcId} (h : rpcSubscribe r s = some t) :
    Effect s (.rpcSubscribe r) t := by
  unfold rpcSubscribe at h
  split at h
  · rename_i subscribing
    split_ifs at h with hblocked
    cases h
    obtain ⟨fresh, unlocked⟩ := not_or.1 hblocked
    exact .rpcSubscribed subscribing fresh (by simpa using unlocked)
  · cases h

theorem rpcSend_effect {r : RpcId} (h : rpcSend r s = some t) : Effect s (.rpcSend r) t := by
  simp only [rpcSend] at h
  split at h
  · rename_i opening
    split_ifs at h
    cases h
    exact .rpcOpened opening
  · rename_i sending
    split_ifs at h
    cases h
    exact .rpcRequested sending
  · rename_i closing
    split_ifs at h
    cases h
    exact .rpcClosed closing
  · cases h

theorem rpcRecv_effect {r : RpcId} (h : rpcRecv r s = some t) : Effect s (.rpcRecv r) t := by
  simp only [rpcRecv] at h
  split at h
  · rename_i waiting
    split at h
    · rename_i queue
      cases h
      exact .rpcReceived waiting queue
    · cases h
  · cases h

theorem rpcUnsubscribe_effect {r : RpcId} (h : rpcUnsubscribe r s = some t) :
    Effect s (.rpcUnsubscribe r) t := by
  simp only [rpcUnsubscribe] at h
  split at h
  · rename_i unsubscribing
    split_ifs at h with _ hclose
    · cases h
      rw [hclose] at unsubscribing
      exact .rpcUnsubscribed unsubscribing
    · cases h
      rw [Bool.not_eq_true] at hclose
      rw [hclose] at unsubscribing
      exact .rpcRejected unsubscribing
  · cases h

theorem rpcGivesUp_effect {r : RpcId} (h : rpcGivesUp r s = some t) :
    Effect s (.rpcGivesUp r) t := by
  obtain ⟨a, waiting, rfl⟩ := Option.map_eq_some_iff.1 h
  exact .rpcGivenUp waiting

theorem step_effect (h : step s act = some t) : Effect s act t := by
  cases act with
  | agentUp c => exact agentUp_effect h
  | kick host =>
    cases h
    exact kick_effect
  | agentRecv c m => exact agentRecv_effect h
  | dispatch c => exact dispatch_effect h
  | agentGone c => exact agentGone_effect h
  | cleanup c => exact cleanup_effect h
  | abortWriter c => exact abortWriter_effect h
  | write c => exact write_effect h
  | writerFails c => exact writerFails_effect h
  | wsUp w => exact wsUp_effect h
  | wsFrame w m serial => exact wsFrame_effect h
  | wsConnect w => exact wsConnect_effect h
  | wsOpen w => exact wsOpen_effect h
  | closeNotified w => exact closeNotified_effect h
  | wsEnd w reason => exact wsEnd_effect h
  | proxyStep a => exact proxyStep_effect h
  | forward a => exact forward_effect h
  | forwarderEnds a => exact forwarderEnds_effect h
  | rpcStart r host payload requestData serial => exact rpcStart_effect h
  | rpcSubscribe r => exact rpcSubscribe_effect h
  | rpcSend r => exact rpcSend_effect h
  | rpcRecv r => exact rpcRecv_effect h
  | rpcUnsubscribe r => exact rpcUnsubscribe_effect h
  | rpcGivesUp r => exact rpcGivesUp_effect h

end Tenodera.Gateway.Relay
