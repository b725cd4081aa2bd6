import Tenodera.Agent.Accounts
import Tenodera.Agent.RoleGate
import Tenodera.Gateway.AgentRouters
import Tenodera.Gateway.Panel

/-!
# From a login to a change of a host

The whole gateway, the routers of the agents that it feeds, and what the handlers there do to their
hosts.  What the gateway lets a browser send, what a router makes of it, and what a handler does
with a role are put together: `host_changed_by_login` and `account_changed_by_login` trace a change
of a host back to a login that PAM has accepted.
-/

namespace Tenodera.Gateway.Panel

open Protocol Transition
open Relay (ConnId Owner WsId replay)
open Agent (Call Handlers membersNamed)
open Agent.Host (Handler HostM Op effects isAdmin requestOf strField)

/-! ## The relay below the panel -/

section

variable {H : Type*} {hs : Handlers H} {hashes : Hashes} {s t : State} {a : Action}

/-- The steps of the relay are such that handlers see the right identity. -/
def Undisturbed (hs : Handlers H) (s : State) : Action → Prop
  | .socket (.relay act) => Relay.Undisturbed hs s.socket.relay act
  | _ => True

instance decidableUndisturbed (hs : Handlers H) (s : State) :
    ∀ a, Decidable (Undisturbed hs s a)
  | .socket (.relay act) => inferInstanceAs (Decidable (Relay.Undisturbed hs s.socket.relay act))
  | .socket (.session _) | .socket (.authenticate _) | .socket (.receive ..) | .socket (.send _)
  | .socket (.check _) | .login .. | .finish .. | .logout .. | .request .. | .agent _
  | .cleanupLimiter | .tick _ => .isTrue trivial

/-- A socket loop neither attaches anybody by itself nor brings anything to an agent. -/
theorem undisturbed_of_ofLoop {relay : Relay.State} {act : Relay.Action} (h : ofLoop act) :
    Relay.Undisturbed hs relay act := by
  have hinert : relay.attaching act = none ∧ relay.delivers act = none := by
    cases act with
    | wsUp w | wsFrame w m serial | wsEnd w reason => exact ⟨rfl, rfl⟩
    | _ => cases h
  refine ⟨fun a ha => ?_, fun p hp => ?_⟩
  · rw [hinert.1] at ha
    cases ha
  · rw [hinert.2] at hp
    cases hp

theorem guarded_of_step (hg : Relay.Guarded hs s.socket.relay) (hC : Undisturbed hs s a)
    (h : step hashes s a = some t) : Relay.Guarded hs t.socket.relay := by
  rcases socketMoves_or_eq h with hsame | ⟨act, rfl, hmoves⟩
  · rwa [hsame]
  · rcases hmoves.relay with hsame | ⟨act', hrelay, -, hloop | rfl⟩
    · rwa [hsame]
    · exact hg.of_step (undisturbed_of_ofLoop hloop) hrelay
    · exact hg.of_step hC hrelay

theorem guarded_of_meets {idleTimeoutSecs maxStartups : ℕ} {file : HostsFile} {as : List Action}
    (hrun : run (step hashes) (.init idleTimeoutSecs maxStartups file) as = some s)
    (hC : Meets (step hashes) (Undisturbed hs) (.init idleTimeoutSecs maxStartups file) as) :
    Relay.Guarded hs s.socket.relay :=
  invariant_of_meets (I := fun s => Relay.Guarded hs s.socket.relay)
    (fun _ _ _ hg hC h => guarded_of_step hg hC h) Relay.guarded_init hrun hC

/-- A router calls a handler only when it is sent something. -/
theorem exists_toAgent_of_mem_calls {c : ConnId} {o : Owner} {call : Call H}
    {log : List Relay.Event} (h : (o, call) ∈ (replay hs c log).calls) :
    ∃ m, .toAgent c o m ∈ log := by
  induction log with
  | nil => cases h
  | cons e log ih =>
    have hold (h : (o, call) ∈ (replay hs c log).calls) : ∃ m, .toAgent c o m ∈ e :: log := by
      obtain ⟨m, hm⟩ := ih h
      exact ⟨m, List.mem_cons_of_mem _ hm⟩
    cases e with
    | toAgent c' o' m =>
      rw [replay] at h
      split_ifs at h with hc
      · unfold Relay.Replay.take at h
        split_ifs at h
        · rcases List.mem_append.1 h with hnew | hcalls
          · obtain ⟨call', -, heq⟩ := List.mem_map.1 hnew
            cases heq
            exact ⟨m, hc ▸ List.mem_cons_self⟩
          · exact hold hcalls
        · exact hold h
      · exact hold h
    | _ => exact hold h

end

/-! ## What a handler finds in its request -/

section

variable {w : WsId} {u : Text.Alphanumeric} {privileged : Handler → Value → HostM Value}
  {call : Call Handler} {o : Op}

theorem get_eq_head?_membersNamed (key : String) (v : Value) :
    v.get key = (membersNamed key v).head? := by
  cases v with
  | object entries =>
    induction entries with
    | nil => rfl
    | cons e entries ih =>
      obtain ⟨k, v⟩ := e
      show List.lookup key ((k, v) :: entries) =
        (membersNamed key (.object ((k, v) :: entries))).head?
      by_cases hk : k = key
      · subst hk
        have hfirst : membersNamed k (.object ((k, v) :: entries)) =
            v :: membersNamed k (.object entries) := by
          simp [membersNamed]
        rw [hfirst, List.lookup_cons, beq_self_eq_true]
        rfl
      · have hne : (key == k) = false := beq_false_of_ne (Ne.symm hk)
        have hfilter : membersNamed key (.object ((k, v) :: entries)) =
            membersNamed key (.object entries) := by
          simp [membersNamed, hk]
        rw [hfilter, List.lookup_cons, hne]
        exact ih
  | _ => rfl

theorem get_toValue (options : ChannelOpenOptions) (key : String) :
    options.toValue.get key = options.extra.lookup key := by
  have hlookup (l : List (Sigma fun _ : String => Value)) :
      (l.map fun e => (e.1, e.2)).lookup key = l.dlookup key := by
    induction l with
    | nil => rfl
    | cons e l ih =>
      obtain ⟨k, v⟩ := e
      rw [List.map_cons, List.lookup_cons]
      by_cases hk : k = key
      · subst hk
        rw [beq_self_eq_true, List.dlookup_cons_eq]
      · rw [beq_false_of_ne (Ne.symm hk), List.dlookup_cons_ne _ _ (Ne.symm hk)]
        exact ih
  exact hlookup options.extra.entries

/-- What a handler finds under the names of the identity: both of them, or neither. -/
theorem get_of_seesIdentity (h : Relay.SeesIdentity w call) :
    ((requestOf call).get "_user" = some (.string w.user) ∧
      (requestOf call).get "_role" = some (.string w.role.asStr)) ∨
    ∃ handler channel data, call = .data handler channel data ∧ ∀ key, data.get key = none := by
  cases call with
  | stream handler channel options | open_ handler channel options =>
    left
    rw [requestOf, get_toValue, get_toValue]
    exact h
  | data handler channel data =>
    cases data with
    | object entries =>
      left
      obtain ⟨huser, hrole⟩ := h
      rw [requestOf, get_eq_head?_membersNamed, get_eq_head?_membersNamed, huser, hrole]
      exact ⟨rfl, rfl⟩
    | _ => exact .inr ⟨handler, channel, _, rfl, fun _ => rfl⟩

theorem isAdmin_of_get {data : Value} (h : ∀ key, data.get key = none) : isAdmin data = false := by
  rw [isAdmin, h]
  rfl

theorem role_eq_admin {data : Value} (hget : data.get "_role" = some (.string w.role.asStr))
    (h : isAdmin data = true) : w.role = .admin := by
  rw [isAdmin, hget] at h
  cases hrole : w.role with
  | admin => rfl
  | readonly =>
    rw [hrole] at h
    exact absurd h (by decide)

/-- Data that is no object changes nothing. -/
theorem quiet_of_get {handler : Handler} {channel : ChannelId} {data : Value}
    (h : ∀ key, data.get key = none) :
    Agent.Host.Quiet (effects u privileged (.data handler channel data)) := by
  have hnot : isAdmin (requestOf (.data handler channel data)) = false := isAdmin_of_get h
  refine (Agent.Host.quiet_effects_iff hnot).2 fun hwrites => ?_
  cases handler with
  | containers =>
    have haction : strField data "action" = "" := by
      rw [strField, h]
      rfl
    simp only [Agent.Host.Writes, Agent.Host.Mutates, haction] at hwrites
    exact hwrites
  | _ => exact hwrites

/-- A handler that changes its host finds the identity of the session in its request, and the role
of an administrator unless it does not look for it. -/
theorem role_of_changes (h : Relay.SeesIdentity w call)
    (ho : (effects u privileged call).Asks o) (hchanges : o.changesState = true) :
    (requestOf call).get "_user" = some (.string w.user) ∧
      (Agent.Host.Writes u call ∨ w.role = .admin) := by
  rcases get_of_seesIdentity h with ⟨huser, hrole⟩ | ⟨handler, channel, data, rfl, hnone⟩
  · refine ⟨huser, ?_⟩
    cases hadmin : isAdmin (requestOf call) with
    | false =>
      left
      by_contra hnot
      exact ((Agent.Host.quiet_effects_iff hadmin).2 hnot).not_asks hchanges ho
    | true => exact .inr (role_eq_admin hrole hadmin)
  · exact absurd ho ((quiet_of_get hnone).not_asks hchanges)

end

/-! ## An account is deleted -/

/-- The handlers of an agent, as `users.manage` answers. -/
def accountHandlers : Handlers Handler where
  byPayload := Handler.byPayload
  isStreaming handler := handler ∈ [.terminalPty, .storageStream, .storageDu, .networkStream]
  open_ _ _ channel _ := [.ready channel]
  data _ _ channel _ :=
    [.data channel
      (.object [("action", .string "delete"), ("ok", .bool true), ("output", .string "")])]

def deletion : Value :=
  .object [("action", .string "delete"), ("username", .string "bob"),
    ("password", .string "hunter2")]

def carolOnWeb : Relay.Attachment := ⟨.ws carol, Relay.webConn, 0⟩

/-- Carol logs in and deletes bob's account on a host. -/
def carolDeletesBob : List Action :=
  carolLogsIn ++
    [.socket (.relay (.agentUp Relay.webConn)), .socket (.authenticate carol),
      .socket (.receive carol
        (some (.open_ "1" ⟨"users.manage", none, AList.singleton "host" (.string "web")⟩)) 0),
      .socket (.relay (.wsConnect carol)), .socket (.relay (.wsOpen carol)),
      .socket (.relay (.proxyStep carolOnWeb)), .socket (.relay (.write Relay.webConn)),
      .socket (.receive carol (some (.data "1" deletion)) 0), .socket (.send carol),
      .socket (.relay (.proxyStep carolOnWeb)), .socket (.relay (.write Relay.webConn))]

/-- What the handler is called with. -/
def deletionByCarol : Value :=
  .object [("_role", .string "admin"), ("_user", .string "carol"), ("action", .string "delete"),
    ("username", .string "bob"), ("password", .string "hunter2")]

def deletedByCarol : Agent.Host.Command :=
  ⟨some "carol", ["sudo", "-S", "-k", "userdel", "--", "bob"], some "hunter2\n"⟩

theorem called_carolDeletesBob :
    ∃ s, run (step Enrollment.plainHashes) (.init 900 10 .absent) carolDeletesBob = some s ∧
      (.ws carol, .data .usersManage "4b825dc6-1" deletionByCarol) ∈
        (replay accountHandlers Relay.webConn s.socket.relay.log).calls :=
  ⟨_, rfl, .head _⟩

theorem undisturbed_carolDeletesBob :
    Meets (step Enrollment.plainHashes) (Undisturbed accountHandlers) (.init 900 10 .absent)
      carolDeletesBob := by
  decide

theorem asks_deletionByCarol :
    (Agent.Host.usersManage (Agent.Host.Users.accountAction deletionByCarol)
      deletionByCarol).Asks (.run deletedByCarol) := by
  have hsudo : (Agent.Host.sudoAsUser "carol" "hunter2" ["userdel", "--", "bob"]).Asks
      (.run deletedByCarol) :=
    Agent.Host.asks_sudoAsUser_iff.2 ⟨⟨by decide, by decide⟩, rfl⟩
  have heq : Agent.Host.usersManage (Agent.Host.Users.accountAction deletionByCarol)
      deletionByCarol = Agent.Host.Users.audited "carol" "user.delete" "bob"
        (Agent.Host.sudoAsUser "carol" "hunter2" ["userdel", "--", "bob"]) := rfl
  rw [heq]
  exact (Effect.Prog.asks_bind _ _ _).2 (.inl hsudo)

/-! ## Back to a login -/

section

variable {hs : Handlers Handler} {hashes : Hashes} {s : State} {idleTimeoutSecs maxStartups : ℕ}
  {file : HostsFile} {as : List Action} {c : ConnId} {w : WsId} {call : Call Handler} {o : Op}
  {u : Text.Alphanumeric} {privileged : Handler → Value → HostM Value}

theorem login_of_call
    (hrun : run (step hashes) (.init idleTimeoutSecs maxStartups file) as = some s)
    (hmeets : Meets (step hashes) (Undisturbed hs) (.init idleTimeoutSecs maxStartups file) as)
    (hcall : (.ws w, call) ∈ (replay hs c s.socket.relay.log).calls) :
    Relay.SeesIdentity w call ∧ ∃ l : Login, .loggedIn l ∈ s.log ∧ l.id = w.token.text ∧
      l.user = w.user ∧ l.role = w.role ∧ l.Genuine := by
  refine ⟨(guarded_of_meets hrun hmeets).calls c w call hcall, ?_⟩
  have hsound := sound_of_run hrun
  obtain ⟨m, hm⟩ := exists_toAgent_of_mem_calls hcall
  obtain ⟨l, hl, hid, huser, hrole⟩ := hsound.login_of_sent hm
  exact ⟨l, hl, hid, huser, hrole, hsound.genuine l hl⟩

/-- In any run of the gateway in which handlers see the right identity, what a handler of an agent
changes on its host for a browser goes back to a login that PAM has accepted: the handler finds its
user in the request, and the user belonged to an administrative group at the login unless the
handler is one that never looks at the role. -/
theorem host_changed_by_login
    (hrun : run (step hashes) (.init idleTimeoutSecs maxStartups file) as = some s)
    (hmeets : Meets (step hashes) (Undisturbed hs) (.init idleTimeoutSecs maxStartups file) as)
    (hcall : (.ws w, call) ∈ (replay hs c s.socket.relay.log).calls)
    (ho : (effects u privileged call).Asks o) (hchanges : o.changesState = true) :
    ∃ l : Login, .loggedIn l ∈ s.log ∧ l.id = w.token.text ∧
      (Pam.authenticate l.pam l.fate l.user l.password).success ∧
      (requestOf call).get "_user" = some (.string l.user) ∧
      (Agent.Host.Writes u call ∨ Pam.verifySudoBlocking l.nss l.user = .ok ()) := by
  obtain ⟨hsees, l, hl, hid, huser, hrole, hgenuine⟩ := login_of_call hrun hmeets hcall
  obtain ⟨hget, hwrites⟩ := role_of_changes hsees ho hchanges
  refine ⟨l, hl, hid, hgenuine.authenticated, by rw [hget, huser], hwrites.imp_right fun h => ?_⟩
  exact hgenuine.admin (hrole.trans h)

theorem host_changed_by_login_carol :
    ∃ s, run (step Enrollment.plainHashes) (.init 900 10 .absent) carolDeletesBob = some s ∧
      ∃ l : Login, .loggedIn l ∈ s.log ∧
        deletionByCarol.get "_user" = some (.string l.user) ∧
        Pam.verifySudoBlocking l.nss l.user = .ok () := by
  obtain ⟨s, hrun, hcall⟩ := called_carolDeletesBob
  have ho : (effects Text.asciiAlphanumeric (fun _ => Agent.Host.Users.accountAction)
      (.data .usersManage "4b825dc6-1" deletionByCarol)).Asks (.run deletedByCarol) :=
    (Effect.Prog.asks_bind _ _ _).2 (.inl asks_deletionByCarol)
  obtain ⟨l, hl, -, -, huser, hwrites⟩ :=
    host_changed_by_login hrun undisturbed_carolDeletesBob hcall ho (by decide +kernel)
  exact ⟨s, hrun, l, hl, huser, hwrites.resolve_left not_false⟩

/-- What `users.manage` changes on a host for a browser is the change that the request asks for, or
the password of the user that it names, by a command of a user who has logged in as an
administrator. -/
theorem account_changed_by_login {spec : String → Getopt.Spec} {channel : ChannelId} {data : Value}
    (hspec : Agent.Host.Users.Documented spec)
    (hrun : run (step hashes) (.init idleTimeoutSecs maxStartups file) as = some s)
    (hmeets : Meets (step hashes) (Undisturbed hs) (.init idleTimeoutSecs maxStartups file) as)
    (hcall : (.ws w, .data .usersManage channel data) ∈ (replay hs c s.socket.relay.log).calls)
    (ho : (Agent.Host.usersManage (Agent.Host.Users.accountAction data) data).Asks o)
    (hchanges : o.changesState = true) :
    ∃ l : Login, .loggedIn l ∈ s.log ∧ l.id = w.token.text ∧
      (Pam.authenticate l.pam l.fate l.user l.password).success ∧
      Pam.verifySudoBlocking l.nss l.user = .ok () ∧
      ∃ cmd, o = .run cmd ∧ cmd.runAs = some l.user ∧
        (Agent.Host.Users.FeedsChpasswd data cmd.argv ∨
          ∃ change, Agent.Host.Users.readCommand spec cmd.argv = some change ∧
            Agent.Host.Users.Requests data change) := by
  obtain ⟨hsees, l, hl, hid, huser, hrole, hgenuine⟩ := login_of_call hrun hmeets hcall
  obtain ⟨cmd, hcmd, hrunAs, hmeant⟩ :=
    Agent.Host.Users.only_usersManage_meant hspec o ho hchanges
  have hadmin : isAdmin data = true := by
    by_contra hnot
    have hnone : isAdmin data = false := Bool.eq_false_of_not_eq_true hnot
    exact Agent.Host.Quiet.not_asks (Agent.Host.quiet_usersManage hnone) hchanges ho
  rcases get_of_seesIdentity hsees with ⟨hget, hgetRole⟩ | ⟨handler, channel', data', heq, hnone⟩
  · have hfield : strField data "_user" = l.user := by
      rw [strField, show data.get "_user" = _ from hget, huser]
      rfl
    rw [hfield] at hrunAs
    exact ⟨l, hl, hid, hgenuine.authenticated,
      hgenuine.admin (hrole.trans (role_eq_admin hgetRole hadmin)), cmd, hcmd, hrunAs, hmeant⟩
  · cases heq
    rw [isAdmin_of_get hnone] at hadmin
    cases hadmin

theorem account_changed_by_login_carol :
    ∃ s, run (step Enrollment.plainHashes) (.init 900 10 .absent) carolDeletesBob = some s ∧
      ∃ l : Login, .loggedIn l ∈ s.log ∧ deletedByCarol.runAs = some l.user ∧
        Pam.verifySudoBlocking l.nss l.user = .ok () := by
  obtain ⟨s, hrun, hcall⟩ := called_carolDeletesBob
  obtain ⟨l, hl, -, -, hadmin, cmd, hcmd, hrunAs, -⟩ :=
    account_changed_by_login Agent.Host.Users.documented_shadowUtils hrun
      undisturbed_carolDeletesBob hcall asks_deletionByCarol (by decide +kernel)
  cases hcmd
  exact ⟨s, hrun, l, hl, hrunAs, hadmin⟩

end

end Tenodera.Gateway.Panel
