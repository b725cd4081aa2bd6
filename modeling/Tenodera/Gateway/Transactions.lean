import Tenodera.Gateway.Handshake
import Tenodera.Lib.Run

/-!
# What the replies to approvals promise

`Transactional` is what an administrator can take a reply to an approval for.  The requests and the
connections are accounted for in the log (`Recorded`), so that a step has to be looked at only for
what it can break (`Kept`): here by rules for the steps of connections and of requests.
-/

namespace Tenodera.Gateway.Handshake

open Transition
open Enrollment (ApproveReply)

/-! ## The statement -/

/-- The file before and after each write of the request. -/
def writes (log : List Event) (request : ℕ) : List (HostsFile × HostsFile) :=
  log.filterMap fun
    | .wrote (.request r) _ before after | .named r _ before after =>
      if r = request then some (before, after) else none
    | _ => none

/-- The request has registered a host or replaced a key. -/
def saved (log : List Event) (request : ℕ) : Bool :=
  log.any fun
    | .wrote (.request r) .done _ _ => r = request
    | _ => false

/-- The requests that have found the entry of the connection. -/
def requestsFor (log : List Event) (conn : ℕ) : List ℕ :=
  log.filterMap fun
    | .started r e => if e.approveTx = conn then some r else none
    | _ => none

/-- No write of the request has changed the file. -/
def Untouched (log : List Event) (request : ℕ) : Prop := ∀ w ∈ writes log request, w.2 = w.1

instance (log : List Event) (request : ℕ) : Decidable (Untouched log request) :=
  inferInstanceAs (Decidable (∀ w ∈ writes log request, w.2 = w.1))

/-- The connection has received the host, or is about to. -/
def Receives (s : State) (conn : ℕ) (host : HostEntry) : Prop :=
  .received conn host ∈ s.log ∨ s.phase conn = .waiting (.answered host)

/-- A reply says success exactly when a waiting agent receives the host of that reply, with any
other reply the request has left the file as it was, and no two requests have both written for one
entry. -/
structure Transactional (s : State) : Prop where
  success : ∀ request reply, .replied request reply ∈ s.log → ∀ hostId,
    reply = .approved hostId ↔ ∃ fingerprintHex conn host, host.id = hostId ∧
      .handed request fingerprintHex conn host ∈ s.log ∧ Receives s conn host
  received : ∀ conn host, Receives s conn host →
    ∃ request, .replied request (.approved host.id) ∈ s.log
  unchanged : ∀ request reply, .replied request reply ∈ s.log →
    (∀ hostId, reply ≠ .approved hostId) → Untouched s.log request
  once : ∀ conn, ∀ r ∈ requestsFor s.log conn, ∀ r' ∈ requestsFor s.log conn,
    saved s.log r → saved s.log r' → r = r'

/-- No agent leaves with an answer that it has not taken; a request saves for an entry that no other
request has saved for, and is not interrupted at that; and it comes to tell an agent that waits,
unless it has changed nothing. -/
def Commits (s : State) : Action → Prop
  | .giveUp conn =>
    match s.phase conn with
    | .waiting (.answered _) => False
    | _ => True
  | .approve request (.save out) =>
    match s.approval request with
    | .saving job _ _ _ =>
      (out = .interrupted → s.file = .malformed) ∧
        (out = .done → ∀ r ∈ requestsFor s.log job.entry.approveTx, saved s.log r = false)
    | _ => True
  | .approveHand request =>
    match s.approval request with
    | .ready job _ =>
      ((s.pending.approve job.fingerprintHex).1.any fun e =>
        s.phase e.approveTx = .waiting .awaiting) ∨ Untouched s.log request
    | _ => True
  | _ => True

instance (s : State) (a : Action) : Decidable (Commits s a) := by
  rcases a with _ | _ | _ | _ | _ | _ | _ | ⟨_, _ | _⟩ <;> dsimp only [Commits] <;>
    first | infer_instance | (split <;> infer_instance)

/-! ## What the log says about requests -/

/-- The request that an event belongs to. -/
def Event.request : Event → Option ℕ
  | wrote (.request r) .. | started r _ | named r .. | handed r .. | replied r _ => some r
  | _ => none

/-- The job of a request that has not been answered. -/
def Approval.job : Approval → Option Job
  | idle | replied _ => none
  | found job | checked job _ | saving job _ _ _ | naming job _ | nameSaving job _ _
    | ready job _ => some job

/-- Nothing has been written yet. -/
def Approval.isEarly : Approval → Bool
  | idle | found _ | checked .. | saving .. => true
  | _ => false

/-- Past the wait for an administrator. -/
def Phase.isServed : Phase → Bool
  | authenticated _ | running _ | closed => true
  | _ => false

/-- The log agrees with how far the requests and the connections have come. -/
structure Recorded (s : State) : Prop where
  idle : ∀ r, s.approval r = .idle → ∀ e ∈ s.log, e.request ≠ some r
  replied : ∀ r reply, .replied r reply ∈ s.log → s.approval r = .replied reply
  job : ∀ r job, (s.approval r).job = some job →
    ∀ conn, r ∈ requestsFor s.log conn ↔ conn = job.entry.approveTx
  early : ∀ r, (s.approval r).isEarly → writes s.log r = []
  handed : ∀ r fingerprintHex conn host, .handed r fingerprintHex conn host ∈ s.log →
    .replied r (.approved host.id) ∈ s.log
  approved : ∀ r hostId, .replied r (.approved hostId) ∈ s.log →
    ∃ fingerprintHex conn host, host.id = hostId ∧ .handed r fingerprintHex conn host ∈ s.log
  handedOnce : ∀ r fingerprintHex fingerprintHex' conn conn' host host',
    .handed r fingerprintHex conn host ∈ s.log → .handed r fingerprintHex' conn' host' ∈ s.log →
      conn = conn' ∧ host = host'
  answered : ∀ conn host, s.phase conn = .waiting (.answered host) →
    ∃ r fingerprintHex, .handed r fingerprintHex conn host ∈ s.log
  received : ∀ conn host, .received conn host ∈ s.log → (s.phase conn).isServed ∧
    ∃ r fingerprintHex, .handed r fingerprintHex conn host ∈ s.log

/-- The part of `Transactional` that steps can break. -/
structure Kept (s : State) : Prop where
  handed : ∀ r fingerprintHex conn host, .handed r fingerprintHex conn host ∈ s.log →
    Receives s conn host
  unchanged : ∀ r reply, .replied r reply ∈ s.log → (∀ hostId, reply ≠ .approved hostId) →
    Untouched s.log r
  once : ∀ conn, ∀ r ∈ requestsFor s.log conn, ∀ r' ∈ requestsFor s.log conn,
    saved s.log r → saved s.log r' → r = r'

section

variable {crypto : Crypto} {gatewayId : String} {s t : State} {log L : List Event} {r : ℕ}

theorem transactional_iff_kept (hs : Recorded s) : Transactional s ↔ Kept s := by
  constructor
  · refine fun h => ⟨fun r fingerprintHex conn host hmem => ?_, h.unchanged, h.once⟩
    obtain ⟨fingerprintHex', conn', host', -, hmem', hreceives⟩ :=
      (h.success r _ (hs.handed r fingerprintHex conn host hmem) host.id).1 rfl
    obtain ⟨rfl, rfl⟩ := hs.handedOnce r _ _ conn conn' host host' hmem hmem'
    exact hreceives
  · refine fun h => ⟨fun r reply hreply hostId => ⟨?_, ?_⟩, fun conn host hreceives => ?_,
      h.unchanged, h.once⟩
    · rintro rfl
      obtain ⟨fingerprintHex, conn, host, hid, hmem⟩ := hs.approved r hostId hreply
      exact ⟨fingerprintHex, conn, host, hid, hmem, h.handed r fingerprintHex conn host hmem⟩
    · rintro ⟨fingerprintHex, conn, host, rfl, hmem, -⟩
      have happroved := hs.replied r _ (hs.handed r fingerprintHex conn host hmem)
      rw [hs.replied r reply hreply] at happroved
      exact Approval.replied.inj happroved
    · rcases hreceives with hreceived | hanswered
      · obtain ⟨-, r, fingerprintHex, hmem⟩ := hs.received conn host hreceived
        exact ⟨r, hs.handed r fingerprintHex conn host hmem⟩
      · obtain ⟨r, fingerprintHex, hmem⟩ := hs.answered conn host hanswered
        exact ⟨r, hs.handed r fingerprintHex conn host hmem⟩

theorem writes_append : writes (L ++ log) r = writes L r ++ writes log r :=
  List.filterMap_append ..

theorem saved_append : saved (L ++ log) r = (saved L r || saved log r) :=
  List.any_append ..

theorem requestsFor_append {conn : ℕ} :
    requestsFor (L ++ log) conn = requestsFor L conn ++ requestsFor log conn :=
  List.filterMap_append ..

theorem writes_wrote (out : WriteOutcome) (before after : HostsFile) :
    writes (.wrote (.request r) out before after :: log) r = (before, after) :: writes log r :=
  List.filterMap_cons_some (if_pos rfl)

theorem writes_replied (r' : ℕ) (reply : ApproveReply) :
    writes (.replied r' reply :: log) r = writes log r := List.filterMap_cons_none rfl

theorem saved_wrote (before after : HostsFile) :
    saved (.wrote (.request r) .done before after :: log) r :=
  List.any_eq_true.2 ⟨_, List.mem_cons_self, decide_eq_true rfl⟩

theorem writes_of_ne (h : ∀ e ∈ L, e.request ≠ some r) : writes L r = [] := by
  refine List.filterMap_eq_nil_iff.2 fun e he => ?_
  have hne := h e he
  cases e with
  | wrote writer out before after =>
    cases writer with
    | conn conn => rfl
    | request r' =>
      dsimp only
      rw [if_neg fun heq => hne (congrArg some heq)]
  | named r' out before after =>
    dsimp only
    rw [if_neg fun heq => hne (congrArg some heq)]
  | _ => rfl

theorem saved_of_ne (h : ∀ e ∈ L, e.request ≠ some r) : saved L r = false := by
  refine List.any_eq_false.2 fun e he => ?_
  have hne := h e he
  cases e with
  | wrote writer out before after =>
    cases writer with
    | conn conn => simp
    | request r' =>
      cases out with
      | done => exact fun heq => hne (congrArg some (of_decide_eq_true heq))
      | refused | interrupted => simp
  | _ => simp

theorem requestsFor_of_ne {conn : ℕ} (h : ∀ e ∈ L, e.request ≠ some r) :
    r ∉ requestsFor L conn := by
  intro hmem
  obtain ⟨e, he, hsome⟩ := List.mem_filterMap.1 hmem
  have hne := h e he
  cases e with
  | started r' entry =>
    dsimp only at hsome
    split_ifs at hsome
    cases hsome
    exact hne rfl
  | _ => cases hsome

/-- A request that has saved has written. -/
theorem saved_of_writes_eq_nil (h : writes log r = []) : saved log r = false := by
  refine List.any_eq_false.2 fun e he => ?_
  have hnone := List.filterMap_eq_nil_iff.1 h e he
  cases e with
  | wrote writer out before after =>
    cases writer with
    | conn conn => simp
    | request r' =>
      cases out with
      | done =>
        intro heq
        dsimp only at hnone
        rw [if_pos (of_decide_eq_true heq)] at hnone
        cases hnone
      | refused | interrupted => simp
  | _ => simp

/-! ## Steps of connections -/

theorem mem_log_of_request (hevs : ∀ e ∈ L, e.request = none) {e : Event}
    (he : e.request ≠ none) (hmem : e ∈ L ++ log) : e ∈ log := by
  rcases List.mem_append.1 hmem with hnew | hold
  · exact absurd (hevs e hnew) he
  · exact hold

theorem ne_of_request (hevs : ∀ e ∈ L, e.request = none) (r : ℕ) :
    ∀ e ∈ L, e.request ≠ some r := by
  intro e he heq
  cases (hevs e he).symm.trans heq

/-- A step of a connection leaves the requests alone. -/
theorem Recorded.of_conn (hs : Recorded s) (hlog : t.log = L ++ s.log)
    (hevs : ∀ e ∈ L, e.request = none) (happroval : t.approval = s.approval)
    (hreceived : ∀ conn host, .received conn host ∈ L → (t.phase conn).isServed ∧
      s.phase conn = .waiting (.answered host))
    (hanswered : ∀ conn host, t.phase conn = .waiting (.answered host) →
      s.phase conn = .waiting (.answered host))
    (hserved : ∀ conn, (s.phase conn).isServed → (t.phase conn).isServed) : Recorded t := by
  have hold {e : Event} (he : e.request ≠ none) (hmem : e ∈ t.log) : e ∈ s.log :=
    mem_log_of_request hevs he (hlog ▸ hmem)
  have hkeep {e : Event} (hmem : e ∈ s.log) : e ∈ t.log := hlog ▸ List.mem_append_right L hmem
  constructor
  · intro r hr e he
    rw [happroval] at hr
    rw [hlog] at he
    rcases List.mem_append.1 he with hnew | hmem
    · exact ne_of_request hevs r e hnew
    · exact hs.idle r hr e hmem
  · intro r reply hmem
    rw [happroval]
    exact hs.replied r reply (hold nofun hmem)
  · intro r job hjob conn
    rw [happroval] at hjob
    rw [hlog, requestsFor_append, List.mem_append, or_iff_right]
    · exact hs.job r job hjob conn
    · exact requestsFor_of_ne (ne_of_request hevs r)
  · intro r hearly
    rw [happroval] at hearly
    rw [hlog, writes_append, writes_of_ne (ne_of_request hevs r), hs.early r hearly]
    rfl
  · intro r fingerprintHex conn host hmem
    exact hkeep (hs.handed r fingerprintHex conn host (hold nofun hmem))
  · intro r hostId hmem
    obtain ⟨fingerprintHex, conn, host, hid, hhanded⟩ := hs.approved r hostId (hold nofun hmem)
    exact ⟨fingerprintHex, conn, host, hid, hkeep hhanded⟩
  · intro r _ _ conn conn' host host' hmem hmem'
    exact hs.handedOnce r _ _ conn conn' host host' (hold nofun hmem) (hold nofun hmem')
  · intro conn host hphase
    obtain ⟨r, fingerprintHex, hmem⟩ := hs.answered conn host (hanswered conn host hphase)
    exact ⟨r, fingerprintHex, hkeep hmem⟩
  · intro conn host hmem
    rw [hlog] at hmem
    rcases List.mem_append.1 hmem with hnew | hmem
    · obtain ⟨hisServed, hphase⟩ := hreceived conn host hnew
      obtain ⟨r, fingerprintHex, hmem⟩ := hs.answered conn host hphase
      exact ⟨hisServed, r, fingerprintHex, hkeep hmem⟩
    · obtain ⟨hisServed, r, fingerprintHex, hhanded⟩ := hs.received conn host hmem
      exact ⟨hserved conn hisServed, r, fingerprintHex, hkeep hhanded⟩

theorem Kept.of_conn (hk : Kept s) (hlog : t.log = L ++ s.log)
    (hevs : ∀ e ∈ L, e.request = none)
    (hreceives : ∀ conn host, Receives s conn host → Receives t conn host) : Kept t := by
  have hold {e : Event} (he : e.request ≠ none) (hmem : e ∈ t.log) : e ∈ s.log :=
    mem_log_of_request hevs he (hlog ▸ hmem)
  have hrequests (r conn : ℕ) (hmem : r ∈ requestsFor t.log conn) :
      r ∈ requestsFor s.log conn := by
    rw [hlog, requestsFor_append, List.mem_append, or_iff_right] at hmem
    · exact hmem
    · exact requestsFor_of_ne (ne_of_request hevs r)
  have hsaved (r : ℕ) : saved t.log r = saved s.log r := by
    rw [hlog, saved_append, saved_of_ne (ne_of_request hevs r), Bool.false_or]
  refine ⟨fun r fingerprintHex conn host hmem => ?_, fun r reply hmem hreply => ?_,
    fun conn r hr r' hr' hrs hrs' => ?_⟩
  · exact hreceives conn host (hk.handed r fingerprintHex conn host (hold nofun hmem))
  · unfold Untouched
    rw [hlog, writes_append, writes_of_ne (ne_of_request hevs r)]
    exact hk.unchanged r reply (hold nofun hmem) hreply
  · rw [hsaved] at hrs hrs'
    exact hk.once conn r (hrequests r conn hr) r' (hrequests r' conn hr') hrs hrs'

/-- Whoever is answered stays so when another connection moves on. -/
theorem receives_update {conn : ℕ} {p : Phase} {phase : ℕ → Phase}
    (hphase : t.phase = Function.update phase conn p)
    (hsame : ∀ c host, s.phase c = .waiting (.answered host) → phase c = .waiting (.answered host))
    (hconn : ∀ host, s.phase conn ≠ .waiting (.answered host)) (hlog : t.log = L ++ s.log)
    (c : ℕ) (host : HostEntry) (h : Receives s c host) : Receives t c host := by
  rcases h with hreceived | hanswered
  · exact .inl (hlog ▸ List.mem_append_right L hreceived)
  · have hne : c ≠ conn := by
      rintro rfl
      exact hconn host hanswered
    refine .inr ?_
    rw [hphase, Function.update_of_ne hne]
    exact hsame c host hanswered

theorem hangUp_answered (o : Option PendingEntry) (phase : ℕ → Phase) (c : ℕ) (host : HostEntry) :
    hangUp o phase c = .waiting (.answered host) ↔ phase c = .waiting (.answered host) := by
  rcases hangUp_cases o phase c with heq | ⟨hwaiting, hdropped⟩
  · rw [heq]
  · rw [hwaiting, hdropped]
    exact iff_of_false nofun nofun

theorem hangUp_isServed (o : Option PendingEntry) (phase : ℕ → Phase) (c : ℕ) :
    (hangUp o phase c).isServed = (phase c).isServed := by
  rcases hangUp_cases o phase c with heq | ⟨hwaiting, hdropped⟩
  · rw [heq]
  · rw [hwaiting, hdropped]
    rfl

/-- A connection without an answer moves on, and the sender of another one may be gone. -/
theorem approvals_moved {conn : ℕ} {p : Phase} (o : Option PendingEntry) (hs : Recorded s)
    (hlog : t.log = L ++ s.log) (hevs : ∀ e ∈ L, e.request = none)
    (hreceived : ∀ conn host, .received conn host ∉ L) (happroval : t.approval = s.approval)
    (hphase : t.phase = Function.update (hangUp o s.phase) conn p)
    (hp : ∀ host, p ≠ .waiting (.answered host))
    (hconn : ∀ host, s.phase conn ≠ .waiting (.answered host))
    (hserved : (s.phase conn).isServed → p.isServed) : Recorded t ∧ (Kept s → Kept t) := by
  constructor
  · refine hs.of_conn hlog hevs happroval (fun c host hmem => absurd hmem (hreceived c host))
      (fun c host h => ?_) fun c h => ?_
    · rw [hphase] at h
      by_cases heq : c = conn
      · rw [heq, Function.update_self] at h
        exact absurd h (hp host)
      · rw [Function.update_of_ne heq] at h
        exact (hangUp_answered o s.phase c host).1 h
    · rw [hphase]
      by_cases heq : c = conn
      · subst heq
        rw [Function.update_self]
        exact hserved h
      · rw [Function.update_of_ne heq, hangUp_isServed]
        exact h
  · intro hk
    refine hk.of_conn hlog hevs ?_
    exact receives_update hphase (fun c host h => (hangUp_answered o s.phase c host).2 h) hconn hlog

theorem advance_served {conn : ℕ} {g : Greeting} {shared shared' : Shared} {a : ConnAction}
    {p p' : Phase}
    (h : advance crypto gatewayId conn g shared a p = some (p', shared', L)) :
    (∀ e ∈ L, e.request = none) ∧ (∀ conn host, .received conn host ∉ L) ∧
      (p.isServed → p'.isServed) := by
  obtain ⟨-, -, -, -, hprivate⟩ := advance_moves h
  refine ⟨fun e he => ?_, fun conn host hmem => ?_, fun hp => ?_⟩
  · have hown := hprivate e he
    unfold Event.isPrivate at hown
    split at hown
    · rfl
    · rfl
    · rfl
    · rfl
    · cases hown
  · cases hprivate _ hmem
  · cases p with
    | authenticated host =>
      cases a with
      | register | disconnect =>
        cases h
        rfl
      | _ => cases h
    | running host =>
      cases a with
      | unregister =>
        cases h
        rfl
      | _ => cases h
    | closed => cases a <;> cases h
    | _ => cases hp

/-! ## Steps of requests -/

theorem mem_log_of_ne (hevs : ∀ e ∈ L, e.request = some r) {e : Event}
    (he : e.request ≠ some r) (hmem : e ∈ L ++ log) : e ∈ log := by
  rcases List.mem_append.1 hmem with hnew | hold
  · exact absurd (hevs e hnew) he
  · exact hold

theorem ne_of_request_ne {r' : ℕ} (hevs : ∀ e ∈ L, e.request = some r) (hne : r' ≠ r) :
    ∀ e ∈ L, e.request ≠ some r' := by
  intro e he heq
  exact hne (Option.some.inj (heq.symm.trans (hevs e he)))

/-- What the log says about a request does not change with the events of another one. -/
theorem log_of_ne (log : List Event) {r' : ℕ} (hevs : ∀ e ∈ L, e.request = some r) (hne : r' ≠ r) :
    writes (L ++ log) r' = writes log r' ∧ saved (L ++ log) r' = saved log r' ∧
      ∀ conn, r' ∈ requestsFor (L ++ log) conn ↔ r' ∈ requestsFor log conn := by
  have hnot := ne_of_request_ne hevs hne
  refine ⟨?_, ?_, fun conn => ?_⟩
  · rw [writes_append, writes_of_ne hnot, List.nil_append]
  · rw [saved_append, saved_of_ne hnot, Bool.false_or]
  · rw [requestsFor_append, List.mem_append, or_iff_right (requestsFor_of_ne hnot)]

/-- What the log says of a request, by what the request has come to. -/
structure Logged (approval : ℕ → Approval) (log : List Event) : Prop where
  idle : ∀ r, approval r = .idle → ∀ e ∈ log, e.request ≠ some r
  replied : ∀ r reply, .replied r reply ∈ log → approval r = .replied reply
  job : ∀ r job, (approval r).job = some job →
    ∀ conn, r ∈ requestsFor log conn ↔ conn = job.entry.approveTx
  early : ∀ r, (approval r).isEarly → writes log r = []

theorem Recorded.logged (hs : Recorded s) : Logged s.approval s.log :=
  ⟨hs.idle, hs.replied, hs.job, hs.early⟩

/-- A request that is not answered yet goes on, and the others stay as they are. -/
theorem Logged.of_request {approval : ℕ → Approval} {q : Approval} (hl : Logged approval log)
    (hactive : ∀ reply, approval r ≠ .replied reply) (hevs : ∀ e ∈ L, e.request = some r)
    (hidle : q ≠ .idle) (hreplied : ∀ reply, .replied r reply ∈ L → q = .replied reply)
    (hjob : ∀ job, q.job = some job →
      ∀ conn, r ∈ requestsFor (L ++ log) conn ↔ conn = job.entry.approveTx)
    (hearly : q.isEarly → writes (L ++ log) r = []) :
    Logged (Function.update approval r q) (L ++ log) := by
  constructor
  · intro r' hr' e he
    have hne : r' ≠ r := by
      rintro rfl
      rw [Function.update_self] at hr'
      exact hidle hr'
    rw [Function.update_of_ne hne] at hr'
    rcases List.mem_append.1 he with hnew | hold
    · exact ne_of_request_ne hevs hne e hnew
    · exact hl.idle r' hr' e hold
  · intro r' reply hmem
    rcases List.mem_append.1 hmem with hnew | hold
    · have heq : r' = r := Option.some.inj (hevs _ hnew)
      subst heq
      rw [Function.update_self]
      exact hreplied reply hnew
    · have hne : r' ≠ r := by
        rintro rfl
        exact hactive reply (hl.replied r' reply hold)
      rw [Function.update_of_ne hne]
      exact hl.replied r' reply hold
  · intro r' job hrjob conn
    by_cases hne : r' = r
    · subst hne
      rw [Function.update_self] at hrjob
      exact hjob job hrjob conn
    · rw [Function.update_of_ne hne] at hrjob
      rw [(log_of_ne _ hevs hne).2.2 conn]
      exact hl.job r' job hrjob conn
  · intro r' hrearly
    by_cases hne : r' = r
    · subst hne
      rw [Function.update_self] at hrearly
      exact hearly hrearly
    · rw [Function.update_of_ne hne] at hrearly
      rw [(log_of_ne _ hevs hne).1]
      exact hl.early r' hrearly

/-- A request that is not answered yet goes on, or is turned down. -/
theorem Recorded.of_request {q : Approval} (hs : Recorded s)
    (hactive : ∀ reply, s.approval r ≠ .replied reply) (hlog : t.log = L ++ s.log)
    (hevs : ∀ e ∈ L, e.request = some r) (hphase : t.phase = s.phase)
    (happroval : t.approval = Function.update s.approval r q) (hidle : q ≠ .idle)
    (hreplied : ∀ reply, .replied r reply ∈ L →
      q = .replied reply ∧ ∀ hostId, reply ≠ .approved hostId)
    (hhanded : ∀ fingerprintHex conn host, .handed r fingerprintHex conn host ∉ L)
    (hjob : ∀ job, q.job = some job →
      ∀ conn, r ∈ requestsFor (L ++ s.log) conn ↔ conn = job.entry.approveTx)
    (hearly : q.isEarly → writes (L ++ s.log) r = []) : Recorded t := by
  have hkeep {e : Event} (hmem : e ∈ s.log) : e ∈ t.log := hlog ▸ List.mem_append_right L hmem
  have hhandedOld {r' : ℕ} {fingerprintHex : String} {conn : ℕ} {host : HostEntry}
      (hmem : .handed r' fingerprintHex conn host ∈ t.log) :
      .handed r' fingerprintHex conn host ∈ s.log := by
    rw [hlog] at hmem
    rcases List.mem_append.1 hmem with hnew | hold
    · have heq : r' = r := Option.some.inj (hevs _ hnew)
      exact absurd (heq ▸ hnew) (hhanded fingerprintHex conn host)
    · exact hold
  have hlogged : Logged t.approval t.log := by
    rw [happroval, hlog]
    exact hs.logged.of_request hactive hevs hidle (fun reply h => (hreplied reply h).1) hjob hearly
  refine ⟨hlogged.idle, hlogged.replied, hlogged.job, hlogged.early, ?_, ?_, ?_, ?_, ?_⟩
  · intro r' fingerprintHex conn host hmem
    exact hkeep (hs.handed r' fingerprintHex conn host (hhandedOld hmem))
  · intro r' hostId hmem
    rw [hlog] at hmem
    rcases List.mem_append.1 hmem with hnew | hold
    · have heq : r' = r := Option.some.inj (hevs _ hnew)
      subst heq
      exact absurd rfl ((hreplied _ hnew).2 hostId)
    · obtain ⟨fingerprintHex, conn, host, hid, hmem'⟩ := hs.approved r' hostId hold
      exact ⟨fingerprintHex, conn, host, hid, hkeep hmem'⟩
  · intro r' _ _ conn conn' host host' hmem hmem'
    exact hs.handedOnce r' _ _ conn conn' host host' (hhandedOld hmem) (hhandedOld hmem')
  · intro conn host h
    rw [hphase] at h
    obtain ⟨r', fingerprintHex, hmem⟩ := hs.answered conn host h
    exact ⟨r', fingerprintHex, hkeep hmem⟩
  · intro conn host hmem
    rw [hlog] at hmem
    obtain ⟨hserved, r', fingerprintHex, hmem'⟩ :=
      hs.received conn host (mem_log_of_ne hevs nofun hmem)
    rw [hphase]
    exact ⟨hserved, r', fingerprintHex, hkeep hmem'⟩

/-- Such a step keeps the transactions when a request that is turned down has changed nothing, and
one that saves for an entry is the only one. -/
theorem Kept.of_request (hs : Recorded s) (hk : Kept s)
    (hactive : ∀ reply, s.approval r ≠ .replied reply) (hlog : t.log = L ++ s.log)
    (hevs : ∀ e ∈ L, e.request = some r) (hphase : t.phase = s.phase)
    (hhanded : ∀ fingerprintHex conn host, .handed r fingerprintHex conn host ∉ L)
    (hunchanged : ∀ reply, .replied r reply ∈ L → Untouched (L ++ s.log) r)
    (honce : ∀ conn, r ∈ requestsFor (L ++ s.log) conn → saved L r →
      ∀ r' ∈ requestsFor s.log conn, saved s.log r' = false)
    (hstarted : ∀ conn, r ∈ requestsFor L conn → saved s.log r = false) : Kept t := by
  have hfirst {conn r₁ r₂ : ℕ} (h₁ : r₁ ∈ requestsFor (L ++ s.log) conn)
      (h₂ : r₂ ∈ requestsFor (L ++ s.log) conn) (hs₁ : saved (L ++ s.log) r₁)
      (hs₂ : saved (L ++ s.log) r₂) (heq : r₁ = r) : r₁ = r₂ := by
    subst heq
    by_contra hne
    obtain ⟨-, hsaved, hmem⟩ := log_of_ne s.log hevs (Ne.symm hne)
    rw [hsaved] at hs₂
    rw [hmem] at h₂
    rw [saved_append, Bool.or_eq_true] at hs₁
    rcases hs₁ with hnew | hold
    · rw [honce conn h₁ hnew r₂ h₂] at hs₂
      cases hs₂
    · rw [requestsFor_append, List.mem_append] at h₁
      rcases h₁ with hstart | hmem₁
      · rw [hstarted conn hstart] at hold
        cases hold
      · exact hne (hk.once conn r₁ hmem₁ r₂ h₂ hold hs₂)
  refine ⟨fun r' fingerprintHex conn host hmem => ?_, fun r' reply hmem hreply => ?_,
    fun conn r₁ h₁ r₂ h₂ hs₁ hs₂ => ?_⟩
  · rw [hlog] at hmem
    have hold : .handed r' fingerprintHex conn host ∈ s.log := by
      rcases List.mem_append.1 hmem with hnew | hold
      · have heq : r' = r := Option.some.inj (hevs _ hnew)
        exact absurd (heq ▸ hnew) (hhanded fingerprintHex conn host)
      · exact hold
    rcases hk.handed r' fingerprintHex conn host hold with hreceived | hanswered
    · exact .inl (hlog ▸ List.mem_append_right L hreceived)
    · exact .inr (by rw [hphase]; exact hanswered)
  · rw [hlog] at hmem ⊢
    rcases List.mem_append.1 hmem with hnew | hold
    · have heq : r' = r := Option.some.inj (hevs _ hnew)
      subst heq
      exact hunchanged reply hnew
    · have hne : r' ≠ r := by
        rintro rfl
        exact hactive reply (hs.replied r' reply hold)
      unfold Untouched
      rw [(log_of_ne _ hevs hne).1]
      exact hk.unchanged r' reply hold hreply
  · rw [hlog] at h₁ h₂ hs₁ hs₂
    by_cases heq₁ : r₁ = r
    · exact hfirst h₁ h₂ hs₁ hs₂ heq₁
    · by_cases heq₂ : r₂ = r
      · exact (hfirst h₂ h₁ hs₂ hs₁ heq₂).symm
      · obtain ⟨-, hsaved₁, hmem₁⟩ := log_of_ne s.log hevs heq₁
        obtain ⟨-, hsaved₂, hmem₂⟩ := log_of_ne s.log hevs heq₂
        rw [hsaved₁] at hs₁
        rw [hsaved₂] at hs₂
        exact hk.once conn r₁ ((hmem₁ conn).1 h₁) r₂ ((hmem₂ conn).1 h₂) hs₁ hs₂

end

end Tenodera.Gateway.Handshake
