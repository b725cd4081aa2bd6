import Tenodera.Gateway.Transactions

/-!
# Approvals as transactions

An approval writes the hosts file first and answers the waiting agent afterwards, when that agent
may be gone or another approval of the same entry may have come first.  `transactional_iff` says
which steps may not happen for the replies to tell the truth about the file and the agent.
-/

namespace Tenodera.Gateway.Handshake

open Transition
open Enrollment (ApproveReply)

section

variable {crypto : Crypto} {gatewayId : String} {s t : State} {log L : List Event} {r : ℕ}

/-! ## The steps -/

/-- A request that has written nothing has changed nothing. -/
theorem untouched_of_writes (h : writes log r = []) : Untouched log r := by
  intro w hw
  rw [h] at hw
  cases hw

theorem approvals_start {fingerprintHex : String} {displayName : Option String}
    (hs : Recorded s) (hidle : s.approval r = .idle)
    (h : step crypto gatewayId s (.approveStart r fingerprintHex displayName) = some t) :
    Recorded t ∧ (Kept s → Kept t) := by
  have hactive (reply : ApproveReply) : s.approval r ≠ .replied reply := by simp [hidle]
  have hnew : ∀ e ∈ s.log, e.request ≠ some r := hs.idle r hidle
  have hwrites : writes s.log r = [] := hs.early r (by rw [hidle]; rfl)
  cases steps_of_step h with
  | @approveFound _ _ _ e _ hfind =>
    have hevs : ∀ ev ∈ [Event.started r e], ev.request = some r := by simp [Event.request]
    constructor
    · refine hs.of_request hactive (L := [_]) rfl hevs rfl rfl (by simp) (by simp) (by simp) ?_
        fun _ => hwrites
      rintro job ⟨⟩ conn
      rw [requestsFor_append, List.mem_append, or_iff_left (requestsFor_of_ne hnew)]
      simp [requestsFor, eq_comm]
    · intro hk
      refine hk.of_request hs hactive (L := [_]) rfl hevs rfl (by simp) (by simp) ?_ ?_
      · intro conn _ hsaved
        cases hsaved
      · intro conn _
        exact saved_of_writes_eq_nil hwrites
  | approveNotFound =>
    have hevs : ∀ ev ∈ [Event.replied r .notFound], ev.request = some r := by simp [Event.request]
    constructor
    · exact hs.of_request hactive (L := [_]) rfl hevs rfl rfl (by simp) (by simp) (by simp)
        (by simp [Approval.job]) (by simp [Approval.isEarly])
    · intro hk
      refine hk.of_request hs hactive (L := [_]) rfl hevs rfl (by simp) ?_ ?_ ?_
      · intro reply _
        exact untouched_of_writes hwrites
      · intro conn _ hsaved
        cases hsaved
      · intro conn hstart
        cases hstart

/-- A request goes on with its job, without a word. -/
theorem approvals_silent {q : Approval} {job : Job} {file : HostsFile} (hs : Recorded s)
    (hjob : (s.approval r).job = some job) (hq : q.job = some job)
    (hearly : q.isEarly → (s.approval r).isEarly) :
    let t := { s with
      file, approval := Function.update s.approval r q, log := [] ++ s.log }
    Recorded t ∧ (Kept s → Kept t) := by
  have hactive (reply : ApproveReply) : s.approval r ≠ .replied reply := by
    intro heq
    rw [heq] at hjob
    cases hjob
  have hidle : q ≠ .idle := by
    rintro rfl
    cases hq
  constructor
  · refine hs.of_request hactive (L := []) rfl (by simp) rfl rfl hidle (by simp) (by simp) ?_ ?_
    · intro job' hjob'
      cases hq.symm.trans hjob'
      exact hs.job r job hjob
    · intro h
      exact hs.early r (hearly h)
  · intro hk
    refine hk.of_request hs hactive (L := []) rfl (by simp) rfl (by simp) (by simp) ?_ ?_
    · intro conn _ hsaved
      cases hsaved
    · intro conn hstart
      cases hstart

/-- A request saves its host: the only one to do so for the entry, or two have. -/
theorem approvals_saved {q : Approval} {job : Job} {existing : Option HostEntry} {host : HostEntry}
    {config : HostsConfig} (hs : Recorded s)
    (hsaving : s.approval r = .saving job existing host config)
    (hq : q.job = some job) (hlate : q.isEarly = false) :
    let t := { s with
      file := .json config
      approval := Function.update s.approval r q
      log := [.wrote (.request r) .done s.file (.json config)] ++ s.log }
    Recorded t ∧ (Kept s → (Kept t ↔
      ∀ r' ∈ requestsFor s.log job.entry.approveTx, saved s.log r' = false)) := by
  have hactive (reply : ApproveReply) : s.approval r ≠ .replied reply := by
    rw [hsaving]
    nofun
  have hidle : q ≠ .idle := by
    rintro rfl
    cases hq
  have hevs : ∀ e ∈ [Event.wrote (.request r) .done s.file (.json config)],
      e.request = some r := by
    simp [Event.request]
  have hmem (conn : ℕ) : r ∈ requestsFor s.log conn ↔ conn = job.entry.approveTx :=
    hs.job r job (by rw [hsaving]; rfl) conn
  have hunsaved : saved s.log r = false :=
    saved_of_writes_eq_nil (hs.early r (by rw [hsaving]; rfl))
  constructor
  · refine hs.of_request hactive (L := [_]) rfl hevs rfl rfl hidle (by simp) (by simp) ?_ ?_
    · intro job' hjob'
      cases hq.symm.trans hjob'
      exact hmem
    · intro hearly
      rw [hlate] at hearly
      cases hearly
  · intro hk
    constructor
    · intro ht r' hr'
      by_contra hsaved
      have hsaved : saved s.log r' = true := by simpa using hsaved
      have hne : r' ≠ r := by
        rintro rfl
        rw [hunsaved] at hsaved
        cases hsaved
      have hself : saved ([Event.wrote (.request r) .done s.file (.json config)] ++ s.log) r :=
        saved_wrote s.file (.json config)
      have hother : saved ([Event.wrote (.request r) .done s.file (.json config)] ++ s.log) r' := by
        rw [saved_append, hsaved, Bool.or_true]
      exact hne (ht.once job.entry.approveTx r' hr' r ((hmem _).2 rfl) hother hself)
    · intro honly
      refine hk.of_request hs hactive (L := [_]) rfl hevs rfl (by simp) (by simp) ?_ ?_
      · intro conn hconn _ r' hr'
        rw [(hmem conn).1 hconn] at hr'
        exact honly r' hr'
      · intro conn hstart
        cases hstart

/-- A save that fails turns the request down, with the file as it was unless it was interrupted. -/
theorem approvals_failed (out : WriteOutcome) {job : Job} {existing : Option HostEntry}
    {host : HostEntry} {config : HostsConfig} (hs : Recorded s)
    (hsaving : s.approval r = .saving job existing host config) (hout : out ≠ .done) :
    let t := { s with
      file := written out config s.file
      approval := Function.update s.approval r (.replied .registrationFailed)
      log := [.replied r .registrationFailed,
        .wrote (.request r) out s.file (written out config s.file)] ++ s.log }
    Recorded t ∧ (Kept s → (Kept t ↔ (out = .interrupted → s.file = .malformed))) := by
  have hactive (reply : ApproveReply) : s.approval r ≠ .replied reply := by
    rw [hsaving]
    nofun
  have hevs : ∀ e ∈ [Event.replied r .registrationFailed,
      .wrote (.request r) out s.file (written out config s.file)], e.request = some r := by
    simp [Event.request]
  have hwrites : writes ([Event.replied r .registrationFailed,
      .wrote (.request r) out s.file (written out config s.file)] ++ s.log) r =
        [(s.file, written out config s.file)] := by
    have hearly : writes s.log r = [] := hs.early r (by rw [hsaving]; rfl)
    rw [List.cons_append, writes_replied, List.singleton_append, writes_wrote, hearly]
  have huntouched : Untouched ([Event.replied r .registrationFailed,
      .wrote (.request r) out s.file (written out config s.file)] ++ s.log) r ↔
        (out = .interrupted → s.file = .malformed) := by
    unfold Untouched
    rw [hwrites]
    cases out with
    | done => exact absurd rfl hout
    | refused => simp [written]
    | interrupted => simp [written, eq_comm]
  constructor
  · exact hs.of_request hactive (L := [_, _]) rfl hevs rfl rfl nofun (by simp) (by simp) nofun
      nofun
  · intro hk
    rw [← huntouched]
    constructor
    · intro ht
      exact ht.unchanged r .registrationFailed List.mem_cons_self nofun
    · intro hsame
      refine hk.of_request hs hactive (L := [_, _]) rfl hevs rfl (by simp) (fun _ _ => hsame) ?_
        ?_
      · intro conn _ hsaved
        cases out with
        | done => exact absurd rfl hout
        | refused | interrupted => cases hsaved
      · intro conn hstart
        cases hstart

/-- The display name is saved, or not. -/
theorem approvals_named {out : WriteOutcome} {job : Job} {host : HostEntry} {config : HostsConfig}
    (hs : Recorded s) (hnaming : s.approval r = .nameSaving job host config) :
    let t := { s with
      file := written out config s.file
      approval := Function.update s.approval r (.ready job host)
      log := [.named r out s.file (written out config s.file)] ++ s.log }
    Recorded t ∧ (Kept s → Kept t) := by
  have hactive (reply : ApproveReply) : s.approval r ≠ .replied reply := by
    rw [hnaming]
    nofun
  have hevs : ∀ e ∈ [Event.named r out s.file (written out config s.file)],
      e.request = some r := by
    simp [Event.request]
  constructor
  · refine hs.of_request hactive (L := [_]) rfl hevs rfl rfl nofun (by simp) (by simp) ?_ nofun
    rintro job' ⟨⟩
    exact hs.job r job (by rw [hnaming]; rfl)
  · intro hk
    refine hk.of_request hs hactive (L := [_]) rfl hevs rfl (by simp) (by simp) ?_ ?_
    · intro conn _ hsaved
      cases hsaved
    · intro conn hstart
      cases hstart

/-- A request is turned down: it has changed nothing, or has not kept to the transaction. -/
theorem approvals_refused (reply : ApproveReply) (pending : PendingRegistry) (hs : Recorded s)
    (hactive : ∀ reply, s.approval r ≠ .replied reply)
    (hreply : ∀ hostId, reply ≠ .approved hostId) :
    let t := { s with
      pending
      approval := Function.update s.approval r (.replied reply)
      log := [.replied r reply] ++ s.log }
    Recorded t ∧ (Kept s → (Kept t ↔ Untouched s.log r)) := by
  have hevs : ∀ e ∈ [Event.replied r reply], e.request = some r := by simp [Event.request]
  have hnone : ∀ reply', .replied r reply' ∈ [Event.replied r reply] →
      Approval.replied reply = .replied reply' ∧ ∀ hostId, reply' ≠ .approved hostId := by
    intro reply' hmem
    cases List.mem_singleton.1 hmem
    exact ⟨rfl, hreply⟩
  constructor
  · exact hs.of_request hactive (L := [_]) rfl hevs rfl rfl nofun hnone (by simp) nofun nofun
  · intro hk
    constructor
    · intro ht
      exact ht.unchanged r reply List.mem_cons_self hreply
    · intro hsame
      refine hk.of_request hs hactive (L := [_]) rfl hevs rfl (by simp) (fun _ _ => hsame) ?_ ?_
      · intro conn _ hsaved
        cases hsaved
      · intro conn hstart
        cases hstart

/-- The state after a waiting agent is answered, and the administrator told so. -/
def handedTo (s : State) (r : ℕ) (job : Job) (host : HostEntry) (conn : ℕ)
    (pending : PendingRegistry) : State :=
  { s with
    pending
    phase := Function.update s.phase conn (.waiting (.answered host))
    approval := Function.update s.approval r (.replied (.approved host.id))
    log := [.replied r (.approved host.id), .handed r job.fingerprintHex conn host] ++ s.log }

section

variable {job : Job} {host : HostEntry} {conn : ℕ}

theorem request_of_mem_handed : ∀ e ∈ [Event.replied r (.approved host.id),
    .handed r job.fingerprintHex conn host], e.request = some r := by
  simp [Event.request]

/-- A request that still waits to answer has answered nobody. -/
theorem Recorded.replied_notMem (hs : Recorded s) (hready : s.approval r = .ready job host)
    (reply : ApproveReply) : .replied r reply ∉ s.log := by
  intro hmem
  rw [hs.replied r reply hmem] at hready
  cases hready

theorem Recorded.handed_notMem (hs : Recorded s) (hready : s.approval r = .ready job host)
    (fingerprintHex : String) (c : ℕ) (h : HostEntry) : .handed r fingerprintHex c h ∉ s.log :=
  fun hmem => hs.replied_notMem hready _ (hs.handed r fingerprintHex c h hmem)

theorem recorded_handed (pending : PendingRegistry) (hs : Recorded s)
    (hready : s.approval r = .ready job host) (hwaiting : s.phase conn = .waiting .awaiting) :
    Recorded (handedTo s r job host conn pending) := by
  have hlogged : Logged (handedTo s r job host conn pending).approval
      (handedTo s r job host conn pending).log := by
    refine hs.logged.of_request (fun reply heq => ?_) request_of_mem_handed nofun (by simp) nofun
      nofun
    cases hready.symm.trans heq
  refine ⟨hlogged.idle, hlogged.replied, hlogged.job, hlogged.early, ?_, ?_, ?_, ?_, ?_⟩
  · intro r' fingerprintHex c h hmem
    rcases List.mem_append.1 hmem with hnew | hold
    · simp at hnew
      obtain ⟨rfl, rfl, rfl, rfl⟩ := hnew
      exact List.mem_cons_self
    · exact List.mem_append_right _ (hs.handed r' fingerprintHex c h hold)
  · intro r' hostId hmem
    rcases List.mem_append.1 hmem with hnew | hold
    · simp at hnew
      obtain ⟨rfl, rfl⟩ := hnew
      exact ⟨job.fingerprintHex, conn, host, rfl, List.mem_cons_of_mem _ List.mem_cons_self⟩
    · obtain ⟨fingerprintHex, c, h, hid, hhanded⟩ := hs.approved r' hostId hold
      exact ⟨fingerprintHex, c, h, hid, List.mem_append_right _ hhanded⟩
  · intro r' f f' c c' h h' hmem hmem'
    by_cases hne : r' = r
    · subst hne
      have hfirst : f = job.fingerprintHex ∧ c = conn ∧ h = host := by
        simpa [handedTo, hs.handed_notMem hready] using hmem
      have hsecond : f' = job.fingerprintHex ∧ c' = conn ∧ h' = host := by
        simpa [handedTo, hs.handed_notMem hready] using hmem'
      exact ⟨hfirst.2.1.trans hsecond.2.1.symm, hfirst.2.2.trans hsecond.2.2.symm⟩
    · have hold {f : String} {c : ℕ} {h : HostEntry}
          (hmem : .handed r' f c h ∈ (handedTo s r job host conn pending).log) :
          .handed r' f c h ∈ s.log :=
        mem_log_of_ne request_of_mem_handed (fun heq => hne (Option.some.inj heq)) hmem
      exact hs.handedOnce r' f f' c c' h h' (hold hmem) (hold hmem')
  · intro c h hphase
    dsimp only [handedTo] at hphase
    by_cases hne : c = conn
    · subst hne
      rw [Function.update_self] at hphase
      cases hphase
      exact ⟨r, job.fingerprintHex, List.mem_cons_of_mem _ List.mem_cons_self⟩
    · rw [Function.update_of_ne hne] at hphase
      obtain ⟨r', fingerprintHex, hmem⟩ := hs.answered c h hphase
      exact ⟨r', fingerprintHex, List.mem_append_right _ hmem⟩
  · intro c h hmem
    dsimp only [handedTo]
    obtain ⟨hserved, r', fingerprintHex, hhanded⟩ :=
      hs.received c h (mem_log_of_ne request_of_mem_handed nofun hmem)
    have hne : c ≠ conn := by
      rintro rfl
      rw [hwaiting] at hserved
      cases hserved
    rw [Function.update_of_ne hne]
    exact ⟨hserved, r', fingerprintHex, List.mem_append_right _ hhanded⟩

theorem kept_handed (pending : PendingRegistry) (hs : Recorded s) (hk : Kept s)
    (hready : s.approval r = .ready job host) (hwaiting : s.phase conn = .waiting .awaiting) :
    Kept (handedTo s r job host conn pending) := by
  refine ⟨?_, ?_, ?_⟩
  · intro r' fingerprintHex c h hmem
    rcases List.mem_append.1 hmem with hnew | hold
    · simp at hnew
      obtain ⟨rfl, rfl, rfl, rfl⟩ := hnew
      exact .inr (Function.update_self ..)
    · rcases hk.handed r' fingerprintHex c h hold with hreceived | hanswered
      · exact .inl (List.mem_append_right _ hreceived)
      · have hne : c ≠ conn := by
          rintro rfl
          cases hwaiting.symm.trans hanswered
        exact .inr ((Function.update_of_ne hne ..).trans hanswered)
  · intro r' reply hmem hreply
    dsimp only [handedTo] at hmem ⊢
    by_cases hne : r' = r
    · subst hne
      have heq : reply = .approved host.id := by simpa [hs.replied_notMem hready] using hmem
      exact absurd heq (hreply host.id)
    · unfold Untouched
      rw [(log_of_ne s.log request_of_mem_handed hne).1]
      refine hk.unchanged r' reply (mem_log_of_ne request_of_mem_handed (fun heq => hne ?_) hmem)
        hreply
      exact Option.some.inj heq
  · intro c r₁ h₁ r₂ h₂ hs₁ hs₂
    exact hk.once c r₁ h₁ r₂ h₂ hs₁ hs₂

end

/-! ## All steps -/

theorem approvals_greet {conn : ℕ} {h : Hello} {remoteIp : String} {nonce : Protocol.Nonce}
    (hs : Recorded s) (habsent : s.phase conn = .absent) :
    Recorded (greet conn h remoteIp nonce s) ∧
      (Kept s → Kept (greet conn h remoteIp nonce s)) := by
  have hconn (host : HostEntry) : s.phase conn ≠ .waiting (.answered host) := by
    rw [habsent]
    nofun
  have hserved {p : Phase} (h : (s.phase conn).isServed) : p.isServed := by
    rw [habsent] at h
    cases h
  rcases greet_cases h remoteIp nonce s with hclosed | ⟨g, -, hchallenged⟩
  · rw [hclosed]
    exact approvals_moved none hs (L := []) rfl (by simp) (by simp) rfl rfl (by simp) hconn hserved
  · rw [hchallenged]
    exact approvals_moved none hs (L := [_]) rfl (by simp [Event.request]) (by simp) rfl rfl
      nofun hconn hserved

theorem approvals_enterPending {conn : ℕ} {g : Greeting} {reason : String} (hs : Recorded s)
    (hphase : s.phase conn = .deferred reason) :
    Recorded (enterPending crypto.hashes conn g.peer s) ∧
      (Kept s → Kept (enterPending crypto.hashes conn g.peer s)) := by
  have hconn (host : HostEntry) : s.phase conn ≠ .waiting (.answered host) := by
    rw [hphase]
    nofun
  have hserved {p : Phase} (h : (s.phase conn).isServed) : p.isServed := by
    rw [hphase] at h
    cases h
  unfold enterPending
  split
  · exact approvals_moved _ hs (L := [_]) rfl (by simp [Event.request]) (by simp) rfl rfl nofun
      hconn hserved
  · exact approvals_moved none hs (L := []) rfl (by simp) (by simp) rfl rfl (by simp) hconn hserved

/-- The agent takes its answer. -/
theorem approvals_pickUp {conn : ℕ} {host : HostEntry} (hs : Recorded s)
    (hphase : s.phase conn = .waiting (.answered host)) :
    let t := { s with
      phase := Function.update s.phase conn (.authenticated host)
      log := [.received conn host] ++ s.log }
    Recorded t ∧ (Kept s → Kept t) := by
  have hevs : ∀ e ∈ [Event.received conn host], e.request = none := by simp [Event.request]
  constructor
  · refine hs.of_conn (L := [_]) rfl hevs rfl (fun c h hmem => ?_) (fun c h hanswered => ?_)
      fun c hserved => ?_
    · cases List.mem_singleton.1 hmem
      dsimp only
      rw [Function.update_self]
      exact ⟨rfl, hphase⟩
    · dsimp only at hanswered
      by_cases hne : c = conn
      · subst hne
        rw [Function.update_self] at hanswered
        cases hanswered
      · rwa [Function.update_of_ne hne] at hanswered
    · dsimp only
      by_cases hne : c = conn
      · subst hne
        rw [Function.update_self]
        rfl
      · rwa [Function.update_of_ne hne]
  · intro hk
    refine hk.of_conn (L := [_]) rfl hevs fun c h hreceives => ?_
    rcases hreceives with hreceived | hanswered
    · exact .inl (List.mem_cons_of_mem _ hreceived)
    · by_cases hne : c = conn
      · subst hne
        cases hphase.symm.trans hanswered
        exact .inl List.mem_cons_self
      · exact .inr ((Function.update_of_ne hne ..).trans hanswered)

/-- An agent that leaves with an answer on its way has not received it. -/
theorem approvals_giveUp {conn : ℕ} {channel : Channel} (hs : Recorded s)
    (hphase : s.phase conn = .waiting channel) :
    let t := { s with phase := Function.update s.phase conn .abandoned, log := [] ++ s.log }
    Recorded t ∧ (Kept s → (Kept t ↔ Commits s (.giveUp conn))) := by
  have hserved (h : (s.phase conn).isServed) : Phase.isServed .abandoned := by
    rw [hphase] at h
    cases h
  cases channel with
  | awaiting | dropped =>
    have hconn (host : HostEntry) : s.phase conn ≠ .waiting (.answered host) := by simp [hphase]
    obtain ⟨ht, hkept⟩ := approvals_moved (p := .abandoned) none hs (L := [])
      (t := { s with phase := Function.update s.phase conn .abandoned, log := [] ++ s.log })
      rfl (by simp) (by simp) rfl rfl (by simp) hconn hserved
    refine ⟨ht, fun hk => iff_of_true (hkept hk) ?_⟩
    simp [Commits, hphase]
  | answered host =>
    constructor
    · refine hs.of_conn (L := []) rfl (by simp) rfl (by simp) (fun c h hanswered => ?_)
        fun c hserved' => ?_
      · dsimp only at hanswered
        by_cases hne : c = conn
        · subst hne
          rw [Function.update_self] at hanswered
          cases hanswered
        · rwa [Function.update_of_ne hne] at hanswered
      · dsimp only
        by_cases hne : c = conn
        · subst hne
          exact absurd hserved' (by simp [hphase, Phase.isServed])
        · rwa [Function.update_of_ne hne]
    · intro hk
      refine iff_of_false (fun ht => ?_) (by simp [Commits, hphase])
      obtain ⟨r, fingerprintHex, hmem⟩ := hs.answered conn host hphase
      rcases ht.handed r fingerprintHex conn host hmem with hreceived | hanswered
      · obtain ⟨hserved', -⟩ := hs.received conn host hreceived
        rw [hphase] at hserved'
        cases hserved'
      · have hgone : Function.update s.phase conn .abandoned conn = .waiting (.answered host) :=
          hanswered
        rw [Function.update_self] at hgone
        cases hgone

theorem approvals_proceed {a : ApproveAction} {q : Approval} {file : HostsFile} (hs : Recorded s)
    (h : proceed r s.file a (s.approval r) = some (q, file, L)) :
    let t := { s with
      file, approval := Function.update s.approval r q, log := L ++ s.log }
    Recorded t ∧ (Kept s → (Kept t ↔ Commits s (.approve r a))) := by
  have hplain {t : State} (ht : Recorded t ∧ (Kept s → Kept t)) (hc : Commits s (.approve r a)) :
      Recorded t ∧ (Kept s → (Kept t ↔ Commits s (.approve r a))) :=
    ⟨ht.1, fun hk => iff_of_true (ht.2 hk) hc⟩
  generalize hphase : s.approval r = q at h
  cases proceeds_of_proceed h with
  | @looked job =>
    have hjob : (s.approval r).job = some job := by rw [hphase]; rfl
    exact hplain (approvals_silent hs hjob rfl fun _ => by rw [hphase]; rfl) trivial
  | @planned draw job =>
    have hjob : (s.approval r).job = some job := by rw [hphase]; rfl
    exact hplain (approvals_silent hs hjob rfl fun _ => by rw [hphase]; rfl) trivial
  | notPlanned =>
    have hactive (reply : ApproveReply) : s.approval r ≠ .replied reply := by simp [hphase]
    obtain ⟨ht, hkept⟩ := approvals_refused .registrationFailed s.pending hs hactive (by simp)
    have hwrites : writes s.log r = [] := hs.early r (by rw [hphase]; rfl)
    exact ⟨ht, fun hk => iff_of_true ((hkept hk).2 (untouched_of_writes hwrites)) trivial⟩
  | @saved job existing host config =>
    have hq : (if existing.isSome ∧ job.displayName.isSome then
          Approval.naming job { host with displayName := job.displayName }
        else .ready job host).job = some job := by
      split_ifs <;> rfl
    have hlate : (if existing.isSome ∧ job.displayName.isSome then
          Approval.naming job { host with displayName := job.displayName }
        else .ready job host).isEarly = false := by
      split_ifs <;> rfl
    obtain ⟨ht, hkept⟩ := approvals_saved hs hphase hq hlate
    exact ⟨ht, fun hk => (hkept hk).trans (by simp [Commits, hphase])⟩
  | @notSaved out job existing host config hout =>
    obtain ⟨ht, hkept⟩ := approvals_failed out hs hphase hout
    exact ⟨ht, fun hk => (hkept hk).trans (by simp [Commits, hphase, hout])⟩
  | @nameLoaded job | @nameKept job =>
    have hjob : (s.approval r).job = some job := by rw [hphase]; rfl
    exact hplain (approvals_silent hs hjob rfl (by simp [Approval.isEarly])) trivial
  | named => exact hplain (approvals_named hs hphase) trivial

theorem approvals_hand {job : Job} {host : HostEntry} (hs : Recorded s)
    (hready : s.approval r = .ready job host) :
    Recorded (hand r job host s) ∧
      (Kept s → (Kept (hand r job host s) ↔ Commits s (.approveHand r))) := by
  have hactive (reply : ApproveReply) : s.approval r ≠ .replied reply := by simp [hready]
  simp only [Commits, hready]
  unfold hand
  rcases happrove : s.pending.approve job.fingerprintHex with ⟨_ | e, pending⟩
  · obtain ⟨ht, hkept⟩ := approvals_refused .alreadyApproved pending hs hactive (by simp)
    exact ⟨ht, fun hk => (hkept hk).trans (by simp)⟩
  · dsimp only
    split_ifs with hwaiting
    · refine ⟨recorded_handed pending hs hready hwaiting, fun hk => iff_of_true ?_ ?_⟩
      · exact kept_handed pending hs hk hready hwaiting
      · exact .inl (by simpa using hwaiting)
    · obtain ⟨ht, hkept⟩ := approvals_refused .alreadyApproved pending hs hactive (by simp)
      exact ⟨ht, fun hk => (hkept hk).trans (by simp [hwaiting])⟩

/-- A step keeps the transactions exactly when it commits to them. -/
theorem approvals_step {a : Action} (hs : Recorded s) (h : step crypto gatewayId s a = some t) :
    Recorded t ∧ (Kept s → (Kept t ↔ Commits s a)) := by
  have hplain (ht : Recorded t ∧ (Kept s → Kept t)) (hc : Commits s a) :
      Recorded t ∧ (Kept s → (Kept t ↔ Commits s a)) :=
    ⟨ht.1, fun hk => iff_of_true (ht.2 hk) hc⟩
  cases steps_of_step h with
  | hello habsent => exact hplain (approvals_greet hs habsent) trivial
  | conn hg hadvance =>
    obtain ⟨hold, -, hnew, -⟩ := advance_moves hadvance
    obtain ⟨hevs, hreceived, hserved⟩ := advance_served hadvance
    refine hplain (approvals_moved none hs rfl hevs hreceived rfl rfl (fun host heq => ?_)
      (fun host heq => ?_) hserved) trivial
    · rw [heq] at hnew
      cases hnew
    · rw [heq] at hold
      cases hold
  | enterPending hphase => exact hplain (approvals_enterPending hs hphase) trivial
  | pickUp hphase => exact hplain (approvals_pickUp hs hphase) trivial
  | giveUp hphase => exact approvals_giveUp hs hphase
  | leavePending hphase =>
    refine hplain (approvals_moved _ hs (L := []) rfl (by simp) (by simp) rfl rfl (by simp)
      (fun host heq => ?_) fun _ => rfl) trivial
    cases hphase.symm.trans heq
  | approveFound hidle | approveNotFound hidle =>
    exact hplain (approvals_start hs hidle h) trivial
  | approve hproceed => exact approvals_proceed hs hproceed
  | approveHand hready => exact approvals_hand hs hready
  | @sign key payload =>
    have hevs : ∀ e ∈ [Event.signed key payload], e.request = none := by simp [Event.request]
    exact hplain ⟨hs.of_conn (L := [_]) rfl hevs rfl (by simp) (fun _ _ h => h) fun _ h => h,
      fun hk => hk.of_conn (L := [_]) rfl hevs fun _ _ h => h.imp_left (List.mem_cons_of_mem _)⟩
      trivial
  | others =>
    exact hplain ⟨hs.of_conn (L := []) rfl (by simp) rfl (by simp) (fun _ _ h => h) fun _ h => h,
      fun hk => hk.of_conn (L := []) rfl (by simp) fun _ _ h => h⟩ trivial

theorem recorded_init (file : HostsFile) : Recorded (.init file) where
  idle _ _ _ he := by cases he
  replied _ _ h := by cases h
  job _ _ h := by cases h
  early _ _ := rfl
  handed _ _ _ _ h := by cases h
  approved _ _ h := by cases h
  handedOnce _ _ _ _ _ _ _ h := by cases h
  answered _ _ h := by cases h
  received _ _ h := by cases h

theorem kept_init (file : HostsFile) : Kept (.init file) where
  handed _ _ _ _ h := by cases h
  unchanged _ _ h := by cases h
  once _ _ h := by cases h

end

/-- In a run, the replies of all approvals tell the truth about the agents and the file, and no
entry is approved into the file twice, exactly when every step commits. -/
theorem transactional_iff (crypto : Crypto) (gatewayId : String) (file : HostsFile)
    (as : List Action) (t : State)
    (hr : run (step crypto gatewayId) (.init file) as = some t) :
    Always (step crypto gatewayId) Transactional (.init file) as ↔
      Meets (step crypto gatewayId) Commits (.init file) as := by
  refine always_iff_meets (I := Recorded) (fun s a t hs h => (approvals_step hs h).1)
    (fun s a t hs hP h => ?_) (recorded_init file) ?_ hr
  · obtain ⟨ht, hiff⟩ := approvals_step hs h
    rw [transactional_iff_kept ht]
    exact hiff ((transactional_iff_kept hs).1 hP)
  · exact (transactional_iff_kept (recorded_init file)).2 (kept_init file)

/-- An administrator approves a waiting agent, which takes its answer. -/
def webApproved : List Action :=
  webWaits 0 webNonce webSignatureB64 ++
    [.approveStart 0 webFingerprintHex none, .approve 0 .find, .approve 0 (.load ⟨"h1", "t0"⟩),
      .approve 0 (.save .done), .approveHand 0, .pickUp 0]

theorem transactional_webApproved : ∃ t,
    run (step webCrypto "gw") (.init .absent) webApproved = some t ∧
      .replied 0 (.approved "h1") ∈ t.log ∧
        Always (step webCrypto "gw") Transactional (.init .absent) webApproved :=
  ⟨_, rfl, by decide,
    (transactional_iff webCrypto "gw" .absent webApproved _ rfl).2 (by decide)⟩

/-- The agent disconnects while the administrator's request saves the host. -/
def webGone : List Action :=
  webWaits 0 webNonce webSignatureB64 ++
    [.approveStart 0 webFingerprintHex none, .approve 0 .find, .approve 0 (.load ⟨"h1", "t0"⟩),
      .approve 0 (.save .done), .giveUp 0, .leavePending 0, .approveHand 0]

/-- The request answers that there is no such agent, and the host is in the file. -/
theorem webGone_changes_file : ∃ t,
    run (step webCrypto "gw") (.init .absent) webGone = some t ∧
      .replied 0 .alreadyApproved ∈ t.log ∧ (load t.file).hosts.map (·.id) = ["h1"] ∧
        ¬ Transactional t := by
  refine ⟨_, rfl, by decide, by decide, fun h => ?_⟩
  have hsame := h.unchanged 0 .alreadyApproved (by decide) nofun
  revert hsame
  decide

end Tenodera.Gateway.Handshake
