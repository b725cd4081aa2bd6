import Tenodera.Gateway.Handshake
import Tenodera.Lib.Run

/-!
# Which connection of a key can be approved

The pending registry holds one entry for each public key.  A connection with the key of a waiting
one takes over the entry, which ends the wait of the older connection; that one then takes the entry
out, whoever owns it by now.  `approvable_iff` says that this is the one way in which the newest
connection of a key stops being the one that an approval goes to.
-/

namespace Tenodera.Gateway.Handshake

open Protocol Transition
open Enrollment (ApproveReply)

/-- The connection that was put into the registry last for the key. -/
def newest (log : List Event) (key : String) : Option ℕ :=
  log.findSome? fun
    | .inserted conn pubkeyB64 => if pubkeyB64 = key then some conn else none
    | _ => none

/-- In `wait_for_approval`, without an answer. -/
def Phase.stillWaits : Phase → Bool
  | waiting .awaiting | waiting .dropped => true
  | _ => false

/-- The newest connection of a key has its entry in the registry as long as it waits, where an
approval of its fingerprint finds it and reaches it; and every approval has gone to the newest
connection of the key. -/
structure Approvable (crypto : Crypto) (s : State) : Prop where
  waits : ∀ key conn, newest s.log key = some conn → (s.phase conn).stillWaits →
    s.phase conn = .waiting .awaiting ∧ ∃ e, s.pending.lookup key = some e ∧ e.approveTx = conn ∧
      (s.pending.approve (crypto.hashes.pubkeyFingerprintHex key)).1 = some e
  delivered : ∀ request fingerprintHex conn host log,
    .handed request fingerprintHex conn host :: log <:+ s.log →
      ∃ key, crypto.hashes.pubkeyFingerprintHex key = fingerprintHex ∧ newest log key = some conn

/-- A connection on its way out finds no entry under its key whose connection still waits. -/
def SparesNewer (s : State) : Action → Prop
  | .leavePending conn => ∀ g ∈ s.greeting conn, ∀ e ∈ s.pending.lookup g.peer.publicKey,
      ¬ (s.phase e.approveTx).stillWaits
  | _ => True

instance (s : State) (a : Action) : Decidable (SparesNewer s a) := by
  rcases a <;> dsimp only [SparesNewer] <;> infer_instance

/-! ## The registry and the newest connections -/

/-- An insertion into the registry, or an approval that reached its connection. -/
def Event.isQueued : Event → Bool
  | inserted .. | handed .. => true
  | _ => false

/-- The entries are those of the newest connections, and keep their senders. -/
structure Queued (crypto : Crypto) (s : State) : Prop where
  keyed : Keyed crypto s
  inserted : ∀ conn key, .inserted conn key ∈ s.log →
    ∃ g, s.greeting conn = some g ∧ g.peer.publicKey = key
  newest : ∀ key e, s.pending.lookup key = some e → newest s.log key = some e.approveTx
  awaiting : ∀ key e channel, s.pending.lookup key = some e →
    s.phase e.approveTx = .waiting channel → channel = .awaiting
  delivered : ∀ request fingerprintHex conn host log,
    .handed request fingerprintHex conn host :: log <:+ s.log →
      ∃ key, crypto.hashes.pubkeyFingerprintHex key = fingerprintHex ∧
        Handshake.newest log key = some conn

/-- The newest connection of a key has an entry as long as it waits. -/
def Listed (s : State) : Prop :=
  ∀ key conn, newest s.log key = some conn → (s.phase conn).stillWaits →
    (s.pending.lookup key).isSome

section

variable {crypto : Crypto} {gatewayId : String} {s t : State} {a : Action} {conn : ℕ}
  {log L : List Event} {key : String} {e : PendingEntry}

theorem newest_append (h : ∀ e ∈ L, e.isQueued = false) (key : String) :
    newest (L ++ log) key = newest log key := by
  unfold newest
  rw [List.findSome?_append]
  have hnone : L.findSome? (fun
      | .inserted conn pubkeyB64 => if pubkeyB64 = key then some conn else none
      | _ => none) = none := by
    rw [List.findSome?_eq_none_iff]
    intro e he
    have hquiet := h e he
    cases e with
    | inserted conn pubkeyB64 => cases hquiet
    | _ => rfl
  rw [hnone]
  rfl

theorem inserted_of_newest (h : newest log key = some conn) : .inserted conn key ∈ log := by
  obtain ⟨e, he, hsome⟩ := List.exists_of_findSome?_eq_some h
  cases e with
  | inserted conn' key' =>
    dsimp only at hsome
    split_ifs at hsome with hkey
    cases hsome
    exact hkey ▸ he
  | _ => cases hsome

theorem mem_of_mem_append (h : ∀ e ∈ L, e.isQueued = false) {e : Event} (hq : e.isQueued)
    (he : e ∈ L ++ log) : e ∈ log := by
  rcases List.mem_append.1 he with hevs | hlog
  · rw [h e hevs] at hq
    cases hq
  · exact hlog

theorem suffix_of_suffix_append_of_quiet (h : ∀ e ∈ L, e.isQueued = false) {e : Event}
    (hq : e.isQueued) {l : List Event} (hl : e :: l <:+ L ++ log) : e :: l <:+ log := by
  induction L with
  | nil => exact hl
  | cons ev L ih =>
    rcases List.suffix_cons_iff.1 hl with heq | hrest
    · cases heq
      rw [h e List.mem_cons_self] at hq
      cases hq
    · exact ih (fun e he => h e (List.mem_cons_of_mem ev he)) hrest

/-- With different fingerprints for different keys, an approval takes the entry of the key. -/
theorem approve_of_lookup (sound : crypto.Sound) (hs : Keyed crypto s)
    (h : s.pending.lookup key = some e) :
    (s.pending.approve (crypto.hashes.pubkeyFingerprintHex key)).1 = some e := by
  obtain ⟨rfl, hprint, hbytes, -⟩ := hs.pending key e h
  rcases approve_cases hs (crypto.hashes.pubkeyFingerprintHex e.pubkeyB64) with
    ⟨-, hnone⟩ | ⟨e', happrove, hlookup', hprint'⟩
  · rw [← hprint] at hnone
    exact absurd hnone (PendingRegistry.entryForFingerprint_ne_none h)
  · obtain ⟨-, hprint'', hbytes', -⟩ := hs.pending e'.pubkeyB64 e' hlookup'
    have hkeys : e'.pubkeyB64 = e.pubkeyB64 :=
      Crypto.fingerprint_inj sound hbytes' hbytes (hprint''.symm.trans hprint')
    have hsame : e' = e := Option.some.inj (hlookup'.symm.trans (by rw [hkeys, h]))
    rw [happrove, hsame]

/-- What the newest connections of the keys can expect is that they are listed. -/
theorem approvable_iff_listed (sound : crypto.Sound) (hs : Queued crypto s) :
    Approvable crypto s ↔ Listed s := by
  constructor
  · intro h key conn hnewest hwaits
    obtain ⟨-, e, he, -⟩ := h.waits key conn hnewest hwaits
    rw [he]
    rfl
  · refine fun h => ⟨fun key conn hnewest hwaits => ?_, hs.delivered⟩
    obtain ⟨e, he⟩ := Option.isSome_iff_exists.1 (h key conn hnewest hwaits)
    have hconn : e.approveTx = conn := Option.some.inj ((hs.newest key e he).symm.trans hnewest)
    subst hconn
    refine ⟨?_, e, he, rfl, approve_of_lookup sound hs.keyed he⟩
    have hphase := hwaits
    unfold Phase.stillWaits at hphase
    split at hphase
    · assumption
    · rename_i hdropped
      cases hs.awaiting key e .dropped he hdropped
    · cases hphase

/-! ## What a step does to the registry -/

/-- Entries of different keys belong to different connections. -/
theorem Keyed.conn_ne {key' : String} {e' : PendingEntry} (hs : Keyed crypto s)
    (h : s.pending.lookup key = some e) (h' : s.pending.lookup key' = some e') (hne : key ≠ key') :
    e.approveTx ≠ e'.approveTx := by
  intro heq
  obtain ⟨-, -, -, g, hg, hkey⟩ := hs.pending key e h
  obtain ⟨-, -, -, g', hg', hkey'⟩ := hs.pending key' e' h'
  rw [heq] at hg
  cases hg.symm.trans hg'
  exact hne (hkey.symm.trans hkey')

/-- Dropping the sender of an entry leaves the connections of the other entries. -/
theorem hangUp_of_ne {e' : PendingEntry} (h : e.approveTx ≠ e'.approveTx) (phase : ℕ → Phase) :
    hangUp (some e) phase e'.approveTx = phase e'.approveTx := by
  unfold hangUp
  dsimp only
  split_ifs
  · exact Function.update_of_ne (Ne.symm h) ..
  · rfl

theorem stillWaits_hangUp (o : Option PendingEntry) (phase : ℕ → Phase) (conn : ℕ) :
    (hangUp o phase conn).stillWaits = (phase conn).stillWaits := by
  rcases hangUp_cases o phase conn with heq | ⟨hwaiting, hdropped⟩
  · rw [heq]
  · rw [hwaiting, hdropped]
    rfl

/-- Steps that put no entry in and reach no connection. -/
theorem Queued.of_moves (hs : Queued crypto s) (hkeyed : Keyed crypto t)
    (hgreeting : ∀ c g, s.greeting c = some g → t.greeting c = some g)
    (hlog : t.log = L ++ s.log) (hevs : ∀ e ∈ L, e.isQueued = false)
    (hpending : ∀ key e, t.pending.lookup key = some e → s.pending.lookup key = some e)
    (hphase : ∀ key e channel, t.pending.lookup key = some e →
      t.phase e.approveTx = .waiting channel → s.phase e.approveTx = .waiting channel) :
    Queued crypto t := by
  refine ⟨hkeyed, fun c key hmem => ?_, fun key e he => ?_, fun key e channel he hw => ?_,
    fun request fingerprintHex c host l hl => ?_⟩
  · rw [hlog] at hmem
    obtain ⟨g, hg, hkey⟩ := hs.inserted c key (mem_of_mem_append hevs rfl hmem)
    exact ⟨g, hgreeting c g hg, hkey⟩
  · rw [hlog, newest_append hevs]
    exact hs.newest key e (hpending key e he)
  · exact hs.awaiting key e channel (hpending key e he) (hphase key e channel he hw)
  · rw [hlog] at hl
    exact hs.delivered request fingerprintHex c host l
      (suffix_of_suffix_append_of_quiet hevs rfl hl)

/-- Steps that neither change the registry nor make a connection wait. -/
theorem Listed.of_moves (hs : Listed s) (hlog : t.log = L ++ s.log)
    (hevs : ∀ e ∈ L, e.isQueued = false) (hpending : t.pending = s.pending)
    (hphase : ∀ c, (t.phase c).stillWaits → (s.phase c).stillWaits) : Listed t := by
  intro key c hnewest hwaits
  rw [hlog, newest_append hevs] at hnewest
  rw [hpending]
  exact hs key c hnewest (hphase c hwaits)

/-- One connection moves on to where it does not wait. -/
theorem waiting_of_update {phase : ℕ → Phase} {p : Phase} (hp : ∀ channel, p ≠ .waiting channel)
    {c : ℕ} {channel : Channel} (h : Function.update phase conn p c = .waiting channel) :
    phase c = .waiting channel := by
  by_cases heq : c = conn
  · subst heq
    rw [Function.update_self] at h
    exact absurd h (hp channel)
  · rwa [Function.update_of_ne heq] at h

theorem stillWaits_of_update {p : Phase} (hp : p.stillWaits = false) {c : ℕ}
    (h : (Function.update s.phase conn p c).stillWaits) : (s.phase c).stillWaits := by
  by_cases heq : c = conn
  · subst heq
    rw [Function.update_self, hp] at h
    cases h
  · rwa [Function.update_of_ne heq] at h

/-! ## The steps -/

theorem advance_quiet {g : Greeting} {shared shared' : Shared} {a : ConnAction} {p p' : Phase}
    (h : advance crypto gatewayId conn g shared a p = some (p', shared', L)) :
    (∀ channel, p' ≠ .waiting channel) ∧ ∀ e ∈ L, e.isQueued = false := by
  obtain ⟨-, -, hpending, -, hprivate⟩ := advance_moves h
  refine ⟨fun channel heq => ?_, fun e he => ?_⟩
  · rw [heq] at hpending
    cases hpending
  · have hown := hprivate e he
    cases e with
    | inserted | handed => cases hown
    | _ => rfl

theorem proceed_quiet {request : ℕ} {file file' : HostsFile} {a : ApproveAction} {q q' : Approval}
    (h : proceed request file a q = some (q', file', L)) : ∀ e ∈ L, e.isQueued = false := by
  cases proceeds_of_proceed h <;> simp [Event.isQueued]

/-- A step that leaves the registry and its connections alone: a connection `conn` at most goes to
where it does not wait. -/
theorem queue_of_moves {p : Phase} (hs : Queued crypto s) (hkeyed : Keyed crypto t)
    (hgreeting : ∀ c g, s.greeting c = some g → t.greeting c = some g)
    (hlog : t.log = L ++ s.log) (hevs : ∀ e ∈ L, e.isQueued = false)
    (hpending : t.pending = s.pending) (hphase : t.phase = Function.update s.phase conn p)
    (hp : ∀ channel, p ≠ .waiting channel) :
    Queued crypto t ∧ (Listed s → Listed t) := by
  have hstill : p.stillWaits = false := by
    cases p with
    | waiting channel => exact absurd rfl (hp channel)
    | _ => rfl
  constructor
  · refine hs.of_moves hkeyed hgreeting hlog hevs (fun key e he => hpending ▸ he) ?_
    intro key e channel _ hw
    rw [hphase] at hw
    exact waiting_of_update hp hw
  · intro hlisted
    refine hlisted.of_moves hlog hevs hpending fun c hw => ?_
    rw [hphase] at hw
    exact stillWaits_of_update hstill hw

/-- A step that leaves the registry and all connections alone. -/
theorem queue_of_eq (hs : Queued crypto s) (hkeyed : Keyed crypto t)
    (hgreeting : t.greeting = s.greeting) (hlog : t.log = L ++ s.log)
    (hevs : ∀ e ∈ L, e.isQueued = false) (hpending : t.pending = s.pending)
    (hphase : t.phase = s.phase) : Queued crypto t ∧ (Listed s → Listed t) := by
  constructor
  · refine hs.of_moves hkeyed (fun c g hg => hgreeting ▸ hg) hlog hevs
      (fun key e he => hpending ▸ he) ?_
    intro key e channel _ hw
    rwa [hphase] at hw
  · intro hlisted
    refine hlisted.of_moves hlog hevs hpending fun c hw => ?_
    rwa [hphase] at hw

theorem queue_greet {h : Hello} {remoteIp : String} {nonce : Nonce} (hs : Queued crypto s)
    (habsent : s.phase conn = .absent) :
    Queued crypto (greet conn h remoteIp nonce s) ∧
      (Listed s → Listed (greet conn h remoteIp nonce s)) := by
  have hkeyed : Keyed crypto (greet conn h remoteIp nonce s) := keyed_greet hs.keyed habsent
  rcases greet_cases h remoteIp nonce s with hclosed | ⟨g, -, hchallenged⟩
  · rw [hclosed] at hkeyed ⊢
    exact queue_of_moves hs hkeyed (fun _ _ hg => hg) (L := []) rfl (by simp) rfl rfl nofun
  · rw [hchallenged] at hkeyed ⊢
    refine queue_of_moves hs hkeyed (fun c g' hg' => ?_) (L := [_]) rfl ?_ rfl rfl nofun
    · have hne : c ≠ conn := by
        rintro rfl
        rw [hs.keyed.absent c habsent] at hg'
        cases hg'
      exact (Function.update_of_ne hne ..).trans hg'
    · simp [Event.isQueued]

/-- The connection that is put in is the newest of its key, and has its entry. -/
theorem queue_enterPending {g : Greeting} {reason : String} (hs : Queued crypto s)
    (hg : s.greeting conn = some g) (hphase : s.phase conn = .deferred reason) :
    Queued crypto (enterPending crypto.hashes conn g.peer s) ∧
      (Listed s → Listed (enterPending crypto.hashes conn g.peer s)) := by
  have hkeyed := keyed_enterPending hs.keyed hg (by rw [hphase]; rfl)
  have hown (key : String) (h : newest s.log key = some conn) : key = g.peer.publicKey := by
    obtain ⟨g', hg', hkey⟩ := hs.inserted conn key (inserted_of_newest h)
    cases hg.symm.trans hg'
    exact hkey.symm
  unfold enterPending at hkeyed ⊢
  split at hkeyed
  swap
  · exact queue_of_moves hs hkeyed (fun _ _ hg => hg) (L := []) rfl (by simp) rfl rfl nofun
  rename_i pending hadd
  have hinsert := PendingRegistry.eq_insert_of_add hadd
  have hother (key : String) (hne : key ≠ g.peer.publicKey) :
      pending.lookup key = s.pending.lookup key := by
    rw [hinsert]
    exact AList.lookup_insert_ne hne
  have hself (key : String) : newest (.inserted conn g.peer.publicKey :: s.log) key =
      if g.peer.publicKey = key then some conn else newest s.log key := by
    unfold newest
    rw [List.findSome?_cons]
    dsimp only
    split_ifs <;> rfl
  refine ⟨⟨hkeyed, fun c key hmem => ?_, fun key e he => ?_, fun key e channel he hw => ?_,
    fun request fingerprintHex c host l hl => ?_⟩, fun hlisted key c hnewest hwaits => ?_⟩
  · rcases List.mem_cons.1 hmem with heq | hold
    · cases heq
      exact ⟨g, hg, rfl⟩
    · exact hs.inserted c key hold
  · dsimp only at he ⊢
    rw [hself]
    by_cases hkey : key = g.peer.publicKey
    · subst hkey
      rw [hinsert, AList.lookup_insert] at he
      cases he
      rw [if_pos rfl]
    · rw [hother key hkey] at he
      rw [if_neg (Ne.symm hkey)]
      exact hs.newest key e he
  · dsimp only at he hw
    by_cases hconn : e.approveTx = conn
    · rw [hconn, Function.update_self] at hw
      cases hw
      rfl
    · rw [Function.update_of_ne hconn] at hw
      have hkey : key ≠ g.peer.publicKey := by
        rintro rfl
        rw [hinsert, AList.lookup_insert] at he
        cases he
        exact hconn rfl
      rw [hother key hkey] at he
      rcases hlook : s.pending.lookup g.peer.publicKey with _ | old
      · rw [hlook] at hw
        exact hs.awaiting key e channel he hw
      · rw [hlook, hangUp_of_ne (hs.keyed.conn_ne hlook he (Ne.symm hkey))] at hw
        exact hs.awaiting key e channel he hw
  · obtain ⟨key, hprint, hnewest⟩ := hs.delivered request fingerprintHex c host l
      (by rcases List.suffix_cons_iff.1 hl with heq | hold
          · cases heq
          · exact hold)
    exact ⟨key, hprint, hnewest⟩
  · dsimp only at hnewest hwaits ⊢
    by_cases hkey : key = g.peer.publicKey
    · subst hkey
      rw [hinsert, AList.lookup_insert]
      rfl
    · rw [hself, if_neg (Ne.symm hkey)] at hnewest
      rw [hother key hkey]
      have hne : c ≠ conn := by
        rintro rfl
        exact hkey (hown key hnewest)
      rw [Function.update_of_ne hne, stillWaits_hangUp] at hwaits
      exact hlisted key c hnewest hwaits

/-- A connection on its way out takes the entry of the key with it. -/
theorem queue_leavePending {g : Greeting} (hs : Queued crypto s)
    (hg : s.greeting conn = some g) (hphase : s.phase conn = .abandoned) :
    Queued crypto (leavePending conn g.peer.publicKey s) ∧
      (Listed s → (Listed (leavePending conn g.peer.publicKey s) ↔
        SparesNewer s (.leavePending conn))) := by
  have hkeyed : Keyed crypto (leavePending conn g.peer.publicKey s) :=
    keyed_leavePending hs.keyed g.peer.publicKey
  have hstill (c : ℕ) (h : c ≠ conn) :
      ((leavePending conn g.peer.publicKey s).phase c).stillWaits = (s.phase c).stillWaits := by
    change (Function.update (hangUp _ s.phase) conn .closed c).stillWaits = _
    rw [Function.update_of_ne h, stillWaits_hangUp]
  constructor
  · refine hs.of_moves hkeyed (fun _ _ hg => hg) (L := []) rfl (by simp)
      (fun key e he => (AList.lookup_erase_eq_some_iff.1 he).2) fun key e channel he hw => ?_
    obtain ⟨hne, hold⟩ := AList.lookup_erase_eq_some_iff.1 he
    have hmoved := waiting_of_update (p := .closed) nofun hw
    rcases hlook : s.pending.lookup g.peer.publicKey with _ | gone
    · rwa [hlook] at hmoved
    · rw [hlook] at hmoved
      rwa [← hangUp_of_ne (hs.keyed.conn_ne hlook hold (Ne.symm hne)) s.phase]
  · intro hlisted
    constructor
    · intro h g' hg' e he hwaits
      cases hg.symm.trans hg'
      have hne : e.approveTx ≠ conn := by
        intro heq
        rw [heq, hphase] at hwaits
        cases hwaits
      have hgone := h g.peer.publicKey e.approveTx (hs.newest _ e he)
        (by rw [hstill _ hne]; exact hwaits)
      change ((s.pending.erase g.peer.publicKey).lookup g.peer.publicKey).isSome at hgone
      rw [AList.lookup_erase] at hgone
      cases hgone
    · intro h key c hnewest hwaits
      have hne : c ≠ conn := by
        rintro rfl
        change (Function.update (hangUp _ s.phase) c .closed c).stillWaits at hwaits
        rw [Function.update_self] at hwaits
        cases hwaits
      rw [hstill c hne] at hwaits
      obtain ⟨e, he⟩ := Option.isSome_iff_exists.1 (hlisted key c hnewest hwaits)
      have hconn : e.approveTx = c := Option.some.inj ((hs.newest key e he).symm.trans hnewest)
      by_cases hkey : key = g.peer.publicKey
      · subst hkey
        exact absurd (hconn ▸ hwaits) (h g hg e he)
      · change ((s.pending.erase g.peer.publicKey).lookup key).isSome
        rw [AList.lookup_erase_ne hkey, he]
        rfl

/-- An approval reaches the newest connection of the key, or one that does not wait any more. -/
theorem queue_hand {request : ℕ} {job : Job} {host : HostEntry} (hs : Queued crypto s) :
    Queued crypto (hand request job host s) ∧
      (Listed s → Listed (hand request job host s)) := by
  have hkeyed : Keyed crypto (hand request job host s) := keyed_hand hs.keyed
  unfold hand at hkeyed ⊢
  rcases approve_cases hs.keyed job.fingerprintHex with ⟨happrove, -⟩ | ⟨e, happrove, hlook, hprint⟩
  · rw [happrove] at hkeyed ⊢
    exact queue_of_eq hs hkeyed rfl (L := [_]) rfl (by simp [Event.isQueued]) rfl rfl
  rw [happrove] at hkeyed ⊢
  dsimp only at hkeyed ⊢
  have hnewest := hs.newest e.pubkeyB64 e hlook
  split_ifs at hkeyed ⊢ with hwaiting
  · have hfirst (key : String) :
        newest ([.replied request (.approved host.id),
          .handed request job.fingerprintHex e.approveTx host] ++ s.log) key =
          newest s.log key := by
      simp [newest]
    refine ⟨⟨hkeyed, fun c key hmem => hs.inserted c key ?_, fun key e' he' => ?_,
      fun key e' channel he' hw => ?_, fun request' fingerprintHex c host' l hl => ?_⟩,
      fun hlisted key c hnew hwaits => ?_⟩
    · simpa using hmem
    · dsimp only at he' ⊢
      rw [hfirst]
      exact hs.newest key e' (AList.lookup_erase_eq_some_iff.1 he').2
    · dsimp only at he' hw
      obtain ⟨hne, hold⟩ := AList.lookup_erase_eq_some_iff.1 he'
      rw [Function.update_of_ne (hs.keyed.conn_ne hold hlook hne)] at hw
      exact hs.awaiting key e' channel hold hw
    · dsimp only at hl
      rcases List.suffix_cons_iff.1 hl with heq | hl
      · cases heq
      rcases List.suffix_cons_iff.1 hl with heq | hold
      · cases heq
        obtain ⟨-, heprint, -⟩ := hs.keyed.pending e.pubkeyB64 e hlook
        exact ⟨e.pubkeyB64, heprint.symm.trans hprint, hnewest⟩
      · exact hs.delivered request' fingerprintHex c host' l hold
    · dsimp only at hnew hwaits ⊢
      rw [hfirst] at hnew
      have hne : c ≠ e.approveTx := by
        rintro rfl
        rw [Function.update_self] at hwaits
        cases hwaits
      rw [Function.update_of_ne hne] at hwaits
      have hkey : key ≠ e.pubkeyB64 := by
        rintro rfl
        exact hne (Option.some.inj (hnew.symm.trans hnewest))
      rw [AList.lookup_erase_ne hkey]
      exact hlisted key c hnew hwaits
  · constructor
    · refine hs.of_moves hkeyed (fun _ _ hg => hg) (L := [_]) rfl (by simp [Event.isQueued])
        (fun key e' he' => (AList.lookup_erase_eq_some_iff.1 he').2) fun _ _ _ _ hw => hw
    · intro hlisted key c hnew hwaits
      have hnew : newest s.log key = some c := by
        simpa [newest, List.findSome?_cons] using hnew
      have hkey : key ≠ e.pubkeyB64 := by
        rintro rfl
        cases hnew.symm.trans hnewest
        -- a connection with an entry waits for an answer, if at all
        unfold Phase.stillWaits at hwaits
        split at hwaits
        · contradiction
        · rename_i hdropped
          cases hs.awaiting e.pubkeyB64 e .dropped hlook hdropped
        · cases hwaits
      change ((s.pending.erase e.pubkeyB64).lookup key).isSome
      rw [AList.lookup_erase_ne hkey]
      exact hlisted key c hnew hwaits

/-- A step keeps the newest connections listed, unless it is an older connection that takes the
entry of a newer one with it. -/
theorem queue_step (hs : Queued crypto s) (h : step crypto gatewayId s a = some t) :
    Queued crypto t ∧ (Listed s → (Listed t ↔ SparesNewer s a)) := by
  have hkeyed := keyed_step hs.keyed h
  have hplain {P Q : Prop} (h : Queued crypto t ∧ (P → Q)) (hspares : SparesNewer s a) :
      Queued crypto t ∧ (P → (Q ↔ SparesNewer s a)) :=
    ⟨h.1, fun hp => iff_of_true (h.2 hp) hspares⟩
  cases steps_of_step h with
  | hello habsent => exact hplain (queue_greet hs habsent) trivial
  | conn hg hadvance =>
    obtain ⟨hp, hevs⟩ := advance_quiet hadvance
    exact hplain (queue_of_moves hs hkeyed (fun _ _ hg => hg) rfl hevs rfl rfl hp) trivial
  | enterPending hphase hg => exact hplain (queue_enterPending hs hg hphase) trivial
  | pickUp =>
    exact hplain (queue_of_moves hs hkeyed (fun _ _ hg => hg) (L := [_]) rfl
      (by simp [Event.isQueued]) rfl rfl (by simp)) trivial
  | giveUp =>
    exact hplain (queue_of_moves hs hkeyed (fun _ _ hg => hg) (L := []) rfl (by simp) rfl rfl
      (by simp)) trivial
  | leavePending hphase hg => exact queue_leavePending hs hg hphase
  | approveFound | approveNotFound | sign =>
    exact hplain (queue_of_eq hs hkeyed rfl (L := [_]) rfl (by simp [Event.isQueued]) rfl rfl)
      trivial
  | approve hproceed =>
    exact hplain (queue_of_eq hs hkeyed rfl rfl (proceed_quiet hproceed) rfl rfl) trivial
  | approveHand => exact hplain (queue_hand hs) trivial
  | others =>
    exact hplain (queue_of_eq hs hkeyed rfl (L := []) rfl (by simp) rfl rfl) trivial

theorem queued_init (file : HostsFile) : Queued crypto (.init file) where
  keyed := keyed_init file
  inserted _ _ h := by cases h
  newest _ _ h := by cases h
  awaiting _ _ _ h := by cases h
  delivered _ _ _ _ _ h := by cases List.suffix_nil.1 h

end

/-- In a run, the newest connection of every key can be approved as long as it waits, and approvals
go to it, exactly when no connection on its way out finds an entry of its key there whose connection
still waits. -/
theorem approvable_iff (crypto : Crypto) (sound : crypto.Sound) (gatewayId : String)
    (file : HostsFile) (as : List Action) (t : State)
    (hr : run (step crypto gatewayId) (.init file) as = some t) :
    Always (step crypto gatewayId) (Approvable crypto) (.init file) as ↔
      Meets (step crypto gatewayId) SparesNewer (.init file) as := by
  refine always_iff_meets (I := Queued crypto) (fun s a t hs h => (queue_step hs h).1)
    (fun s a t hs hP h => ?_) (queued_init file) ?_ hr
  · obtain ⟨ht, hiff⟩ := queue_step hs h
    rw [approvable_iff_listed sound ht]
    exact hiff ((approvable_iff_listed sound hs).1 hP)
  · exact (approvable_iff_listed sound (queued_init file)).2 fun _ _ h => by cases h

/-- The agent reconnects after its first connection has been cleaned up. -/
def webReconnects : List Action :=
  webWaits 0 webNonce webSignatureB64 ++ [.giveUp 0, .leavePending 0] ++
    webWaits 1 webNonce' webSignatureB64'

theorem approvable_webReconnects : ∃ t,
    run (step webCrypto "gw") (.init .absent) webReconnects = some t ∧
      newest t.log webKeyB64 = some 1 ∧ (t.phase 1).stillWaits ∧
        Always (step webCrypto "gw") (Approvable webCrypto) (.init .absent) webReconnects :=
  ⟨_, rfl, by decide, by decide,
    (approvable_iff webCrypto webCrypto_sound "gw" .absent webReconnects _ rfl).2 (by decide)⟩

/-- The agent reconnects while its first connection still waits. -/
def webTakesOver : List Action :=
  webWaits 0 webNonce webSignatureB64 ++ webWaits 1 webNonce' webSignatureB64' ++
    [.giveUp 0, .leavePending 0]

/-- The end of the first connection removes the entry of the second one, which goes on waiting. -/
theorem webTakesOver_loses_entry : ∃ t,
    run (step webCrypto "gw") (.init .absent) webTakesOver = some t ∧
      newest t.log webKeyB64 = some 1 ∧ (t.phase 1).stillWaits ∧
        t.pending.lookup webKeyB64 = none ∧ ¬ Approvable webCrypto t := by
  refine ⟨_, rfl, by decide, by decide, by decide, fun h => ?_⟩
  have hlost := (h.waits webKeyB64 1 (by decide) (by decide)).1
  revert hlost
  decide

end Tenodera.Gateway.Handshake
