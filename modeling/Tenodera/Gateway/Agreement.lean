import Tenodera.Gateway.Handshake
import Tenodera.Lib.Run

/-!
# Agreement on the key of a registered agent

Whoever talks to the gateway, and whatever was signed for other connections and other gateways: a
connection that gets registered for a host has answered its own challenge with the key of that host.
`agreement_of_run` follows every registration back through the path of authentication to the
signature.
-/

namespace Tenodera.Gateway.Handshake

open Protocol Transition
open Enrollment (ApproveReply)

/-- The payload that an agent has to sign. -/
def Greeting.payload (g : Greeting) (gatewayId : String) : List UInt8 :=
  buildChallengePayload g.nonce g.peer.hostname gatewayId

/-! ## The statement -/

/-- On the connection, a signature of its nonce, the claimed hostname and the id of the gateway was
verified under the presented key; its holder had made it after the challenge. -/
def Proved (crypto : Crypto) (gatewayId : String) (log : List Event) (conn : ℕ) (g : Greeting) :
    Prop :=
  ∃ key, crypto.keyBytes g.peer.publicKey = some key ∧
    List.Sublist [.verified conn g.peer.publicKey (g.payload gatewayId),
      .signed key (g.payload gatewayId), .challenged conn g.nonce] log

/-- After that verification the presented key was found in the file for the host, was enrolled for
it by the connection, or was written for it by an approval that answered the connection. -/
inductive Vouched (gatewayId : String) (log : List Event) (conn : ℕ) (g : Greeting)
    (hostId : String) : Prop
  | known (config : HostsConfig)
      (looked : List.Sublist [.looked conn config,
        .verified conn g.peer.publicKey (g.payload gatewayId)] log)
      (stored : KeyStored config hostId g.peer.publicKey)
  | enrolled (before : HostsFile) (config : HostsConfig)
      (wrote : List.Sublist [.wrote (.conn conn) .done before (.json config),
        .verified conn g.peer.publicKey (g.payload gatewayId)] log)
      (stored : KeyStored config hostId g.peer.publicKey)
  | approved (request : ℕ) (fingerprintHex : String) (host : HostEntry) (before : HostsFile)
      (config : HostsConfig) (id : host.id = hostId)
      (handed : List.Sublist [.handed request fingerprintHex conn host,
        .verified conn g.peer.publicKey (g.payload gatewayId)] log)
      (wrote : List.Sublist [.handed request fingerprintHex conn host,
        .wrote (.request request) .done before (.json config)] log)
      (stored : KeyStored config hostId g.peer.publicKey)

/-- At every registration, the connection has proved the possession of a key that is vouched for. -/
def Agreement (crypto : Crypto) (gatewayId : String) (s : State) : Prop :=
  ∀ hostId conn log, .registered hostId conn :: log <:+ s.log → ∃ g, s.greeting conn = some g ∧
    Proved crypto gatewayId log conn g ∧ Vouched gatewayId log conn g hostId

/-- Signatures are ideal: one that verifies was made by the holder of the key. -/
def SignaturesIdeal (crypto : Crypto) (gatewayId : String) (s : State) : Action → Prop
  | .conn conn (.respond sigB64) => ∀ g ∈ s.greeting conn,
      crypto.verifySignature g.peer.publicKey sigB64 g.nonce g.peer.hostname gatewayId →
        ∀ key ∈ crypto.keyBytes g.peer.publicKey, .signed key (g.payload gatewayId) ∈ s.log
  | _ => True

instance (crypto : Crypto) (gatewayId : String) (s : State) (a : Action) :
    Decidable (SignaturesIdeal crypto gatewayId s a) := by
  unfold SignaturesIdeal
  split <;> infer_instance

/-- The nonce occurs in a challenge or in what a holder signed. -/
def Event.uses (nonce : Nonce) : Event → Bool
  | challenged _ n => n = nonce
  | signed _ payload => nonceBytes payload = nonce.bytes
  | _ => false

/-- A nonce that is drawn has not occurred before. -/
def NoncesFresh (s : State) : Action → Prop
  | .hello _ _ _ nonce => ∀ e ∈ s.log, ¬ e.uses nonce
  | _ => True

instance (s : State) (a : Action) : Decidable (NoncesFresh s a) := by
  unfold NoncesFresh
  split <;> infer_instance

/-! ## What holds of a connection at each point -/

section

variable {crypto : Crypto} {gatewayId : String} {log : List Event} {conn : ℕ} {g : Greeting}
  {hostId : String}

theorem Proved.append (L : List Event) (h : Proved crypto gatewayId log conn g) :
    Proved crypto gatewayId (L ++ log) conn g := by
  obtain ⟨key, hkey, hlog⟩ := h
  exact ⟨key, hkey, hlog.trans (List.sublist_append_right L log)⟩

theorem Proved.verified_mem (h : Proved crypto gatewayId log conn g) :
    .verified conn g.peer.publicKey (g.payload gatewayId) ∈ log := by
  obtain ⟨key, -, hlog⟩ := h
  exact hlog.subset List.mem_cons_self

theorem Vouched.append (L : List Event) (h : Vouched gatewayId log conn g hostId) :
    Vouched gatewayId (L ++ log) conn g hostId := by
  have hsub := List.sublist_append_right L log
  cases h with
  | known config looked stored => exact .known config (looked.trans hsub) stored
  | enrolled before config wrote stored => exact .enrolled before config (wrote.trans hsub) stored
  | approved request fingerprintHex host before config id handed wrote stored =>
    exact .approved request fingerprintHex host before config id (handed.trans hsub)
      (wrote.trans hsub) stored

/-- The nonce was drawn, and had not occurred before. -/
def Fresh (log : List Event) (conn : ℕ) (nonce : Nonce) : Prop :=
  ∃ l l', log = l ++ .challenged conn nonce :: l' ∧ ∀ e ∈ l', ¬ e.uses nonce

/-- What holds of a connection that was challenged. -/
def Phase.Justified (crypto : Crypto) (gatewayId : String) (log : List Event) (conn : ℕ)
    (g : Greeting) : Phase → Prop
  | absent | closed => True
  | challenged => Fresh log conn g.nonce
  | verified | keyUnknown | hostLooked _ | enrolling .. | deferred _ | waiting .awaiting
    | waiting .dropped | abandoned => Proved crypto gatewayId log conn g
  | saving _ host config =>
    Proved crypto gatewayId log conn g ∧ KeyStored config host.id g.peer.publicKey
  | kicking _ host | authenticated host | running host | waiting (.answered host) =>
    Proved crypto gatewayId log conn g ∧ Vouched gatewayId log conn g host.id

theorem Phase.Justified.append (L : List Event) {p : Phase}
    (h : p.Justified crypto gatewayId log conn g) :
    p.Justified crypto gatewayId (L ++ log) conn g := by
  cases p with
  | absent | closed => trivial
  | challenged =>
    obtain ⟨l, l', rfl, hfresh⟩ := h
    exact ⟨L ++ l, l', by simp, hfresh⟩
  | verified | keyUnknown | hostLooked _ | enrolling _ _ | deferred _ | abandoned =>
    exact Proved.append L h
  | saving existing host config => exact ⟨Proved.append L h.1, h.2⟩
  | kicking _ host | authenticated host | running host =>
    exact ⟨h.1.append L, h.2.append L⟩
  | waiting channel =>
    cases channel with
    | awaiting | dropped => exact Proved.append L h
    | answered host => exact ⟨h.1.append L, h.2.append L⟩

/-- A signature of a fresh nonce was made after the challenge. -/
theorem Fresh.proved {key : List UInt8} (h : Fresh log conn g.nonce)
    (hkey : crypto.keyBytes g.peer.publicKey = some key)
    (hsigned : .signed key (g.payload gatewayId) ∈ log) :
    Proved crypto gatewayId (.verified conn g.peer.publicKey (g.payload gatewayId) :: log) conn
      g := by
  obtain ⟨l, l', rfl, hfresh⟩ := h
  refine ⟨key, hkey, List.Sublist.cons_cons _ ?_⟩
  have hbefore : .signed key (g.payload gatewayId) ∉ l' := by
    intro hmem
    refine hfresh _ hmem ?_
    simp [Event.uses, Greeting.payload, nonceBytes_buildChallengePayload]
  have hafter : .signed key (g.payload gatewayId) ∈ l := by
    rcases List.mem_append.1 hsigned with hl | hl
    · exact hl
    · rcases List.mem_cons.1 hl with heq | hl'
      · cases heq
      · exact absurd hl' hbefore
  exact (List.singleton_sublist.2 hafter).append (List.Sublist.cons_cons _ (List.nil_sublist l'))

theorem Proved.takeToken (h : Proved crypto gatewayId log conn g) (now : ℕ)
    (existing : Option HostEntry) (tokens : BootstrapRegistry) :
    (takeToken crypto.hashes now g existing tokens).1.Justified crypto gatewayId log conn g := by
  unfold Handshake.takeToken
  split
  · trivial
  · split
    · exact h
    · trivial
    · trivial
  · split
    · exact h
    · exact h
  · split_ifs
    · exact h
    · exact h

section

variable {shared shared' : Shared} {a : ConnAction} {p p' : Phase} {L : List Event}

/-- A connection that goes on keeps what it has proved, and adds what it does itself. -/
theorem justified_advance (hp : p.Justified crypto gatewayId log conn g)
    (hideal : ∀ sigB64, a = .respond sigB64 →
      crypto.verifySignature g.peer.publicKey sigB64 g.nonce g.peer.hostname gatewayId →
        ∀ key ∈ crypto.keyBytes g.peer.publicKey, .signed key (g.payload gatewayId) ∈ log)
    (h : advance crypto gatewayId conn g shared a p = some (p', shared', L)) :
    p'.Justified crypto gatewayId (L ++ log) conn g := by
  cases advances_of_advance h with
  | @verified sigB64 hverify =>
    obtain ⟨key, hkey⟩ :=
      Option.isSome_iff_exists.1 (Crypto.isSome_keyBytes_of_verifySignature hverify)
    exact Fresh.proved hp hkey (hideal sigB64 rfl hverify key hkey)
  | @keyKnown host hfind =>
    have hproved : Proved crypto gatewayId log conn g := hp
    have hkey : host.publicKey = some g.peer.publicKey := by simpa using List.find?_some hfind
    refine ⟨hproved.append _, .known (load shared.file) ?_ ?_⟩
    · exact List.Sublist.cons_cons _ (List.singleton_sublist.2 hproved.verified_mem)
    · exact ⟨host, List.mem_of_find?_eq_some hfind, rfl, hkey⟩
  | keyUnknown => exact Proved.append _ hp
  | hostLooked => exact hp
  | tookToken => exact Proved.takeToken hp _ _ _
  | planned hplan => exact ⟨hp, (keyStored_hostPlan hplan).1⟩
  | enrolled | replaced =>
    obtain ⟨hproved, hstored⟩ := hp
    refine ⟨hproved.append _, .enrolled shared.file _ ?_ hstored⟩
    exact List.Sublist.cons_cons _ (List.singleton_sublist.2 hproved.verified_mem)
  | kicked => exact hp
  | registered => exact ⟨hp.1.append _, hp.2.append _⟩
  | refused | notPlanned | notSaved | unregistered | disconnected => trivial

/-- A connection that goes on registers itself at most, and only once it is authenticated. -/
theorem registered_advance
    (h : advance crypto gatewayId conn g shared a p = some (p', shared', L))
    {l : List Event} {conn' : ℕ} (hl : .registered hostId conn' :: l <:+ L ++ log) :
    .registered hostId conn' :: l <:+ log ∨
      conn' = conn ∧ l = log ∧ ∃ host, p = .authenticated host ∧ host.id = hostId := by
  cases advances_of_advance h with
  | @registered host =>
    rcases List.suffix_cons_iff.1 hl with heq | hl
    · cases heq
      exact .inr ⟨rfl, rfl, host, rfl, rfl⟩
    · exact .inl hl
  | verified | keyKnown | keyUnknown | enrolled | replaced | notSaved =>
    rcases List.suffix_cons_iff.1 hl with heq | hl
    · cases heq
    · exact .inl hl
  | _ => exact .inl hl

end

end

/-! ## What holds of an approval at each point -/

/-- The entry of an approval has the fingerprint that was asked for. -/
def Job.Found (crypto : Crypto) (job : Job) : Prop :=
  (crypto.keyBytes job.entry.pubkeyB64).isSome ∧
    crypto.hashes.pubkeyFingerprintHex job.entry.pubkeyB64 = job.fingerprintHex

/-- The approval has written the key for the host. -/
def Written (log : List Event) (request : ℕ) (hostId pubkeyB64 : String) : Prop :=
  ∃ before config, .wrote (.request request) .done before (.json config) ∈ log ∧
    KeyStored config hostId pubkeyB64

def Approval.Justified (crypto : Crypto) (log : List Event) (request : ℕ) : Approval → Prop
  | idle | replied _ => True
  | found job | checked job _ => job.Found crypto
  | saving job _ host config => job.Found crypto ∧ KeyStored config host.id job.entry.pubkeyB64
  | naming job host | nameSaving job host _ | ready job host =>
    job.Found crypto ∧ Written log request host.id job.entry.pubkeyB64

section

variable {crypto : Crypto} {gatewayId : String} {log : List Event} {request : ℕ}
  {approval approval' : Approval} {file file' : HostsFile} {L : List Event}

theorem Written.append (L : List Event) {hostId pubkeyB64 : String}
    (h : Written log request hostId pubkeyB64) : Written (L ++ log) request hostId pubkeyB64 := by
  obtain ⟨before, config, hmem, hstored⟩ := h
  exact ⟨before, config, List.mem_append_right L hmem, hstored⟩

theorem Approval.Justified.append (L : List Event) (h : approval.Justified crypto log request) :
    approval.Justified crypto (L ++ log) request := by
  cases approval with
  | idle | replied reply => trivial
  | found job | checked job existing | saving job existing host config => exact h
  | naming job host | nameSaving job host config | ready job host => exact ⟨h.1, h.2.append L⟩

theorem justified_proceed {a : ApproveAction} (hp : approval.Justified crypto log request)
    (h : proceed request file a approval = some (approval', file', L)) :
    approval'.Justified crypto (L ++ log) request := by
  cases proceeds_of_proceed h with
  | looked | nameLoaded | nameKept => exact hp
  | planned hplan => exact ⟨hp, (keyStored_hostPlan hplan).1⟩
  | @saved job existing host config =>
    obtain ⟨hfound, hstored⟩ := hp
    have hwritten : Written (.wrote (.request request) .done file (.json config) :: log) request
        host.id job.entry.pubkeyB64 := ⟨file, config, List.mem_cons_self, hstored⟩
    split_ifs
    · exact ⟨hfound, hwritten⟩
    · exact ⟨hfound, hwritten⟩
  | named => exact ⟨hp.1, hp.2.append _⟩
  | notPlanned | notSaved => trivial

/-- An approval registers no connection. -/
theorem registered_proceed {a : ApproveAction} {hostId : String} {conn : ℕ}
    (h : proceed request file a approval = some (approval', file', L)) :
    .registered hostId conn ∉ L := by
  cases proceeds_of_proceed h <;> simp

/-- What stands before an event that is not among the latest ones. -/
theorem suffix_of_suffix_append {e : Event} {l : List Event} (he : e ∉ L)
    (h : e :: l <:+ L ++ log) : e :: l <:+ log := by
  induction L with
  | nil => exact h
  | cons ev L ih =>
    rw [List.mem_cons, not_or] at he
    rcases List.suffix_cons_iff.1 h with heq | hrest
    · exact absurd (List.cons.inj heq).1 he.1
    · exact ih he.2 hrest

end

/-! ## The invariant -/

structure Invariant (crypto : Crypto) (gatewayId : String) (s : State) : Prop where
  keyed : Keyed crypto s
  conns : ∀ conn g, s.greeting conn = some g →
    (s.phase conn).Justified crypto gatewayId s.log conn g
  approvals : ∀ request, (s.approval request).Justified crypto s.log request
  agreement : Agreement crypto gatewayId s

section

variable {crypto : Crypto} {gatewayId : String} {s t : State} {a : Action} {conn : ℕ}

theorem invariant_init (file : HostsFile) : Invariant crypto gatewayId (.init file) where
  keyed := keyed_init file
  conns _ _ h := by cases h
  approvals _ := trivial
  agreement _ _ _ h := by cases List.suffix_nil.1 h

/-- A step that keeps the greetings keeps the invariant when what it adds is justified. -/
theorem Invariant.of_moves (hs : Invariant crypto gatewayId s) (hkeyed : Keyed crypto t)
    (hgreeting : t.greeting = s.greeting) {L : List Event} (hlog : t.log = L ++ s.log)
    (hphase : ∀ c g, s.greeting c = some g → t.phase c = s.phase c ∨
      (t.phase c).Justified crypto gatewayId t.log c g)
    (happroval : ∀ r, t.approval r = s.approval r ∨ (t.approval r).Justified crypto t.log r)
    (hregistered : ∀ hostId c l, .registered hostId c :: l <:+ t.log →
      .registered hostId c :: l <:+ s.log ∨ ∃ g, s.greeting c = some g ∧
        Proved crypto gatewayId l c g ∧ Vouched gatewayId l c g hostId) :
    Invariant crypto gatewayId t := by
  refine ⟨hkeyed, fun c g hg => ?_, fun r => ?_, fun hostId c l hl => ?_⟩
  · rw [hgreeting] at hg
    rcases hphase c g hg with heq | hnew
    · rw [heq, hlog]
      exact (hs.conns c g hg).append L
    · exact hnew
  · rcases happroval r with heq | hnew
    · rw [heq, hlog]
      exact (hs.approvals r).append L
    · exact hnew
  · rw [hgreeting]
    rcases hregistered hostId c l hl with hold | hnew
    · exact hs.agreement hostId c l hold
    · exact hnew

/-- The phases after one connection has moved on and the sender of another one may be gone. -/
theorem Invariant.moved (hs : Invariant crypto gatewayId s) (e : Option PendingEntry) {p : Phase}
    (L : List Event)
    (hp : ∀ g, s.greeting conn = some g → p.Justified crypto gatewayId (L ++ s.log) conn g)
    (c : ℕ) (g : Greeting) (hg : s.greeting c = some g) :
    Function.update (hangUp e s.phase) conn p c = s.phase c ∨
      (Function.update (hangUp e s.phase) conn p c).Justified crypto gatewayId (L ++ s.log) c
        g := by
  by_cases h : c = conn
  · subst h
    rw [Function.update_self]
    exact .inr (hp g hg)
  · rw [Function.update_of_ne h]
    rcases hangUp_cases e s.phase c with heq | ⟨hwaiting, hdropped⟩
    · exact .inl heq
    · rw [hdropped]
      have hold := (hs.conns c g hg).append L
      rw [hwaiting] at hold
      exact .inr hold

/-- The approvals after one of them has moved on. -/
theorem approval_moved {request : ℕ} {q : Approval} {log : List Event}
    (hq : q.Justified crypto log request) (r : ℕ) :
    Function.update s.approval request q r = s.approval r ∨
      (Function.update s.approval request q r).Justified crypto log r := by
  by_cases h : r = request
  · subst h
    rw [Function.update_self]
    exact .inr hq
  · exact .inl (Function.update_of_ne h ..)

theorem invariant_greet {h : Hello} {remoteIp : String} {nonce : Nonce}
    (hs : Invariant crypto gatewayId s) (habsent : s.phase conn = .absent)
    (hfresh : ∀ e ∈ s.log, ¬ e.uses nonce) :
    Invariant crypto gatewayId (greet conn h remoteIp nonce s) := by
  have hkeyed : Keyed crypto (greet conn h remoteIp nonce s) := keyed_greet hs.keyed habsent
  rcases greet_cases h remoteIp nonce s with hclosed | ⟨g, rfl, hchallenged⟩
  · rw [hclosed] at hkeyed ⊢
    refine hs.of_moves hkeyed rfl (L := []) rfl ?_ (fun _ => .inl rfl) fun _ _ _ hl => .inl hl
    exact hs.moved none [] fun _ _ => trivial
  · rw [hchallenged] at hkeyed ⊢
    refine ⟨hkeyed, fun c g' hg' => ?_, fun r => (hs.approvals r).append [_],
      fun hostId c l hl => ?_⟩
    · dsimp only at hg' ⊢
      by_cases heq : c = conn
      · subst heq
        rw [Function.update_self] at hg' ⊢
        cases hg'
        exact ⟨[], s.log, rfl, hfresh⟩
      · rw [Function.update_of_ne heq] at hg' ⊢
        exact (hs.conns c g' hg').append [_]
    · obtain ⟨g', hg', hauthorized⟩ :=
        hs.agreement hostId c l (suffix_of_suffix_append (L := [_]) (by simp) hl)
      have hne : c ≠ conn := by
        rintro rfl
        rw [hs.keyed.absent c habsent] at hg'
        cases hg'
      exact ⟨g', (Function.update_of_ne hne ..).trans hg', hauthorized⟩

theorem invariant_enterPending {g : Greeting} (hs : Invariant crypto gatewayId s)
    (hg : s.greeting conn = some g) {reason : String} (hphase : s.phase conn = .deferred reason) :
    Invariant crypto gatewayId (enterPending crypto.hashes conn g.peer s) := by
  have hproved : Proved crypto gatewayId s.log conn g := by
    have hold := hs.conns conn g hg
    rwa [hphase] at hold
  have hkeyed := keyed_enterPending hs.keyed hg (by rw [hphase]; rfl)
  unfold enterPending at hkeyed ⊢
  split at hkeyed
  · refine hs.of_moves hkeyed rfl (L := [_]) rfl ?_ (fun _ => .inl rfl) fun hostId c l hl =>
      .inl (suffix_of_suffix_append (L := [_]) (by simp) hl)
    refine hs.moved _ [_] fun g' hg' => ?_
    cases hg.symm.trans hg'
    exact hproved.append [_]
  · refine hs.of_moves hkeyed rfl (L := []) rfl ?_ (fun _ => .inl rfl) fun _ _ _ hl => .inl hl
    exact hs.moved none [] fun _ _ => trivial

/-- The answer goes to a connection that has shown the key of the entry that was approved. -/
theorem invariant_hand (sound : crypto.Sound) {request : ℕ} {job : Job} {host : HostEntry}
    (hs : Invariant crypto gatewayId s) (hready : s.approval request = .ready job host) :
    Invariant crypto gatewayId (hand request job host s) := by
  have hkeyed : Keyed crypto (hand request job host s) := keyed_hand hs.keyed
  obtain ⟨⟨hbytes, hprint⟩, before, config, hwrote, hstored⟩ :
      job.Found crypto ∧ Written s.log request host.id job.entry.pubkeyB64 := by
    have hold := hs.approvals request
    rwa [hready] at hold
  have hquiet (pending : PendingRegistry) (reply : ApproveReply) (hkeyed : Keyed crypto
      { s with
        pending
        approval := Function.update s.approval request (.replied reply)
        log := .replied request reply :: ([] ++ s.log) }) :
      Invariant crypto gatewayId
        { s with
          pending
          approval := Function.update s.approval request (.replied reply)
          log := .replied request reply :: ([] ++ s.log) } := by
    exact hs.of_moves hkeyed rfl (L := [_]) rfl (fun _ _ _ => .inl rfl) (approval_moved trivial)
      fun hostId c l hl => .inl (suffix_of_suffix_append (L := [_]) (by simp) hl)
  unfold hand at hkeyed ⊢
  rcases approve_cases hs.keyed job.fingerprintHex with ⟨happrove, -⟩ | ⟨e, happrove, hlookup, he⟩
  · rw [happrove] at hkeyed ⊢
    exact hquiet _ _ hkeyed
  · rw [happrove] at hkeyed ⊢
    dsimp only at hkeyed ⊢
    split_ifs at hkeyed ⊢ with hwaiting
    · refine hs.of_moves hkeyed rfl (L := [_, _]) rfl ?_ (approval_moved trivial)
        fun hostId c l hl => .inl (suffix_of_suffix_append (L := [_, _]) (by simp) hl)
      · refine hs.moved none [_, _] fun g hg => ?_
        obtain ⟨-, heprint, hebytes, g', hg', hpeer⟩ := hs.keyed.pending _ e hlookup
        cases hg.symm.trans hg'
        have hsame : job.entry.pubkeyB64 = g.peer.publicKey := by
          rw [hpeer]
          exact Crypto.fingerprint_inj sound hbytes hebytes (by rw [hprint, ← he, heprint])
        have hproved : Proved crypto gatewayId s.log e.approveTx g := by
          have hold := hs.conns e.approveTx g hg
          rwa [hwaiting] at hold
        refine ⟨hproved.append [_, _], ?_⟩
        refine Vouched.append [_] (.approved request job.fingerprintHex host before config rfl
          ?_ ?_ (hsame ▸ hstored))
        · exact List.Sublist.cons_cons _ (List.singleton_sublist.2 hproved.verified_mem)
        · exact List.Sublist.cons_cons _ (List.singleton_sublist.2 hwrote)
    · exact hquiet _ _ hkeyed

theorem invariant_step (sound : crypto.Sound) (hs : Invariant crypto gatewayId s)
    (hideal : SignaturesIdeal crypto gatewayId s a) (hfresh : NoncesFresh s a)
    (h : step crypto gatewayId s a = some t) : Invariant crypto gatewayId t := by
  have hkeyed := keyed_step hs.keyed h
  cases steps_of_step h with
  | hello habsent => exact invariant_greet hs habsent hfresh
  | @conn conn a g p shared L hg hadvance =>
    refine hs.of_moves hkeyed rfl rfl ?_ (fun _ => .inl rfl) fun hostId c l hl => ?_
    · refine hs.moved none L fun g' hg' => ?_
      refine justified_advance (hs.conns conn g' hg') (fun sigB64 ha => ?_)
        (by cases hg.symm.trans hg'; exact hadvance)
      subst ha
      exact hideal g' hg'
    · rcases registered_advance hadvance hl with hold | ⟨rfl, rfl, host, hphase, rfl⟩
      · exact .inl hold
      · have hjustified := hs.conns c g hg
        rw [hphase] at hjustified
        exact .inr ⟨g, hg, hjustified⟩
  | enterPending hphase hg => exact invariant_enterPending hs hg hphase
  | @pickUp conn host hphase =>
    refine hs.of_moves hkeyed rfl (L := [_]) rfl ?_ (fun _ => .inl rfl) fun hostId c l hl =>
      .inl (suffix_of_suffix_append (L := [_]) (by simp) hl)
    refine hs.moved none [_] fun g hg => ?_
    have hold := (hs.conns conn g hg).append [.received conn host]
    rw [hphase] at hold
    exact hold
  | @giveUp conn channel hphase =>
    refine hs.of_moves hkeyed rfl (L := []) rfl ?_ (fun _ => .inl rfl) fun _ _ _ hl => .inl hl
    refine hs.moved none [] fun g hg => ?_
    have hold := hs.conns conn g hg
    rw [hphase] at hold
    cases channel with
    | awaiting | dropped => exact hold
    | answered host => exact hold.1
  | leavePending =>
    refine hs.of_moves hkeyed rfl (L := []) rfl ?_ (fun _ => .inl rfl) fun _ _ _ hl => .inl hl
    exact hs.moved _ [] fun _ _ => trivial
  | @approveFound request fingerprintHex displayName e hidle hfind =>
    refine hs.of_moves hkeyed rfl (L := [_]) rfl (fun _ _ _ => .inl rfl) (approval_moved ?_)
      fun hostId c l hl => .inl (suffix_of_suffix_append (L := [_]) (by simp) hl)
    obtain ⟨⟨key, hkey⟩, hprint⟩ := PendingRegistry.of_entryForFingerprint hfind
    obtain ⟨rfl, heprint, hebytes, -⟩ := hs.keyed.pending key e hkey
    exact ⟨hebytes, heprint.symm.trans hprint⟩
  | approveNotFound =>
    exact hs.of_moves hkeyed rfl (L := [_]) rfl (fun _ _ _ => .inl rfl) (approval_moved trivial)
      fun hostId c l hl => .inl (suffix_of_suffix_append (L := [_]) (by simp) hl)
  | @approve request a q file L hproceed =>
    exact hs.of_moves hkeyed rfl rfl (fun _ _ _ => .inl rfl)
      (approval_moved (justified_proceed (hs.approvals request) hproceed)) fun hostId c l hl =>
      .inl (suffix_of_suffix_append (registered_proceed hproceed) hl)
  | approveHand hready => exact invariant_hand sound hs hready
  | sign =>
    exact hs.of_moves hkeyed rfl (L := [_]) rfl (fun _ _ _ => .inl rfl) (fun _ => .inl rfl)
      fun hostId c l hl => .inl (suffix_of_suffix_append (L := [_]) (by simp) hl)
  | others =>
    exact hs.of_moves hkeyed rfl (L := []) rfl (fun _ _ _ => .inl rfl) (fun _ => .inl rfl)
      fun hostId c l hl => .inl hl

end

/-- With ideal signatures and fresh nonces, in every run each registration of a connection for a
host follows the verification, on that connection, of a signature of its own challenge under a key
that is stored, enrolled or approved for the host. -/
theorem agreement_of_run (crypto : Crypto) (sound : crypto.Sound) (gatewayId : String)
    (file : HostsFile) (as : List Action) (t : State)
    (hr : run (step crypto gatewayId) (.init file) as = some t)
    (hideal : Meets (step crypto gatewayId) (SignaturesIdeal crypto gatewayId) (.init file) as)
    (hfresh : Meets (step crypto gatewayId) NoncesFresh (.init file) as) :
    Agreement crypto gatewayId t := by
  have hboth := meets_and hideal hfresh
  exact (invariant_of_meets (fun s a t hs hC h => invariant_step sound hs hC.1 hC.2 h)
    (invariant_init file) hr hboth).agreement

/-- The agent of a new host answers its challenge and waits; an administrator approves it. -/
def webEnrols : List Action :=
  [.hello 0 ⟨2, "web", false, some webKeyB64, none, none⟩ "203.0.113.7" webNonce,
    .sign webKey (buildChallengePayload webNonce "web" "gw"),
    .conn 0 (.respond webSignatureB64), .conn 0 .lookKey, .conn 0 .lookHost, .conn 0 (.takeToken 0),
    .enterPending 0,
    .approveStart 0 webFingerprintHex none, .approve 0 .find, .approve 0 (.load ⟨"h1", "t0"⟩),
    .approve 0 (.save .done), .approveHand 0, .pickUp 0, .conn 0 .register]

theorem agreement_webEnrols : ∃ t, run (step webCrypto "gw") (.init .absent) webEnrols = some t ∧
    .registered "h1" 0 ∈ t.log ∧ Agreement webCrypto "gw" t :=
  ⟨_, rfl, by decide, agreement_of_run webCrypto webCrypto_sound "gw" .absent webEnrols _ rfl
    (by decide) (by decide)⟩

end Tenodera.Gateway.Handshake
