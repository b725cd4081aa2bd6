import Tenodera.Gateway.AgentAuth
import Tenodera.Lib.Run

/-!
# The budget of a bootstrap token

The registry of bootstrap tokens under any order of its operations, at any times: how often a value
is accepted, until when, and for whom.  `accepted_of_run` is the law; the invariant `Sound` ties
every token that is still there to its issue and to the number of times it was accepted.
-/

namespace Tenodera.Gateway.Tokens

open Transition

/-! ## The system -/

/-- What a token was issued as. -/
structure Issue where
  id : String
  value : String
  singleUse : Bool
  maxUses : Option UInt32
  expiresAt : ℕ
  boundHostname : Option String
  reEnroll : Bool
  deriving DecidableEq, Repr

inductive Event
  | created (issue : Issue)
  | accepted (value hostname : String) (now : ℕ)
  | revoked (id : String)
  deriving DecidableEq, Repr

def Event.issue? : Event → Option Issue
  | created issue => some issue
  | _ => none

/-- The registry.  `log` is not part of the gateway: the events so far, latest first. -/
structure State where
  tokens : BootstrapRegistry
  log : List Event

def State.init : State := ⟨∅, []⟩

def issues (log : List Event) : List Issue := log.filterMap Event.issue?

def acceptances (log : List Event) (value : String) : ℕ :=
  log.countP fun e => match e with
    | .accepted value' _ _ => value' = value
    | _ => false

/-- The token was revoked once it had been issued. -/
def Revoked (log : List Event) (issue : Issue) : Prop :=
  ∃ later earlier, log = later ++ .revoked issue.id :: earlier ∧ issue ∈ issues earlier

inductive Action
  | create (now ttl : ℕ) (id value : String) (singleUse : Bool) (maxUses : Option UInt32)
      (boundHostname : Option String) (reEnroll : Bool)
  | validate (now : ℕ) (value hostname : String)
  | revoke (id : String)
  | cleanup (now : ℕ)
  deriving DecidableEq, Repr

variable (hashes : Hashes)

/-- One operation on the registry.  The id and the value that `create` draws at random have not been
drawn before. -/
def step (s : State) : Action → Option State
  | .create now ttl id value singleUse maxUses boundHostname reEnroll =>
    if ∀ issue ∈ issues s.log, issue.id ≠ id ∧ issue.value ≠ value then
      some
        { tokens :=
            s.tokens.create hashes now ttl id value singleUse maxUses boundHostname reEnroll
          log := .created ⟨id, value, singleUse, maxUses, now + ttl, boundHostname, reEnroll⟩ ::
            s.log }
    else none
  | .validate now value hostname =>
    match s.tokens.validateAndConsume hashes now value hostname with
    | (some _, tokens) => some ⟨tokens, .accepted value hostname now :: s.log⟩
    | (none, tokens) => some { s with tokens }
  | .revoke id => some ⟨s.tokens.revoke id, .revoked id :: s.log⟩
  | .cleanup now => some { s with tokens := s.tokens.cleanup now }

/-! ## The law -/

/-- What the acceptances in a log may be. -/
structure Lawful (log : List Event) (issue : Issue) : Prop where
  once : issue.singleUse → acceptances log issue.value ≤ 1
  bounded : ∀ max ∈ issue.maxUses, acceptances log issue.value ≤ max.toNat
  /-- Not after the expiry, and only for the bound hostname. -/
  valid : ∀ hostname now, .accepted issue.value hostname now ∈ log →
    now ≤ issue.expiresAt ∧ ∀ bound ∈ issue.boundHostname, hostname = bound
  unrevoked : ∀ later earlier hostname now,
    log = later ++ .accepted issue.value hostname now :: earlier → ¬ Revoked earlier issue

/-- The operation is one on the token itself: its value is accepted, or it is revoked, or cleaned up
after its expiry. -/
def Touches (s : State) (issue : Issue) : Action → Prop
  | .create .. => False
  | .validate now value hostname =>
    value = issue.value ∧ (s.tokens.validateAndConsume hashes now value hostname).1.isSome
  | .revoke id => id = issue.id
  | .cleanup now => issue.expiresAt < now

/-! ## The invariant -/

/-- The token as it is after a number of acceptances. -/
def Issue.token (issue : Issue) (uses : ℕ) : BootstrapToken where
  id := issue.id
  valueDigest := hashes.tokenDigest issue.value
  singleUse := issue.singleUse
  useCount := UInt32.ofNat uses
  maxUses := issue.maxUses
  expiresAt := issue.expiresAt
  boundHostname := issue.boundHostname
  reEnroll := issue.reEnroll

structure Sound (s : State) : Prop where
  distinct : ∀ issue ∈ issues s.log, ∀ issue' ∈ issues s.log,
    issue.id = issue'.id ∨ issue.value = issue'.value → issue = issue'
  issued : ∀ id token, s.tokens.lookup id = some token → ∃ issue ∈ issues s.log,
    issue.id = id ∧ token = issue.token hashes (acceptances s.log issue.value)
  known : ∀ value hostname now, .accepted value hostname now ∈ s.log →
    ∃ issue ∈ issues s.log, issue.value = value
  revoked : ∀ issue, Revoked s.log issue → s.tokens.lookup issue.id = none
  lawful : ∀ issue ∈ issues s.log, Lawful s.log issue

section

variable {hashes : Hashes} {now : ℕ} {value hostname : String} {tokens : BootstrapRegistry}
  {s t : State} {issue : Issue} {log : List Event} {e : Event}

/-- A validation is refused and changes nothing, or it is accepted for a valid token with that
value, whose count goes up or which is gone after it. -/
theorem validateAndConsume_cases (hashes : Hashes) (now : ℕ) (value hostname : String)
    (hid : ∀ key token, tokens.lookup key = some token → token.id = key) :
    tokens.validateAndConsume hashes now value hostname = (none, tokens) ∨
    ∃ key token tokens', tokens.lookup key = some token ∧
      token.valueDigest = hashes.tokenDigest value ∧ token.isValidFor hostname now ∧
      tokens.validateAndConsume hashes now value hostname = (some token.reEnroll, tokens') ∧
      (∀ id, id ≠ key → tokens'.lookup id = tokens.lookup id) ∧
      ∀ token', tokens'.lookup key = some token' →
        token' = { token with useCount := token.useCount + 1 } := by
  unfold BootstrapRegistry.validateAndConsume
  dsimp only
  cases hfind : tokens.entries.find? fun t => t.2.valueDigest = hashes.tokenDigest value with
  | none => exact Or.inl rfl
  | some entry =>
    obtain ⟨key, token⟩ := entry
    have hget : tokens.lookup key = some token :=
      AList.mem_lookup_iff.2 (List.mem_of_find?_eq_some hfind)
    have hdigest : token.valueDigest = hashes.tokenDigest value := by
      simpa using List.find?_some hfind
    dsimp only
    by_cases hvalid : token.isValidFor hostname now
    swap
    · exact Or.inl (if_pos hvalid)
    rw [if_neg (not_not_intro hvalid)]
    split_ifs
    all_goals refine Or.inr ⟨key, token, _, hget, hdigest, hvalid, rfl, fun id hne => ?_, ?_⟩
    · rw [hid key token hget, AList.lookup_erase_ne hne, AList.lookup_insert_ne hne]
    · intro token' htoken'
      rw [hid key token hget, AList.lookup_erase] at htoken'
      cases htoken'
    · exact AList.lookup_insert_ne hne
    · intro token' htoken'
      rw [AList.lookup_insert] at htoken'
      exact (Option.some.inj htoken').symm

/-! ## The log -/

@[simp]
theorem mem_issues : issue ∈ issues log ↔ .created issue ∈ log := by
  unfold issues
  rw [List.mem_filterMap]
  constructor
  · rintro ⟨e, he, h⟩
    cases e with
    | created issue' =>
      cases h
      exact he
    | _ => cases h
  · intro h
    exact ⟨_, h, rfl⟩

theorem acceptances_cons_of_ne (h : ∀ hostname now, e ≠ .accepted value hostname now) :
    acceptances (e :: log) value = acceptances log value := by
  apply List.countP_cons_of_neg
  cases e with
  | accepted value' hostname now => simpa using fun hv : value' = value => h hostname now (hv ▸ rfl)
  | _ => exact Bool.false_ne_true

theorem acceptances_cons_self :
    acceptances (.accepted value hostname now :: log) value = acceptances log value + 1 := by
  apply List.countP_cons_of_pos
  exact decide_eq_true rfl

/-- A list that ends in a marked place is the head and the rest, or it goes on before the mark. -/
theorem revoked_cons_iff : Revoked (e :: log) issue ↔
    (e = .revoked issue.id ∧ issue ∈ issues log) ∨ Revoked log issue := by
  constructor
  · rintro ⟨later, earlier, h, hmem⟩
    cases later with
    | nil =>
      obtain ⟨rfl, rfl⟩ := List.cons.inj h
      exact Or.inl ⟨rfl, hmem⟩
    | cons e' later =>
      obtain ⟨-, rfl⟩ := List.cons.inj h
      exact Or.inr ⟨later, earlier, rfl, hmem⟩
  · rintro (⟨rfl, hmem⟩ | ⟨later, earlier, rfl, hmem⟩)
    · exact ⟨[], log, rfl, hmem⟩
    · exact ⟨e :: later, earlier, rfl, hmem⟩

theorem mem_issues_of_revoked (h : Revoked log issue) : issue ∈ issues log := by
  obtain ⟨later, earlier, rfl, hmem⟩ := h
  rw [mem_issues] at hmem ⊢
  exact List.mem_append_right _ (List.mem_cons_of_mem _ hmem)

/-- An event that accepts nothing for the value keeps the law. -/
theorem Lawful.cons (h : Lawful log issue) (he : ∀ hostname now,
    e ≠ .accepted issue.value hostname now) : Lawful (e :: log) issue := by
  have hcount : acceptances (e :: log) issue.value = acceptances log issue.value :=
    acceptances_cons_of_ne he
  refine ⟨fun hs => ?_, fun max hmax => ?_, fun hostname now hmem => ?_,
    fun later earlier hostname now hlog => ?_⟩
  · rw [hcount]
    exact h.once hs
  · rw [hcount]
    exact h.bounded max hmax
  · rcases List.mem_cons.1 hmem with heq | hmem
    · exact absurd heq.symm (he hostname now)
    · exact h.valid hostname now hmem
  · cases later with
    | nil => exact absurd (List.cons.inj hlog).1 (he hostname now)
    | cons e' later => exact h.unrevoked later earlier hostname now (List.cons.inj hlog).2

/-- An acceptance keeps the law when there was budget left for it. -/
theorem Lawful.accept (h : Lawful log issue) (hrevoked : ¬ Revoked log issue)
    (hnow : now ≤ issue.expiresAt) (hbound : ∀ bound ∈ issue.boundHostname, hostname = bound)
    (honce : issue.singleUse → acceptances log issue.value = 0)
    (hmax : ∀ max ∈ issue.maxUses, acceptances log issue.value < max.toNat) :
    Lawful (.accepted issue.value hostname now :: log) issue := by
  refine ⟨fun hs => ?_, fun max hm => ?_, fun hostname' now' hmem => ?_,
    fun later earlier hostname' now' hlog => ?_⟩
  · rw [acceptances_cons_self, honce hs]
  · rw [acceptances_cons_self]
    have hlt := hmax max hm
    omega
  · rcases List.mem_cons.1 hmem with heq | hmem
    · cases heq
      exact ⟨hnow, hbound⟩
    · exact h.valid hostname' now' hmem
  · cases later with
    | nil =>
      obtain ⟨-, rfl⟩ := List.cons.inj hlog
      exact hrevoked
    | cons e' later => exact h.unrevoked later earlier hostname' now' (List.cons.inj hlog).2

theorem acceptances_eq_zero (h : ∀ hostname now, .accepted value hostname now ∉ log) :
    acceptances log value = 0 := by
  apply List.countP_eq_zero.2
  intro e he
  cases e with
  | accepted value' hostname now =>
    simpa using fun hv : value' = value => h hostname now (hv ▸ he)
  | _ => exact Bool.false_ne_true

theorem lawful_of_unaccepted (h : ∀ hostname now, .accepted issue.value hostname now ∉ log) :
    Lawful log issue := by
  have hcount := acceptances_eq_zero h
  refine ⟨fun _ => ?_, fun max _ => ?_, fun hostname now hmem => ?_,
    fun later earlier hostname now hlog => ?_⟩
  · omega
  · omega
  · exact absurd hmem (h hostname now)
  · exact absurd (hlog ▸ List.mem_append_right _ List.mem_cons_self) (h hostname now)

/-! ## What the operations do -/

theorem lookup_cleanup_eq_some_iff {id : String} {token : BootstrapToken} :
    (tokens.cleanup now).lookup id = some token ↔
      tokens.lookup id = some token ∧ token.isExpired now = false := by
  have hiff (l : BootstrapRegistry) : l.lookup id = some token ↔ ⟨id, token⟩ ∈ l.entries :=
    AList.mem_lookup_iff
  rw [hiff, hiff]
  simp [BootstrapRegistry.cleanup]

theorem Sound.id_eq (h : Sound hashes s) {key : String} {token : BootstrapToken}
    (hget : s.tokens.lookup key = some token) : token.id = key := by
  obtain ⟨issue, -, hid, rfl⟩ := h.issued key token hget
  exact hid

/-- The outcomes of a validation: it is refused and nothing changes, or it is one of a token in the
registry, with its value and still valid. -/
theorem Sound.validate_cases (h : Sound hashes s) (hinj : Function.Injective hashes.tokenDigest)
    (ht : step hashes s (.validate now value hostname) = some t) :
    ((s.tokens.validateAndConsume hashes now value hostname).1 = none ∧ t = s) ∨
    ∃ issue ∈ issues s.log, issue.value = value ∧
      (s.tokens.validateAndConsume hashes now value hostname).1.isSome ∧
      s.tokens.lookup issue.id =
        some (issue.token hashes (acceptances s.log issue.value)) ∧
      (issue.token hashes (acceptances s.log issue.value)).isValidFor hostname now ∧
      t.log = .accepted value hostname now :: s.log ∧
      (∀ id, id ≠ issue.id → t.tokens.lookup id = s.tokens.lookup id) ∧
      ∀ token, t.tokens.lookup issue.id = some token →
        token = issue.token hashes (acceptances s.log issue.value + 1) := by
  rcases validateAndConsume_cases hashes now value hostname fun key token => h.id_eq with
    hrefused | ⟨key, token, tokens', hget, hdigest, hvalid, haccepted, hother, hself⟩
  · left
    simp only [step, hrefused] at ht ⊢
    exact ⟨trivial, (Option.some.inj ht).symm⟩
  · right
    simp only [step, haccepted] at ht ⊢
    obtain rfl := Option.some.inj ht
    obtain ⟨issue, hissue, rfl, rfl⟩ := h.issued key token hget
    refine ⟨issue, hissue, hinj hdigest, rfl, hget, hvalid, rfl, hother, fun token' htoken' => ?_⟩
    rw [hself token' htoken']
    simp only [Issue.token, UInt32.ofNat_add]
    rfl

theorem Issue.valid {uses : ℕ} (h : (issue.token hashes uses).isValidFor hostname now) :
    now ≤ issue.expiresAt ∧ ∀ bound ∈ issue.boundHostname, hostname = bound := by
  simp only [BootstrapToken.isValidFor, BootstrapToken.isExpired, Issue.token, Bool.and_eq_true,
    Bool.not_eq_true', Bool.or_eq_false_iff] at h
  obtain ⟨⟨hexpired, -⟩, hall⟩ := h
  refine ⟨not_lt.1 (of_decide_eq_false hexpired), fun bound hbound => ?_⟩
  rw [Option.mem_def.1 hbound] at hall
  exact (of_decide_eq_true hall).symm

/-- The counter of a token has 32 bits; within its limits it does not wrap around. -/
theorem Issue.unused
    (h : (issue.token hashes (acceptances log issue.value)).isValidFor hostname now)
    (hs : issue.singleUse) (hlawful : Lawful log issue) : acceptances log issue.value = 0 := by
  have hle : acceptances log issue.value ≤ 1 := hlawful.once hs
  by_contra hne
  have hone : acceptances log issue.value = 1 := by omega
  simp [BootstrapToken.isValidFor, BootstrapToken.isExhausted, Issue.token, hs, hone] at h

theorem Issue.lt_maxUses
    (h : (issue.token hashes (acceptances log issue.value)).isValidFor hostname now) {max : UInt32}
    (hmax : max ∈ issue.maxUses) (hlawful : Lawful log issue) :
    acceptances log issue.value < max.toNat := by
  have hle : acceptances log issue.value ≤ max.toNat := hlawful.bounded max hmax
  have hsize : max.toNat < 2 ^ 32 := max.toNat_lt
  simp only [BootstrapToken.isValidFor, BootstrapToken.isExhausted, Issue.token,
    Option.mem_def.1 hmax, Option.any_some, Bool.and_eq_true, Bool.not_eq_true',
    Bool.or_eq_false_iff, decide_eq_false_iff_not, ge_iff_le, UInt32.not_le,
    UInt32.lt_iff_toNat_lt, UInt32.toNat_ofNat'] at h
  omega

end

/-! ## The steps -/

section

variable {hashes : Hashes} {s t : State}

theorem Sound.create (h : Sound hashes s) {now ttl : ℕ} {id value : String} {singleUse : Bool}
    {maxUses : Option UInt32} {boundHostname : Option String} {reEnroll : Bool}
    (ht : step hashes s (.create now ttl id value singleUse maxUses boundHostname reEnroll) =
      some t) : Sound hashes t := by
  simp only [step] at ht
  split_ifs at ht with hfresh
  obtain rfl := Option.some.inj ht
  set new : Issue := ⟨id, value, singleUse, maxUses, now + ttl, boundHostname, reEnroll⟩
  have hmem {issue : Issue} : issue ∈ issues (.created new :: s.log) ↔
      issue = new ∨ issue ∈ issues s.log := by
    simp
  have hcount (value' : String) :
      acceptances (.created new :: s.log) value' = acceptances s.log value' :=
    acceptances_cons_of_ne nofun
  have hunaccepted (hostname : String) (now' : ℕ) :
      .accepted new.value hostname now' ∉ s.log := by
    intro haccepted
    obtain ⟨issue, hissue, hvalue⟩ := h.known _ _ _ haccepted
    exact (hfresh issue hissue).2 hvalue
  refine ⟨fun issue hissue issue' hissue' hsame => ?_, fun key token hget => ?_,
    fun value' hostname now' haccepted => ?_, fun issue hrevoked => ?_, fun issue hissue => ?_⟩
  · rcases hmem.1 hissue with rfl | hissue
    · rcases hmem.1 hissue' with rfl | hissue'
      · rfl
      · have hne := hfresh issue' hissue'
        exact absurd hsame (not_or.2 ⟨hne.1.symm, hne.2.symm⟩)
    · rcases hmem.1 hissue' with rfl | hissue'
      · exact absurd hsame (not_or.2 (hfresh issue hissue))
      · exact h.distinct issue hissue issue' hissue' hsame
  · by_cases hkey : key = id
    · subst hkey
      refine ⟨new, hmem.2 (Or.inl rfl), rfl, ?_⟩
      rw [hcount, acceptances_eq_zero hunaccepted]
      exact (Option.some.inj ((AList.lookup_insert _).symm.trans hget)).symm
    · obtain ⟨issue, hissue, hid, htoken⟩ :=
        h.issued key token ((AList.lookup_insert_ne hkey).symm.trans hget)
      rw [← hcount] at htoken
      exact ⟨issue, hmem.2 (Or.inr hissue), hid, htoken⟩
  · obtain ⟨issue, hissue, hvalue⟩ := h.known value' hostname now' (by simpa using haccepted)
    exact ⟨issue, hmem.2 (Or.inr hissue), hvalue⟩
  · have hrevoked : Revoked s.log issue := by
      rcases revoked_cons_iff.1 hrevoked with ⟨heq, -⟩ | hrevoked
      · cases heq
      · exact hrevoked
    have hne : issue.id ≠ id := (hfresh issue (mem_issues_of_revoked hrevoked)).1
    exact (AList.lookup_insert_ne hne).trans (h.revoked issue hrevoked)
  · rcases hmem.1 hissue with rfl | hissue
    · exact lawful_of_unaccepted (by simpa using hunaccepted)
    · exact (h.lawful issue hissue).cons nofun

theorem Sound.accept (h : Sound hashes s) (hinj : Function.Injective hashes.tokenDigest) {now : ℕ}
    {value hostname : String} (ht : step hashes s (.validate now value hostname) = some t) :
    Sound hashes t := by
  rcases h.validate_cases hinj ht with
    ⟨-, rfl⟩ | ⟨issue, hissue, rfl, -, hget, hvalid, hlog, hother, hself⟩
  · exact h
  have hissues : issues t.log = issues s.log := by
    rw [hlog]
    rfl
  have hrevoked (issue' : Issue) : Revoked t.log issue' ↔ Revoked s.log issue' := by
    rw [hlog, revoked_cons_iff]
    simp
  have hcount {value' : String} (hne : value' ≠ issue.value) :
      acceptances t.log value' = acceptances s.log value' := by
    rw [hlog]
    exact acceptances_cons_of_ne fun hostname' now' heq => by cases heq; exact hne rfl
  refine ⟨?_, fun key token hkey => ?_, fun value' hostname' now' haccepted => ?_,
    fun issue' hrevoked' => ?_, fun issue' hissue' => ?_⟩
  · rw [hissues]
    exact h.distinct
  · rw [hissues]
    by_cases heq : key = issue.id
    · subst heq
      refine ⟨issue, hissue, rfl, ?_⟩
      rw [hself token hkey, hlog, acceptances_cons_self]
    · rw [hother key heq] at hkey
      obtain ⟨issue', hissue', hid, htoken⟩ := h.issued key token hkey
      have hne : issue'.value ≠ issue.value := fun hvalue =>
        heq (hid ▸ congrArg Issue.id (h.distinct issue' hissue' issue hissue (Or.inr hvalue)))
      exact ⟨issue', hissue', hid, by rw [htoken, hcount hne]⟩
  · rw [hissues]
    rw [hlog] at haccepted
    rcases List.mem_cons.1 haccepted with heq | haccepted
    · cases heq
      exact ⟨issue, hissue, rfl⟩
    · exact h.known value' hostname' now' haccepted
  · rw [hrevoked] at hrevoked'
    have hnone := h.revoked issue' hrevoked'
    have hne : issue'.id ≠ issue.id := by
      intro hid
      rw [hid, hget] at hnone
      cases hnone
    rw [hother issue'.id hne, hnone]
  · rw [hissues] at hissue'
    rw [hlog]
    by_cases heq : issue' = issue
    · subst heq
      refine (h.lawful issue' hissue').accept (fun hrevoked' => ?_) (Issue.valid hvalid).1
        (Issue.valid hvalid).2 ?_ ?_
      · rw [h.revoked issue' hrevoked'] at hget
        cases hget
      · exact fun hs => Issue.unused hvalid hs (h.lawful issue' hissue')
      · exact fun max hmax => Issue.lt_maxUses hvalid hmax (h.lawful issue' hissue')
    · refine (h.lawful issue' hissue').cons fun hostname' now' hevent => heq ?_
      obtain ⟨hvalue, -⟩ := Event.accepted.inj hevent
      exact h.distinct issue' hissue' issue hissue (Or.inr hvalue.symm)

theorem Sound.revoke (h : Sound hashes s) (id : String) :
    Sound hashes ⟨s.tokens.revoke id, .revoked id :: s.log⟩ := by
  have hcount (value : String) :
      acceptances (.revoked id :: s.log) value = acceptances s.log value :=
    acceptances_cons_of_ne nofun
  have hlookup {key : String} (hne : key ≠ id) :
      (s.tokens.revoke id).lookup key = s.tokens.lookup key := AList.lookup_erase_ne hne
  refine ⟨h.distinct, fun key token hkey => ?_, fun value hostname now haccepted => ?_,
    fun issue hrevoked => ?_, fun issue hissue => ?_⟩
  · have hne : key ≠ id := by
      rintro rfl
      exact absurd (hkey.symm.trans (AList.lookup_erase key s.tokens)) (Option.some_ne_none token)
    obtain ⟨issue, hissue, hid, htoken⟩ := h.issued key token ((hlookup hne).symm.trans hkey)
    exact ⟨issue, hissue, hid, by rw [htoken, hcount]⟩
  · exact h.known value hostname now (by simpa using haccepted)
  · by_cases hid : issue.id = id
    · subst hid
      exact AList.lookup_erase issue.id s.tokens
    · rcases revoked_cons_iff.1 hrevoked with ⟨heq, -⟩ | hrevoked
      · exact absurd (Event.revoked.inj heq).symm hid
      · exact (hlookup hid).trans (h.revoked issue hrevoked)
  · exact (h.lawful issue hissue).cons nofun

theorem Sound.cleanup (h : Sound hashes s) (now : ℕ) :
    Sound hashes { s with tokens := s.tokens.cleanup now } := by
  refine ⟨h.distinct, fun key token hkey => ?_, h.known, fun issue hrevoked => ?_, h.lawful⟩
  · exact h.issued key token (lookup_cleanup_eq_some_iff.1 hkey).1
  · apply Option.eq_none_iff_forall_ne_some.2
    intro token hget
    have hkept : s.tokens.lookup issue.id = some token := (lookup_cleanup_eq_some_iff.1 hget).1
    exact absurd (hkept.symm.trans (h.revoked issue hrevoked)) (Option.some_ne_none token)

/-- Every operation keeps the invariant. -/
theorem Sound.of_step (h : Sound hashes s) (hinj : Function.Injective hashes.tokenDigest)
    {a : Action} (ht : step hashes s a = some t) : Sound hashes t := by
  cases a with
  | create => exact h.create ht
  | validate => exact h.accept hinj ht
  | revoke id =>
    cases ht
    exact h.revoke id
  | cleanup now =>
    cases ht
    exact h.cleanup now

theorem sound_init (hashes : Hashes) : Sound hashes .init := by
  refine ⟨nofun, nofun, nofun, ?_, nofun⟩
  intro issue hrevoked
  cases mem_issues_of_revoked hrevoked

/-- An operation that does not touch a token leaves it as it is. -/
theorem Sound.lookup_eq (h : Sound hashes s) (hinj : Function.Injective hashes.tokenDigest)
    {a : Action} (ht : step hashes s a = some t) {issue : Issue} (hissue : issue ∈ issues s.log)
    (hother : ¬ Touches hashes s issue a) :
    t.tokens.lookup issue.id = s.tokens.lookup issue.id := by
  cases a with
  | create now ttl id value singleUse maxUses boundHostname reEnroll =>
    simp only [step] at ht
    split_ifs at ht with hfresh
    obtain rfl := Option.some.inj ht
    exact AList.lookup_insert_ne (hfresh issue hissue).1
  | validate now value hostname =>
    rcases h.validate_cases hinj ht with
      ⟨-, rfl⟩ | ⟨issue', hissue', hvalue, haccepted, -, -, -, hkept, -⟩
    · rfl
    · apply hkept
      intro hid
      obtain rfl := h.distinct issue hissue issue' hissue' (Or.inl hid)
      exact hother ⟨hvalue.symm, haccepted⟩
  | revoke id =>
    cases ht
    exact AList.lookup_erase_ne fun hid => hother hid.symm
  | cleanup now =>
    cases ht
    have hunexpired : issue.expiresAt ≥ now := not_lt.1 hother
    apply Option.ext
    intro token
    rw [lookup_cleanup_eq_some_iff]
    refine ⟨And.left, fun hget => ⟨hget, ?_⟩⟩
    obtain ⟨issue', hissue', hid, rfl⟩ := h.issued _ _ hget
    obtain rfl := h.distinct issue' hissue' issue hissue (Or.inl hid)
    exact decide_eq_false (not_lt.2 hunexpired)

end

/-! ## The budget -/

/-- In any run, the acceptances of every token that was issued keep within its limits, and an
operation that is not on the token leaves it as it is. -/
theorem accepted_of_run (hinj : Function.Injective hashes.tokenDigest) {as : List Action}
    {s : State} (hr : run (step hashes) .init as = some s) :
    ∀ issue ∈ issues s.log, Lawful s.log issue ∧
      ∀ a t, step hashes s a = some t → ¬ Touches hashes s issue a →
        t.tokens.lookup issue.id = s.tokens.lookup issue.id := by
  have hsound : Sound hashes s :=
    invariant_of_run (fun _ _ _ h ht => h.of_step hinj ht) (sound_init hashes) hr
  exact fun issue hissue =>
    ⟨hsound.lawful issue hissue, fun _ _ ht => hsound.lookup_eq hinj ht hissue⟩

/-- A token for two agents is used by two, refused to a third, and another token is revoked. -/
def twoAgents : List Action :=
  [.create 0 60 "i1" "t1" false (some 2) none false, .create 1 60 "i2" "t2" true none none false,
    .validate 2 "t1" "h1", .validate 3 "t1" "h2", .validate 4 "t1" "h3", .revoke "i2",
    .validate 5 "t2" "h3", .cleanup 6]

theorem accepted_twoAgents : ∃ s, run (step ⟨id, id⟩) .init twoAgents = some s ∧
    acceptances s.log "t1" = 2 ∧ acceptances s.log "t2" = 0 ∧
    ∀ issue ∈ issues s.log, Lawful s.log issue ∧
      ∀ a t, step ⟨id, id⟩ s a = some t → ¬ Touches ⟨id, id⟩ s issue a →
        t.tokens.lookup issue.id = s.tokens.lookup issue.id := by
  refine ⟨_, rfl, by decide, by decide, ?_⟩
  apply accepted_of_run ⟨id, id⟩ Function.injective_id
  exact (rfl : run (step ⟨id, id⟩) .init twoAgents = some _)

end Tenodera.Gateway.Tokens
