import Mathlib.Algebra.Group.Nat.Defs
import Tenodera.Lib.Run
import Tenodera.Lib.Table

/-!
# The lockout after failed password checks

`superuser.verify` counts the failures of a user and refuses to check a password when there are too
many; the container shell of `terminal.pty` checks passwords beside it.  A check is under way while
other channels go on.  `safe_of_counts` says which runs keep the bound on the failures in any
interval without a success, and have no check under way for a user who is locked out.
-/

namespace Tenodera.Agent.PasswordLockout

open Transition

/-! ## The counter -/

def maxAttempts : ℕ := 6

def lockoutWindowSecs : ℕ := 15 * 60

/-- The failures of a user and the instant of the first one, in nanoseconds. -/
abbrev RateLimiter : Type := AList fun _ : String => ℕ × ℕ

/-- `since.elapsed().as_secs() > LOCKOUT_WINDOW_SECS`. -/
def expired (now since : ℕ) : Bool := (now - since) / 10 ^ 9 > lockoutWindowSecs

section

variable (now : ℕ) (user : String) (limiter : RateLimiter)

def isLockedOut : Bool × RateLimiter :=
  match limiter.lookup user with
  | some (count, since) =>
    if expired now since then (false, limiter.erase user) else (count ≥ maxAttempts, limiter)
  | none => (false, limiter)

def recordFailure : Bool × RateLimiter :=
  let found := (limiter.lookup user).getD (0, now)
  let entry := if expired now found.2 then (0, now) else found
  let count := (entry.1 + 1) % 2 ^ 32
  let limiter := limiter.insert user (count, entry.2)
  (count ≥ maxAttempts,
    if limiter.entries.length > 50 then limiter.retain fun _ e => !expired now e.2 else limiter)

def clearFailures : RateLimiter := limiter.erase user

/-- The failures of the user that count against them. -/
def counted : ℕ :=
  match limiter.lookup user with
  | some (count, since) => if expired now since then 0 else count
  | none => 0

end

/-! ## Checks -/

/-- Who calls `verify_password`. -/
inductive Caller
  | superuser
  | container
  deriving DecidableEq

structure Check where
  caller : Caller
  user : String
  deriving DecidableEq

/-- A check that has been answered. -/
structure Answered where
  user : String
  instant : ℕ
  ok : Bool
  deriving DecidableEq

/-- The checks under way by request.  `answered` is not part of the agent: all checks that have been
answered, latest first. -/
structure State where
  limiter : RateLimiter
  now : ℕ
  running : AList fun _ : ℕ => Check
  answered : List Answered

def State.init : State := ⟨∅, 0, ∅, []⟩

inductive Action
  /-- `superuser.verify`, up to the wait for `sudo`. -/
  | superuser (request : ℕ) (user password : String)
  /-- `terminal.pty` with a container, up to the wait for `sudo`. -/
  | container (request : ℕ) (user : String)
  /-- `sudo` answers, and the caller goes on. -/
  | answer (request : ℕ) (ok : Bool)
  | tick (nanos : ℕ)
  deriving DecidableEq

/-- What a caller does with the answer. -/
def afterwards (now : ℕ) (check : Check) (ok : Bool) (limiter : RateLimiter) : RateLimiter :=
  match check.caller with
  | .superuser =>
    if ok then clearFailures check.user limiter else (recordFailure now check.user limiter).2
  | .container => limiter

def step (s : State) : Action → Option State
  | .superuser request user password =>
    if request ∈ s.running then none
    else if password = "" ∨ user = "" then some s
    else
      let asked := { s with limiter := (isLockedOut s.now user s.limiter).2 }
      if (isLockedOut s.now user s.limiter).1 then some asked
      else some { asked with running := s.running.insert request ⟨.superuser, user⟩ }
  | .container request user =>
    if request ∈ s.running then none
    else some { s with running := s.running.insert request ⟨.container, user⟩ }
  | .answer request ok =>
    match s.running.lookup request with
    | some check =>
      some
        { s with
          running := s.running.erase request
          limiter := afterwards s.now check ok s.limiter
          answered := ⟨check.user, s.now, ok⟩ :: s.answered }
    | none => none
  | .tick nanos => some { s with now := s.now + nanos }

/-! ## What the lockout is for -/

/-- The length of the window, in nanoseconds. -/
def window : ℕ := lockoutWindowSecs * 10 ^ 9

/-- The check of the user was answered within the window that begins at `start`. -/
def Answered.within (a : Answered) (user : String) (start : ℕ) : Prop :=
  a.user = user ∧ start ≤ a.instant ∧ a.instant ≤ start + window

instance (a : Answered) (user : String) (start : ℕ) : Decidable (a.within user start) :=
  inferInstanceAs (Decidable (_ ∧ _))

def failures (answered : List Answered) (user : String) (start : ℕ) : ℕ :=
  answered.countP fun a => a.within user start ∧ a.ok = false

/-- In a window without a success, at most the configured number of checks fail. -/
def Limited (s : State) : Prop :=
  ∀ user start, (∀ a ∈ s.answered, a.within user start → a.ok = false) →
    failures s.answered user start ≤ maxAttempts

/-- No check is under way for a user who is locked out. -/
def Unchecked (s : State) : Prop :=
  ∀ e ∈ s.running.entries, (isLockedOut s.now e.2.user s.limiter).1 = false

def Safe (s : State) : Prop := Limited s ∧ Unchecked s

/-- The failures of the user since their last success. -/
def sinceSuccess (user : String) (answered : List Answered) : List Answered :=
  (answered.filter fun a => a.user = user).takeWhile fun a => !a.ok

/-- How many of them are not older than the window. -/
def State.recent (s : State) (user : String) : ℕ :=
  (sinceSuccess user s.answered).countP fun a => s.now ≤ a.instant + window

/-- The counter keeps up with the failures: the container shell begins no check of a user who is
locked out, and none of its checks fails; the failure that locks a user out comes while no other
check of theirs is under way; and when a failure comes with none on the counter, there is none
since the last success that the window reaches. -/
def Counts (s : State) : Action → Prop
  | .container _ user => counted s.now user s.limiter < maxAttempts
  | .answer request ok =>
    match s.running.lookup request with
    | some check => ok = false →
      check.caller = .superuser ∧
      (counted s.now check.user s.limiter + 1 = maxAttempts →
        ∀ e ∈ s.running.entries, e.2.user = check.user → e.1 = request) ∧
      (counted s.now check.user s.limiter = 0 → s.recent check.user = 0)
    | none => True
  | .superuser .. | .tick _ => True

instance (s : State) (a : Action) : Decidable (Counts s a) := by
  rcases a <;> dsimp only [Counts] <;> try infer_instance
  split <;> infer_instance

/-! ## What the operations do to the counter -/

section

variable {limiter : RateLimiter} {now later : ℕ} {user user' : String}

theorem expired_self (now : ℕ) : expired now now = false := by
  rw [expired, Nat.sub_self]
  decide

theorem expired_mono {since : ℕ} (hlater : now ≤ later) (h : expired now since = true) :
    expired later since = true := by
  have hle : (now - since) / 10 ^ 9 ≤ (later - since) / 10 ^ 9 := Nat.div_le_div_right (by omega)
  exact decide_eq_true (lt_of_lt_of_le (of_decide_eq_true h) hle)

theorem counted_of_none (h : limiter.lookup user = none) : counted now user limiter = 0 := by
  rw [counted, h]

theorem counted_of_some {count since : ℕ} (h : limiter.lookup user = some (count, since)) :
    counted now user limiter = if expired now since then 0 else count := by
  rw [counted, h]

theorem counted_congr {limiter' : RateLimiter} (h : limiter'.lookup user = limiter.lookup user) :
    counted now user limiter' = counted now user limiter := by
  rw [counted, counted, h]

theorem isLockedOut_iff :
    (isLockedOut now user limiter).1 = true ↔ maxAttempts ≤ counted now user limiter := by
  unfold isLockedOut
  cases hget : limiter.lookup user with
  | none =>
    rw [counted_of_none hget]
    show false = true ↔ maxAttempts ≤ 0
    decide
  | some found =>
    obtain ⟨count, since⟩ := found
    rw [counted_of_some hget]
    dsimp only
    split_ifs with hexpired
    · decide
    · exact decide_eq_true_iff

theorem isLockedOut_eq_false_iff :
    (isLockedOut now user limiter).1 = false ↔ counted now user limiter < maxAttempts := by
  rw [Bool.eq_false_iff, Ne, isLockedOut_iff, not_le]

theorem counted_clearFailures : counted now user' (clearFailures user limiter) =
    if user' = user then 0 else counted now user' limiter := by
  split_ifs with heq
  · subst heq
    exact counted_of_none (AList.lookup_erase user' limiter)
  · exact counted_congr (AList.lookup_erase_ne heq)

/-- What `is_locked_out` forgets does not count. -/
theorem counted_isLockedOut :
    counted now user' (isLockedOut now user limiter).2 = counted now user' limiter := by
  unfold isLockedOut
  cases hget : limiter.lookup user with
  | none => rfl
  | some found =>
    obtain ⟨count, since⟩ := found
    dsimp only
    split_ifs with hexpired
    · show counted now user' (clearFailures user limiter) = _
      rw [counted_clearFailures]
      split_ifs with heq
      · rw [heq, counted_of_some hget, if_pos hexpired]
      · rfl
    · rfl

/-- What is pruned does not count. -/
theorem counted_retain :
    counted now user (limiter.retain fun _ e => !expired now e.2) = counted now user limiter := by
  cases hget : limiter.lookup user with
  | none =>
    rw [counted_of_none hget]
    refine counted_of_none (Option.eq_none_iff_forall_ne_some.2 fun found hfound => ?_)
    cases hget.symm.trans (AList.lookup_retain_eq_some_iff.1 hfound).1
  | some found =>
    obtain ⟨count, since⟩ := found
    cases hexpired : expired now since with
    | true =>
      rw [counted_of_some hget, if_pos hexpired]
      refine counted_of_none (Option.eq_none_iff_forall_ne_some.2 fun found hfound => ?_)
      obtain ⟨hfound, hkept⟩ := AList.lookup_retain_eq_some_iff.1 hfound
      cases hget.symm.trans hfound
      simp [hexpired] at hkept
    | false =>
      refine counted_congr ?_
      rw [hget]
      exact AList.lookup_retain_eq_some_iff.2 ⟨hget, by simp [hexpired]⟩

/-- A failure is put on the counter of its user. -/
theorem counted_recordFailure : counted now user' (recordFailure now user limiter).2 =
    if user' = user then (counted now user limiter + 1) % 2 ^ 32
    else counted now user' limiter := by
  have hinsert (entry : ℕ × ℕ) (hentry : expired now entry.2 = false) :
      counted now user' (limiter.insert user entry) =
        if user' = user then entry.1 else counted now user' limiter := by
    split_ifs with heq
    · subst heq
      rw [counted_of_some (AList.lookup_insert limiter), if_neg (by rw [hentry]; decide)]
    · exact counted_congr (AList.lookup_insert_ne heq)
  have hprune (l : RateLimiter) : counted now user'
      (if l.entries.length > 50 then l.retain fun _ e => !expired now e.2 else l) =
        counted now user' l := by
    split_ifs
    · exact counted_retain
    · rfl
  unfold recordFailure
  dsimp only
  rw [hprune]
  cases hget : limiter.lookup user with
  | none =>
    rw [counted_of_none hget]
    simp only [Option.getD_none, expired_self, Bool.false_eq_true, if_false]
    exact hinsert _ (expired_self now)
  | some found =>
    obtain ⟨count, since⟩ := found
    rw [counted_of_some hget]
    simp only [Option.getD_some]
    cases hexpired : expired now since with
    | true => exact hinsert _ (expired_self now)
    | false => exact hinsert _ hexpired

theorem counted_later (user : String) (limiter : RateLimiter) (hlater : now ≤ later) :
    counted later user limiter = counted now user limiter ∨ counted later user limiter = 0 := by
  cases hget : limiter.lookup user with
  | none => exact .inr (counted_of_none hget)
  | some found =>
    obtain ⟨count, since⟩ := found
    rw [counted_of_some hget, counted_of_some hget]
    cases hexpired : expired later since with
    | true => exact .inr (if_pos rfl)
    | false =>
      have hearlier : ¬ expired now since = true := fun h => by
        rw [expired_mono hlater h] at hexpired
        cases hexpired
      rw [if_neg hearlier]
      exact .inl (if_neg (by decide))

end

/-! ## The failures since the last success -/

section

variable {answered : List Answered} {user : String} {now start : ℕ} {a : Answered}

theorem sinceSuccess_cons_of_ne (h : a.user ≠ user) :
    sinceSuccess user (a :: answered) = sinceSuccess user answered := by
  rw [sinceSuccess, List.filter_cons_of_neg (by simp [h])]
  rfl

theorem sinceSuccess_cons_of_ok (h : a.user = user) (hok : a.ok = true) :
    sinceSuccess user (a :: answered) = [] := by
  rw [sinceSuccess, List.filter_cons_of_pos (by simp [h]),
    List.takeWhile_cons_of_neg (by simp [hok])]

theorem sinceSuccess_cons_of_fail (h : a.user = user) (hok : a.ok = false) :
    sinceSuccess user (a :: answered) = a :: sinceSuccess user answered := by
  rw [sinceSuccess, List.filter_cons_of_pos (by simp [h]),
    List.takeWhile_cons_of_pos (by simp [hok])]
  rfl

theorem failures_cons : failures (a :: answered) user start =
    failures answered user start + if a.within user start ∧ a.ok = false then 1 else 0 := by
  rw [failures, failures, List.countP_cons]
  simp

/-- The failures in a window that has not passed and has no success are failures since the last
success. -/
theorem failures_le (hpast : ∀ a ∈ answered, a.instant ≤ now)
    (hordered : answered.Pairwise fun a b => b.instant ≤ a.instant) (hnow : now ≤ start + window)
    (hclean : ∀ a ∈ answered, a.within user start → a.ok = false) :
    failures answered user start ≤
      (sinceSuccess user answered).countP fun a => now ≤ a.instant + window := by
  induction answered with
  | nil => exact Nat.zero_le _
  | cons a rest ih =>
    obtain ⟨ha, hrest⟩ := List.forall_mem_cons.1 hpast
    obtain ⟨hlatest, hordered⟩ := List.pairwise_cons.1 hordered
    obtain ⟨hcleanHead, hclean⟩ := List.forall_mem_cons.1 hclean
    have hih := ih hrest hordered hclean
    rw [failures_cons]
    by_cases huser : a.user = user
    · cases hok : a.ok with
      | true =>
        -- the success lies before the window, and with it everything that is older
        have hbefore : a.instant < start := by
          by_contra hin
          have hwithin : a.within user start := ⟨huser, by omega, by omega⟩
          rw [hcleanHead hwithin] at hok
          cases hok
        have hnone : failures rest user start = 0 := by
          refine List.countP_eq_zero.2 fun b hb => ?_
          have hle : b.instant ≤ a.instant := hlatest b hb
          simp only [decide_eq_true_eq]
          rintro ⟨⟨-, hstart, -⟩, -⟩
          omega
        rw [hnone, sinceSuccess_cons_of_ok huser hok]
        simp
      | false =>
        rw [sinceSuccess_cons_of_fail huser hok, List.countP_cons]
        split_ifs with hwithin hrecent
        · omega
        · obtain ⟨⟨-, hstart, -⟩, -⟩ := hwithin
          simp only [decide_eq_true_eq] at hrecent
          omega
        · omega
        · omega
    · have hout : ¬ (a.within user start ∧ a.ok = false) := fun h => huser h.1.1
      rw [if_neg hout, sinceSuccess_cons_of_ne huser]
      omega

end

/-! ## Runs that count -/

section

variable {s t : State} {a : Action} {limiter : RateLimiter} {request : ℕ} {check : Check}

/-- Nobody with a check under way is locked out, and what is on the counter of a user is no less
than their failures since the last success that the window reaches. -/
structure Accounted (s : State) : Prop where
  past : ∀ a ∈ s.answered, a.instant ≤ s.now
  ordered : s.answered.Pairwise fun a b => b.instant ≤ a.instant
  unchecked : ∀ e ∈ s.running.entries, counted s.now e.2.user s.limiter < maxAttempts
  onCounter : ∀ user, counted s.now user s.limiter = 0 ∨
    s.recent user ≤ counted s.now user s.limiter
  limited : Limited s

theorem accounted_init : Accounted .init where
  past := nofun
  ordered := .nil
  unchecked := nofun
  onCounter _ := .inl rfl
  limited _ _ _ := Nat.zero_le _

theorem Accounted.safe (hs : Accounted s) : Safe s :=
  ⟨hs.limited, fun e he => isLockedOut_eq_false_iff.2 (hs.unchecked e he)⟩

theorem Accounted.of_counted (hs : Accounted s)
    (h : ∀ user, counted s.now user limiter = counted s.now user s.limiter) :
    Accounted { s with limiter := limiter } where
  past := hs.past
  ordered := hs.ordered
  unchecked e he := by
    show counted s.now e.2.user limiter < maxAttempts
    rw [h]
    exact hs.unchecked e he
  onCounter user := by
    show counted s.now user limiter = 0 ∨ s.recent user ≤ counted s.now user limiter
    rw [h]
    exact hs.onCounter user
  limited := hs.limited

theorem Accounted.begin_check (hs : Accounted s) (hnew : request ∉ s.running)
    (hcount : counted s.now check.user s.limiter < maxAttempts) :
    Accounted { s with running := s.running.insert request check } where
  past := hs.past
  ordered := hs.ordered
  unchecked e he := by
    change e ∈ (s.running.insert request check).entries at he
    rw [AList.entries_insert_of_notMem hnew] at he
    rcases List.mem_cons.1 he with rfl | he
    · exact hcount
    · exact hs.unchecked e he
  onCounter := hs.onCounter
  limited := hs.limited

theorem Accounted.tick (hs : Accounted s) (nanos : ℕ) :
    Accounted { s with now := s.now + nanos } where
  past a ha := Nat.le_trans (hs.past a ha) (Nat.le_add_right _ _)
  ordered := hs.ordered
  unchecked e he := by
    have hbefore := hs.unchecked e he
    show counted (s.now + nanos) e.2.user s.limiter < maxAttempts
    rcases counted_later e.2.user s.limiter (Nat.le_add_right s.now nanos) with hcount | hcount
    · rwa [hcount]
    · rw [hcount]
      decide
  onCounter user := by
    show counted (s.now + nanos) user s.limiter = 0 ∨ _ ≤ counted (s.now + nanos) user s.limiter
    rcases counted_later user s.limiter (Nat.le_add_right s.now nanos) with hcount | hcount
    · rw [hcount]
      refine (hs.onCounter user).imp_right fun hrecent => Nat.le_trans ?_ hrecent
      refine List.countP_mono_left fun a _ ha => ?_
      simp only [decide_eq_true_eq] at ha ⊢
      omega
    · exact .inl hcount
  limited := hs.limited

/-- An answer comes now, which is after all others. -/
theorem Accounted.answered_cons (hs : Accounted s) (user : String) (ok : Bool) :
    (∀ a ∈ (⟨user, s.now, ok⟩ : Answered) :: s.answered, a.instant ≤ s.now) ∧
      ((⟨user, s.now, ok⟩ : Answered) :: s.answered).Pairwise fun a b =>
        b.instant ≤ a.instant :=
  ⟨List.forall_mem_cons.2 ⟨le_rfl, hs.past⟩, List.pairwise_cons.2 ⟨hs.past, hs.ordered⟩⟩

theorem mem_of_mem_erase {e : Σ _ : ℕ, Check} (he : e ∈ (s.running.erase request).entries) :
    e ∈ s.running.entries ∧ e.1 ≠ request := by
  have hlookup := AList.mem_lookup_iff.2 he
  obtain ⟨hne, hlookup⟩ := AList.lookup_erase_eq_some_iff.1 hlookup
  exact ⟨AList.mem_lookup_iff.1 hlookup, hne⟩

/-- A success takes the user off the counter, or leaves it. -/
theorem Accounted.success (hs : Accounted s) (user : String)
    (hcount : ∀ user', counted s.now user' limiter = counted s.now user' s.limiter ∨
      user' = user ∧ counted s.now user' limiter = 0) :
    Accounted { s with
      running := s.running.erase request
      limiter := limiter
      answered := ⟨user, s.now, true⟩ :: s.answered } where
  past := (hs.answered_cons user true).1
  ordered := (hs.answered_cons user true).2
  unchecked e he := by
    have hbefore := hs.unchecked e (mem_of_mem_erase he).1
    show counted s.now e.2.user limiter < maxAttempts
    rcases hcount e.2.user with heq | ⟨-, heq⟩
    · rwa [heq]
    · rw [heq]
      decide
  onCounter user' := by
    show counted s.now user' limiter = 0 ∨
      (sinceSuccess user' (_ :: s.answered)).countP _ ≤ counted s.now user' limiter
    rcases hcount user' with heq | ⟨-, heq⟩
    · by_cases huser : user = user'
      · rw [sinceSuccess_cons_of_ok huser rfl]
        exact .inr (Nat.zero_le _)
      · rw [heq, sinceSuccess_cons_of_ne huser]
        exact hs.onCounter user'
    · exact .inl heq
  limited user' start hclean := by
    obtain ⟨-, hclean⟩ := List.forall_mem_cons.1 hclean
    show failures (_ :: s.answered) user' start ≤ maxAttempts
    rw [failures_cons, if_neg (by simp)]
    exact hs.limited user' start hclean

/-- A failure that goes on the counter: every window that it is in holds at most the failures that
were on the counter, and this one. -/
theorem Accounted.failure (hs : Accounted s) (hcheck : s.running.lookup request = some check)
    (hlast : counted s.now check.user s.limiter + 1 = maxAttempts →
      ∀ e ∈ s.running.entries, e.2.user = check.user → e.1 = request)
    (hfirst : counted s.now check.user s.limiter = 0 → s.recent check.user = 0) :
    Accounted { s with
      running := s.running.erase request
      limiter := (recordFailure s.now check.user s.limiter).2
      answered := ⟨check.user, s.now, false⟩ :: s.answered } := by
  have hroom : counted s.now check.user s.limiter < maxAttempts :=
    hs.unchecked _ (AList.mem_lookup_iff.1 hcheck)
  have hsmall : (counted s.now check.user s.limiter + 1) % 2 ^ 32 =
      counted s.now check.user s.limiter + 1 := by
    refine Nat.mod_eq_of_lt (Nat.lt_of_le_of_lt hroom ?_)
    decide
  have hrecent : s.recent check.user ≤ counted s.now check.user s.limiter := by
    rcases hs.onCounter check.user with hzero | hle
    · rw [hfirst hzero]
      exact Nat.zero_le _
    · exact hle
  refine ⟨(hs.answered_cons check.user false).1, (hs.answered_cons check.user false).2,
    fun e he => ?_, fun user => ?_, fun user start hclean => ?_⟩
  · obtain ⟨he, hne⟩ := mem_of_mem_erase he
    have hbefore := hs.unchecked e he
    show counted s.now e.2.user (recordFailure s.now check.user s.limiter).2 < maxAttempts
    rw [counted_recordFailure, hsmall]
    split_ifs with huser
    · have hnotLast : counted s.now check.user s.limiter + 1 ≠ maxAttempts := fun h =>
        hne (hlast h e he huser)
      omega
    · exact hbefore
  · show counted s.now user (recordFailure s.now check.user s.limiter).2 = 0 ∨
      (sinceSuccess user (_ :: s.answered)).countP (fun a => s.now ≤ a.instant + window) ≤
        counted s.now user (recordFailure s.now check.user s.limiter).2
    rw [counted_recordFailure, hsmall]
    split_ifs with huser
    · right
      rw [sinceSuccess_cons_of_fail huser.symm rfl, List.countP_cons, huser]
      have hle : (if decide (s.now ≤ s.now + window) then 1 else 0) ≤ 1 := by split_ifs <;> omega
      exact Nat.add_le_add hrecent hle
    · rw [sinceSuccess_cons_of_ne (Ne.symm huser)]
      exact hs.onCounter user
  · obtain ⟨-, hclean⟩ := List.forall_mem_cons.1 hclean
    show failures (_ :: s.answered) user start ≤ maxAttempts
    rw [failures_cons]
    split_ifs with hin
    · obtain ⟨⟨huser, -, hnow⟩, -⟩ := hin
      change check.user = user at huser
      subst huser
      have hle : failures s.answered check.user start ≤ s.recent check.user :=
        failures_le hs.past hs.ordered hnow hclean
      omega
    · exact hs.limited user start hclean

/-- `superuser.verify` begins a check only if the user is not locked out. -/
theorem Accounted.superuser (hs : Accounted s) {user password : String}
    (h : step s (.superuser request user password) = some t) : Accounted t := by
  have hasked : Accounted { s with limiter := (isLockedOut s.now user s.limiter).2 } :=
    hs.of_counted fun _ => counted_isLockedOut
  simp only [PasswordLockout.step] at h
  split_ifs at h with hrunning hempty hlocked
  · cases h
    exact hs
  · cases h
    exact hasked
  · cases h
    refine hasked.begin_check hrunning ?_
    show counted s.now user (isLockedOut s.now user s.limiter).2 < maxAttempts
    rw [counted_isLockedOut]
    exact isLockedOut_eq_false_iff.1 (Bool.eq_false_iff.2 hlocked)

/-- A success takes the user off the counter only for `superuser.verify`. -/
theorem counted_afterwards_success (now : ℕ) (check : Check) (limiter : RateLimiter)
    (user : String) :
    counted now user (afterwards now check true limiter) = counted now user limiter ∨
      user = check.user ∧ counted now user (afterwards now check true limiter) = 0 := by
  cases hcaller : check.caller with
  | container =>
    rw [afterwards, hcaller]
    exact .inl rfl
  | superuser =>
    have hafter : afterwards now check true limiter = clearFailures check.user limiter := by
      rw [afterwards, hcaller]
      rfl
    rw [hafter, counted_clearFailures]
    split_ifs with huser
    · exact .inr ⟨huser, rfl⟩
    · exact .inl rfl

theorem Accounted.answer (hs : Accounted s) {ok : Bool} (hC : Counts s (.answer request ok))
    (h : step s (.answer request ok) = some t) : Accounted t := by
  simp only [PasswordLockout.step] at h
  cases hcheck : s.running.lookup request with
  | none =>
    rw [hcheck] at h
    cases h
  | some check =>
    rw [hcheck] at h
    cases h
    cases ok with
    | true => exact hs.success check.user (counted_afterwards_success s.now check s.limiter)
    | false =>
      simp only [Counts, hcheck] at hC
      obtain ⟨hcaller, hlast, hfirst⟩ := hC trivial
      have hafter : afterwards s.now check false s.limiter =
          (recordFailure s.now check.user s.limiter).2 := by
        rw [afterwards, hcaller]
        rfl
      rw [hafter]
      exact hs.failure hcheck hlast hfirst

theorem Accounted.step (hs : Accounted s) (hC : Counts s a) (h : step s a = some t) :
    Accounted t := by
  cases a with
  | superuser request user password => exact hs.superuser h
  | container request user =>
    simp only [PasswordLockout.step] at h
    split_ifs at h with hrunning
    cases h
    exact hs.begin_check hrunning hC
  | answer request ok => exact hs.answer hC h
  | tick nanos =>
    cases h
    exact hs.tick nanos

end

/-- In every run that keeps the counter up with the failures, at most the configured number of
checks fail in any window without a success, and no check is under way for a user who is locked
out. -/
theorem safe_of_counts (as : List Action) (h : Meets step Counts .init as) :
    Always step Safe .init as :=
  always_of_meets (fun _ _ _ hs hC ht => hs.step hC ht) (fun _ hs => hs.safe) accounted_init h

/-- A guesser who stays with `superuser.verify`, until the account is locked. -/
def guesses : List Action :=
  (List.range 6).flatMap (fun n => [.superuser n "web" "guess", .answer n false, .tick (10 ^ 9)]) ++
    [.superuser 6 "web" "guess"]

theorem safe_guesses : Always step Safe .init guesses := safe_of_counts guesses (by decide)

/-- A guesser who asks for a container shell each time. -/
def shells : List Action := (List.range 7).flatMap fun n => [.container n "web", .answer n false]

/-- A container shell for a user whom `superuser.verify` has locked out. -/
def lockedShell : List Action :=
  (List.range 6).flatMap (fun n => [.superuser n "web" "guess", .answer n false]) ++
    [.container 6 "web"]

/-- A guesser who goes on when the window of the first failure is over. -/
def straddling : List Action :=
  [.superuser 0 "web" "guess", .answer 0 false, .tick (900 * 10 ^ 9)] ++
    (List.range 4).flatMap (fun n => [.superuser n "web" "guess", .answer n false]) ++
    .tick (10 ^ 9) ::
    (List.range 6).flatMap (fun n => [.superuser n "web" "guess", .answer n false])

/-- A run without a success in which too many checks of a window fail. -/
theorem not_always_of_failures {as : List Action} (user : String) (start : ℕ) {n : ℕ}
    (hrun : ((run step .init as).map fun t =>
      (failures t.answered user start, t.answered.all fun a => !a.ok)) = some (n, true))
    (hn : maxAttempts < n) : ¬ Always step Safe .init as := by
  intro h
  obtain ⟨t, ht, heq⟩ := Option.map_eq_some_iff.1 hrun
  obtain ⟨hcount, hclean⟩ := Prod.mk.inj heq
  have hfail : ∀ a ∈ t.answered, a.within user start → a.ok = false := fun a ha _ => by
    simpa using List.all_eq_true.1 hclean a ha
  have hle := (h.last ht).1 user start hfail
  omega

/-- The container shell lets a guesser go on, and checks the password of a user who is locked out;
and the end of a window takes failures off the counter that are a second old. -/
theorem guesses_uncounted :
    ¬ Always step Safe .init shells ∧ ¬ Always step Safe .init lockedShell ∧
      ¬ Always step Safe .init straddling := by
  refine ⟨not_always_of_failures "web" 0 (n := 7) (by decide) (by decide), fun h => ?_,
    not_always_of_failures "web" (900 * 10 ^ 9) (n := 10) (by decide) (by decide)⟩
  have hrun : ((run step .init lockedShell).map fun t =>
      ((isLockedOut t.now "web" t.limiter).1, t.running.entries.map fun e => e.2.user)) =
        some (true, ["web"]) := by
    decide
  obtain ⟨t, ht, heq⟩ := Option.map_eq_some_iff.1 hrun
  obtain ⟨hlocked, husers⟩ := Prod.mk.inj heq
  have hweb : "web" ∈ t.running.entries.map fun e => e.2.user := by
    rw [husers]
    exact List.mem_singleton_self _
  obtain ⟨e, he, huser⟩ := List.mem_map.1 hweb
  have hopen := (h.last ht).2 e he
  rw [huser, hlocked] at hopen
  cases hopen

end Tenodera.Agent.PasswordLockout
