import Mathlib.Algebra.Group.Nat.Defs
import Tenodera.Lib.IpAddr
import Tenodera.Lib.Run
import Tenodera.Lib.Table

/-!
# The limit on failed logins

A login asks the limiter of its address, runs the PAM authentication, and records a failure
afterwards; other logins go on while it waits for PAM.  `limited_of_meets` says that the number of
failing authentications in any window stays within the limit as long as each of them is started
while the failures on record and the failing authentications under way leave room for it.
-/

namespace Tenodera.Gateway

/-- Failed attempts by address, at instants counted in nanoseconds. -/
structure LoginRateLimiter where
  attempts : AList fun _ : IpAddr => List ℕ
  maxAttempts : ℕ
  window : ℕ

namespace LoginRateLimiter

def new (maxAttempts windowSecs : ℕ) : LoginRateLimiter := ⟨∅, maxAttempts, windowSecs * 10 ^ 9⟩

variable (now : ℕ) (ip : IpAddr) (limiter : LoginRateLimiter)

/-- The attempts that are within the window. -/
def recent (times : List ℕ) : List ℕ := times.filter fun t => now - t < limiter.window

def isLimited : Bool × LoginRateLimiter :=
  match limiter.attempts.lookup ip with
  | some times =>
    let times := limiter.recent now times
    (times.length ≥ limiter.maxAttempts,
      { limiter with attempts := limiter.attempts.insert ip times })
  | none => (false, limiter)

def checkAndRecord : Bool × LoginRateLimiter :=
  let times := limiter.recent now ((limiter.attempts.lookup ip).getD [])
  if times.length ≥ limiter.maxAttempts then
    (true, { limiter with attempts := limiter.attempts.insert ip times })
  else (false, { limiter with attempts := limiter.attempts.insert ip (times ++ [now]) })

/-- `cleanup`: the attempts out of the window go, and the addresses without any. -/
def cleanup : LoginRateLimiter :=
  let attempts := limiter.attempts.retain fun _ times => limiter.recent now times ≠ []
  { limiter with attempts := attempts.mapValues (limiter.recent now) }

/-- The failures of an address on record that are within the window. -/
def onRecord : List ℕ := limiter.recent now ((limiter.attempts.lookup ip).getD [])

end LoginRateLimiter

/-! ## Logins -/

namespace Login

open Transition

/-- A login whose PAM authentication is under way, with the verdict that PAM will give. -/
structure Attempt where
  ip : IpAddr
  success : Bool
  deriving DecidableEq

/-- The logins under way by request.  `failing` is not part of the gateway: the authentications that
end in failure with the instants of their starts, latest first. -/
structure State where
  limiter : LoginRateLimiter
  now : ℕ
  running : AList fun _ : ℕ => Attempt
  failing : List (IpAddr × ℕ)

def State.init (maxAttempts windowSecs : ℕ) : State := ⟨.new maxAttempts windowSecs, 0, ∅, []⟩

inductive Action
  /-- `login`, up to the wait for PAM. -/
  | login (request : ℕ) (ip : IpAddr) (user password : String) (success : Bool)
  /-- PAM answers. -/
  | finish (request : ℕ)
  | cleanup
  | tick (nanos : ℕ)
  deriving DecidableEq

/-- The login gets through to PAM. -/
def asksPam (s : State) (ip : IpAddr) (user password : String) : Bool :=
  !(s.limiter.isLimited s.now ip).1 && user ≠ "" && password ≠ ""

def step (s : State) : Action → Option State
  | .login request ip user password success =>
    if request ∈ s.running then none
    else
      let checked := { s with limiter := (s.limiter.isLimited s.now ip).2 }
      if asksPam s ip user password then
        some
          { checked with
            running := s.running.insert request ⟨ip, success⟩
            failing := if success then s.failing else (ip, s.now) :: s.failing }
      else some checked
  | .finish request =>
    match s.running.lookup request with
    | some attempt =>
      let answered := { s with running := s.running.erase request }
      if attempt.success then some answered
      else some { answered with limiter := (s.limiter.checkAndRecord s.now attempt.ip).2 }
    | none => none
  | .cleanup => some { s with limiter := s.limiter.cleanup s.now }
  | .tick nanos => some { s with now := s.now + nanos }

/-- How many failing authentications of an address were started from `start` on, before `stop`. -/
def State.failures (s : State) (ip : IpAddr) (start stop : ℕ) : ℕ :=
  s.failing.countP fun a => a.1 = ip ∧ start ≤ a.2 ∧ a.2 < stop

/-- In every window of the configured length, at most the configured number of authentications that
end in failure are started for an address. -/
def Limited (s : State) : Prop :=
  ∀ ip start, s.failures ip start (start + s.limiter.window) ≤ s.limiter.maxAttempts

/-- How many authentications of the address are under way and end in failure. -/
def State.underWay (s : State) (ip : IpAddr) : ℕ :=
  s.running.entries.countP fun e => e.2.ip = ip ∧ e.2.success = false

/-- An authentication that is going to fail is started while the failures on record and the failing
authentications under way number less than the limit. -/
def HasRoom (s : State) : Action → Prop
  | .login _ ip user password success =>
    success = false → asksPam s ip user password →
      (s.limiter.onRecord s.now ip).length + s.underWay ip < s.limiter.maxAttempts
  | _ => True

instance (s : State) (a : Action) : Decidable (HasRoom s a) := by
  rcases a <;> dsimp only [HasRoom] <;> infer_instance

/-! ## What the operations of the limiter keep -/

section

variable {limiter limiter' : LoginRateLimiter} {now : ℕ} {ip ip' : IpAddr}

/-- The failures of an address on record. -/
def times (limiter : LoginRateLimiter) (ip : IpAddr) : List ℕ :=
  (limiter.attempts.lookup ip).getD []

/-- The limits are the same, and of every address at most the failures out of the window go. -/
structure Forgets (now : ℕ) (limiter limiter' : LoginRateLimiter) : Prop where
  maxAttempts : limiter'.maxAttempts = limiter.maxAttempts
  window : limiter'.window = limiter.window
  kept : ∀ ip, times limiter' ip = times limiter ip ∨
    times limiter' ip = limiter.recent now (times limiter ip)

theorem isLimited_forgets : Forgets now limiter (limiter.isLimited now ip).2 := by
  unfold LoginRateLimiter.isLimited
  rcases hget : limiter.attempts.lookup ip with _ | found
  · exact ⟨rfl, rfl, fun _ => .inl rfl⟩
  · refine ⟨rfl, rfl, fun ip' => ?_⟩
    by_cases h : ip' = ip
    · subst h
      exact .inr (by simp [times, hget])
    · exact .inl (by simp [times, AList.lookup_insert_ne h])

theorem cleanup_forgets : Forgets now limiter (limiter.cleanup now) := by
  refine ⟨rfl, rfl, fun ip => .inr ?_⟩
  unfold times LoginRateLimiter.cleanup
  rw [AList.lookup_mapValues]
  rcases hget : limiter.attempts.lookup ip with _ | found
  · have hgone : (limiter.attempts.retain fun _ times => limiter.recent now times ≠ []).lookup ip =
        none := by
      refine Option.eq_none_iff_forall_ne_some.2 fun found hfound => ?_
      cases hget.symm.trans (AList.lookup_retain_eq_some_iff.1 hfound).1
    rw [hgone]
    rfl
  · by_cases hempty : limiter.recent now found = []
    · have hgone : (limiter.attempts.retain fun _ times =>
          limiter.recent now times ≠ []).lookup ip = none := by
        refine Option.eq_none_iff_forall_ne_some.2 fun found' hfound => ?_
        obtain ⟨hfound, hne⟩ := AList.lookup_retain_eq_some_iff.1 hfound
        cases hget.symm.trans hfound
        simp [hempty] at hne
      rw [hgone]
      exact hempty.symm
    · have hstay : (limiter.attempts.retain fun _ times =>
          limiter.recent now times ≠ []).lookup ip = some found :=
        AList.lookup_retain_eq_some_iff.2 ⟨hget, by simpa using hempty⟩
      rw [hstay]
      rfl

theorem recent_recent (l : List ℕ) :
    limiter.recent now (limiter.recent now l) = limiter.recent now l := by
  simp [LoginRateLimiter.recent]

theorem Forgets.onRecord (h : Forgets now limiter limiter') (ip : IpAddr) :
    limiter'.onRecord now ip = limiter.onRecord now ip := by
  have hrecent (l : List ℕ) : limiter'.recent now l = limiter.recent now l := by
    simp [LoginRateLimiter.recent, h.window]
  change limiter'.recent now (times limiter' ip) = limiter.recent now (times limiter ip)
  rcases h.kept ip with heq | heq
  · rw [heq, hrecent]
  · rw [heq, hrecent, recent_recent]

/-- How many failures on record are no earlier than `start`. -/
def recordedSince (limiter : LoginRateLimiter) (ip : IpAddr) (start : ℕ) : ℕ :=
  (times limiter ip).countP (start ≤ ·)

/-- Forgetting keeps the failures since any instant that the window reaches back to. -/
theorem Forgets.recordedSince (h : Forgets now limiter limiter') (ip : IpAddr) {start : ℕ}
    (hpast : start ≤ now) (hstart : now < start + limiter.window) :
    recordedSince limiter' ip start = recordedSince limiter ip start := by
  unfold Login.recordedSince
  rcases h.kept ip with heq | heq
  · rw [heq]
  · rw [heq, LoginRateLimiter.recent, List.countP_filter]
    refine List.countP_congr fun t _ => ?_
    simp only [Bool.and_eq_true, decide_eq_true_eq]
    omega

/-- What is on record since an instant that the window reaches back to is on record now. -/
theorem recordedSince_le {start : ℕ} (hpast : start ≤ now)
    (hstart : now < start + limiter.window) :
    recordedSince limiter ip start ≤ (limiter.onRecord now ip).length := by
  change _ ≤ (limiter.recent now (times limiter ip)).length
  rw [LoginRateLimiter.recent, ← List.countP_eq_length_filter]
  refine List.countP_mono_left fun t _ ht => ?_
  simp only [decide_eq_true_eq] at ht ⊢
  omega

theorem onRecord_mono {later : ℕ} (h : now ≤ later) :
    (limiter.onRecord later ip).length ≤ (limiter.onRecord now ip).length := by
  change (limiter.recent later (times limiter ip)).length ≤ _
  rw [LoginRateLimiter.onRecord, LoginRateLimiter.recent, LoginRateLimiter.recent,
    ← List.countP_eq_length_filter, ← List.countP_eq_length_filter]
  refine List.countP_mono_left fun t _ ht => ?_
  simp only [decide_eq_true_eq] at ht ⊢
  omega

/-- A failure that there is room for goes on record. -/
theorem checkAndRecord_of_room (h : (limiter.onRecord now ip).length < limiter.maxAttempts) :
    (limiter.checkAndRecord now ip).2 =
      { limiter with attempts := limiter.attempts.insert ip (limiter.onRecord now ip ++ [now]) } :=
  congrArg Prod.snd (if_neg (not_le.2 h))

end

/-! ## Runs with room -/

section

variable {s t : State} {a : Action} {ip : IpAddr} {request start : ℕ} {attempt : Attempt}

/-- How many failing authentications of an address were started from `start` on. -/
def State.failuresSince (s : State) (ip : IpAddr) (start : ℕ) : ℕ :=
  s.failing.countP fun a => a.1 = ip ∧ start ≤ a.2

theorem failures_le_failuresSince (stop : ℕ) :
    s.failures ip start stop ≤ s.failuresSince ip start := by
  refine List.countP_mono_left fun a _ h => ?_
  simp only [decide_eq_true_eq] at h ⊢
  exact ⟨h.1, h.2.1⟩

/-- The failures on record and the failing authentications under way are within the limit, and they
are all the failures of any window that has not passed. -/
structure Accounted (s : State) : Prop where
  past : ∀ a ∈ s.failing, a.2 ≤ s.now
  room : ∀ ip, (s.limiter.onRecord s.now ip).length + s.underWay ip ≤ s.limiter.maxAttempts
  since : ∀ ip start, start ≤ s.now → s.now < start + s.limiter.window →
    s.failuresSince ip start ≤ recordedSince s.limiter ip start + s.underWay ip
  limited : Limited s

theorem accounted_init (maxAttempts windowSecs : ℕ) :
    Accounted (.init maxAttempts windowSecs) where
  past := nofun
  room _ := Nat.zero_le _
  since _ _ _ _ := Nat.zero_le _
  limited _ _ := Nat.zero_le _

/-- Forgetting failures out of the window changes nothing. -/
theorem Accounted.of_forgets {limiter : LoginRateLimiter} (hs : Accounted s)
    (h : Forgets s.now s.limiter limiter) : Accounted { s with limiter := limiter } where
  past := hs.past
  room ip := by
    change (limiter.onRecord s.now ip).length + s.underWay ip ≤ limiter.maxAttempts
    rw [h.onRecord, h.maxAttempts]
    exact hs.room ip
  since ip start hpast hstart := by
    change s.now < start + limiter.window at hstart
    rw [h.window] at hstart
    change s.failuresSince ip start ≤ recordedSince limiter ip start + s.underWay ip
    rw [h.recordedSince ip hpast hstart]
    exact hs.since ip start hpast hstart
  limited ip start := by
    change s.failures ip start (start + limiter.window) ≤ limiter.maxAttempts
    rw [h.window, h.maxAttempts]
    exact hs.limited ip start

/-- A window that has not passed holds no more than what is on record and under way. -/
theorem Accounted.failuresSince_le (hs : Accounted s) (hpast : start ≤ s.now)
    (hstart : s.now < start + s.limiter.window) :
    s.failuresSince ip start ≤ (s.limiter.onRecord s.now ip).length + s.underWay ip := by
  have hrecorded : recordedSince s.limiter ip start ≤ (s.limiter.onRecord s.now ip).length :=
    recordedSince_le hpast hstart
  have hsince := hs.since ip start hpast hstart
  omega

theorem underWay_insert (attempt : Attempt) (h : request ∉ s.running)
    (failing : List (IpAddr × ℕ)) (ip : IpAddr) :
    State.underWay { s with running := s.running.insert request attempt, failing := failing } ip =
      s.underWay ip + if attempt.ip = ip ∧ attempt.success = false then 1 else 0 := by
  unfold State.underWay
  rw [AList.countP_insert h]
  simp

theorem underWay_erase (h : s.running.lookup request = some attempt) (limiter : LoginRateLimiter)
    (ip : IpAddr) : s.underWay ip =
      State.underWay { s with running := s.running.erase request, limiter := limiter } ip +
        if attempt.ip = ip ∧ attempt.success = false then 1 else 0 := by
  unfold State.underWay
  rw [AList.countP_erase h]
  simp

theorem Accounted.login_success (hs : Accounted s) (h : request ∉ s.running) :
    Accounted { s with running := s.running.insert request ⟨ip, true⟩ } := by
  have hway (ip' : IpAddr) :
      State.underWay { s with running := s.running.insert request ⟨ip, true⟩ } ip' =
        s.underWay ip' := by
    simpa using underWay_insert ⟨ip, true⟩ h s.failing ip'
  refine ⟨hs.past, fun ip' => ?_, fun ip' start hpast hstart => ?_, hs.limited⟩
  · rw [hway]
    exact hs.room ip'
  · rw [hway]
    exact hs.since ip' start hpast hstart

theorem Accounted.login_failure (hs : Accounted s) (h : request ∉ s.running)
    (hroom : (s.limiter.onRecord s.now ip).length + s.underWay ip < s.limiter.maxAttempts) :
    Accounted { s with
      running := s.running.insert request ⟨ip, false⟩, failing := (ip, s.now) :: s.failing } := by
  have hway (ip' : IpAddr) : State.underWay { s with
      running := s.running.insert request ⟨ip, false⟩, failing := (ip, s.now) :: s.failing } ip' =
        s.underWay ip' + if ip = ip' then 1 else 0 := by
    simpa using underWay_insert ⟨ip, false⟩ h ((ip, s.now) :: s.failing) ip'
  refine ⟨?_, fun ip' => ?_, fun ip' start hpast hstart => ?_, fun ip' start => ?_⟩
  · rintro a (_ | ⟨_, ha⟩)
    · exact le_rfl
    · exact hs.past a ha
  · rw [hway]
    change (s.limiter.onRecord s.now ip').length + (s.underWay ip' + if ip = ip' then 1 else 0) ≤
      s.limiter.maxAttempts
    have hbefore := hs.room ip'
    split_ifs with heq
    · subst heq
      omega
    · omega
  · rw [hway]
    have hbefore := hs.since ip' start hpast hstart
    have hnew : State.failuresSince { s with
        running := s.running.insert request ⟨ip, false⟩, failing := (ip, s.now) :: s.failing }
          ip' start = s.failuresSince ip' start + if ip = ip' then 1 else 0 := by
      have hpast : start ≤ s.now := hpast
      simp [State.failuresSince, List.countP_cons, hpast]
    rw [hnew]
    change _ ≤ recordedSince s.limiter ip' start + _
    omega
  · change ((ip, s.now) :: s.failing).countP _ ≤ s.limiter.maxAttempts
    rw [List.countP_cons]
    change s.failures ip' start (start + s.limiter.window) + _ ≤ _
    by_cases hin : ip = ip' ∧ start ≤ s.now ∧ s.now < start + s.limiter.window
    · obtain ⟨rfl, hpast, hstart⟩ := hin
      have hsince : s.failuresSince ip start ≤
          (s.limiter.onRecord s.now ip).length + s.underWay ip :=
        hs.failuresSince_le hpast hstart
      have hle : s.failures ip start (start + s.limiter.window) ≤ s.failuresSince ip start :=
        failures_le_failuresSince _
      split <;> omega
    · rw [if_neg (by simpa using hin)]
      exact hs.limited ip' start

theorem Accounted.finish_success (hs : Accounted s) (h : s.running.lookup request = some attempt)
    (hsuccess : attempt.success = true) :
    Accounted { s with running := s.running.erase request } := by
  have hway (ip : IpAddr) : State.underWay { s with running := s.running.erase request } ip =
      s.underWay ip := by
    simpa [hsuccess] using (underWay_erase h s.limiter ip).symm
  refine ⟨hs.past, fun ip' => ?_, fun ip' start hpast hstart => ?_, hs.limited⟩
  · rw [hway]
    exact hs.room ip'
  · rw [hway]
    exact hs.since ip' start hpast hstart

/-- The recording of a failure takes it from those under way to those on record. -/
theorem Accounted.finish_failure (hs : Accounted s) (h : s.running.lookup request = some attempt)
    (hfail : attempt.success = false) :
    Accounted { s with
      running := s.running.erase request
      limiter := (s.limiter.checkAndRecord s.now attempt.ip).2 } := by
  have hway (limiter : LoginRateLimiter) (ip : IpAddr) : s.underWay ip =
      State.underWay { s with running := s.running.erase request, limiter := limiter } ip +
        if attempt.ip = ip then 1 else 0 := by
    simpa [hfail] using underWay_erase h limiter ip
  have hroom : (s.limiter.onRecord s.now attempt.ip).length < s.limiter.maxAttempts := by
    have hbefore := hs.room attempt.ip
    have hself := hway s.limiter attempt.ip
    rw [if_pos rfl] at hself
    omega
  rw [checkAndRecord_of_room hroom]
  set recorded : LoginRateLimiter := { s.limiter with
    attempts := s.limiter.attempts.insert attempt.ip
      (s.limiter.onRecord s.now attempt.ip ++ [s.now]) } with hrecorded
  have htimes (ip : IpAddr) : times recorded ip =
      if attempt.ip = ip then s.limiter.onRecord s.now ip ++ [s.now] else times s.limiter ip := by
    split_ifs with heq
    · subst heq
      simp [times, recorded]
    · simp [times, recorded, AList.lookup_insert_ne (Ne.symm heq)]
  refine ⟨hs.past, fun ip => ?_, fun ip start hpast hstart => ?_, hs.limited⟩
  · change (recorded.onRecord s.now ip).length + _ ≤ s.limiter.maxAttempts
    have hbefore := hs.room ip
    have hthis := hway recorded ip
    have hlength : (recorded.onRecord s.now ip).length ≤
        (s.limiter.onRecord s.now ip).length + if attempt.ip = ip then 1 else 0 := by
      change (s.limiter.recent s.now (times recorded ip)).length ≤ _
      rw [htimes]
      split_ifs
      · calc (s.limiter.recent s.now (s.limiter.onRecord s.now ip ++ [s.now])).length
            ≤ (s.limiter.onRecord s.now ip ++ [s.now]).length := List.length_filter_le _ _
          _ = (s.limiter.onRecord s.now ip).length + 1 := List.length_append
      · exact le_rfl
    omega
  · change s.failuresSince ip start ≤ recordedSince recorded ip start + _
    have hbefore := hs.since ip start hpast hstart
    have hthis := hway recorded ip
    have hcount : recordedSince recorded ip start =
        recordedSince s.limiter ip start + if attempt.ip = ip then 1 else 0 := by
      have hforget : (s.limiter.onRecord s.now ip).countP (start ≤ ·) =
          recordedSince s.limiter ip start := by
        change (s.limiter.recent s.now (times s.limiter ip)).countP _ = _
        rw [LoginRateLimiter.recent, List.countP_filter]
        refine List.countP_congr fun t _ => ?_
        have hstart : s.now < start + s.limiter.window := hstart
        have hpast : start ≤ s.now := hpast
        simp only [Bool.and_eq_true, decide_eq_true_eq]
        omega
      have hpast : start ≤ s.now := hpast
      unfold recordedSince at hforget ⊢
      rw [htimes]
      split_ifs
      · simp [hforget, hpast]
      · rfl
    omega

theorem Accounted.tick (hs : Accounted s) (nanos : ℕ) :
    Accounted { s with now := s.now + nanos } := by
  refine ⟨fun a ha => ?_, fun ip => ?_, fun ip start hpast hstart => ?_, hs.limited⟩
  · exact Nat.le_trans (hs.past a ha) (Nat.le_add_right s.now nanos)
  · have hrecorded : (s.limiter.onRecord (s.now + nanos) ip).length ≤
        (s.limiter.onRecord s.now ip).length :=
      onRecord_mono (Nat.le_add_right s.now nanos)
    exact Nat.le_trans (Nat.add_le_add_right hrecorded _) (hs.room ip)
  · by_cases hold : start ≤ s.now
    · have hstart : s.now + nanos < start + s.limiter.window := hstart
      exact hs.since ip start hold (by omega)
    · have hnone : s.failuresSince ip start = 0 := by
        refine List.countP_eq_zero.2 fun a ha => ?_
        have hpast := hs.past a ha
        simp only [decide_eq_true_eq]
        omega
      exact Nat.le_trans (Nat.le_of_eq hnone) (Nat.zero_le _)

theorem accounted_step (hs : Accounted s) (hroom : HasRoom s a) (h : step s a = some t) :
    Accounted t := by
  cases a with
  | login request ip user password success =>
    simp only [step] at h
    split_ifs at h with hin hasks hsuccess
    · cases h
      subst hsuccess
      exact (hs.of_forgets isLimited_forgets).login_success hin
    · cases h
      have hfail : success = false := by simpa using hsuccess
      subst hfail
      refine (hs.of_forgets isLimited_forgets).login_failure hin ?_
      have hforgets : Forgets s.now s.limiter (s.limiter.isLimited s.now ip).2 :=
        isLimited_forgets
      change ((s.limiter.isLimited s.now ip).2.onRecord s.now ip).length + s.underWay ip <
        (s.limiter.isLimited s.now ip).2.maxAttempts
      rw [hforgets.onRecord, hforgets.maxAttempts]
      exact hroom rfl hasks
    · cases h
      exact hs.of_forgets isLimited_forgets
  | finish request =>
    simp only [step] at h
    split at h
    · rename_i attempt hget
      split_ifs at h with hsuccess
      · cases h
        exact hs.finish_success hget hsuccess
      · cases h
        exact hs.finish_failure hget (by simpa using hsuccess)
    · cases h
  | cleanup =>
    cases h
    exact hs.of_forgets cleanup_forgets
  | tick nanos =>
    cases h
    exact hs.tick nanos

end

/-- As long as every authentication that is going to fail is started with room for it, no window
sees more failing authentications of an address than the limit. -/
theorem limited_of_meets (maxAttempts windowSecs : ℕ) (as : List Action) (t : State)
    (hr : run step (.init maxAttempts windowSecs) as = some t)
    (hC : Meets step HasRoom (.init maxAttempts windowSecs) as) : Limited t :=
  (invariant_of_meets (fun _ _ _ => accounted_step) (accounted_init maxAttempts windowSecs) hr
    hC).limited

def guesser : IpAddr := .v4 ⟨203, 0, 113, 7⟩

/-- Two wrong passwords one after the other, and a third attempt that is turned away. -/
def guesses : List Action :=
  [.login 0 guesser "alice" "a" false, .finish 0, .tick (10 ^ 9),
    .login 1 guesser "alice" "b" false, .finish 1, .tick (10 ^ 9),
    .login 2 guesser "alice" "c" false]

theorem limited_guesses : ∃ t, run step (.init 2 300) guesses = some t ∧ Limited t :=
  ⟨_, rfl, limited_of_meets 2 300 guesses _ rfl (by decide)⟩

/-- Three wrong passwords at once. -/
def burst : List Action :=
  [.login 0 guesser "alice" "a" false, .login 1 guesser "alice" "b" false,
    .login 2 guesser "alice" "c" false, .finish 0, .finish 1, .finish 2]

/-- All of a burst get through to PAM, since none is on record when they are checked. -/
theorem burst_unlimited : ∃ t, run step (.init 2 300) burst = some t ∧ ¬ Limited t :=
  ⟨_, rfl, fun h => absurd (h guesser 0) (by decide)⟩

end Login

end Tenodera.Gateway
