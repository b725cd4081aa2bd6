import Tenodera.Gateway.RateLimit
import Tenodera.Lib.Text

/-!
# The laws of the login limiter

A run of the limiter is a list of atomic calls with the instants at which they hold its lock.  Its
answers are those of the history of the attempts let through so far (`trace_eq_traceOf`): of that
history, the hash map keeps for each address what the window still reaches (`Tracks`).  Everything
`laws` says about the limiter is proved of the history.
-/

namespace Tenodera.Gateway.LoginRateLimiter

/-- `max_startups` of the configuration, from `TENODERA_MAX_STARTUPS`: the limit that the gateway
makes its limiter with. -/
def maxStartups (env : Option String) : ℕ :=
  match env.bind (Text.parseUnsigned 64) with
  | some n => max n 1
  | none => 20

theorem maxStartups_pos (env : Option String) : 0 < maxStartups env := by
  unfold maxStartups
  split <;> omega

/-! ## Calls -/

inductive Call
  | isLimited (ip : IpAddr)
  | checkAndRecord (ip : IpAddr)
  | cleanup
  deriving DecidableEq

/-- The address that a call is for. -/
def Call.ip : Call → Option IpAddr
  | isLimited ip | checkAndRecord ip => some ip
  | cleanup => none

/-- The call can record an attempt. -/
def Call.records : Call → Bool
  | checkAndRecord _ => true
  | isLimited _ | cleanup => false

/-- The answer to a call, and the limiter after it. -/
def call (now : ℕ) (limiter : LoginRateLimiter) : Call → Option Bool × LoginRateLimiter
  | .isLimited ip => (some (limiter.isLimited now ip).1, (limiter.isLimited now ip).2)
  | .checkAndRecord ip =>
    (some (limiter.checkAndRecord now ip).1, (limiter.checkAndRecord now ip).2)
  | .cleanup => (none, limiter.cleanup now)

/-- The limiter after the calls. -/
def afterCalls : LoginRateLimiter → List (ℕ × Call) → LoginRateLimiter
  | limiter, [] => limiter
  | limiter, (now, c) :: calls => afterCalls (limiter.call now c).2 calls

/-- The calls with their answers. -/
def trace : LoginRateLimiter → List (ℕ × Call) → List ((ℕ × Call) × Option Bool)
  | _, [] => []
  | limiter, (now, c) :: calls =>
    ((now, c), (limiter.call now c).1) :: trace (limiter.call now c).2 calls

/-- The recorded attempt of a call that was let through. -/
def passed : (ℕ × Call) × Option Bool → Option (IpAddr × ℕ)
  | ((now, .checkAndRecord ip), some false) => some (ip, now)
  | _ => none

/-- The attempts that `check_and_record` lets through. -/
def letThrough (limiter : LoginRateLimiter) (calls : List (ℕ × Call)) : List (IpAddr × ℕ) :=
  (trace limiter calls).filterMap passed

/-- The clock does not go back. -/
def Chronological (calls : List (ℕ × Call)) : Prop := calls.Pairwise fun c d => c.1 ≤ d.1

instance (calls : List (ℕ × Call)) : Decidable (Chronological calls) :=
  inferInstanceAs (Decidable (calls.Pairwise _))

/-! ## Histories -/

/-- How many attempts of an address lie in an interval that includes its start. -/
def countFrom (attempts : List (IpAddr × ℕ)) (ip : IpAddr) (start stop : ℕ) : ℕ :=
  attempts.countP fun a => a.1 = ip ∧ start ≤ a.2 ∧ a.2 < stop

/-- How many attempts of an address lie in an interval that includes its end. -/
def countTo (attempts : List (IpAddr × ℕ)) (ip : IpAddr) (start stop : ℕ) : ℕ :=
  attempts.countP fun a => a.1 = ip ∧ start < a.2 ∧ a.2 ≤ stop

/-- The attempts of an address that the window reaches, of a history with the latest first. -/
def reached (window now : ℕ) (ip : IpAddr) (history : List (IpAddr × ℕ)) : List (IpAddr × ℕ) :=
  history.filter fun a => a.1 = ip ∧ now - a.2 < window

section

variable (maxAttempts window now : ℕ) (history : List (IpAddr × ℕ))

/-- The answer that the history gives. -/
def answerOf : Call → Option Bool
  | .isLimited ip | .checkAndRecord ip =>
    some (maxAttempts ≤ (reached window now ip history).length)
  | .cleanup => none

/-- The history after a call. -/
def recordedBy (c : Call) : List (IpAddr × ℕ) :=
  (passed ((now, c), answerOf maxAttempts window now history c)).toList ++ history

/-- The calls with the answers that the history gives. -/
def traceOf (history : List (IpAddr × ℕ)) :
    List (ℕ × Call) → List ((ℕ × Call) × Option Bool)
  | [] => []
  | (now, c) :: calls =>
    ((now, c), answerOf maxAttempts window now history c) ::
      traceOf (recordedBy maxAttempts window now history c) calls

end

/-! ## The limiter keeps the history -/

section

open Login (times Forgets)

variable {limiter limiter' : LoginRateLimiter} {history : List (IpAddr × ℕ)}
  {calls : List (ℕ × Call)} {clock now later start : ℕ} {ip ip' : IpAddr} {c : Call}

/-- Of every address, the limiter has as many attempts in the window on record as the history, at
every instant from the clock on. -/
def Tracks (history : List (IpAddr × ℕ)) (clock : ℕ) (limiter : LoginRateLimiter) : Prop :=
  ∀ now ip, clock ≤ now →
    limiter.recent now (times limiter ip) =
      ((reached limiter.window now ip history).map Prod.snd).reverse

theorem recent_recent_of_le (h : now ≤ later) (l : List ℕ) :
    limiter.recent later (limiter.recent now l) = limiter.recent later l := by
  unfold recent
  rw [List.filter_filter]
  refine List.filter_congr fun t _ => ?_
  rw [Bool.and_eq_left_iff_imp]
  simp only [decide_eq_true_eq]
  omega

theorem tracks_new (maxAttempts windowSecs : ℕ) :
    Tracks [] 0 (.new maxAttempts windowSecs) := fun _ _ _ => rfl

/-- What `is_limited` and `cleanup` forget is out of the window for good. -/
theorem Tracks.of_forgets (h : Tracks history clock limiter) (hnow : clock ≤ now)
    (hforgets : Forgets now limiter limiter') : Tracks history now limiter' := by
  intro later ip hlater
  have hrecent (l : List ℕ) : limiter'.recent later l = limiter.recent later l := by
    simp only [recent, hforgets.window]
  rw [hrecent, hforgets.window, ← h later ip (Nat.le_trans hnow hlater)]
  rcases hforgets.kept ip with heq | heq
  · rw [heq]
  · rw [heq, recent_recent_of_le hlater]

theorem Tracks.length (h : Tracks history clock limiter) (hnow : clock ≤ now) :
    (limiter.recent now (times limiter ip)).length =
      (reached limiter.window now ip history).length := by
  rw [h now ip hnow, List.length_reverse, List.length_map]

/-- `check_and_record`, with both of its branches: what stays on record, and the new attempt if it
is let through. -/
theorem checkAndRecord_eq : limiter.checkAndRecord now ip =
    (decide (limiter.maxAttempts ≤ (limiter.recent now (times limiter ip)).length),
      { limiter with
        attempts := limiter.attempts.insert ip
          (limiter.recent now (times limiter ip) ++
            if limiter.maxAttempts ≤ (limiter.recent now (times limiter ip)).length then []
            else [now]) }) := by
  unfold checkAndRecord times
  split_ifs with hfull
  · simp [hfull]
  · simp [hfull]

theorem times_checkAndRecord (ip' : IpAddr) :
    times (limiter.checkAndRecord now ip).2 ip' =
      if ip' = ip then
        limiter.recent now (times limiter ip) ++
          if limiter.maxAttempts ≤ (limiter.recent now (times limiter ip)).length then [] else [now]
      else times limiter ip' := by
  rw [checkAndRecord_eq]
  by_cases heq : ip' = ip
  · subst heq
    simp [times]
  · simp [times, heq, AList.lookup_insert_ne heq]

theorem reached_cons (window : ℕ) (a : IpAddr × ℕ) :
    reached window now ip (a :: history) =
      (if a.1 = ip ∧ now - a.2 < window then [a] else []) ++ reached window now ip history := by
  unfold reached
  rw [List.filter_cons]
  split_ifs <;> simp_all

/-- `check_and_record` keeps the limiter in step with the history. -/
theorem Tracks.checkAndRecord (h : Tracks history clock limiter) (hnow : clock ≤ now) :
    Tracks (recordedBy limiter.maxAttempts limiter.window now history (.checkAndRecord ip)) now
      (limiter.checkAndRecord now ip).2 := by
  intro later ip' hlater
  have hrecent (l : List ℕ) :
      (limiter.checkAndRecord now ip).2.recent later l = limiter.recent later l := by
    rw [checkAndRecord_eq]
    rfl
  have hwindow : (limiter.checkAndRecord now ip).2.window = limiter.window := by
    rw [checkAndRecord_eq]
  have hbefore := h later ip' (Nat.le_trans hnow hlater)
  rw [hrecent, hwindow, times_checkAndRecord, h.length hnow]
  have hpassed : recordedBy limiter.maxAttempts limiter.window now history (.checkAndRecord ip) =
      (if limiter.maxAttempts ≤ (reached limiter.window now ip history).length then []
        else [(ip, now)]) ++ history := by
    unfold recordedBy answerOf
    split_ifs with hfull <;> simp [passed, hfull]
  rw [hpassed]
  by_cases heq : ip' = ip
  · subst heq
    rw [if_pos rfl]
    split_ifs with hfull
    · rw [List.append_nil, recent_recent_of_le hlater, hbefore]
      rfl
    · have hold : limiter.recent later (limiter.recent now (times limiter ip')) =
          limiter.recent later (times limiter ip') := recent_recent_of_le hlater _
      unfold recent at hold hbefore ⊢
      rw [List.filter_append, hold, hbefore]
      simp only [List.singleton_append, reached_cons]
      by_cases hin : later - now < limiter.window <;> simp [hin]
  · rw [if_neg heq, hbefore]
    split_ifs with hfull
    · rfl
    · have hother : ¬ (ip = ip' ∧ later - now < limiter.window) := fun hin => heq hin.1.symm
      rw [List.singleton_append, reached_cons, if_neg hother, List.nil_append]

theorem isLimited_answer (hmax : 0 < limiter.maxAttempts) :
    (limiter.isLimited now ip).1 =
      decide (limiter.maxAttempts ≤ (limiter.recent now (times limiter ip)).length) := by
  unfold isLimited times
  rcases limiter.attempts.lookup ip with _ | found
  · exact (decide_eq_false (Nat.not_le_of_lt hmax)).symm
  · rfl

/-- The answer to a call, and what the limiter keeps after it, are those of the history. -/
theorem Tracks.call (h : Tracks history clock limiter) (hnow : clock ≤ now)
    (hmax : 0 < limiter.maxAttempts) (c : Call) :
    (limiter.call now c).1 = answerOf limiter.maxAttempts limiter.window now history c ∧
      Tracks (recordedBy limiter.maxAttempts limiter.window now history c) now
        (limiter.call now c).2 := by
  cases c with
  | isLimited ip =>
    refine ⟨?_, h.of_forgets hnow Login.isLimited_forgets⟩
    change some _ = some _
    rw [isLimited_answer hmax, h.length hnow]
  | checkAndRecord ip =>
    refine ⟨?_, h.checkAndRecord hnow⟩
    change some _ = some _
    rw [checkAndRecord_eq, h.length hnow]
  | cleanup => exact ⟨rfl, h.of_forgets hnow Login.cleanup_forgets⟩

theorem maxAttempts_call : (limiter.call now c).2.maxAttempts = limiter.maxAttempts := by
  cases c with
  | isLimited ip => exact Login.isLimited_forgets.maxAttempts
  | checkAndRecord ip =>
    change (limiter.checkAndRecord now ip).2.maxAttempts = _
    rw [checkAndRecord_eq]
  | cleanup => rfl

theorem window_call : (limiter.call now c).2.window = limiter.window := by
  cases c with
  | isLimited ip => exact Login.isLimited_forgets.window
  | checkAndRecord ip =>
    change (limiter.checkAndRecord now ip).2.window = _
    rw [checkAndRecord_eq]
  | cleanup => rfl

/-- The answers to a run are those of the history. -/
theorem Tracks.trace_eq (h : Tracks history clock limiter) (hmax : 0 < limiter.maxAttempts)
    (hcalls : Chronological calls) (hclock : ∀ c ∈ calls, clock ≤ c.1) :
    trace limiter calls = traceOf limiter.maxAttempts limiter.window history calls := by
  induction calls generalizing limiter history clock with
  | nil => rfl
  | cons call calls ih =>
    obtain ⟨now, c⟩ := call
    obtain ⟨hlater, hcalls⟩ := List.pairwise_cons.1 hcalls
    obtain ⟨hanswer, htracks⟩ := h.call (hclock _ List.mem_cons_self) hmax c
    have hrest := ih htracks (by rwa [maxAttempts_call]) hcalls hlater
    rw [maxAttempts_call, window_call] at hrest
    rw [trace, traceOf, hanswer, hrest]

/-- After any run, the limiter keeps some history. -/
theorem exists_tracks_afterCalls (h : Tracks history clock limiter)
    (hmax : 0 < limiter.maxAttempts) (hcalls : Chronological calls)
    (hclock : ∀ c ∈ calls, clock ≤ c.1) {last : ℕ} (hclockLast : clock ≤ last)
    (hlast : ∀ c ∈ calls, c.1 ≤ last) :
    (∃ history, Tracks history last (afterCalls limiter calls)) ∧
      (afterCalls limiter calls).maxAttempts = limiter.maxAttempts := by
  induction calls generalizing limiter history clock with
  | nil => exact ⟨⟨history, fun now ip hnow => h now ip (Nat.le_trans hclockLast hnow)⟩, rfl⟩
  | cons call calls ih =>
    obtain ⟨now, c⟩ := call
    obtain ⟨hlater, hcalls⟩ := List.pairwise_cons.1 hcalls
    obtain ⟨-, htracks⟩ := h.call (hclock _ List.mem_cons_self) hmax c
    have hrest := ih htracks (by rwa [maxAttempts_call]) hcalls hlater
      (hlast _ List.mem_cons_self) fun c hc => hlast c (List.mem_cons_of_mem _ hc)
    rwa [maxAttempts_call] at hrest

/-! ## What holds of histories -/

variable {maxAttempts window : ℕ}

theorem recordedBy_of_not_records (h : c.records = false) :
    recordedBy maxAttempts window now history c = history := by
  cases c with
  | isLimited ip => rfl
  | checkAndRecord ip => cases h
  | cleanup => rfl

/-- A call lets through only what there is room for. -/
theorem of_passed {a : IpAddr × ℕ}
    (h : passed ((now, c), answerOf maxAttempts window now history c) = some a) :
    c = .checkAndRecord a.1 ∧ a.2 = now ∧
      (reached window now a.1 history).length < maxAttempts := by
  cases c with
  | isLimited ip => cases h
  | cleanup => cases h
  | checkAndRecord ip =>
    by_cases hfull : maxAttempts ≤ (reached window now ip history).length
    · simp only [answerOf, decide_eq_true hfull] at h
      cases h
    · simp only [answerOf, decide_eq_false hfull] at h
      cases h
      exact ⟨rfl, rfl, Nat.lt_of_not_le hfull⟩

theorem traceOf_cons (calls : List (ℕ × Call)) :
    (traceOf maxAttempts window history ((now, c) :: calls)).filterMap passed =
      (passed ((now, c), answerOf maxAttempts window now history c)).toList ++
        (traceOf maxAttempts window (recordedBy maxAttempts window now history c)
          calls).filterMap passed := by
  rw [traceOf, List.filterMap_cons]
  cases passed ((now, c), answerOf maxAttempts window now history c) <;> rfl

/-- Attempts that the window spans, whichever two of them are compared, are at most as many as the
limit. -/
theorem countP_passed_add_le {p : IpAddr × ℕ → Bool}
    (hp : ∀ a b, p a → p b → a.1 = b.1 ∧ a.2 - b.2 < window)
    (h : history.countP p ≤ maxAttempts) :
    ((traceOf maxAttempts window history calls).filterMap passed).countP p + history.countP p ≤
      maxAttempts := by
  induction calls generalizing history with
  | nil => simpa [traceOf] using h
  | cons call calls ih =>
    obtain ⟨now, c⟩ := call
    have hstep : (recordedBy maxAttempts window now history c).countP p ≤ maxAttempts := by
      unfold recordedBy
      cases hpassed : passed ((now, c), answerOf maxAttempts window now history c) with
      | none => exact h
      | some a =>
        obtain ⟨-, rfl, hroom⟩ := of_passed hpassed
        change (a :: history).countP p ≤ maxAttempts
        by_cases ha : p a
        · have hreached : history.countP p ≤ (reached window a.2 a.1 history).length := by
            rw [reached, ← List.countP_eq_length_filter]
            refine List.countP_mono_left fun b _ hb => ?_
            obtain ⟨hip, hnear⟩ := hp a b ha hb
            exact decide_eq_true ⟨hip.symm, hnear⟩
          rw [List.countP_cons_of_pos ha]
          omega
        · rwa [List.countP_cons_of_neg ha]
    have hrest := ih hstep
    have happend : (recordedBy maxAttempts window now history c).countP p =
        (passed ((now, c), answerOf maxAttempts window now history c)).toList.countP p +
          history.countP p := List.countP_append
    rw [traceOf_cons, List.countP_append]
    omega

theorem countP_passed_le {p : IpAddr × ℕ → Bool}
    (hp : ∀ a b, p a → p b → a.1 = b.1 ∧ a.2 - b.2 < window) :
    ((traceOf maxAttempts window [] calls).filterMap passed).countP p ≤ maxAttempts := by
  have hadd : ((traceOf maxAttempts window [] calls).filterMap passed).countP p +
      ([] : List (IpAddr × ℕ)).countP p ≤ maxAttempts :=
    countP_passed_add_le hp (Nat.zero_le _)
  exact hadd

/-- The answers for one address depend on its attempts only. -/
theorem filter_traceOf {history' : List (IpAddr × ℕ)}
    (h : ∀ now, reached window now ip history = reached window now ip history') :
    (traceOf maxAttempts window history calls).filter (fun e => e.1.2.ip = some ip) =
      traceOf maxAttempts window history' (calls.filter fun c => c.2.ip = some ip) := by
  induction calls generalizing history history' with
  | nil => rfl
  | cons call calls ih =>
    obtain ⟨now, c⟩ := call
    by_cases hip : c.ip = some ip
    · have hanswer : answerOf maxAttempts window now history c =
          answerOf maxAttempts window now history' c := by
        cases c with
        | cleanup => rfl
        | isLimited ip' | checkAndRecord ip' =>
          cases hip
          simp only [answerOf, h]
      have hrest (later : ℕ) :
          reached window later ip (recordedBy maxAttempts window now history c) =
            reached window later ip (recordedBy maxAttempts window now history' c) := by
        unfold recordedBy
        rw [hanswer]
        unfold reached at h ⊢
        rw [List.filter_append, List.filter_append, h]
      rw [traceOf, List.filter_cons_of_pos (by simpa using hip),
        List.filter_cons_of_pos (by simpa using hip), traceOf, hanswer, ih hrest]
    · have hrest (later : ℕ) :
          reached window later ip (recordedBy maxAttempts window now history c) =
            reached window later ip history' := by
        rw [← h]
        unfold recordedBy
        cases hpassed : passed ((now, c), answerOf maxAttempts window now history c) with
        | none => rfl
        | some a =>
          obtain ⟨rfl, -, -⟩ := of_passed hpassed
          have hother : ¬ (a.1 = ip ∧ later - a.2 < window) := fun hin => hip (congrArg some hin.1)
          change reached window later ip (a :: history) = _
          rw [reached_cons, if_neg hother, List.nil_append]
      rw [traceOf, List.filter_cons_of_neg (by simpa using hip),
        List.filter_cons_of_neg (by simpa using hip), ih hrest]

end

/-! ## The laws -/

/-- Of an address, at most `maxAttempts` attempts in an interval of the window's length are let
through; `is_limited` and `cleanup` change no later answer; and the answers for an address are those
of the run in which only its calls occur. -/
theorem laws (maxAttempts windowSecs : ℕ) (hmax : 0 < maxAttempts) (calls : List (ℕ × Call))
    (hcalls : Chronological calls) :
    (∀ ip start,
      countFrom (letThrough (.new maxAttempts windowSecs) calls) ip start
          (start + windowSecs * 10 ^ 9) ≤ maxAttempts ∧
        countTo (letThrough (.new maxAttempts windowSecs) calls) ip start
          (start + windowSecs * 10 ^ 9) ≤ maxAttempts) ∧
    (∀ before now c after, calls = before ++ (now, c) :: after → c.records = false →
      trace ((afterCalls (.new maxAttempts windowSecs) before).call now c).2 after =
        trace (afterCalls (.new maxAttempts windowSecs) before) after) ∧
    ∀ ip, (trace (.new maxAttempts windowSecs) calls).filter (fun e => e.1.2.ip = some ip) =
      trace (.new maxAttempts windowSecs) (calls.filter fun c => c.2.ip = some ip) := by
  have hnew : Tracks [] 0 (.new maxAttempts windowSecs) := tracks_new maxAttempts windowSecs
  refine ⟨fun ip start => ?_, fun before now c after heq hc => ?_, fun ip => ?_⟩
  · unfold letThrough
    rw [hnew.trace_eq hmax hcalls fun _ _ => Nat.zero_le _]
    constructor
    · refine countP_passed_le fun a b ha hb => ?_
      simp only [decide_eq_true_eq] at ha hb
      refine ⟨ha.1.trans hb.1.symm, ?_⟩
      change a.2 - b.2 < windowSecs * 10 ^ 9
      omega
    · refine countP_passed_le fun a b ha hb => ?_
      simp only [decide_eq_true_eq] at ha hb
      refine ⟨ha.1.trans hb.1.symm, ?_⟩
      change a.2 - b.2 < windowSecs * 10 ^ 9
      omega
  · subst heq
    obtain ⟨hbefore, hrest, hacross⟩ := List.pairwise_append.1 hcalls
    obtain ⟨hlater, hafter⟩ := List.pairwise_cons.1 hrest
    obtain ⟨⟨history, htracks⟩, hlimit⟩ := exists_tracks_afterCalls hnew hmax hbefore
      (fun _ _ => Nat.zero_le _) (Nat.zero_le now) fun d hd => hacross d hd _ List.mem_cons_self
    have hroom : 0 < (afterCalls (.new maxAttempts windowSecs) before).maxAttempts := by
      rw [hlimit]
      exact hmax
    obtain ⟨-, hcalled⟩ := htracks.call le_rfl hroom c
    rw [recordedBy_of_not_records hc] at hcalled
    rw [htracks.trace_eq hroom hafter hlater,
      hcalled.trace_eq (by rwa [maxAttempts_call]) hafter hlater, maxAttempts_call, window_call]
  · rw [hnew.trace_eq hmax hcalls fun _ _ => Nat.zero_le _,
      hnew.trace_eq hmax (hcalls.filter _) fun _ _ => Nat.zero_le _]
    exact filter_traceOf fun _ => rfl

/-- A guesser at the limit, with another client and the clean-up in between. -/
def guesserCalls : List (ℕ × Call) :=
  [(0, .checkAndRecord Login.guesser), (10 ^ 9, .isLimited (.v4 ⟨198, 51, 100, 9⟩)),
    (2 * 10 ^ 9, .checkAndRecord Login.guesser), (3 * 10 ^ 9, .cleanup),
    (4 * 10 ^ 9, .checkAndRecord Login.guesser)]

theorem laws_guesserCalls : 0 < maxStartups (some "2") ∧ Chronological guesserCalls ∧
    countFrom (letThrough (.new (maxStartups (some "2")) 300) guesserCalls) Login.guesser 0
      (0 + 300 * 10 ^ 9) ≤ maxStartups (some "2") :=
  ⟨maxStartups_pos _, by decide,
    ((laws (maxStartups (some "2")) 300 (maxStartups_pos _) guesserCalls (by decide)).1
      Login.guesser 0).1⟩

end Tenodera.Gateway.LoginRateLimiter
