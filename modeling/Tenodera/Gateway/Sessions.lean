import Tenodera.Gateway.Relay
import Tenodera.Lib.Run
import Tenodera.Lib.Table

/-!
# The session store

A session of the panel is valid while it is in the store, was active within the idle timeout and is
younger than its maximum lifetime.  `getValid` checks that and renews the activity; `touch` renews
the activity of whatever is in the store.  `expired_iff` says that only such a `touch` brings an
expired session back.
-/

namespace Tenodera.Gateway

open Relay (Role)

/-- `since.elapsed().as_secs()` when the clock reads `now`, in nanoseconds. -/
def elapsedSecs (since now : ℕ) : ℕ := (now - since) / 10 ^ 9

theorem elapsedSecs_self (now : ℕ) : elapsedSecs now now = 0 := by
  simp [elapsedSecs]

theorem elapsedSecs_mono (since : ℕ) {now later : ℕ} (h : now ≤ later) :
    elapsedSecs since now ≤ elapsedSecs since later :=
  Nat.div_le_div_right (Nat.sub_le_sub_right h since)

structure Session where
  id : String
  user : String
  role : Role
  createdAt : ℕ
  lastActivity : ℕ
  deriving DecidableEq, Repr

structure SessionStore where
  inner : AList fun _ : String => Session
  idleTimeoutSecs : ℕ
  /-- Hard upper bound on session age regardless of activity. -/
  maxLifetimeSecs : ℕ

def defaultMaxLifetimeSecs : ℕ := 4 * 3600

namespace SessionStore

def new (idleTimeoutSecs : ℕ) : SessionStore := ⟨∅, idleTimeoutSecs, defaultMaxLifetimeSecs⟩

variable (now : ℕ) (store : SessionStore)

def idleOk (session : Session) : Bool :=
  elapsedSecs session.lastActivity now ≤ store.idleTimeoutSecs

def ageOk (session : Session) : Bool :=
  elapsedSecs session.createdAt now ≤ store.maxLifetimeSecs

/-- `create`, with the uuid it draws. -/
def create (id user : String) (role : Role) : Session × SessionStore :=
  let session : Session := ⟨id, user, role, now, now⟩
  (session, { store with inner := store.inner.insert id session })

def get (id : String) : Option Session := store.inner.lookup id

/-- `get_valid`: an expired session is removed, another one is renewed. -/
def getValid (id : String) : Option Session × SessionStore :=
  match store.inner.lookup id with
  | none => (none, store)
  | some session =>
    if ¬ (store.idleOk now session ∧ store.ageOk now session) then
      (none, { store with inner := store.inner.erase id })
    else
      let session := { session with lastActivity := now }
      (some session, { store with inner := store.inner.insert id session })

def touch (id : String) : SessionStore :=
  match store.inner.lookup id with
  | none => store
  | some session =>
    { store with inner := store.inner.insert id { session with lastActivity := now } }

def remove (id : String) : SessionStore := { store with inner := store.inner.erase id }

def count : ℕ := store.inner.entries.length

def reapExpired : ℕ × SessionStore :=
  let kept := { store with
    inner := store.inner.retain fun _ session =>
      store.idleOk now session && store.ageOk now session }
  (store.count - kept.count, kept)

/-- The session is in the store and within both of its bounds. -/
def isValid (id : String) : Bool :=
  (store.get id).any fun session => store.idleOk now session && store.ageOk now session

/-- The session is in the store and beyond one of its bounds. -/
def isExpired (id : String) : Bool :=
  (store.get id).any fun session => !(store.idleOk now session && store.ageOk now session)

end SessionStore

/-! ## The store over time -/

namespace Sessions

open Transition

/-- The store and the clock.  `drawn` is not part of the gateway: the ids of all sessions so far. -/
structure State where
  store : SessionStore
  now : ℕ
  drawn : List String

def State.init (store : SessionStore) : State := ⟨{ store with inner := ∅ }, 0, []⟩

inductive Action
  | create (id user : String) (role : Role)
  | get (id : String)
  | getValid (id : String)
  | touch (id : String)
  | remove (id : String)
  | reap
  | tick (nanos : ℕ)
  deriving DecidableEq, Repr

/-- One operation on the store, or the passing of time.  A drawn uuid is a new one. -/
def step (s : State) : Action → Option State
  | .create id user role =>
    if id ∈ s.drawn then none
    else some ⟨(s.store.create s.now id user role).2, s.now, id :: s.drawn⟩
  | .get _ => some s
  | .getValid id => some { s with store := (s.store.getValid s.now id).2 }
  | .touch id => some { s with store := s.store.touch s.now id }
  | .remove id => some { s with store := s.store.remove id }
  | .reap => some { s with store := (s.store.reapExpired s.now).2 }
  | .tick nanos => some { s with now := s.now + nanos }

/-! ## What a step does to a session -/

/-- What a step does to the session of an id: nothing, it removes it, renews its activity (a
`getValid` only while it is valid), or puts in a new one. -/
inductive Effect (s t : State) (id : String) : Action → Prop
  | kept {a : Action} (get : t.store.get id = s.store.get id)
      (untouched : a = .touch id → s.store.get id = none) : Effect s t id a
  | gone {a : Action} (get : t.store.get id = none)
      (untouched : a = .touch id → s.store.get id = none) : Effect s t id a
  | touched (session : Session) (old : s.store.get id = some session)
      (get : t.store.get id = some { session with lastActivity := s.now })
      (now : t.now = s.now) : Effect s t id (.touch id)
  | renewed {a : Action} (valid : s.store.isValid s.now id) (session : Session)
      (old : s.store.get id = some session)
      (get : t.store.get id = some { session with lastActivity := s.now })
      (now : t.now = s.now) : Effect s t id a
  | created {user : String} {role : Role} (fresh : id ∉ s.drawn) :
      Effect s t id (.create id user role)

section

variable {s t : State} {a : Action}

theorem create_effect {id user : String} {role : Role} (fresh : id ∉ s.drawn) (id' : String) :
    Effect s ⟨(s.store.create s.now id user role).2, s.now, id :: s.drawn⟩ id'
      (.create id user role) := by
  by_cases h : id' = id
  · subst h
    exact .created fresh
  · exact .kept (AList.lookup_insert_ne h) nofun

theorem getValid_effect (id id' : String) :
    Effect s { s with store := (s.store.getValid s.now id).2 } id' (.getValid id) := by
  unfold SessionStore.getValid
  rcases hget : s.store.inner.lookup id with _ | session
  · exact .kept rfl nofun
  · dsimp only
    split_ifs with hv
    · by_cases h : id' = id
      · subst h
        have hvalid : s.store.isValid s.now id' := by
          simpa [SessionStore.isValid, SessionStore.get, hget] using hv
        exact .renewed hvalid session hget (AList.lookup_insert s.store.inner) rfl
      · exact .kept (AList.lookup_insert_ne h) nofun
    · by_cases h : id' = id
      · subst h
        exact .gone (AList.lookup_erase id' s.store.inner) nofun
      · exact .kept (AList.lookup_erase_ne h) nofun

theorem touch_effect (id id' : String) :
    Effect s { s with store := s.store.touch s.now id } id' (.touch id) := by
  unfold SessionStore.touch
  by_cases h : id' = id
  · subst h
    rcases hget : s.store.inner.lookup id' with _ | session
    · exact .kept rfl fun _ => hget
    · exact .touched session hget (AList.lookup_insert s.store.inner) rfl
  · have hother : Action.touch id = .touch id' → s.store.get id' = none := by
      rintro ⟨⟩
      exact absurd rfl h
    rcases s.store.inner.lookup id with _ | session
    · exact .kept rfl hother
    · exact .kept (AList.lookup_insert_ne h) hother

theorem remove_effect (id id' : String) :
    Effect s { s with store := s.store.remove id } id' (.remove id) := by
  by_cases h : id' = id
  · subst h
    exact .gone (AList.lookup_erase id' s.store.inner) nofun
  · exact .kept (AList.lookup_erase_ne h) nofun

theorem reap_effect (id : String) :
    Effect s { s with store := (s.store.reapExpired s.now).2 } id .reap := by
  rcases hget : (s.store.reapExpired s.now).2.get id with _ | session
  · exact .gone hget nofun
  · have hold : s.store.get id = some session := (AList.lookup_retain_eq_some_iff.1 hget).1
    exact .kept (hget.trans hold.symm) nofun

theorem step_effect (h : step s a = some t) (id : String) : Effect s t id a := by
  cases a with
  | create id' user role =>
    simp only [step] at h
    split_ifs at h with hfresh
    cases h
    exact create_effect hfresh id
  | get id' | tick nanos =>
    cases h
    exact .kept rfl nofun
  | getValid id' =>
    cases h
    exact getValid_effect id' id
  | touch id' =>
    cases h
    exact touch_effect id' id
  | remove id' =>
    cases h
    exact remove_effect id' id
  | reap =>
    cases h
    exact reap_effect id

/-- No operation changes the bounds, and the clock does not go back. -/
theorem step_bounds (h : step s a = some t) :
    t.store.idleTimeoutSecs = s.store.idleTimeoutSecs ∧
      t.store.maxLifetimeSecs = s.store.maxLifetimeSecs ∧ s.now ≤ t.now ∧ s.drawn ⊆ t.drawn := by
  cases a with
  | create id user role =>
    simp only [step] at h
    split_ifs at h
    cases h
    exact ⟨rfl, rfl, le_rfl, List.subset_cons_self id s.drawn⟩
  | getValid id =>
    cases h
    dsimp only [SessionStore.getValid]
    split
    · exact ⟨rfl, rfl, le_rfl, List.Subset.refl _⟩
    · split_ifs <;> exact ⟨rfl, rfl, le_rfl, List.Subset.refl _⟩
  | touch id =>
    cases h
    dsimp only [SessionStore.touch]
    split <;> exact ⟨rfl, rfl, le_rfl, List.Subset.refl _⟩
  | tick nanos =>
    cases h
    exact ⟨rfl, rfl, Nat.le_add_right s.now nanos, List.Subset.refl _⟩
  | get id | remove id | reap =>
    cases h
    exact ⟨rfl, rfl, le_rfl, List.Subset.refl _⟩

/-! ## Expiry -/

/-- `get_valid` does not return the session. -/
def Rejected (id : String) (s : State) : Prop := (s.store.getValid s.now id).1 = none

/-- A touch of the session finds it gone, or beyond its maximum lifetime. -/
def NotRevived (id : String) (s : State) : Action → Prop
  | .touch id' => id' = id → ∀ session ∈ s.store.get id, ¬ s.store.ageOk s.now session
  | _ => True

instance (id : String) (s : State) (a : Action) : Decidable (NotRevived id s a) := by
  rcases a <;> dsimp only [NotRevived] <;> infer_instance

theorem rejected_iff (id : String) : Rejected id s ↔
    ∀ session ∈ s.store.get id, ¬ (s.store.idleOk s.now session ∧ s.store.ageOk s.now session) := by
  unfold Rejected SessionStore.getValid SessionStore.get
  rcases s.store.inner.lookup id with _ | session
  · simp
  · dsimp only
    split_ifs with h
    · simpa using h
    · simpa using h

theorem idleOk_anti {store : SessionStore} {session : Session} {now later : ℕ} (h : now ≤ later)
    (hidle : store.idleOk later session) : store.idleOk now session := by
  unfold SessionStore.idleOk at hidle ⊢
  exact decide_eq_true ((elapsedSecs_mono _ h).trans (of_decide_eq_true hidle))

theorem ageOk_anti {store : SessionStore} {session : Session} {now later : ℕ} (h : now ≤ later)
    (hage : store.ageOk later session) : store.ageOk now session := by
  unfold SessionStore.ageOk at hage ⊢
  exact decide_eq_true ((elapsedSecs_mono _ h).trans (of_decide_eq_true hage))

/-- A session that was active just now is rejected only for its age. -/
theorem rejected_of_touched {id : String} {session : Session}
    (h : t.store.get id = some { session with lastActivity := t.now }) :
    Rejected id t ↔ ¬ t.store.ageOk t.now session := by
  have hidle : t.store.idleOk t.now { session with lastActivity := t.now } := by
    simp [SessionStore.idleOk, elapsedSecs_self]
  rw [rejected_iff, h]
  simp [hidle, SessionStore.ageOk]

theorem notRevived_of_untouched {id : String} (h : a = .touch id → s.store.get id = none) :
    NotRevived id s a := by
  cases a with
  | touch id' =>
    rintro rfl
    rw [h rfl]
    nofun
  | _ => trivial

/-- A rejected session stays rejected unless a touch revives it. -/
theorem rejected_step {id : String} (hid : id ∈ s.drawn) (hP : Rejected id s)
    (h : step s a = some t) : Rejected id t ↔ NotRevived id s a := by
  obtain ⟨hidle, hlife, hnow, -⟩ := step_bounds h
  have hbounds := (rejected_iff id).1 hP
  cases step_effect h id with
  | kept hget untouched =>
    refine iff_of_true ((rejected_iff id).2 fun session hs hv => ?_)
      (notRevived_of_untouched untouched)
    rw [hget] at hs
    refine hbounds session hs ⟨idleOk_anti hnow ?_, ageOk_anti hnow ?_⟩
    · simpa [SessionStore.idleOk, hidle] using hv.1
    · simpa [SessionStore.ageOk, hlife] using hv.2
  | gone hget untouched =>
    refine iff_of_true ((rejected_iff id).2 fun session hs => ?_)
      (notRevived_of_untouched untouched)
    rw [hget] at hs
    cases hs
  | touched session old hget hn =>
    rw [← hn] at hget
    rw [rejected_of_touched hget]
    simp [NotRevived, old, SessionStore.ageOk, hlife, hn]
  | renewed valid session old hget hn =>
    refine absurd ?_ (hbounds session old)
    simpa [SessionStore.isValid, old] using valid
  | created fresh => exact absurd hid fresh

theorem isValid_of_get {store store' : SessionStore} {now : ℕ} {id : String}
    (h : store.isValid now id) (hget : store'.get id = store.get id)
    (hidle : store'.idleTimeoutSecs = store.idleTimeoutSecs)
    (hlife : store'.maxLifetimeSecs = store.maxLifetimeSecs) : store'.isValid now id := by
  simpa only [SessionStore.isValid, SessionStore.idleOk, SessionStore.ageOk, hget, hidle, hlife]
    using h

/-- What `get_valid` returns was active just now. -/
theorem lastActivity_getValid {store store' : SessionStore} {now : ℕ} {id : String}
    {session : Session} (h : store.getValid now id = (some session, store')) :
    session.lastActivity = now := by
  unfold SessionStore.getValid at h
  split at h
  · cases h
  · split_ifs at h with hv
    · cases h
      rfl
    · cases h

/-- A valid session is still valid after a look-up with `get_valid`. -/
theorem isValid_getValid {store : SessionStore} {now : ℕ} {id id' : String}
    (h : store.isValid now id) : (store.getValid now id').2.isValid now id := by
  obtain ⟨session, hget, hv⟩ := (Option.any_eq_true _ _).1 h
  have hlookup : store.inner.lookup id = some session := hget
  unfold SessionStore.getValid
  by_cases heq : id = id'
  · subst heq
    rw [hlookup]
    dsimp only
    rw [if_neg (by simpa using hv)]
    simpa [SessionStore.isValid, SessionStore.get, SessionStore.idleOk, SessionStore.ageOk,
      elapsedSecs_self] using (Bool.and_eq_true_iff.1 hv).2
  · rcases store.inner.lookup id' with _ | session'
    · exact h
    · dsimp only
      split_ifs
      · exact isValid_of_get h (AList.lookup_insert_ne heq) rfl rfl
      · exact isValid_of_get h (AList.lookup_erase_ne heq) rfl rfl

/-- A session that is touched is valid if it is in the store and young enough. -/
theorem isValid_touch_self {store : SessionStore} {now : ℕ} {id : String}
    (h : (store.get id).any (store.ageOk now)) : (store.touch now id).isValid now id := by
  obtain ⟨session, hget, hage⟩ := (Option.any_eq_true _ _).1 h
  have hlookup : store.inner.lookup id = some session := hget
  unfold SessionStore.touch
  rw [hlookup]
  simpa [SessionStore.isValid, SessionStore.get, SessionStore.idleOk, SessionStore.ageOk,
    elapsedSecs_self] using hage

theorem isValid_touch {store : SessionStore} {now : ℕ} {id id' : String}
    (h : store.isValid now id) : (store.touch now id').isValid now id := by
  by_cases heq : id = id'
  · subst heq
    obtain ⟨session, hget, hv⟩ := (Option.any_eq_true _ _).1 h
    exact isValid_touch_self ((Option.any_eq_true _ _).2
      ⟨session, hget, (Bool.and_eq_true_iff.1 hv).2⟩)
  · unfold SessionStore.touch
    rcases store.inner.lookup id' with _ | session'
    · exact h
    · exact isValid_of_get h (AList.lookup_insert_ne heq) rfl rfl

/-- The sessions in the store have been drawn. -/
def Drawn (s : State) : Prop := ∀ id session, s.store.get id = some session → id ∈ s.drawn

theorem drawn_step (hs : Drawn s) (h : step s a = some t) : Drawn t := by
  intro id session hget
  obtain ⟨-, -, -, hdrawn⟩ := step_bounds h
  cases step_effect h id with
  | kept heq _ => exact hdrawn (hs id session (heq ▸ hget))
  | gone heq _ => cases heq.symm.trans hget
  | touched session' old _ _ | renewed _ session' old _ _ => exact hdrawn (hs id session' old)
  | created fresh =>
    simp only [step, if_neg fresh] at h
    cases h
    exact List.mem_cons_self

end

/-- From a moment at which a session is expired, `get_valid` rejects it throughout exactly when
every later touch of it finds it gone or beyond its maximum lifetime. -/
theorem expired_iff (store : SessionStore) (as bs : List Action) (s t : State) (id : String)
    (hs : run step (.init store) as = some s) (hexp : s.store.isExpired s.now id)
    (ht : run step s bs = some t) :
    Always step (Rejected id) s bs ↔ Meets step (NotRevived id) s bs := by
  obtain ⟨session, hget, hbound⟩ := (Option.any_eq_true _ _).1 hexp
  have hdrawn : Drawn s :=
    invariant_of_run (fun _ _ _ => drawn_step) (fun id _ h => by cases h) hs
  refine always_iff_meets (I := fun u => id ∈ u.drawn) (fun u a v hu h => ?_)
    (fun u a v hu hP h => rejected_step hu hP h) (hdrawn id session hget) ?_ ht
  · exact (step_bounds h).2.2.2 hu
  · refine (rejected_iff id).2 fun session' hs' hv => ?_
    cases hget.symm.trans hs'
    simp [hv.1, hv.2] at hbound

/-- Alice logs in and goes idle for 901 seconds, one more than the idle timeout. -/
def idles : List Action := [.create "3f2b" "alice" .admin, .tick (901 * 10 ^ 9)]

theorem expired_idles : ∃ s t, run step (.init (.new 900)) idles = some s ∧
    run step s [.getValid "3f2b", .touch "3f2b", .reap] = some t ∧
    Always step (Rejected "3f2b") s [.getValid "3f2b", .touch "3f2b", .reap] :=
  ⟨_, _, rfl, rfl, (expired_iff (.new 900) idles [.getValid "3f2b", .touch "3f2b", .reap] _ _ "3f2b"
    rfl (by decide) rfl).2 (by decide)⟩

/-- A touch before the next pass of the reaper makes the expired session valid again. -/
theorem touch_revives : ∃ s t session, run step (.init (.new 900)) idles = some s ∧
    s.store.isExpired s.now "3f2b" ∧ run step s [.touch "3f2b"] = some t ∧
    (t.store.getValid t.now "3f2b").1 = some session :=
  ⟨_, _, _, rfl, by decide, rfl, rfl⟩

end Sessions

end Tenodera.Gateway
