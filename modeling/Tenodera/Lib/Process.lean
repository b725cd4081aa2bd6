import Mathlib.Data.List.Basic

/-!
# Users and groups of a process

The ids that the kernel keeps for a process and the system calls that change them, where the
privilege to change them at will is that of the effective user 0.  A process whose user ids are all
the same and not 0 is settled: no call changes anything, until a set-user-ID file is executed.
-/

namespace Process

/-- A real, an effective and a saved id. -/
@[ext]
structure Id where
  real : ℕ
  effective : ℕ
  saved : ℕ
  deriving DecidableEq

/-- All three of the same value. -/
def Id.all (n : ℕ) : Id := ⟨n, n, n⟩

/-- What the kernel knows of a process. -/
@[ext]
structure Credentials where
  user : Id
  group : Id
  supplementary : List ℕ
  deriving DecidableEq

/-- The system calls; an argument that is `none` stands for `-1`. -/
inductive Call
  | setuid (uid : ℕ)
  | setgid (gid : ℕ)
  | setgroups (gids : List ℕ)
  | setreuid (real effective : Option ℕ)
  | setregid (real effective : Option ℕ)
  | setresuid (real effective saved : Option ℕ)
  | setresgid (real effective saved : Option ℕ)
  /-- The owner and the group of a file that is executed, when its set-user-ID and its set-group-ID
  bit are on. -/
  | execve (owner group : Option ℕ)

def privileged (c : Credentials) : Bool := c.user.effective = 0

/-- `setuid` and `setgid`, which leave real and saved id alone without the privilege. -/
def Id.set (p : Bool) (n : ℕ) (i : Id) : Option Id :=
  if p then some (.all n)
  else if n = i.real ∨ n = i.saved then some { i with effective := n }
  else none

/-- `setreuid` and `setregid`: a new real id, or an effective one that is not the old real id, is
saved as well. -/
def Id.setRealEffective (p : Bool) (real effective : Option ℕ) (i : Id) : Option Id :=
  if p ∨ (∀ r ∈ real, r = i.real ∨ r = i.effective) ∧
      ∀ e ∈ effective, e = i.real ∨ e = i.effective ∨ e = i.saved then
    some
      { real := real.getD i.real
        effective := effective.getD i.effective
        saved :=
          if real.isSome ∨ ∃ e ∈ effective, e ≠ i.real then effective.getD i.effective
          else i.saved }
  else none

/-- `setresuid` and `setresgid`. -/
def Id.setAll (p : Bool) (real effective saved : Option ℕ) (i : Id) : Option Id :=
  if p ∨ ∀ n ∈ [real, effective, saved], ∀ m ∈ n, m = i.real ∨ m = i.effective ∨ m = i.saved then
    some ⟨real.getD i.real, effective.getD i.effective, saved.getD i.saved⟩
  else none

/-- `execve`, with the owner of the file when it is to be taken on. -/
def Id.execute (owner : Option ℕ) (i : Id) : Id :=
  ⟨i.real, owner.getD i.effective, owner.getD i.effective⟩

def Credentials.withUser (c : Credentials) (i : Id) : Credentials := { c with user := i }

def Credentials.withGroup (c : Credentials) (i : Id) : Credentials := { c with group := i }

/-- What a call makes of the credentials, or nothing when the process has no right to it. -/
def Call.apply (c : Credentials) : Call → Option Credentials
  | .setuid uid => (c.user.set (privileged c) uid).map c.withUser
  | .setgid gid => (c.group.set (privileged c) gid).map c.withGroup
  | .setgroups gids => if privileged c then some { c with supplementary := gids } else none
  | .setreuid real effective =>
    (c.user.setRealEffective (privileged c) real effective).map c.withUser
  | .setregid real effective =>
    (c.group.setRealEffective (privileged c) real effective).map c.withGroup
  | .setresuid real effective saved =>
    (c.user.setAll (privileged c) real effective saved).map c.withUser
  | .setresgid real effective saved =>
    (c.group.setAll (privileged c) real effective saved).map c.withGroup
  | .execve owner group =>
    some ((c.withUser (c.user.execute owner)).withGroup (c.group.execute group))

/-- A call that may also fail for a reason of its own. -/
def Call.attempt (fault : Option String) (c : Credentials) (call : Call) :
    Except String Credentials :=
  match fault with
  | some error => .error error
  | none =>
    match call.apply c with
    | some t => .ok t
    | none => .error "Operation not permitted (os error 1)"

/-- The credentials after some calls, whether they succeed or not. -/
def Credentials.after (c : Credentials) (calls : List Call) : Credentials :=
  calls.foldl (fun c call => (call.apply c).getD c) c

/-- Not the execution of a file that gives away the ids of its owner. -/
def Call.isPlain : Call → Bool
  | .execve owner group => owner.isNone && group.isNone
  | _ => true

/-- No way back to another user. -/
structure Settled (c : Credentials) : Prop where
  user : ∃ uid, uid ≠ 0 ∧ c.user = .all uid
  group : ∃ gid, c.group = .all gid

variable {c t : Credentials} {call : Call} {calls : List Call} {j : Id}
  {real effective saved : Option ℕ} {n m : ℕ}

/-! ## Calls that fail -/

theorem mapError_eq_ok_iff {ε ε' α : Type} {f : ε → ε'} {x : Except ε α} {a : α} :
    x.mapError f = .ok a ↔ x = .ok a := by
  cases x <;> simp [Except.mapError]

theorem bind_eq_ok_iff {ε α β : Type} {x : Except ε α} {f : α → Except ε β} {b : β} :
    (x >>= f) = .ok b ↔ ∃ a, x = .ok a ∧ f a = .ok b := by
  cases x with
  | error e => exact iff_of_false (fun h => nomatch h) (fun ⟨_, h, _⟩ => nomatch h)
  | ok a => simp [bind, Except.bind]

theorem attempt_eq_ok_iff {fault : Option String} :
    call.attempt fault c = .ok t ↔ fault = none ∧ call.apply c = some t := by
  unfold Call.attempt
  cases fault with
  | some error => simp
  | none => cases call.apply c <;> simp

/-! ## Calls with the privilege -/

theorem Credentials.settled {uid gid : ℕ} (h : uid ≠ 0) (gids : List ℕ) :
    Settled ⟨.all uid, .all gid, gids⟩ :=
  ⟨⟨uid, h, rfl⟩, ⟨gid, rfl⟩⟩

theorem setuid_eq_some_iff (h : privileged c = true) :
    (Call.setuid n).apply c = some t ↔ t = { c with user := .all n } := by
  rw [Call.apply, h, Id.set, if_pos rfl, Option.map_some, Option.some_inj, eq_comm]
  rfl

theorem setgid_eq_some_iff (h : privileged c = true) :
    (Call.setgid n).apply c = some t ↔ t = { c with group := .all n } := by
  rw [Call.apply, h, Id.set, if_pos rfl, Option.map_some, Option.some_inj, eq_comm]
  rfl

theorem setgroups_eq_some_iff {gids : List ℕ} : (Call.setgroups gids).apply c = some t ↔
    privileged c = true ∧ t = { c with supplementary := gids } := by
  rw [Call.apply, Option.ite_none_right_eq_some, Option.some_inj, eq_comm (a := t)]

theorem getD_eq {α : Type*} {o : Option α} {a : α} (h : ∀ b ∈ o, b = a) : o.getD a = a := by
  cases o with
  | none => rfl
  | some m => exact h m rfl

/-! ## Calls without the privilege -/

theorem eq_of_set (h : (Id.all n).set false m = some j) : j = .all n := by
  rw [Id.set, if_neg Bool.false_ne_true] at h
  split_ifs at h with hsame
  obtain rfl : m = n := or_self_iff.1 hsame
  exact (Option.some.inj h).symm

theorem eq_of_setRealEffective (h : (Id.all n).setRealEffective false real effective = some j) :
    j = .all n := by
  rw [Id.setRealEffective] at h
  split at h
  · rename_i hsame
    obtain ⟨hreal, heffective⟩ := hsame.resolve_left Bool.false_ne_true
    have hr : real.getD n = n := getD_eq fun m hm => or_self_iff.1 (hreal m hm)
    have he : effective.getD n = n := getD_eq fun m hm => by
      simpa only [Id.all, or_self] using heffective m hm
    rw [← Option.some.inj h, Id.all]
    dsimp only
    rw [hr, he, ite_self]
  · cases h

theorem eq_of_setAll (h : (Id.all n).setAll false real effective saved = some j) :
    j = .all n := by
  rw [Id.setAll] at h
  split at h
  · rename_i hsame
    have hgetD (o : Option ℕ) (ho : o ∈ [real, effective, saved]) : o.getD n = n :=
      getD_eq fun m hm => by
        simpa only [Id.all, or_self] using hsame.resolve_left Bool.false_ne_true o ho m hm
    rw [← Option.some.inj h, Id.all]
    dsimp only
    rw [hgetD real (by simp), hgetD effective (by simp), hgetD saved (by simp)]
  · cases h

theorem withUser_of_map {o : Option Id} (ho : ∀ j ∈ o, j = c.user)
    (h : o.map c.withUser = some t) : t = c := by
  obtain ⟨j, hj, rfl⟩ := Option.map_eq_some_iff.1 h
  rw [ho j hj]
  rfl

theorem withGroup_of_map {o : Option Id} (ho : ∀ j ∈ o, j = c.group)
    (h : o.map c.withGroup = some t) : t = c := by
  obtain ⟨j, hj, rfl⟩ := Option.map_eq_some_iff.1 h
  rw [ho j hj]
  rfl

/-- No call changes settled credentials, short of executing a file that gives ids away. -/
theorem Settled.apply (hc : Settled c) (hplain : call.isPlain = true)
    (h : call.apply c = some t) : t = c := by
  obtain ⟨uid, hne, huser⟩ := hc.user
  obtain ⟨gid, hgroup⟩ := hc.group
  have hprivileged : privileged c = false := by
    rw [privileged, huser]
    exact decide_eq_false hne
  cases call with
  | setuid m =>
    rw [Call.apply, hprivileged] at h
    refine withUser_of_map (fun j hj => ?_) h
    rw [huser] at hj ⊢
    exact eq_of_set hj
  | setgid m =>
    rw [Call.apply, hprivileged] at h
    refine withGroup_of_map (fun j hj => ?_) h
    rw [hgroup] at hj ⊢
    exact eq_of_set hj
  | setgroups gids =>
    rw [Call.apply, hprivileged, if_neg Bool.false_ne_true] at h
    cases h
  | setreuid real effective =>
    rw [Call.apply, hprivileged] at h
    refine withUser_of_map (fun j hj => ?_) h
    rw [huser] at hj ⊢
    exact eq_of_setRealEffective hj
  | setregid real effective =>
    rw [Call.apply, hprivileged] at h
    refine withGroup_of_map (fun j hj => ?_) h
    rw [hgroup] at hj ⊢
    exact eq_of_setRealEffective hj
  | setresuid real effective saved =>
    rw [Call.apply, hprivileged] at h
    refine withUser_of_map (fun j hj => ?_) h
    rw [huser] at hj ⊢
    exact eq_of_setAll hj
  | setresgid real effective saved =>
    rw [Call.apply, hprivileged] at h
    refine withGroup_of_map (fun j hj => ?_) h
    rw [hgroup] at hj ⊢
    exact eq_of_setAll hj
  | execve owner group =>
    rw [Call.isPlain, Bool.and_eq_true, Option.isNone_iff_eq_none, Option.isNone_iff_eq_none]
      at hplain
    obtain ⟨rfl, rfl⟩ := hplain
    rw [← Option.some.inj h, huser, hgroup]
    apply Credentials.ext
    · exact huser.symm
    · exact hgroup.symm
    · rfl

theorem Settled.after (hc : Settled c) (hplain : ∀ call ∈ calls, call.isPlain = true) :
    c.after calls = c := by
  induction calls with
  | nil => rfl
  | cons call calls ih =>
    rw [List.forall_mem_cons] at hplain
    have hsame : (call.apply c).getD c = c := getD_eq fun t ht => hc.apply hplain.1 ht
    rw [Credentials.after, List.foldl_cons, hsame]
    exact ih hplain.2

end Process
