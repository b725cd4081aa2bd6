import Tenodera.Gateway.Relay
import Tenodera.Lib.Lines

/-!
# Passwords and administrators

A password is checked in a process of its own.  The gateway writes the name of the user and the
password to the standard input of `tenodera-pam-helper`, one line each, and the exit code comes
back.  Who belongs to an administrative group is looked up in the databases of the system.
-/

namespace Tenodera.Gateway.Pam

open Relay (Role)

/-! ## The helper -/

/-- What `libpam` answers. -/
structure Stack where
  starts : Bool
  authenticate : (user password : String) → Bool
  acctMgmt : (user : String) → Bool

/-- `pam_auth_mode`: the exit code of the helper. -/
def pamAuthMode (pam : Stack) (stdin : String) : ℕ :=
  match Text.lines stdin with
  | [] => 3
  | user :: rest =>
    if user = "" then 3
    else
      match rest with
      | [] => 3
      | password :: _ =>
        if ¬ pam.starts then 4
        else if ¬ pam.authenticate user password then 1
        else if ¬ pam.acctMgmt user then 2
        else 0

/-- How the process of the helper fares. -/
inductive Fate
  | runs
  | notSpawned
  | notWritten
  | killed (signal : ℕ)
  | waitFails
  | timesOut
  deriving DecidableEq, Repr

structure PamResult where
  success : Bool
  error : Option String
  deriving DecidableEq, Repr

/-- What the gateway makes of an exit code. -/
def ofExitCode (code : ℕ) : PamResult :=
  if code = 0 then ⟨true, none⟩ else ⟨false, some "authentication failed"⟩

/-- `authenticate`. -/
def authenticate (pam : Stack) (fate : Fate) (user password : String) : PamResult :=
  if user = "" ∨ Text.hasNul user ∨ '\n' ∈ user.toList then ⟨false, some "invalid username"⟩
  else if Text.hasNul password ∨ '\n' ∈ password.toList then ⟨false, some "invalid password"⟩
  else
    match fate with
    | .runs => ofExitCode (pamAuthMode pam (user ++ "\n" ++ password ++ "\n"))
    | .notSpawned | .notWritten | .waitFails => ⟨false, some "authentication service unavailable"⟩
    -- no exit code counts as 255
    | .killed _ => ofExitCode 255
    | .timesOut => ⟨false, some "authentication timed out"⟩

/-- The text can be one of the lines. -/
def isLine (s : String) : Bool := !Text.hasNul s && decide ('\n' ∉ s.toList)

/-- A line as the helper reads it, which takes a carriage return at the end off. -/
def received (s : String) : String := String.ofList (Text.stripCr s.toList)

/-! ## Administrators -/

def adminGroups : List String := ["sudo", "wheel", "admin", "admins"]

/-- An entry of the users or of the groups, and how many bytes of text the look-up needs for it. -/
structure Entry (α : Type) where
  value : α
  size : ℕ

/-- The users with their primary groups, the groups of a user and the names of the groups, from all
sources that the system is configured for. -/
structure Nss where
  passwd : (user : String) → Option (Entry ℕ)
  groupList : (user : String) → (primary : ℕ) → List ℕ
  group : (gid : ℕ) → Option (Entry String)

/-- The buffer of `getpwnam_r` and `getgrgid_r`. -/
def bufferSize : ℕ := 4096

/-- `getpwnam_r` and `getgrgid_r`: an entry is found if it fits into the buffer. -/
def lookup {α : Type} (entry : Option (Entry α)) : Option α :=
  (entry.filter fun e => e.size ≤ bufferSize).map Entry.value

/-- `getgrouplist`: whether all groups fit, how many there are, and what has been written. -/
def getGroupList (nss : Nss) (user : String) (primary capacity : ℕ) : Bool × ℕ × List ℕ :=
  let all := nss.groupList user primary
  (all.length ≤ capacity, all.length, all.take capacity)

/-- The groups of a user: the array is resized once. -/
def groupsOf (nss : Nss) (user : String) (primary : ℕ) : List ℕ :=
  match getGroupList nss user primary 64 with
  | (true, ngroups, groups) => groups.take ngroups
  | (false, ngroups, _) =>
    match getGroupList nss user primary ngroups with
    | (_, ngroups, groups) => groups.take ngroups

/-- `verify_sudo_blocking`. -/
def verifySudoBlocking (nss : Nss) (user : String) : Except String Unit :=
  if Text.hasNul user then .error "invalid username"
  else
    match lookup (nss.passwd user) with
    | none => .error "user not found"
    | some primary =>
      if (groupsOf nss user primary).any fun gid => (lookup (nss.group gid)).any (· ∈ adminGroups)
      then .ok ()
      else .error "user does not have sudo privileges"

/-- The role of a login. -/
def roleOf (nss : Nss) (user : String) : Role :=
  match verifySudoBlocking nss user with
  | .ok () => .admin
  | .error _ => .readonly

/-! ## What is authenticated -/

section

variable {pam : Stack} {fate : Fate} {nss : Nss} {user password : String}

theorem ofExitCode_success (code : ℕ) : (ofExitCode code).success = true ↔ code = 0 := by
  unfold ofExitCode
  split_ifs with h
  · exact iff_of_true rfl h
  · exact iff_of_false nofun h

theorem lines_input (huser : isLine user) (hpassword : isLine password) :
    Text.lines (user ++ "\n" ++ password ++ "\n") = [received user, received password] := by
  have hchars : (user ++ "\n" ++ password ++ "\n").toList =
      Text.unlines [user.toList, password.toList] := by
    simp [Text.unlines]
  have hlines : ∀ l ∈ [user.toList, password.toList], '\n' ∉ l := by
    simp only [isLine, Bool.and_eq_true, decide_eq_true_eq] at huser hpassword
    simp [huser.2, hpassword.2]
  rw [Text.lines, hchars, Text.linesOf_unlines hlines]
  rfl

theorem pamAuthMode_eq_zero (huser : isLine user) (hpassword : isLine password) :
    pamAuthMode pam (user ++ "\n" ++ password ++ "\n") = 0 ↔
      received user ≠ "" ∧ pam.starts ∧ pam.authenticate (received user) (received password) ∧
        pam.acctMgmt (received user) := by
  rw [pamAuthMode, lines_input huser hpassword]
  dsimp only
  split_ifs with hempty hstarts hauth hacct <;> simp_all

theorem received_eq_self_iff (s : String) : received s = s ↔ s.toList.getLast? ≠ some '\r' := by
  constructor
  · intro h hlast
    have hlist := congrArg String.toList h
    rw [received, String.toList_ofList, Text.stripCr, if_pos hlast] at hlist
    have hlength := congrArg List.length hlist
    have hne : s.toList ≠ [] := by
      intro hnil
      rw [hnil] at hlast
      cases hlast
    have hpos := List.length_pos_iff.2 hne
    rw [List.length_dropLast] at hlength
    omega
  · intro h
    rw [received, Text.stripCr_eq_self h, String.ofList_toList]

/-! ## Who is an administrator -/

theorem groupsOf_eq (nss : Nss) (user : String) (primary : ℕ) :
    groupsOf nss user primary = nss.groupList user primary := by
  unfold groupsOf getGroupList
  split
  · rename_i ngroups groups hfirst
    obtain ⟨hfits, rfl, rfl⟩ : (nss.groupList user primary).length ≤ 64 ∧
        (nss.groupList user primary).length = ngroups ∧
          (nss.groupList user primary).take 64 = groups := by
      simpa using hfirst
    rw [List.take_of_length_le hfits, List.take_length]
  · rename_i ngroups groups hfirst
    obtain ⟨-, rfl, -⟩ : 64 < (nss.groupList user primary).length ∧
        (nss.groupList user primary).length = ngroups ∧
          (nss.groupList user primary).take 64 = groups := by
      simpa using hfirst
    simp

/-- A user is an administrator if one of all its groups is found under an administrative name. -/
theorem verifySudoBlocking_eq_ok_iff : verifySudoBlocking nss user = .ok () ↔
    Text.hasNul user = false ∧ ∃ primary, lookup (nss.passwd user) = some primary ∧
      ∃ gid ∈ nss.groupList user primary, ∃ name ∈ adminGroups,
        lookup (nss.group gid) = some name := by
  unfold verifySudoBlocking
  split_ifs with hnul
  · exact iff_of_false nofun (by simp [hnul])
  · cases hpasswd : lookup (nss.passwd user) with
    | none => simp
    | some primary =>
      simp only [groupsOf_eq]
      split_ifs with hany
      · simp only [List.any_eq_true, Option.any_eq_true, decide_eq_true_eq] at hany
        obtain ⟨gid, hgid, name, hname, hadmin⟩ := hany
        exact iff_of_true rfl
          ⟨by simpa using hnul, primary, rfl, gid, hgid, name, hadmin, hname⟩
      · refine iff_of_false nofun ?_
        rintro ⟨-, primary', hprimary, gid, hgid, name, hadmin, hname⟩
        cases hprimary
        refine hany (List.any_eq_true.2 ⟨gid, hgid, ?_⟩)
        rw [hname, Option.any_some]
        exact decide_eq_true hadmin

theorem roleOf_eq_admin_iff : roleOf nss user = .admin ↔ verifySudoBlocking nss user = .ok () := by
  unfold roleOf
  cases verifySudoBlocking nss user with
  | ok u => exact iff_of_true rfl rfl
  | error e => exact iff_of_false nofun nofun

end

end Tenodera.Gateway.Pam
