import Mathlib.Data.List.Destutter
import Tenodera.Agent.EnvFile
import Tenodera.Agent.ShellScripts

/-!
# The role of a host

`set_role` writes the role into the environment file of the agent, and `read_host_config` reads it
back.  A file that cannot be read is taken for an empty one and overwritten, a role that is set with
a space in front of the `=` is read but not replaced, and a line break in a role begins another
line: `role_law_iff`.
-/

namespace Tenodera.Agent.RoleConfig

open Text Protocol Host Effect EnvFile

/-! ## Reading -/

/-- The key is `role`, whatever the case of its letters. -/
def isRoleKey (key : List Char) : Bool := key.map Char.toLower = "role".toList

/-- The value of a line that `read_host_config` takes as one of the role. -/
def roleValue (line : List Char) : Option (List Char) :=
  let line := trimmed line
  if line.head? = some '#' ∨ line = [] then none
  else
    match Words.splitOnce (· = '=') line with
    | some (key, val) => if isRoleKey (trimmed key) then some (trimmed val) else none
    | none => none

/-- What `str::split` takes for the end of a role. -/
def isSeparator (c : Char) : Bool := c = ',' || c = ' '

/-- The pieces between commas and spaces, without white space and the empty ones. -/
def splitRoles (val : List Char) : List (List Char) :=
  ((val.splitOnP isSeparator).map trimmed).filter (· ≠ [])

/-- `Vec::dedup`. -/
def dedup (roles : List (List Char)) : List (List Char) := roles.destutter (· ≠ ·)

def rolesOfLines (lines : List (List Char)) : List (List Char) :=
  (lines.filterMap roleValue).flatMap splitRoles

/-- The roles of `read_host_config`. -/
def readRoles (content : List Char) : List (List Char) := dedup (rolesOfLines (linesOf content))

/-! ## Writing -/

/-- A line that `set_role` replaces.  Of the letters that `str::to_lowercase` changes, those of
ASCII alone become one of the word. -/
def isRoleLine (line : List Char) : Bool :=
  "role=".toList.isPrefixOf ((trimmed line).map Char.toLower)

/-- The lines that `set_role` keeps of a file, which counts as empty when it cannot be read. -/
def kept (content : Option (List Char)) : List (List Char) :=
  (linesOf (content.getD [])).filter fun line => !isRoleLine line

/-- The new text of `set_role`. -/
def newText (content : Option (List Char)) (role : List Char) : List Char :=
  let role := trimmed role
  let lines := if role ≠ [] then kept content ++ ["role=".toList ++ role] else kept content
  ['\n'].intercalate lines ++ ['\n']

def envPath : String := "/etc/tenodera/agent.cnf"

/-- `set_role`. -/
def setRole (data : Value) (user password : String) : HostM Value := do
  let content ← perform (.readFile envPath)
  sudoStdinWriteAsUser user password ["tee", envPath]
    (String.ofList (newText (content.map String.toList) (strField data "role").toList))

/-! ## The law of the three -/

/-- The environment file. -/
inductive File
  | absent
  /-- The file exists, but it cannot be read, or it is no UTF-8. -/
  | unreadable
  | text (content : List Char)
  deriving DecidableEq

/-- `read_to_string`. -/
def File.read : File → Option (List Char)
  | .text content => some content
  | .absent | .unreadable => none

/-- The file after the command of `set_role`, which is given whatever is read. -/
def File.written (file : File) (role : List Char) : File := .text (newText file.read role)

/-- The settings of other keys that `load_env_file` reads. -/
def File.others (file : File) : List Setting :=
  ((file.read.map settings).getD []).filter fun s => !isRoleKey s.1

/-- The roles that `read_host_config` reads. -/
def File.roles (file : File) : List (List Char) := (file.read.map readRoles).getD []

/-- A file that cannot be read is left as it is; of any other, the other settings stay, the roles
are those of the string, and doing it again changes nothing. -/
structure RoleLaw (file : File) (role : List Char) : Prop where
  spared : file = .unreadable → file.written role = file
  others : (file.written role).others = file.others
  roles : (file.written role).roles = dedup (splitRoles role)
  again : (file.written role).written role = file.written role

/-- The lines that are written for a role. -/
def roleLines (role : List Char) : List (List Char) :=
  if trimmed role = [] then [] else ("role=".toList ++ trimmed role).splitOn '\n'

/-- The roles of the lines that are kept although `read_host_config` reads them. -/
def leftover (content : Option (List Char)) : List (List Char) := rolesOfLines (kept content)

/-- The file can be read, its lines are kept as they are, and what is left over of old roles
disappears in the new ones; a role with line breaks gives lines of roles, which are read as its
pieces. -/
structure Fits (file : File) (role : List Char) : Prop where
  readable : file ≠ .unreadable
  ending : ∀ line ∈ kept file.read, line.getLast? ≠ some '\r'
  lines : ∀ line ∈ roleLines role, isRoleLine line = true
  roles : if '\n' ∈ trimmed role then
      dedup (leftover file.read ++ rolesOfLines (roleLines role)) = dedup (splitRoles role)
    else ∀ r ∈ leftover file.read, (splitRoles role).head? = some r

section

variable {content : Option (List Char)} {role line val : List Char} {lines : List (List Char)}
  {file : File}

/-! ## Merging adjacent duplicates -/

section

variable {α : Type*} [DecidableEq α]

theorem destutter_cons (a : α) (l : List α) : (a :: l).destutter (· ≠ ·) =
    if l.head? = some a then l.destutter (· ≠ ·) else a :: l.destutter (· ≠ ·) := by
  cases l with
  | nil => rfl
  | cons b l =>
    rw [List.destutter_cons_cons]
    by_cases h : b = a
    · subst h
      rw [if_neg (not_not.2 rfl), if_pos List.head?_cons, List.destutter_cons']
    · rw [if_pos (Ne.symm h), if_neg (by simpa using h), List.destutter_cons']

theorem length_destutter_le (l l' : List α) :
    (l'.destutter (· ≠ ·)).length ≤ ((l ++ l').destutter (· ≠ ·)).length := by
  induction l with
  | nil => exact le_rfl
  | cons a l ih => exact ih.trans List.length_destutter_ne_le_length_destutter_cons

/-- What stands in front disappears when it is the first element that follows. -/
theorem destutter_append_eq_iff (l l' : List α) :
    (l ++ l').destutter (· ≠ ·) = l'.destutter (· ≠ ·) ↔ ∀ a ∈ l, l'.head? = some a := by
  induction l with
  | nil => simp
  | cons a l ih =>
    have hhead : (l ++ l').head? = if l = [] then l'.head? else l.head? := by
      cases l <;> rfl
    rw [List.cons_append, destutter_cons]
    split_ifs with h
    · rw [ih, List.forall_mem_cons]
      refine ⟨fun hall => ⟨?_, hall⟩, And.right⟩
      rw [hhead] at h
      split_ifs at h with hnil
      · exact h
      · exact hall a (List.mem_of_mem_head? h)
    · constructor
      · intro heq
        have hle := length_destutter_le l l'
        rw [← heq, List.length_cons] at hle
        omega
      · intro hall
        rw [List.forall_mem_cons] at hall
        refine absurd ?_ h
        rw [hhead]
        split_ifs with hnil
        · exact hall.1
        · obtain ⟨b, l, rfl⟩ := List.exists_cons_of_ne_nil hnil
          rw [← hall.1]
          exact (hall.2 b List.mem_cons_self).symm

end

/-! ## The pieces of a role -/

theorem splitRoles_cons {c : Char} (hc : isWhitespace c = true) (val : List Char) :
    splitRoles (c :: val) = splitRoles val := by
  unfold splitRoles
  rw [List.splitOnP_cons_eq_if_modifyHead]
  split_ifs
  · rfl
  · obtain ⟨piece, pieces, hsplit⟩ := List.exists_cons_of_ne_nil
      (List.splitOnP_ne_nil isSeparator val)
    have hpiece : trimmed (c :: piece) = trimmed piece := by
      rw [trimmed, List.dropWhile_cons_of_pos hc, trimmed]
    rw [hsplit, List.modifyHead_cons, List.map_cons, List.map_cons, hpiece]

theorem splitRoles_concat {c : Char} (hc : isWhitespace c = true) (val : List Char) :
    splitRoles (val ++ [c]) = splitRoles val := by
  unfold splitRoles
  induction val using Words.words_induction (p := isSeparator) with
  | last l hl =>
    by_cases hsep : isSeparator c = true
    · rw [List.splitOnP_append_cons l [] hsep, List.splitOnP_nil]
      simp [trimmed]
    · have hlc : ∀ d ∈ l ++ [c], isSeparator d = false := by
        intro d hd
        rcases List.mem_append.1 hd with hd | hd
        · exact hl d hd
        · rw [List.mem_singleton.1 hd]
          exact Bool.eq_false_iff.2 hsep
      rw [List.splitOnP_eq_singleton hlc, List.splitOnP_eq_singleton hl]
      simp only [List.map_cons, List.map_nil, trimmed_concat hc]
  | sep l a rest hl ha ih =>
    rw [List.append_assoc, List.cons_append, List.splitOnP_append_cons _ _ ha,
      List.splitOnP_append_cons _ _ ha, List.map_append, List.map_append, List.filter_append,
      List.filter_append, ih]

/-- The white space at the ends of a role makes no difference. -/
theorem splitRoles_trimmed (role : List Char) : splitRoles (trimmed role) = splitRoles role := by
  have hfront (val : List Char) : splitRoles (val.dropWhile isWhitespace) = splitRoles val := by
    induction val with
    | nil => rfl
    | cons c val ih =>
      by_cases hc : isWhitespace c = true
      · rw [List.dropWhile_cons_of_pos hc, ih, splitRoles_cons hc]
      · rw [List.dropWhile_cons_of_neg hc]
  have hback (val : List Char) : splitRoles (val.rdropWhile isWhitespace) = splitRoles val := by
    induction val using List.reverseRecOn with
    | nil => rfl
    | append_singleton val c ih =>
      by_cases hc : isWhitespace c = true
      · rw [List.rdropWhile_concat_pos _ _ _ hc, ih, splitRoles_concat hc]
      · rw [List.rdropWhile_concat_neg _ _ _ hc]
  rw [trimmed, hback, hfront]

/-! ## The lines of a role -/

theorem roleValue_stripCr (line : List Char) : roleValue (stripCr line) = roleValue line := by
  rw [roleValue, roleValue, trimmed_stripCr]

theorem isRoleLine_stripCr (line : List Char) : isRoleLine (stripCr line) = isRoleLine line := by
  rw [isRoleLine, isRoleLine, trimmed_stripCr]

/-- Lower case changes nothing but capitals. -/
theorem toLower_cases (c : Char) : c.toLower = c ∨ c.isUpper = true ∧ c.toLower.isLower = true := by
  unfold Char.toLower
  split_ifs with hupper
  · right
    unfold Char.isUpper Char.isLower
    simp only [ge_iff_le, Bool.and_eq_true, decide_eq_true_iff, UInt32.le_iff_toNat_le,
      UInt32.toNat_add] at hupper ⊢
    change 65 ≤ c.val.toNat ∧ c.val.toNat ≤ 90 at hupper
    refine ⟨hupper, ?_⟩
    show 97 ≤ (c.val.toNat + 32) % 4294967296 ∧ (c.val.toNat + 32) % 4294967296 ≤ 122
    omega
  · exact .inl rfl

/-- A letter is no white space and no `=`, in either case. -/
theorem of_isLower_toLower {c : Char} (hc : c.toLower.isLower = true) :
    isWhitespace c = false ∧ c ≠ '=' ∧ c ≠ '#' := by
  have halpha : c.isAlpha = true := by
    rcases toLower_cases c with heq | ⟨hupper, -⟩
    · rw [heq] at hc
      exact Bool.or_eq_true_iff.2 (.inr hc)
    · exact Bool.or_eq_true_iff.2 (.inl hupper)
  refine ⟨isWhitespace_of_isAlphanum (by simp [Char.isAlphanum, halpha]), ?_, ?_⟩ <;>
  · rintro rfl
    revert halpha
    decide

theorem eq_equals_of_toLower {c : Char} (hc : c.toLower = '=') : c = '=' := by
  rcases toLower_cases c with heq | ⟨-, hlower⟩
  · rw [← heq, hc]
  · rw [hc] at hlower
    exact absurd hlower (by decide)

theorem of_mem_roleKey {key : List Char} (hkey : isRoleKey key = true) :
    ∀ c ∈ key, isWhitespace c = false ∧ c ≠ '=' ∧ c ≠ '#' := by
  intro c hc
  have hmem : c.toLower ∈ "role".toList := by
    rw [← of_decide_eq_true hkey]
    exact List.mem_map_of_mem hc
  have hall : ∀ d ∈ "role".toList, d.isLower = true := List.all_eq_true.1 (by decide)
  exact of_isLower_toLower (hall _ hmem)

/-- A line that is replaced begins with the word, behind white space. -/
theorem isRoleLine_iff : isRoleLine line = true ↔
    ∃ key rest, isRoleKey key = true ∧ trimmed line = key ++ '=' :: rest := by
  rw [isRoleLine, List.isPrefixOf_iff_prefix]
  constructor
  · rintro ⟨rest, hrest⟩
    have hsplit : (trimmed line).map Char.toLower = "role".toList ++ '=' :: rest := hrest.symm
    obtain ⟨key, back, hline, hkey, hback⟩ := List.map_eq_append_iff.1 hsplit
    obtain ⟨c, rest, rfl, hc, -⟩ := List.map_eq_cons_iff.1 hback
    obtain rfl := eq_equals_of_toLower hc
    exact ⟨key, rest, decide_eq_true hkey, hline⟩
  · rintro ⟨key, rest, hkey, hline⟩
    rw [hline, List.map_append, of_decide_eq_true hkey]
    exact ⟨rest.map Char.toLower, rfl⟩

/-- The key and the value of a line that is replaced, as the two readers find them. -/
theorem of_roleLine {key rest : List Char} (hkey : isRoleKey key = true)
    (hline : trimmed line = key ++ '=' :: rest) :
    (∃ v, setting line = some (key, v)) ∧ roleValue line = some (trimmed rest) := by
  have hchars := of_mem_roleKey hkey
  have hne : key ≠ [] := by
    rintro rfl
    revert hkey
    decide
  have hhead : (trimmed line).head? ≠ some '#' ∧ trimmed line ≠ [] := by
    obtain ⟨c, key, rfl⟩ := List.exists_cons_of_ne_nil hne
    rw [hline]
    simp [(hchars c List.mem_cons_self).2.2]
  have hequals : ∀ c ∈ key, decide (c = '=') = false := fun c hc =>
    decide_eq_false (hchars c hc).2.1
  have htrimmed : trimmed key = key := trimmed_eq_self
    (fun c hc => (hchars c (List.mem_of_mem_head? hc)).1)
    (fun c hc => (hchars c (List.mem_of_mem_getLast? hc)).1)
  have hsplit : Words.splitOnce (· = '=') (trimmed line) = some (key, rest) := by
    rw [hline, Words.splitOnce_append_cons hequals rfl]
  constructor
  · simp [setting, hhead.1, hhead.2, hsplit, htrimmed]
  · simp [roleValue, hhead.1, hhead.2, hsplit, htrimmed, hkey]

/-! ## The text that is written -/

theorem not_isRoleLine_of_mem_kept (h : line ∈ kept content) : isRoleLine line = false := by
  simpa using (List.mem_filter.1 h).2

theorem newline_notMem_of_mem_kept (h : line ∈ kept content) : '\n' ∉ line :=
  newline_notMem_of_mem_linesOf (List.mem_of_mem_filter h)

theorem newline_notMem_of_mem_roleLines (h : line ∈ roleLines role) : '\n' ∉ line := by
  unfold roleLines at h
  split_ifs at h
  · cases h
  · exact Path.notMem_of_mem_splitOn h

theorem newText_eq (content : Option (List Char)) (role : List Char) : newText content role =
    if kept content ++ roleLines role = [] then ['\n']
    else unlines (kept content ++ roleLines role) := by
  rw [newText, roleLines]
  by_cases hrole : trimmed role = []
  · simp only [hrole, ne_eq, not_true_eq_false, if_false, if_true, List.append_nil]
    split_ifs with hnil
    · rw [hnil]
      rfl
    · exact intercalate_newline hnil
  · simp only [hrole, ne_eq, not_false_eq_true, if_true, if_false]
    have hne : ("role=".toList ++ trimmed role).splitOn '\n' ≠ [] := List.splitOn_ne_nil _ _
    rw [if_neg (by simp), intercalate_newline_concat, unlines_append, ← intercalate_newline hne,
      List.intercalate_splitOn, List.append_assoc]

/-- The readers of lines find those that are kept and those of the role. -/
theorem filterMap_linesOf_newText {α : Type} {f : List Char → Option α}
    (hcr : ∀ line, f (stripCr line) = f line) (hnil : f [] = none) :
    (linesOf (newText content role)).filterMap f =
      (kept content ++ roleLines role).filterMap f := by
  have hlines : ∀ line ∈ kept content ++ roleLines role, '\n' ∉ line := by
    intro line hline
    rcases List.mem_append.1 hline with hline | hline
    · exact newline_notMem_of_mem_kept hline
    · exact newline_notMem_of_mem_roleLines hline
  rw [newText_eq]
  split_ifs with hempty
  · rw [hempty]
    show [([] : List Char)].filterMap f = []
    simp [hnil]
  · rw [linesOf_unlines hlines, List.filterMap_map]
    exact List.filterMap_congr fun line _ => hcr line

/-! ## The other settings and the roles -/

/-- The lines that are replaced have no other setting. -/
theorem filterMap_filter_roleLine (lines : List (List Char)) :
    ((lines.filter fun line => !isRoleLine line).filterMap setting).filter
        (fun s => !isRoleKey s.1) =
      (lines.filterMap setting).filter fun s => !isRoleKey s.1 := by
  induction lines with
  | nil => rfl
  | cons line lines ih =>
    by_cases hrole : isRoleLine line = true
    · obtain ⟨key, rest, hkey, hline⟩ := isRoleLine_iff.1 hrole
      obtain ⟨⟨v, hs⟩, -⟩ := of_roleLine hkey hline
      rw [List.filter_cons_of_neg (by simp [hrole]), List.filterMap_cons_some hs,
        List.filter_cons_of_neg (by simp [hkey]), ih]
    · rw [List.filter_cons_of_pos (by simp [hrole])]
      cases hs : setting line with
      | none => rw [List.filterMap_cons_none hs, List.filterMap_cons_none hs, ih]
      | some s =>
        rw [List.filterMap_cons_some hs, List.filterMap_cons_some hs, List.filter_cons,
          List.filter_cons, ih]

theorem filterMap_roleLines (h : ∀ line ∈ lines, isRoleLine line = true) :
    (lines.filterMap setting).filter (fun s => !isRoleKey s.1) = [] := by
  have hnil : lines.filter (fun line => !isRoleLine line) = [] :=
    List.filter_eq_nil_iff.2 fun line hline => by simp [h line hline]
  rw [← filterMap_filter_roleLine, hnil]
  rfl

theorem others_written (hlines : ∀ line ∈ roleLines role, isRoleLine line = true) :
    (file.written role).others = file.others := by
  show (settings (newText file.read role)).filter _ = _
  rw [settings, filterMap_linesOf_newText setting_stripCr rfl, List.filterMap_append,
    List.filter_append, filterMap_roleLines hlines, List.append_nil, kept,
    filterMap_filter_roleLine]
  cases file <;> rfl

theorem roles_written (file : File) (role : List Char) : (file.written role).roles =
    dedup (leftover file.read ++ rolesOfLines (roleLines role)) := by
  show dedup (rolesOfLines (linesOf (newText file.read role))) = _
  rw [rolesOfLines, filterMap_linesOf_newText roleValue_stripCr rfl, List.filterMap_append,
    List.flatMap_append]
  rfl

/-- A role without line breaks is read as its pieces. -/
theorem rolesOfLines_roleLines (h : '\n' ∉ trimmed role) :
    rolesOfLines (roleLines role) = splitRoles role := by
  rw [← splitRoles_trimmed role, roleLines]
  split_ifs with hrole
  · rw [hrole]
    rfl
  · have hequals : trimmed ("role=".toList ++ trimmed role) =
        "role".toList ++ '=' :: (trimmed role).rdropWhile isWhitespace :=
      Words.rdropWhile_append_cons (by decide) "role".toList (trimmed role)
    have hsplit : ("role=".toList ++ trimmed role).splitOn '\n' =
        ["role=".toList ++ trimmed role] := by
      refine List.splitOnP_eq_singleton fun c hc => ?_
      rw [beq_eq_false_iff_ne]
      rintro rfl
      rcases List.mem_append.1 hc with hc | hc
      · exact absurd hc (by decide)
      · exact h hc
    obtain ⟨-, hvalue⟩ := of_roleLine (by decide) hequals
    rw [hsplit, rolesOfLines, List.filterMap_cons_some hvalue, trimmed_rdropWhile, trimmed_trimmed]
    simp

/-! ## Doing it again -/

/-- The lines that are kept the second time. -/
theorem kept_newText (content : Option (List Char)) (role : List Char)
    (h : kept content ++ roleLines role ≠ []) :
    kept (some (newText content role)) = (kept content).map stripCr ++
      ((roleLines role).filter fun line => !isRoleLine line).map stripCr := by
  have hfilter (lines : List (List Char)) : (lines.map stripCr).filter (fun l => !isRoleLine l) =
      (lines.filter fun l => !isRoleLine l).map stripCr := by
    rw [List.filter_map]
    congr 2
    funext line
    simp [isRoleLine_stripCr]
  have hkept : (kept content).filter (fun l => !isRoleLine l) = kept content :=
    List.filter_eq_self.2 fun line hline => by simp [not_isRoleLine_of_mem_kept hline]
  have hlines : ∀ line ∈ kept content ++ roleLines role, '\n' ∉ line := by
    intro line hline
    rcases List.mem_append.1 hline with hline | hline
    · exact newline_notMem_of_mem_kept hline
    · exact newline_notMem_of_mem_roleLines hline
  rw [kept, Option.getD_some, newText_eq, if_neg h, linesOf_unlines hlines, hfilter,
    List.filter_append, hkept, List.map_append]

theorem newText_again_iff : newText (some (newText content role)) role = newText content role ↔
    (∀ line ∈ kept content, line.getLast? ≠ some '\r') ∧
      ∀ line ∈ roleLines role, isRoleLine line = true := by
  by_cases hempty : kept content ++ roleLines role = []
  · obtain ⟨hkept, hrole⟩ := List.append_eq_nil_iff.1 hempty
    refine iff_of_true ?_ ⟨by simp [hkept], by simp [hrole]⟩
    have hfirst : newText content role = ['\n'] := by rw [newText_eq, if_pos hempty]
    have hsecond : kept (some ['\n']) = [[]] := by decide
    rw [hfirst, newText_eq, hsecond, hrole]
    rfl
  · have hagain := kept_newText content role hempty
    set extra := ((roleLines role).filter fun line => !isRoleLine line).map stripCr with hextra
    have hne : kept (some (newText content role)) ++ roleLines role ≠ [] := by
      rw [hagain]
      simp only [ne_eq, List.append_eq_nil_iff, List.map_eq_nil_iff] at hempty ⊢
      exact fun h => hempty ⟨h.1.1, h.2⟩
    have hlines (content : Option (List Char)) :
        ∀ line ∈ kept content ++ roleLines role, '\n' ∉ line := by
      intro line hline
      rcases List.mem_append.1 hline with hline | hline
      · exact newline_notMem_of_mem_kept hline
      · exact newline_notMem_of_mem_roleLines hline
    have hextra_iff : extra = [] ↔ ∀ line ∈ roleLines role, isRoleLine line = true := by
      rw [hextra, List.map_eq_nil_iff, List.filter_eq_nil_iff]
      simp
    have hfirst : newText content role = unlines (kept content ++ roleLines role) := by
      rw [newText_eq, if_neg hempty]
    have hsecond : newText (some (newText content role)) role =
        unlines (kept (some (newText content role)) ++ roleLines role) := by
      rw [newText_eq (some _), if_neg hne]
    rw [hsecond, ← hextra_iff, ← map_stripCr_eq_self_iff]
    constructor
    · intro heq
      have hlists := unlines_inj (hlines _) (hlines _) (heq.trans hfirst)
      rw [List.append_left_inj, hagain] at hlists
      have hlength := congrArg List.length hlists
      rw [List.length_append, List.length_map] at hlength
      have hnil : extra = [] := List.length_eq_zero_iff.1 (by omega)
      rw [hnil, List.append_nil] at hlists
      exact ⟨hlists, hnil⟩
    · rintro ⟨hkept, hnil⟩
      rw [hagain, hnil, hkept, List.append_nil, ← hfirst]

/-! ## The command -/

/-- What `set_role` runs: the new text goes through `tee`, whatever was read. -/
theorem asks_setRole_iff {data : Value} {user password : String} {c : Command} :
    (setRole data user password).Asks (.run c) ↔ Text.hasNul user = false ∧
      ∃ content : Option String, c = ⟨some user, ["sudo", "-S", "-k", "sh", "-c",
        decodeInto "'tee' '/etc/tenodera/agent.cnf'" (String.ofList
          (newText (content.map String.toList) (strField data "role").toList))],
        some (password ++ "\n")⟩ := by
  have hcommand : " ".intercalate (["tee", envPath].map shellEscape) =
      "'tee' '/etc/tenodera/agent.cnf'" := by decide
  have hnul : Text.hasNul "'tee' '/etc/tenodera/agent.cnf'" = false := by decide
  unfold setRole
  rw [Prog.asks_bind, perform, Prog.asks_perform, or_iff_right (by simp)]
  simp only [Prog.returns_perform, true_and, asks_sudoStdinWriteAsUser_iff, hcommand, hnul,
    and_true, exists_and_left]

/-! ## The law -/

/-- Setting a role keeps the law of the three exactly when the file and the role fit. -/
theorem role_law_iff : RoleLaw file role ↔ Fits file role := by
  have hroles : (file.written role).roles = dedup (splitRoles role) ↔
      if '\n' ∈ trimmed role then
        dedup (leftover file.read ++ rolesOfLines (roleLines role)) = dedup (splitRoles role)
      else ∀ r ∈ leftover file.read, (splitRoles role).head? = some r := by
    rw [roles_written]
    split_ifs with hbreak
    · exact Iff.rfl
    · rw [rolesOfLines_roleLines hbreak]
      exact destutter_append_eq_iff _ _
  have hagain : (file.written role).written role = file.written role ↔
      (∀ line ∈ kept file.read, line.getLast? ≠ some '\r') ∧
        ∀ line ∈ roleLines role, isRoleLine line = true := by
    rw [← newText_again_iff]
    exact File.text.injEq _ _ ▸ Iff.rfl
  constructor
  · rintro ⟨hspared, -, hread, hsame⟩
    obtain ⟨hending, hlines⟩ := hagain.1 hsame
    refine ⟨fun hunreadable => ?_, hending, hlines, hroles.1 hread⟩
    have hoverwritten := hspared hunreadable
    rw [hunreadable] at hoverwritten
    cases hoverwritten
  · rintro ⟨hreadable, hending, hlines, hread⟩
    exact ⟨fun h => absurd h hreadable, others_written hlines, hroles.2 hread,
      hagain.2 ⟨hending, hlines⟩⟩

/-- A file that could not be read is replaced by the line of the role. -/
theorem unreadable_overwritten : ¬ RoleLaw .unreadable "web".toList := by
  intro h
  cases h.spared rfl

end

end Tenodera.Agent.RoleConfig
