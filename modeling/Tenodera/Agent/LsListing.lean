import Tenodera.Agent.GrepOutput
import Tenodera.Lib.Columns
import Tenodera.Lib.Trim

/-!
# Listings of directories

`parse_ls_output` reads the names, kinds and sizes of the entries out of what `ls -la` prints.  A
name that begins with white space, or that has an arrow in it, comes out as another one, and a
listing that has the words of an error in it is taken for one: `listing_law_iff`.
-/

namespace Tenodera.Agent.LsListing

open Text Utf8

inductive Kind
  | file | directory | symlink
  deriving DecidableEq

/-- An entry of the result. -/
structure Listed where
  name : List Char
  kind : Kind
  size : ℕ
  perms : List Char
  user : List Char
  group : List Char
  deriving DecidableEq

/-! ## Parsing -/

def arrow : List Char := " -> ".toList

/-- The text in front of the first arrow, or all of it. -/
def upToArrow (rest : List Char) : List Char :=
  match splitFound arrow rest with
  | some (before, _) => before
  | none => rest

/-- The loop of `extract_filename`. -/
def skipFields (fieldsSkipped : ℕ) (inField : Bool) : List Char → List Char
  | [] => []
  | c :: cs =>
    if isWhitespace c then
      if inField then
        if fieldsSkipped + 1 = 7 then upToArrow ((c :: cs).dropWhile isWhitespace)
        else skipFields (fieldsSkipped + 1) false cs
      else skipFields fieldsSkipped false cs
    else skipFields fieldsSkipped true cs

/-- `extract_filename`. -/
def extractFilename (line : List Char) : List Char := skipFields 0 false line

/-- The names of a directory itself and of its parent. -/
def isDot (name : List Char) : Bool := name = ".".toList || name = "..".toList

def kindOf (perms : List Char) : Kind :=
  if perms.head? = some 'd' then .directory
  else if perms.head? = some 'l' then .symlink
  else .file

/-- A line of `parse_ls_output`. -/
def parseLine (line : List Char) : Option Listed :=
  let name := extractFilename line
  if name = [] ∨ isDot name then none
  else
    match Words.words isWhitespace line with
    | perms :: _ :: user :: group :: size :: _ =>
      some ⟨name, kindOf perms, (parseUnsigned 64 (String.ofList size)).getD 0, perms, user, group⟩
    | _ => none

/-- `parse_ls_output`: the first line is the total. -/
def parseLsOutput (out : List Char) : List Listed := ((linesOf out).drop 1).filterMap parseLine

def denied : List Char := "Permission denied".toList

/-- What `list_as_user`, or with `elevated` `sudo_list_directory`, makes of what `ls` has printed;
`sudo_as_user` trims it. -/
def listed (elevated : Bool) (stdout : List Char) : Option (List Listed) :=
  let out := if elevated then trimmed stdout else stdout
  if "error:".toList <+: out ∨ (¬ elevated ∧ "sudo:".toList <:+: out) ∨ denied <:+: out then none
  else some (parseLsOutput out)

/-! ## What ls prints -/

/-- A directory entry in the columns of `ls`, with the white space that pads them. -/
structure Entry where
  kind : Kind
  /-- The permissions, behind the letter of the kind. -/
  mode : List Char
  links : ℕ
  owner : List Char
  group : List Char
  size : UInt64
  date : List Char
  time : List Char
  name : List Char
  /-- Of a symbolic link. -/
  target : List Char
  /-- The spaces behind a column that are not the first one. -/
  pad : ℕ → ℕ
  mode_solid : ∀ c ∈ mode, isWhitespace c = false
  owner_solid : IsColumn owner
  group_solid : IsColumn group
  date_solid : IsColumn date
  time_solid : IsColumn time
  name_line : name ≠ [] ∧ '\n' ∉ name
  target_line : '\n' ∉ target
  dot_kind : isDot name → kind = .directory

namespace Entry

variable (e : Entry)

def perms : List Char :=
  (match e.kind with
    | .file => '-'
    | .directory => 'd'
    | .symlink => 'l') :: e.mode

/-- The columns in front of the name. -/
def columns : List (List Char) :=
  [e.perms, Nat.toDigits 10 e.links, e.owner, e.group, Nat.toDigits 10 e.size.toNat, e.date, e.time]

/-- What stands behind the columns. -/
def tail : List Char := e.name ++ if e.kind = .symlink then arrow ++ e.target else []

/-- The entry in the result; the directory itself and its parent are left out. -/
def expected : Option Listed :=
  if isDot e.name then none
  else some ⟨e.name, e.kind, e.size.toNat, e.perms, e.owner, e.group⟩

end Entry

/-- The columns of an entry: one space stands between the last one and the name. -/
def Entry.front (e : Entry) : List Char := padded (fun n => if n = 0 then 0 else e.pad n) e.columns

def Entry.line (e : Entry) : List Char := e.front ++ e.tail

/-- The output of `ls -laH --time-style=long-iso`. -/
def listing (blocks : ℕ) (rows : List Entry) : List Char :=
  unlines (("total ".toList ++ Nat.toDigits 10 blocks) :: rows.map Entry.line)

/-! ## The law of the two -/

/-- The handler gives the entries of the listing, and no error. -/
def ListingLaw (elevated : Bool) (blocks : ℕ) (rows : List Entry) : Prop :=
  listed elevated (listing blocks rows) = some (rows.filterMap Entry.expected)

/-- The name comes out of the line of the entry. -/
structure Faithful (e : Entry) : Prop where
  head : ∀ c ∈ e.name.head?, isWhitespace c = false
  arrow : ¬ arrow <:+: if e.kind = .symlink then e.name ++ " ->".toList else e.name
  ending : e.kind ≠ .symlink → e.name.getLast? ≠ some '\r'

/-- The line of the entry keeps its end when the listing is trimmed. -/
def Ends (e : Entry) : Prop :=
  if e.kind = .symlink then ∃ c ∈ e.target, isWhitespace c = false
  else ∀ c ∈ e.name.getLast?, isWhitespace c = false

/-- The listing has no words of an error in it, and all names come out. -/
structure Fits (elevated : Bool) (blocks : ℕ) (rows : List Entry) : Prop where
  granted : ¬ denied <:+: listing blocks rows
  brokered : elevated = false → ¬ "sudo:".toList <:+: listing blocks rows
  entries : ∀ e ∈ rows, isDot e.name = false → Faithful e
  last : elevated = true → ∀ e ∈ rows.getLast?, isDot e.name = false → Ends e

section

variable {e : Entry} {rows : List Entry} {line rest name : List Char} {fields : List (List Char)}
  {n blocks : ℕ} {elevated : Bool}

/-! ## The columns -/

theorem skipFields_solid (h : ∀ c ∈ line, isWhitespace c = false) (n : ℕ) (inField : Bool)
    (rest : List Char) :
    skipFields n inField (line ++ rest) = skipFields n (inField || line ≠ []) rest := by
  induction line generalizing inField with
  | nil => simp
  | cons c line ih =>
    rw [List.forall_mem_cons] at h
    rw [List.cons_append, skipFields, if_neg (by simp [h.1]), ih h.2]
    simp

theorem skipFields_spaces (k n : ℕ) (rest : List Char) :
    skipFields n false (List.replicate k ' ' ++ rest) = skipFields n false rest := by
  induction k with
  | zero => rfl
  | succ k ih => rw [List.replicate_succ, List.cons_append, skipFields, if_pos (by decide),
      if_neg Bool.false_ne_true, ih]

/-- A column is skipped. -/
theorem skipFields_padded {pad : ℕ → ℕ}
    (h : ∀ f ∈ fields, IsColumn f)
    (hpad : pad 0 = 0) (hlen : n + fields.length = 7) (hne : fields ≠ []) (rest : List Char) :
    skipFields n false (padded pad fields ++ rest) = upToArrow (rest.dropWhile isWhitespace) := by
  induction fields generalizing n with
  | nil => exact absurd rfl hne
  | cons f fields ih =>
    rw [List.forall_mem_cons] at h
    obtain ⟨⟨hf, hsolid⟩, hfields⟩ := h
    rw [padded, List.append_assoc, skipFields_solid hsolid, List.cons_append, skipFields,
      if_pos (by decide), if_pos (by simp [hf])]
    rw [List.length_cons] at hlen
    by_cases hnil : fields = []
    · subst hnil
      simp only [List.length_nil] at hlen ⊢
      rw [if_pos (by omega), hpad, List.dropWhile_cons_of_pos (by decide)]
      rfl
    · have hlength := List.length_pos_iff.2 hnil
      rw [if_neg (by omega), List.append_assoc, skipFields_spaces, ih hfields (by omega) hnil]

theorem digits_solid (n : ℕ) : IsColumn (Nat.toDigits 10 n) := by
  refine ⟨Nat.toDigits_ne_nil, fun c hc => isWhitespace_of_isAlphanum ?_⟩
  simp [Char.isAlphanum, GrepOutput.digit_of_mem_toDigits hc]

theorem perms_solid (e : Entry) : IsColumn e.perms := by
  refine ⟨List.cons_ne_nil _ _, ?_⟩
  rw [Entry.perms, List.forall_mem_cons]
  refine ⟨?_, e.mode_solid⟩
  cases e.kind <;> decide

theorem columns_solid (e : Entry) : ∀ f ∈ e.columns, IsColumn f := by
  rw [Entry.columns]
  simp only [List.forall_mem_cons, List.not_mem_nil, false_imp_iff, implies_true, and_true]
  exact ⟨perms_solid e, digits_solid _, e.owner_solid, e.group_solid, digits_solid _, e.date_solid,
    e.time_solid⟩

theorem kindOf_perms (e : Entry) : kindOf e.perms = e.kind := by
  unfold kindOf Entry.perms
  cases e.kind <;> rfl

theorem extractFilename_front (e : Entry) (rest : List Char) :
    extractFilename (e.front ++ rest) = upToArrow (rest.dropWhile isWhitespace) :=
  skipFields_padded (columns_solid e) rfl rfl (List.cons_ne_nil _ _) rest

/-- Behind the columns of an entry, a line is read as an entry with another name. -/
theorem parseLine_front (e : Entry) (rest : List Char) : parseLine (e.front ++ rest) =
    let name := upToArrow (rest.dropWhile isWhitespace)
    if name = [] ∨ isDot name then none
    else some ⟨name, e.kind, e.size.toNat, e.perms, e.owner, e.group⟩ := by
  have hwords : Words.words isWhitespace (e.front ++ rest) =
      e.columns ++ Words.words isWhitespace rest := words_padded (columns_solid e) rest
  rw [parseLine, extractFilename_front, hwords]
  dsimp only
  split_ifs with hname
  · rfl
  · rw [Entry.columns]
    dsimp only [List.cons_append]
    rw [GrepOutput.parseUnsigned_toDigits, kindOf_perms, Option.getD_some]

/-! ## The arrow -/

theorem prefix_upToArrow (rest : List Char) : upToArrow rest <+: rest := by
  unfold upToArrow
  split
  · obtain ⟨rfl, -, -⟩ := splitFound_eq_some_iff.1 ‹_›
    exact List.prefix_append _ _
  · exact List.prefix_rfl

theorem upToArrow_eq_self_iff : upToArrow name = name ↔ ¬ arrow <:+: name := by
  unfold upToArrow
  split
  · rename_i before after hfound
    have hin : arrow <:+: name := by
      by_contra hnot
      rw [splitFound_eq_none_iff.2 hnot] at hfound
      cases hfound
    obtain ⟨rfl, hafter, -⟩ := splitFound_eq_some_iff.1 hfound
    refine iff_of_false (fun h => ?_) (not_not.2 hin)
    have hnil : after = [] := by simpa using h
    rw [hnil] at hafter
    exact absurd (List.prefix_nil.1 hafter) (by decide)
  · exact iff_of_true rfl (splitFound_eq_none_iff.1 ‹_›)

/-- The first arrow is that of the link iff none begins in the name. -/
theorem upToArrow_append_iff : upToArrow (name ++ (arrow ++ rest)) = name ↔
    ¬ arrow <:+: name ++ " ->".toList := by
  have hdrop : (name ++ arrow).dropLast = name ++ " ->".toList :=
    List.dropLast_append_of_ne_nil (by decide)
  have hin : arrow <:+: name ++ (arrow ++ rest) := ⟨name, rest, by rw [List.append_assoc]⟩
  rw [← hdrop, ← splitFound_append_iff (by decide) name rest, upToArrow]
  split
  · rename_i before after hfound
    obtain ⟨heq, -, -⟩ := splitFound_eq_some_iff.1 hfound
    rw [hfound, Option.some.injEq, Prod.mk.injEq, iff_self_and]
    rintro rfl
    exact (List.append_cancel_left heq).symm
  · rename_i hnone
    exact absurd hin (splitFound_eq_none_iff.1 hnone)

/-- A name that is read does not begin with white space. -/
theorem head_upToArrow {c : Char} (h : (upToArrow (rest.dropWhile isWhitespace)).head? = some c) :
    isWhitespace c = false := by
  obtain ⟨l, hl⟩ := List.head?_eq_some_iff.1 h
  obtain ⟨after, hafter⟩ := prefix_upToArrow (rest.dropWhile isWhitespace)
  rw [hl] at hafter
  have hhead : (trimmed rest).head? = some c := by rw [head?_trimmed, ← hafter]; rfl
  exact isWhitespace_of_head?_trimmed hhead

/-- Behind white space, a text is read as a name that begins as it does. -/
theorem upToArrow_dropWhile_iff
    (hfirst : (∀ c ∈ name.head?, isWhitespace c = false) →
      ∀ c ∈ rest.head?, isWhitespace c = false) :
    upToArrow (rest.dropWhile isWhitespace) = name ↔
      (∀ c ∈ name.head?, isWhitespace c = false) ∧ upToArrow rest = name := by
  have hdrop (h : ∀ c ∈ name.head?, isWhitespace c = false) :
      rest.dropWhile isWhitespace = rest := by
    have hrest := hfirst h
    cases rest with
    | nil => rfl
    | cons c rest => exact List.dropWhile_cons_of_neg (by simp [hrest c rfl])
  constructor
  · intro heq
    have hhead : ∀ c ∈ name.head?, isWhitespace c = false := fun c hc => by
      rw [← heq] at hc
      exact head_upToArrow hc
    exact ⟨hhead, by rw [← hdrop hhead, heq]⟩
  · rintro ⟨hhead, heq⟩
    rw [hdrop hhead, heq]

theorem read_prefix_iff (h : rest <+: name) :
    upToArrow (rest.dropWhile isWhitespace) = name ↔
      (∀ c ∈ name.head?, isWhitespace c = false) ∧ ¬ arrow <:+: name ∧ rest = name := by
  rw [upToArrow_dropWhile_iff fun hname c hc => hname c ?_]
  · refine and_congr_right fun _ => ⟨fun heq => ?_, ?_⟩
    · have hlength := (prefix_upToArrow rest).length_le
      rw [heq] at hlength
      obtain rfl := h.eq_of_length_le hlength
      exact ⟨upToArrow_eq_self_iff.1 heq, rfl⟩
    · rintro ⟨harrow, rfl⟩
      exact upToArrow_eq_self_iff.2 harrow
  · obtain ⟨after, rfl⟩ := h
    obtain ⟨l, rfl⟩ := List.head?_eq_some_iff.1 hc
    rfl

theorem read_link_iff (hname : name ≠ []) :
    upToArrow ((name ++ (arrow ++ rest)).dropWhile isWhitespace) = name ↔
      (∀ c ∈ name.head?, isWhitespace c = false) ∧ ¬ arrow <:+: name ++ " ->".toList := by
  obtain ⟨c, name, rfl⟩ := List.exists_cons_of_ne_nil hname
  have hfirst : (c :: name ++ (arrow ++ rest)).head? = (c :: name).head? := rfl
  rw [upToArrow_dropWhile_iff (by rw [hfirst]; exact id), upToArrow_append_iff]

/-- Without its space at the end, an arrow is read as a part of the name. -/
theorem upToArrow_append_ne (h : ¬ arrow <+: rest) (hrest : rest ≠ []) :
    upToArrow (name ++ rest) ≠ name := by
  unfold upToArrow
  split
  · rename_i before after hfound
    obtain ⟨heq, hafter, -⟩ := splitFound_eq_some_iff.1 hfound
    rintro rfl
    rw [List.append_cancel_left heq] at h
    exact h hafter
  · simpa using hrest

/-! ## The lines -/

theorem parseLine_eq_expected_iff (h : isDot e.name = false) :
    parseLine (e.front ++ rest) = e.expected ↔
      upToArrow (rest.dropWhile isWhitespace) = e.name := by
  have hname : ¬ (e.name = [] ∨ isDot e.name = true) := by simp [h, e.name_line.1]
  have hexpected : e.expected =
      some ⟨e.name, e.kind, e.size.toNat, e.perms, e.owner, e.group⟩ := by
    rw [Entry.expected, if_neg (by simp [h])]
  rw [parseLine_front, hexpected]
  dsimp only
  split_ifs with hread
  · refine iff_of_false (fun h => by cases h) ?_
    rintro heq
    exact hname (heq ▸ hread)
  · simp

/-- The lines of a directory itself and of its parent are left out. -/
theorem parseLine_dot (h : isDot e.name = true) :
    e.tail = e.name ∧ parseLine (e.front ++ e.name) = e.expected := by
  have hkind : e.kind ≠ .symlink := by
    rw [e.dot_kind h]
    decide
  have hread : upToArrow (e.name.dropWhile isWhitespace) = e.name := by
    rcases (Bool.or_eq_true _ _).mp h with hname | hname <;>
    · rw [of_decide_eq_true hname]
      decide
  refine ⟨by simp [Entry.tail, hkind], ?_⟩
  rw [parseLine_front, hread, Entry.expected, if_pos h]
  simp [h]

/-- What is read of the line of an entry, when a newline follows. -/
theorem parseLine_line_iff (e : Entry) : parseLine (stripCr e.line) = e.expected ↔
    (isDot e.name = false → Faithful e) := by
  have hne : e.tail ≠ [] := by simp [Entry.tail, e.name_line.1]
  rw [Entry.line, stripCr_append hne]
  by_cases hdot : isDot e.name = true
  · obtain ⟨htail, hread⟩ := parseLine_dot hdot
    have hcr : stripCr e.name = e.name := by
      rcases (Bool.or_eq_true _ _).mp hdot with hname | hname <;>
      · rw [of_decide_eq_true hname]
        decide
    rw [htail, hcr, hread]
    simp [hdot]
  · have hname : isDot e.name = false := Bool.eq_false_iff.2 hdot
    rw [parseLine_eq_expected_iff hname]
    by_cases hkind : e.kind = .symlink
    · have htail : ∃ t, stripCr e.tail = e.name ++ (arrow ++ t) := by
        rw [Entry.tail, if_pos hkind, stripCr_append (by simp [arrow])]
        by_cases hnil : e.target = []
        · exact ⟨[], by rw [hnil]; rfl⟩
        · exact ⟨stripCr e.target, by rw [stripCr_append hnil]⟩
      obtain ⟨t, ht⟩ := htail
      rw [ht, read_link_iff e.name_line.1]
      constructor
      · rintro ⟨hhead, harrow⟩ -
        exact ⟨hhead, by rwa [if_pos hkind], fun h => absurd hkind h⟩
      · intro h
        obtain ⟨hhead, harrow, -⟩ := h hname
        rw [if_pos hkind] at harrow
        exact ⟨hhead, harrow⟩
    · have htail : e.tail = e.name := by simp [Entry.tail, hkind]
      rw [htail, read_prefix_iff (prefix_stripCr _), stripCr_eq_self_iff]
      constructor
      · rintro ⟨hhead, harrow, hending⟩ -
        exact ⟨hhead, by rwa [if_neg hkind], fun _ => hending⟩
      · intro h
        obtain ⟨hhead, harrow, hending⟩ := h hname
        rw [if_neg hkind] at harrow
        exact ⟨hhead, harrow, hending hkind⟩

theorem head_extractFilename {c : Char} (line : List Char)
    (h : (extractFilename line).head? = some c) : isWhitespace c = false := by
  have hskip (cs : List Char) (n : ℕ) (inField : Bool)
      (hcs : (skipFields n inField cs).head? = some c) : isWhitespace c = false := by
    induction cs generalizing n inField with
    | nil => cases hcs
    | cons d cs ih =>
      rw [skipFields] at hcs
      split_ifs at hcs
      · exact head_upToArrow hcs
      · exact ih _ _ hcs
      · exact ih _ _ hcs
      · exact ih _ _ hcs
  exact hskip line 0 false h

theorem name_of_parseLine {x : Listed} (h : parseLine line = some x) :
    x.name = extractFilename line := by
  simp only [parseLine] at h
  split_ifs at h
  split at h <;> cases h
  rfl

/-- What is read of the line of an entry, when the listing ends and is trimmed there. -/
theorem parseLine_trimmed_iff (e : Entry) :
    parseLine (e.line.rdropWhile isWhitespace) = e.expected ↔
      (isDot e.name = false → Faithful e ∧ Ends e) := by
  have hne := e.name_line.1
  by_cases hdot : isDot e.name = true
  · obtain ⟨htail, hread⟩ := parseLine_dot hdot
    have hsolid : (∃ c ∈ e.name, ¬ isWhitespace c = true) ∧
        e.name.rdropWhile isWhitespace = e.name := by
      rcases (Bool.or_eq_true _ _).mp hdot with hname | hname <;>
      · rw [of_decide_eq_true hname]
        exact ⟨⟨'.', by decide, by decide⟩, by decide⟩
    rw [Entry.line, htail, Words.rdropWhile_append hsolid.1, hsolid.2, hread]
    simp [hdot]
  · have hname : isDot e.name = false := Bool.eq_false_iff.2 hdot
    have hexpected : e.expected =
        some ⟨e.name, e.kind, e.size.toNat, e.perms, e.owner, e.group⟩ := by
      rw [Entry.expected, if_neg hdot]
    rw [forall_prop_of_true hname]
    by_cases hkind : e.kind = .symlink
    · have htail : e.tail = (e.name ++ " -".toList) ++ '>' :: (' ' :: e.target) := by
        simp [Entry.tail, hkind, arrow]
      have hline : e.line.rdropWhile isWhitespace =
          e.front ++ ((e.name ++ " -".toList) ++
            '>' :: (' ' :: e.target).rdropWhile isWhitespace) := by
        rw [Entry.line, htail, ← Words.rdropWhile_append_cons (by decide)]
        exact Words.rdropWhile_append ⟨'>', by simp, by decide⟩ _
      rw [hline, parseLine_eq_expected_iff hname]
      by_cases hsolid : ∃ c ∈ e.target, isWhitespace c = false
      · have hdrop : (' ' :: e.target).rdropWhile isWhitespace =
            ' ' :: e.target.rdropWhile isWhitespace :=
          Words.rdropWhile_append (by simpa using hsolid) [' ']
        have hlink : (e.name ++ " -".toList) ++ '>' :: ' ' :: e.target.rdropWhile isWhitespace =
            e.name ++ (arrow ++ e.target.rdropWhile isWhitespace) := by simp [arrow]
        rw [hdrop, hlink, read_link_iff hne]
        constructor
        · rintro ⟨hhead, harrow⟩
          exact ⟨⟨hhead, by rwa [if_pos hkind], fun h => absurd hkind h⟩,
            by rwa [Ends, if_pos hkind]⟩
        · rintro ⟨⟨hhead, harrow, -⟩, -⟩
          rw [if_pos hkind] at harrow
          exact ⟨hhead, harrow⟩
      · -- The space of the arrow goes with the target.
        have hdrop : (' ' :: e.target).rdropWhile isWhitespace = [] := by
          refine List.rdropWhile_eq_nil_iff.2 fun c hc => ?_
          rcases List.mem_cons.1 hc with rfl | hc
          · decide
          · by_contra hc'
            exact hsolid ⟨c, hc, Bool.eq_false_iff.2 hc'⟩
        have hlink : (e.name ++ " -".toList) ++ ['>'] = e.name ++ " ->".toList := by simp
        have hfirst : (e.name ++ " ->".toList).head? = e.name.head? := by
          obtain ⟨c, name, hcons⟩ := List.exists_cons_of_ne_nil hne
          rw [hcons]
          rfl
        rw [hdrop, hlink, upToArrow_dropWhile_iff (by rw [hfirst]; exact id)]
        refine iff_of_false (fun h => ?_) fun h => ?_
        · exact upToArrow_append_ne (by decide) (by decide) h.2
        · have hends := h.2
          rw [Ends, if_pos hkind] at hends
          exact hsolid hends
    · have htail : e.tail = e.name := by simp [Entry.tail, hkind]
      rw [Entry.line, htail]
      by_cases hsolid : ∃ c ∈ e.name, ¬ isWhitespace c = true
      · rw [Words.rdropWhile_append hsolid, parseLine_eq_expected_iff hname,
          read_prefix_iff (List.rdropWhile_prefix _ _), List.rdropWhile_eq_self_iff]
        have hlast : (∀ hl : e.name ≠ [], ¬ isWhitespace (e.name.getLast hl) = true) ↔ Ends e := by
          rw [Ends, if_neg hkind, List.getLast?_eq_some_getLast hne]
          simp [hne]
        rw [hlast]
        constructor
        · rintro ⟨hhead, harrow, hends⟩
          refine ⟨⟨hhead, by rwa [if_neg hkind], fun _ hcr => ?_⟩, hends⟩
          rw [Ends, if_neg hkind] at hends
          exact absurd (hends _ hcr) (by decide)
        · rintro ⟨⟨hhead, harrow, -⟩, hends⟩
          rw [if_neg hkind] at harrow
          exact ⟨hhead, harrow, hends⟩
      · -- No name is left, or it is white space.
        obtain ⟨c, name, hcons⟩ := List.exists_cons_of_ne_nil hne
        have hwhite : isWhitespace c = true := by
          by_contra hc
          exact hsolid ⟨c, by simp [hcons], hc⟩
        refine iff_of_false (fun h => ?_) fun h => ?_
        · rw [hexpected] at h
          have hread := head_extractFilename (c := c) _ (by rw [← name_of_parseLine h, hcons]; rfl)
          rw [hwhite] at hread
          cases hread
        · have hhead := h.1.head c (by rw [hcons]; rfl)
          rw [hwhite] at hhead
          cases hhead

/-! ## The listing -/

theorem newline_notMem_line (e : Entry) : '\n' ∉ e.line := by
  have htail : '\n' ∉ e.tail := by
    have harrow : '\n' ∉ arrow := by decide
    rw [Entry.tail]
    split_ifs <;> simp [e.name_line.2, e.target_line, harrow]
  rw [Entry.line, List.mem_append, not_or]
  exact ⟨newline_notMem_padded (columns_solid e), htail⟩

theorem newline_notMem_total (blocks : ℕ) :
    '\n' ∉ "total ".toList ++ Nat.toDigits 10 blocks := by
  rw [List.mem_append, not_or]
  exact ⟨by decide, GrepOutput.notMem_toDigits (by decide)⟩

theorem newline_notMem_rows (blocks : ℕ) (rows : List Entry) :
    ∀ line ∈ ("total ".toList ++ Nat.toDigits 10 blocks) :: rows.map Entry.line, '\n' ∉ line := by
  rw [List.forall_mem_cons]
  refine ⟨newline_notMem_total blocks, fun line hline => ?_⟩
  obtain ⟨e, -, rfl⟩ := List.mem_map.1 hline
  exact newline_notMem_line e

theorem parseLsOutput_listing (blocks : ℕ) (rows : List Entry) :
    parseLsOutput (listing blocks rows) = rows.filterMap fun e => parseLine (stripCr e.line) := by
  rw [parseLsOutput, listing, linesOf_unlines (newline_notMem_rows blocks rows), List.map_cons,
    List.drop_one, List.tail_cons, List.map_map, List.filterMap_map]
  rfl

theorem exists_solid_line (e : Entry) : ∃ c ∈ e.line, ¬ isWhitespace c = true := by
  obtain ⟨hne, hsolid⟩ := perms_solid e
  obtain ⟨c, perms, hperms⟩ := List.exists_cons_of_ne_nil hne
  refine ⟨c, ?_, by simp [hsolid c (by simp [hperms])]⟩
  rw [Entry.line, Entry.front, Entry.columns, padded, hperms]
  simp

/-- Trimming takes the newline off, and what stands in front of it in the last line. -/
theorem trimmed_listing (blocks : ℕ) (rows : List Entry) (e : Entry) :
    trimmed (listing blocks (rows ++ [e])) =
      listing blocks rows ++ e.line.rdropWhile isWhitespace := by
  have hsplit : listing blocks (rows ++ [e]) = listing blocks rows ++ (e.line ++ ['\n']) := by
    simp [listing, unlines_append]
  have hhead : (listing blocks (rows ++ [e])).dropWhile isWhitespace =
      listing blocks (rows ++ [e]) := List.dropWhile_cons_of_neg (by decide)
  obtain ⟨c, hc, hsolid⟩ := exists_solid_line e
  rw [trimmed, hhead, hsplit,
    Words.rdropWhile_append ⟨c, List.mem_append_left _ hc, hsolid⟩,
    List.rdropWhile_concat_pos _ _ _ (by decide)]

theorem parseLsOutput_trimmed (blocks : ℕ) (rows : List Entry) (e : Entry) :
    parseLsOutput (trimmed (listing blocks (rows ++ [e]))) =
      (rows.filterMap fun e => parseLine (stripCr e.line)) ++
        (parseLine (e.line.rdropWhile isWhitespace)).toList := by
  have hnewline : '\n' ∉ e.line.rdropWhile isWhitespace := fun hmem =>
    newline_notMem_line e ((List.rdropWhile_prefix _ _).subset hmem)
  have hne : e.line.rdropWhile isWhitespace ≠ [] := by
    obtain ⟨c, hc, hsolid⟩ := exists_solid_line e
    intro hnil
    exact hsolid (List.rdropWhile_eq_nil_iff.1 hnil c hc)
  rw [trimmed_listing, parseLsOutput, listing, linesOf_unlines_append (newline_notMem_rows _ _),
    linesOf_of_notMem hnewline, if_neg hne, List.map_cons, List.cons_append, List.drop_one,
    List.tail_cons, List.filterMap_append, List.map_map, List.filterMap_map]
  congr 1

theorem parseLsOutput_trimmed_nil (blocks : ℕ) :
    parseLsOutput (trimmed (listing blocks [])) = [] := by
  have htrimmed : trimmed (listing blocks []) =
      trimmed ("total ".toList ++ Nat.toDigits 10 blocks) := by
    show trimmed (unlines [_]) = _
    rw [unlines_cons, unlines_nil, trimmed_concat (by decide)]
  have hnewline : '\n' ∉ trimmed (listing blocks []) := by
    rw [htrimmed]
    exact fun hmem => newline_notMem_total blocks
      ((List.dropWhile_suffix _).subset ((List.rdropWhile_prefix _ _).subset hmem))
  rw [parseLsOutput, linesOf_of_notMem hnewline]
  split_ifs <;> rfl

/-! ## The law -/

/-- The text does not begin as an error. -/
theorem not_error_prefix (out : List Char) (h : out.head? = some 't') :
    ¬ "error:".toList <+: out := by
  rintro ⟨rest, rfl⟩
  cases h

theorem expected_eq_none_iff : e.expected = none ↔ isDot e.name = true := by
  unfold Entry.expected
  split_ifs with hdot <;> simp [hdot]

/-- The entries come out of the untrimmed listing exactly when every name comes out of its line. -/
theorem parse_eq_expected_iff (blocks : ℕ) (rows : List Entry) :
    parseLsOutput (listing blocks rows) = rows.filterMap Entry.expected ↔
      ∀ e ∈ rows, isDot e.name = false → Faithful e := by
  rw [parseLsOutput_listing, filterMap_eq_iff fun e _ hnone => ?_]
  · exact forall₂_congr fun e _ => parseLine_line_iff e
  · rw [← hnone, parseLine_line_iff, expected_eq_none_iff.1 hnone]
    intro h
    cases h

theorem parse_trimmed_eq_expected_iff (blocks : ℕ) (rows : List Entry) :
    parseLsOutput (trimmed (listing blocks rows)) = rows.filterMap Entry.expected ↔
      (∀ e ∈ rows, isDot e.name = false → Faithful e) ∧
        ∀ e ∈ rows.getLast?, isDot e.name = false → Ends e := by
  rcases List.eq_nil_or_concat rows with rfl | ⟨init, last, rfl⟩
  · simp [parseLsOutput_trimmed_nil]
  · -- What is read of each line, and what is expected.
    let pairs : List (Option Listed × Option Listed) :=
      (init.map fun e => (parseLine (stripCr e.line), e.expected)) ++
        [(parseLine (last.line.rdropWhile isWhitespace), last.expected)]
    have hleft : parseLsOutput (trimmed (listing blocks (init ++ [last]))) =
        pairs.filterMap Prod.fst := by
      rw [parseLsOutput_trimmed, List.filterMap_append, List.filterMap_map]
      congr 1
    have hright : (init ++ [last]).filterMap Entry.expected = pairs.filterMap Prod.snd := by
      rw [List.filterMap_append, List.filterMap_append, List.filterMap_map]
      congr 1
    have hnone : ∀ p ∈ pairs, p.2 = none → p.1 = none := by
      intro p hp hnone
      rw [← hnone]
      rcases List.mem_append.1 hp with hp | hp
      · obtain ⟨e, -, rfl⟩ := List.mem_map.1 hp
        refine (parseLine_line_iff e).2 fun h => ?_
        rw [expected_eq_none_iff.1 hnone] at h
        cases h
      · obtain rfl := List.mem_singleton.1 hp
        refine (parseLine_trimmed_iff last).2 fun h => ?_
        rw [expected_eq_none_iff.1 hnone] at h
        cases h
    rw [List.concat_eq_append, hleft, hright, filterMap_eq_iff hnone, List.forall_mem_append,
      List.forall_mem_map, List.forall_mem_singleton, List.getLast?_concat, List.forall_mem_append,
      List.forall_mem_singleton]
    simp only [parseLine_line_iff, parseLine_trimmed_iff, Option.mem_def, Option.some.injEq,
      forall_eq', and_assoc]
    exact and_congr_right fun _ => imp_and

/-- The words of an error are in a trimmed listing when they are in the listing. -/
theorem denied_trimmed_iff (cs : List Char) : denied <:+: trimmed cs ↔ denied <:+: cs :=
  infix_trimmed_iff (by decide) (fun c hc => Option.some.inj hc ▸ (by decide))
    fun c hc => Option.some.inj hc ▸ (by decide)

/-- The handlers give the entries of a listing exactly when it fits. -/
theorem listing_law_iff (elevated : Bool) (blocks : ℕ) (rows : List Entry) :
    ListingLaw elevated blocks rows ↔ Fits elevated blocks rows := by
  have herror (rows : List Entry) : ¬ "error:".toList <+: listing blocks rows :=
    not_error_prefix _ rfl
  have htrimmed : ¬ "error:".toList <+: trimmed (listing blocks rows) := by
    refine not_error_prefix _ ?_
    rw [head?_trimmed]
    rfl
  cases elevated with
  | false =>
    simp only [ListingLaw, listed, Bool.false_eq_true, if_false, not_false_eq_true, true_and,
      herror, false_or]
    split_ifs with hwords
    · refine iff_of_false (fun h => by cases h) ?_
      rintro ⟨hgranted, hbrokered, -, -⟩
      exact hwords.elim (hbrokered rfl) hgranted
    · rw [not_or] at hwords
      rw [Option.some.injEq, parse_eq_expected_iff]
      exact ⟨fun h => ⟨hwords.2, fun _ => hwords.1, h, fun h => by cases h⟩, Fits.entries⟩
  | true =>
    simp only [ListingLaw, listed, if_true, not_true_eq_false, false_and, htrimmed, false_or,
      denied_trimmed_iff]
    split_ifs with hwords
    · exact iff_of_false (fun h => by cases h) fun h => h.granted hwords
    · rw [Option.some.injEq, parse_trimmed_eq_expected_iff]
      exact ⟨fun h => ⟨hwords, (fun h => by cases h), h.1, fun _ => h.2⟩,
        fun h => ⟨h.entries, h.last rfl⟩⟩

/-- A file with an arrow in its name. -/
def arrowFile : Entry where
  kind := .file
  mode := "rw-r--r--".toList
  links := 1
  owner := "alice".toList
  group := "staff".toList
  size := 5
  date := "2025-03-10".toList
  time := "12:00".toList
  name := "a -> b".toList
  target := []
  pad := fun _ => 0
  mode_solid := (show IsColumn "rw-r--r--".toList by decide).2
  owner_solid := by decide
  group_solid := by decide
  date_solid := by decide
  time_solid := by decide
  name_line := by decide
  target_line := by decide
  dot_kind := by decide

/-- It is listed under the name of another file. -/
theorem arrow_file_misread : ¬ ListingLaw false 0 [arrowFile] := by
  have hread : listed false (listing 0 [arrowFile]) = some [⟨"a".toList, .file, 5,
      "-rw-r--r--".toList, "alice".toList, "staff".toList⟩] := by decide +kernel
  rw [ListingLaw, hread]
  decide

end

end Tenodera.Agent.LsListing
