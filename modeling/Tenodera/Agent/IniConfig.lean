import Mathlib.Data.List.Nodup
import Tenodera.Lib.Trim

/-!
# Sections of keys and values

`ini_get` and `ini_set` of the automatic updates, on the text of `automatic.conf`.  A missing key is
added at the end of each section of the name, up to the first that has it; a carriage return that is
left at the end of a line is taken off by the next write: `ini_set_iff`.
-/

namespace Tenodera.Agent.IniConfig

open Text

/-! ## Reading -/

/-- A trimmed line that begins a section. -/
def isHeader (l : List Char) : Bool := l.head? = some '[' && l.getLast? = some ']'

/-- `&l[1..l.len() - 1]`. -/
def inner (l : List Char) : List Char := l.tail.dropLast

/-- The key of a trimmed line, and what is behind the `=`. -/
def splitKey (l : List Char) : Option (List Char × List Char) :=
  (Words.splitOnce (· = '=') l).map fun s => (trimmed s.1, s.2)

/-- The loop of `ini_get`. -/
def getLoop (sect key : List Char) : Bool → List (List Char) → Option (List Char)
  | _, [] => none
  | inSection, line :: rest =>
    let l := trimmed line
    if isHeader l then getLoop sect key (inner l = sect) rest
    else
      match if inSection then splitKey l else none with
      | some (k, v) => if k = key then some (trimmed v) else getLoop sect key inSection rest
      | none => getLoop sect key inSection rest

/-- `ini_get`. -/
def iniGet (content sect key : List Char) : Option (List Char) :=
  getLoop sect key false (linesOf content)

/-! ## Writing -/

abbrev Entry : Type := List Char × List Char

/-- The line of an entry. -/
def assignment (e : Entry) : List Char := e.1 ++ ' ' :: '=' :: ' ' :: e.2

/-- The line that begins a section. -/
def header (sect : List Char) : List Char := '[' :: (sect ++ [']'])

/-- `ini_append_missing`. -/
def missing (kv : List Entry) (set : List (List Char)) : List (List Char) :=
  (kv.filter fun e => e.1 ∉ set).map assignment

/-- The entry whose key a trimmed line has. -/
def entryOf (kv : List Entry) (l : List Char) : Option Entry :=
  (splitKey l).bind fun s => kv.find? fun e => e.1 = s.1

/-- The loop of `ini_set`, and what it adds at the end: the flags say whether the line is in the
section and whether the section has been seen, `set` are the keys that have been. -/
def setLoop (sect : List Char) (kv : List Entry) :
    Bool → Bool → List (List Char) → List (List Char) → List (List Char)
  | inSection, seen, set, [] =>
    (if inSection then missing kv set else []) ++
      if seen then [] else header sect :: kv.map assignment
  | inSection, seen, set, line :: rest =>
    let l := trimmed line
    if isHeader l then
      (if inSection then missing kv set else []) ++
        line :: setLoop sect kv (inner l = sect) (seen || inner l = sect) set rest
    else
      match if inSection then entryOf kv l else none with
      | some e => assignment e :: setLoop sect kv inSection seen (e.1 :: set) rest
      | none => line :: setLoop sect kv inSection seen set rest

/-- `ini_set`. -/
def iniSet (content sect : List Char) (kv : List Entry) : List Char :=
  ['\n'].intercalate (setLoop sect kv false false [] (linesOf content)) ++ ['\n']

/-! ## The law of the two -/

/-- A key and a value as the callers pass them. -/
structure IsEntry (e : Entry) : Prop where
  trimmed_key : trimmed e.1 = e.1
  key_ne : e.1 ≠ []
  equals : '=' ∉ e.1
  newline_key : '\n' ∉ e.1
  bracket : e.1.head? ≠ some '['
  trimmed_value : trimmed e.2 = e.2
  newline_value : '\n' ∉ e.2

/-- A list of entries with distinct keys. -/
structure IsUpdate (kv : List Entry) : Prop where
  entry : ∀ e ∈ kv, IsEntry e
  nodup : (kv.map Prod.fst).Nodup

/-- The lines that are written as they are. -/
def keptLoop (sect : List Char) (kv : List Entry) : Bool → List (List Char) → List (List Char)
  | _, [] => []
  | inSection, line :: rest =>
    let l := trimmed line
    if isHeader l then line :: keptLoop sect kv (inner l = sect) rest
    else if inSection ∧ (entryOf kv l).isSome then keptLoop sect kv inSection rest
    else line :: keptLoop sect kv inSection rest

/-- No line that is kept ends in a carriage return. -/
def Settled (content sect : List Char) (kv : List Entry) : Prop :=
  ∀ line ∈ keptLoop sect kv false (linesOf content), line.getLast? ≠ some '\r'

section

variable {sect sect' key content line line' : List Char} {kv sub : List Entry} {e : Entry}
  {set set' lines rest : List (List Char)} {inSection inSection' seen : Bool}

/-! ## The lines that are written -/

theorem getLast?_assignment_ne (h : IsEntry e) : (assignment e).getLast? ≠ some '\r' := by
  show (e.1 ++ ' ' :: '=' :: ' ' :: e.2).getLast? ≠ some '\r'
  rw [List.getLast?_append_cons, List.getLast?_cons_cons, List.getLast?_cons_cons]
  intro hcr
  by_cases hnil : e.2 = []
  · rw [hnil] at hcr
    cases hcr
  · rw [List.getLast?_cons_of_ne_nil hnil, ← h.trimmed_value] at hcr
    exact absurd (isWhitespace_of_getLast?_trimmed hcr) (by decide)

theorem newline_notMem_assignment (h : IsEntry e) : '\n' ∉ assignment e := by
  simp [assignment, h.newline_key, h.newline_value]

theorem stripCr_assignment (h : IsEntry e) : stripCr (assignment e) = assignment e :=
  stripCr_eq_self (getLast?_assignment_ne h)

theorem isHeader_header (sect : List Char) : trimmed (header sect) = header sect ∧
    isHeader (header sect) = true ∧ inner (header sect) = sect ∧
      stripCr (header sect) = header sect := by
  have hlast : (header sect).getLast? = some ']' := by
    rw [header, ← List.cons_append, List.getLast?_concat]
  refine ⟨trimmed_eq_self ?_ ?_, ?_, ?_, stripCr_eq_self (by simp [hlast])⟩
  · intro c hc
    cases Option.some.inj hc
    decide
  · intro c hc
    rw [hlast] at hc
    cases Option.some.inj hc
    decide
  · rw [isHeader, hlast]
    rfl
  · simp [inner, header]

/-- The line of an entry is read as that entry. -/
theorem read_assignment (h : IsEntry e) : isHeader (trimmed (assignment e)) = false ∧
    ∃ v, splitKey (trimmed (assignment e)) = some (e.1, v) ∧ trimmed v = e.2 := by
  obtain ⟨c, key, hkey⟩ := List.exists_cons_of_ne_nil h.key_ne
  have hwhite : ¬ isWhitespace c = true := by
    have hhead : (trimmed e.1).head? = some c := by
      rw [h.trimmed_key, hkey]
      rfl
    rw [isWhitespace_of_head?_trimmed hhead]
    decide
  have hdrop : (assignment e).dropWhile isWhitespace = assignment e := by
    rw [assignment, hkey]
    exact List.dropWhile_cons_of_neg hwhite
  constructor
  · have hhead : (trimmed (assignment e)).head? = some c := by
      rw [head?_trimmed, hdrop, assignment, hkey]
      rfl
    have hc : c ≠ '[' := by
      rintro rfl
      exact h.bracket (by rw [hkey]; rfl)
    simp [isHeader, hhead, hc]
  · have hequals : ∀ a : Char, decide (a = '=') = true → isWhitespace a = false := by
      intro a ha
      rw [of_decide_eq_true ha]
      decide
    have hkey_equals : ∀ a ∈ e.1 ++ [' '], decide (a = '=') = false := by
      intro a ha
      rw [decide_eq_false_iff_not]
      rintro rfl
      simp [h.equals] at ha
    have hsplit : Words.splitOnce (· = '=') (assignment e) =
        some (e.1 ++ [' '], ' ' :: e.2) := by
      have happend : assignment e = (e.1 ++ [' ']) ++ '=' :: (' ' :: e.2) := by
        simp [assignment]
      rw [happend]
      exact Words.splitOnce_append_cons hkey_equals (by decide) _
    refine ⟨(' ' :: e.2).rdropWhile isWhitespace, ?_, ?_⟩
    · rw [trimmed, hdrop, splitKey, Words.splitOnce_rdropWhile hequals, hsplit]
      show some (trimmed (e.1 ++ [' ']), _) = _
      rw [trimmed_concat (by decide), h.trimmed_key]
    · rw [trimmed_rdropWhile, trimmed, List.dropWhile_cons_of_pos (by decide), ← trimmed,
        h.trimmed_value]

/-! ## Entries and lines -/

theorem IsUpdate.eq_of_key (h : IsUpdate kv) {e' : Entry} (he : e ∈ kv) (he' : e' ∈ kv)
    (hkey : e.1 = e'.1) : e = e' :=
  List.inj_on_of_nodup_map h.nodup he he' hkey

theorem of_entryOf (h : entryOf kv line = some e) :
    e ∈ kv ∧ ∃ v, splitKey line = some (e.1, v) := by
  obtain ⟨⟨k, v⟩, hsplit, hfind⟩ := Option.bind_eq_some_iff.1 h
  have hkey : e.1 = k := by simpa using List.find?_some hfind
  exact ⟨List.mem_of_find?_eq_some hfind, v, by rw [hsplit, hkey]⟩

theorem ne_of_entryOf_eq_none (h : entryOf kv line = none) (he : e ∈ kv) {k v : List Char}
    (hsplit : splitKey line = some (k, v)) : k ≠ e.1 := by
  rintro rfl
  rw [entryOf, hsplit, Option.bind_some, List.find?_eq_none] at h
  exact h e he (decide_eq_true rfl)

theorem entryOf_assignment (hkv : IsUpdate kv) (he : e ∈ kv) :
    entryOf kv (trimmed (assignment e)) = some e := by
  obtain ⟨-, v, hsplit, -⟩ := read_assignment (hkv.entry e he)
  cases hentry : entryOf kv (trimmed (assignment e)) with
  | none => exact absurd rfl (ne_of_entryOf_eq_none hentry he hsplit)
  | some e' =>
    obtain ⟨he', v', hsplit'⟩ := of_entryOf hentry
    rw [hsplit] at hsplit'
    have hkey : e'.1 = e.1 := (Prod.mk.inj (Option.some.inj hsplit')).1.symm
    rw [hkv.eq_of_key he' he hkey]

/-! ## One line at a time -/

theorem getLoop_header (h : isHeader (trimmed line) = true) (inSection : Bool) :
    getLoop sect key inSection (line :: rest) =
      getLoop sect key (inner (trimmed line) = sect) rest :=
  if_pos h

theorem getLoop_outside (h : isHeader (trimmed line) = false) :
    getLoop sect key false (line :: rest) = getLoop sect key false rest :=
  if_neg (by simp [h])

theorem getLoop_inside (h : isHeader (trimmed line) = false) :
    getLoop sect key true (line :: rest) =
      match splitKey (trimmed line) with
      | some (k, v) => if k = key then some (trimmed v) else getLoop sect key true rest
      | none => getLoop sect key true rest :=
  if_neg (by simp [h])

/-- A line in front that begins no section. -/
theorem getLoop_line_congr (hheader : isHeader (trimmed line) = false)
    (h : getLoop sect key inSection lines = getLoop sect key inSection rest) :
    getLoop sect key inSection (line :: lines) = getLoop sect key inSection (line :: rest) := by
  cases inSection with
  | false => rw [getLoop_outside hheader, getLoop_outside hheader, h]
  | true => rw [getLoop_inside hheader, getLoop_inside hheader, h]

theorem setLoop_header (h : isHeader (trimmed line) = true) :
    setLoop sect kv inSection seen set (line :: rest) =
      (if inSection then missing kv set else []) ++
        line :: setLoop sect kv (inner (trimmed line) = sect)
          (seen || inner (trimmed line) = sect) set rest :=
  if_pos h

theorem setLoop_outside (h : isHeader (trimmed line) = false) :
    setLoop sect kv false seen set (line :: rest) =
      line :: setLoop sect kv false seen set rest :=
  if_neg (by simp [h])

theorem setLoop_inside (h : isHeader (trimmed line) = false) :
    setLoop sect kv true seen set (line :: rest) =
      match entryOf kv (trimmed line) with
      | some e => assignment e :: setLoop sect kv true seen (e.1 :: set) rest
      | none => line :: setLoop sect kv true seen set rest :=
  if_neg (by simp [h])

/-! ## What is read behind the lines of entries -/

theorem getLoop_assignment (h : IsEntry e) : getLoop sect key true (assignment e :: rest) =
    if e.1 = key then some e.2 else getLoop sect key true rest := by
  obtain ⟨hheader, v, hsplit, hv⟩ := read_assignment h
  rw [getLoop_inside hheader, hsplit]
  show (if e.1 = key then some (trimmed v) else _) = _
  rw [hv]

/-- Entries that are not looked for are passed over. -/
theorem getLoop_assignments (hsub : ∀ e ∈ sub, IsEntry e)
    (hskip : inSection = true → ∀ e ∈ sub, e.1 ≠ key) (rest : List (List Char)) :
    getLoop sect key inSection (sub.map assignment ++ rest) = getLoop sect key inSection rest := by
  induction sub with
  | nil => rfl
  | cons e sub ih =>
    obtain ⟨he, hsub⟩ := List.forall_mem_cons.1 hsub
    have hrest := ih hsub fun hin e' he' => hskip hin e' (List.mem_cons_of_mem _ he')
    rw [List.map_cons, List.cons_append]
    cases inSection with
    | false => rw [getLoop_outside (read_assignment he).1, hrest]
    | true => rw [getLoop_assignment he, if_neg (hskip rfl e List.mem_cons_self), hrest]

/-- An entry is found among those of an update. -/
theorem getLoop_mem_assignments (hkv : IsUpdate kv) (hsub : sub ⊆ kv) (he : e ∈ sub)
    (rest : List (List Char)) :
    getLoop sect e.1 true (sub.map assignment ++ rest) = some e.2 := by
  induction sub with
  | nil => cases he
  | cons e' sub ih =>
    have he' : e' ∈ kv := hsub List.mem_cons_self
    rw [List.map_cons, List.cons_append, getLoop_assignment (hkv.entry e' he')]
    split_ifs with hkey
    · rw [hkv.eq_of_key he' (hsub he) hkey]
    · have hne : e ≠ e' := fun heq => hkey (congrArg Prod.fst heq.symm)
      exact ih (fun x hx => hsub (List.mem_cons_of_mem _ hx))
        ((List.mem_cons.1 he).resolve_left hne)

theorem getLoop_missing (hkv : IsUpdate kv) (he : e ∈ kv) (hset : e.1 ∉ set)
    (rest : List (List Char)) : getLoop sect e.1 true (missing kv set ++ rest) = some e.2 :=
  getLoop_mem_assignments hkv (List.filter_subset_self kv)
    (List.mem_filter.2 ⟨he, decide_eq_true hset⟩) rest

/-! ## What is read from the new lines -/

/-- A listed key that is still to be set is read back. -/
theorem getLoop_setLoop_of_mem (hkv : IsUpdate kv) (he : e ∈ kv) (hset : e.1 ∉ set)
    (hstate : inSection = true ∨ seen = false) :
    getLoop sect e.1 inSection (setLoop sect kv inSection seen set lines) = some e.2 := by
  induction lines generalizing inSection seen set with
  | nil =>
    cases inSection with
    | true => exact getLoop_missing hkv he hset _
    | false =>
      obtain rfl : seen = false := hstate.resolve_left (by decide)
      obtain ⟨htrimmed, hheader, hinner, -⟩ := isHeader_header sect
      show getLoop sect e.1 false (header sect :: kv.map assignment) = some e.2
      rw [getLoop_header (by rw [htrimmed, hheader]), htrimmed, hinner, decide_eq_true rfl,
        ← List.append_nil (kv.map assignment)]
      exact getLoop_mem_assignments hkv (List.Subset.refl kv) he []
  | cons line rest ih =>
    cases hheader : isHeader (trimmed line) with
    | true =>
      rw [setLoop_header hheader]
      cases inSection with
      | true => exact getLoop_missing hkv he hset _
      | false =>
        obtain rfl : seen = false := hstate.resolve_left (by decide)
        rw [if_neg (by decide), List.nil_append, getLoop_header hheader, Bool.false_or]
        refine ih hset ?_
        cases decide (inner (trimmed line) = sect)
        · exact .inr rfl
        · exact .inl rfl
    | false =>
      cases inSection with
      | false => rw [setLoop_outside hheader, getLoop_outside hheader, ih hset hstate]
      | true =>
        rw [setLoop_inside hheader]
        cases hentry : entryOf kv (trimmed line) with
        | some e' =>
          have he' : e' ∈ kv := (of_entryOf hentry).1
          show getLoop sect e.1 true (assignment e' :: _) = some e.2
          rw [getLoop_assignment (hkv.entry e' he')]
          split_ifs with hkey
          · rw [hkv.eq_of_key he' he hkey]
          · refine ih (fun hmem => ?_) (.inl rfl)
            rcases List.mem_cons.1 hmem with heq | hmem
            · exact hkey heq.symm
            · exact hset hmem
        | none =>
          show getLoop sect e.1 true (line :: _) = some e.2
          rw [getLoop_inside hheader]
          cases hsplit : splitKey (trimmed line) with
          | none => exact ih hset (.inl rfl)
          | some s =>
            show (if s.1 = e.1 then _ else _) = _
            rw [if_neg (ne_of_entryOf_eq_none hentry he hsplit)]
            exact ih hset (.inl rfl)

/-- The entries that are added at the end of a section are passed over by who looks for others. -/
theorem getLoop_added (hkv : IsUpdate kv) (hother : sect' = sect → ∀ e ∈ kv, e.1 ≠ key)
    (hapart : sect' ≠ sect → inSection = true → inSection' = false) (rest : List (List Char)) :
    getLoop sect' key inSection' ((if inSection then missing kv set else []) ++ rest) =
      getLoop sect' key inSection' rest := by
  cases inSection with
  | false => rfl
  | true =>
    have hsub : kv.filter (fun e => e.1 ∉ set) ⊆ kv := List.filter_subset_self kv
    refine getLoop_assignments (fun e he => hkv.entry e (hsub he)) (fun hin e he => ?_) rest
    by_cases hsect : sect' = sect
    · exact hother hsect e (hsub he)
    · rw [hapart hsect rfl] at hin
      cases hin

/-- What is not listed is read as before: the flags of the reader and of the writer agree when they
are about the same section. -/
theorem getLoop_setLoop_of_other (hkv : IsUpdate kv) (hother : sect' = sect → ∀ e ∈ kv, e.1 ≠ key)
    (hsame : sect' = sect → inSection' = inSection)
    (hapart : sect' ≠ sect → inSection = true → inSection' = false) :
    getLoop sect' key inSection' (setLoop sect kv inSection seen set lines) =
      getLoop sect' key inSection' lines := by
  induction lines generalizing inSection inSection' seen set with
  | nil =>
    rw [setLoop, getLoop_added hkv hother hapart]
    cases seen with
    | true => rfl
    | false =>
      obtain ⟨htrimmed, hheader, hinner, -⟩ := isHeader_header sect
      rw [if_neg (by decide), getLoop_header (by rw [htrimmed, hheader]), htrimmed, hinner,
        ← List.append_nil (kv.map assignment), getLoop_assignments hkv.entry]
      · rfl
      · exact fun hin => hother (of_decide_eq_true hin).symm
  | cons line rest ih =>
    cases hheader : isHeader (trimmed line) with
    | true =>
      rw [setLoop_header hheader, getLoop_added hkv hother hapart, getLoop_header hheader,
        getLoop_header hheader]
      apply ih
      · rintro rfl
        rfl
      · intro hsect hin
        rw [of_decide_eq_true hin]
        exact decide_eq_false (Ne.symm hsect)
    | false =>
      cases inSection with
      | false =>
        rw [setLoop_outside hheader]
        exact getLoop_line_congr hheader (ih hsame hapart)
      | true =>
        rw [setLoop_inside hheader]
        cases hentry : entryOf kv (trimmed line) with
        | none => exact getLoop_line_congr hheader (ih hsame hapart)
        | some e =>
          obtain ⟨he, v, hsplit⟩ := of_entryOf hentry
          show getLoop sect' key inSection' (assignment e :: _) = _
          cases inSection' with
          | false =>
            rw [getLoop_outside (read_assignment (hkv.entry e he)).1, getLoop_outside hheader,
              ih hsame hapart]
          | true =>
            have hsect : sect' = sect := by
              by_contra hsect
              exact Bool.noConfusion (hapart hsect rfl)
            have hne : e.1 ≠ key := hother hsect e he
            rw [getLoop_assignment (hkv.entry e he), if_neg hne, getLoop_inside hheader, hsplit,
              ih hsame hapart]
            exact (if_neg hne).symm

/-! ## The new text -/

theorem setLoop_ne_nil : setLoop sect kv false false set lines ≠ [] := by
  cases lines with
  | nil => exact List.cons_ne_nil _ _
  | cons line rest =>
    cases hheader : isHeader (trimmed line) with
    | true =>
      rw [setLoop_header hheader]
      exact List.cons_ne_nil _ _
    | false =>
      rw [setLoop_outside hheader]
      exact List.cons_ne_nil _ _

theorem keptLoop_header (h : isHeader (trimmed line) = true) :
    keptLoop sect kv inSection (line :: rest) =
      line :: keptLoop sect kv (inner (trimmed line) = sect) rest :=
  if_pos h

theorem keptLoop_line (h : isHeader (trimmed line) = false) :
    keptLoop sect kv inSection (line :: rest) =
      if inSection ∧ (entryOf kv (trimmed line)).isSome then keptLoop sect kv inSection rest
      else line :: keptLoop sect kv inSection rest :=
  if_neg (by simp [h])

/-- A line begins a section, is replaced by that of an entry, or is kept. -/
theorem line_cases (kv : List Entry) (inSection : Bool) (line : List Char) :
    isHeader (trimmed line) = true ∨
      isHeader (trimmed line) = false ∧
        ((inSection = true ∧ ∃ e, entryOf kv (trimmed line) = some e) ∨
          (inSection = true → entryOf kv (trimmed line) = none)) := by
  cases isHeader (trimmed line) with
  | true => exact .inl rfl
  | false =>
    refine .inr ⟨rfl, ?_⟩
    cases hentry : entryOf kv (trimmed line) with
    | none => exact .inr fun _ => rfl
    | some e =>
      cases inSection with
      | true => exact .inl ⟨rfl, e, rfl⟩
      | false => exact .inr fun h => by cases h

theorem loops_of_entry (sect : List Char) (seen : Bool) (set rest : List (List Char))
    (h : isHeader (trimmed line) = false) (hentry : entryOf kv (trimmed line) = some e) :
    setLoop sect kv true seen set (line :: rest) =
        assignment e :: setLoop sect kv true seen (e.1 :: set) rest ∧
      keptLoop sect kv true (line :: rest) = keptLoop sect kv true rest := by
  rw [setLoop_inside h, keptLoop_line h, hentry]
  exact ⟨rfl, if_pos ⟨rfl, rfl⟩⟩

theorem loops_of_kept (sect : List Char) (seen : Bool) (set rest : List (List Char))
    (h : isHeader (trimmed line) = false)
    (hentry : inSection = true → entryOf kv (trimmed line) = none) :
    setLoop sect kv inSection seen set (line :: rest) =
        line :: setLoop sect kv inSection seen set rest ∧
      keptLoop sect kv inSection (line :: rest) = line :: keptLoop sect kv inSection rest := by
  rw [keptLoop_line h]
  cases inSection with
  | false => exact ⟨setLoop_outside h, if_neg (by simp)⟩
  | true =>
    rw [setLoop_inside h, hentry rfl]
    exact ⟨rfl, if_neg (by simp)⟩

theorem exists_of_mem_assignments (hsub : sub ⊆ kv) (h : line ∈ sub.map assignment) :
    ∃ e ∈ kv, line = assignment e := by
  obtain ⟨e, he, rfl⟩ := List.mem_map.1 h
  exact ⟨e, hsub he, rfl⟩

theorem exists_of_mem_added (h : line ∈ if inSection then missing kv set else []) :
    ∃ e ∈ kv, line = assignment e := by
  split_ifs at h
  · exact exists_of_mem_assignments (List.filter_subset_self kv) h
  · cases h

/-- A line of the new text is a kept one, or that of an entry or of the section. -/
theorem mem_setLoop (h : line ∈ setLoop sect kv inSection seen set lines) :
    line ∈ keptLoop sect kv inSection lines ∨ (∃ e ∈ kv, line = assignment e) ∨
      line = header sect := by
  induction lines generalizing inSection seen set with
  | nil =>
    rcases List.mem_append.1 h with h | h
    · exact .inr (.inl (exists_of_mem_added h))
    · split_ifs at h
      · cases h
      · rcases List.mem_cons.1 h with h | h
        · exact .inr (.inr h)
        · exact .inr (.inl (exists_of_mem_assignments (List.Subset.refl kv) h))
  | cons l rest ih =>
    rcases line_cases kv inSection l with hheader | ⟨hheader, ⟨rfl, e, hentry⟩ | hentry⟩
    · rw [setLoop_header hheader] at h
      rw [keptLoop_header hheader]
      rcases List.mem_append.1 h with h | h
      · exact .inr (.inl (exists_of_mem_added h))
      · rcases List.mem_cons.1 h with rfl | h
        · exact .inl List.mem_cons_self
        · exact (ih h).imp_left (List.mem_cons_of_mem l)
    · obtain ⟨hset, hkept⟩ := loops_of_entry sect seen set rest hheader hentry
      rw [hset] at h
      rw [hkept]
      rcases List.mem_cons.1 h with rfl | h
      · exact .inr (.inl ⟨e, (of_entryOf hentry).1, rfl⟩)
      · exact ih h
    · obtain ⟨hset, hkept⟩ := loops_of_kept sect seen set rest hheader hentry
      rw [hset] at h
      rw [hkept]
      rcases List.mem_cons.1 h with rfl | h
      · exact .inl List.mem_cons_self
      · exact (ih h).imp_left (List.mem_cons_of_mem l)

theorem keptLoop_subset : keptLoop sect kv inSection lines ⊆
    setLoop sect kv inSection seen set lines := by
  induction lines generalizing inSection seen set with
  | nil => exact List.nil_subset _
  | cons l rest ih =>
    rcases line_cases kv inSection l with hheader | ⟨hheader, ⟨rfl, e, hentry⟩ | hentry⟩
    · rw [setLoop_header hheader, keptLoop_header hheader]
      exact List.Subset.trans (List.cons_subset_cons l ih) (List.subset_append_right _ _)
    · obtain ⟨hset, hkept⟩ := loops_of_entry sect seen set rest hheader hentry
      rw [hset, hkept]
      exact List.Subset.trans ih (List.subset_cons_self _ _)
    · obtain ⟨hset, hkept⟩ := loops_of_kept sect seen set rest hheader hentry
      rw [hset, hkept]
      exact List.cons_subset_cons l ih

/-! ## A second write -/

/-- The lines of entries are written as they are, and their keys have then been set. -/
theorem setLoop_assignments (hkv : IsUpdate kv) (hsub : sub ⊆ kv) (rest : List (List Char)) :
    setLoop sect kv true seen set (sub.map assignment ++ rest) =
      sub.map assignment ++
        setLoop sect kv true seen ((sub.map Prod.fst).reverse ++ set) rest := by
  induction sub generalizing set with
  | nil => rfl
  | cons e sub ih =>
    have he : e ∈ kv := hsub List.mem_cons_self
    have hrest : sub ⊆ kv := fun x hx => hsub (List.mem_cons_of_mem _ hx)
    rw [List.map_cons, List.cons_append, setLoop_inside (read_assignment (hkv.entry e he)).1,
      entryOf_assignment hkv he]
    show assignment e :: setLoop sect kv true seen (e.1 :: set) _ = _
    rw [ih hrest, List.map_cons, List.reverse_cons, List.append_assoc]
    rfl

theorem map_stripCr_assignments (hkv : IsUpdate kv) (hsub : sub ⊆ kv) :
    (sub.map assignment).map stripCr = sub.map assignment := by
  rw [List.map_map]
  exact List.map_congr_left fun e he => stripCr_assignment (hkv.entry e (hsub he))

theorem missing_eq_nil (h : ∀ e ∈ kv, e.1 ∈ set) : missing kv set = [] := by
  rw [missing, List.map_eq_nil_iff, List.filter_eq_nil_iff]
  intro e he
  simp [h e he]

/-- What is missing is added at the end of a section, and then nothing is missing there. -/
theorem setLoop_added (sect : List Char) (seen : Bool) (hkv : IsUpdate kv) (hset : set ⊆ set') :
    ∃ set'', set ⊆ set'' ∧ (inSection = true → missing kv set'' = []) ∧ ∀ rest,
      setLoop sect kv inSection seen set' ((if inSection then missing kv set else []) ++ rest) =
        (if inSection then missing kv set else []) ++
          setLoop sect kv inSection seen set'' rest := by
  cases inSection with
  | false => exact ⟨set', hset, fun h => absurd h (by decide), fun rest => rfl⟩
  | true =>
    refine ⟨((kv.filter fun e => e.1 ∉ set).map Prod.fst).reverse ++ set', ?_, fun _ => ?_,
      fun rest => setLoop_assignments hkv (List.filter_subset_self kv) rest⟩
    · exact List.Subset.trans hset (List.subset_append_right _ _)
    · refine missing_eq_nil fun e he => ?_
      by_cases hmem : e.1 ∈ set
      · exact List.mem_append_right _ (hset hmem)
      · refine List.mem_append_left _ (List.mem_reverse.2 (List.mem_map_of_mem ?_))
        exact List.mem_filter.2 ⟨he, decide_eq_true hmem⟩

theorem map_stripCr_added (hkv : IsUpdate kv) :
    (if inSection then missing kv set else []).map stripCr =
      if inSection then missing kv set else [] := by
  split_ifs
  · exact map_stripCr_assignments hkv (List.filter_subset_self kv)
  · rfl

/-- The section that is added at the end is written as it is. -/
theorem setLoop_ending (hkv : IsUpdate kv) (hset : inSection = true → missing kv set = []) :
    setLoop sect kv inSection seen set (if seen then [] else header sect :: kv.map assignment) =
      if seen then [] else header sect :: kv.map assignment := by
  have hadded : (if inSection then missing kv set else []) = [] := by
    split_ifs with hin
    · exact hset hin
    · rfl
  cases seen with
  | true => rw [if_pos rfl, setLoop, hadded, if_pos rfl, List.append_nil]
  | false =>
    obtain ⟨htrimmed, hheader, hinner, -⟩ := isHeader_header sect
    have hall : missing kv ((kv.map Prod.fst).reverse ++ set) = [] :=
      missing_eq_nil fun e he =>
        List.mem_append_left _ (List.mem_reverse.2 (List.mem_map_of_mem he))
    rw [if_neg (by decide), setLoop_header (by rw [htrimmed, hheader]), hadded, htrimmed, hinner,
      decide_eq_true rfl, Bool.or_true, List.nil_append, ← List.append_nil (kv.map assignment),
      setLoop_assignments hkv (List.Subset.refl kv), setLoop, if_pos rfl, if_pos rfl, hall]
    rfl

/-- What has been written is written as it is, up to carriage returns. -/
theorem setLoop_setLoop (hkv : IsUpdate kv) (hset : set ⊆ set') :
    setLoop sect kv inSection seen set' ((setLoop sect kv inSection seen set lines).map stripCr) =
      (setLoop sect kv inSection seen set lines).map stripCr := by
  induction lines generalizing inSection seen set set' with
  | nil =>
    obtain ⟨set'', -, hmissing, hadded⟩ := setLoop_added sect seen hkv hset
    have hending : (if seen then [] else header sect :: kv.map assignment).map stripCr =
        if seen then [] else header sect :: kv.map assignment := by
      split_ifs
      · rfl
      · rw [List.map_cons, (isHeader_header sect).2.2.2,
          map_stripCr_assignments hkv (List.Subset.refl kv)]
    rw [setLoop, List.map_append, map_stripCr_added hkv, hending, hadded,
      setLoop_ending hkv hmissing]
  | cons line rest ih =>
    have htrimmed : trimmed (stripCr line) = trimmed line := trimmed_stripCr line
    cases hheader : isHeader (trimmed line) with
    | true =>
      obtain ⟨set'', hset'', hmissing, hadded⟩ := setLoop_added sect seen hkv hset
      have hnone : (if inSection then missing kv set'' else []) = [] := by
        split_ifs with hin
        · exact hmissing hin
        · rfl
      rw [setLoop_header hheader, List.map_append, map_stripCr_added hkv, hadded, List.map_cons,
        setLoop_header (by rw [htrimmed, hheader]), hnone, htrimmed, ih hset'', List.nil_append]
    | false =>
      cases inSection with
      | false =>
        rw [setLoop_outside hheader, List.map_cons, setLoop_outside (by rw [htrimmed, hheader]),
          ih hset]
      | true =>
        rw [setLoop_inside hheader]
        cases hentry : entryOf kv (trimmed line) with
        | none =>
          show setLoop sect kv true seen set' (stripCr line :: _) = stripCr line :: _
          rw [setLoop_inside (by rw [htrimmed, hheader]), htrimmed, hentry]
          exact congrArg (stripCr line :: ·) (ih hset)
        | some e =>
          have he : e ∈ kv := (of_entryOf hentry).1
          show setLoop sect kv true seen set' (stripCr (assignment e) :: _) =
            stripCr (assignment e) :: _
          rw [stripCr_assignment (hkv.entry e he),
            setLoop_inside (read_assignment (hkv.entry e he)).1, entryOf_assignment hkv he]
          exact congrArg (assignment e :: ·) (ih (List.cons_subset_cons e.1 hset))

/-! ## Reading the new text -/

theorem iniSet_eq (content sect : List Char) (kv : List Entry) :
    iniSet content sect kv = unlines (setLoop sect kv false false [] (linesOf content)) :=
  intercalate_newline setLoop_ne_nil

theorem keptLoop_subset_lines : keptLoop sect kv inSection lines ⊆ lines := by
  induction lines generalizing inSection with
  | nil => exact List.Subset.refl _
  | cons l rest ih =>
    cases hheader : isHeader (trimmed l) with
    | true =>
      rw [keptLoop_header hheader]
      exact List.cons_subset_cons l ih
    | false =>
      rw [keptLoop_line hheader]
      split_ifs
      · exact List.Subset.trans ih (List.subset_cons_self _ _)
      · exact List.cons_subset_cons l ih

theorem newline_notMem_setLoop (hkv : IsUpdate kv) (hsect : '\n' ∉ sect) :
    ∀ line ∈ setLoop sect kv false false [] (linesOf content), '\n' ∉ line := by
  intro line h
  rcases mem_setLoop h with h | ⟨e, he, rfl⟩ | rfl
  · exact newline_notMem_of_mem_linesOf (keptLoop_subset_lines h)
  · exact newline_notMem_assignment (hkv.entry e he)
  · simp [header, hsect]

theorem getLoop_map_stripCr :
    getLoop sect key inSection (lines.map stripCr) = getLoop sect key inSection lines := by
  induction lines generalizing inSection with
  | nil => rfl
  | cons line rest ih =>
    rw [List.map_cons, getLoop, getLoop, trimmed_stripCr]
    simp only [ih]

theorem iniGet_iniSet (hkv : IsUpdate kv) (hsect : '\n' ∉ sect) :
    iniGet (iniSet content sect kv) sect' key =
      getLoop sect' key false (setLoop sect kv false false [] (linesOf content)) := by
  rw [iniGet, iniSet_eq, linesOf_unlines (newline_notMem_setLoop hkv hsect), getLoop_map_stripCr]

/-- Only a carriage return at the end of a line is changed by a second write. -/
theorem iniSet_iniSet_iff (hkv : IsUpdate kv) (hsect : '\n' ∉ sect) :
    iniSet (iniSet content sect kv) sect kv = iniSet content sect kv ↔
      Settled content sect kv := by
  have hfree : ∀ line ∈ setLoop sect kv false false [] (linesOf content), '\n' ∉ line :=
    newline_notMem_setLoop hkv hsect
  have hfree' : ∀ line ∈ (setLoop sect kv false false [] (linesOf content)).map stripCr,
      '\n' ∉ line := by
    intro line hline
    obtain ⟨l, hl, rfl⟩ := List.mem_map.1 hline
    exact fun hmem => hfree l hl ((prefix_stripCr l).subset hmem)
  have hsecond : iniSet (iniSet content sect kv) sect kv =
      unlines ((setLoop sect kv false false [] (linesOf content)).map stripCr) := by
    rw [iniSet_eq (iniSet content sect kv), iniSet_eq content, linesOf_unlines hfree,
      setLoop_setLoop hkv (List.Subset.refl [])]
  have hsettled : Settled content sect kv ↔
      ∀ line ∈ setLoop sect kv false false [] (linesOf content), line.getLast? ≠ some '\r' := by
    constructor
    · intro h line hline
      rcases mem_setLoop hline with hline | ⟨e, he, rfl⟩ | rfl
      · exact h line hline
      · exact getLast?_assignment_ne (hkv.entry e he)
      · exact stripCr_eq_self_iff.1 (isHeader_header sect).2.2.2
    · exact fun h line hline => h line (keptLoop_subset hline)
  rw [hsecond, iniSet_eq, hsettled, ← map_stripCr_eq_self_iff]
  exact ⟨unlines_inj hfree' hfree, congrArg unlines⟩

end

/-- After a write every listed key is read back in the section, and every other key of any section
is read as before; a second write changes nothing iff no line that is kept ends in a carriage
return. -/
theorem ini_set_iff (content sect : List Char) (kv : List Entry) (hsect : '\n' ∉ sect)
    (hkv : IsUpdate kv) :
    (∀ e ∈ kv, iniGet (iniSet content sect kv) sect e.1 = some e.2) ∧
    (∀ sect' key, (sect' = sect → ∀ e ∈ kv, e.1 ≠ key) →
      iniGet (iniSet content sect kv) sect' key = iniGet content sect' key) ∧
    (iniSet (iniSet content sect kv) sect kv = iniSet content sect kv ↔
      Settled content sect kv) := by
  refine ⟨fun e he => ?_, fun sect' key hother => ?_, iniSet_iniSet_iff hkv hsect⟩
  · rw [iniGet_iniSet hkv hsect]
    exact getLoop_setLoop_of_mem hkv he List.not_mem_nil (.inr rfl)
  · rw [iniGet_iniSet hkv hsect]
    exact getLoop_setLoop_of_other hkv hother (fun _ => rfl) fun _ _ => rfl

theorem isUpdate_reboot : IsUpdate [("reboot".toList, "never".toList)] := by
  refine ⟨fun e he => ?_, by decide⟩
  rw [List.mem_singleton.1 he]
  constructor <;> decide

theorem ini_set_commands :
    let new := iniSet "[commands]\n\n[emitters]\nreboot = no\n".toList "commands".toList
      [("reboot".toList, "never".toList)]
    iniGet new "commands".toList "reboot".toList = some "never".toList ∧
      iniGet new "emitters".toList "reboot".toList = some "no".toList := by
  obtain ⟨hlisted, hother, -⟩ := ini_set_iff "[commands]\n\n[emitters]\nreboot = no\n".toList
    "commands".toList [("reboot".toList, "never".toList)] (by decide) isUpdate_reboot
  refine ⟨hlisted _ (List.mem_singleton_self _), ?_⟩
  rw [hother _ _ fun heq => absurd heq (by decide)]
  decide

/-- A comment that ends in two carriage returns loses one with every write. -/
theorem return_dropped :
    let new := iniSet "#\r\r\n".toList "commands".toList [("reboot".toList, "never".toList)]
    new = "#\r\n[commands]\nreboot = never\n".toList ∧
      iniSet new "commands".toList [("reboot".toList, "never".toList)] ≠ new := by
  decide

end Tenodera.Agent.IniConfig
