import Mathlib.Data.List.Forall2
import Tenodera.Lib.Path
import Tenodera.Lib.Trailing

/-!
# The table editors of the user interface

The hosts file and the configuration of `sshd` are edited as tables: the whole file is parsed into
rows, and built again from the rows when it is saved.  `table_law` says what building keeps of the
file, that it is stable, and what editing or removing one entry changes.
-/

namespace Tenodera.Ui.TableEditors

open Trailing (Same)
open Words (words)

/-- `\s` of a regular expression, and what `trim` takes off. -/
def isSpace (c : Char) : Bool :=
  (0x09 ≤ c.toNat && c.toNat ≤ 0x0D) || c.toNat == 0x20 || c.toNat == 0xA0 || c.toNat == 0x1680 ||
    (0x2000 ≤ c.toNat && c.toNat ≤ 0x200A) || c.toNat == 0x2028 || c.toNat == 0x2029 ||
    c.toNat == 0x202F || c.toNat == 0x205F || c.toNat == 0x3000 || c.toNat == 0xFEFF

/-- The characters that `.` of a regular expression does not stand for. -/
def isLineTerminator (c : Char) : Bool :=
  c == '\n' || c == '\r' || c.toNat == 0x2028 || c.toNat == 0x2029

def trim (s : List Char) : List Char := (s.dropWhile isSpace).rdropWhile isSpace

/-- A row is a line as it stands, or the two cells of an entry. -/
inductive Row
  | comment (raw : List Char)
  | entry (first second : List Char)
  deriving DecidableEq

/-- A comment or a blank line. -/
def isComment (line : List Char) : Bool :=
  let t := trim line
  t = [] || t.head? = some '#'

/-- An editor takes the two cells from a trimmed line, and puts a separator between them. -/
structure Editor where
  cells : List Char → List Char × List Char
  separator : Char

namespace Editor

variable (e : Editor)

def parseLine (line : List Char) : Row :=
  if isComment line then .comment line
  else .entry (e.cells (trim line)).1 (e.cells (trim line)).2

def parse (content : List Char) : List Row := (content.splitOn '\n').map e.parseLine

def buildRow : Row → List Char
  | .comment raw => raw
  | .entry first second => trim (trim first ++ e.separator :: trim second)

def build (rows : List Row) : List Char :=
  (['\n'].intercalate (rows.map e.buildRow)).rdropWhile (· = '\n') ++ ['\n']

end Editor

/-! ## The two editors -/

/-- An address, and the host names with one space between them. -/
def hosts : Editor where
  cells t :=
    let parts := words isSpace t
    (parts.headD [], [' '].intercalate parts.tail)
  separator := '\t'

/-- A directive and its value, `^(\S+)\s+(.*)$`; without a match the line is the directive. -/
def sshd : Editor where
  cells t :=
    let key := t.takeWhile fun c => !isSpace c
    let rest := t.dropWhile fun c => !isSpace c
    let value := rest.dropWhile isSpace
    if rest = [] ∨ value.any isLineTerminator then (t, []) else (key, value)
  separator := ' '

def parseHosts (content : List Char) : List Row := hosts.parse content

def buildHosts (rows : List Row) : List Char := hosts.build rows

def parseSshd (content : List Char) : List Row := sshd.parse content

def buildSshd (rows : List Row) : List Char := sshd.build rows

/-! ## Edits -/

/-- What the inputs of a row change. -/
structure Patch where
  first : Option (List Char)
  second : Option (List Char)

def Row.patch (patch : Patch) : Row → Row
  | .comment raw => .comment raw
  | .entry first second => .entry (patch.first.getD first) (patch.second.getD second)

def updateRow (i : ℕ) (patch : Patch) (rows : List Row) : List Row :=
  rows.modify i (Row.patch patch)

def Row.edit (patches : List Patch) (row : Row) : Row :=
  patches.foldl (fun row patch => row.patch patch) row

def editRow (i : ℕ) (patches : List Patch) (rows : List Row) : List Row :=
  patches.foldl (fun rows patch => updateRow i patch rows) rows

def removeRow (i : ℕ) (rows : List Row) : List Row := rows.eraseIdx i

/-! ## What the editors keep -/

/-- Comments and blank lines are kept as they are, entries word by word. -/
def Kept (line line' : List Char) : Prop :=
  if isComment line then line' = line else words isSpace line' = words isSpace line

def lines (s : List Char) : List (List Char) := s.splitOn '\n'

/-- The texts differ at most in empty lines at the end. -/
abbrev SameLines (ls ls' : List (List Char)) : Prop := Same (· = []) ls ls'

/-- What `parse` and `build` make of the content of a file: what they keep of it, that they keep
their own result, and which line of it changes when the inputs of one row are used, or its button
to remove it. -/
structure TableLaw (parse : List Char → List Row) (build : List Row → List Char)
    (content : List Char) : Prop where
  kept : ∃ ls, SameLines (lines (build (parse content))) ls ∧
    List.Forall₂ Kept (lines content) ls
  stable : build (parse (build (parse content))) = build (parse content)
  edited : ∀ i first second, (parse content)[i]? = some (.entry first second) → ∀ patches,
    ∃ first' second' text,
      (Row.entry first second).edit patches = .entry first' second' ∧
      words isSpace text = words isSpace first' ++ words isSpace second' ∧
      ('\n' ∈ text → '\n' ∈ first' ++ second') ∧
      SameLines (lines (build (editRow i patches (parse content))))
        ((lines (build (parse content))).take i ++ lines text ++
          (lines (build (parse content))).drop (i + 1))
  removed : ∀ i first second, (parse content)[i]? = some (.entry first second) →
    SameLines (lines (build (removeRow i (parse content))))
      ((lines (build (parse content))).take i ++ (lines (build (parse content))).drop (i + 1))

/-! ## Trimming -/

section

variable {c : Char} {line s t : List Char}

theorem words_trim (s : List Char) : words isSpace (trim s) = words isSpace s := by
  rw [trim, Words.words_rdropWhile, Words.words_dropWhile]

/-- Nothing is white space at the ends of a trimmed text. -/
theorem isSpace_of_trim (s : List Char) : (∀ c ∈ (trim s).head?, isSpace c = false) ∧
    ∀ c ∈ (trim s).getLast?, isSpace c = false := by
  constructor
  · intro c hc
    obtain ⟨rest, hrest⟩ := List.head?_eq_some_iff.1 hc
    have hprefix : trim s <+: s.dropWhile isSpace := List.rdropWhile_prefix _ _
    obtain ⟨tail, htail⟩ := hprefix
    have hne : s.dropWhile isSpace ≠ [] := by simp [← htail, hrest]
    have hhead := List.head_dropWhile_not isSpace hne
    simpa [← htail, hrest] using hhead
  · intro c hc
    have hne : trim s ≠ [] := by
      rintro hnil
      simp [hnil] at hc
    rw [List.getLast?_eq_some_getLast hne] at hc
    have hlast := List.rdropWhile_last_not isSpace (s.dropWhile isSpace) hne
    rw [← Option.some.inj hc]
    exact Bool.eq_false_iff.2 hlast

@[simp]
theorem trim_trim (s : List Char) : trim (trim s) = trim s :=
  Words.rdropWhile_dropWhile_eq_self (isSpace_of_trim s).1 (isSpace_of_trim s).2

theorem trim_subset (s : List Char) : trim s ⊆ s :=
  fun _ hc => (List.dropWhile_suffix _).subset ((List.rdropWhile_prefix _ _).subset hc)

theorem trim_eq_nil_iff : trim s = [] ↔ words isSpace s = [] := by
  rw [← words_trim]
  refine ⟨fun h => by rw [h]; rfl, fun h => ?_⟩
  cases htrim : trim s with
  | nil => rfl
  | cons c rest =>
    have hc : isSpace c = false := (isSpace_of_trim s).1 c (by simp [htrim])
    rw [Words.words_eq_nil_iff, htrim] at h
    exact absurd (h c List.mem_cons_self) (by simp [hc])

theorem head?_trim (s : List Char) : (trim s).head? = (words isSpace s).flatten.head? := by
  rw [← words_trim, Words.flatten_words, List.head?_filter]
  cases htrim : trim s with
  | nil => rfl
  | cons c rest =>
    have hc : isSpace c = false := (isSpace_of_trim s).1 c (by simp [htrim])
    simp [hc]

/-- Whether a line is an entry can be told from its words. -/
theorem isComment_congr (h : words isSpace s = words isSpace t) : isComment s = isComment t := by
  have hnil : trim s = [] ↔ trim t = [] := by rw [trim_eq_nil_iff, trim_eq_nil_iff, h]
  simp only [isComment, hnil, head?_trim, h]

theorem words_ne_nil_of_isComment (h : isComment s = false) : words isSpace s ≠ [] := by
  intro hnil
  have htrim : trim s = [] := trim_eq_nil_iff.2 hnil
  simp [isComment, htrim] at h

end

/-! ## Building what was parsed -/

namespace Editor

/-- The words of a line are those of its two cells, and the cells are found again in the line that
is built from them. -/
structure Lawful (e : Editor) : Prop where
  separator : isSpace e.separator = true
  separator_ne : e.separator ≠ '\n'
  words_cells : ∀ s, words isSpace (e.cells (trim s)).1 ++ words isSpace (e.cells (trim s)).2 =
    words isSpace s
  newline_cells : ∀ s, '\n' ∉ s → '\n' ∉ (e.cells s).1 ++ (e.cells s).2
  cells_buildRow : ∀ s,
    e.cells (e.buildRow (.entry (e.cells (trim s)).1 (e.cells (trim s)).2)) = e.cells (trim s)

/-- A line after parsing and building. -/
def rebuilt (e : Editor) (line : List Char) : List Char := e.buildRow (e.parseLine line)

variable {e : Editor} {line : List Char}

theorem rebuilt_comment (h : isComment line = true) : e.rebuilt line = line := by
  rw [rebuilt, parseLine, if_pos h]
  rfl

theorem rebuilt_entry (h : isComment line = false) : e.rebuilt line =
    e.buildRow (.entry (e.cells (trim line)).1 (e.cells (trim line)).2) := by
  rw [rebuilt, parseLine, if_neg (by simp [h])]

theorem Lawful.words_buildRow (he : e.Lawful) (first second : List Char) :
    words isSpace (e.buildRow (.entry first second)) =
      words isSpace first ++ words isSpace second := by
  rw [buildRow, words_trim, Words.words_append_sep _ _ he.separator, words_trim, words_trim]

theorem Lawful.newline_buildRow (he : e.Lawful) {first second : List Char}
    (h : '\n' ∈ e.buildRow (.entry first second)) : '\n' ∈ first ++ second := by
  rcases List.mem_append.1 (trim_subset _ h) with h | h
  · exact List.mem_append_left _ (trim_subset _ h)
  · rcases List.mem_cons.1 h with h | h
    · exact absurd h.symm he.separator_ne
    · exact List.mem_append_right _ (trim_subset _ h)

theorem Lawful.words_rebuilt (he : e.Lawful) (line : List Char) :
    words isSpace (e.rebuilt line) = words isSpace line := by
  cases h : isComment line with
  | true => rw [rebuilt_comment h]
  | false => rw [rebuilt_entry h, he.words_buildRow, he.words_cells]

theorem Lawful.kept (he : e.Lawful) (line : List Char) : Kept line (e.rebuilt line) := by
  unfold Kept
  split_ifs with h
  · exact rebuilt_comment h
  · exact he.words_rebuilt line

theorem Lawful.rebuilt_eq_nil_iff (he : e.Lawful) : e.rebuilt line = [] ↔ line = [] := by
  cases h : isComment line with
  | true => rw [rebuilt_comment h]
  | false =>
    have hwords := words_ne_nil_of_isComment h
    refine iff_of_false (fun hnil => hwords ?_) fun hnil => hwords ?_
    · rw [← he.words_rebuilt, hnil, Words.words_nil]
    · rw [hnil, Words.words_nil]

theorem Lawful.newline_rebuilt (he : e.Lawful) (hline : '\n' ∉ line) : '\n' ∉ e.rebuilt line := by
  cases h : isComment line with
  | true => rwa [rebuilt_comment h]
  | false =>
    rw [rebuilt_entry h]
    exact fun hmem => he.newline_cells _ (fun hmem => hline (trim_subset _ hmem))
      (he.newline_buildRow hmem)

/-- Building twice is building once, line by line. -/
theorem Lawful.rebuilt_rebuilt (he : e.Lawful) (line : List Char) :
    e.rebuilt (e.rebuilt line) = e.rebuilt line := by
  cases h : isComment line with
  | true => rw [rebuilt_comment h, rebuilt_comment h]
  | false =>
    have hkeep : isComment (e.rebuilt line) = false := by
      rw [isComment_congr (he.words_rebuilt line), h]
    have htrim : trim (e.rebuilt line) = e.rebuilt line := by
      rw [rebuilt_entry h]
      exact trim_trim _
    rw [rebuilt_entry hkeep, htrim, rebuilt_entry h, he.cells_buildRow]

/-! ## Building files -/

theorem map_buildRow_parse (content : List Char) :
    (e.parse content).map e.buildRow = (lines content).map e.rebuilt :=
  List.map_map

/-- The lines of a file are the lines of its rows. -/
theorem sameLines_build (rows : List Row) :
    SameLines (lines (e.build rows)) ((rows.map e.buildRow).flatMap lines) := by
  have hnewline (body : List Char) : SameLines (lines (body ++ ['\n'])) (lines body) := by
    rw [lines, List.splitOn_append_cons_self, List.splitOn_nil]
    exact List.rdropWhile_concat_pos _ _ _ (by simp)
  refine (hnewline _).trans ((Trailing.same_splitOn '\n' _).trans ?_)
  by_cases hnil : rows = []
  · rw [hnil]
    rfl
  · rw [Trailing.splitOn_intercalate '\n' (by simpa using hnil)]
    rfl

/-- Empty lines at the end do not show in the file. -/
theorem build_congr {rows rows' : List Row}
    (h : SameLines (rows.map e.buildRow) (rows'.map e.buildRow)) : e.build rows = e.build rows' :=
  congrArg (· ++ ['\n']) (Trailing.same_intercalate h '\n')

theorem flatMap_lines {ls : List (List Char)} (h : ∀ l ∈ ls, '\n' ∉ l) : ls.flatMap lines = ls := by
  induction ls with
  | nil => rfl
  | cons l ls ih =>
    rw [List.flatMap_cons, ih fun l' hl' => h l' (List.mem_cons_of_mem l hl'), lines,
      List.splitOn_eq_singleton (h l List.mem_cons_self)]
    rfl

theorem Lawful.newline_map_rebuilt (he : e.Lawful) (content : List Char) :
    ∀ l ∈ (lines content).map e.rebuilt, '\n' ∉ l := by
  intro l hl
  obtain ⟨line, hline, rfl⟩ := List.mem_map.1 hl
  exact he.newline_rebuilt (Path.notMem_of_mem_splitOn hline)

theorem Lawful.sameLines_build_parse (he : e.Lawful) (content : List Char) :
    SameLines (lines (e.build (e.parse content))) ((lines content).map e.rebuilt) := by
  have hlines := sameLines_build (e := e) (e.parse content)
  rwa [map_buildRow_parse, flatMap_lines (he.newline_map_rebuilt content)] at hlines

theorem Lawful.build_parse_build (he : e.Lawful) (content : List Char) :
    e.build (e.parse (e.build (e.parse content))) = e.build (e.parse content) := by
  have hmap {ls ls' : List (List Char)} (h : SameLines ls ls') :
      SameLines (ls.map e.rebuilt) (ls'.map e.rebuilt) := by
    have hnil : (fun line => decide (e.rebuilt line = [])) = fun line => decide (line = []) :=
      funext fun line => decide_eq_decide.2 he.rebuilt_eq_nil_iff
    show (ls.map e.rebuilt).rdropWhile _ = (ls'.map e.rebuilt).rdropWhile _
    rw [Trailing.rdropWhile_map, Trailing.rdropWhile_map, hnil,
      show ls.rdropWhile (· = []) = ls'.rdropWhile (· = []) from h]
  refine build_congr ?_
  rw [map_buildRow_parse, map_buildRow_parse]
  refine (hmap (he.sameLines_build_parse content)).trans ?_
  rw [List.map_map, show e.rebuilt ∘ e.rebuilt = e.rebuilt from funext he.rebuilt_rebuilt]
  rfl

/-! ## Editing one row -/

/-- Rows in the place of an entry change the file in the place of its line. -/
theorem Lawful.sameLines_splice (he : e.Lawful) {content first second : List Char} {i : ℕ}
    (hi : (e.parse content)[i]? = some (.entry first second)) (rows : List Row) :
    SameLines (lines (e.build ((e.parse content).take i ++ rows ++ (e.parse content).drop (i + 1))))
      ((lines (e.build (e.parse content))).take i ++ (rows.map e.buildRow).flatMap lines ++
        (lines (e.build (e.parse content))).drop (i + 1)) := by
  rw [parse, List.getElem?_map, Option.map_eq_some_iff] at hi
  obtain ⟨line, hline, hrow⟩ := hi
  have hentry : isComment line = false := by
    refine Bool.eq_false_iff.2 fun h => ?_
    rw [parseLine, if_pos h] at hrow
    cases hrow
  have hne : e.rebuilt line ≠ [] := by
    intro hnil
    rw [he.rebuilt_eq_nil_iff.1 hnil] at hentry
    exact words_ne_nil_of_isComment hentry rfl
  have hget : ((lines content).map e.rebuilt)[i]? = some (e.rebuilt line) := by
    rw [List.getElem?_map]
    exact Option.map_eq_some_iff.2 ⟨line, hline, rfl⟩
  refine Same.trans ?_ ((he.sameLines_build_parse content).symm.splice hget (by simpa using hne) _)
  have hlines := sameLines_build (e := e)
    ((e.parse content).take i ++ rows ++ (e.parse content).drop (i + 1))
  have hnewline := he.newline_map_rebuilt content
  rwa [List.map_append, List.map_append, List.map_take, List.map_drop, map_buildRow_parse,
    List.flatMap_append, List.flatMap_append,
    flatMap_lines fun l hl => hnewline l (List.mem_of_mem_take hl),
    flatMap_lines fun l hl => hnewline l (List.mem_of_mem_drop hl)] at hlines

theorem editRow_eq_set {rows : List Row} {row : Row} {i : ℕ} (hi : rows[i]? = some row)
    (patches : List Patch) : editRow i patches rows = rows.set i (row.edit patches) := by
  induction patches generalizing rows row with
  | nil =>
    obtain ⟨hlt, rfl⟩ := List.getElem?_eq_some_iff.1 hi
    exact (List.set_getElem_self hlt).symm
  | cons patch patches ih =>
    have hlt : i < rows.length := (List.getElem?_eq_some_iff.1 hi).1
    have hupdate : updateRow i patch rows = rows.set i (row.patch patch) := by
      rw [updateRow, List.modify_eq_set_getElem?, hi]
      rfl
    have hrow : (rows.set i (row.patch patch))[i]? = some (row.patch patch) :=
      List.getElem?_set_self hlt
    rw [editRow, List.foldl_cons, hupdate]
    exact (ih hrow).trans (List.set_set ..)

theorem edit_entry (first second : List Char) (patches : List Patch) :
    ∃ first' second', (Row.entry first second).edit patches = .entry first' second' := by
  induction patches generalizing first second with
  | nil => exact ⟨first, second, rfl⟩
  | cons patch patches ih => exact ih _ _

theorem Lawful.tableLaw (he : e.Lawful) (content : List Char) :
    TableLaw e.parse e.build content where
  kept := by
    refine ⟨_, he.sameLines_build_parse content, ?_⟩
    exact List.forall₂_map_right_iff.2 (List.forall₂_same.2 fun line _ => he.kept line)
  stable := he.build_parse_build content
  edited i first second hi patches := by
    obtain ⟨first', second', hedit⟩ := edit_entry first second patches
    refine ⟨first', second', e.buildRow (.entry first' second'), hedit, he.words_buildRow _ _,
      he.newline_buildRow, ?_⟩
    have hsplice := he.sameLines_splice hi [.entry first' second']
    have hlt := (List.getElem?_eq_some_iff.1 hi).1
    rw [editRow_eq_set hi, hedit, List.set_eq_take_append_cons_drop, if_pos hlt]
    rwa [List.append_assoc, List.singleton_append, List.map_singleton, List.flatMap_singleton]
      at hsplice
  removed i first second hi := by
    have hsplice := he.sameLines_splice hi []
    rw [List.append_nil, List.map_nil, List.flatMap_nil, List.append_nil] at hsplice
    rwa [removeRow, List.eraseIdx_eq_take_drop_succ]

end Editor

/-! ## Lines of the two files -/

/-- The cells of an entry of the hosts file are made from its words. -/
theorem hosts_cells (s : List Char) : hosts.cells s =
    ((words isSpace s).headD [], [' '].intercalate (words isSpace s).tail) := rfl

theorem hosts_words_cells (s : List Char) :
    words isSpace (hosts.cells s).1 ++ words isSpace (hosts.cells s).2 = words isSpace s := by
  have hmem {w : List Char} (hw : w ∈ words isSpace s) := Words.of_mem_words hw
  rw [hosts_cells]
  cases hwords : words isSpace s with
  | nil => rfl
  | cons w rest =>
    rw [hwords] at hmem
    obtain ⟨hne, hw⟩ := hmem List.mem_cons_self
    show words isSpace w ++ words isSpace ([' '].intercalate rest) = w :: rest
    rw [Words.words_of_none hne hw, Words.words_intercalate (by decide)
      fun w' hw' => hmem (List.mem_cons_of_mem w hw'), List.singleton_append]

theorem hosts_lawful : hosts.Lawful where
  separator := by decide
  separator_ne := by decide
  words_cells s := by rw [hosts_words_cells, words_trim]
  newline_cells s hs hmem := by
    rw [hosts_cells] at hmem
    cases hwords : words isSpace s with
    | nil =>
      rw [hwords] at hmem
      exact absurd hmem (by decide)
    | cons w rest =>
      have hsub {w' : List Char} (hw' : w' ∈ w :: rest) : w' ⊆ s :=
        Words.subset_of_mem_words (hwords ▸ hw')
      rw [hwords, List.mem_append] at hmem
      rcases hmem with hmem | hmem
      · exact hs (hsub List.mem_cons_self hmem)
      · rcases Words.of_mem_intercalate hmem with hmem | ⟨w', hw', hmem⟩
        · exact absurd hmem (by decide)
        · exact hs (hsub (List.mem_cons_of_mem w hw') hmem)
  cells_buildRow s := by
    have hwords : words isSpace (hosts.buildRow (.entry (hosts.cells (trim s)).1
        (hosts.cells (trim s)).2)) = words isSpace (trim s) := by
      rw [Editor.buildRow, words_trim, Words.words_append_sep _ _ (by decide), words_trim,
        words_trim, hosts_words_cells]
    rw [hosts_cells, hwords, ← hosts_cells]

theorem trim_concat {c : Char} (hc : isSpace c = true) (s : List Char) :
    trim (s ++ [c]) = trim s := by
  rw [trim, List.dropWhile_append]
  split_ifs with hnil
  · rw [List.dropWhile_cons_of_pos hc, trim, List.isEmpty_iff.1 hnil]
    rfl
  · rw [List.rdropWhile_concat_pos _ _ _ hc, trim]

/-- A line of the configuration that has a key and a value. -/
structure Directive (t key value : List Char) : Prop where
  split : ∃ c space, isSpace c = true ∧ (∀ a ∈ space, isSpace a = true) ∧
    t = key ++ c :: (space ++ value)
  key : key ≠ [] ∧ ∀ a ∈ key, isSpace a = false
  one : value.any isLineTerminator = false
  value : value ≠ [] ∧ trim value = value

namespace Directive

variable {t key value : List Char}

theorem cells (h : Directive t key value) : sshd.cells t = (key, value) := by
  obtain ⟨c, space, hc, hspace, rfl⟩ := h.split
  have hkey : ∀ a ∈ key, (!isSpace a) = true := fun a ha => by simp [h.key.2 a ha]
  have hdrop : (key ++ c :: (space ++ value)).dropWhile (fun a => !isSpace a) =
      c :: (space ++ value) := by
    rw [List.dropWhile_append_of_pos hkey, List.dropWhile_cons_of_neg (by simp [hc])]
  have htake : (key ++ c :: (space ++ value)).takeWhile (fun a => !isSpace a) = key := by
    rw [List.takeWhile_append_of_pos hkey, List.takeWhile_cons_of_neg (by simp [hc]),
      List.append_nil]
  have hvalue : (c :: (space ++ value)).dropWhile isSpace = value := by
    rw [List.dropWhile_cons_of_pos hc, List.dropWhile_append_of_pos hspace]
    obtain ⟨a, rest, ha⟩ := List.exists_cons_of_ne_nil h.value.1
    have hhead : isSpace a = false := (isSpace_of_trim value).1 a (by rw [h.value.2, ha]; rfl)
    rw [ha, List.dropWhile_cons_of_neg (by simp [hhead])]
  simp only [sshd, hdrop, htake, hvalue]
  rw [if_neg]
  rintro (hnil | hterminator)
  · cases hnil
  · exact Bool.false_ne_true (h.one.symm.trans hterminator)

theorem words_eq (h : Directive t key value) :
    words isSpace key ++ words isSpace value = words isSpace t := by
  obtain ⟨c, space, hc, hspace, rfl⟩ := h.split
  have hvalue : words isSpace (space ++ value) = words isSpace value := by
    rw [← Words.words_dropWhile, List.dropWhile_append_of_pos hspace, Words.words_dropWhile]
  rw [Words.words_append_sep _ _ hc, hvalue]

/-- The line that is built has the same key and value. -/
theorem buildRow (h : Directive t key value) :
    Directive (sshd.buildRow (.entry key value)) key value where
  split := by
    have hkey : trim key = key := by
      refine Words.rdropWhile_dropWhile_eq_self (fun a ha => ?_) fun a ha => ?_
      · exact h.key.2 a (List.mem_of_mem_head? ha)
      · exact h.key.2 a (List.mem_of_getLast? ha)
    have hwhole : trim (key ++ ' ' :: value) = key ++ ' ' :: value := by
      refine Words.rdropWhile_dropWhile_eq_self (fun a ha => ?_) fun a ha => ?_
      · rw [List.head?_append_of_ne_nil _ h.key.1] at ha
        exact h.key.2 a (List.mem_of_mem_head? ha)
      · rw [← List.singleton_append, ← List.append_assoc,
          List.getLast?_append_of_ne_nil _ h.value.1] at ha
        exact (isSpace_of_trim value).2 a (by rwa [h.value.2])
    refine ⟨' ', [], by decide, by simp, ?_⟩
    rw [Editor.buildRow, hkey, h.value.2]
    exact hwhole
  key := h.key
  one := h.one
  value := h.value

end Directive

/-- A trimmed line is not split, or has a key and a value. -/
theorem sshd_cells (s : List Char) :
    sshd.cells (trim s) = (trim s, []) ∨ ∃ key value, Directive (trim s) key value := by
  let key := (trim s).takeWhile fun c => !isSpace c
  let rest := (trim s).dropWhile fun c => !isSpace c
  let value := rest.dropWhile isSpace
  by_cases hone : rest = [] ∨ value.any isLineTerminator = true
  · exact .inl (if_pos hone)
  · push Not at hone
    obtain ⟨hne, hone⟩ := hone
    have hwhole : key ++ rest = trim s := List.takeWhile_append_dropWhile
    have hsplit : rest.takeWhile isSpace ++ value = rest := List.takeWhile_append_dropWhile
    have hlast : ∀ a ∈ rest.getLast?, isSpace a = false := by
      intro a ha
      refine (isSpace_of_trim s).2 a ?_
      rwa [← hwhole, List.getLast?_append_of_ne_nil _ hne]
    have hvalue : value ≠ [] := by
      intro hnil
      have hall := List.dropWhile_eq_nil_iff.1 hnil
      have hspace := hall _ (List.getLast_mem hne)
      rw [hlast _ (List.getLast?_eq_some_getLast hne)] at hspace
      cases hspace
    obtain ⟨c, tail, hrest⟩ := List.exists_cons_of_ne_nil hne
    have hc : isSpace c = true := by
      have hhead := List.head?_dropWhile_not (fun c => !isSpace c) (trim s)
      rw [show (trim s).dropWhile (fun c => !isSpace c) = c :: tail from hrest] at hhead
      simpa using hhead
    have htail : tail.takeWhile isSpace ++ value = tail := by
      rw [show value = tail.dropWhile isSpace by
        show rest.dropWhile isSpace = _
        rw [hrest, List.dropWhile_cons_of_pos hc]]
      exact List.takeWhile_append_dropWhile
    refine .inr ⟨key, value, ⟨⟨c, tail.takeWhile isSpace, hc, fun a => List.mem_takeWhile_imp, ?_⟩,
      ⟨?_, fun a ha => ?_⟩, by simpa using hone, hvalue, ?_⟩⟩
    · rw [htail, ← hrest, hwhole]
    · intro hnil
      have hhead := (isSpace_of_trim s).1 c (by rw [← hwhole, hnil, hrest]; rfl)
      rw [hc] at hhead
      cases hhead
    · simpa using List.mem_takeWhile_imp ha
    · refine Words.rdropWhile_dropWhile_eq_self (fun a ha => ?_) fun a ha => hlast a ?_
      · obtain ⟨l, hl⟩ := List.head?_eq_some_iff.1 ha
        have hhead := List.head?_dropWhile_not isSpace rest
        rw [show rest.dropWhile isSpace = a :: l from hl] at hhead
        simpa using hhead
      · rwa [← hsplit, List.getLast?_append_of_ne_nil _ hvalue]

theorem sshd_lawful : sshd.Lawful where
  separator := by decide
  separator_ne := by decide
  words_cells s := by
    rcases sshd_cells s with h | ⟨key, value, h⟩
    · rw [h, Words.words_nil, List.append_nil, words_trim]
    · rw [h.cells, h.words_eq, words_trim]
  newline_cells s hs hmem := by
    simp only [sshd] at hmem
    split_ifs at hmem
    · exact hs (by simpa using hmem)
    · rcases List.mem_append.1 hmem with hmem | hmem
      · exact hs ((List.takeWhile_prefix _).subset hmem)
      · exact hs ((List.dropWhile_suffix _).subset ((List.dropWhile_suffix _).subset hmem))
  cells_buildRow s := by
    rcases sshd_cells s with h | ⟨key, value, h⟩
    · have hrow : sshd.buildRow (.entry (trim s) []) = trim s := by
        show trim (trim (trim s) ++ [' ']) = trim s
        rw [trim_concat (by decide), trim_trim, trim_trim]
      rw [h, hrow, h]
    · rw [h.cells, h.buildRow.cells]

/-- Both editors keep what they do not edit. -/
theorem table_law (content : List Char) :
    TableLaw parseHosts buildHosts content ∧ TableLaw parseSshd buildSshd content :=
  ⟨hosts_lawful.tableLaw content, sshd_lawful.tableLaw content⟩

/-- Words are put one space apart, and empty lines at the end are taken off. -/
example : buildHosts (parseHosts "# local\n ::1  a\tb \n\n".toList) =
    "# local\n::1\ta b\n".toList := by
  decide +kernel

end Tenodera.Ui.TableEditors
