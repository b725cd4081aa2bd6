import Tenodera.Agent.LogFiles
import Tenodera.Lib.Lines

/-!
# The output of grep

`parse_grep_output` reads the groups of lines that `grep -n` writes with context.  Without a date
filter it gives back every group that has a line.
-/

namespace Tenodera.Agent.GrepOutput

open LogFiles LogTimestamps Protocol Utf8

/-- A line of a group, as `parse_grep_line` reads it. -/
structure GrepLine where
  num : UInt64
  isMatch : Bool
  text : List Char
  deriving DecidableEq

def GrepLine.toValue (line : GrepLine) : Value :=
  .object [("num", .number (.posInt line.num)), ("match", .bool line.isMatch),
    ("text", .string (String.ofList line.text))]

def groupValue (group : List GrepLine) : Value :=
  .object [("lines", .array (group.map GrepLine.toValue))]

theorem GrepLine.toValue_injective : Function.Injective GrepLine.toValue := by
  rintro ⟨num, isMatch, text⟩ ⟨num', isMatch', text'⟩ h
  simpa [toValue, String.ofList_inj] using h

/-- A group can be read off its value. -/
theorem groupValue_injective : Function.Injective groupValue := by
  intro group group' h
  refine List.map_injective_iff.2 GrepLine.toValue_injective ?_
  simpa [groupValue] using h

/-- The number before the first `sep` and the text behind it; none is a panic. -/
def numberBefore (sep : Char) (line : List Char) : Option (Option (UInt64 × List Char)) :=
  match find [sep] line with
  | none => some none
  | some pos => do
    let numPart ← prefixTo pos line
    match Text.parseUnsigned 64 (String.ofList numPart) with
    | none => return none
    | some num =>
      let text ← suffixFrom (pos + 1) line
      return some (UInt64.ofNat num, text)

/-- `parse_grep_line`: "123:some text" for a match, "123-some text" for context. -/
def parseGrepLine (line : List Char) : Option GrepLine := do
  match ← numberBefore ':' line with
  | some (num, text) => return ⟨num, true, text⟩
  | none =>
    match ← numberBefore '-' line with
    | some (num, text) => return ⟨num, false, text⟩
    | none => return ⟨0, false, line⟩

section

variable (chrono : Chrono) (years : ℕ → List Char) (fromTs toTs : Option ℤ)

/-- The date filter drops a text; without one it is not looked at. -/
def filteredOut (i : ℕ) (text : List Char) : Option Bool :=
  if fromTs.isSome ∨ toTs.isSome then
    (extractTimestamp chrono (years i) text).map fun stamp =>
      stamp.any fun ts => ¬ InRange fromTs toTs ts
  else some false

/-- The loop of `parse_grep_output` from the line at index `i` on. -/
def grepLoop : ℕ → List (List Char) → List (List GrepLine) → List GrepLine →
    Option (List (List GrepLine))
  | _, [], groups, current => some (if current ≠ [] then groups ++ [current] else groups)
  | i, line :: lines, groups, current =>
    if line = "--".toList then
      if current ≠ [] then grepLoop (i + 1) lines (groups ++ [current]) []
      else grepLoop (i + 1) lines groups current
    else do
      let grepLine ← parseGrepLine line
      if ← filteredOut chrono years fromTs toTs i grepLine.text then
        grepLoop (i + 1) lines groups current
      else grepLoop (i + 1) lines groups (current ++ [grepLine])

/-- `parse_grep_output`; none is a panic. -/
def parseGrepOutput (output : List Char) (dateFrom dateTo : Option (List Char)) :
    Option (List Value) :=
  let fromTs := dateFrom.bind fun d => parseFilterDate chrono d true
  let toTs := dateTo.bind fun d => parseFilterDate chrono d false
  (grepLoop chrono years fromTs toTs 0 (Text.linesOf output) [] []).map fun groups =>
    groups.map groupValue

end

/-! ## What grep writes -/

/-- A line that grep has found, or that is near one. -/
structure Found extends GrepLine where
  oneLine : '\n' ∉ text
  noCr : text.getLast? ≠ some '\r'

/-- `N:text` or `N-text`. -/
def Found.render (line : Found) : List Char :=
  Nat.toDigits 10 line.num.toNat ++ (if line.isMatch then ':' else '-') :: line.text

/-- The groups, with a line `--` between two of them. -/
def render (groups : List (List Found)) : List Char :=
  Text.unlines (List.intercalate ["--".toList] (groups.map fun group => group.map Found.render))

section

variable {sep c : Char} {line : List Char} {n : ℕ}

theorem digit_of_mem_toDigits (h : c ∈ Nat.toDigits 10 n) : c.isDigit :=
  Nat.isDigit_of_mem_toDigits (by decide) (by decide) h

theorem notMem_toDigits (h : c.isDigit = false) : c ∉ Nat.toDigits 10 n := fun hmem => by
  rw [digit_of_mem_toDigits hmem] at h
  cases h

/-- A number is read from its digits if it has not too many bits. -/
theorem parseUnsigned_digits (bits n : ℕ) :
    Text.parseUnsigned bits (String.ofList (Nat.toDigits 10 n)) =
      if n < 2 ^ bits then some n else none := by
  have hplus : '+' ∉ Nat.toDigits 10 n := notMem_toDigits (by decide)
  have hdigits : (Nat.toDigits 10 n).all Char.isDigit :=
    List.all_eq_true.2 fun c hc => digit_of_mem_toDigits hc
  have hne : Nat.toDigits 10 n ≠ [] := Nat.toDigits_ne_nil
  have hvalue : Nat.ofDigitChars 10 (Nat.toDigits 10 n) 0 = n := Nat.ofDigitChars_ten_toDigits
  rw [Text.parseUnsigned_eq_ite hplus, hvalue]
  simp only [hne, ne_eq, not_false_eq_true, hdigits, true_and]

theorem parseUnsigned_toDigits (num : UInt64) :
    Text.parseUnsigned 64 (String.ofList (Nat.toDigits 10 num.toNat)) = some num.toNat := by
  rw [parseUnsigned_digits, if_pos num.toNat_lt]

theorem numberBefore_append (hsize : sep.utf8Size = 1) (hsep : sep.isDigit = false)
    (num : UInt64) (text : List Char) :
    numberBefore sep (Nat.toDigits 10 num.toNat ++ sep :: text) = some (some (num, text)) := by
  have hsuffix : suffixFrom (size (Nat.toDigits 10 num.toNat) + 1)
      (Nat.toDigits 10 num.toNat ++ sep :: text) = some text :=
    suffixFrom_eq_some_iff.2 ⟨Nat.toDigits 10 num.toNat ++ [sep], by simp, by simp [hsize]⟩
  rw [numberBefore, find_char (notMem_toDigits hsep)]
  dsimp only
  rw [prefixTo_append]
  simp [parseUnsigned_toDigits, hsuffix]

/-- The number of a context line is not taken for that of a match, whatever its text. -/
theorem numberBefore_colon_dash (num : UInt64) (text : List Char) :
    numberBefore ':' (Nat.toDigits 10 num.toNat ++ '-' :: text) = some none := by
  have hdigits : ':' ∉ Nat.toDigits 10 num.toNat := notMem_toDigits (by decide)
  by_cases htext : ':' ∈ text
  · obtain ⟨a, b, rfl, ha⟩ := List.eq_append_cons_of_mem htext
    have hbefore : ':' ∉ Nat.toDigits 10 num.toNat ++ '-' :: a := by simp [hdigits, ha]
    have hdash : '-' ∈ Nat.toDigits 10 num.toNat ++ '-' :: a := by simp
    rw [← List.cons_append, ← List.append_assoc, numberBefore, find_char hbefore]
    dsimp only
    rw [prefixTo_append, Option.bind_eq_bind, Option.bind_some,
      Text.parseUnsigned_eq_none hdash (by decide) (by decide)]
    rfl
  · have hline : ':' ∉ Nat.toDigits 10 num.toNat ++ '-' :: text := by simp [hdigits, htext]
    rw [numberBefore, find_char_eq_none_iff.2 hline]

theorem parseGrepLine_render (line : Found) : parseGrepLine line.render = some line.toGrepLine := by
  obtain ⟨⟨num, isMatch, text⟩, -, -⟩ := line
  unfold parseGrepLine Found.render
  cases isMatch with
  | true =>
    simp only [if_true]
    rw [numberBefore_append (by decide) (by decide)]
    rfl
  | false =>
    simp only [Bool.false_eq_true, if_false]
    rw [numberBefore_colon_dash, numberBefore_append (by decide) (by decide)]
    rfl

theorem render_ne_dashes (line : Found) : line.render ≠ "--".toList := by
  intro h
  have hdash : '-' ∉ Nat.toDigits 10 line.num.toNat := notMem_toDigits (by decide)
  unfold Found.render at h
  cases hdigits : Nat.toDigits 10 line.num.toNat with
  | nil => exact Nat.toDigits_ne_nil hdigits
  | cons d digits =>
    rw [hdigits] at h hdash
    exact hdash (List.mem_cons.2 (.inl (List.cons.inj h).1.symm))

end

section

variable {chrono : Chrono} {years : ℕ → List Char}

/-- The lines of a group go to the current one. -/
theorem grepLoop_group (group : List Found) (rest : List (List Char)) (i : ℕ)
    (groups : List (List GrepLine)) (current : List GrepLine) :
    grepLoop chrono years none none i (group.map Found.render ++ rest) groups current =
      grepLoop chrono years none none (i + group.length) rest groups
        (current ++ group.map Found.toGrepLine) := by
  induction group generalizing i current with
  | nil => simp
  | cons line group ih =>
    rw [List.map_cons, List.cons_append, grepLoop, if_neg (render_ne_dashes line),
      parseGrepLine_render]
    simp only [filteredOut, Option.isSome_none, Bool.false_eq_true, or_self, if_false,
      Option.bind_eq_bind, Option.bind_some]
    rw [ih, List.length_cons, List.map_cons, List.append_assoc, List.singleton_append,
      Nat.add_right_comm, Nat.add_assoc]

/-- A line `--` ends the current group unless it is empty. -/
theorem grepLoop_groups (group : List Found) (rest : List (List Found)) (i : ℕ)
    (groups : List (List GrepLine)) (current : List GrepLine) :
    grepLoop chrono years none none i (List.intercalate ["--".toList]
        ((group :: rest).map fun group => group.map Found.render)) groups current =
      some (groups ++ ((current ++ group.map Found.toGrepLine) ::
        rest.map (·.map Found.toGrepLine)).filter (· ≠ [])) := by
  induction rest generalizing group i groups current with
  | nil =>
    have hgroup : grepLoop chrono years none none i _ groups current = _ :=
      grepLoop_group group [] i groups current
    rw [List.append_nil] at hgroup
    rw [List.map_cons, List.map_nil, List.intercalate_singleton, hgroup, grepLoop]
    by_cases hnil : current ++ group.map Found.toGrepLine = [] <;> simp [hnil]
  | cons next rest ih =>
    rw [List.map_cons, List.map_cons, List.intercalate_cons_cons, ← List.map_cons,
      List.append_assoc, grepLoop_group, List.singleton_append, grepLoop, if_pos rfl]
    split_ifs with hcurrent
    · rw [ih]
      simp [hcurrent]
    · rw [ih]
      simp [not_not.1 hcurrent]

/-- What grep writes for a line is a line. -/
theorem plain_render (line : Found) :
    '\n' ∉ line.render ∧ line.render.getLast? ≠ some '\r' := by
  have hnewline : '\n' ∉ Nat.toDigits 10 line.num.toNat := notMem_toDigits (by decide)
  constructor
  · unfold Found.render
    split_ifs <;> simp [hnewline, line.oneLine]
  · unfold Found.render
    rw [List.getLast?_append]
    cases htext : line.text with
    | nil => split_ifs <;> simp
    | cons c text =>
      have hlast := line.noCr
      rw [htext] at hlast
      rw [List.getLast?_cons_cons, Option.or_of_isSome (by simp)]
      exact hlast

theorem linesOf_render (groups : List (List Found)) :
    Text.linesOf (render groups) =
      List.intercalate ["--".toList] (groups.map fun group => group.map Found.render) := by
  have hall (l) (hl : l ∈ List.intercalate ["--".toList]
      (groups.map fun group => group.map Found.render)) :
      '\n' ∉ l ∧ l.getLast? ≠ some '\r' := by
    rcases Words.of_mem_intercalate hl with hdashes | ⟨group, hgroup, hmem⟩
    · rw [List.mem_singleton.1 hdashes]
      decide
    · obtain ⟨founds, -, rfl⟩ := List.mem_map.1 hgroup
      obtain ⟨line, -, rfl⟩ := List.mem_map.1 hmem
      exact plain_render line
  rw [render, Text.linesOf_unlines fun l hl => (hall l hl).1,
    List.map_congr_left (fun l hl => Text.stripCr_eq_self (hall l hl).2), List.map_id']

/-- Without a date filter the groups that have a line are read back from what grep writes. -/
theorem parseGrepOutput_render (chrono : Chrono) (years : ℕ → List Char)
    (dateFrom dateTo : Option (List Char)) (groups : List (List Found))
    (hfrom : (dateFrom.bind fun d => parseFilterDate chrono d true) = none)
    (hto : (dateTo.bind fun d => parseFilterDate chrono d false) = none) :
    parseGrepOutput chrono years (render groups) dateFrom dateTo =
      some ((groups.filter (· ≠ [])).map fun group =>
        groupValue (group.map Found.toGrepLine)) := by
  unfold parseGrepOutput
  simp only [hfrom, hto, linesOf_render]
  cases groups with
  | nil => rfl
  | cons group groups =>
    have hfilter : ((group :: groups).map (·.map Found.toGrepLine)).filter (· ≠ []) =
        ((group :: groups).filter (· ≠ [])).map (·.map Found.toGrepLine) := by
      rw [List.filter_map]
      exact congrArg _ (List.filter_congr fun g _ => by simp)
    rw [grepLoop_groups, Option.map_some, List.nil_append, List.nil_append, ← List.map_cons,
      hfilter, List.map_map]
    rfl

/-- A text like another number, and one like the line between groups. -/
def sampleGroups : List (List Found) :=
  [[⟨⟨12, true, "5-3: up".toList⟩, by decide, by decide⟩,
    ⟨⟨13, false, "4:2".toList⟩, by decide, by decide⟩],
    [⟨⟨40, true, "--".toList⟩, by decide, by decide⟩]]

theorem parseGrepOutput_sampleGroups :
    parseGrepOutput sampleChrono (fun _ => "2026".toList) (render sampleGroups) none none =
      some ((sampleGroups.filter (· ≠ [])).map fun group =>
        groupValue (group.map Found.toGrepLine)) :=
  parseGrepOutput_render sampleChrono (fun _ => "2026".toList) none none sampleGroups rfl rfl

/-- A group without lines is not read back. -/
theorem emptyGroup_lost :
    parseGrepOutput sampleChrono (fun _ => "2026".toList) (render [[]]) none none ≠
      some ([([] : List Found)].map fun group => groupValue (group.map Found.toGrepLine)) := by
  have hparsed : parseGrepOutput sampleChrono (fun _ => "2026".toList) (render [[]]) none none =
      some [] := rfl
  rw [hparsed, List.map_cons]
  exact fun h => List.cons_ne_nil _ _ (Option.some.inj h).symm

end

end Tenodera.Agent.GrepOutput
