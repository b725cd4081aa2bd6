import Tenodera.Lib.Slices
import Tenodera.Lib.Text
import Tenodera.Lib.Words

/-!
# Timestamps of log lines

`extract_timestamp` tries one format after another on slices at fixed byte positions, and panics
when a position is inside a character.  `isSome_extractTimestamp_iff` says for which lines it
returns.
-/

namespace Tenodera.Agent.LogTimestamps

open Utf8

/-- What is used of the `chrono` crate; timestamps are in seconds, in UTC. -/
structure Chrono where
  /-- `NaiveDateTime::parse_from_str`. -/
  dateTime : List Char → String → Option ℤ
  /-- `NaiveDate::parse_from_str`, as the timestamp of its midnight. -/
  date : List Char → String → Option ℤ

/-- The byte at the position is this ASCII character. -/
def ByteAt (n : ℕ) (c : Char) (line : List Char) : Prop := (bytes line)[n]? = some c.toUInt8

instance (n : ℕ) (c : Char) (line : List Char) : Decidable (ByteAt n c line) :=
  inferInstanceAs (Decidable (_ = _))

/-- A format of `extract_timestamp`; none is a panic, and without a timestamp the next one is
tried. -/
abbrev Attempt : Type := Option (Option ℤ)

def Attempt.orTry : Attempt → Attempt → Attempt
  | none, _ => none
  | some (some ts), _ => some (some ts)
  | some none, next => next

/-- The first of some formats that reads the text. -/
def dateTimeOf (chrono : Chrono) (formats : List String) (text : List Char) : Option ℤ :=
  formats.findSome? (chrono.dateTime text)

section

variable (chrono : Chrono) (year line : List Char)

/-- `parse_filter_date`. -/
def parseFilterDate (s : List Char) (isStart : Bool) : Option ℤ :=
  (chrono.dateTime s "%Y-%m-%d %H:%M:%S").or
    ((chrono.date s "%Y-%m-%d").map fun midnight =>
      if isStart then midnight else midnight + (23 * 60 + 59) * 60 + 59)

/-! ## The formats -/

def IsIso : Prop := ByteAt 4 '-' line ∧ ByteAt 7 '-' line

instance : Decidable (IsIso line) := inferInstanceAs (Decidable (_ ∧ _))

/-- The end of `candidate`. -/
def isoEnd : ℕ := if 19 ≤ size line then 19 else 10

def isoFormats : List String := ["%Y-%m-%dT%H:%M:%S", "%Y-%m-%d %H:%M:%S"]

/-- "2026-03-23T14:30:01" or "2026-03-23 14:30:01". -/
def iso : Attempt :=
  if IsIso line then do
    let candidate ← prefixTo (isoEnd line) line
    match dateTimeOf chrono isoFormats candidate with
    | some ts => return some ts
    | none =>
      let day ← prefixTo 10 line
      return chrono.date day "%Y-%m-%d"
  else some none

/-- The second one is for a day of a single digit. -/
def syslogFormats : List String := ["%Y %b %d %H:%M:%S", "%Y %b  %d %H:%M:%S"]

/-- "Mar 23 14:30:01", after the current year. -/
def syslog : Attempt :=
  if 15 ≤ size line then do
    let syslogPart ← prefixTo 15 line
    return dateTimeOf chrono syslogFormats (year ++ ' ' :: syslogPart)
  else some none

/-- "23/Mar/2026:14:30:01", the first word in brackets. -/
def apache : Attempt :=
  match find ['['] line with
  | none => some none
  | some bracketStart => do
    let after ← suffixFrom (bracketStart + 1) line
    match find [']'] after with
    | none => return none
    | some bracketEnd =>
      let inside ← prefixTo bracketEnd after
      return chrono.dateTime ((Words.words Text.isWhitespace inside).head?.getD [])
        "%d/%b/%Y:%H:%M:%S"

def IsNumeric : Prop := ByteAt 4 '/' line ∧ 19 ≤ size line

instance : Decidable (IsNumeric line) := inferInstanceAs (Decidable (_ ∧ _))

/-- "2026/03/23 14:30:01". -/
def numeric : Attempt :=
  if IsNumeric line then do
    let part ← prefixTo 19 line
    return chrono.dateTime part "%Y/%m/%d %H:%M:%S"
  else some none

/-- `extract_timestamp`; `year` is the current year, and none is a panic. -/
def extractTimestamp : Attempt :=
  let line := Text.trimmed line
  if size line < 10 then some none
  else
    (iso chrono line).orTry <| (syslog chrono year line).orTry <|
      (apache chrono line).orTry <| numeric chrono line

/-! ## Lines on which it returns -/

/-- The beginning of the line of so many bytes, after `lead`, is read by one of the formats. -/
def DatedTo (lead : List Char) (n : ℕ) (formats : List String) : Prop :=
  ∃ part, part <+: line ∧ size part = n ∧ (dateTimeOf chrono formats (lead ++ part)).isSome

/-- The first ten bytes are a day. -/
def DayTo : Prop := ∃ part, part <+: line ∧ size part = 10 ∧ (chrono.date part "%Y-%m-%d").isSome

/-- The first word in the first brackets is a timestamp. -/
def Bracketed : Prop :=
  ∃ a inside b, line = a ++ '[' :: (inside ++ ']' :: b) ∧ '[' ∉ a ∧ ']' ∉ inside ∧
    (chrono.dateTime ((Words.words Text.isWhitespace inside).head?.getD [])
      "%d/%b/%Y:%H:%M:%S").isSome

/-- The positions at which a trimmed line of ten bytes or more is cut are between characters. -/
structure Cuts : Prop where
  iso : IsIso line → Boundary (isoEnd line) line
  day : IsIso line → ¬ DatedTo chrono line [] (isoEnd line) isoFormats → Boundary 10 line
  syslog : 15 ≤ size line →
    ¬ (IsIso line ∧ (DatedTo chrono line [] (isoEnd line) isoFormats ∨ DayTo chrono line)) →
    Boundary 15 line
  numeric : IsNumeric line → ¬ DatedTo chrono line (year ++ [' ']) 15 syslogFormats →
    ¬ Bracketed chrono line → Boundary 19 line

end

section

variable {chrono : Chrono} {year line : List Char} {first next : Attempt}

theorem isSome_orTry_iff :
    (first.orTry next).isSome ↔ first.isSome ∧ (first = some none → next.isSome) := by
  match first with
  | none => simp [Attempt.orTry]
  | some none => simp [Attempt.orTry]
  | some (some ts) => simp [Attempt.orTry]

/-- A slice that was read by a format. -/
theorem datedTo_iff {lead part : List Char} {n : ℕ} {formats : List String}
    (h : prefixTo n line = some part) :
    DatedTo chrono line lead n formats ↔ (dateTimeOf chrono formats (lead ++ part)).isSome := by
  constructor
  · rintro ⟨part', hpart', hsize', hdated⟩
    obtain rfl : part = part' :=
      Option.some.inj (h.symm.trans (prefixTo_eq_some_iff.2 ⟨hpart', hsize'⟩))
    exact hdated
  · exact fun hdated => ⟨part, (prefixTo_eq_some_iff.1 h).1, (prefixTo_eq_some_iff.1 h).2, hdated⟩

theorem dayTo_iff {part : List Char} (h : prefixTo 10 line = some part) :
    DayTo chrono line ↔ (chrono.date part "%Y-%m-%d").isSome := by
  constructor
  · rintro ⟨part', hpart', hsize', hday⟩
    obtain rfl : part = part' :=
      Option.some.inj (h.symm.trans (prefixTo_eq_some_iff.2 ⟨hpart', hsize'⟩))
    exact hday
  · exact fun hday => ⟨part, (prefixTo_eq_some_iff.1 h).1, (prefixTo_eq_some_iff.1 h).2, hday⟩

theorem not_boundary {n : ℕ} (h : prefixTo n line = none) : ¬ Boundary n line := by
  rw [← isSome_prefixTo_iff, h]
  exact Bool.false_ne_true

theorem boundary {n : ℕ} {part : List Char} (h : prefixTo n line = some part) :
    Boundary n line := by
  rw [← isSome_prefixTo_iff, h]
  rfl

/-- Without a candidate or a day that is read the format gives nothing. -/
theorem isSome_iso_iff : (iso chrono line).isSome ↔
    (IsIso line → Boundary (isoEnd line) line) ∧
      (IsIso line → ¬ DatedTo chrono line [] (isoEnd line) isoFormats → Boundary 10 line) := by
  unfold iso
  split_ifs with hiso
  · cases hcandidate : prefixTo (isoEnd line) line with
    | none => simp [hiso, not_boundary hcandidate]
    | some candidate =>
      rw [datedTo_iff hcandidate]
      cases hts : dateTimeOf chrono isoFormats candidate with
      | some ts => simp [hts, boundary hcandidate]
      | none =>
        cases hday : prefixTo 10 line with
        | none => simp [hts, hiso, not_boundary hday]
        | some day => simp [hts, boundary hcandidate, boundary hday]
  · simp [hiso]

theorem iso_eq_iff (h : (iso chrono line).isSome) : iso chrono line = some none ↔
    ¬ (IsIso line ∧ (DatedTo chrono line [] (isoEnd line) isoFormats ∨ DayTo chrono line)) := by
  unfold iso at h ⊢
  split_ifs at h ⊢ with hiso
  · cases hcandidate : prefixTo (isoEnd line) line with
    | none => simp [hcandidate] at h
    | some candidate =>
      rw [datedTo_iff hcandidate]
      cases hts : dateTimeOf chrono isoFormats candidate with
      | some ts => simp [hts, hiso]
      | none =>
        cases hday : prefixTo 10 line with
        | none => simp [hcandidate, hts, hday] at h
        | some day => simp [hts, hiso, dayTo_iff hday]
  · simp [hiso]

theorem isSome_syslog_iff :
    (syslog chrono year line).isSome ↔ (15 ≤ size line → Boundary 15 line) := by
  unfold syslog
  split_ifs with hlong
  · cases hpart : prefixTo 15 line with
    | none => simp [hlong, not_boundary hpart]
    | some part => simp [boundary hpart]
  · simp [hlong]

theorem syslog_eq_iff (h : (syslog chrono year line).isSome) : syslog chrono year line = some none ↔
    ¬ DatedTo chrono line (year ++ [' ']) 15 syslogFormats := by
  unfold syslog at h ⊢
  split_ifs at h ⊢ with hlong
  · cases hpart : prefixTo 15 line with
    | none => simp [hpart] at h
    | some part => simp [datedTo_iff hpart]
  · refine iff_of_true rfl ?_
    rintro ⟨part, hpart, hsize, -⟩
    have hle : size part ≤ size line := by
      obtain ⟨rest, rfl⟩ := hpart
      rw [size_append]
      omega
    omega

/-- The positions of brackets are between characters. -/
theorem apache_eq_iff : (apache chrono line).isSome ∧
    (apache chrono line = some none ↔ ¬ Bracketed chrono line) := by
  unfold apache
  cases hopen : find ['['] line with
  | none =>
    refine ⟨rfl, iff_of_true rfl ?_⟩
    rintro ⟨a, inside, b, rfl, -, -, -⟩
    exact find_char_eq_none_iff.1 hopen (by simp)
  | some bracketStart =>
    obtain ⟨a, after, ha, rfl, -, hafter⟩ := exists_of_find_char (by decide) hopen
    cases hclose : find [']'] after with
    | none =>
      refine ⟨by simp [hafter, hclose], iff_of_true (by simp [hafter, hclose]) ?_⟩
      rintro ⟨a', inside, b, hline, ha', -, -⟩
      obtain ⟨-, rfl⟩ := Words.append_cons_inj ha ha' hline
      exact find_char_eq_none_iff.1 hclose (by simp)
    | some bracketEnd =>
      obtain ⟨inside, b, hinside, rfl, hslice, -⟩ := exists_of_find_char (by decide) hclose
      have hbracketed : Bracketed chrono (a ++ '[' :: (inside ++ ']' :: b)) ↔
          (chrono.dateTime ((Words.words Text.isWhitespace inside).head?.getD [])
            "%d/%b/%Y:%H:%M:%S").isSome := by
        constructor
        · rintro ⟨a', inside', b', hline, ha', hinside', hread⟩
          obtain ⟨-, hrest⟩ := Words.append_cons_inj ha ha' hline
          obtain ⟨rfl, -⟩ := Words.append_cons_inj hinside hinside' hrest
          exact hread
        · exact fun hread => ⟨a, inside, b, rfl, ha, hinside, hread⟩
      rw [hbracketed]
      simp [hafter, hclose, hslice]

theorem isSome_numeric_iff :
    (numeric chrono line).isSome ↔ (IsNumeric line → Boundary 19 line) := by
  unfold numeric
  split_ifs with hnumeric
  · cases hpart : prefixTo 19 line with
    | none => simp [hnumeric, not_boundary hpart]
    | some part => simp [boundary hpart]
  · simp [hnumeric]

/-- A line with a slash there is not taken for an ISO one. -/
theorem IsNumeric.not_isIso (h : IsNumeric line) : ¬ IsIso line := by
  rintro ⟨hdash, -⟩
  have hslash : some '-'.toUInt8 = some '/'.toUInt8 := hdash.symm.trans h.1
  revert hslash
  decide

/-- `extract_timestamp` returns iff the trimmed line is short or is cut between characters. -/
theorem isSome_extractTimestamp_iff (chrono : Chrono) (year line : List Char) :
    (extractTimestamp chrono year line).isSome ↔
      size (Text.trimmed line) < 10 ∨ Cuts chrono year (Text.trimmed line) := by
  unfold extractTimestamp
  generalize Text.trimmed line = t
  dsimp only
  split_ifs with hshort
  · exact iff_of_true rfl (.inl hshort)
  · rw [or_iff_right hshort, isSome_orTry_iff, isSome_orTry_iff, isSome_orTry_iff]
    constructor
    · rintro ⟨hiso, hrest⟩
      refine ⟨(isSome_iso_iff.1 hiso).1, (isSome_iso_iff.1 hiso).2, fun hlong hnot => ?_,
        fun hnumeric hsyslog hapache => ?_⟩
      · exact isSome_syslog_iff.1 (hrest ((iso_eq_iff hiso).2 hnot)).1 hlong
      · obtain ⟨hsome, hlast⟩ :=
          hrest ((iso_eq_iff hiso).2 fun h => hnumeric.not_isIso h.1)
        have hlast' := (hlast ((syslog_eq_iff hsome).2 hsyslog)).2 (apache_eq_iff.2.2 hapache)
        exact isSome_numeric_iff.1 hlast' hnumeric
    · intro h
      have hiso : (iso chrono t).isSome := isSome_iso_iff.2 ⟨h.iso, h.day⟩
      refine ⟨hiso, fun hnone => ?_⟩
      have hsyslog : (syslog chrono year t).isSome :=
        isSome_syslog_iff.2 fun hlong => h.syslog hlong ((iso_eq_iff hiso).1 hnone)
      refine ⟨hsyslog, fun hnone' => ⟨apache_eq_iff.1, fun hnone'' => ?_⟩⟩
      exact isSome_numeric_iff.2 fun hnumeric =>
        h.numeric hnumeric ((syslog_eq_iff hsyslog).1 hnone') (apache_eq_iff.2.1 hnone'')

end

end Tenodera.Agent.LogTimestamps
