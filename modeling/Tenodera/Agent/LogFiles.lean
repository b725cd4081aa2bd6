import Tenodera.Agent.Host
import Tenodera.Agent.LogTimestamps
import Tenodera.Lib.LossyUtf8

/-!
# Log lines in a date range

`filter_by_date` keeps the lines whose timestamp is in the range, and lines without a timestamp
once any line is kept.  `filterLoop_eq_selected_iff` says for which files these are the
continuation lines of lines in the range.
-/

namespace Tenodera.Agent.LogFiles

open Host LogTimestamps Protocol

/-- A line of the file with its number. -/
structure Entry where
  num : ℕ
  text : List Char
  deriving DecidableEq

def Entry.toValue (entry : Entry) : Value :=
  .object [("num", .number (.posInt (UInt64.ofNat entry.num))),
    ("text", .string (String.ofList entry.text))]

/-- The timestamp is not before `from_ts` and not after `to_ts`. -/
def InRange (fromTs toTs : Option ℤ) (ts : ℤ) : Prop :=
  (∀ start ∈ fromTs, start ≤ ts) ∧ ∀ stop ∈ toTs, ts ≤ stop

instance (fromTs toTs : Option ℤ) (ts : ℤ) : Decidable (InRange fromTs toTs ts) :=
  inferInstanceAs (Decidable (_ ∧ _))

section

variable (chrono : Chrono) (years : ℕ → List Char) (fromTs toTs : Option ℤ)

/-- The loop of `filter_by_date` from the line at index `i` on, after the lines in `filtered`.
`years i` is the current year when that line is looked at, and none is a panic. -/
def filterLoop : ℕ → List (List Char) → List Entry → Option (List Entry)
  | _, [], filtered => some filtered
  | i, line :: lines, filtered =>
    match extractTimestamp chrono (years i) line with
    | none => none
    | some (some ts) =>
      if InRange fromTs toTs ts then filterLoop (i + 1) lines (filtered ++ [⟨i + 1, line⟩])
      else filterLoop (i + 1) lines filtered
    | some none =>
      if filtered ≠ [] then filterLoop (i + 1) lines (filtered ++ [⟨i + 1, line⟩])
      else filterLoop (i + 1) lines filtered

/-- `filter_by_date` on what `cat` has written. -/
def filterByDate (path : String) (dateFrom dateTo : Option (List Char)) (stdout : List UInt8) :
    Option Value :=
  let fromTs := dateFrom.bind fun d => parseFilterDate chrono d true
  let toTs := dateTo.bind fun d => parseFilterDate chrono d false
  if fromTs = none ∧ toTs = none then some (failedValue "no date range specified")
  else
    (filterLoop chrono years fromTs toTs 0 (Text.linesOf (LossyUtf8.decode stdout)) []).map
      fun filtered =>
        .object [("ok", .bool true), ("path", .string path),
          ("total_lines", .number (.posInt (UInt64.ofNat filtered.length))),
          ("lines", .array (filtered.map Entry.toValue))]

/-- The timestamps of the lines from index `i` on. -/
def stampsFrom : ℕ → List (List Char) → Option (List (Option ℤ))
  | _, [] => some []
  | i, line :: lines => do
    let stamp ← extractTimestamp chrono (years i) line
    let stamps ← stampsFrom (i + 1) lines
    return stamp :: stamps

/-- `extract_timestamp` returns on the line. -/
def Readable (year line : List Char) : Prop :=
  Utf8.size (Text.trimmed line) < 10 ∨ Cuts chrono year (Text.trimmed line)

/-! ## Lines of the range -/

/-- The timestamp of the nearest line before an index that has one. -/
def nearest (stamps : List (Option ℤ)) (i : ℕ) : Option ℤ := (stamps.take i).reverse.findSome? id

/-- The timestamp of the line, and without one that of the line it continues. -/
def governing (stamps : List (Option ℤ)) (i : ℕ) : Option ℤ :=
  stamps[i]?.join.or (nearest stamps i)

/-- The line has a timestamp in the range, or has none and continues a line that has. -/
def Belongs (stamps : List (Option ℤ)) (i : ℕ) : Prop :=
  ∃ ts ∈ governing stamps i, InRange fromTs toTs ts

instance (stamps : List (Option ℤ)) (i : ℕ) : Decidable (Belongs fromTs toTs stamps i) :=
  inferInstanceAs (Decidable (∃ ts ∈ _, _))

/-- The lines of the range, with their numbers. -/
def selected (stamps : List (Option ℤ)) (lines : List (List Char)) : List Entry :=
  (lines.zipIdx.filter fun p => Belongs fromTs toTs stamps p.2).map fun p => ⟨p.2 + 1, p.1⟩

/-- A line without a timestamp that comes after a line in the range continues a line in the
range. -/
def Contiguous (stamps : List (Option ℤ)) : Prop :=
  ∀ i, stamps[i]? = some none → (∃ ts, some ts ∈ stamps.take i ∧ InRange fromTs toTs ts) →
    ∀ ts ∈ nearest stamps i, InRange fromTs toTs ts

end

section

variable {chrono : Chrono} {years : ℕ → List Char} {fromTs toTs : Option ℤ}
  {lines : List (List Char)} {stamps : List (Option ℤ)} {i : ℕ}

/-! ## Panics -/

theorem isSome_stampsFrom_iff : (stampsFrom chrono years i lines).isSome ↔
    ∀ j line, lines[j]? = some line → Readable chrono (years (i + j)) line := by
  induction lines generalizing i with
  | nil => simp [stampsFrom]
  | cons line lines ih =>
    have hcons : (stampsFrom chrono years i (line :: lines)).isSome ↔
        Readable chrono (years i) line ∧ (stampsFrom chrono years (i + 1) lines).isSome := by
      rw [Readable, ← isSome_extractTimestamp_iff, stampsFrom]
      cases extractTimestamp chrono (years i) line with
      | none => simp
      | some stamp => cases stampsFrom chrono years (i + 1) lines <;> simp
    rw [hcons, ih]
    constructor
    · rintro ⟨hline, hlines⟩ j line' hj
      cases j with
      | zero =>
        cases hj
        exact hline
      | succ j =>
        have hrest := hlines j line' hj
        rwa [Nat.add_right_comm] at hrest
    · refine fun h => ⟨h 0 line rfl, fun j line' hj => ?_⟩
      have hrest := h (j + 1) line' hj
      rwa [← Nat.add_assoc, Nat.add_right_comm] at hrest

theorem isSome_filterLoop (filtered : List Entry) :
    (filterLoop chrono years fromTs toTs i lines filtered).isSome =
      (stampsFrom chrono years i lines).isSome := by
  induction lines generalizing i filtered with
  | nil => rfl
  | cons line lines ih =>
    rw [filterLoop, stampsFrom]
    match extractTimestamp chrono (years i) line with
    | none => rfl
    | some (some ts) =>
      dsimp only
      split_ifs <;> rw [ih] <;> cases stampsFrom chrono years (i + 1) lines <;> rfl
    | some none =>
      dsimp only
      split_ifs <;> rw [ih] <;> cases stampsFrom chrono years (i + 1) lines <;> rfl

/-- `filter_by_date` returns iff there is no range or `extract_timestamp` returns on every line. -/
theorem isSome_filterByDate_iff (chrono : Chrono) (years : ℕ → List Char) (path : String)
    (dateFrom dateTo : Option (List Char)) (stdout : List UInt8) :
    (filterByDate chrono years path dateFrom dateTo stdout).isSome ↔
      (dateFrom.bind fun d => parseFilterDate chrono d true) = none ∧
          (dateTo.bind fun d => parseFilterDate chrono d false) = none ∨
        ∀ i line, (Text.linesOf (LossyUtf8.decode stdout))[i]? = some line →
          Readable chrono (years i) line := by
  unfold filterByDate
  dsimp only
  split_ifs with hrange
  · exact iff_of_true rfl (.inl hrange)
  · rw [or_iff_right hrange, Option.isSome_map, isSome_filterLoop, isSome_stampsFrom_iff]
    simp only [Nat.zero_add]

/-- `extract_timestamp` returns on a line, and `filter_by_date` on a file, iff every position at
which a line is cut is between characters. -/
theorem returns_iff (chrono : Chrono) (years : ℕ → List Char) :
    (∀ year line, (extractTimestamp chrono year line).isSome ↔ Readable chrono year line) ∧
      ∀ path dateFrom dateTo stdout,
        (filterByDate chrono years path dateFrom dateTo stdout).isSome ↔
          (dateFrom.bind fun d => parseFilterDate chrono d true) = none ∧
              (dateTo.bind fun d => parseFilterDate chrono d false) = none ∨
            ∀ i line, (Text.linesOf (LossyUtf8.decode stdout))[i]? = some line →
              Readable chrono (years i) line :=
  ⟨isSome_extractTimestamp_iff chrono, isSome_filterByDate_iff chrono years⟩

/-! ## The loop -/

/-- One of the timestamps is in the range. -/
def reached (fromTs toTs : Option ℤ) (before : List (Option ℤ)) : Bool :=
  before.any fun stamp => stamp.any fun ts => InRange fromTs toTs ts

/-- The loop keeps a line with this timestamp after lines with those. -/
def kept (fromTs toTs : Option ℤ) (before : List (Option ℤ)) : Option ℤ → Bool
  | some ts => InRange fromTs toTs ts
  | none => reached fromTs toTs before

theorem reached_concat (before : List (Option ℤ)) (stamp : Option ℤ) :
    reached fromTs toTs (before ++ [stamp]) =
      (reached fromTs toTs before || kept fromTs toTs before stamp) := by
  rw [reached, List.any_append]
  cases stamp with
  | none => simp [kept, reached]
  | some ts => simp [kept, reached]

theorem filterLoop_cons {line : List Char} {stamp : Option ℤ} {before : List (Option ℤ)}
    {filtered : List Entry} (hstamp : extractTimestamp chrono (years i) line = some stamp)
    (hfiltered : filtered ≠ [] ↔ reached fromTs toTs before) :
    filterLoop chrono years fromTs toTs i (line :: lines) filtered =
      filterLoop chrono years fromTs toTs (i + 1) lines
        (if kept fromTs toTs before stamp then filtered ++ [⟨i + 1, line⟩] else filtered) := by
  rw [filterLoop, hstamp]
  cases stamp with
  | some ts => by_cases hts : InRange fromTs toTs ts <;> simp [kept, hts]
  | none => by_cases hnil : reached fromTs toTs before <;> simp [kept, hnil, hfiltered]

/-- What the loop has kept after `before` is not empty iff a line in the range has come. -/
theorem filterLoop_eq {before : List (Option ℤ)} {filtered : List Entry}
    (hstamps : stampsFrom chrono years i lines = some stamps) (hbefore : before.length = i)
    (hfiltered : filtered ≠ [] ↔ reached fromTs toTs before) :
    filterLoop chrono years fromTs toTs i lines filtered =
      some (filtered ++ ((lines.zipIdx i).filter fun p =>
        kept fromTs toTs ((before ++ stamps).take p.2) (before ++ stamps)[p.2]?.join).map
          fun p => ⟨p.2 + 1, p.1⟩) := by
  induction lines generalizing i stamps before filtered with
  | nil => simp [filterLoop]
  | cons line lines ih =>
    obtain ⟨stamp, hstamp, stamps', hstamps', rfl⟩ : ∃ stamp,
        extractTimestamp chrono (years i) line = some stamp ∧ ∃ stamps',
          stampsFrom chrono years (i + 1) lines = some stamps' ∧ stamp :: stamps' = stamps := by
      simpa [stampsFrom, Option.bind_eq_some_iff] using hstamps
    have hat : (before ++ stamp :: stamps')[i]?.join = stamp := by
      rw [List.getElem?_append_right hbefore.le, hbefore, Nat.sub_self]
      rfl
    have htake : (before ++ stamp :: stamps').take i = before := List.take_left' hbefore
    have hnext : (if kept fromTs toTs before stamp then filtered ++ [⟨i + 1, line⟩]
        else filtered) ≠ [] ↔ reached fromTs toTs (before ++ [stamp]) := by
      rw [reached_concat, Bool.or_eq_true, ← hfiltered]
      by_cases hkept : kept fromTs toTs before stamp <;> simp [hkept]
    have hrest := ih hstamps' (by simp [hbefore]) hnext
    rw [List.append_assoc, List.singleton_append] at hrest
    rw [filterLoop_cons hstamp hfiltered, hrest, List.zipIdx_cons, List.filter_cons, hat, htake]
    by_cases hkept : kept fromTs toTs before stamp <;> simp [hkept]

/-! ## The lines that are kept -/

theorem length_stampsFrom (h : stampsFrom chrono years i lines = some stamps) :
    stamps.length = lines.length := by
  induction lines generalizing i stamps with
  | nil =>
    cases h
    rfl
  | cons line lines ih =>
    obtain ⟨stamp, -, stamps', hstamps', rfl⟩ : ∃ stamp,
        extractTimestamp chrono (years i) line = some stamp ∧ ∃ stamps',
          stampsFrom chrono years (i + 1) lines = some stamps' ∧ stamp :: stamps' = stamps := by
      simpa [stampsFrom, Option.bind_eq_some_iff] using h
    rw [List.length_cons, List.length_cons, ih hstamps']

theorem reached_iff {before : List (Option ℤ)} :
    reached fromTs toTs before ↔ ∃ ts, some ts ∈ before ∧ InRange fromTs toTs ts := by
  simp only [reached, List.any_eq_true, Option.any_eq_true, decide_eq_true_eq]
  constructor
  · rintro ⟨_, hmem, ts, rfl, hts⟩
    exact ⟨ts, hmem, hts⟩
  · rintro ⟨ts, hmem, hts⟩
    exact ⟨some ts, hmem, ts, rfl, hts⟩

theorem mem_of_mem_nearest {ts : ℤ} (h : ts ∈ nearest stamps i) : some ts ∈ stamps.take i := by
  obtain ⟨stamp, hmem, rfl⟩ := List.exists_of_findSome?_eq_some h
  exact List.mem_reverse.1 hmem

theorem exists_mem_nearest {ts : ℤ} (h : some ts ∈ stamps.take i) :
    ∃ ts', ts' ∈ nearest stamps i := by
  have hsome : (nearest stamps i).isSome :=
    List.findSome?_isSome_iff.2 ⟨some ts, List.mem_reverse.2 h, rfl⟩
  exact Option.isSome_iff_exists.1 hsome

/-- The loop and the range agree on a line with a timestamp, and on others if these are
contiguous. -/
theorem kept_eq_iff (hi : i < stamps.length) :
    kept fromTs toTs (stamps.take i) stamps[i]?.join = decide (Belongs fromTs toTs stamps i) ↔
      (stamps[i]? = some none → (∃ ts, some ts ∈ stamps.take i ∧ InRange fromTs toTs ts) →
        ∀ ts ∈ nearest stamps i, InRange fromTs toTs ts) := by
  obtain ⟨stamp, hstamp⟩ : ∃ stamp, stamps[i]? = some stamp := ⟨_, List.getElem?_eq_getElem hi⟩
  have hbelongs : Belongs fromTs toTs stamps i ↔
      ∃ ts ∈ stamp.or (nearest stamps i), InRange fromTs toTs ts := by
    unfold Belongs governing
    rw [hstamp]
    rfl
  rw [decide_eq_decide.2 hbelongs, hstamp]
  cases stamp with
  | some ts => simp [kept]
  | none =>
    change reached fromTs toTs (stamps.take i) =
      decide (∃ ts ∈ nearest stamps i, InRange fromTs toTs ts) ↔ _
    rw [Bool.eq_iff_iff, reached_iff, decide_eq_true_eq]
    constructor
    · intro h _ hreached ts hts
      obtain ⟨ts', hts', hin⟩ := h.1 hreached
      obtain rfl : ts = ts' := Option.some.inj (hts.symm.trans hts')
      exact hin
    · refine fun h => ⟨fun hreached => ?_, ?_⟩
      · obtain ⟨ts, hmem, hin⟩ := hreached
        obtain ⟨ts', hts'⟩ := exists_mem_nearest hmem
        exact ⟨ts', hts', h rfl ⟨ts, hmem, hin⟩ ts' hts'⟩
      · rintro ⟨ts, hts, hin⟩
        exact ⟨ts, mem_of_mem_nearest hts, hin⟩

/-- The loop gives the lines of the range iff no line is cut inside a character and the lines
without timestamps are contiguous. -/
theorem filterLoop_eq_selected_iff (chrono : Chrono) (years : ℕ → List Char)
    (fromTs toTs : Option ℤ) (lines : List (List Char)) :
    (∃ stamps, stampsFrom chrono years 0 lines = some stamps ∧
      filterLoop chrono years fromTs toTs 0 lines [] =
        some (selected fromTs toTs stamps lines)) ↔
      (∀ i line, lines[i]? = some line → Readable chrono (years i) line) ∧
        ∀ stamps, stampsFrom chrono years 0 lines = some stamps →
          Contiguous fromTs toTs stamps := by
  have hreadable : (stampsFrom chrono years 0 lines).isSome ↔
      ∀ i line, lines[i]? = some line → Readable chrono (years i) line := by
    rw [isSome_stampsFrom_iff]
    simp only [Nat.zero_add]
  rw [← hreadable]
  cases hstamps : stampsFrom chrono years 0 lines with
  | none => simp
  | some stamps =>
    have hloop : filterLoop chrono years fromTs toTs 0 lines [] = _ :=
      filterLoop_eq hstamps List.length_nil (by simp [reached])
    have hlength := length_stampsFrom hstamps
    have hentry : Function.Injective fun p : List Char × ℕ => (⟨p.2 + 1, p.1⟩ : Entry) := by
      rintro ⟨text, n⟩ ⟨text', n'⟩ h
      simpa [and_comm] using h
    simp only [Option.some.injEq, exists_eq_left', Option.isSome_some, true_and, forall_eq']
    rw [hloop, Option.some.injEq, List.nil_append, List.nil_append, selected,
      (List.map_injective_iff.2 hentry).eq_iff]
    constructor
    · intro h j hj
      have hlt : j < stamps.length := (List.getElem?_eq_some_iff.1 hj).1
      obtain ⟨line, hline⟩ : ∃ line, lines[j]? = some line :=
        ⟨_, List.getElem?_eq_getElem (hlength ▸ hlt)⟩
      have hmem : (line, j) ∈ lines.zipIdx := List.mk_mem_zipIdx_iff_getElem?.2 hline
      refine (kept_eq_iff hlt).1 ?_ hj
      have hboth := iff_of_eq (congrArg (fun entries => (line, j) ∈ entries) h)
      rw [List.mem_filter, List.mem_filter, and_iff_right hmem, and_iff_right hmem] at hboth
      exact Bool.eq_iff_iff.2 hboth
    · intro h
      refine List.filter_congr fun p hp => (kept_eq_iff ?_).2 (h p.2)
      exact hlength ▸ (List.getElem?_eq_some_iff.1 (List.mem_zipIdx_iff_getElem?.1 hp)).1

end

/-! ## Lines of a sample -/

/-- The first day of the range and the two timestamps of the lines below. -/
def sampleChrono : Chrono where
  dateTime text format :=
    if format = "%Y-%m-%d %H:%M:%S" then
      if text = "2026-03-23 10:00:00".toList then some 1774260000
      else if text = "2026-03-24 10:00:00".toList then some 1774346400
      else none
    else none
  date text format :=
    if format = "%Y-%m-%d" ∧ text = "2026-03-23".toList then some 1774224000 else none

/-- The last line continues one that is not in the range. -/
def tracedLines : List (List Char) :=
  ["2026-03-23 10:00:00 up".toList, "2026-03-24 10:00:00 down".toList, "  at f".toList]

theorem tracedLines_wrong : ¬ ∃ stamps,
    stampsFrom sampleChrono (fun _ => "2026".toList) 0 tracedLines = some stamps ∧
      filterLoop sampleChrono (fun _ => "2026".toList) (some 1774224000) (some 1774310399) 0
          tracedLines [] =
        some (selected (some 1774224000) (some 1774310399) stamps tracedLines) := by
  have hstamps : stampsFrom sampleChrono (fun _ => "2026".toList) 0 tracedLines =
      some [some 1774260000, some 1774346400, none] := by decide
  rw [hstamps]
  decide

/-- The letter at its end has its second byte at position 15. -/
def accentedLine : List Char := "aaaaaaaaaaaaaaé".toList

theorem accentedLine_panics :
    extractTimestamp sampleChrono "2026".toList accentedLine = none ∧
      filterByDate sampleChrono (fun _ => "2026".toList) "/var/log/syslog"
        (some "2026-03-23".toList) none (Utf8.bytes accentedLine) = none := by
  decide

end Tenodera.Agent.LogFiles
