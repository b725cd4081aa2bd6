import Tenodera.Lib.Trim

/-!
# The settings of kdump

`parse_kdump_settings` reads the lines of a configuration, `upsert_setting` replaces those of one
key or adds one, and both find the key of a line with code of their own.  A carriage return that is
left at the end of a line is taken off by the next write: `upsert_law_iff`.
-/

namespace Tenodera.Agent.KdumpConfig

open Text

/-! ## Parsing -/

/-- `is_kdump_key`. -/
def isKdumpKey (key : List Char) : Bool := key ≠ [] && key.all fun c => c.isAlphanum || c = '_'

/-- `str::trim_matches` with a double quote. -/
def trimQuotes (cs : List Char) : List Char := (cs.dropWhile (· = '"')).rdropWhile (· = '"')

/-- The key and the value of a trimmed line. -/
def setting (confFormat : Bool) (t : List Char) : Option (List Char × List Char) :=
  if confFormat then
    match Words.splitOnce isWhitespace t with
    | some (k, v) => some (trimmed k, trimmed v)
    | none => some (t, [])
  else
    match Words.splitOnce (· = '=') t with
    | some (k, v) => some (trimmed k, trimQuotes (trimmed v))
    | none => none

/-- A line of `parse_kdump_settings`. -/
def parseLine (confFormat : Bool) (line : List Char) : Option (List Char × List Char) :=
  let t := trimmed line
  if t = [] ∨ t.head? = some '#' then none
  else (setting confFormat t).filter fun s => isKdumpKey s.1

/-- `parse_kdump_settings`. -/
def parseKdumpSettings (content : List Char) (confFormat : Bool) :
    List (List Char × List Char) :=
  (linesOf content).filterMap (parseLine confFormat)

/-! ## Writing -/

/-- The line of a setting. -/
def formatted (confFormat : Bool) (key value : List Char) : List Char :=
  if confFormat then key ++ ' ' :: value else key ++ '=' :: value

/-- `this_key` of `upsert_setting`. -/
def thisKey (confFormat : Bool) (line : List Char) : Option (List Char) :=
  let t := line.dropWhile isWhitespace
  if t.head? = some '#' then none
  else if confFormat then (Words.words isWhitespace t).head?
  else (Words.splitOnce (· = '=') t).map fun s => trimmed s.1

/-- A line of the key is replaced. -/
def edited (confFormat : Bool) (key value line : List Char) : List Char :=
  if thisKey confFormat line = some key then formatted confFormat key value else line

/-- The lines of `upsert_setting`. -/
def upsertLines (confFormat : Bool) (key value : List Char) (lines : List (List Char)) :
    List (List Char) :=
  let new := lines.map (edited confFormat key value)
  if ∃ line ∈ lines, thisKey confFormat line = some key then new
  else new ++ [formatted confFormat key value]

/-- The lines of a new text, which ends in a newline if the old one does. -/
def rejoined (content : List Char) (lines : List (List Char)) : List Char :=
  ['\n'].intercalate lines ++ if content.getLast? = some '\n' then ['\n'] else []

/-- `upsert_setting`. -/
def upsertSetting (content key value : List Char) (confFormat : Bool) : List Char :=
  rejoined content (upsertLines confFormat key value (linesOf content))

/-! ## The law of the two -/

/-- A value without newlines, white space and quotes at its ends. -/
structure IsValue (value : List Char) : Prop where
  newline : '\n' ∉ value
  head : ∀ c ∈ value.head?, isWhitespace c = false ∧ c ≠ '"'
  last : ∀ c ∈ value.getLast?, isWhitespace c = false ∧ c ≠ '"'

/-- The lines that are not those of the key, without their terminators. -/
def others (confFormat : Bool) (key content : List Char) : List (List Char) :=
  ((linesOf content).map bare).filter fun line => thisKey confFormat line ≠ some key

/-- The lines behind which the new text has a newline, but for the one that is added. -/
def followed (confFormat : Bool) (key content : List Char) : List (List Char) :=
  if content.getLast? = some '\n' ∨ ¬ ∃ line ∈ linesOf content, thisKey confFormat line = some key
  then linesOf content
  else (linesOf content).dropLast

/-- No carriage return stays in front of a newline. -/
def Settled (confFormat : Bool) (key content : List Char) : Prop :=
  ∀ line ∈ followed confFormat key content,
    thisKey confFormat line = some key ∨ line.getLast? ≠ some '\r'

section

variable {confFormat : Bool} {key value content line line' : List Char}
  {lines init : List (List Char)}

/-! ## The key of a line -/

theorem thisKey_eq (confFormat : Bool) (line : List Char) : thisKey confFormat line =
    if (trimmed line).head? = some '#' then none
    else if confFormat then (Words.words isWhitespace (trimmed line)).head?
    else (Words.splitOnce (· = '=') (trimmed line)).map fun s => trimmed s.1 := by
  have hequals : ∀ c : Char, decide (c = '=') = true → isWhitespace c = false := by
    intro c hc
    rw [of_decide_eq_true hc]
    decide
  rw [thisKey, head?_trimmed, words_trimmed, ← Words.words_dropWhile line, trimmed,
    Words.splitOnce_rdropWhile hequals, Option.map_map]
  rfl

theorem thisKey_congr (h : trimmed line = trimmed line') :
    thisKey confFormat line = thisKey confFormat line' := by
  rw [thisKey_eq, thisKey_eq, h]

theorem parseLine_congr (h : trimmed line = trimmed line') :
    parseLine confFormat line = parseLine confFormat line' := by
  rw [parseLine, parseLine, h]

/-- The two recognisers agree on the key of a trimmed line. -/
theorem map_setting {t : List Char} (hne : t ≠ []) (ht : trimmed t = t) :
    (setting confFormat t).map Prod.fst =
      if confFormat then (Words.words isWhitespace t).head?
      else (Words.splitOnce (· = '=') t).map fun s => trimmed s.1 := by
  cases confFormat with
  | false =>
    simp only [setting, Bool.false_eq_true, if_false]
    cases Words.splitOnce (· = '=') t <;> rfl
  | true =>
    simp only [setting, if_true]
    induction t using Words.words_induction (p := isWhitespace) with
    | last l hl =>
      rw [Words.splitOnce_of_none hl, Words.words_of_none hne hl]
      rfl
    | sep l a rest hl ha ih =>
      have hl_ne : l ≠ [] := by
        rintro rfl
        have hhead : (trimmed (a :: rest)).head? = some a := by
          rw [← List.nil_append (a :: rest), ht]
          rfl
        rw [isWhitespace_of_head?_trimmed hhead] at ha
        cases ha
      have htrimmed : trimmed l = l :=
        trimmed_eq_self (fun c hc => hl c (List.mem_of_mem_head? hc))
          fun c hc => hl c (List.mem_of_getLast? hc)
      rw [Words.splitOnce_append_cons hl ha, Words.words_append_word hl_ne hl ha]
      exact congrArg some htrimmed

/-- The parser finds the key that the editor finds, if it is one that the handler accepts. -/
theorem map_parseLine (confFormat : Bool) (line : List Char) :
    (parseLine confFormat line).map Prod.fst = (thisKey confFormat line).filter isKdumpKey := by
  rw [thisKey_eq, parseLine]
  by_cases hnil : trimmed line = []
  · rw [if_pos (.inl hnil), hnil]
    cases confFormat <;> rfl
  by_cases hcomment : (trimmed line).head? = some '#'
  · rw [if_pos (.inr hcomment), if_pos hcomment]
    rfl
  · rw [if_neg (not_or.2 ⟨hnil, hcomment⟩), if_neg hcomment,
      ← map_setting hnil (trimmed_trimmed line)]
    cases setting confFormat (trimmed line) with
    | none => rfl
    | some s => by_cases hs : isKdumpKey s.1 <;> simp [Option.filter, hs]

theorem exists_parseLine_iff (hkey : isKdumpKey key) :
    (∃ v, parseLine confFormat line = some (key, v)) ↔ thisKey confFormat line = some key := by
  have hmap : (∃ v, parseLine confFormat line = some (key, v)) ↔
      (parseLine confFormat line).map Prod.fst = some key := by
    simp [Option.map_eq_some_iff]
  rw [hmap, map_parseLine, Option.filter_eq_some_iff, and_iff_left hkey]

/-! ## The line of a setting -/

theorem of_isKdumpKey (h : isKdumpKey key) : key ≠ [] ∧
    ∀ c ∈ key, isWhitespace c = false ∧ c ≠ '=' ∧ c ≠ '#' := by
  simp only [isKdumpKey, Bool.and_eq_true, decide_eq_true_eq, List.all_eq_true,
    Bool.or_eq_true] at h
  refine ⟨h.1, fun c hc => ?_⟩
  rcases h.2 c hc with halnum | rfl
  · refine ⟨isWhitespace_of_isAlphanum halnum, ?_, ?_⟩ <;> rintro rfl <;> cases halnum
  · decide

theorem trimmed_key (hkey : isKdumpKey key) : trimmed key = key :=
  trimmed_eq_self (fun c hc => ((of_isKdumpKey hkey).2 c (List.mem_of_mem_head? hc)).1)
    fun c hc => ((of_isKdumpKey hkey).2 c (List.mem_of_getLast? hc)).1

theorem IsValue.trimmed_eq (h : IsValue value) : trimmed value = value :=
  trimmed_eq_self (fun c hc => (h.head c hc).1) fun c hc => (h.last c hc).1

theorem IsValue.trimQuotes_eq (h : IsValue value) : trimQuotes value = value :=
  Words.rdropWhile_dropWhile_eq_self (fun c hc => by simpa using (h.head c hc).2)
    fun c hc => by simpa using (h.last c hc).2

/-- What is behind the key of a line stays when it ends in a character that is not white space. -/
theorem trimmed_key_append (hkey : isKdumpKey key) {tail : List Char} (hne : tail ≠ [])
    (hlast : ∀ c ∈ tail.getLast?, isWhitespace c = false) :
    trimmed (key ++ tail) = key ++ tail := by
  obtain ⟨hkey_ne, hchars⟩ := of_isKdumpKey hkey
  apply trimmed_eq_self
  · obtain ⟨c, key', rfl⟩ := List.exists_cons_of_ne_nil hkey_ne
    intro d hd
    cases Option.some.inj hd
    exact (hchars c List.mem_cons_self).1
  · rwa [List.getLast?_append, Option.or_of_isSome (List.getLast?_isSome.2 hne)]

theorem setting_formatted (hkey : isKdumpKey key) (hvalue : IsValue value) :
    setting confFormat (trimmed (formatted confFormat key value)) = some (key, value) := by
  have hwhite : ∀ c ∈ key, isWhitespace c = false := fun c hc => ((of_isKdumpKey hkey).2 c hc).1
  have hequals : ∀ c ∈ key, decide (c = '=') = false := fun c hc =>
    decide_eq_false ((of_isKdumpKey hkey).2 c hc).2.1
  cases confFormat with
  | true =>
    show setting true (trimmed (key ++ ' ' :: value)) = _
    by_cases hnil : value = []
    · subst hnil
      rw [trimmed_concat (by decide), trimmed_key hkey, setting, if_pos rfl,
        Words.splitOnce_of_none hwhite]
    · have hlast : ∀ c ∈ (' ' :: value).getLast?, isWhitespace c = false := by
        rw [List.getLast?_cons_of_ne_nil hnil]
        exact fun c hc => (hvalue.last c hc).1
      rw [trimmed_key_append hkey (List.cons_ne_nil _ _) hlast, setting, if_pos rfl,
        Words.splitOnce_append_cons hwhite (by decide)]
      show some (trimmed key, trimmed value) = _
      rw [trimmed_key hkey, hvalue.trimmed_eq]
  | false =>
    show setting false (trimmed (key ++ '=' :: value)) = _
    have hlast : ∀ c ∈ ('=' :: value).getLast?, isWhitespace c = false := by
      by_cases hnil : value = []
      · subst hnil
        intro c hc
        cases Option.some.inj hc
        decide
      · rw [List.getLast?_cons_of_ne_nil hnil]
        exact fun c hc => (hvalue.last c hc).1
    rw [trimmed_key_append hkey (List.cons_ne_nil _ _) hlast, setting, if_neg (by decide),
      Words.splitOnce_append_cons hequals (by decide)]
    show some (trimmed key, trimQuotes (trimmed value)) = _
    rw [trimmed_key hkey, hvalue.trimmed_eq, hvalue.trimQuotes_eq]

/-- The line of a setting is parsed as that setting. -/
theorem parseLine_formatted (hkey : isKdumpKey key) (hvalue : IsValue value) :
    parseLine confFormat (formatted confFormat key value) = some (key, value) := by
  obtain ⟨hne, hchars⟩ := of_isKdumpKey hkey
  obtain ⟨c, key', rfl⟩ := List.exists_cons_of_ne_nil hne
  obtain ⟨hwhite, -, hcomment⟩ := hchars c List.mem_cons_self
  have hhead : (trimmed (formatted confFormat (c :: key') value)).head? = some c := by
    rw [head?_trimmed]
    cases confFormat <;> exact congrArg List.head? (List.dropWhile_cons_of_neg (by simp [hwhite]))
  have hfirst : ¬ (trimmed (formatted confFormat (c :: key') value) = [] ∨
      (trimmed (formatted confFormat (c :: key') value)).head? = some '#') := by
    rintro (hnil | hhash)
    · rw [hnil] at hhead
      cases hhead
    · rw [hhead] at hhash
      exact hcomment (Option.some.inj hhash)
  rw [parseLine, if_neg hfirst, setting_formatted hkey hvalue, Option.filter_some, if_pos hkey]

theorem thisKey_formatted (hkey : isKdumpKey key) (hvalue : IsValue value) :
    thisKey confFormat (formatted confFormat key value) = some key :=
  (exists_parseLine_iff hkey).1 ⟨value, parseLine_formatted hkey hvalue⟩

/-- The line of a setting is a line, which a newline ends as it is. -/
theorem formatted_line (confFormat : Bool) (hkey : isKdumpKey key) (hvalue : IsValue value) :
    formatted confFormat key value ≠ [] ∧ '\n' ∉ formatted confFormat key value ∧
      (formatted confFormat key value).getLast? ≠ some '\r' := by
  obtain ⟨hne, hchars⟩ := of_isKdumpKey hkey
  have hnewline : '\n' ∉ key := fun hmem => absurd (hchars _ hmem).1 (by decide)
  have hlast (c : Char) (hc : c ≠ '\r') : (key ++ c :: value).getLast? ≠ some '\r' := by
    rw [List.getLast?_append_cons]
    intro hcr
    by_cases hnil : value = []
    · rw [hnil] at hcr
      exact hc (Option.some.inj hcr)
    · rw [List.getLast?_cons_of_ne_nil hnil] at hcr
      exact absurd (hvalue.last _ hcr).1 (by decide)
  cases confFormat with
  | true => exact ⟨by simp [formatted], by simp [formatted, hnewline, hvalue.newline],
      hlast ' ' (by decide)⟩
  | false => exact ⟨by simp [formatted], by simp [formatted, hnewline, hvalue.newline],
      hlast '=' (by decide)⟩

/-! ## The lines of the new text -/

/-- Lines whose last one is not empty, if no newline is to follow it. -/
structure IsText (content : List Char) (lines : List (List Char)) : Prop where
  newline : ∀ line ∈ lines, '\n' ∉ line
  last : ∃ init last, lines = init ++ [last] ∧ (content.getLast? ≠ some '\n' → last ≠ [])

theorem exists_concat_of_ne_nil (h : lines ≠ []) : ∃ init last, lines = init ++ [last] := by
  obtain ⟨last, hlast⟩ := Option.isSome_iff_exists.1 (List.getLast?_isSome.2 h)
  obtain ⟨init, hinit⟩ := List.getLast?_eq_some_iff.1 hlast
  exact ⟨init, last, hinit⟩

theorem isText_upsertLines (hkey : isKdumpKey key) (hvalue : IsValue value) :
    IsText content (upsertLines confFormat key value (linesOf content)) := by
  obtain ⟨hne, hnewline, -⟩ := formatted_line confFormat hkey hvalue
  have hedited : ∀ line ∈ (linesOf content).map (edited confFormat key value), '\n' ∉ line := by
    intro line hline
    obtain ⟨line', hline', rfl⟩ := List.mem_map.1 hline
    unfold edited
    split_ifs
    · exact hnewline
    · exact newline_notMem_of_mem_linesOf hline'
  unfold upsertLines
  split_ifs with hfound
  · refine ⟨hedited, ?_⟩
    obtain ⟨line, hline, -⟩ := hfound
    obtain ⟨init, last, hlines⟩ := exists_concat_of_ne_nil (List.ne_nil_of_mem hline)
    refine ⟨init.map (edited confFormat key value), edited confFormat key value last,
      by rw [hlines, List.map_append]; rfl, fun hended => ?_⟩
    unfold edited
    split_ifs
    · exact hne
    · exact ne_nil_of_getLast?_linesOf hended (by rw [hlines, List.getLast?_concat])
  · refine ⟨fun line hline => ?_, _, _, rfl, fun _ => hne⟩
    rcases List.mem_append.1 hline with hline | hline
    · exact hedited line hline
    · rw [List.mem_singleton.1 hline]
      exact hnewline

/-- The lines that a newline follows in the text lose a carriage return. -/
theorem linesOf_rejoined (h : IsText content (init ++ [line])) :
    linesOf (rejoined content (init ++ [line])) =
      init.map stripCr ++ [if content.getLast? = some '\n' then stripCr line else line] := by
  obtain ⟨hnewline, init', last, heq, hlast⟩ := h
  obtain ⟨rfl, hline⟩ := List.append_inj' heq rfl
  obtain rfl : line = last := List.head_eq_of_cons_eq hline
  have hinit : ∀ l ∈ init, '\n' ∉ l := fun l hl => hnewline l (List.mem_append_left _ hl)
  have hfree : '\n' ∉ line := hnewline line (by simp)
  rw [rejoined, intercalate_newline_concat, List.append_assoc, linesOf_unlines_append hinit]
  split_ifs with hended
  · rw [linesOf_append_newline hfree, linesOf_nil]
  · rw [List.append_nil, linesOf_of_notMem hfree, if_neg (hlast hended)]

theorem bare_linesOf_rejoined (h : IsText content lines) :
    (linesOf (rejoined content lines)).map bare = lines.map bare := by
  obtain ⟨init, last, rfl, -⟩ := h.last
  rw [linesOf_rejoined h, List.map_append, List.map_append, bare_map_stripCr]
  split_ifs
  · exact congrArg _ (congrArg (fun l => [l]) (bare_stripCr last))
  · rfl

/-- The new text ends as the old one does. -/
theorem getLast?_rejoined (h : IsText content lines) :
    (rejoined content lines).getLast? = some '\n' ↔ content.getLast? = some '\n' := by
  obtain ⟨hnewline, init, last, rfl, hlast⟩ := h
  rw [rejoined, intercalate_newline_concat]
  split_ifs with hended
  · simp [hended]
  · rw [List.append_nil, List.getLast?_append, Option.or_of_isSome
      (List.getLast?_isSome.2 (hlast hended))]
    refine iff_of_false (fun hmem => ?_) hended
    exact hnewline last (by simp) (List.mem_of_getLast? hmem)

theorem rejoined_inj {lines' : List (List Char)} (h : IsText content lines)
    (h' : IsText content lines') (heq : rejoined content lines = rejoined content lines') :
    lines = lines' := by
  obtain ⟨init, last, hlines, -⟩ := h.last
  obtain ⟨init', last', hlines', -⟩ := h'.last
  have hjoined := List.append_cancel_right heq
  rw [← List.splitOn_intercalate '\n' h.newline (by simp [hlines]), hjoined,
    List.splitOn_intercalate '\n' h'.newline (by simp [hlines'])]

/-! ## The settings of the new text -/

theorem edited_cases (confFormat : Bool) (key value line : List Char) :
    (thisKey confFormat line = some key ∧
      edited confFormat key value line = formatted confFormat key value) ∨
    (thisKey confFormat line ≠ some key ∧ edited confFormat key value line = line) := by
  unfold edited
  split_ifs with hkey
  · exact .inl ⟨hkey, rfl⟩
  · exact .inr ⟨hkey, rfl⟩

/-- The line of the setting is in the new text. -/
theorem formatted_mem_upsertLines :
    formatted confFormat key value ∈ upsertLines confFormat key value lines := by
  unfold upsertLines
  split_ifs with hfound
  · obtain ⟨line, hline, hkey⟩ := hfound
    exact List.mem_map.2 ⟨line, hline, if_pos hkey⟩
  · simp

/-- A line of the new text is that of the setting, or an old one that is not of the key. -/
theorem mem_upsertLines (h : line ∈ upsertLines confFormat key value lines) :
    line = formatted confFormat key value ∨
      (line ∈ lines ∧ thisKey confFormat line ≠ some key) := by
  have hedited (h : line ∈ lines.map (edited confFormat key value)) :
      line = formatted confFormat key value ∨
        (line ∈ lines ∧ thisKey confFormat line ≠ some key) := by
    obtain ⟨line', hline', rfl⟩ := List.mem_map.1 h
    rcases edited_cases confFormat key value line' with ⟨-, heq⟩ | ⟨hkey, heq⟩
    · exact .inl heq
    · rw [heq]
      exact .inr ⟨hline', hkey⟩
  unfold upsertLines at h
  split_ifs at h with hfound
  · exact hedited h
  · rcases List.mem_append.1 h with h | h
    · exact hedited h
    · exact .inl (List.mem_singleton.1 h)

/-- What does not see the lines of the key sees the old lines. -/
theorem filterMap_upsertLines {β : Type} {f : List Char → Option β}
    (hf : ∀ line, thisKey confFormat line = some key → f line = none)
    (hformatted : f (formatted confFormat key value) = none) :
    (upsertLines confFormat key value lines).filterMap f = lines.filterMap f := by
  have hedited : (lines.map (edited confFormat key value)).filterMap f = lines.filterMap f := by
    rw [List.filterMap_map]
    refine List.filterMap_congr fun line _ => ?_
    rcases edited_cases confFormat key value line with ⟨hkey, heq⟩ | ⟨-, heq⟩
    · rw [Function.comp_apply, heq, hformatted, hf line hkey]
    · rw [Function.comp_apply, heq]
  unfold upsertLines
  split_ifs
  · exact hedited
  · rw [List.filterMap_append, hedited, List.filterMap_cons_none hformatted, List.filterMap_nil,
      List.append_nil]

theorem parseLine_bare (line : List Char) :
    parseLine confFormat (bare line) = parseLine confFormat line :=
  parseLine_congr (trimmed_bare line)

/-- The settings of a text depend on its lines without their terminators. -/
theorem parseKdumpSettings_eq (content : List Char) : parseKdumpSettings content confFormat =
    ((linesOf content).map bare).filterMap (parseLine confFormat) := by
  rw [parseKdumpSettings, List.filterMap_map]
  exact List.filterMap_congr fun line _ => (parseLine_bare line).symm

theorem parseKdumpSettings_upsertSetting (hkey : isKdumpKey key) (hvalue : IsValue value) :
    parseKdumpSettings (upsertSetting content key value confFormat) confFormat =
      (upsertLines confFormat key value (linesOf content)).filterMap (parseLine confFormat) := by
  rw [parseKdumpSettings_eq, upsertSetting, bare_linesOf_rejoined (isText_upsertLines hkey hvalue),
    List.filterMap_map]
  exact List.filterMap_congr fun line _ => parseLine_bare line

/-- The key has the value, on all its lines. -/
theorem settings_of_key (hkey : isKdumpKey key) (hvalue : IsValue value) :
    let settings := parseKdumpSettings (upsertSetting content key value confFormat) confFormat
    (key, value) ∈ settings ∧ ∀ s ∈ settings, s.1 = key → s.2 = value := by
  rw [parseKdumpSettings_upsertSetting hkey hvalue]
  constructor
  · exact List.mem_filterMap.2 ⟨_, formatted_mem_upsertLines, parseLine_formatted hkey hvalue⟩
  · intro s hs hname
    obtain ⟨line, hline, hparse⟩ := List.mem_filterMap.1 hs
    rcases mem_upsertLines hline with rfl | ⟨-, hother⟩
    · rw [parseLine_formatted hkey hvalue] at hparse
      rw [← Option.some.inj hparse]
    · have hsetting : parseLine confFormat line = some (key, s.2) := by
        rw [hparse, ← hname]
      exact absurd ((exists_parseLine_iff hkey).1 ⟨s.2, hsetting⟩) hother

/-- The other settings are those of before. -/
theorem other_settings (hkey : isKdumpKey key) (hvalue : IsValue value) :
    (parseKdumpSettings (upsertSetting content key value confFormat) confFormat).filter
        (fun s => s.1 ≠ key) =
      (parseKdumpSettings content confFormat).filter fun s => s.1 ≠ key := by
  rw [parseKdumpSettings_upsertSetting hkey hvalue, parseKdumpSettings, List.filter_filterMap,
    List.filter_filterMap]
  refine filterMap_upsertLines (fun line hline => ?_) ?_
  · obtain ⟨v, hv⟩ := (exists_parseLine_iff hkey).2 hline
    rw [hv]
    simp
  · rw [parseLine_formatted hkey hvalue]
    simp

theorem filter_bare (lines : List (List Char)) :
    ((lines.map bare).filter fun line => thisKey confFormat line ≠ some key) =
      lines.filterMap
        fun line => if thisKey confFormat line = some key then none else some (bare line) := by
  rw [← List.filterMap_eq_filter, List.filterMap_map]
  refine List.filterMap_congr fun line _ => ?_
  have hbare : thisKey confFormat (bare line) = thisKey confFormat line :=
    thisKey_congr (trimmed_bare line)
  by_cases hkey : thisKey confFormat line = some key <;> simp [Option.guard, hbare, hkey]

/-- The other lines stay in their order. -/
theorem others_upsertSetting (hkey : isKdumpKey key) (hvalue : IsValue value) :
    others confFormat key (upsertSetting content key value confFormat) =
      others confFormat key content := by
  rw [others, upsertSetting, bare_linesOf_rejoined (isText_upsertLines hkey hvalue), filter_bare,
    others, filter_bare]
  exact filterMap_upsertLines (fun line hline => if_pos hline)
    (if_pos (thisKey_formatted hkey hvalue))

/-! ## A second write -/

/-- Lines in which the setting is written everywhere are left alone. -/
theorem upsertLines_eq_self
    (hall : ∀ line ∈ lines, thisKey confFormat line = some key →
      line = formatted confFormat key value)
    (hfound : ∃ line ∈ lines, thisKey confFormat line = some key) :
    upsertLines confFormat key value lines = lines := by
  rw [upsertLines, if_pos hfound, List.map_congr_left, List.map_id]
  intro line hline
  rcases edited_cases confFormat key value line with ⟨hkey, heq⟩ | ⟨-, heq⟩
  · rw [heq, id, hall line hline hkey]
  · exact heq

theorem getLast?_edited_iff (hkey : isKdumpKey key) (hvalue : IsValue value) :
    (edited confFormat key value line).getLast? ≠ some '\r' ↔
      thisKey confFormat line = some key ∨ line.getLast? ≠ some '\r' := by
  obtain ⟨-, -, hcr⟩ := formatted_line confFormat hkey hvalue
  rcases edited_cases confFormat key value line with ⟨hline, heq⟩ | ⟨hline, heq⟩
  · rw [heq]
    exact iff_of_true hcr (.inl hline)
  · rw [heq]
    exact (or_iff_right hline).symm

/-- The lines of the new text that a newline follows end in no carriage return. -/
theorem forall_followed_iff (hkey : isKdumpKey key) (hvalue : IsValue value)
    (hlines : upsertLines confFormat key value (linesOf content) = init ++ [line]) :
    ((∀ l ∈ init, l.getLast? ≠ some '\r') ∧
        (content.getLast? = some '\n' → line.getLast? ≠ some '\r')) ↔
      Settled confFormat key content := by
  have hedited (lines : List (List Char)) :
      (∀ l ∈ lines.map (edited confFormat key value), l.getLast? ≠ some '\r') ↔
        ∀ l ∈ lines, thisKey confFormat l = some key ∨ l.getLast? ≠ some '\r' := by
    rw [List.forall_mem_map]
    exact forall₂_congr fun l _ => getLast?_edited_iff hkey hvalue
  unfold upsertLines at hlines
  unfold Settled followed
  rw [← hedited]
  split_ifs at hlines with hfound
  · replace hlines : (linesOf content).map (edited confFormat key value) = init ++ [line] := hlines
    by_cases hended : content.getLast? = some '\n'
    · rw [if_pos (.inl hended), hlines, List.forall_mem_append, List.forall_mem_singleton,
        forall_prop_of_true hended]
    · rw [if_neg (not_or.2 ⟨hended, not_not.2 hfound⟩), List.map_dropLast, hlines,
        List.dropLast_concat, and_iff_left fun h => absurd h hended]
  · obtain ⟨hinit, hline⟩ := List.append_inj' hlines rfl
    have hcr : line.getLast? ≠ some '\r' := by
      rw [← List.head_eq_of_cons_eq hline]
      exact (formatted_line confFormat hkey hvalue).2.2
    rw [if_pos (.inr hfound), hinit, and_iff_left fun _ => hcr]

/-- The lines of a text, again: each is one that was joined, with or without a carriage return. -/
theorem mem_linesOf_rejoined (h : IsText content lines)
    (hline : line ∈ linesOf (rejoined content lines)) :
    ∃ l ∈ lines, line = stripCr l ∨ line = l := by
  obtain ⟨init, last, rfl, -⟩ := h.last
  rw [linesOf_rejoined h] at hline
  rcases List.mem_append.1 hline with hline | hline
  · obtain ⟨l, hl, rfl⟩ := List.mem_map.1 hline
    exact ⟨l, List.mem_append_left _ hl, .inl rfl⟩
  · refine ⟨last, by simp, ?_⟩
    rw [List.mem_singleton] at hline
    split_ifs at hline
    · exact .inl hline
    · exact .inr hline

theorem mem_linesOf_rejoined_of_mem (h : IsText content lines) (hline : line ∈ lines)
    (hcr : line.getLast? ≠ some '\r') : line ∈ linesOf (rejoined content lines) := by
  obtain ⟨init, last, rfl, -⟩ := h.last
  rw [linesOf_rejoined h]
  rcases List.mem_append.1 hline with hline | hline
  · exact List.mem_append_left _ (List.mem_map.2 ⟨line, hline, stripCr_eq_self hcr⟩)
  · obtain rfl := List.mem_singleton.1 hline
    rw [stripCr_eq_self hcr, ite_self]
    simp

/-- The lines of the new text are left alone by the editor. -/
theorem upsertLines_linesOf (hkey : isKdumpKey key) (hvalue : IsValue value) :
    upsertLines confFormat key value (linesOf (upsertSetting content key value confFormat)) =
      linesOf (upsertSetting content key value confFormat) := by
  have htext : IsText content (upsertLines confFormat key value (linesOf content)) :=
    isText_upsertLines hkey hvalue
  obtain ⟨-, -, hcr⟩ := formatted_line confFormat hkey hvalue
  apply upsertLines_eq_self
  · intro line hline hthis
    obtain ⟨l, hl, hstrip⟩ := mem_linesOf_rejoined htext hline
    have hsame : thisKey confFormat line = thisKey confFormat l := by
      rcases hstrip with rfl | rfl
      · exact thisKey_congr (trimmed_stripCr l)
      · rfl
    rcases mem_upsertLines hl with rfl | ⟨-, hother⟩
    · rcases hstrip with rfl | rfl
      · exact stripCr_eq_self hcr
      · rfl
    · exact absurd (hsame.symm.trans hthis) hother
  · exact ⟨_, mem_linesOf_rejoined_of_mem htext formatted_mem_upsertLines hcr,
      thisKey_formatted hkey hvalue⟩

theorem isText_linesOf_rejoined (h : IsText content lines) :
    IsText content (linesOf (rejoined content lines)) := by
  refine ⟨fun line hline => newline_notMem_of_mem_linesOf hline, ?_⟩
  obtain ⟨init, last, rfl, hlast⟩ := h.last
  refine ⟨_, _, linesOf_rejoined h, fun hended => ?_⟩
  rw [if_neg hended]
  exact hlast hended

/-- The joined lines are read back as they are iff none that a newline follows ends in a carriage
return. -/
theorem linesOf_rejoined_eq_iff (h : IsText content (init ++ [line])) :
    linesOf (rejoined content (init ++ [line])) = init ++ [line] ↔
      (∀ l ∈ init, l.getLast? ≠ some '\r') ∧
        (content.getLast? = some '\n' → line.getLast? ≠ some '\r') := by
  have hline : (if content.getLast? = some '\n' then stripCr line else line) = line ↔
      (content.getLast? = some '\n' → line.getLast? ≠ some '\r') := by
    split_ifs with hended
    · rw [stripCr_eq_self_iff, forall_prop_of_true hended]
    · simp [hended]
  rw [linesOf_rejoined h, ← map_stripCr_eq_self_iff, ← hline]
  constructor
  · intro heq
    obtain ⟨hl, hr⟩ := List.append_inj' heq rfl
    exact ⟨hl, List.head_eq_of_cons_eq hr⟩
  · rintro ⟨hl, hr⟩
    rw [hl, hr]

/-- Only a carriage return in front of a newline is changed by a second write. -/
theorem upsertSetting_upsertSetting_iff (hkey : isKdumpKey key) (hvalue : IsValue value) :
    upsertSetting (upsertSetting content key value confFormat) key value confFormat =
      upsertSetting content key value confFormat ↔ Settled confFormat key content := by
  have htext : IsText content (upsertLines confFormat key value (linesOf content)) :=
    isText_upsertLines hkey hvalue
  have hsecond : upsertSetting (upsertSetting content key value confFormat) key value confFormat =
      rejoined content (linesOf (upsertSetting content key value confFormat)) := by
    rw [upsertSetting, upsertLines_linesOf hkey hvalue, rejoined, rejoined]
    exact congrArg _ (if_congr (getLast?_rejoined htext) rfl rfl)
  obtain ⟨init, last, hlines, -⟩ := htext.last
  rw [hsecond, ← forall_followed_iff hkey hvalue hlines, upsertSetting]
  rw [hlines] at htext ⊢
  rw [← linesOf_rejoined_eq_iff htext]
  exact ⟨fun heq => rejoined_inj (isText_linesOf_rejoined htext) htext heq, congrArg _⟩

end

/-- After a write the key has the value, and the other settings and lines are those of before; a
second write changes nothing iff no carriage return stays in front of a newline. -/
theorem upsert_law_iff (confFormat : Bool) (content key value : List Char) (hkey : isKdumpKey key)
    (hvalue : IsValue value) :
    let new := upsertSetting content key value confFormat
    ((key, value) ∈ parseKdumpSettings new confFormat ∧
      ∀ s ∈ parseKdumpSettings new confFormat, s.1 = key → s.2 = value) ∧
    (parseKdumpSettings new confFormat).filter (fun s => s.1 ≠ key) =
      (parseKdumpSettings content confFormat).filter (fun s => s.1 ≠ key) ∧
    others confFormat key new = others confFormat key content ∧
    (upsertSetting new key value confFormat = new ↔ Settled confFormat key content) :=
  ⟨settings_of_key hkey hvalue, other_settings hkey hvalue, others_upsertSetting hkey hvalue,
    upsertSetting_upsertSetting_iff hkey hvalue⟩

theorem isValue_on : IsValue "on".toList := by
  refine ⟨by decide, fun c hc => ?_, fun c hc => ?_⟩ <;> cases Option.some.inj hc <;> decide

theorem upsert_law_path :
    let new := upsertSetting "a b\n".toList "a".toList "on".toList true
    parseKdumpSettings new true = [("a".toList, "on".toList)] ∧
      upsertSetting new "a".toList "on".toList true = new := by
  obtain ⟨-, -, -, hsecond⟩ :=
    upsert_law_iff true "a b\n".toList "a".toList "on".toList (by decide) isValue_on
  exact ⟨by decide, hsecond.2 (by unfold Settled; decide)⟩

/-- A comment that ends in two carriage returns loses one with every write. -/
theorem carriageReturn_lost :
    let new := upsertSetting "#\r\r\na b\n".toList "a".toList "on".toList true
    new = "#\r\na on\n".toList ∧ upsertSetting new "a".toList "on".toList true ≠ new := by
  decide

end Tenodera.Agent.KdumpConfig
