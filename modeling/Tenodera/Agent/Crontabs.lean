import Tenodera.Lib.Columns
import Tenodera.Lib.Trim

/-!
# Crontabs

`parse_system_crontab` and `parse_user_crontab` list the jobs of a crontab.  `Cron.jobs` says what a
cron finds in the same text: it splits its lines at blanks only, leaves out assignments, and runs
the rest of the line as the command.  `crontab_law_iff` compares the two.
-/

namespace Tenodera.Agent.Crontabs

open Text Words

/-- What is listed of a job. -/
structure Job where
  schedule : List Char
  user : List Char
  command : List Char
  deriving DecidableEq, Repr

structure CronEntry extends Job where
  comment : List Char
  deriving DecidableEq, Repr

/-- `[str]::join` with a space. -/
def join (tokens : List (List Char)) : List Char := [' '].intercalate tokens

/-! ## The parsers -/

/-- A line that is skipped as an assignment. -/
def isEnv (trimmed : List Char) : Bool :=
  match splitOnce (· = '=') trimmed with
  | some (before, _) => before.all fun c => c.isAlphanum || c = '_'
  | none => false

/-- The loop of both parsers. -/
def parseLoop (parseLine : List Char → List Char → Option CronEntry) :
    List Char → List (List Char) → List CronEntry
  | _, [] => []
  | pendingComment, line :: rest =>
    let line := trimmed line
    if line.head? = some '#' then
      let c := trimmed (line.dropWhile (· = '#'))
      let pendingComment :=
        if c = [] then pendingComment
        else if pendingComment = [] then c
        else pendingComment ++ ' ' :: c
      parseLoop parseLine pendingComment rest
    else if line = [] then parseLoop parseLine [] rest
    else if isEnv line then parseLoop parseLine [] rest
    else (parseLine line pendingComment).toList ++ parseLoop parseLine [] rest

/-- `parse_system_line`. -/
def parseSystemLine (line comment : List Char) : Option CronEntry :=
  match words isWhitespace line with
  | [] => none
  | token :: rest =>
    let tokens := token :: rest
    if token.head? = some '@' then
      -- @special user command...
      if tokens.length < 3 then none
      else
        some {
          schedule := token
          user := tokens.getD 1 []
          command := join (tokens.drop 2)
          comment }
    -- min hour dom month dow user command...
    else if tokens.length < 7 then none
    else
      some {
        schedule := join (tokens.take 5)
        user := tokens.getD 5 []
        command := join (tokens.drop 6)
        comment }

/-- `parse_user_line`. -/
def parseUserLine (username line comment : List Char) : Option CronEntry :=
  match words isWhitespace line with
  | [] => none
  | token :: rest =>
    let tokens := token :: rest
    if token.head? = some '@' then
      if tokens.length < 2 then none
      else some { schedule := token, user := username, command := join (tokens.drop 1), comment }
    else if tokens.length < 6 then none
    else
      some {
        schedule := join (tokens.take 5)
        user := username
        command := join (tokens.drop 5)
        comment }

/-- `parse_system_crontab`. -/
def parseSystemCrontab (content : List Char) : List CronEntry :=
  parseLoop parseSystemLine [] (linesOf content)

/-- `parse_user_crontab`. -/
def parseUserCrontab (content username : List Char) : List CronEntry :=
  parseLoop (parseUserLine username) [] (linesOf content)

/-- The two formats: with a column for the user, or the crontab of one user. -/
inductive Format
  | system
  | user (username : List Char)

def Format.parse : Format → List Char → List CronEntry
  | system, content => parseSystemCrontab content
  | user username, content => parseUserCrontab content username

/-! ## What cron takes -/

/-- Blanks separate the fields of a crontab. -/
def isBlank (c : Char) : Bool := c = ' ' || c = '\t'

/-- A cron, as far as crons differ: what it knows as five fields of a time, as a nickname and as a
user, and whether it takes a last line without a newline. -/
structure Cron where
  isTime : List (List Char) → Bool
  isNickname : List Char → Bool
  isUser : List Char → Bool
  unterminated : Bool
  column_of_time : ∀ fs, isTime fs = true → ∀ f ∈ fs, IsColumn f
  column_of_nickname : ∀ w, isNickname w = true → IsColumn w
  column_of_user : ∀ w, isUser w = true → IsColumn w

/-- The first field of a line, and the line behind it. -/
def field (l : List Char) : List Char × List Char :=
  (l.takeWhile fun c => !isBlank c, (l.dropWhile fun c => !isBlank c).dropWhile isBlank)

def fields : ℕ → List Char → List (List Char) × List Char
  | 0, l => ([], l)
  | n + 1, l =>
    let (f, l) := field l
    let (fs, l) := fields n l
    (f :: fs, l)

/-- The line behind a name, which may be quoted. -/
def afterName : List Char → List Char
  | '"' :: l => (l.dropWhile (· ≠ '"')).tail
  | '\'' :: l => (l.dropWhile (· ≠ '\'')).tail
  | l => l.dropWhile fun c => !isBlank c && c ≠ '='

/-- The line is `name = value`, where the spaces around the sign are optional. -/
def IsAssignment (l : List Char) : Prop := ((afterName l).dropWhile isBlank).head? = some '='

instance (l : List Char) : Decidable (IsAssignment l) := inferInstanceAs (Decidable (_ = _))

namespace Cron

/-- The rest of the line, behind the schedule. -/
def command (cron : Cron) (schedule l : List Char) : Format → Option Job
  | .system =>
    let (user, l) := field l
    if cron.isUser user ∧ l ≠ [] then some ⟨schedule, user, l⟩ else none
  | .user username => if l ≠ [] then some ⟨schedule, username, l⟩ else none

/-- The job on a line. -/
def job (cron : Cron) (format : Format) (line : List Char) : Option Job :=
  let l := line.dropWhile isBlank
  if l.head? = some '#' ∨ IsAssignment l then none
  else if l.head? = some '@' then
    let (nickname, l) := field l
    if cron.isNickname nickname then cron.command nickname l format else none
  else
    let (times, l) := fields 5 l
    if cron.isTime times then cron.command (join times) l format else none

/-- The lines of a text; the last one has no newline. -/
def lines (content : List Char) : List (List Char × Bool) :=
  let parts := content.splitOn '\n'
  parts.dropLast.map (·, true) ++ (parts.getLast?.map (·, false)).toList

/-- The job on a line that may lack its newline. -/
def jobAt (cron : Cron) (format : Format) (line : List Char × Bool) : Option Job :=
  if line.2 ∨ cron.unterminated then cron.job format line.1 else none

/-- The jobs of a crontab. -/
def jobs (cron : Cron) (format : Format) (content : List Char) : List Job :=
  (lines content).filterMap (cron.jobAt format)

end Cron

/-- The entries are the jobs. -/
def CrontabLaw (cron : Cron) (format : Format) (content : List Char) : Prop :=
  (format.parse content).map CronEntry.toJob = cron.jobs format content

instance (cron : Cron) (format : Format) (content : List Char) :
    Decidable (CrontabLaw cron format content) := inferInstanceAs (Decidable (_ = _))

/-! ## The cron of the manual -/

/-- The least and the greatest value of a field, and the names it knows from the least on. -/
structure Range where
  low : ℕ
  high : ℕ
  names : List String := []

def ranges : List Range :=
  [⟨0, 59, []⟩, ⟨0, 23, []⟩, ⟨1, 31, []⟩,
    ⟨1, 12, ["jan", "feb", "mar", "apr", "may", "jun", "jul", "aug", "sep", "oct", "nov", "dec"]⟩,
    ⟨0, 7, ["sun", "mon", "tue", "wed", "thu", "fri", "sat"]⟩]

/-- A number or a name, in which the case does not matter. -/
def Range.value (r : Range) (w : List Char) : Option ℕ :=
  match r.names.idxOf? (String.ofList (w.map Char.toLower)) with
  | some i => some (r.low + i)
  | none =>
    if w ≠ [] ∧ w.all Char.isDigit then
      let n := Nat.ofDigitChars 10 w 0
      if r.low ≤ n ∧ n ≤ r.high then some n else none
    else none

/-- All values, or those between two. -/
def Range.isSpan (r : Range) (w : List Char) : Bool :=
  w = ['*'] ||
    match splitOnce (· = '-') w with
    | some (a, b) =>
      match r.value a, r.value b with
      | some a, some b => a ≤ b
      | _, _ => false
    | none => false

/-- A value, or a span that may have a step. -/
def Range.isElement (r : Range) (w : List Char) : Bool :=
  match splitOnce (· = '/') w with
  | some (span, step) =>
    r.isSpan span && step.all Char.isDigit && 0 < Nat.ofDigitChars 10 step 0
  | none => r.isSpan w || (r.value w).isSome

/-- A list of elements. -/
def Range.isField (r : Range) (w : List Char) : Bool := (w.splitOn ',').all r.isElement

def nicknames : List String :=
  ["@reboot", "@yearly", "@annually", "@monthly", "@weekly", "@daily", "@midnight", "@hourly"]

/-- The cron of the manual, on a host with these users. -/
def standard (users : List (List Char)) : Cron where
  isTime fs :=
    fs.length = 5 ∧ (∀ f ∈ fs, IsColumn f) ∧ ∀ p ∈ ranges.zip fs, p.1.isField p.2
  isNickname w := String.ofList w ∈ nicknames
  isUser w := w ∈ users ∧ IsColumn w
  unterminated := false
  column_of_time fs h := (of_decide_eq_true h).2.1
  column_of_nickname w h := by
    have hmem : String.ofList w ∈ nicknames := of_decide_eq_true h
    have hwords : ∀ s ∈ nicknames, IsColumn s.toList := by decide
    simpa using hwords _ hmem
  column_of_user w h := (of_decide_eq_true h).2

example : ((standard ["root".toList]).jobs .system
    "SHELL = /bin/sh\n*/5 0-6,8 * jan Mon  root\techo  a=b \n@daily root run x\n".toList) =
    [⟨"*/5 0-6,8 * jan Mon".toList, "root".toList, "echo  a=b ".toList⟩,
      ⟨"@daily".toList, "root".toList, "run x".toList⟩] := by
  decide +kernel

/-! ## When the entries are the jobs -/

/-- How many tokens the schedule has. -/
def scheduleLength (tokens : List (List Char)) : ℕ :=
  if tokens.head?.bind List.head? = some '@' then 1 else 5

/-- How many tokens come behind the schedule at least. -/
def Format.columns : Format → ℕ
  | system => 2
  | user _ => 1

/-- The line is blank, a comment, what the parsers skip as an assignment, or too short. -/
def Skipped (format : Format) (line : List Char) : Prop :=
  trimmed line = [] ∨ (trimmed line).head? = some '#' ∨ isEnv (trimmed line) = true ∨
    (words isWhitespace line).length < scheduleLength (words isWhitespace line) + format.columns

/-- The command has no white space but single spaces between its words. -/
def Tidy (command : List Char) : Prop := join (words isWhitespace command) = command

/-- Every command is tidy, and lines without a job are skipped. -/
def Fits (cron : Cron) (format : Format) (content : List Char) : Prop :=
  ∀ line ∈ Cron.lines content,
    (∀ job, cron.jobAt format line = some job → Tidy job.command) ∧
      (cron.jobAt format line = none → Skipped format line.1)

/-! ## What is listed of a line -/

section

variable {format : Format} {line l : List Char} {tokens : List (List Char)} {job : Job}

/-- What is made of the tokens behind the schedule. -/
def entry (schedule : List (List Char)) : Format → List (List Char) → Option Job
  | .user username, command =>
    if command = [] then none else some ⟨join schedule, username, join command⟩
  | .system, user :: command =>
    if command = [] then none else some ⟨join schedule, user, join command⟩
  | .system, [] => none

/-- What is made of the tokens of a line. -/
def ofTokens (format : Format) (tokens : List (List Char)) : Option Job :=
  entry (tokens.take (scheduleLength tokens)) format (tokens.drop (scheduleLength tokens))

/-- What is listed of a line, its comment apart. -/
def listed (format : Format) (line : List Char) : Option Job :=
  if trimmed line = [] ∨ (trimmed line).head? = some '#' ∨ isEnv (trimmed line) = true then none
  else ofTokens format (words isWhitespace line)

theorem entry_eq_none_iff {schedule rest : List (List Char)} :
    entry schedule format rest = none ↔ rest.length < format.columns := by
  cases format with
  | system =>
    cases rest with
    | nil => exact iff_of_true rfl Nat.two_pos
    | cons user command =>
      simp only [entry, Format.columns, ite_eq_left_iff, reduceCtorEq, imp_false, not_not,
        ← List.length_eq_zero_iff, List.length_cons]
      omega
  | user username => simp [entry, Format.columns, ← List.length_eq_zero_iff]

theorem ofTokens_eq_none_iff :
    ofTokens format tokens = none ↔ tokens.length < scheduleLength tokens + format.columns := by
  have hpos : 0 < format.columns := by
    cases format <;> exact Nat.succ_pos _
  rw [ofTokens, entry_eq_none_iff, List.length_drop]
  omega

theorem listed_eq_none_iff : listed format line = none ↔ Skipped format line := by
  rw [listed]
  split_ifs with h
  · refine iff_of_true rfl ?_
    rcases h with h | h | h
    · exact .inl h
    · exact .inr (.inl h)
    · exact .inr (.inr (.inl h))
  · push Not at h
    rw [ofTokens_eq_none_iff, Skipped, or_iff_right h.1, or_iff_right h.2.1, or_iff_right h.2.2]

theorem entry_system {schedule rest : List (List Char)} (h : 2 ≤ rest.length) :
    entry schedule .system rest =
      some ⟨join schedule, rest.getD 0 [], join (rest.drop 1)⟩ := by
  match rest with
  | user :: word :: command => rfl

theorem entry_user {schedule rest : List (List Char)} (username : List Char)
    (h : 1 ≤ rest.length) :
    entry schedule (.user username) rest = some ⟨join schedule, username, join rest⟩ :=
  if_neg (List.ne_nil_of_length_pos h)

theorem parseSystemLine_job (line comment : List Char) :
    (parseSystemLine line comment).map CronEntry.toJob =
      ofTokens .system (words isWhitespace line) := by
  rw [parseSystemLine]
  cases words isWhitespace line with
  | nil => rfl
  | cons token rest =>
    by_cases hat : token.head? = some '@'
    · have hlen : scheduleLength (token :: rest) = 1 := if_pos hat
      simp only [if_pos hat]
      split_ifs with hshort
      · refine (ofTokens_eq_none_iff.2 ?_).symm
        rwa [hlen]
      · have hrest : 2 ≤ ((token :: rest).drop 1).length := by
          rw [List.length_drop]
          omega
        rw [ofTokens, hlen, entry_system hrest]
        simp [join, List.getD_eq_getElem?_getD]
    · have hlen : scheduleLength (token :: rest) = 5 := if_neg hat
      simp only [if_neg hat]
      split_ifs with hshort
      · refine (ofTokens_eq_none_iff.2 ?_).symm
        rwa [hlen]
      · rw [ofTokens, hlen, entry_system (by rw [List.length_drop]; omega)]
        simp [List.getD_eq_getElem?_getD]

theorem parseUserLine_job (username line comment : List Char) :
    (parseUserLine username line comment).map CronEntry.toJob =
      ofTokens (.user username) (words isWhitespace line) := by
  rw [parseUserLine]
  cases words isWhitespace line with
  | nil => rfl
  | cons token rest =>
    by_cases hat : token.head? = some '@'
    · have hlen : scheduleLength (token :: rest) = 1 := if_pos hat
      simp only [if_pos hat]
      split_ifs with hshort
      · refine (ofTokens_eq_none_iff.2 ?_).symm
        rwa [hlen]
      · have hrest : 1 ≤ ((token :: rest).drop 1).length := by
          rw [List.length_drop]
          omega
        rw [ofTokens, hlen, entry_user username hrest]
        simp [join]
    · have hlen : scheduleLength (token :: rest) = 5 := if_neg hat
      simp only [if_neg hat]
      split_ifs with hshort
      · refine (ofTokens_eq_none_iff.2 ?_).symm
        rwa [hlen]
      · rw [ofTokens, hlen, entry_user username (by rw [List.length_drop]; omega)]
        rfl

/-- The comments aside, both parsers go through the lines one by one. -/
theorem parseLoop_jobs {parseLine : List Char → List Char → Option CronEntry}
    (h : ∀ line comment, (parseLine line comment).map CronEntry.toJob =
      ofTokens format (words isWhitespace line)) (pending : List Char) (ls : List (List Char)) :
    (parseLoop parseLine pending ls).map CronEntry.toJob = ls.filterMap (listed format) := by
  induction ls generalizing pending with
  | nil => rfl
  | cons line ls ih =>
    have hskip (h : trimmed line = [] ∨ (trimmed line).head? = some '#' ∨
        isEnv (trimmed line) = true) : (line :: ls).filterMap (listed format) =
          ls.filterMap (listed format) := List.filterMap_cons_none (if_pos h)
    simp only [parseLoop]
    by_cases hcomment : (trimmed line).head? = some '#'
    · rw [if_pos hcomment, hskip (.inr (.inl hcomment)), ih]
    by_cases hnil : trimmed line = []
    · rw [if_neg hcomment, if_pos hnil, hskip (.inl hnil), ih]
    by_cases henv : isEnv (trimmed line) = true
    · rw [if_neg hcomment, if_neg hnil, if_pos henv, hskip (.inr (.inr henv)), ih]
    · have hlisted : listed format line =
          (parseLine (trimmed line) pending).map CronEntry.toJob := by
        rw [h, words_trimmed]
        exact if_neg (by simp [hcomment, hnil, henv])
      rw [if_neg hcomment, if_neg hnil, if_neg henv]
      rw [List.map_append, ih]
      cases hparse : parseLine (trimmed line) pending with
      | none =>
        rw [hparse] at hlisted
        rw [List.filterMap_cons_none hlisted]
        rfl
      | some e =>
        rw [hparse] at hlisted
        rw [List.filterMap_cons_some hlisted]
        rfl

theorem listed_stripCr (format : Format) (line : List Char) :
    listed format (stripCr line) = listed format line := by
  have hwords : words isWhitespace (stripCr line) = words isWhitespace line := by
    rw [← words_trimmed, trimmed_stripCr, words_trimmed]
  rw [listed, trimmed_stripCr, hwords, listed]

theorem parse_jobs (format : Format) (content : List Char) :
    (format.parse content).map CronEntry.toJob =
      (content.splitOn '\n').filterMap (listed format) := by
  rw [← filterMap_linesOf (if_pos (.inl rfl)) (listed_stripCr format)]
  cases format with
  | system => exact parseLoop_jobs parseSystemLine_job [] _
  | user username => exact parseLoop_jobs (parseUserLine_job username) [] _

/-- The commands of the entries are tidy. -/
theorem tidy_of_listed (h : listed format line = some job) : Tidy job.command := by
  have htidy (n : ℕ) : Tidy (join ((words isWhitespace line).drop n)) := by
    refine congrArg join (words_intercalate (by decide) fun w hw => ?_)
    exact of_mem_words (List.mem_of_mem_drop hw)
  rw [listed] at h
  split_ifs at h
  cases format with
  | system =>
    rw [ofTokens] at h
    cases hrest : (words isWhitespace line).drop (scheduleLength (words isWhitespace line)) with
    | nil =>
      rw [hrest] at h
      cases h
    | cons user command =>
      rw [hrest, entry] at h
      split_ifs at h
      cases h
      have hdrop := congrArg (List.drop 1) hrest
      rw [List.drop_drop] at hdrop
      have := htidy (scheduleLength (words isWhitespace line) + 1)
      rw [hdrop] at this
      exact this
  | user username =>
    rw [ofTokens, entry] at h
    split_ifs at h
    cases h
    exact htidy _

end

/-! ## What a job line looks like -/

section

variable {cron : Cron} {format : Format} {line l rest : List Char} {job : Job} {n : ℕ}

theorem isWhitespace_of_isBlank {c : Char} (h : isBlank c = true) : isWhitespace c = true := by
  rcases (by simpa [isBlank] using h : c = ' ' ∨ c = '\t') with rfl | rfl <;> decide

/-- A field that is a word is the first word of the line. -/
theorem words_field (h : IsColumn (field l).1) :
    words isWhitespace l = (field l).1 :: words isWhitespace (field l).2 := by
  have hsplit := List.takeWhile_append_dropWhile (p := fun c => !isBlank c) (l := l)
  have hdrop := words_dropWhile_of_imp (fun c => isWhitespace_of_isBlank (c := c))
    (l.dropWhile fun c => !isBlank c)
  have hrest : words isWhitespace (field l).2 =
      words isWhitespace (l.dropWhile fun c => !isBlank c) := hdrop
  rw [hrest]
  cases hl : l.dropWhile (fun c => !isBlank c) with
  | nil =>
    rw [hl, List.append_nil] at hsplit
    rw [words_nil]
    nth_rewrite 1 [← hsplit]
    exact words_of_none h.1 h.2
  | cons b t =>
    have hb : isBlank b = true := by
      have hhead := List.head_dropWhile_not (fun c => !isBlank c) (l := l) (by simp [hl])
      simpa [hl] using hhead
    have hws := isWhitespace_of_isBlank hb
    rw [words_cons_sep t hws]
    nth_rewrite 1 [← hsplit]
    rw [hl]
    exact words_append_word h.1 h.2 hws t

theorem words_fields (h : ∀ f ∈ (fields n l).1, IsColumn f) :
    words isWhitespace l = (fields n l).1 ++ words isWhitespace (fields n l).2 := by
  induction n generalizing l with
  | zero => rfl
  | succ n ih =>
    obtain ⟨hf, hfs⟩ := List.forall_mem_cons.1 h
    have hrest := ih (l := (field l).2) hfs
    rw [words_field hf, hrest]
    rfl

theorem length_fields (n : ℕ) (l : List Char) : (fields n l).1.length = n := by
  induction n generalizing l with
  | zero => rfl
  | succ n ih => exact congrArg (· + 1) (ih _)

theorem head?_field (h : (field l).1 ≠ []) : (field l).1.head? = l.head? := by
  obtain ⟨t, ht⟩ := List.takeWhile_prefix (fun c => !isBlank c) (l := l)
  have happend : ((field l).1 ++ t).head? = (field l).1.head? :=
    List.head?_append_of_ne_nil (field l).1 h
  rw [← happend]
  exact congrArg List.head? ht

/-- Where a line begins with a word, there are only blanks in front of it. -/
theorem dropWhile_isWhitespace (h : IsColumn (field (line.dropWhile isBlank)).1) :
    line.dropWhile isWhitespace = line.dropWhile isBlank := by
  have hsplit := List.takeWhile_append_dropWhile (p := isBlank) (l := line)
  have hblank : ∀ c ∈ line.takeWhile isBlank, isWhitespace c = true := fun c hc =>
    isWhitespace_of_isBlank (List.mem_takeWhile_imp hc)
  nth_rewrite 1 [← hsplit]
  rw [List.dropWhile_append_of_pos hblank]
  have hhead := head?_field h.1
  cases hl : line.dropWhile isBlank with
  | nil => rfl
  | cons c l =>
    rw [hl] at h hhead
    have hmem : c ∈ (field (c :: l)).1 := List.mem_of_head? hhead
    exact List.dropWhile_cons_of_neg (Bool.eq_false_iff.1 (h.2 c hmem))

theorem afterName_of_unquoted (hdouble : l.head? ≠ some '"') (hsingle : l.head? ≠ some '\'') :
    afterName l = l.dropWhile fun c => !isBlank c && c ≠ '=' := by
  unfold afterName
  split
  · exact absurd rfl hdouble
  · exact absurd rfl hsingle
  · rfl

/-- A line whose beginning is skipped as an assignment is one. -/
theorem isAssignment_of_isEnv (h : isEnv (l.rdropWhile isWhitespace) = true) :
    IsAssignment l := by
  obtain ⟨t, ht⟩ := List.rdropWhile_prefix isWhitespace (l := l)
  rw [isEnv] at h
  split at h
  swap
  · cases h
  rename_i x y hsplit
  obtain ⟨a, ha, heq⟩ := append_of_splitOnce hsplit
  obtain rfl : a = '=' := of_decide_eq_true ha
  rw [heq, List.append_assoc, List.cons_append] at ht
  have hchars : ∀ c ∈ x, c.isAlphanum = true ∨ c = '_' := by simpa using h
  have hname : ∀ c ∈ x, (!isBlank c && decide (c ≠ '=')) = true := by
    intro c hc
    rcases hchars c hc with halnum | rfl
    · have hblank : isBlank c = false := Bool.eq_false_iff.2 fun hb =>
        Bool.eq_false_iff.1 (isWhitespace_of_isAlphanum halnum) (isWhitespace_of_isBlank hb)
      have hne : c ≠ '=' := by
        rintro rfl
        exact absurd halnum (by decide)
      simp [hblank, hne]
    · decide
  have hfirst (q : Char) (hq : q ≠ '=' ∧ q.isAlphanum = false ∧ q ≠ '_') : l.head? ≠ some q := by
    intro hhead
    rw [← ht] at hhead
    have hmem : q = '=' ∨ q ∈ x := by
      cases x with
      | nil => exact .inl (Option.some.inj hhead).symm
      | cons c x => exact .inr (Option.some.inj hhead ▸ List.mem_cons_self)
    rcases hmem with heq | hmem
    · exact hq.1 heq
    · rcases hchars q hmem with halnum | heq
      · exact Bool.eq_false_iff.1 hq.2.1 halnum
      · exact hq.2.2 heq
  rw [IsAssignment, afterName_of_unquoted (hfirst _ (by decide)) (hfirst _ (by decide)), ← ht,
    List.dropWhile_append_of_pos hname]
  rfl

theorem entry_of_command {schedule : List (List Char)}
    (h : cron.command (join schedule) rest format = some job) (ht : Tidy job.command) :
    entry schedule format (words isWhitespace rest) = some job := by
  have hwords {command : List Char} (hne : command ≠ []) (ht : Tidy command) :
      words isWhitespace command ≠ [] := by
    intro hnil
    rw [Tidy, hnil] at ht
    exact hne ht.symm
  cases format with
  | system =>
    change (if cron.isUser (field rest).1 ∧ (field rest).2 ≠ [] then
      some (Job.mk (join schedule) (field rest).1 (field rest).2) else none) = some job at h
    split_ifs at h with hcond
    cases h
    rw [words_field (cron.column_of_user _ hcond.1), entry, if_neg (hwords hcond.2 ht)]
    exact congrArg (fun command => some (Job.mk _ _ command)) ht
  | user username =>
    rw [Cron.command] at h
    split_ifs at h with hne
    cases h
    rw [entry, if_neg (hwords hne ht)]
    exact congrArg (fun command => some (Job.mk _ _ command)) ht

/-- A line that begins with a schedule of cron's, and is no comment and no assignment, is listed as
the job that it is. -/
theorem listed_of_command {schedule : List (List Char)}
    (hskip : ¬ ((line.dropWhile isBlank).head? = some '#' ∨ IsAssignment (line.dropWhile isBlank)))
    (hword : IsColumn (field (line.dropWhile isBlank)).1)
    (hwords : words isWhitespace (line.dropWhile isBlank) = schedule ++ words isWhitespace rest)
    (hlen : schedule.length = if (line.dropWhile isBlank).head? = some '@' then 1 else 5)
    (h : cron.command (join schedule) rest format = some job) (ht : Tidy job.command) :
    listed format line = some job := by
  have hdrop := dropWhile_isWhitespace hword
  have hhead : (trimmed line).head? = (line.dropWhile isBlank).head? := by
    rw [head?_trimmed, hdrop]
  have hne : trimmed line ≠ [] := by
    intro hnil
    rw [hnil, ← head?_field hword.1] at hhead
    exact hword.1 (List.head?_eq_none_iff.1 hhead.symm)
  have henv : ¬ isEnv (trimmed line) = true := by
    rw [trimmed, hdrop]
    exact fun henv => hskip (.inr (isAssignment_of_isEnv henv))
  have hline : words isWhitespace line = schedule ++ words isWhitespace rest := by
    rw [← hwords, words_dropWhile_of_imp fun c => isWhitespace_of_isBlank (c := c)]
  have hschedule : scheduleLength (words isWhitespace line) = schedule.length := by
    rw [scheduleLength, hline, ← hwords, words_field hword, List.head?_cons, Option.bind_some,
      head?_field hword.1, hlen]
  rw [listed, if_neg, ofTokens, hschedule, hline, List.take_left, List.drop_left]
  · exact entry_of_command h ht
  · rw [hhead]
    rintro (h | h | h)
    · exact hne h
    · exact hskip (.inl h)
    · exact henv h

theorem listed_of_job (h : cron.job format line = some job) (ht : Tidy job.command) :
    listed format line = some job := by
  simp only [Cron.job] at h
  split_ifs at h with hskip hat hnickname htime
  · have hword := cron.column_of_nickname _ hnickname
    have hwords : words isWhitespace (line.dropWhile isBlank) =
        [(field (line.dropWhile isBlank)).1] ++
          words isWhitespace (field (line.dropWhile isBlank)).2 := words_field hword
    have hlen : [(field (line.dropWhile isBlank)).1].length =
        if (line.dropWhile isBlank).head? = some '@' then 1 else 5 := (if_pos hat).symm
    have hcommand : cron.command (join [(field (line.dropWhile isBlank)).1])
        (field (line.dropWhile isBlank)).2 format = some job := by
      rwa [join, List.intercalate_singleton]
    exact listed_of_command hskip hword hwords hlen hcommand ht
  · have hwords := cron.column_of_time _ htime
    have hword : IsColumn (field (line.dropWhile isBlank)).1 := hwords _ List.mem_cons_self
    refine listed_of_command hskip hword (words_fields hwords) ?_ h ht
    rw [if_neg hat]
    exact length_fields 5 _

theorem lines_map_fst (content : List Char) :
    (Cron.lines content).map Prod.fst = content.splitOn '\n' := by
  obtain ⟨parts, l, hparts⟩ :=
    (List.eq_nil_or_concat' (content.splitOn '\n')).resolve_left (List.splitOn_ne_nil '\n' content)
  rw [Cron.lines, hparts, List.dropLast_concat, List.getLast?_concat]
  simp [Function.comp_def]

/-- The entries of a crontab are its jobs, with their schedules, users and commands, iff every
command has single spaces only and no other line looks like a job. -/
theorem crontab_law_iff (cron : Cron) (format : Format) (content : List Char) :
    CrontabLaw cron format content ↔ Fits cron format content := by
  have hparse : (format.parse content).map CronEntry.toJob =
      (Cron.lines content).filterMap fun line => listed format line.1 := by
    rw [parse_jobs, ← lines_map_fst, List.filterMap_map]
    rfl
  have hjob {line : List Char × Bool} {job : Job} (h : cron.jobAt format line = some job)
      (ht : Tidy job.command) : listed format line.1 = some job := by
    rw [Cron.jobAt] at h
    split_ifs at h
    exact listed_of_job h ht
  rw [CrontabLaw, hparse, Cron.jobs]
  constructor
  · intro heq
    -- every job is an entry, and the commands of entries are tidy
    have htidy : ∀ line ∈ Cron.lines content, ∀ job, cron.jobAt format line = some job →
        Tidy job.command := by
      intro line hline job h
      have hmem : job ∈ (Cron.lines content).filterMap fun line => listed format line.1 := by
        rw [heq]
        exact List.mem_filterMap.2 ⟨line, hline, h⟩
      obtain ⟨line', -, h'⟩ := List.mem_filterMap.1 hmem
      exact tidy_of_listed h'
    have hleft : ∀ line ∈ Cron.lines content, listed format line.1 = none →
        cron.jobAt format line = none := by
      intro line hline hnone
      cases h : cron.jobAt format line with
      | none => rfl
      | some job => exact (hjob h (htidy line hline job h)).symm.trans hnone
    have hall := (filterMap_eq_iff hleft).1 heq.symm
    intro line hline
    refine ⟨htidy line hline, fun hnone => ?_⟩
    exact listed_eq_none_iff.1 ((hall line hline).symm.trans hnone)
  · intro hfits
    refine List.filterMap_congr fun line hline => ?_
    cases h : cron.jobAt format line with
    | none => exact listed_eq_none_iff.2 ((hfits line hline).2 h)
    | some job => exact hjob h ((hfits line hline).1 job h)

/-- An assignment with spaces around the sign, and five words more. -/
theorem spacedAssignment_listed : ¬ CrontabLaw (standard []) (.user "alice".toList)
    "MAILTO = alice bob carol dave\n".toList := by
  decide +kernel

end

end Tenodera.Agent.Crontabs
