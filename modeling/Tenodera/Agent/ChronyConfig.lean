import Mathlib.Data.Bool.AllAny
import Tenodera.Agent.TextParsers
import Tenodera.Lib.Trim
import Tenodera.Protocol.Message

/-!
# The servers in chrony.conf

Two writers replace the `server` and `pool` lines of a configuration, and two parsers read them.
Every write adds the marker line once more, so that no write is idempotent; a newline inside the
options of a server is a line of its own.
-/

namespace Tenodera.Agent.ChronyConfig

open Protocol Text TextParsers

/-! ## Parsing -/

def isDirective (kw : List Char) : Prop := kw = "server".toList ∨ kw = "pool".toList

instance (kw : List Char) : Decidable (isDirective kw) := inferInstanceAs (Decidable (_ ∨ _))

/-- `str::to_ascii_lowercase`. -/
def asciiLower (cs : List Char) : List Char := cs.map Char.toLower

structure Server where
  type : List Char
  host : List Char
  options : List Char
  deriving DecidableEq

/-- A line of `parse_servers_struct`. -/
def parseServerLine (l : List Char) : Option Server :=
  let t := trimmed l
  if t.head? = some '#' ∨ t.head? = some '!' then none
  else
    match words t with
    | kw :: host :: options =>
      if isDirective (asciiLower kw) then some ⟨asciiLower kw, host, joinWords options⟩ else none
    | _ => none

/-- `parse_servers_struct`. -/
def parseServersStruct (content : List Char) : List Server :=
  (linesOf content).filterMap parseServerLine

/-- A line of `parse_chrony_servers`. -/
def parseHostLine (l : List Char) : Option (List Char) :=
  let t := trimmed l
  if t.head? = some '#' ∨ t.head? = some '!' then none
  else
    match words t with
    | kw :: rest => if isDirective (asciiLower kw) then rest.head? else none
    | [] => none

/-- `parse_chrony_servers`. -/
def parseChronyServers (content : List Char) : List (List Char) :=
  (linesOf content).filterMap parseHostLine

/-! ## Writing -/

def isServerLine (l : List Char) : Bool := isDirective (asciiLower ((words l).head?.getD []))

def isBlank (l : List Char) : Bool := trimmed l = []

def marker : List Char := "# NTP servers managed by Tenodera".toList

/-- The lines that are kept: `server` and `pool` lines are not, and blank ones at the end. -/
def kept (content : List Char) : List (List Char) :=
  ((linesOf content).filter fun l => !isServerLine l).rdropWhile isBlank

/-- The new text of both writers. -/
def rewritten (linesOut : List (List Char)) (content : List Char) : List Char :=
  ['\n'].intercalate (kept content ++ marker :: linesOut) ++ ['\n']

/-- `write_server_lines`. -/
def writeServerLines (linesOut : List (List Char)) (content : List Char) : List Char :=
  rewritten linesOut content

/-- `set_chrony_servers`. -/
def setChronyServers (servers : List (List Char)) (content : List Char) : List Char :=
  rewritten (servers.map fun s => "server ".toList ++ s ++ " iburst".toList) content

/-! ## Checks -/

/-- `is_valid_ntp_host`. -/
def isValidNtpHost (s : List Char) : Bool :=
  s ≠ [] && Utf8.size s ≤ 255 && s.all fun c => c.isAlphanum || c ∈ ['-', '.', ':']

/-- `is_safe_opt`. -/
def isSafeOpt (s : List Char) : Bool :=
  s ≠ [] && Utf8.size s ≤ 32 && s.all fun c => c.isAlphanum || c ∈ ['-', '_']

/-- A text field of an entry. -/
def field (entry : Value) (key : String) (default : String) : List Char :=
  (((entry.get key).bind Value.asStr).getD default).toList

/-- The line of an entry in `set_servers`. -/
def serverLine (entry : Value) : Except String (List Char) :=
  let kind := field entry "type" "server"
  let host := trimmed (field entry "host" "")
  let opts := trimmed (field entry "options" "")
  if ¬ isDirective kind then .error ("invalid type: " ++ String.ofList kind)
  else if ¬ isValidNtpHost host then .error ("invalid host: " ++ String.ofList host)
  else
    match (words opts).find? (¬ isSafeOpt ·) with
    | some tok => .error ("invalid option: " ++ String.ofList tok)
    | none =>
      .ok (if opts = [] then kind ++ ' ' :: host else kind ++ ' ' :: (host ++ ' ' :: opts))

/-- `set_servers` up to its write. -/
def setServers (entries : List Value) (content : List Char) : Except String (List Char) := do
  let linesOut ← entries.mapM serverLine
  if linesOut = [] then .error "provide at least one server or pool"
  else .ok (writeServerLines linesOut content)

/-- `set_ntp_servers` for chrony, on the tokens of its fields. -/
def setNtpServers (servers fallback : List (List Char)) (content : List Char) :
    Except String (List Char) :=
  if servers = [] ∧ fallback = [] then .error "provide at least one NTP server"
  else
    match (servers ++ fallback).find? (¬ isValidNtpHost ·) with
    | some host => .error ("invalid server: " ++ String.ofList host)
    | none =>
      if servers = [] then .error "provide at least one NTP server"
      else .ok (setChronyServers servers content)

/-! ## The law of a writer -/

/-- The lines that are not servers, without their terminators. -/
def others (content : List Char) : List (List Char) :=
  ((linesOf content).map bare).filter fun l => !isServerLine l

/-- The other lines stay in their order, except blank ones at the end. -/
def Preserved (content new : List Char) : Prop := (others content).rdropWhile isBlank <+: others new

/-- A writer that was given some servers has written `new`: they are what is read back, the other
lines stay, and writing them again changes nothing. -/
def Law {α : Type} (set : List Char → Except String (List Char)) (parse : List Char → List α)
    (given : List α) (content new : List Char) : Prop :=
  parse new = given ∧ Preserved content new ∧ set new = .ok new

/-- An entry with its options normalised. -/
def given (entry : Value) : Server :=
  ⟨field entry "type" "server", trimmed (field entry "host" ""),
    joinWords (words (field entry "options" ""))⟩

section

variable {l l' content : List Char} {linesOut ls : List (List Char)}

/-! ## Line terminators -/

theorem words_congr (h : trimmed l = trimmed l') : words l = words l' := by
  have hl : words (trimmed l) = words l := words_trimmed l
  rw [← hl, h]
  exact words_trimmed l'

theorem isServerLine_congr (h : trimmed l = trimmed l') : isServerLine l = isServerLine l' := by
  rw [isServerLine, words_congr h, isServerLine]

theorem parseServerLine_congr (h : trimmed l = trimmed l') :
    parseServerLine l = parseServerLine l' := by
  rw [parseServerLine, h, parseServerLine]

/-- What is not a server line is not parsed. -/
theorem parseServerLine_of_other (h : isServerLine l = false) : parseServerLine l = none := by
  have hwords : words (trimmed l) = words l := words_trimmed l
  unfold parseServerLine
  dsimp only
  split_ifs with hcomment
  · rfl
  · rw [isServerLine, ← hwords] at h
    cases hws : words (trimmed l) with
    | nil => rfl
    | cons kw rest =>
      rw [hws] at h
      cases rest with
      | nil => rfl
      | cons host options => exact if_neg (of_decide_eq_false h)

/-- The other parser reads the hosts. -/
theorem parseHostLine_eq (l : List Char) :
    parseHostLine l = (parseServerLine l).map Server.host := by
  unfold parseHostLine parseServerLine
  dsimp only
  split_ifs with hcomment
  · rfl
  · match words (trimmed l) with
    | [] => rfl
    | [kw] => simp
    | kw :: host :: options =>
      dsimp only
      split_ifs <;> rfl

theorem parseChronyServers_eq (content : List Char) :
    parseChronyServers content = (parseServersStruct content).map Server.host := by
  rw [parseChronyServers, parseServersStruct, List.map_filterMap]
  exact congrArg (fun f => (linesOf content).filterMap f) (funext parseHostLine_eq)

/-! ## The lines of the new text -/

theorem mem_kept (h : l ∈ kept content) : '\n' ∉ l ∧ isServerLine l = false := by
  have hmem := List.mem_filter.1 ((List.rdropWhile_prefix _ _).subset h)
  exact ⟨newline_notMem_of_mem_linesOf hmem.1, by simpa using hmem.2⟩

theorem marker_other : '\n' ∉ marker ∧ isServerLine marker = false ∧ isBlank marker = false := by
  decide

theorem rewritten_eq (linesOut : List (List Char)) (content : List Char) :
    rewritten linesOut content = unlines (kept content) ++ unlines (marker :: linesOut) := by
  rw [rewritten, intercalate_newline (by simp), unlines_append]

/-- The kept lines, the marker, and the lines of the block. -/
theorem linesOf_rewritten (linesOut : List (List Char)) (content : List Char) :
    linesOf (rewritten linesOut content) =
      (kept content).map stripCr ++ marker :: linesOf (unlines linesOut) := by
  rw [rewritten_eq, linesOf_unlines_append (fun l hl => (mem_kept hl).1), unlines_cons,
    linesOf_append_newline marker_other.1, stripCr_eq_self (by decide)]

/-- The block is all that is parsed. -/
theorem parseServersStruct_rewritten (linesOut : List (List Char)) (content : List Char) :
    parseServersStruct (rewritten linesOut content) = parseServersStruct (unlines linesOut) := by
  have hkept : ((kept content).map stripCr).filterMap parseServerLine = [] := by
    refine List.filterMap_eq_nil_iff.2 fun l hl => ?_
    obtain ⟨l', hl', rfl⟩ := List.mem_map.1 hl
    rw [parseServerLine_congr (trimmed_stripCr l')]
    exact parseServerLine_of_other (mem_kept hl').2
  rw [parseServersStruct, linesOf_rewritten, List.filterMap_append, hkept, List.nil_append,
    List.filterMap_cons, parseServerLine_of_other marker_other.2.1]
  rfl

/-- The marker is kept with the lines before it. -/
theorem length_kept_rewritten (linesOut : List (List Char)) (content : List Char) :
    (kept content).length < (kept (rewritten linesOut content)).length := by
  have hfilter : ((kept content).map stripCr).filter (fun l => !isServerLine l) =
      (kept content).map stripCr := by
    refine List.filter_eq_self.2 fun l hl => ?_
    obtain ⟨l', hl', rfl⟩ := List.mem_map.1 hl
    rw [isServerLine_congr (trimmed_stripCr l'), (mem_kept hl').2]
    rfl
  have hkept : kept (rewritten linesOut content) = (kept content).map stripCr ++ marker ::
      ((linesOf (unlines linesOut)).filter fun l => !isServerLine l).rdropWhile isBlank := by
    rw [kept, linesOf_rewritten, List.filter_append, hfilter,
      List.filter_cons_of_pos (by simp [marker_other.2.1]),
      Words.rdropWhile_append_cons (by simp [marker_other.2.2])]
  rw [hkept, List.length_append, List.length_map, List.length_cons]
  omega

/-- No write leaves the text as it is when it is repeated. -/
theorem rewritten_rewritten_ne (linesOut : List (List Char)) (content : List Char) :
    rewritten linesOut (rewritten linesOut content) ≠ rewritten linesOut content := by
  intro h
  have hsame : unlines (kept (rewritten linesOut content)) ++ unlines (marker :: linesOut) =
      unlines (kept content) ++ unlines (marker :: linesOut) := by
    rw [← rewritten_eq, ← rewritten_eq]
    exact h
  have hlines := congrArg (fun cs => (linesOf cs).length) (List.append_cancel_right hsame)
  rw [linesOf_unlines fun l hl => (mem_kept hl).1, linesOf_unlines fun l hl => (mem_kept hl).1,
    List.length_map, List.length_map] at hlines
  have hlt := length_kept_rewritten linesOut content
  omega

theorem others_eq (content : List Char) :
    others content = ((linesOf content).filter fun l => !isServerLine l).map bare := by
  rw [others, List.filter_map]
  refine congrArg _ (List.filter_congr fun l _ => ?_)
  rw [Function.comp_apply, isServerLine_congr (trimmed_bare l)]

/-- Nothing but servers and blank lines at the end is lost. -/
theorem preserved_rewritten (linesOut : List (List Char)) (content : List Char) :
    Preserved content (rewritten linesOut content) := by
  have hblank : isBlank ∘ bare = isBlank := funext fun l => by
    rw [Function.comp_apply, isBlank, trimmed_bare, isBlank]
  have hbefore : (others content).rdropWhile isBlank = (kept content).map bare := by
    rw [others_eq, kept, List.rdropWhile, List.rdropWhile, ← List.map_reverse, List.dropWhile_map,
      hblank, List.map_reverse]
  have hafter : (kept content).map bare <+: others (rewritten linesOut content) := by
    have hfilter : ((kept content).map bare).filter (fun l => !isServerLine l) =
        (kept content).map bare := by
      refine List.filter_eq_self.2 fun l hl => ?_
      obtain ⟨l', hl', rfl⟩ := List.mem_map.1 hl
      rw [isServerLine_congr (trimmed_bare l'), (mem_kept hl').2]
      rfl
    rw [others, linesOf_rewritten, List.map_append, bare_map_stripCr, List.filter_append, hfilter]
    exact List.prefix_append _ _
  rw [Preserved, hbefore]
  exact hafter

end

/-! ## The block of servers -/

section

variable {kind host opts rest : List Char}

/-- A word of a line, in front of others. -/
def IsWord (w : List Char) : Prop := w ≠ [] ∧ ∀ c ∈ w, isWhitespace c = false

theorem IsWord.of_directive (h : isDirective kind) : IsWord kind ∧ asciiLower kind = kind := by
  rcases h with rfl | rfl
  · exact ⟨⟨by decide, List.all_iff_forall_prop.1 (by decide)⟩, by decide⟩
  · exact ⟨⟨by decide, List.all_iff_forall_prop.1 (by decide)⟩, by decide⟩

theorem IsWord.of_host (h : isValidNtpHost host = true) : IsWord host := by
  unfold isValidNtpHost at h
  rw [Bool.and_eq_true, Bool.and_eq_true, decide_eq_true_eq, List.all_eq_true] at h
  obtain ⟨⟨hne, -⟩, hall⟩ := h
  refine ⟨hne, fun c hc => ?_⟩
  rcases Bool.or_eq_true_iff.1 (hall c hc) with halnum | hother
  · exact isWhitespace_of_isAlphanum halnum
  · have hmem : c ∈ ['-', '.', ':'] := of_decide_eq_true hother
    simp only [List.mem_cons, List.not_mem_nil, or_false] at hmem
    rcases hmem with rfl | rfl | rfl <;> decide

theorem IsWord.newline_notMem {w : List Char} (h : IsWord w) : '\n' ∉ w := by
  intro hmem
  have hwhite := h.2 '\n' hmem
  revert hwhite
  decide

/-- A line that starts with a directive is no comment. -/
theorem head_trimmed (h : isDirective kind) (rest : List Char) :
    ¬ ((trimmed (kind ++ rest)).head? = some '#' ∨ (trimmed (kind ++ rest)).head? = some '!') := by
  rcases h with rfl | rfl
  · have htrimmed := trimmed_cons_append (c := 's') (d := 'r') (by decide) (by decide)
      "erve".toList rest
    change trimmed ("server".toList ++ rest) = _ at htrimmed
    rw [htrimmed]
    simp
  · have htrimmed := trimmed_cons_append (c := 'p') (d := 'l') (by decide) (by decide)
      "oo".toList rest
    change trimmed ("pool".toList ++ rest) = _ at htrimmed
    rw [htrimmed]
    simp

/-- A directive is read with its host and the words behind that. -/
theorem parseServerLine_directive (hkind : isDirective kind) (hhost : IsWord host)
    (htail : rest = [] ∨ ∃ a, rest = ' ' :: a) :
    parseServerLine (kind ++ ' ' :: (host ++ rest)) =
      some ⟨kind, host, joinWords (words rest)⟩ := by
  obtain ⟨⟨hne, hsolid⟩, hlower⟩ := IsWord.of_directive hkind
  have hwords : words (trimmed (kind ++ ' ' :: (host ++ rest))) = kind :: host :: words rest := by
    rw [words, words_trimmed, Words.words_append_word hne hsolid (by decide)]
    rcases htail with rfl | ⟨a, rfl⟩
    · rw [List.append_nil, Words.words_of_none hhost.1 hhost.2]
      rfl
    · rw [Words.words_append_word hhost.1 hhost.2 (by decide), words,
        Words.words_cons_sep a (by decide)]
  unfold parseServerLine
  dsimp only
  rw [if_neg (head_trimmed hkind _), hwords]
  dsimp only
  rw [hlower, if_pos hkind]

theorem parseServersStruct_first (hkind : isDirective kind) (hhost : IsWord host)
    (hnewline : '\n' ∉ opts) (htail : opts = [] ∨ ∃ a, opts = ' ' :: a) :
    parseServersStruct (kind ++ ' ' :: (host ++ opts) ++ '\n' :: rest) =
      ⟨kind, host, joinWords (words opts)⟩ :: parseServersStruct rest := by
  have hline : '\n' ∉ kind ++ ' ' :: (host ++ opts) := by
    simp [(IsWord.of_directive hkind).1.newline_notMem, hhost.newline_notMem, hnewline]
  rw [parseServersStruct, linesOf_append_newline hline, List.filterMap_cons,
    parseServerLine_congr (trimmed_stripCr _), parseServerLine_directive hkind hhost htail]
  rfl

/-- The options of an entry as they are written. -/
def optionsOf (entry : Value) : List Char := trimmed (field entry "options" "")

theorem words_optionsOf (entry : Value) :
    words (optionsOf entry) = words (field entry "options" "") :=
  words_trimmed _

/-- What is behind the host. -/
def tailOf (entry : Value) : List Char :=
  if optionsOf entry = [] then [] else ' ' :: optionsOf entry

theorem tailOf_cases (entry : Value) : tailOf entry = [] ∨ ∃ a, tailOf entry = ' ' :: a := by
  unfold tailOf
  split_ifs
  · exact .inl rfl
  · exact .inr ⟨_, rfl⟩

theorem words_tailOf (entry : Value) : words (tailOf entry) = words (field entry "options" "") := by
  rw [← words_optionsOf, tailOf]
  split_ifs with hnil
  · rw [hnil]
  · exact Words.words_cons_sep _ (by decide)

theorem newline_mem_tailOf_iff {entry : Value} :
    '\n' ∈ tailOf entry ↔ '\n' ∈ optionsOf entry := by
  unfold tailOf
  split_ifs with hnil
  · rw [hnil]
  · rw [List.mem_cons]
    exact or_iff_right (by decide)

/-- The line of an entry that passes the checks. -/
theorem serverLine_eq_ok {entry : Value} {line : List Char} (h : serverLine entry = .ok line) :
    isDirective (given entry).type ∧ IsWord (given entry).host ∧
      line = (given entry).type ++ ' ' :: ((given entry).host ++ tailOf entry) := by
  unfold serverLine at h
  dsimp only at h
  by_cases hkind : isDirective (field entry "type" "server")
  swap
  · rw [if_pos hkind] at h
    cases h
  by_cases hhost : isValidNtpHost (trimmed (field entry "host" "")) = true
  swap
  · rw [if_neg (not_not.2 hkind), if_pos hhost] at h
    cases h
  rw [if_neg (not_not.2 hkind), if_neg (not_not.2 hhost)] at h
  split at h
  · cases h
  · refine ⟨hkind, IsWord.of_host hhost, ?_⟩
    rw [← Except.ok.inj h]
    change (if optionsOf entry = [] then _ else _) = _
    rw [tailOf]
    split_ifs <;> simp [given, optionsOf]

/-- A newline in the options takes words from the first line. -/
theorem joinWords_ne {entry : Value} {a b : List Char} (h : optionsOf entry = a ++ '\n' :: b) :
    joinWords (words a) ≠ (given entry).options := by
  intro heq
  have hinverse (cs : List Char) : words (joinWords (words cs)) = words cs :=
    Words.words_intercalate (by decide) fun w hw => Words.of_mem_words hw
  have hwords : words a = words a ++ words b := by
    calc words a = words (joinWords (words a)) := (hinverse a).symm
      _ = words (optionsOf entry) := by rw [heq, given, hinverse, words_optionsOf]
      _ = words a ++ words b := by
        rw [h]
        exact Words.words_append_sep a b (by decide)
  have hblank := Words.words_eq_nil_iff.1 (List.self_eq_append_right.1 hwords)
  have htrimmed : trimmed (optionsOf entry) = trimmed a := by
    rw [h]
    exact trimmed_append (List.forall_mem_cons.2 ⟨by decide, hblank⟩) a
  have hle := length_trimmed_le a
  rw [← htrimmed, optionsOf, trimmed_trimmed, ← optionsOf, h, List.length_append,
    List.length_cons] at hle
  omega

theorem mapM_cons_eq_ok {ε α β : Type} {f : α → Except ε β} {x : α} {xs : List α} {ys : List β}
    (h : (x :: xs).mapM f = .ok ys) :
    ∃ y ys', f x = .ok y ∧ xs.mapM f = .ok ys' ∧ ys = y :: ys' := by
  rw [List.mapM_cons] at h
  cases hx : f x with
  | error e =>
    rw [hx] at h
    cases h
  | ok y =>
    rw [hx] at h
    cases hxs : xs.mapM f with
    | error e =>
      rw [hxs] at h
      cases h
    | ok ys' =>
      rw [hxs] at h
      exact ⟨y, ys', rfl, rfl, (Except.ok.inj h).symm⟩

/-- A newline in the options of the first entry, which is then not read back. -/
theorem parse_first_ne {entry : Value} {servers : List Server}
    (hkind : isDirective (given entry).type) (hhost : IsWord (given entry).host)
    (hnewline : '\n' ∈ optionsOf entry) :
    parseServersStruct ((given entry).type ++ ' ' :: ((given entry).host ++ tailOf entry) ++
      '\n' :: rest) ≠ given entry :: servers := by
  intro heq
  obtain ⟨a, b, hab, ha⟩ := List.eq_append_cons_of_mem hnewline
  have hcut : (given entry).type ++ ' ' :: ((given entry).host ++ tailOf entry) ++ '\n' :: rest =
      (given entry).type ++ ' ' :: ((given entry).host ++ ' ' :: a) ++
        '\n' :: (b ++ '\n' :: rest) := by
    rw [tailOf, if_neg (List.ne_nil_of_mem hnewline), hab]
    simp
  have ha' : '\n' ∉ ' ' :: a := fun hmem => ha ((List.mem_cons.1 hmem).resolve_left (by decide))
  rw [hcut, parseServersStruct_first hkind hhost ha' (.inr ⟨a, rfl⟩)] at heq
  refine joinWords_ne hab ?_
  rw [← congrArg Server.options (List.cons.inj heq).1, words, words,
    Words.words_cons_sep a (by decide)]

/-- What is read from the block is what was given iff no options have a newline in them. -/
theorem parse_block_iff {entries : List Value} {lines : List (List Char)}
    (h : entries.mapM serverLine = .ok lines) :
    parseServersStruct (unlines lines) = entries.map given ↔
      ∀ entry ∈ entries, '\n' ∉ optionsOf entry := by
  induction entries generalizing lines with
  | nil =>
    cases h
    simp [parseServersStruct]
  | cons entry entries ih =>
    obtain ⟨line, lines', hline, hlines, rfl⟩ := mapM_cons_eq_ok h
    obtain ⟨hkind, hhost, rfl⟩ := serverLine_eq_ok hline
    rw [unlines_cons, List.map_cons, List.forall_mem_cons]
    by_cases hnewline : '\n' ∈ optionsOf entry
    · exact iff_of_false (parse_first_ne hkind hhost hnewline) fun hall => hall.1 hnewline
    · have htail : '\n' ∉ tailOf entry := fun hmem => hnewline (newline_mem_tailOf_iff.1 hmem)
      rw [and_iff_right hnewline, ← ih hlines,
        parseServersStruct_first hkind hhost htail (tailOf_cases entry), words_tailOf]
      exact List.cons_inj_right _

theorem parse_hosts {servers : List (List Char)} (h : ∀ s ∈ servers, isValidNtpHost s = true) :
    parseServersStruct (unlines (servers.map fun s => "server ".toList ++ s ++ " iburst".toList)) =
      servers.map fun s => ⟨"server".toList, s, "iburst".toList⟩ := by
  have hline (s : List Char) : "server ".toList ++ s ++ " iburst".toList =
      "server".toList ++ ' ' :: (s ++ ' ' :: "iburst".toList) := by
    have hserver : "server ".toList = "server".toList ++ [' '] := by decide
    have hiburst : " iburst".toList = ' ' :: "iburst".toList := by decide
    rw [hserver, hiburst, List.append_assoc, List.append_assoc, List.singleton_append]
  have hnewline : ∀ l ∈ servers.map fun s => "server ".toList ++ s ++ " iburst".toList,
      '\n' ∉ l := by
    intro l hl hmem
    obtain ⟨s, hs, rfl⟩ := List.mem_map.1 hl
    rcases List.mem_append.1 hmem with hmem | hmem
    · rcases List.mem_append.1 hmem with hmem | hmem
      · revert hmem
        decide
      · have hws := (IsWord.of_host (h s hs)).2 '\n' hmem
        revert hws
        decide
    · revert hmem
      decide
  have hwords : joinWords (words (' ' :: "iburst".toList)) = "iburst".toList := by decide
  rw [parseServersStruct, linesOf_unlines hnewline, List.map_map, List.filterMap_map,
    ← List.filterMap_eq_map]
  refine List.filterMap_congr fun s hs => ?_
  rw [Function.comp_apply, Function.comp_apply, parseServerLine_congr (trimmed_stripCr _), hline,
    parseServerLine_directive (.inl rfl) (IsWord.of_host (h s hs)) (.inr ⟨_, rfl⟩), hwords]
  rfl

/-! ## The two writers -/

theorem setServers_eq_ok {entries : List Value} {content new : List Char}
    (h : setServers entries content = .ok new) :
    ∃ lines, entries.mapM serverLine = .ok lines ∧ new = rewritten lines content ∧
      ∀ content', setServers entries content' = .ok (rewritten lines content') := by
  cases hlines : entries.mapM serverLine with
  | error e =>
    unfold setServers at h
    rw [hlines] at h
    cases h
  | ok lines =>
    have hset (content' : List Char) : setServers entries content' =
        if lines = [] then .error "provide at least one server or pool"
        else .ok (rewritten lines content') := by
      unfold setServers
      rw [hlines]
      rfl
    by_cases hnil : lines = []
    · rw [hset, if_pos hnil] at h
      cases h
    · rw [hset, if_neg hnil] at h
      exact ⟨lines, rfl, (Except.ok.inj h).symm, fun content' => by rw [hset, if_neg hnil]⟩

theorem setNtpServers_eq_ok {servers fallback : List (List Char)} {content new : List Char}
    (h : setNtpServers servers fallback content = .ok new) :
    (∀ s ∈ servers, isValidNtpHost s = true) ∧ new = setChronyServers servers content ∧
      ∀ content', setNtpServers servers fallback content' =
        .ok (setChronyServers servers content') := by
  unfold setNtpServers at h ⊢
  by_cases hnone : servers = [] ∧ fallback = []
  · rw [if_pos hnone] at h
    cases h
  simp only [if_neg hnone] at h ⊢
  cases hfind : (servers ++ fallback).find? (¬ isValidNtpHost ·) with
  | some host =>
    rw [hfind] at h
    cases h
  | none =>
    rw [hfind] at h
    dsimp only at h ⊢
    by_cases hnil : servers = []
    · rw [if_pos hnil] at h
      cases h
    · rw [if_neg hnil] at h
      refine ⟨fun s hs => ?_, (Except.ok.inj h).symm, fun _ => by rw [if_neg hnil]⟩
      have hvalid := List.find?_eq_none.1 hfind s (List.mem_append_left _ hs)
      simpa using hvalid

/-- Neither writer is idempotent.  The one for hosts is read back, and the other one iff no options
have a newline in them; and both keep the other lines. -/
theorem writers_law (content : List Char) :
    (∀ entries new, setServers entries content = .ok new →
      ¬ Law (setServers entries) parseServersStruct (entries.map given) content new ∧
        (parseServersStruct new = entries.map given ↔
          ∀ entry ∈ entries, '\n' ∉ optionsOf entry) ∧
        Preserved content new) ∧
      ∀ servers fallback new, setNtpServers servers fallback content = .ok new →
        ¬ Law (setNtpServers servers fallback) parseChronyServers servers content new ∧
          parseChronyServers new = servers ∧ Preserved content new := by
  constructor
  · intro entries new h
    obtain ⟨lines, hlines, rfl, hset⟩ := setServers_eq_ok h
    refine ⟨fun hlaw => ?_, ?_, preserved_rewritten lines content⟩
    · have hagain := hlaw.2.2
      rw [hset] at hagain
      exact rewritten_rewritten_ne lines content (Except.ok.inj hagain)
    · rw [parseServersStruct_rewritten]
      exact parse_block_iff hlines
  · intro servers fallback new h
    obtain ⟨hvalid, rfl, hset⟩ := setNtpServers_eq_ok h
    refine ⟨fun hlaw => ?_, ?_, preserved_rewritten _ content⟩
    · have hagain := hlaw.2.2
      rw [hset] at hagain
      exact rewritten_rewritten_ne _ content (Except.ok.inj hagain)
    · rw [parseChronyServers_eq, setChronyServers, parseServersStruct_rewritten,
        parse_hosts hvalid, List.map_map]
      exact List.map_id servers

end

/-- One server. -/
def sampleEntry : Value :=
  .object [("type", .string "server"), ("host", .string "time.example"),
    ("options", .string "iburst")]

/-- A configuration without any server. -/
def sampleConfig : List Char :=
  "driftfile /x\n".toList

/-- The configuration with the server. -/
def sampleWritten : List Char :=
  "driftfile /x\n# NTP servers managed by Tenodera\nserver time.example iburst\n".toList

theorem sampleEntry_unlawful :
    ¬ Law (setServers [sampleEntry]) parseServersStruct [given sampleEntry] sampleConfig
        sampleWritten ∧
      ¬ Law (setNtpServers ["time.example".toList] []) parseChronyServers ["time.example".toList]
        sampleConfig sampleWritten :=
  ⟨((writers_law sampleConfig).1 [sampleEntry] sampleWritten rfl).1,
    ((writers_law sampleConfig).2 ["time.example".toList] [] sampleWritten rfl).1⟩

/-- The marker is a comment and stays, and setting the server again adds another one. -/
theorem sampleEntry_grows :
    setServers [sampleEntry] sampleConfig = .ok sampleWritten ∧
      ¬ setServers [sampleEntry] sampleWritten = .ok sampleWritten := by
  have hagain : setServers [sampleEntry] sampleWritten =
      .ok ("driftfile /x\n# NTP servers managed by Tenodera\n".toList ++
        "# NTP servers managed by Tenodera\nserver time.example iburst\n".toList) := rfl
  refine ⟨rfl, fun h => ?_⟩
  rw [hagain] at h
  exact absurd (Except.ok.inj h) (by decide)

end Tenodera.Agent.ChronyConfig
