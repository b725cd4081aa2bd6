import Tenodera.Agent.TextParsers
import Tenodera.Lib.LossyUtf8
import Tenodera.Lib.Trim

/-!
# Editing authorized_keys

The three handlers that read the keys of an account and write them back.  A file that cannot be read
counts as an empty one, so that adding or removing a key then loses every line; and a key with a
newline inside is more than one line of the file.
-/

namespace Tenodera.Agent.AuthorizedKeys

open Text TextParsers

/-! ## The file -/

/-- `~/.ssh/authorized_keys`; reading may fail on any file, by its permissions or otherwise. -/
inductive AuthFile
  | absent
  | present (bytes : List UInt8) (readable : Bool)

/-- `String::from_utf8`. -/
def decodeUtf8 (bytes : List UInt8) : Option (List Char) :=
  let cs := LossyUtf8.decode bytes
  if Utf8.bytes cs = bytes then some cs else none

/-- The bytes of a text are decoded to it, and other bytes not at all. -/
theorem decodeUtf8_eq_some_iff {bytes : List UInt8} {cs : List Char} :
    decodeUtf8 bytes = some cs ↔ Utf8.bytes cs = bytes := by
  unfold decodeUtf8
  constructor
  · intro h
    obtain ⟨hbytes, hcs⟩ := Option.ite_none_right_eq_some.1 h
    rwa [Option.some.inj hcs] at hbytes
  · rintro rfl
    rw [LossyUtf8.decode_bytes]
    exact if_pos rfl

/-- `std::fs::read_to_string`; none is an error. -/
def AuthFile.readToString : AuthFile → Option (List Char)
  | absent => none
  | present bytes readable => if readable then decodeUtf8 bytes else none

/-- The text of the file as the handlers have it: `unwrap_or_default`. -/
def AuthFile.existing (file : AuthFile) : List Char := file.readToString.getD []

/-- The text that is there; none when it cannot be read or decoded. -/
def AuthFile.text : AuthFile → Option (List Char)
  | absent => some []
  | file => file.readToString

/-! ## The handlers -/

/-- What a handler finds outside the file: `lookup_user` knows the account, and `ssh-keygen -l`
succeeds on its input. -/
structure Host where
  known : Bool
  keygen : List Char → Bool

/-- The text for `apply_authkeys`, or the error that is answered; none is a panic. -/
abbrev Outcome : Type := Option (Except String (List Char))

/-- `kept.join("\n") + "\n"`. -/
def joinLines (kept : List (List Char)) : List Char := ['\n'].intercalate kept ++ ['\n']

section

variable (host : Host) (key old newKey existing : List Char)

/-- The checks of a new key. -/
def checked (write : Outcome) : Outcome :=
  if ¬ host.known then some (.error "unknown user")
  else do
    match ← parseKeyLine key with
    | none => return .error "not a recognised SSH public key"
    | some _ =>
      if ¬ host.keygen (key ++ ['\n']) then
        return .error "invalid SSH public key (ssh-keygen rejected it)"
      else write

/-- The file with the key behind it. -/
def appended : List Char :=
  (if existing ≠ [] ∧ existing.getLast? ≠ some '\n' then existing ++ ['\n'] else existing) ++
    (key ++ ['\n'])

/-- `add_key`. -/
def addKey : Outcome :=
  let key := trimmed key
  checked host key
    (if (linesOf existing).any (trimmed · = key) then some (.error "key already present")
    else some (.ok (appended key existing)))

/-- The file without the lines of the key. -/
def removed : List Char :=
  let kept := (linesOf existing).filter (trimmed · ≠ key)
  if kept = [] then [] else joinLines kept

/-- `remove_key`. -/
def removeKey : Outcome :=
  if ¬ host.known then some (.error "unknown user")
  else some (.ok (removed (trimmed key) existing))

/-- The lines with the first one that is the old key replaced. -/
def replaceFirst : List (List Char) → List (List Char)
  | [] => []
  | l :: ls => if trimmed l = old then newKey :: ls else l :: replaceFirst ls

/-- `edit_key`. -/
def editKey : Outcome :=
  let old := trimmed old
  let newKey := trimmed newKey
  checked host newKey
    (if ¬ (linesOf existing).any (trimmed · = old) then
      some (.error "original key not found (reload and retry)")
    else if newKey ≠ old ∧ (linesOf existing).any (trimmed · = newKey) then
      some (.error "key already present")
    else some (.ok (joinLines (replaceFirst old newKey (linesOf existing)))))

end

/-- A request to change the keys of an account. -/
inductive Op
  | add (key : List Char)
  | remove (key : List Char)
  | edit (old newKey : List Char)

def Op.run (host : Host) (existing : List Char) : Op → Outcome
  | add key => addKey host key existing
  | remove key => removeKey host key existing
  | edit old newKey => editKey host old newKey existing

/-! ## Lines -/

/-- The lines of a text without their terminators. -/
def bareLines (text : List Char) : List (List Char) := (linesOf text).map bare

/-- The lines that an operation has to keep: all but those of the removed key, and but the first
one of the edited key. -/
def Op.spared (text : List Char) : Op → List (List Char)
  | add _ => bareLines text
  | remove key => (bareLines text).filter (trimmed · ≠ trimmed key)
  | edit old _ => (bareLines text).eraseP (trimmed · = trimmed old)

/-- What is written keeps the other lines of the file in their order, and nothing is written over a
file that could not be read. -/
def Keeps (host : Host) (op : Op) (file : AuthFile) : Prop :=
  ∀ content, op.run host file.existing = some (.ok content) →
    ∃ text, file.text = some text ∧ (op.spared text).Sublist (bareLines content)

/-- The key passes the checks. -/
def Accepted (host : Host) (key : List Char) : Prop :=
  host.known ∧ (∃ line, parseKeyLine key = some (some line)) ∧ host.keygen (key ++ ['\n'])

/-- The operation writes a file that is empty so far. -/
def Op.WritesEmpty (host : Host) : Op → Prop
  | add key => Accepted host (trimmed key)
  | remove _ => host.known
  | edit _ _ => False

section

variable {host : Host} {key old newKey existing content l : List Char} {ls : List (List Char)}

/-! ## What is written -/

/-- A request that passes the checks goes on to its write. -/
theorem checked_eq_ok_iff {write : Outcome} : checked host key write = some (.ok content) ↔
    Accepted host key ∧ write = some (.ok content) := by
  unfold checked Accepted
  by_cases hknown : host.known = true
  swap
  · simp [hknown]
  · rw [if_neg (not_not.2 hknown)]
    cases hparse : parseKeyLine key with
    | none => simp
    | some parsed =>
      cases parsed with
      | none => simp
      | some line =>
        by_cases hkeygen : host.keygen (key ++ ['\n']) = true
        · simp [hknown, hkeygen]
        · simp [hkeygen]

theorem addKey_eq_ok_iff : addKey host key existing = some (.ok content) ↔
    Accepted host (trimmed key) ∧ (linesOf existing).any (trimmed · = trimmed key) = false ∧
      content = appended (trimmed key) existing := by
  unfold addKey
  dsimp only
  rw [checked_eq_ok_iff]
  refine and_congr_right fun _ => ?_
  cases (linesOf existing).any (trimmed · = trimmed key) <;> simp [eq_comm]

theorem removeKey_eq_ok_iff : removeKey host key existing = some (.ok content) ↔
    host.known ∧ content = removed (trimmed key) existing := by
  unfold removeKey
  cases host.known <;> simp [eq_comm]

theorem editKey_eq_ok_iff : editKey host old newKey existing = some (.ok content) ↔
    Accepted host (trimmed newKey) ∧ (linesOf existing).any (trimmed · = trimmed old) ∧
      ¬ (trimmed newKey ≠ trimmed old ∧ (linesOf existing).any (trimmed · = trimmed newKey)) ∧
      content = joinLines (replaceFirst (trimmed old) (trimmed newKey) (linesOf existing)) := by
  unfold editKey
  dsimp only
  rw [checked_eq_ok_iff]
  refine and_congr_right fun _ => ?_
  cases (linesOf existing).any (trimmed · = trimmed old) with
  | false => simp
  | true =>
    by_cases hpresent : trimmed newKey ≠ trimmed old ∧
        (linesOf existing).any (trimmed · = trimmed newKey)
    · simp [hpresent]
    · rw [if_neg (by simp), if_neg hpresent]
      constructor
      · intro h
        cases h
        exact ⟨rfl, hpresent, rfl⟩
      · rintro ⟨-, -, rfl⟩
        rfl

/-! ## The lines of what is written -/

theorem bareLines_unlines (h : ∀ l ∈ ls, '\n' ∉ l) : bareLines (unlines ls) = ls.map bare :=
  bare_linesOf_unlines h

theorem bareLines_appended (key existing : List Char) :
    bareLines (appended key existing) = bareLines existing ++ bareLines (key ++ ['\n']) :=
  bare_linesOf_append existing (key ++ ['\n'])

theorem bareLines_removed (key existing : List Char) :
    bareLines (removed key existing) = (bareLines existing).filter (trimmed · ≠ key) := by
  have hfilter : (bareLines existing).filter (trimmed · ≠ key) =
      ((linesOf existing).filter (trimmed · ≠ key)).map bare := by
    rw [bareLines, List.filter_map]
    exact congrArg _ (List.filter_congr fun l _ => by simp)
  unfold removed
  dsimp only
  rw [hfilter]
  split_ifs with hnil
  · rw [hnil]
    rfl
  · rw [joinLines, intercalate_newline hnil]
    exact bareLines_unlines fun l hl => newline_notMem_of_mem_linesOf (List.mem_filter.1 hl).1

/-- The old key is on a line, and what replaces it is between the lines around that. -/
theorem exists_replaced (newKey : List Char) (h : ls.any (trimmed · = old))
    (hls : ∀ l ∈ ls, '\n' ∉ l) :
    ∃ before l after, ls = before ++ l :: after ∧ trimmed l = old ∧
      (∀ l' ∈ before, trimmed l' ≠ old) ∧
      bareLines (joinLines (replaceFirst old newKey ls)) =
        before.map bare ++ (bareLines (newKey ++ ['\n']) ++ after.map bare) := by
  obtain ⟨before, l, after, rfl, hl, hbefore, hreplaced⟩ : ∃ before l after,
      ls = before ++ l :: after ∧ trimmed l = old ∧ (∀ l' ∈ before, trimmed l' ≠ old) ∧
      replaceFirst old newKey ls = before ++ newKey :: after := by
    induction ls with
    | nil => cases h
    | cons l ls ih =>
      by_cases hl : trimmed l = old
      · exact ⟨[], l, ls, rfl, hl, by simp, by rw [replaceFirst, if_pos hl, List.nil_append]⟩
      · rw [List.any_cons, decide_eq_false hl, Bool.false_or] at h
        obtain ⟨before, l', after, rfl, hl', hbefore, hreplaced⟩ :=
          ih h fun l' hl' => hls l' (List.mem_cons_of_mem l hl')
        refine ⟨l :: before, l', after, rfl, hl', List.forall_mem_cons.2 ⟨hl, hbefore⟩, ?_⟩
        rw [replaceFirst, if_neg hl, hreplaced, List.cons_append]
  refine ⟨before, l, after, rfl, hl, hbefore, ?_⟩
  rw [List.forall_mem_append, List.forall_mem_cons] at hls
  obtain ⟨hlinesBefore, -, hlinesAfter⟩ := hls
  rw [hreplaced, joinLines, intercalate_newline (by simp), unlines_append, unlines_cons, bareLines,
    linesOf_unlines_append hlinesBefore, List.map_append, bare_map_stripCr, linesOf_append,
    List.map_append, bare_linesOf_unlines hlinesAfter]
  rfl

/-- What is written keeps the other lines of the text that the handler has. -/
theorem spared_sublist {op : Op} (h : op.run host existing = some (.ok content)) :
    (op.spared existing).Sublist (bareLines content) := by
  cases op with
  | add key =>
    obtain ⟨-, -, rfl⟩ := addKey_eq_ok_iff.1 h
    rw [bareLines_appended]
    exact List.sublist_append_left _ _
  | remove key =>
    obtain ⟨-, rfl⟩ := removeKey_eq_ok_iff.1 h
    rw [bareLines_removed]
    exact List.Sublist.refl _
  | edit old newKey =>
    obtain ⟨-, hold, -, rfl⟩ := editKey_eq_ok_iff.1 h
    obtain ⟨before, l, after, hlines, hl, hbefore, hcontent⟩ :=
      exists_replaced (trimmed newKey) hold fun l hl => newline_notMem_of_mem_linesOf hl
    have hspared : Op.spared existing (.edit old newKey) = before.map bare ++ after.map bare := by
      rw [Op.spared, bareLines, hlines, List.map_append, List.map_cons,
        List.eraseP_append_right _ (by simpa using hbefore),
        List.eraseP_cons_of_pos (by simpa using hl)]
    rw [hspared, hcontent]
    exact (List.Sublist.refl _).append (List.sublist_append_right _ _)

/-- A file that is there and cannot be read is taken for an empty one. -/
theorem existing_of_text_eq_none {file : AuthFile} (h : file.text = none) : file.existing = [] := by
  cases file with
  | absent => cases h
  | present bytes readable =>
    have hread : (AuthFile.present bytes readable).readToString = none := h
    rw [AuthFile.existing, hread]
    rfl

theorem existing_of_text_eq_some {file : AuthFile} {text : List Char} (h : file.text = some text) :
    file.existing = text := by
  cases file with
  | absent =>
    cases h
    rfl
  | present bytes readable =>
    have hread : (AuthFile.present bytes readable).readToString = some text := h
    rw [AuthFile.existing, hread]
    rfl

theorem exists_run_nil_iff {op : Op} :
    (∃ content, op.run host [] = some (.ok content)) ↔ op.WritesEmpty host := by
  cases op with
  | add key =>
    constructor
    · rintro ⟨content, h⟩
      exact (addKey_eq_ok_iff.1 h).1
    · exact fun h => ⟨_, addKey_eq_ok_iff.2 ⟨h, rfl, rfl⟩⟩
  | remove key =>
    constructor
    · rintro ⟨content, h⟩
      exact (removeKey_eq_ok_iff.1 h).1
    · exact fun h => ⟨_, removeKey_eq_ok_iff.2 ⟨h, rfl⟩⟩
  | edit old newKey =>
    refine iff_of_false ?_ id
    rintro ⟨content, h⟩
    exact Bool.false_ne_true (editKey_eq_ok_iff.1 h).2.1

/-- The other lines are kept, and nothing is written over what cannot be read, iff the file is read
or the operation refuses an empty file. -/
theorem keeps_iff (host : Host) (op : Op) (file : AuthFile) :
    Keeps host op file ↔ file.text.isSome ∨ ¬ op.WritesEmpty host := by
  cases htext : file.text with
  | some text =>
    refine iff_of_true (fun content h => ⟨text, htext, ?_⟩) (.inl rfl)
    rw [existing_of_text_eq_some htext] at h
    exact spared_sublist h
  | none =>
    rw [← exists_run_nil_iff, Keeps, existing_of_text_eq_none htext, htext]
    simp

end

/-- A key comment that is not UTF-8. -/
def latin1File : AuthFile := .present ("ssh-rsa AAAA ".toList.map Char.toUInt8 ++ [0xE9, 0x0A]) true

theorem latin1File_lost :
    ¬ Keeps ⟨true, fun _ => true⟩ (.remove "ssh-ed25519 AAAA".toList) latin1File ∧
      (Op.remove "ssh-ed25519 AAAA".toList).run ⟨true, fun _ => true⟩ latin1File.existing =
        some (.ok []) := by
  have htext : latin1File.text = none := by decide
  have hwritten : (Op.remove "ssh-ed25519 AAAA".toList).run ⟨true, fun _ => true⟩
      latin1File.existing = some (.ok []) := by
    rw [existing_of_text_eq_none htext]
    rfl
  refine ⟨fun h => ?_, hwritten⟩
  obtain ⟨text, hsome, -⟩ := h [] hwritten
  rw [htext] at hsome
  cases hsome

/-! ## Entries -/

/-- The line is a key that the handlers recognise. -/
def isEntry (line : List Char) : Bool := (parseKeyLine line).join.isSome

/-- The keys of the file, as they are listed. -/
def entries (text : List Char) : List (List Char) :=
  ((linesOf text).filter isEntry).map trimmed

/-- The file has one line more, which is the key, and removing the key restores its entries. -/
structure Adds (key text content : List Char) : Prop where
  lines : bareLines content = bareLines text ++ [trimmed key]
  added : entries content = entries text ++ [trimmed key]
  restored : entries (removed (trimmed key) content) = entries text

/-- One line of the file, which is an entry, is another entry now. -/
def Replaces (old newKey text content : List Char) : Prop :=
  ∃ before l after, linesOf text = before ++ l :: after ∧ trimmed l = trimmed old ∧ isEntry l ∧
    bareLines content = before.map bare ++ trimmed newKey :: after.map bare ∧
    entries content = (before.filter isEntry).map trimmed ++
      trimmed newKey :: (after.filter isEntry).map trimmed

section

variable {host : Host} {key old newKey text content l : List Char}

theorem parseKeyLine_trimmed (line : List Char) :
    parseKeyLine (trimmed line) = parseKeyLine line := by
  unfold parseKeyLine
  rw [trimmed_trimmed]

theorem isEntry_eq (h : trimmed l = trimmed key) : isEntry l = isEntry key := by
  rw [isEntry, isEntry, ← parseKeyLine_trimmed, h, parseKeyLine_trimmed]

/-- Line terminators are no part of an entry. -/
theorem entries_eq (text : List Char) :
    entries text = ((bareLines text).filter isEntry).map trimmed := by
  have hbare : isEntry ∘ bare = isEntry := funext fun l => isEntry_eq (trimmed_bare l)
  rw [entries, bareLines, List.filter_map, hbare, List.map_map]
  exact List.map_congr_left fun l _ => (trimmed_bare l).symm

theorem Accepted.isEntry (h : Accepted host key) : isEntry key = true := by
  obtain ⟨line, hline⟩ := h.2.1
  simp [AuthorizedKeys.isEntry, hline]

/-- A key without a newline is one line. -/
theorem bareLines_key (h : '\n' ∉ trimmed key) :
    bareLines (trimmed key ++ ['\n']) = [trimmed key] := by
  rw [bareLines, linesOf_append_newline h, linesOf_nil, List.map_cons, bare_stripCr, bare_trimmed]
  rfl

/-- A key that is accepted is added as one line iff it has no newline in it. -/
theorem adds_iff (h : addKey host key text = some (.ok content)) :
    Adds key text content ↔ '\n' ∉ trimmed key := by
  obtain ⟨haccepted, habsent, rfl⟩ := addKey_eq_ok_iff.1 h
  constructor
  · intro hadds
    have hmem : trimmed key ∈ bareLines (appended (trimmed key) text) := by
      rw [hadds.lines]
      exact List.mem_append_right _ List.mem_cons_self
    exact newline_notMem_of_mem_bare hmem
  · intro hline
    have hlines : bareLines (appended (trimmed key) text) = bareLines text ++ [trimmed key] := by
      rw [bareLines_appended, bareLines_key hline]
    have hkept : (bareLines text).filter (trimmed · ≠ trimmed key) = bareLines text := by
      rw [List.filter_eq_self]
      intro l hl
      obtain ⟨l', hl', rfl⟩ := List.mem_map.1 hl
      have hne := List.any_eq_false.1 habsent l' hl'
      simpa using hne
    refine ⟨hlines, ?_, ?_⟩
    · rw [entries_eq, hlines, List.filter_append, List.map_append, ← entries_eq]
      simp [haccepted.isEntry]
    · rw [entries_eq, bareLines_removed, hlines, List.filter_append, hkept, entries_eq]
      simp

/-- A key that is accepted replaces one entry by one iff it has no newline in it and the old key is
an entry. -/
theorem replaces_iff (h : editKey host old newKey text = some (.ok content)) :
    Replaces old newKey text content ↔ '\n' ∉ trimmed newKey ∧ isEntry old := by
  obtain ⟨haccepted, hold, -, rfl⟩ := editKey_eq_ok_iff.1 h
  obtain ⟨before, l, after, hlines, hl, -, hcontent⟩ :=
    exists_replaced (trimmed newKey) hold fun l hl => newline_notMem_of_mem_linesOf hl
  constructor
  · rintro ⟨before', l', after', -, hl', hentry, hlines', -⟩
    have hmem : trimmed newKey ∈ bareLines (joinLines (replaceFirst (trimmed old)
        (trimmed newKey) (linesOf text))) := by
      rw [hlines']
      exact List.mem_append_right _ List.mem_cons_self
    exact ⟨newline_notMem_of_mem_bare hmem, by rwa [← isEntry_eq hl']⟩
  · rintro ⟨hline, hentry⟩
    rw [bareLines_key hline, List.singleton_append] at hcontent
    refine ⟨before, l, after, hlines, hl, by rwa [isEntry_eq hl], hcontent, ?_⟩
    have hbare : isEntry ∘ bare = isEntry := funext fun l => isEntry_eq (trimmed_bare l)
    rw [entries_eq, hcontent, List.filter_append,
      List.filter_cons_of_pos haccepted.isEntry]
    simp [List.filter_map, hbare, Function.comp_def]

/-- What is accepted changes one entry iff it has no newline inside and what it replaces is one. -/
theorem one_entry_iff (host : Host) :
    (∀ key text content, addKey host key text = some (.ok content) →
      (Adds key text content ↔ '\n' ∉ trimmed key)) ∧
      ∀ old newKey text content, editKey host old newKey text = some (.ok content) →
        (Replaces old newKey text content ↔ '\n' ∉ trimmed newKey ∧ isEntry old) :=
  ⟨fun _ _ _ h => adds_iff h, fun _ _ _ _ h => replaces_iff h⟩

end

/-! ## Two keys in one -/

def sampleKey : List Char :=
  "ssh-ed25519 AAAAC3NzaC1lZDI1NTE5AAAAIAAAAAAAAAAAAAAAAAAAAAAAAAAAAAAAAAAAAAAAAAAA".toList

def otherKey : List Char :=
  "ssh-ed25519 AAAAC3NzaC1lZDI1NTE5AAAAIAEBAQEBAQEBAQEBAQEBAQEBAQEBAQEBAQEBAQEBAQEB".toList

/-- `ssh-keygen -l` succeeds on an input with one of the two keys on a line. -/
def sampleHost : Host :=
  ⟨true, fun input => (linesOf input).any fun l => l = sampleKey ∨ l = otherKey⟩

theorem sampleKey_added :
    Adds sampleKey [] (sampleKey ++ ['\n']) ∧
      Replaces sampleKey otherKey (sampleKey ++ ['\n']) (otherKey ++ ['\n']) := by
  have hadded : addKey sampleHost sampleKey [] = some (.ok (sampleKey ++ ['\n'])) := by rfl
  have hedited : editKey sampleHost sampleKey otherKey (sampleKey ++ ['\n']) =
      some (.ok (otherKey ++ ['\n'])) := by rfl
  exact ⟨((one_entry_iff sampleHost).1 sampleKey [] _ hadded).2 (by decide),
    ((one_entry_iff sampleHost).2 sampleKey otherKey _ _ hedited).2 (by decide)⟩

theorem twoKeys_added :
    addKey sampleHost (sampleKey ++ '\n' :: otherKey) [] =
        some (.ok (sampleKey ++ '\n' :: otherKey ++ ['\n'])) ∧
      entries (sampleKey ++ '\n' :: otherKey ++ ['\n']) = [sampleKey, otherKey] ∧
      ¬ Adds (sampleKey ++ '\n' :: otherKey) [] (sampleKey ++ '\n' :: otherKey ++ ['\n']) := by
  have hentries : entries (sampleKey ++ '\n' :: otherKey ++ ['\n']) = [sampleKey, otherKey] := by
    decide
  refine ⟨by rfl, hentries, fun h => ?_⟩
  have hlength := congrArg List.length h.added
  rw [hentries] at hlength
  revert hlength
  decide

end Tenodera.Agent.AuthorizedKeys
