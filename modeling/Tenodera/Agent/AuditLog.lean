import Mathlib.Data.Bool.AllAny
import Tenodera.Lib.Lines
import Tenodera.Lib.Slices
import Tenodera.Lib.Trim

/-!
# The audit log

Agent and gateway append lines of keys and values to one file, and the audit viewer looks for the
keys in a line.  A value with a later key in it moves what the viewer finds: `law_iff` says for
which values the fields are read back.
-/

namespace Tenodera.Agent.AuditLog

open Utf8

/-! ## Writing -/

/-- Both have an `audit.rs` of their own. -/
inductive Writer
  | agent
  | gateway
  deriving DecidableEq

/-- `str::replace` of a character. -/
def replace (c : Char) (new cs : List Char) : List Char :=
  cs.flatMap fun c' => if c' = c then new else [c']

/-- `char::is_control`. -/
def isControl (c : Char) : Bool := c.val < 0x20 || (0x7F ≤ c.val && c.val < 0xA0)

/-- `\xHH`. -/
def hexEscape (b : UInt8) : List Char :=
  ['\\', 'x', Nat.digitChar (b.toNat / 16), Nat.digitChar (b.toNat % 16)]

/-- What the gateway writes for a character. -/
def escape (c : Char) : List Char :=
  if c = '\n' then "\\n".toList
  else if c = '\r' then "\\r".toList
  else if c = '\t' then "\\t".toList
  else if c = '\x00' then "\\0".toList
  else if isControl c then (String.utf8EncodeChar c).flatMap hexEscape
  else [c]

/-- `sanitize`: the agent replaces newlines and carriage returns, the gateway escapes all control
characters. -/
def sanitize : Writer → List Char → List Char
  | .agent, cs => replace '\r' "\\r".toList (replace '\n' "\\n".toList cs)
  | .gateway, cs => cs.flatMap escape

/-- A time in RFC 3339, in seconds. -/
structure Timestamp where
  text : List Char
  plain : ∀ c ∈ text, c.isAlphanum ∨ c ∈ ['+', '-', ':']

def resultText (ok : Bool) : List Char := if ok then "ok".toList else "fail".toList

/-- The arguments of `log`. -/
structure Record where
  user : List Char
  action : List Char
  target : List Char
  ok : Bool
  details : List Char

/-- The line that `log` writes, without its newline. -/
def Record.line (r : Record) (w : Writer) (ts : Timestamp) : List Char :=
  '[' :: (ts.text ++ "] user=".toList ++ sanitize w r.user ++ " action=".toList ++
    sanitize w r.action ++ " target=".toList ++ sanitize w r.target ++ " result=".toList ++
    resultText r.ok ++ " details=".toList ++ sanitize w r.details)

/-- The text of `/var/log/tenodera_audit.log`, to which only whole lines are appended. -/
structure AuditFile where
  text : List Char
  ended : text = [] ∨ text.getLast? = some '\n'

/-- `log`, when the file can be opened and written. -/
def log (w : Writer) (ts : Timestamp) (r : Record) (file : AuditFile) : AuditFile where
  text := file.text ++ (r.line w ts ++ ['\n'])
  ended := .inr (by rw [← List.append_assoc, List.getLast?_concat])

/-! ## Reading -/

/-- What the viewer shows of a line. -/
structure Entry where
  ts : List Char
  user : List Char
  action : List Char
  target : List Char
  result : List Char
  details : List Char
  deriving DecidableEq

/-- The keys and values behind the time. -/
def parseFields (ts rest : List Char) : Option (Option Entry) :=
  match find "user=".toList rest, find " action=".toList rest, find " target=".toList rest,
      find " result=".toList rest, find " details=".toList rest with
  | some iUser, some iAction, some iTarget, some iResult, some iDetails => do
    let user ← slice (iUser + 5) iAction rest
    let action ← slice (iAction + 8) iTarget rest
    let target ← slice (iTarget + 8) iResult rest
    let result ← slice (iResult + 8) iDetails rest
    let details ← suffixFrom (iDetails + 9) rest
    return some ⟨ts, user, action, target, result, details⟩
  | _, _, _, _, _ => some none

/-- `parse_line`; the outer none is a panic. -/
def parseLine (line : List Char) : Option (Option Entry) :=
  let line := Text.trimmed line
  if line.head? ≠ some '[' then some none
  else
    match find [']'] line with
    | none => some none
    | some close => do
      let ts ← slice 1 close line
      let rest ← suffixFrom (close + 1) line
      parseFields ts rest

/-- The file gains one line, and the viewer reads the record back from it. -/
def Law (w : Writer) (ts : Timestamp) (r : Record) (file : AuditFile) : Prop :=
  Text.linesOf (log w ts r file).text = Text.linesOf file.text ++ [r.line w ts] ∧
    ∃ entry, parseLine (r.line w ts) = some (some entry) ∧
      Text.trimmed entry.user = Text.trimmed (sanitize w r.user) ∧
      Text.trimmed entry.action = Text.trimmed (sanitize w r.action) ∧
      Text.trimmed entry.target = Text.trimmed (sanitize w r.target) ∧
      Text.trimmed entry.result = resultText r.ok ∧
      Text.trimmed entry.details = Text.trimmed (sanitize w r.details)

/-- No value has the key of a later one in it. -/
structure Clear (r : Record) : Prop where
  action : ¬ " action=".toList <:+: r.user
  target : ∀ value ∈ [r.user, r.action], ¬ " target=".toList <:+: value
  result : ∀ value ∈ [r.user, r.action, r.target], ¬ " result=".toList <:+: value
  details : ∀ value ∈ [r.user, r.action, r.target], ¬ " details=".toList <:+: value

section

variable {w : Writer} {cs : List Char} {c : Char}

/-! ## What is written for a value -/

/-- What a writer has for a character. -/
def escapeOf : Writer → Char → List Char
  | .agent, c => replace '\r' "\\r".toList (if c = '\n' then "\\n".toList else [c])
  | .gateway, c => escape c

theorem sanitize_eq (w : Writer) (cs : List Char) : sanitize w cs = cs.flatMap (escapeOf w) := by
  cases w with
  | agent => exact List.flatMap_assoc
  | gateway => rfl

theorem hexEscape_plain {b : UInt8} (h : c ∈ hexEscape b) : c ∉ [' ', '\n', '\r'] := by
  have hdigit : ∀ n : Fin 16, Nat.digitChar n ∉ [' ', '\n', '\r'] := by decide
  have hhigh : b.toNat / 16 < 16 := Nat.div_lt_of_lt_mul b.toNat_lt
  have hlow : b.toNat % 16 < 16 := Nat.mod_lt _ (by decide)
  rcases List.mem_cons.1 h with rfl | h
  · decide
  rcases List.mem_cons.1 h with rfl | h
  · decide
  rcases List.mem_cons.1 h with rfl | h
  · exact hdigit ⟨_, hhigh⟩
  · rw [List.mem_singleton.1 h]
    exact hdigit ⟨_, hlow⟩

/-- A character stays, or it is a control character and becomes an escape. -/
theorem escapeOf_cases (w : Writer) (c : Char) :
    (escapeOf w c = [c] ∧ c ≠ '\n' ∧ c ≠ '\r') ∨
      isControl c = true ∧ ∃ e, escapeOf w c = '\\' :: e ∧ ∀ c ∈ e, c ∉ [' ', '\n', '\r'] := by
  by_cases hn : c = '\n'
  · subst hn
    refine .inr ⟨by decide, ['n'], ?_, List.all_iff_forall_prop.1 (by decide)⟩
    cases w <;> rfl
  by_cases hr : c = '\r'
  · subst hr
    refine .inr ⟨by decide, ['r'], ?_, List.all_iff_forall_prop.1 (by decide)⟩
    cases w <;> rfl
  cases w with
  | agent => exact .inl ⟨by simp [escapeOf, replace, hn, hr], hn, hr⟩
  | gateway =>
    simp only [escapeOf, escape, hn, hr, if_false]
    split_ifs with ht h0 hcontrol
    · exact .inr ⟨by rw [ht]; decide, ['t'], rfl, List.all_iff_forall_prop.1 (by decide)⟩
    · exact .inr ⟨by rw [h0]; decide, ['0'], rfl, List.all_iff_forall_prop.1 (by decide)⟩
    · refine .inr ⟨hcontrol, ?_⟩
      cases hbytes : String.utf8EncodeChar c with
      | nil => exact absurd hbytes String.utf8EncodeChar_ne_nil
      | cons b bs =>
        refine ⟨_, rfl, fun c hc => ?_⟩
        have hmem : c ∈ (b :: bs).flatMap hexEscape := List.mem_cons_of_mem _ hc
        obtain ⟨b', -, hb'⟩ := List.mem_flatMap.1 hmem
        exact hexEscape_plain hb'
    · exact .inl ⟨rfl, hn, hr⟩

/-- A value stays on its line. -/
theorem ne_of_mem_sanitize (h : c ∈ sanitize w cs) : c ≠ '\n' ∧ c ≠ '\r' := by
  rw [sanitize_eq] at h
  obtain ⟨c', -, hc⟩ := List.mem_flatMap.1 h
  rcases escapeOf_cases w c' with ⟨hstays, hn, hr⟩ | ⟨-, e, he, hplain⟩
  · rw [hstays] at hc
    obtain rfl := List.mem_singleton.1 hc
    exact ⟨hn, hr⟩
  · rw [he] at hc
    rcases List.mem_cons.1 hc with rfl | hc
    · decide
    · exact ⟨fun h => hplain c hc (by rw [h]; decide), fun h => hplain c hc (by rw [h]; decide)⟩

theorem prefix_of_prefix_sanitize {k : List Char} (hk : '\\' ∉ k) (h : k <+: sanitize w cs) :
    k <+: cs := by
  induction k generalizing cs with
  | nil => exact List.nil_prefix
  | cons c k ih =>
    rw [sanitize_eq] at h
    cases cs with
    | nil => exact absurd (List.prefix_nil.1 h) (List.cons_ne_nil c k)
    | cons c' cs =>
      rw [List.flatMap_cons] at h
      rcases escapeOf_cases w c' with ⟨hstays, -, -⟩ | ⟨-, e, he, -⟩
      · rw [hstays, List.singleton_append] at h
        obtain ⟨rfl, hrest⟩ := List.cons_prefix_cons.1 h
        rw [← sanitize_eq] at hrest
        exact List.cons_prefix_cons.2 ⟨rfl, ih (fun hmem => hk (List.mem_cons_of_mem c hmem)) hrest⟩
      · rw [he, List.cons_append] at h
        exact absurd ((List.cons_prefix_cons.1 h).1 ▸ List.mem_cons_self) hk

/-- Escapes neither make a key nor break one. -/
theorem key_infix_sanitize_iff {k : List Char} (hk : ∀ c ∈ k, c ≠ '\\' ∧ isControl c = false) :
    ' ' :: k <:+: sanitize w cs ↔ ' ' :: k <:+: cs := by
  have hall : ∀ c ∈ ' ' :: k, c ≠ '\\' ∧ isControl c = false :=
    List.forall_mem_cons.2 ⟨by decide, hk⟩
  constructor
  · intro h
    induction cs with
    | nil => rwa [sanitize_eq] at h
    | cons c cs ih =>
      rw [sanitize_eq, List.flatMap_cons] at h
      rcases escapeOf_cases w c with ⟨hstays, -, -⟩ | ⟨-, e, he, hplain⟩
      · rw [hstays, List.singleton_append, List.infix_cons_iff] at h
        rcases h with hprefix | hinfix
        · have hprefix' : ' ' :: k <+: sanitize w (c :: cs) := by
            rwa [sanitize_eq, List.flatMap_cons, hstays, List.singleton_append]
          exact (prefix_of_prefix_sanitize (fun hmem => (hall _ hmem).1 rfl) hprefix').isInfix
        · rw [← sanitize_eq] at hinfix
          exact (ih hinfix).trans (List.suffix_cons c cs).isInfix
      · have hspace : ' ' ∉ '\\' :: e := fun hmem => by
          rcases List.mem_cons.1 hmem with heq | hmem
          · revert heq
            decide
          · exact hplain ' ' hmem (by decide)
        rw [he, key_infix_append_of_notMem hspace, ← sanitize_eq] at h
        exact (ih h).trans (List.suffix_cons c cs).isInfix
  · rintro ⟨a, b, rfl⟩
    have hkey : sanitize w (' ' :: k) = ' ' :: k := by
      rw [sanitize_eq]
      refine (List.flatMap_congr fun c hc => ?_).trans (List.flatMap_singleton' _)
      rcases escapeOf_cases w c with ⟨hstays, -, -⟩ | ⟨hcontrol, -⟩
      · exact hstays
      · rw [(hall c hc).2] at hcontrol
        cases hcontrol
    refine ⟨sanitize w a, sanitize w b, ?_⟩
    calc sanitize w a ++ ' ' :: k ++ sanitize w b
        = sanitize w a ++ sanitize w (' ' :: k) ++ sanitize w b := by rw [hkey]
      _ = sanitize w (a ++ ' ' :: k ++ b) := by
        simp only [sanitize_eq, List.flatMap_append]

end

/-! ## What the viewer finds -/

/-- Keys with their values. -/
def fieldsText (fields : List (List Char × List Char)) : List Char :=
  fields.flatMap fun field => ' ' :: (field.1 ++ field.2)

theorem fieldsText_append (fields fields' : List (List Char × List Char)) :
    fieldsText (fields ++ fields') = fieldsText fields ++ fieldsText fields' :=
  List.flatMap_append

theorem fieldsText_split (k v : List Char) (before after : List (List Char × List Char)) :
    fieldsText (before ++ (k, v) :: after) =
      fieldsText before ++ ' ' :: k ++ (v ++ fieldsText after) := by
  rw [fieldsText_append]
  simp [fieldsText]

/-- What the viewer sees of a record: the end of the details is trimmed. -/
def Record.fields (r : Record) (w : Writer) : List (List Char × List Char) :=
  [("user=".toList, sanitize w r.user), ("action=".toList, sanitize w r.action),
    ("target=".toList, sanitize w r.target), ("result=".toList, resultText r.ok),
    ("details=".toList, (sanitize w r.details).rdropWhile Text.isWhitespace)]

theorem parseLine_of_trimmed {line ts rest : List Char} (hts : ']' ∉ ts)
    (h : Text.trimmed line = '[' :: ts ++ ']' :: rest) : parseLine line = parseFields ts rest := by
  have hclose : ']' ∉ '[' :: ts := fun hmem =>
    hts ((List.mem_cons.1 hmem).resolve_left (by decide))
  have hslice : slice 1 (size ('[' :: ts)) ('[' :: ts ++ ']' :: rest) = some ts :=
    slice_eq_some_iff.2 ⟨['['], ']' :: rest, rfl, by decide, rfl⟩
  have hsuffix : suffixFrom (size ('[' :: ts) + 1) ('[' :: ts ++ ']' :: rest) = some rest := by
    refine suffixFrom_eq_some_iff.2 ⟨'[' :: ts ++ [']'], List.append_cons _ _ _, ?_⟩
    rw [size_append]
    rfl
  unfold parseLine
  dsimp only
  rw [h, if_neg (by simp), find_char hclose]
  dsimp only
  rw [hslice, hsuffix]
  rfl

theorem parseLine_line (w : Writer) (ts : Timestamp) (r : Record) :
    parseLine (r.line w ts) = parseFields ts.text (fieldsText (r.fields w)) := by
  have hts : ']' ∉ ts.text := fun hmem => by
    rcases ts.plain ']' hmem with h | h <;> revert h <;> decide
  have hdetails : " details=".toList = " details".toList ++ ['='] := by decide
  have htrimmed := Text.trimmed_cons_append (c := '[') (d := '=') (by decide) (by decide)
    (ts.text ++ "] user=".toList ++ sanitize w r.user ++ " action=".toList ++
      sanitize w r.action ++ " target=".toList ++ sanitize w r.target ++ " result=".toList ++
      resultText r.ok ++ " details".toList) (sanitize w r.details)
  have hfields : fieldsText (r.fields w) = " user=".toList ++ (sanitize w r.user ++
      (" action=".toList ++ (sanitize w r.action ++ (" target=".toList ++ (sanitize w r.target ++
      (" result=".toList ++ (resultText r.ok ++ (" details".toList ++
      '=' :: (sanitize w r.details).rdropWhile Text.isWhitespace)))))))) := by
    simp [fieldsText, Record.fields]
  refine parseLine_of_trimmed hts ?_
  unfold Record.line
  rw [hdetails, hfields]
  simp only [List.append_assoc, List.cons_append, List.nil_append] at htrimmed ⊢
  exact htrimmed

/-- The names of the keys, in their order. -/
def names : List (List Char) :=
  ["user=".toList, "action=".toList, "target=".toList, "result=".toList, "details=".toList]

/-- A key with the second name is not one with the first. -/
def Apart (k k' : List Char) : Prop := ' ' ∉ k' ∧ ¬ k <+: k' ∧ ¬ k' <+: k

instance (k k' : List Char) : Decidable (Apart k k') := inferInstanceAs (Decidable (_ ∧ _))

/-- A key is in the text of fields with other keys iff it is in one of their values. -/
theorem key_infix_fieldsText_iff {k : List Char} {fields : List (List Char × List Char)}
    (hk : ' ' ∉ k)
    (hfields : ∀ k' ∈ fields.map Prod.fst, Apart k k') :
    ' ' :: k <:+: fieldsText fields ↔ ∃ field ∈ fields, ' ' :: k <:+: field.2 := by
  induction fields using List.reverseRecOn with
  | nil => simp [fieldsText]
  | append_singleton fields field ih =>
    obtain ⟨hspace, hnot, hnot'⟩ := hfields field.1 (by simp)
    have hlast : fieldsText [field] = ' ' :: (field.1 ++ field.2) := List.append_nil _
    rw [fieldsText_append, hlast, key_infix_append_iff hk, key_infix_cons_iff hspace hnot hnot',
      ih fun k' h => hfields k' (by simpa using .inl (by simpa using h))]
    simp [or_and_right, exists_or]

/-- The viewer finds a key where it was written iff no value before it has the key. -/
theorem find_fieldsText_iff {k : List Char} (v : List Char)
    (before after : List (List Char × List Char)) (hk : ' ' ∉ k)
    (hbefore : ∀ k' ∈ before.map Prod.fst, Apart k k') :
    find (' ' :: k) (fieldsText (before ++ (k, v) :: after)) = some (size (fieldsText before)) ↔
      ∀ v' ∈ before.map Prod.snd, ¬ ' ' :: k <:+: v' := by
  have htext : fieldsText (before ++ (k, v) :: after) =
      fieldsText before ++ (' ' :: k ++ (v ++ fieldsText after)) := by
    rw [fieldsText_split, List.append_assoc]
  rw [htext, find_key_iff hk, key_infix_fieldsText_iff hk hbefore, List.forall_mem_map]
  push Not
  rfl

/-- A slice up to a key that is the value up to white space ends where the key was written. -/
theorem eq_size_of_slice {text a v v' k y : List Char} {n : ℕ} (hspace : ' ' ∉ k)
    (hk : ∃ c ∈ k, Text.isWhitespace c = false) (htext : text = a ++ v ++ (' ' :: k ++ y))
    (hfind : find (' ' :: k) text = some n) (hslice : slice (size a) n text = some v')
    (htrim : Text.trimmed v' = Text.trimmed v) : n = size (a ++ v) := by
  obtain ⟨a₁, b, hab, rfl, hfirst⟩ := find_eq_some_iff.1 hfind
  obtain ⟨a₂, b', hab', hsize, hsize'⟩ := slice_eq_some_iff.1 hslice
  have hbegin : a₁ <+: a ++ v := hfirst (a ++ v) y htext
  have htext' : text = a ++ (v ++ (' ' :: k ++ y)) := htext.trans (List.append_assoc a v _)
  obtain ⟨rfl, -⟩ := eq_of_size_eq (hab'.symm.trans htext') hsize
  have hvalue : a₂ ++ v' = a₁ := by
    rw [← List.append_assoc] at hab'
    exact (eq_of_size_eq (hab'.symm.trans hab) hsize').1
  rw [← hvalue, List.prefix_append_right_inj] at hbegin
  obtain ⟨z, rfl⟩ := hbegin
  have hblank := Text.isWhitespace_of_trimmed_append htrim.symm
  by_cases hz : z = []
  · rw [← hvalue, hz, List.append_nil]
  · have hkey : ' ' :: k <+: z ++ ' ' :: (k ++ y) := by
      have hboth : a₂ ++ v' ++ (' ' :: k ++ b) = a₂ ++ v' ++ (z ++ ' ' :: (k ++ y)) := by
        rw [hvalue, ← hab, htext, ← hvalue]
        simp
      exact ⟨b, List.append_cancel_left hboth⟩
    obtain ⟨c, hck, hc⟩ := hk
    have hmem : c ∈ z := (key_prefix_of_append hspace hz hkey).subset (List.mem_cons_of_mem _ hck)
    rw [hblank c hmem] at hc
    cases hc

/-- The viewer has an entry when it finds all keys, each before the next one. -/
theorem parseFields_eq_iff {ts rest : List Char} {entry : Entry} :
    parseFields ts rest = some (some entry) ↔
      ∃ iUser iAction iTarget iResult iDetails,
        (find "user=".toList rest = some iUser ∧ find " action=".toList rest = some iAction ∧
          find " target=".toList rest = some iTarget ∧ find " result=".toList rest = some iResult ∧
          find " details=".toList rest = some iDetails) ∧
        slice (iUser + 5) iAction rest = some entry.user ∧
        slice (iAction + 8) iTarget rest = some entry.action ∧
        slice (iTarget + 8) iResult rest = some entry.target ∧
        slice (iResult + 8) iDetails rest = some entry.result ∧
        suffixFrom (iDetails + 9) rest = some entry.details ∧ ts = entry.ts := by
  unfold parseFields
  constructor
  · intro h
    split at h
    · rename_i iUser iAction iTarget iResult iDetails hUser hAction hTarget hResult hDetails
      simp only [Option.bind_eq_bind, Option.pure_def, Option.bind_eq_some_iff,
        Option.some.injEq] at h
      obtain ⟨user, huser, action, haction, target, htarget, result, hresult, details, hdetails,
        rfl⟩ := h
      exact ⟨iUser, iAction, iTarget, iResult, iDetails,
        ⟨hUser, hAction, hTarget, hResult, hDetails⟩, huser, haction, htarget, hresult, hdetails,
        rfl⟩
    · cases h
  · rintro ⟨iUser, iAction, iTarget, iResult, iDetails,
      ⟨hUser, hAction, hTarget, hResult, hDetails⟩, huser, haction, htarget, hresult, hdetails, hts⟩
    rw [hUser, hAction, hTarget, hResult, hDetails]
    dsimp only
    rw [huser, haction, htarget, hresult, hdetails, hts]
    rfl

theorem find_user (v : List Char) (after : List (List Char × List Char)) :
    find "user=".toList (fieldsText (("user=".toList, v) :: after)) = some 1 := by
  refine find_eq_some_iff.2 ⟨[' '], v ++ fieldsText after, ?_, by decide, fun a' b' h => ?_⟩
  · simp [fieldsText]
  · cases a' with
    | nil =>
      have hhead : ' ' = 'u' := (List.cons.inj h).1
      revert hhead
      decide
    | cons c a' =>
      obtain ⟨rfl, -⟩ := List.cons.inj h
      exact ⟨a', rfl⟩

theorem size_fieldsText_concat (k v : List Char) (before : List (List Char × List Char)) :
    size (fieldsText (before ++ [(k, v)])) = size (fieldsText before ++ ' ' :: k ++ v) := by
  rw [fieldsText_split]
  simp [fieldsText]

/-- A value is what is between its key and the next one. -/
theorem slice_fieldsText {k : List Char} (v : List Char)
    (before after : List (List Char × List Char)) {m : ℕ} (hm : size (' ' :: k) = m) :
    slice (size (fieldsText before) + m) (size (fieldsText (before ++ [(k, v)])))
      (fieldsText (before ++ (k, v) :: after)) = some v :=
  slice_eq_some_iff.2 ⟨_, _, fieldsText_split k v before after, by rw [size_append, hm],
    (size_fieldsText_concat k v before).symm⟩

/-- A slice that is the value up to white space ends where the next key was written. -/
theorem eq_size_fieldsText {v v' : List Char} (k k' w : List Char)
    (before after : List (List Char × List Char)) {m n : ℕ} (hk' : ' ' ∉ k')
    (hsolid : k'.any fun c => Text.isWhitespace c = false) (hm : size (' ' :: k) = m)
    (hfind : find (' ' :: k') (fieldsText (before ++ (k, v) :: (k', w) :: after)) = some n)
    (hslice : slice (size (fieldsText before) + m) n
      (fieldsText (before ++ (k, v) :: (k', w) :: after)) = some v')
    (htrim : Text.trimmed v' = Text.trimmed v) : n = size (fieldsText (before ++ [(k, v)])) := by
  have hstart : size (fieldsText before ++ ' ' :: k) = size (fieldsText before) + m := by
    rw [size_append, hm]
  rw [size_fieldsText_concat]
  have hsolid' := List.any_iff_exists_prop.1 hsolid
  refine eq_size_of_slice (y := w ++ fieldsText after) hk' hsolid' ?_ hfind (hstart ▸ hslice) htrim
  rw [fieldsText_split]
  simp [fieldsText]

/-! ## The law -/

section

variable {w : Writer} {ts : Timestamp} {r : Record}

theorem notMem_line {c : Char} (hc : c = '\n' ∨ c = '\r') : c ∉ r.line w ts := by
  have hts : c ∉ ts.text := fun hmem => by
    rcases hc with rfl | rfl <;> rcases ts.plain _ hmem with h | h <;> revert h <;> decide
  have hvalue (cs : List Char) : c ∉ sanitize w cs := fun hmem => by
    rcases hc with rfl | rfl
    · exact (ne_of_mem_sanitize hmem).1 rfl
    · exact (ne_of_mem_sanitize hmem).2 rfl
  have hresult : c ∉ resultText r.ok := by
    rcases hc with rfl | rfl <;> cases r.ok <;> decide
  unfold Record.line
  simp only [List.mem_cons, List.mem_append, hts, hvalue, hresult, or_false, false_or]
  rcases hc with rfl | rfl <;> decide

/-- The line is the last one of the file, and the others stay. -/
theorem linesOf_log (file : AuditFile) :
    Text.linesOf (log w ts r file).text = Text.linesOf file.text ++ [r.line w ts] := by
  have hnewline : '\n' ∉ r.line w ts := notMem_line (.inl rfl)
  have hcr : (r.line w ts).getLast? ≠ some '\r' := fun h =>
    notMem_line (.inr rfl) (List.mem_of_getLast? h)
  have hlast : Text.linesOf (r.line w ts ++ ['\n']) = [r.line w ts] := by
    rw [Text.linesOf_append_newline hnewline, Text.linesOf_nil, Text.stripCr_eq_self hcr]
  change Text.linesOf (file.text ++ (r.line w ts ++ ['\n'])) = _
  rcases file.ended with hnil | hended
  · rw [hnil, List.nil_append, hlast]
    rfl
  · obtain ⟨text, htext⟩ := List.getLast?_eq_some_iff.1 hended
    rw [htext, List.append_assoc, List.singleton_append, Text.linesOf_append, hlast]

theorem forall_sanitize_iff {k : List Char}
    (hk : k.all fun c => c ≠ '\\' ∧ isControl c = false) (values : List (List Char)) :
    (∀ v ∈ values.map (sanitize w), ¬ ' ' :: k <:+: v) ↔ ∀ v ∈ values, ¬ ' ' :: k <:+: v := by
  rw [List.forall_mem_map]
  exact forall₂_congr fun v _ =>
    not_congr (key_infix_sanitize_iff (List.all_iff_forall_prop.1 hk))

/-- Where the keys are found depends on what the caller of `log` gave. -/
theorem clear_iff (w : Writer) : Clear r ↔
    (∀ v ∈ [r.user].map (sanitize w), ¬ " action=".toList <:+: v) ∧
      (∀ v ∈ [r.user, r.action].map (sanitize w), ¬ " target=".toList <:+: v) ∧
      (∀ v ∈ [r.user, r.action, r.target].map (sanitize w), ¬ " result=".toList <:+: v) ∧
      ∀ v ∈ [r.user, r.action, r.target].map (sanitize w) ++ [resultText r.ok],
        ¬ " details=".toList <:+: v := by
  have hresult : ¬ " details=".toList <:+: resultText r.ok := by
    cases r.ok <;> decide
  have haction := forall_sanitize_iff (w := w) (k := "action=".toList) (by decide) [r.user]
  have htarget := forall_sanitize_iff (w := w) (k := "target=".toList) (by decide)
    [r.user, r.action]
  have hresult' := forall_sanitize_iff (w := w) (k := "result=".toList) (by decide)
    [r.user, r.action, r.target]
  have hdetails := forall_sanitize_iff (w := w) (k := "details=".toList) (by decide)
    [r.user, r.action, r.target]
  rw [List.forall_mem_append, List.forall_mem_singleton, and_iff_left hresult]
  constructor
  · rintro ⟨h₁, h₂, h₃, h₄⟩
    exact ⟨haction.2 (List.forall_mem_singleton.2 h₁), htarget.2 h₂, hresult'.2 h₃, hdetails.2 h₄⟩
  · rintro ⟨h₁, h₂, h₃, h₄⟩
    exact ⟨haction.1 h₁ _ List.mem_cons_self, htarget.1 h₂, hresult'.1 h₃, hdetails.1 h₄⟩

/-- Every key is found where it was written iff no value has the key of a later one in it. -/
theorem keys_found_iff (w : Writer) :
    (find " action=".toList (fieldsText (r.fields w)) =
        some (size (fieldsText ((r.fields w).take 1))) ∧
      find " target=".toList (fieldsText (r.fields w)) =
        some (size (fieldsText ((r.fields w).take 2))) ∧
      find " result=".toList (fieldsText (r.fields w)) =
        some (size (fieldsText ((r.fields w).take 3))) ∧
      find " details=".toList (fieldsText (r.fields w)) =
        some (size (fieldsText ((r.fields w).take 4)))) ↔ Clear r := by
  have haction := find_fieldsText_iff (k := "action=".toList) (sanitize w r.action)
    ((r.fields w).take 1) ((r.fields w).drop 2) (by decide)
    (show ∀ k' ∈ names.take 1, Apart "action=".toList k' by decide)
  have htarget := find_fieldsText_iff (k := "target=".toList) (sanitize w r.target)
    ((r.fields w).take 2) ((r.fields w).drop 3) (by decide)
    (show ∀ k' ∈ names.take 2, Apart "target=".toList k' by decide)
  have hresult := find_fieldsText_iff (k := "result=".toList) (resultText r.ok)
    ((r.fields w).take 3) ((r.fields w).drop 4) (by decide)
    (show ∀ k' ∈ names.take 3, Apart "result=".toList k' by decide)
  have hdetails := find_fieldsText_iff (k := "details=".toList)
    ((sanitize w r.details).rdropWhile Text.isWhitespace) ((r.fields w).take 4) [] (by decide)
    (show ∀ k' ∈ names.take 4, Apart "details=".toList k' by decide)
  rw [clear_iff w]
  exact and_congr haction (and_congr htarget (and_congr hresult hdetails))

/-- Every field is read back up to white space iff every key is found where it was written. -/
theorem exists_entry_iff : (∃ entry, parseLine (r.line w ts) = some (some entry) ∧
      Text.trimmed entry.user = Text.trimmed (sanitize w r.user) ∧
      Text.trimmed entry.action = Text.trimmed (sanitize w r.action) ∧
      Text.trimmed entry.target = Text.trimmed (sanitize w r.target) ∧
      Text.trimmed entry.result = resultText r.ok ∧
      Text.trimmed entry.details = Text.trimmed (sanitize w r.details)) ↔ Clear r := by
  rw [parseLine_line, ← keys_found_iff w]
  have hresult : Text.trimmed (resultText r.ok) = resultText r.ok := by
    cases r.ok <;> decide
  have hfindUser : find "user=".toList (fieldsText (r.fields w)) = some 1 :=
    find_user (sanitize w r.user) ((r.fields w).drop 1)
  constructor
  · rintro ⟨entry, hparse, huser, haction, htarget, hresult', -⟩
    obtain ⟨iUser, iAction, iTarget, iResult, iDetails,
      ⟨hUser, hAction, hTarget, hResult, hDetails⟩, hsliceUser, hsliceAction, hsliceTarget,
      hsliceResult, -, -⟩ := parseFields_eq_iff.1 hparse
    obtain rfl : 1 = iUser := Option.some.inj (hfindUser.symm.trans hUser)
    obtain rfl := eq_size_fieldsText "user=".toList "action=".toList
      (sanitize w r.action) [] ((r.fields w).drop 2) (by decide) (by decide)
      (show size (' ' :: "user=".toList) = 6 by decide) hAction hsliceUser huser
    obtain rfl := eq_size_fieldsText "action=".toList "target=".toList
      (sanitize w r.target) ((r.fields w).take 1) ((r.fields w).drop 3) (by decide) (by decide)
      (by decide) hTarget hsliceAction haction
    obtain rfl := eq_size_fieldsText "target=".toList "result=".toList
      (resultText r.ok) ((r.fields w).take 2) ((r.fields w).drop 4) (by decide) (by decide)
      (by decide) hResult hsliceTarget htarget
    obtain rfl := eq_size_fieldsText "result=".toList "details=".toList
      ((sanitize w r.details).rdropWhile Text.isWhitespace) ((r.fields w).take 3) [] (by decide)
      (by decide) (by decide) hDetails hsliceResult (hresult'.trans hresult.symm)
    exact ⟨hAction, hTarget, hResult, hDetails⟩
  · rintro ⟨hAction, hTarget, hResult, hDetails⟩
    refine ⟨⟨ts.text, sanitize w r.user, sanitize w r.action, sanitize w r.target,
      resultText r.ok, (sanitize w r.details).rdropWhile Text.isWhitespace⟩, ?_, rfl, rfl, rfl,
      hresult, Text.trimmed_rdropWhile _⟩
    refine parseFields_eq_iff.2 ⟨1, _, _, _, _, ⟨hfindUser, hAction, hTarget, hResult, hDetails⟩,
      ?_, ?_, ?_, ?_, ?_, rfl⟩
    · exact slice_fieldsText (k := "user=".toList) (sanitize w r.user) [] ((r.fields w).drop 1)
        (show size (' ' :: "user=".toList) = 6 by decide)
    · exact slice_fieldsText (k := "action=".toList) (sanitize w r.action) ((r.fields w).take 1)
        ((r.fields w).drop 2) (by decide)
    · exact slice_fieldsText (k := "target=".toList) (sanitize w r.target) ((r.fields w).take 2)
        ((r.fields w).drop 3) (by decide)
    · exact slice_fieldsText (k := "result=".toList) (resultText r.ok) ((r.fields w).take 3)
        ((r.fields w).drop 4) (by decide)
    · have hsplit := fieldsText_split "details=".toList
        ((sanitize w r.details).rdropWhile Text.isWhitespace) ((r.fields w).take 4) []
      rw [show fieldsText [] = [] from rfl, List.append_nil] at hsplit
      refine suffixFrom_eq_some_iff.2 ⟨_, hsplit, ?_⟩
      rw [size_append]
      rfl

/-- The file gains one line and the viewer reads the record back from it iff no value has the key
of a later one in it. -/
theorem law_iff (w : Writer) (ts : Timestamp) (r : Record) (file : AuditFile) :
    Law w ts r file ↔ Clear r := by
  rw [Law, and_iff_right (linesOf_log file), exists_entry_iff]

end

/-- A user name with all the keys in it, and one whose key comes too early. -/
def forged : Record :=
  ⟨"eve action=login target=panel result=ok details=".toList, "login".toList, [], false,
    "wrong password".toList⟩

def misplaced : Record := ⟨"eve target=x".toList, "login".toList, [], false, []⟩

def sampleTime : Timestamp :=
  ⟨"2026".toList, List.all_iff_forall_prop.1 (by decide)⟩

theorem forged_unlawful :
    ¬ Law .gateway sampleTime forged ⟨[], .inl rfl⟩ ∧
      (parseLine (forged.line .gateway sampleTime)).map (·.map Entry.result) =
        some (some "ok".toList) ∧
      parseLine (misplaced.line .gateway sampleTime) = none := by
  have hparsed : parseLine (forged.line .gateway sampleTime) =
      some (some ⟨"2026".toList, "eve".toList, "login".toList, "panel".toList, "ok".toList,
        " action=login target= result=fail details=wrong password".toList⟩) := by decide
  refine ⟨?_, by rw [hparsed]; rfl, by decide⟩
  rintro ⟨-, entry, hentry, huser, -⟩
  obtain rfl := Option.some.inj (Option.some.inj (hentry.symm.trans hparsed))
  revert huser
  decide

end Tenodera.Agent.AuditLog
