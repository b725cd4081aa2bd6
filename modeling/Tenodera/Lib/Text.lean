import Mathlib.Algebra.Group.Nat.Defs
import Mathlib.Data.List.DropRight
import Mathlib.Data.List.Infix

/-!
# Text operations of the Rust standard library

`str::trim` and the Unicode property `White_Space` it rests on, which is wider than Lean's own
`Char.isWhitespace`; `str::lines`, `str::contains` and `str::starts_with`; and the Unicode property
that `char::is_alphanumeric` tests, given by a table.
-/

namespace Text

/-- `char::is_whitespace`: the Unicode property `White_Space`. -/
def isWhitespace (c : Char) : Bool :=
  (9 ≤ c.val && c.val ≤ 13) || c.val = 0x20 || c.val = 0x85 || c.val = 0xA0 || c.val = 0x1680 ||
    (0x2000 ≤ c.val && c.val ≤ 0x200A) || c.val = 0x2028 || c.val = 0x2029 || c.val = 0x202F ||
    c.val = 0x205F || c.val = 0x3000

/-- `str::trim`. -/
def trim (s : String) : String :=
  String.ofList ((s.toList.dropWhile isWhitespace).rdropWhile isWhitespace)

example : trim " \tweb 1\n" = "web 1" := by decide

-- Membership of a text in a list of texts is decided by it.
instance lawfulBEq_chars : LawfulBEq (List Char) := inferInstance

/-- `str::trim` on the characters of a text. -/
def trimmed (cs : List Char) : List Char := (cs.dropWhile isWhitespace).rdropWhile isWhitespace

/-- `str::contains`. -/
def contains (s part : String) : Bool := part.toList <:+: s.toList

/-- `str::starts_with`. -/
def startsWith (s start : String) : Bool := start.toList.isPrefixOf s.toList

/-- `str::trim_start_matches` with a text, which is taken off as often as it comes. -/
def trimStartMatches (s start : String) : String :=
  String.ofList (go s.length s.toList)
where
  /-- The number bounds how often that can be. -/
  go : ℕ → List Char → List Char
    | 0, cs => cs
    | n + 1, cs =>
      if start ≠ "" ∧ start.toList.isPrefixOf cs then go n (cs.drop start.length) else cs

example : trimStartMatches "error:error: no" "error:" = " no" := by decide

/-- `str::trim_end_matches` with a character. -/
def trimEnd (s : String) (c : Char) : String := String.ofList (s.toList.rdropWhile fun c' => c' = c)

/-- One carriage return at the end of a line is part of its terminator. -/
def stripCr (l : List Char) : List Char := if l.getLast? = some '\r' then l.dropLast else l

/-- The pieces between newlines: the last one has no terminator, and counts unless it is empty. -/
def linesOf (cs : List Char) : List (List Char) :=
  let parts := cs.splitOn '\n'
  parts.dropLast.map stripCr ++ (parts.getLast?.filter (· ≠ [])).toList

/-- `str::lines`. -/
def lines (s : String) : List String := (linesOf s.toList).map String.ofList

example : ["a\r\nb\n", "a\n\nb\r"].map lines = [["a", "b"], ["a", "", "b\r"]] := by decide

/-- `str::parse` for an unsigned integer of so many bits. -/
def parseUnsigned (bits : ℕ) (s : String) : Option ℕ :=
  let digits := match s.toList with
    | '+' :: rest => rest
    | cs => cs
  let n := Nat.ofDigitChars 10 digits 0
  if digits ≠ [] ∧ digits.all Char.isDigit ∧ n < 2 ^ bits then some n else none

example : ["22", "+0080", "65536", "", "8a"].map (parseUnsigned 16) =
    [some 22, some 80, none, none, none] := by decide

/-- Without a sign, all characters are digits of the number. -/
theorem parseUnsigned_eq_ite {bits : ℕ} {cs : List Char} (h : '+' ∉ cs) :
    parseUnsigned bits (String.ofList cs) =
      if cs ≠ [] ∧ cs.all Char.isDigit ∧ Nat.ofDigitChars 10 cs 0 < 2 ^ bits then
        some (Nat.ofDigitChars 10 cs 0)
      else none := by
  unfold parseUnsigned
  rw [String.toList_ofList]
  dsimp only
  split
  · exact absurd List.mem_cons_self h
  · rfl

/-- Nothing is read of a text with a character that is neither a digit nor a sign. -/
theorem parseUnsigned_eq_none {bits : ℕ} {cs : List Char} {c : Char} (hc : c ∈ cs)
    (hdigit : c.isDigit = false) (hsign : c ≠ '+') :
    parseUnsigned bits (String.ofList cs) = none := by
  have hall {digits : List Char} (hmem : c ∈ digits) : ¬ digits.all Char.isDigit = true := by
    intro h
    rw [List.all_eq_true.1 h c hmem] at hdigit
    cases hdigit
  unfold parseUnsigned
  rw [String.toList_ofList]
  dsimp only
  split
  · exact if_neg fun h => hall ((List.mem_cons.1 hc).resolve_left hsign) h.2.1
  · exact if_neg fun h => hall hc h.2.1

/-- A NUL, which no C string can hold. -/
def hasNul (s : String) : Bool := '\x00' ∈ s.toList

@[simp]
theorem hasNul_append (s t : String) : hasNul (s ++ t) = (hasNul s || hasNul t) := by
  simp [hasNul]

theorem hasNul_ofList (l : List Char) : hasNul (String.ofList l) = decide ('\x00' ∈ l) := by
  simp [hasNul]

theorem mem_dropWhile_iff {α : Type} {p : α → Bool} {l : List α} {a : α} (ha : p a = false) :
    a ∈ l.dropWhile p ↔ a ∈ l := by
  conv_rhs => rw [← l.takeWhile_append_dropWhile (p := p), List.mem_append]
  refine ⟨Or.inr, fun h => h.resolve_left fun htake => ?_⟩
  rw [List.mem_takeWhile_imp htake] at ha
  cases ha

theorem hasNul_trimEnd (s : String) {c : Char} (hc : '\x00' ≠ c) :
    hasNul (trimEnd s c) = hasNul s := by
  rw [trimEnd, hasNul_ofList, hasNul, decide_eq_decide, List.rdropWhile, List.mem_reverse,
    mem_dropWhile_iff (by simpa using hc), List.mem_reverse]

/-- The table behind `char::is_alphanumeric`; its ASCII part is the letters and digits. -/
structure Alphanumeric where
  mem : Char → Bool
  ascii : ∀ c : Char, c.val < 128 → mem c = c.isAlphanum

/-- The table of ASCII alone. -/
def asciiAlphanumeric : Alphanumeric := ⟨Char.isAlphanum, fun _ _ => rfl⟩

theorem Alphanumeric.mem_nul (u : Alphanumeric) : u.mem '\x00' = false := u.ascii _ (by decide)

end Text
