import Mathlib.Data.List.GetD

/-!
# Base64

The standard alphabet, with padding.
-/

namespace Base64

def alphabet : List Char :=
  "ABCDEFGHIJKLMNOPQRSTUVWXYZabcdefghijklmnopqrstuvwxyz0123456789+/".toList

def digit (n : ℕ) : Char := alphabet.getD (n % 64) 'A'

/-- The digits of three bytes at a time; what is left over is padded. -/
def encodeBytes : List UInt8 → List Char
  | a :: b :: c :: rest =>
    let n := a.toNat * 65536 + b.toNat * 256 + c.toNat
    digit (n / 262144) :: digit (n / 4096) :: digit (n / 64) :: digit n :: encodeBytes rest
  | [a, b] =>
    let n := a.toNat * 65536 + b.toNat * 256
    [digit (n / 262144), digit (n / 4096), digit (n / 64), '=']
  | [a] =>
    let n := a.toNat * 65536
    [digit (n / 262144), digit (n / 4096), '=', '=']
  | [] => []

/-- The encoding of the UTF-8 bytes of a text. -/
def encode (s : String) : String :=
  String.ofList (encodeBytes (s.toList.flatMap String.utf8EncodeChar))

example : encode "Tenodera" = "VGVub2RlcmE=" := by decide

/-- The characters that an encoding is written with. -/
def isCode (c : Char) : Bool := c ∈ alphabet || c = '='

theorem isCode_digit (n : ℕ) : isCode (digit n) := by
  have hlt : n % 64 < alphabet.length := Nat.mod_lt _ (by decide)
  have hmem : digit n ∈ alphabet := by
    rw [digit, List.getD_eq_getElem _ _ hlt]
    exact List.getElem_mem hlt
  simp [isCode, hmem]

theorem isCode_of_mem_encodeBytes (bytes : List UInt8) :
    ∀ c ∈ encodeBytes bytes, isCode c := by
  have hpad : isCode '=' := by decide
  fun_induction encodeBytes bytes with
  | case1 a b c rest n ih => simpa [isCode_digit] using ih
  | case2 a b n => simp [isCode_digit, hpad]
  | case3 a n => simp [isCode_digit, hpad]
  | case4 => simp

/-! ## Decoding -/

def value (c : Char) : Option ℕ :=
  let i := alphabet.idxOf c
  if i < alphabet.length then some i else none

/-- The bytes that a text encodes: groups of four characters, of which the last one may be
padded. -/
def decode : List Char → Option (List UInt8)
  | a :: b :: c :: d :: rest => do
    let x ← value a
    let y ← value b
    if c = '=' ∧ d = '=' ∧ rest = [] then
      return [UInt8.ofNat ((x * 64 + y) / 16)]
    else if d = '=' ∧ rest = [] then
      let z ← value c
      let n := (x * 64 + y) * 64 + z
      return [UInt8.ofNat (n / 1024), UInt8.ofNat (n / 4 % 256)]
    else
      let z ← value c
      let w ← value d
      let n := ((x * 64 + y) * 64 + z) * 64 + w
      let bytes ← decode rest
      return UInt8.ofNat (n / 65536) :: UInt8.ofNat (n / 256 % 256) ::
        UInt8.ofNat (n % 256) :: bytes
  | [] => some []
  | _ => none

theorem value_digit (n : ℕ) : value (digit n) = some (n % 64) := by
  have hlt : n % 64 < alphabet.length := Nat.mod_lt _ (by decide)
  have hnodup : alphabet.Nodup := by decide +kernel
  have hidx : alphabet.idxOf (digit n) = n % 64 := by
    rw [digit, List.getD_eq_getElem _ _ hlt]
    exact hnodup.idxOf_getElem _ hlt
  simp only [value, hidx, hlt, if_true]

theorem digit_ne_pad (n : ℕ) : digit n ≠ '=' := by
  intro h
  have hvalue := value_digit n
  rw [h] at hvalue
  exact absurd hvalue (by simp [show value '=' = none by decide])

theorem ofNat_of_eq {n : ℕ} {a : UInt8} (h : n = a.toNat) : UInt8.ofNat n = a := by
  rw [h, UInt8.ofNat_toNat]

/-- What is encoded is decoded again. -/
theorem decode_encodeBytes (bytes : List UInt8) : decode (encodeBytes bytes) = some bytes := by
  fun_induction encodeBytes bytes with
  | case1 a b c rest n ih =>
    have ha := a.toNat_lt
    have hb := b.toNat_lt
    have hc := c.toNat_lt
    have hn : ((n / 262144 % 64 * 64 + n / 4096 % 64) * 64 + n / 64 % 64) * 64 + n % 64 = n := by
      omega
    simp only [decode, value_digit, digit_ne_pad, ih, false_and, if_false, Option.bind_eq_bind,
      Option.bind_some, hn, pure]
    rw [ofNat_of_eq (a := a) (by omega), ofNat_of_eq (a := b) (by omega),
      ofNat_of_eq (a := c) (by omega)]
  | case2 a b n =>
    have ha := a.toNat_lt
    have hb := b.toNat_lt
    simp only [decode, value_digit, digit_ne_pad, false_and, and_self, if_false, if_true,
      Option.bind_eq_bind, Option.bind_some, pure]
    rw [ofNat_of_eq (a := a) (by omega), ofNat_of_eq (a := b) (by omega)]
  | case3 a n =>
    have ha := a.toNat_lt
    simp only [decode, value_digit, and_self, if_true, Option.bind_eq_bind, Option.bind_some, pure]
    rw [ofNat_of_eq (a := a) (by omega)]
  | case4 => rfl

theorem nul_notMem_encode (s : String) : '\x00' ∉ (encode s).toList := by
  intro h
  rw [encode, String.toList_ofList] at h
  exact absurd (isCode_of_mem_encodeBytes _ _ h) (by decide)

end Base64
