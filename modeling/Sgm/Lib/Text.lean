/-
# Text

Python's text operations that the modelled code uses, on lists of characters:
whitespace and `strip`, `int` of a string, and UTF-8.

Key definitions: `Text.strip`, `Text.parseInt`, `Text.encodeUtf8`, `Text.decodeUtf8`.
Key theorems: `Text.strip_pad`, `Text.decode_encode`, `Text.encodeUtf8_ascii`.
-/
import Mathlib

namespace Sgm
namespace Text

/-! ### Whitespace -/

/-- `str.isspace` of one character. -/
def isSpace (c : Char) : Bool :=
  let n := c.toNat
  (9 ≤ n && n ≤ 13) || (28 ≤ n && n ≤ 32) || n = 0x85 || n = 0xa0 || n = 0x1680 ||
    (0x2000 ≤ n && n ≤ 0x200a) || n = 0x2028 || n = 0x2029 || n = 0x202f || n = 0x205f || n = 0x3000

def strip (l : List Char) : List Char := (l.dropWhile isSpace).rdropWhile isSpace

/-- Text that neither begins nor ends with whitespace. -/
def Trimmed (l : List Char) : Prop :=
  (∀ c ∈ l.head?, isSpace c = false) ∧ ∀ c ∈ l.getLast?, isSpace c = false

theorem strip_of_trimmed {l : List Char} (h : Trimmed l) : strip l = l := by
  have h1 : l.dropWhile isSpace = l := by
    cases l with
    | nil => rfl
    | cons c l => rw [List.dropWhile_cons_of_neg (by simp [h.1 c rfl])]
  rw [strip, h1]
  rcases List.eq_nil_or_concat l with rfl | ⟨l', c, rfl⟩
  · rfl
  · rw [List.concat_eq_append] at h ⊢
    rw [List.rdropWhile_concat_neg _ _ _ (by simp [h.2 c (by simp)])]

/-- Whitespace around trimmed text goes. -/
theorem strip_pad {p l q : List Char} (h : Trimmed l) (hl : l ≠ []) (hp : ∀ c ∈ p, isSpace c = true)
    (hq : ∀ c ∈ q, isSpace c = true) : strip (p ++ (l ++ q)) = l := by
  have h1 : (p ++ (l ++ q)).dropWhile isSpace = l ++ q := by
    rw [List.dropWhile_append_of_pos hp]
    cases l with
    | nil => exact absurd rfl hl
    | cons c l => rw [List.cons_append, List.dropWhile_cons_of_neg (by simp [h.1 c rfl])]
  rw [strip, h1]
  have h2 : (l ++ q).rdropWhile isSpace = l.rdropWhile isSpace := by
    unfold List.rdropWhile
    rw [List.reverse_append, List.dropWhile_append_of_pos (by simpa using hq)]
  have h3 := strip_of_trimmed h
  rw [h2]
  rcases List.eq_nil_or_concat l with rfl | ⟨l', c, rfl⟩
  · rfl
  · rw [List.concat_eq_append] at h ⊢
    rw [List.rdropWhile_concat_neg _ _ _ (by simp [h.2 c (by simp)])]

/-! ### Integers -/

/-- The zeros of the decimal digits of Unicode (category Nd): each begins a run
of ten. -/
def decimalZeros : List ℕ :=
  [0x30, 0x660, 0x6f0, 0x7c0, 0x966, 0x9e6, 0xa66, 0xae6, 0xb66, 0xbe6, 0xc66, 0xce6, 0xd66, 0xde6,
    0xe50, 0xed0, 0xf20, 0x1040, 0x1090, 0x17e0, 0x1810, 0x1946, 0x19d0, 0x1a80, 0x1a90, 0x1b50,
    0x1bb0, 0x1c40, 0x1c50, 0xa620, 0xa8d0, 0xa900, 0xa9d0, 0xa9f0, 0xaa50, 0xabf0, 0xff10, 0x104a0,
    0x10d30, 0x11066, 0x110f0, 0x11136, 0x111d0, 0x112f0, 0x11450, 0x114d0, 0x11650, 0x116c0,
    0x11730, 0x118e0, 0x11950, 0x11c50, 0x11d50, 0x11da0, 0x11f50, 0x16a60, 0x16ac0, 0x16b50,
    0x1d7ce, 0x1d7d8, 0x1d7e2, 0x1d7ec, 0x1d7f6, 0x1e140, 0x1e2f0, 0x1e4f0, 0x1e950, 0x1fbf0]

/-- The value of a decimal digit. -/
def decimal? (c : Char) : Option ℕ :=
  (decimalZeros.find? fun z => z ≤ c.toNat ∧ c.toNat < z + 10).map fun z => c.toNat - z

/-- Digits, with single underscores between them. -/
def digitsOf : List Char → Option (List ℕ)
  | [] => none
  | [c] => (decimal? c).map fun d => [d]
  | c :: '_' :: l => do
    let d ← decimal? c
    let ds ← digitsOf l
    some (d :: ds)
  | c :: l => do
    let d ← decimal? c
    let ds ← digitsOf l
    some (d :: ds)

/-- The most digits that `int` converts. -/
def maxStrDigits : ℕ := 4300

/-- `int(s)` of a string; `none` where it raises. -/
def parseInt (s : List Char) : Option ℤ :=
  let number (l : List Char) : Option ℕ := do
    let ds ← digitsOf l
    if ds.length ≤ maxStrDigits then some (Nat.ofDigits 10 ds.reverse) else none
  match strip s with
  | '-' :: l => (number l).map fun n => -(n : ℤ)
  | '+' :: l => (number l).map fun n => (n : ℤ)
  | l => (number l).map fun n => (n : ℤ)

/-! ### UTF-8 -/

def encodeUtf8 (l : List Char) : List UInt8 := l.flatMap String.utf8EncodeChar

/-- `bytes.decode("utf-8")`; `none` where it raises. -/
def decodeUtf8 (b : List UInt8) : Option (List Char) := b.toByteArray.utf8Decode?.map Array.toList

theorem decode_encode (l : List Char) : decodeUtf8 (encodeUtf8 l) = some l := by
  have h : (encodeUtf8 l).toByteArray = l.utf8Encode := rfl
  rw [decodeUtf8, h, List.utf8Decode?_utf8Encode]
  simp

theorem encodeUtf8_append (l l' : List Char) : encodeUtf8 (l ++ l') = encodeUtf8 l ++ encodeUtf8 l' :=
  List.flatMap_append

theorem length_encodeUtf8_le (l : List Char) : (encodeUtf8 l).length ≤ 4 * l.length := by
  unfold encodeUtf8
  induction l with
  | nil => rfl
  | cons c l ih =>
    have hc : (String.utf8EncodeChar c).length ≤ 4 := by
      rw [String.length_utf8EncodeChar]
      exact c.utf8Size_le_four
    rw [List.flatMap_cons, List.length_append, List.length_cons]
    omega

/-- An ASCII character is one byte. -/
theorem utf8EncodeChar_ascii {c : Char} (h : c.toNat < 128) :
    String.utf8EncodeChar c = [c.toUInt8] := by
  have hle : c.val ≤ 127 := by
    rw [UInt32.le_iff_toNat_le]
    have h2 : c.toNat = c.val.toNat := rfl
    have h3 : (127 : UInt32).toNat = 127 := rfl
    omega
  rw [String.utf8EncodeChar_eq_singleton (Char.utf8Size_eq_one_iff.mpr hle)]
  rfl

theorem encodeUtf8_ascii {l : List Char} (h : ∀ c ∈ l, c.toNat < 128) :
    encodeUtf8 l = l.map Char.toUInt8 := by
  unfold encodeUtf8
  induction l with
  | nil => rfl
  | cons c l ih =>
    rw [List.flatMap_cons, utf8EncodeChar_ascii (h c List.mem_cons_self),
      ih fun d hd => h d (List.mem_cons_of_mem c hd)]
    rfl

end Text
end Sgm
