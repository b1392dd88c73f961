/-
# JSON as Python reads and writes it

`json.loads` and `json.dumps` with their defaults, on lists of characters:
escapes to ASCII on the way out; `NaN` and the infinities, the limit on the
digits of an integer, and the last of equal keys on the way in. A float is its
double value. A string may hold surrogates, which come of escapes; in a key,
nothing looks for them. What is written is printable ASCII (`printable_dumps`),
and is read back as it was (`loads_dumps`), but for two surrogates that make up
a character.

Key definitions: `Json`, `Json.dumps`, `Json.loads`, `Json.tooLong`, `Json.Plain`, `Json.Raw`.
Key theorems: `Json.loads_dumps`, `Json.loads_dumps_str`, `Json.printable_dumps`, `Json.scanString_raw`.
-/
import Sgm.Lib.Dict
import Sgm.Lib.PyStr
import Sgm.Lib.Text

namespace Sgm

/-! ### Doubles -/

/-- A double, without the sign of zero. -/
inductive PyFloat
  | finite (q : ℚ)
  | inf
  | negInf
  | nan
  deriving DecidableEq

namespace PyFloat

/-- To the nearest integer, ties to even. -/
def roundHalfEven (q : ℚ) : ℤ :=
  let f := ⌊q⌋
  if q - f < 1 / 2 then f else if 1 / 2 < q - f then f + 1 else if f % 2 = 0 then f else f + 1

/-- The nearest double. -/
def ofRat (q : ℚ) : PyFloat :=
  let e := max (Int.log 2 |q| - 52) (-1074)
  let x : ℚ := roundHalfEven (q / 2 ^ e) * 2 ^ e
  if |x| < 2 ^ 1024 then .finite x else if 0 < q then .inf else .negInf

/-- Digits and exponent of the shortest decimal that reads as `q`, for a
positive double `q`. -/
def shortest (q : ℚ) : ℕ × ℤ :=
  let e := Int.log 10 q
  let digits (k : ℕ) : ℕ := (roundHalfEven (q / 10 ^ (e - (k : ℤ)))).toNat
  let k := ((List.range 17).find? fun k =>
    ofRat (digits k * 10 ^ (e - (k : ℤ))) = .finite q).getD 16
  (digits k, e - k)

/-- Digits without trailing zeros, with the power of ten of the last one. -/
def trimZeros : ℕ → ℕ × ℤ → ℕ × ℤ
  | 0, p => p
  | n + 1, (d, e) => if d % 10 = 0 ∧ d ≠ 0 then trimZeros n (d / 10, e + 1) else (d, e)

/-- `float.__repr__` of a positive double. -/
def reprPos (q : ℚ) : List Char :=
  let (d, e) := trimZeros 20 (shortest q)
  let ds := Nat.toDigits 10 d
  let point : ℤ := ds.length + e
  if -4 < point ∧ point ≤ 16 then
    if point ≤ 0 then "0.".toList ++ List.replicate (-point).toNat '0' ++ ds
    else if 0 ≤ e then ds ++ List.replicate e.toNat '0' ++ ".0".toList
    else ds.take point.toNat ++ '.' :: ds.drop point.toNat
  else
    let x := point - 1
    let xs := Nat.toDigits 10 x.natAbs
    let mantissa := if ds.length = 1 then ds else ds.take 1 ++ '.' :: ds.drop 1
    mantissa ++ 'e' :: (if x < 0 then '-' else '+') :: (List.replicate (2 - xs.length) '0' ++ xs)

def repr : PyFloat → List Char
  | .nan => "NaN".toList
  | .inf => "Infinity".toList
  | .negInf => "-Infinity".toList
  | .finite q => if q = 0 then "0.0".toList else if q < 0 then '-' :: reprPos (-q) else reprPos q

/-- `q + x` -/
def addRat (q : ℚ) : PyFloat → PyFloat
  | .finite x => .finite (q + x)
  | x => x

/-- `x < q`, which no number is of `nan`. -/
def ltRat : PyFloat → ℚ → Bool
  | .finite x, q => x < q
  | .negInf, _ => true
  | .inf, _ | .nan, _ => false

theorem ltRat_addRat_mono {x : PyFloat} {q q' t t' : ℚ} (hq : q ≤ q') (ht : t' ≤ t)
    (h : (x.addRat q).ltRat t = false) : (x.addRat q').ltRat t' = false := by
  cases x with
  | finite x =>
    simp only [addRat, ltRat, decide_eq_false_iff_not, not_lt] at h ⊢
    linarith
  | negInf => cases h
  | inf | nan => rfl

/-- `int(x)`, which rounds towards zero; `none` where it raises. -/
def toInt : PyFloat → Option ℤ
  | .finite q => some (if q < 0 then -⌊-q⌋ else ⌊q⌋)
  | _ => none

end PyFloat

/-! ### Values -/

/-- A JSON value as Python has it. -/
inductive Json
  | null
  | bool (b : Bool)
  | int (n : ℤ)
  | float (x : PyFloat)
  | str (s : PyStr)
  | arr (items : List Json)
  | obj (fields : List (List Char × Json))

namespace Json

instance : Inhabited Json := ⟨.null⟩

/-- A string that is text. -/
abbrev text (t : List Char) : Json := .str (.ofText t)

/-- `key in d` and `d[key]`. -/
def field? (fields : List (List Char × Json)) (key : List Char) : Option Json :=
  (fields.find? (·.1 = key)).map Prod.snd

/-- `d[key] = v`. -/
def setField (fields : List (List Char × Json)) (key : List Char) (v : Json) :
    List (List Char × Json) := Dict.assign key v fields

theorem field?_setField (fields : List (List Char × Json)) (k k' : List Char) (v : Json) :
    field? (setField fields k v) k' = if k' = k then some v else field? fields k' :=
  Dict.find?_assign k k' v fields

/-- `bool(v)`. -/
def truthy : Json → Bool
  | .null => false
  | .bool b => b
  | .int n => n ≠ 0
  | .float x => x ≠ .finite 0
  | .str s => s ≠ []
  | .arr l => !l.isEmpty
  | .obj fs => !fs.isEmpty

/-- `int(v)`; `none` where it raises. -/
def toInt : Json → Option ℤ
  | .int n => some n
  | .bool b => some (if b then 1 else 0)
  | .float x => x.toInt
  | .str s => s.toText?.bind Text.parseInt
  | _ => none

/-! ### Writing -/

/-- A digit of a number in base at most 16. -/
def hexDigit (n : ℕ) : Char := Nat.digitChar n

/-- `\uXXXX`. -/
def unicodeEscape (n : ℕ) : List Char :=
  ['\\', 'u', hexDigit (n / 4096 % 16), hexDigit (n / 256 % 16), hexDigit (n / 16 % 16),
    hexDigit (n % 16)]

def escape (c : Char) : List Char :=
  if c = '"' then ['\\', '"']
  else if c = '\\' then ['\\', '\\']
  else if c = '\n' then ['\\', 'n']
  else if c = '\r' then ['\\', 'r']
  else if c = '\t' then ['\\', 't']
  else if c = '\x08' then ['\\', 'b']
  else if c = '\x0c' then ['\\', 'f']
  else if 32 ≤ c.toNat ∧ c.toNat ≤ 126 then [c]
  else if c.toNat < 65536 then unicodeEscape c.toNat
  else unicodeEscape (0xd800 + (c.toNat - 65536) / 1024) ++
    unicodeEscape (0xdc00 + (c.toNat - 65536) % 1024)

def nullText : List Char := ['n', 'u', 'l', 'l']

def trueText : List Char := ['t', 'r', 'u', 'e']

def falseText : List Char := ['f', 'a', 'l', 's', 'e']

def escapeChar : PyChar → List Char
  | .char c => escape c
  | .surrogate n => unicodeEscape (0xd800 + n.val)

def dumpsStr (s : PyStr) : List Char := '"' :: (s.flatMap escapeChar ++ ['"'])

def dumpsInt (n : ℤ) : List Char :=
  if n < 0 then '-' :: Nat.toDigits 10 n.natAbs else Nat.toDigits 10 n.natAbs

mutual

/-- `json.dumps`, with the separators `, ` and `: `. -/
def dumps : Json → List Char
  | .null => nullText
  | .bool b => if b then trueText else falseText
  | .int n => dumpsInt n
  | .float x => x.repr
  | .str s => dumpsStr s
  | .arr l => '[' :: dumpsItems l
  | .obj fs => '{' :: dumpsFields fs

def dumpsItems : List Json → List Char
  | [] => [']']
  | j :: l =>
    match l with
    | [] => dumps j ++ [']']
    | _ :: _ => dumps j ++ ',' :: ' ' :: dumpsItems l

def dumpsFields : List (List Char × Json) → List Char
  | [] => ['}']
  | (k, j) :: l =>
    match l with
    | [] => dumpsStr (.ofText k) ++ ':' :: ' ' :: (dumps j ++ ['}'])
    | _ :: _ => dumpsStr (.ofText k) ++ ':' :: ' ' :: (dumps j ++ ',' :: ' ' :: dumpsFields l)

end

/-! ### Reading -/

def isWs (c : Char) : Bool := c = ' ' || c = '\t' || c = '\n' || c = '\r'

def skipWs (l : List Char) : List Char := l.dropWhile isWs

def hexVal? (c : Char) : Option ℕ :=
  if '0' ≤ c ∧ c ≤ '9' then some (c.toNat - 48)
  else if 'a' ≤ c ∧ c ≤ 'f' then some (c.toNat - 87)
  else if 'A' ≤ c ∧ c ≤ 'F' then some (c.toNat - 55)
  else none

def hex4? (a b c d : Char) : Option ℕ := do
  let a ← hexVal? a
  let b ← hexVal? b
  let c ← hexVal? c
  let d ← hexVal? d
  some (((a * 16 + b) * 16 + c) * 16 + d)

def simpleEscape? (c : Char) : Option Char :=
  if c = '"' then some '"'
  else if c = '\\' then some '\\'
  else if c = '/' then some '/'
  else if c = 'b' then some '\x08'
  else if c = 'f' then some '\x0c'
  else if c = 'n' then some '\n'
  else if c = 'r' then some '\r'
  else if c = 't' then some '\t'
  else none

/-- An escaped code unit. -/
def unitChar (u : ℕ) : PyChar :=
  if h : 0xd800 ≤ u ∧ u < 0xe000 then .surrogate ⟨u - 0xd800, by omega⟩ else .char (Char.ofNat u)

/-- The characters and escaped code units of a string after its opening quote,
and what follows it. -/
def scanUnits : List Char → Option (PyStr × List Char)
  | [] => none
  | c :: l =>
    if c = '"' then some ([], l)
    else if c = '\\' then
      match l with
      | 'u' :: a :: b :: c :: d :: l =>
        match hex4? a b c d with
        | some u => (scanUnits l).map fun (s, rest) => (unitChar u :: s, rest)
        | none => none
      | e :: l =>
        match simpleEscape? e with
        | some c => (scanUnits l).map fun (s, rest) => (.char c :: s, rest)
        | none => none
      | [] => none
    else if c.toNat < 32 then none
    else (scanUnits l).map fun (s, rest) => (.char c :: s, rest)

/-- A string after its opening quote. A pair of surrogates is one character. -/
def scanString (l : List Char) : Option (PyStr × List Char) :=
  (scanUnits l).map fun (s, rest) => (s.join, rest)

/-- The exponent of a number, if there is one. -/
def scanExponent (l : List Char) : Option (ℤ × List Char) :=
  match l with
  | c :: l =>
    if c = 'e' ∨ c = 'E' then
      let (sign, l) : ℤ × List Char :=
        match l with
        | '-' :: l => (-1, l)
        | '+' :: l => (1, l)
        | l => (1, l)
      match l.span Char.isDigit with
      | ([], _) => none
      | (ds, rest) => some (sign * Nat.ofDigitChars 10 ds 0, rest)
    else none
  | [] => none

/-- The fraction of a number, if there is one. -/
def scanFraction (l : List Char) : Option (List Char × List Char) :=
  match l with
  | '.' :: l =>
    match l.span Char.isDigit with
    | ([], _) => none
    | (ds, rest) => some (ds, rest)
  | _ => none

/-- A number after its sign. An integer with more digits than `int` converts is
refused. -/
def scanUnsigned (negative : Bool) (l : List Char) : Option (Json × List Char) :=
  let (ds, rest) :=
    match l with
    | '0' :: l => (['0'], l)
    | l => l.span Char.isDigit
  if ds = [] then none
  else
    let sign : ℤ := if negative then -1 else 1
    let (frac, rest') := (scanFraction rest).getD ([], rest)
    match scanExponent rest' with
    | some (e, rest'') =>
      some (.float (.ofRat (sign * Nat.ofDigitChars 10 (ds ++ frac) 0 * 10 ^ (e - (frac.length : ℤ)))), rest'')
    | none =>
      if frac ≠ [] then
        some (.float (.ofRat (sign * Nat.ofDigitChars 10 (ds ++ frac) 0 * 10 ^ (-(frac.length : ℤ)))), rest')
      else if ds.length ≤ Text.maxStrDigits then some (.int (sign * Nat.ofDigitChars 10 ds 0), rest)
      else none

def keywords : List (List Char × Json) :=
  [(nullText, .null), (trueText, .bool true), (falseText, .bool false),
    ("NaN".toList, .float .nan), ("Infinity".toList, .float .inf),
    ("-Infinity".toList, .float .negInf)]

/-- A value that is not a string, an array or an object. -/
def scanAtom (l : List Char) : Option (Json × List Char) :=
  match keywords.find? fun kw => kw.1.isPrefixOf l with
  | some (w, j) => some (j, l.drop w.length)
  | none =>
    match l with
    | '-' :: l => scanUnsigned true l
    | l => scanUnsigned false l

mutual

/-- A value at the head of the text, and what follows it. -/
def scanOnce : ℕ → List Char → Option (Json × List Char)
  | 0, _ => none
  | n + 1, l =>
    match l with
    | '"' :: l => (scanString l).map fun (s, rest) => (.str s, rest)
    | '[' :: l =>
      match skipWs l with
      | ']' :: rest => some (.arr [], rest)
      | l => (scanItems n l).map fun (items, rest) => (.arr items, rest)
    | '{' :: l =>
      match skipWs l with
      | '}' :: rest => some (.obj [], rest)
      | l => (scanFields n l).map fun (fs, rest) =>
          (.obj (fs.foldl (fun d (k, v) => setField d k v) []), rest)
    | l => scanAtom l

def scanItems : ℕ → List Char → Option (List Json × List Char)
  | 0, _ => none
  | n + 1, l =>
    match scanOnce n l with
    | none => none
    | some (j, rest) =>
      match skipWs rest with
      | ']' :: rest => some ([j], rest)
      | ',' :: rest => (scanItems n (skipWs rest)).map fun (items, rest) => (j :: items, rest)
      | _ => none

def scanFields : ℕ → List Char → Option (List (List Char × Json) × List Char)
  | 0, _ => none
  | n + 1, l =>
    match l with
    | '"' :: l =>
      match scanString l with
      | none => none
      | some (k, rest) =>
        match skipWs rest with
        | ':' :: rest =>
          match scanOnce n (skipWs rest) with
          | none => none
          | some (j, rest) =>
            let k := k.toText?.getD ['\ufffd']
            match skipWs rest with
            | '}' :: rest => some ([(k, j)], rest)
            | ',' :: rest => (scanFields n (skipWs rest)).map fun (fs, rest) => ((k, j) :: fs, rest)
            | _ => none
        | _ => none
    | _ => none

end

/-- `json.loads`; `none` where it raises. -/
def loads (l : List Char) : Option Json :=
  match scanOnce (l.length + 1) (skipWs l) with
  | some (j, rest) => if skipWs rest = [] then some j else none
  | none => none

/-! ### Integers that are too long

`json.loads` raises a `JSONDecodeError` on what is no JSON, and a plain
`ValueError` when it comes to an integer of more digits than `int` converts.
-/

def longAtom (l : List Char) : Bool :=
  let digits := match l with
    | '-' :: l => l.takeWhile Char.isDigit
    | l => l.takeWhile Char.isDigit
  (scanAtom l).isNone && decide (Text.maxStrDigits < digits.length)

mutual

def longOnce : ℕ → List Char → Bool
  | 0, _ => false
  | n + 1, l =>
    match l with
    | '"' :: _ => false
    | '[' :: l =>
      match skipWs l with
      | ']' :: _ => false
      | l => longItems n l
    | '{' :: l =>
      match skipWs l with
      | '}' :: _ => false
      | l => longFields n l
    | l => longAtom l

def longItems : ℕ → List Char → Bool
  | 0, _ => false
  | n + 1, l =>
    match scanOnce n l with
    | none => longOnce n l
    | some (_, rest) =>
      match skipWs rest with
      | ',' :: rest => longItems n (skipWs rest)
      | _ => false

def longFields : ℕ → List Char → Bool
  | 0, _ => false
  | n + 1, l =>
    match l with
    | '"' :: l =>
      match scanString l with
      | none => false
      | some (_, rest) =>
        match skipWs rest with
        | ':' :: rest =>
          match scanOnce n (skipWs rest) with
          | none => longOnce n (skipWs rest)
          | some (_, rest) =>
            match skipWs rest with
            | ',' :: rest => longFields n (skipWs rest)
            | _ => false
        | _ => false
    | _ => false

end

/-- Where `json.loads` raises, whether it is for an integer that is too long. -/
def tooLong (l : List Char) : Bool := longOnce (l.length + 1) (skipWs l)

/-! ### What is written is read back -/

/-- An integer of no more digits than are read. -/
structure Short (n : ℤ) : Prop where
  length_le : (Nat.toDigits 10 n.natAbs).length ≤ Text.maxStrDigits

instance (n : ℤ) : Decidable (Short n) :=
  decidable_of_iff ((Nat.toDigits 10 n.natAbs).length ≤ Text.maxStrDigits)
    ⟨fun h => ⟨h⟩, Short.length_le⟩

mutual

/-- Without floats, surrogates that make up a character, equal keys, and integers
of more digits than are read. -/
def Plain : Json → Prop
  | .float _ => False
  | .int n => Short n
  | .str s => s.Unpaired
  | .arr l => PlainItems l
  | .obj fs => PlainFields fs ∧ (fs.map Prod.fst).Nodup
  | _ => True

def PlainItems : List Json → Prop
  | [] => True
  | j :: l => Plain j ∧ PlainItems l

def PlainFields : List (List Char × Json) → Prop
  | [] => True
  | (_, j) :: l => Plain j ∧ PlainFields l

end

theorem hexVal_hexDigit : ∀ d < 16, hexVal? (hexDigit d) = some d := by decide

theorem hex4_unicodeEscape {n : ℕ} (h : n < 65536) :
    hex4? (hexDigit (n / 4096 % 16)) (hexDigit (n / 256 % 16)) (hexDigit (n / 16 % 16))
      (hexDigit (n % 16)) = some n := by
  simp only [hex4?, hexVal_hexDigit _ (Nat.mod_lt _ (by decide : 0 < 16)), Option.bind_eq_bind,
    Option.bind_some]
  congr 1
  omega

theorem scanUnits_quote (l : List Char) : scanUnits ('"' :: l) = some ([], l) := by
  rw [scanUnits.eq_def]
  rfl

theorem scanUnits_char {c : Char} (h1 : c ≠ '"') (h2 : c ≠ '\\') (h3 : 32 ≤ c.toNat) (l : List Char) :
    scanUnits (c :: l) = (scanUnits l).map fun (s, rest) => (.char c :: s, rest) := by
  rw [scanUnits.eq_def]
  simp only [if_neg h1, if_neg h2, if_neg (show ¬ c.toNat < 32 by omega)]

theorem unitChar_toNat (c : Char) : unitChar c.toNat = .char c := by
  have hvalid : c.toNat < 0xd800 ∨ 0xdfff < c.toNat ∧ c.toNat < 0x110000 := c.valid
  rw [unitChar, dif_neg (by omega), Char.ofNat_toNat]

theorem unitChar_surrogate (n : Fin 2048) : unitChar (0xd800 + n.val) = .surrogate n := by
  have hn := n.isLt
  have h : 0xd800 ≤ 0xd800 + n.val ∧ 0xd800 + n.val < 0xe000 := by omega
  rw [unitChar, dif_pos h, PyChar.surrogate.injEq]
  exact Fin.ext (Nat.add_sub_cancel_left _ _)

theorem scanUnits_unicodeEscape {n : ℕ} (h : n < 65536) (l : List Char) :
    scanUnits (unicodeEscape n ++ l) = (scanUnits l).map fun (s, rest) => (unitChar n :: s, rest) := by
  simp only [unicodeEscape, List.cons_append, List.nil_append, scanUnits, hex4_unicodeEscape h]
  rfl

theorem toNat_lt (c : Char) : c.toNat < 0x110000 := by
  have h := c.valid
  have h2 : c.toNat = c.val.toNat := rfl
  simp only [UInt32.isValidChar, Nat.isValidChar] at h
  omega

/-- A character is written as a backslash and a letter, as itself, or as one
code unit or two. -/
theorem escape_cases (c : Char) :
    (∃ e, e ≠ 'u' ∧ (32 ≤ e.toNat ∧ e.toNat ≤ 126) ∧ simpleEscape? e = some c ∧ c.toNat < 65536 ∧
      escape c = ['\\', e]) ∨
    (c ≠ '"' ∧ c ≠ '\\' ∧ (32 ≤ c.toNat ∧ c.toNat ≤ 126) ∧ escape c = [c]) ∨
    (c.toNat < 65536 ∧ escape c = unicodeEscape c.toNat) ∨
    (65536 ≤ c.toNat ∧ escape c = unicodeEscape (0xd800 + (c.toNat - 65536) / 1024) ++
      unicodeEscape (0xdc00 + (c.toNat - 65536) % 1024)) := by
  unfold escape
  by_cases h1 : c = '"'
  · exact Or.inl ⟨'"', by decide, by decide, by rw [h1]; rfl, by rw [h1]; decide, if_pos h1⟩
  rw [if_neg h1]
  by_cases h2 : c = '\\'
  · exact Or.inl ⟨'\\', by decide, by decide, by rw [h2]; rfl, by rw [h2]; decide, if_pos h2⟩
  rw [if_neg h2]
  by_cases h3 : c = '\n'
  · exact Or.inl ⟨'n', by decide, by decide, by rw [h3]; rfl, by rw [h3]; decide, if_pos h3⟩
  rw [if_neg h3]
  by_cases h4 : c = '\r'
  · exact Or.inl ⟨'r', by decide, by decide, by rw [h4]; rfl, by rw [h4]; decide, if_pos h4⟩
  rw [if_neg h4]
  by_cases h5 : c = '\t'
  · exact Or.inl ⟨'t', by decide, by decide, by rw [h5]; rfl, by rw [h5]; decide, if_pos h5⟩
  rw [if_neg h5]
  by_cases h6 : c = '\x08'
  · exact Or.inl ⟨'b', by decide, by decide, by rw [h6]; rfl, by rw [h6]; decide, if_pos h6⟩
  rw [if_neg h6]
  by_cases h7 : c = '\x0c'
  · exact Or.inl ⟨'f', by decide, by decide, by rw [h7]; rfl, by rw [h7]; decide, if_pos h7⟩
  rw [if_neg h7]
  by_cases h8 : 32 ≤ c.toNat ∧ c.toNat ≤ 126
  · exact Or.inr (Or.inl ⟨h1, h2, h8, if_pos h8⟩)
  rw [if_neg h8]
  by_cases h9 : c.toNat < 65536
  · exact Or.inr (Or.inr (Or.inl ⟨h9, if_pos h9⟩))
  · exact Or.inr (Or.inr (Or.inr ⟨by omega, if_neg h9⟩))

theorem units_small {c : Char} (h : c.toNat < 65536) : PyStr.units (.char c) = [.char c] := dif_pos h

/-- The two units of a character that is written as a pair. -/
theorem units_large {c : Char} (h : ¬ c.toNat < 65536) :
    PyStr.units (.char c) = [unitChar (0xd800 + (c.toNat - 65536) / 1024),
      unitChar (0xdc00 + (c.toNat - 65536) % 1024)] := by
  have hvalid : c.toNat < 0xd800 ∨ 0xdfff < c.toNat ∧ c.toNat < 0x110000 := c.valid
  have hhigh := unitChar_surrogate ⟨(c.toNat - 65536) / 1024, by omega⟩
  have hlow := unitChar_surrogate ⟨1024 + (c.toNat - 65536) % 1024, by omega⟩
  have hsum : 0xdc00 + (c.toNat - 65536) % 1024 = 0xd800 + (1024 + (c.toNat - 65536) % 1024) := by omega
  rw [hsum, hhigh, hlow, PyStr.units, dif_neg h]

theorem scanUnits_escape (c : Char) (l : List Char) :
    scanUnits (escape c ++ l) =
      (scanUnits l).map fun (s, rest) => (PyStr.units (.char c) ++ s, rest) := by
  rcases escape_cases c with ⟨e, hu, -, he, hc, h⟩ | ⟨h1, h2, h3, h⟩ | ⟨hc, h⟩ | ⟨hc, h⟩
  · rw [h, units_small hc]
    simp only [List.cons_append, List.nil_append]
    rw [scanUnits]
    simp only [if_true, if_false, Char.reduceEq]
    split
    · simp_all
    · simp_all
    · simp_all
  · rw [h, units_small (by omega), List.cons_append, List.nil_append, scanUnits_char h1 h2 h3.1]
    rfl
  · rw [h, scanUnits_unicodeEscape hc, units_small hc, unitChar_toNat]
    rfl
  · have hlt := toNat_lt c
    rw [h, List.append_assoc, scanUnits_unicodeEscape (by omega), scanUnits_unicodeEscape (by omega),
      units_large (by omega), Option.map_map]
    rfl

theorem scanUnits_escapeChar (c : PyChar) (l : List Char) :
    scanUnits (escapeChar c ++ l) = (scanUnits l).map fun (s, rest) => (PyStr.units c ++ s, rest) := by
  cases c with
  | char c => exact scanUnits_escape c l
  | surrogate n =>
    have hn := n.isLt
    rw [escapeChar, scanUnits_unicodeEscape (by omega), unitChar_surrogate]
    rfl

theorem scanUnits_escapes (s : PyStr) (l : List Char) :
    scanUnits (s.flatMap escapeChar ++ '"' :: l) = some (s.split, l) := by
  induction s with
  | nil => exact scanUnits_quote l
  | cons c s ih =>
    rw [List.flatMap_cons, List.append_assoc, scanUnits_escapeChar, ih]
    rfl

/-- What is written is read with its pairs joined. -/
theorem scanString_escapes (s : PyStr) (l : List Char) :
    scanString (s.flatMap escapeChar ++ '"' :: l) = some (s.join, l) := by
  simp only [scanString, scanUnits_escapes, Option.map_some, PyStr.join_split]

/-! ### Text without escapes -/

/-- Text that stands in a string as it is. -/
def Raw (w : List Char) : Prop := ∀ c ∈ w, c ≠ '"' ∧ c ≠ '\\' ∧ 32 ≤ c.toNat

theorem scanUnits_raw {w : List Char} (h : Raw w) (l : List Char) :
    scanUnits (w ++ '"' :: l) = some (.ofText w, l) := by
  induction w with
  | nil => exact scanUnits_quote l
  | cons c w ih =>
    obtain ⟨⟨h1, h2, h3⟩, hw⟩ := List.forall_mem_cons.mp h
    rw [List.cons_append, scanUnits_char h1 h2 h3, ih hw]
    rfl

theorem scanString_raw {w : List Char} (h : Raw w) (l : List Char) :
    scanString (w ++ '"' :: l) = some (.ofText w, l) := by
  simp only [scanString, scanUnits_raw h, Option.map_some,
    PyStr.join_of_unpaired (PyStr.unpaired_ofText w)]

/-! ### Numbers -/

/-- What may follow a number: nothing that continues it. -/
def Boundary (rest : List Char) : Prop :=
  ∀ c ∈ rest.head?, c.isDigit = false ∧ c ≠ '.' ∧ c ≠ 'e' ∧ c ≠ 'E'

theorem span_digits {ds rest : List Char} (h : ∀ c ∈ ds, c.isDigit = true)
    (hr : ∀ c ∈ rest.head?, c.isDigit = false) : (ds ++ rest).span Char.isDigit = (ds, rest) := by
  rw [List.span_eq_takeWhile_dropWhile, List.takeWhile_append_of_pos h, List.dropWhile_append_of_pos h]
  cases rest with
  | nil => simp
  | cons c rest =>
    have hc := hr c rfl
    rw [List.takeWhile_cons_of_neg (by simp [hc]), List.dropWhile_cons_of_neg (by simp [hc]),
      List.append_nil]

/-- Only zero is written with a leading zero. -/
theorem head_toDigits : ∀ n : ℕ, 0 < n → ∃ c l, Nat.toDigits 10 n = c :: l ∧ c ≠ '0' := by
  intro n
  induction n using Nat.strong_induction_on with
  | _ n ih =>
    intro hn
    by_cases hlt : n < 10
    · refine ⟨n.digitChar, [], Nat.toDigits_of_lt_base hlt, ?_⟩
      rw [Ne, Nat.digitChar_eq_zero]
      omega
    · obtain ⟨c, l, hl, hc⟩ := ih (n / 10) (by omega) (by omega)
      rw [Nat.toDigits_of_base_le (by decide) (by omega), hl]
      exact ⟨c, l ++ _, rfl, hc⟩

theorem isDigit_toDigits (n : ℕ) : ∀ c ∈ Nat.toDigits 10 n, c.isDigit = true :=
  fun _ hc => Nat.isDigit_of_mem_toDigits (by decide) (by decide) hc

theorem scanFraction_boundary {rest : List Char} (h : Boundary rest) : scanFraction rest = none := by
  unfold scanFraction
  split
  · exact absurd rfl (h '.' rfl).2.1
  · rfl

theorem scanExponent_boundary {rest : List Char} (h : Boundary rest) : scanExponent rest = none := by
  unfold scanExponent
  split
  · rename_i c l
    rw [if_neg]
    rintro (rfl | rfl)
    · exact (h _ rfl).2.2.1 rfl
    · exact (h _ rfl).2.2.2 rfl
  · rfl

theorem scanUnsigned_toDigits {n : ℕ} {rest : List Char} (negative : Bool) (hr : Boundary rest)
    (hn : (Nat.toDigits 10 n).length ≤ Text.maxStrDigits) :
    scanUnsigned negative (Nat.toDigits 10 n ++ rest) =
      some (.int ((if negative then -1 else 1) * (n : ℤ)), rest) := by
  have hspan : (match Nat.toDigits 10 n ++ rest with
      | '0' :: l => (['0'], l)
      | l => l.span Char.isDigit) = (Nat.toDigits 10 n, rest) := by
    rcases Nat.eq_zero_or_pos n with rfl | hpos
    · rfl
    · obtain ⟨c, l, hl, hc⟩ := head_toDigits n hpos
      rw [hl, List.cons_append]
      split
      · simp_all
      · rw [← List.cons_append, ← hl]
        exact span_digits (isDigit_toDigits n) fun c hc => (hr c hc).1
  unfold scanUnsigned
  rw [hspan]
  simp only [Nat.toDigits_ne_nil, if_false, scanFraction_boundary hr, Option.getD_none,
    scanExponent_boundary hr, ne_eq, not_true_eq_false, if_pos hn]
  rw [Nat.ofDigitChars_ten_toDigits]

/-- A number is no keyword. -/
theorem keywords_digit {c : Char} (hc : c.isDigit = true) (l : List Char) :
    (keywords.find? fun kw => kw.1.isPrefixOf (c :: l)) = none ∧
    (keywords.find? fun kw => kw.1.isPrefixOf ('-' :: c :: l)) = none := by
  have hne : ∀ d : Char, d.isDigit = false → (d == c) = false := by
    rintro d hd
    rw [beq_eq_false_iff_ne]
    rintro rfl
    rw [hc] at hd
    cases hd
  constructor
  · simp [keywords, nullText, trueText, falseText, List.isPrefixOf, hne 'n', hne 't', hne 'f', hne 'N',
      hne 'I', hne '-']
  · simp [keywords, nullText, trueText, falseText, List.isPrefixOf, hne 'I']

theorem scanAtom_dumpsInt {n : ℤ} {rest : List Char} (hr : Boundary rest)
    (hn : (Nat.toDigits 10 n.natAbs).length ≤ Text.maxStrDigits) :
    scanAtom (dumpsInt n ++ rest) = some (.int n, rest) := by
  obtain ⟨c, l, hl⟩ := List.exists_cons_of_ne_nil (@Nat.toDigits_ne_nil n.natAbs 10)
  have hc : c.isDigit = true := isDigit_toDigits n.natAbs c (by simp [hl])
  have hdash : c ≠ '-' := by
    rintro rfl
    cases hc
  unfold dumpsInt scanAtom
  split_ifs with hneg
  · rw [hl, List.cons_append, List.cons_append, (keywords_digit hc _).2]
    simp only
    rw [← List.cons_append, ← hl, scanUnsigned_toDigits true hr hn]
    congr 3
    simp only [if_true]
    omega
  · rw [hl, List.cons_append, (keywords_digit hc _).1]
    simp only
    split
    · simp_all
    · rw [← List.cons_append, ← hl, scanUnsigned_toDigits false hr hn]
      congr 3
      simp only [if_false, Bool.false_eq_true]
      omega

/-! ### Values -/

/-- Text that begins with neither whitespace nor a closing bracket. -/
def Opens (l : List Char) : Prop := ∃ c t, l = c :: t ∧ isWs c = false ∧ c ≠ ']' ∧ c ≠ '}'

theorem Opens.append {l : List Char} (h : Opens l) (r : List Char) : Opens (l ++ r) := by
  obtain ⟨c, t, rfl, hc⟩ := h
  exact ⟨c, t ++ r, rfl, hc⟩

theorem Opens.skipWs {l : List Char} (h : Opens l) : skipWs l = l := by
  obtain ⟨c, t, rfl, hc, -⟩ := h
  rw [Json.skipWs, List.dropWhile_cons_of_neg (by simp [hc])]

theorem isDigit_opens {c : Char} (h : c.isDigit = true) : isWs c = false ∧ c ≠ ']' ∧ c ≠ '}' := by
  have hne : ∀ d : Char, d.isDigit = false → c ≠ d := by
    rintro d hd rfl
    rw [h] at hd
    cases hd
  refine ⟨?_, hne _ rfl, hne _ rfl⟩
  simp [isWs, hne ' ', hne '\t', hne '\n', hne '\r']

theorem opens_dumpsInt (n : ℤ) : Opens (dumpsInt n) ∧
    ∀ r, ∀ c ∈ (dumpsInt n ++ r).head?, c ≠ '"' ∧ c ≠ '[' ∧ c ≠ '{' := by
  obtain ⟨c, l, hl⟩ := List.exists_cons_of_ne_nil (@Nat.toDigits_ne_nil n.natAbs 10)
  have hc : c.isDigit = true := isDigit_toDigits n.natAbs c (by rw [hl]; exact List.mem_cons_self)
  unfold dumpsInt
  rw [hl]
  split_ifs
  · refine ⟨⟨'-', c :: l, rfl, by decide⟩, fun r d hd => ?_⟩
    obtain rfl : '-' = d := Option.some.inj hd
    decide
  · refine ⟨⟨c, l, rfl, isDigit_opens hc⟩, fun r d hd => ?_⟩
    obtain rfl : c = d := Option.some.inj hd
    refine ⟨?_, ?_, ?_⟩ <;>
      · rintro rfl
        cases hc

theorem opens_dumps (j : Json) (hj : j.Plain) : Opens (dumps j) := by
  cases j with
  | null =>
    rw [dumps]
    exact ⟨'n', _, rfl, by decide⟩
  | bool b =>
    rw [dumps]
    cases b <;> exact ⟨_, _, rfl, by decide⟩
  | int n =>
    rw [dumps]
    exact (opens_dumpsInt n).1
  | float x => simp [Plain] at hj
  | str s =>
    simp only [dumps, dumpsStr]
    exact ⟨'"', _, rfl, by decide⟩
  | arr l =>
    simp only [dumps]
    exact ⟨'[', _, rfl, by decide⟩
  | obj fs =>
    simp only [dumps]
    exact ⟨'{', _, rfl, by decide⟩

theorem boundary_of_punctuation {c : Char} (h : c = ',' ∨ c = ']' ∨ c = '}') (l : List Char) :
    Boundary (c :: l) := by
  intro d hd
  obtain rfl : c = d := by simpa using hd
  rcases h with rfl | rfl | rfl <;> decide

/-- Reading key by key gives the fields, when no two keys are equal. -/
theorem foldl_setField (fs d : List (List Char × Json)) (h : ((d ++ fs).map Prod.fst).Nodup) :
    fs.foldl (fun d (k, v) => setField d k v) d = d ++ fs := by
  induction fs generalizing d with
  | nil => simp
  | cons f fs ih =>
    obtain ⟨k, v⟩ := f
    have hk : k ∉ d.map Prod.fst := by
      intro hmem
      rw [List.map_append, List.nodup_append] at h
      exact h.2.2 k hmem k (by simp) rfl
    have happ : setField d k v = d ++ [(k, v)] := by
      clear h ih
      induction d with
      | nil => rfl
      | cons p d ihd =>
        obtain ⟨k', v'⟩ := p
        simp only [List.map_cons, List.mem_cons, not_or] at hk
        have := ihd hk.2
        simp only [setField, Dict.assign] at this ⊢
        rw [if_neg (Ne.symm hk.1), this]
        rfl
    rw [List.foldl_cons]
    simp only
    rw [happ, ih _ (by simpa using h)]
    simp

theorem scanOnce_atom {n : ℕ} {l : List Char}
    (h : ∀ c ∈ l.head?, c ≠ '"' ∧ c ≠ '[' ∧ c ≠ '{') : scanOnce (n + 1) l = scanAtom l := by
  rw [scanOnce.eq_def]
  simp only
  split
  · exact absurd rfl (h '"' rfl).1
  · exact absurd rfl (h '[' rfl).2.1
  · exact absurd rfl (h '{' rfl).2.2
  · rfl

/-- The keywords are read. -/
theorem scanOnce_keyword {n : ℕ} (rest : List Char) :
    scanOnce (n + 1) (nullText ++ rest) = some (.null, rest) ∧
    scanOnce (n + 1) (trueText ++ rest) = some (.bool true, rest) ∧
    scanOnce (n + 1) (falseText ++ rest) = some (.bool false, rest) := by
  refine ⟨?_, ?_, ?_⟩ <;> rw [scanOnce_atom (by simp [nullText, trueText, falseText])] <;>
    simp [scanAtom, keywords, List.isPrefixOf, nullText, trueText, falseText]

theorem scanOnce_arr {n : ℕ} {l : List Char} {c : Char} {t : List Char} (h : skipWs l = c :: t)
    (hc : c ≠ ']') : scanOnce (n + 1) ('[' :: l) =
      (scanItems n (c :: t)).map fun (items, rest) => (.arr items, rest) := by
  rw [scanOnce.eq_def]
  simp only [h]
  split
  · simp_all
  · rfl

theorem scanOnce_obj {n : ℕ} {l t : List Char} (h : skipWs l = '"' :: t) :
    scanOnce (n + 1) ('{' :: l) = (scanFields n ('"' :: t)).map fun (fs, rest) =>
      (.obj (fs.foldl (fun d (k, v) => setField d k v) []), rest) := by
  rw [scanOnce.eq_def]
  simp only [h]
  split
  · simp_all
  · rfl

theorem scanOnce_raw {n : ℕ} {w : List Char} (h : Raw w) (l : List Char) :
    scanOnce (n + 1) ('"' :: (w ++ '"' :: l)) = some (.text w, l) := by
  rw [scanOnce]
  simp only [scanString_raw h, Option.map_some]

/-- The last field of an object. -/
theorem scanFields_last {n : ℕ} {k l rest : List Char} {j : Json} (hk : Raw k)
    (hl : scanOnce n (skipWs l) = some (j, '}' :: rest)) :
    scanFields (n + 1) ('"' :: (k ++ '"' :: ':' :: l)) = some ([(k, j)], rest) := by
  rw [scanFields]
  simp only [scanString_raw hk, show skipWs (':' :: l) = ':' :: l from rfl, hl,
    show skipWs ('}' :: rest) = '}' :: rest from rfl, PyStr.toText?_ofText, Option.getD_some]

/-- A field of an object, and another one. -/
theorem scanFields_more {n : ℕ} {k l rest : List Char} {j : Json} (hk : Raw k)
    (hl : scanOnce n (skipWs l) = some (j, ',' :: rest)) :
    scanFields (n + 1) ('"' :: (k ++ '"' :: ':' :: l)) =
      (scanFields n (skipWs rest)).map fun (fs, rest) => ((k, j) :: fs, rest) := by
  rw [scanFields]
  simp only [scanString_raw hk, show skipWs (':' :: l) = ':' :: l from rfl, hl,
    show skipWs (',' :: rest) = ',' :: rest from rfl, PyStr.toText?_ofText, Option.getD_some]

mutual

theorem scanOnce_dumps : ∀ (j : Json) (n : ℕ) (rest : List Char), j.Plain →
    (dumps j).length ≤ n → Boundary rest → scanOnce n (dumps j ++ rest) = some (j, rest)
  | j, 0, rest, hj, hn, _ => by
    obtain ⟨c, t, ht, -⟩ := opens_dumps j hj
    rw [ht] at hn
    simp at hn
  | .null, n + 1, rest, _, _, _ => by
    rw [dumps]
    exact (scanOnce_keyword rest).1
  | .bool b, n + 1, rest, _, _, _ => by
    rw [dumps]
    cases b
    · exact (scanOnce_keyword rest).2.2
    · exact (scanOnce_keyword rest).2.1
  | .int k, n + 1, rest, hj, _, hr => by
    simp only [dumps]
    rw [scanOnce_atom ((opens_dumpsInt k).2 rest)]
    rw [Plain] at hj
    exact scanAtom_dumpsInt hr hj.length_le
  | .float _, _, _, hj, _, _ => by simp [Plain] at hj
  | .str s, n + 1, rest, hj, _, _ => by
    rw [Plain] at hj
    simp only [dumps, dumpsStr, List.cons_append, List.append_assoc, List.nil_append, scanOnce,
      scanString_escapes, PyStr.join_of_unpaired hj]
    rfl
  | .arr [], n + 1, rest, _, _, _ => rfl
  | .arr (j :: l), n + 1, rest, hj, hn, _ => by
    simp only [dumps, List.length_cons] at hn
    rw [Plain] at hj
    have hop : Opens (dumpsItems (j :: l) ++ rest) := by
      have := opens_dumps j hj.1
      cases l <;> simp only [dumpsItems] <;> exact (this.append _).append rest
    have hitems := scanItems_dumps j l n rest hj (by omega)
    obtain ⟨c, t, ht, -, hc, -⟩ := id hop
    simp only [dumps, List.cons_append]
    rw [scanOnce_arr (hop.skipWs.trans ht) hc, ← ht, hitems]
    rfl
  | .obj [], n + 1, rest, _, _, _ => rfl
  | .obj ((k, j) :: fs), n + 1, rest, hj, hn, _ => by
    simp only [dumps, List.length_cons] at hn
    rw [Plain] at hj
    have hfields := scanFields_dumps k j fs n rest hj.1 (by omega)
    obtain ⟨t, ht⟩ : ∃ t, dumpsFields ((k, j) :: fs) ++ rest = '"' :: t := by
      cases fs <;> exact ⟨_, rfl⟩
    simp only [dumps, List.cons_append]
    rw [ht] at hfields ⊢
    rw [@scanOnce_obj n _ t rfl, hfields, Option.map_some]
    simp only
    rw [foldl_setField _ _ (by simpa using hj.2)]
    rfl
  termination_by j => sizeOf j

theorem scanItems_dumps : ∀ (j : Json) (l : List Json) (n : ℕ) (rest : List Char),
    PlainItems (j :: l) → (dumpsItems (j :: l)).length ≤ n →
    scanItems n (dumpsItems (j :: l) ++ rest) = some (j :: l, rest)
  | j, [], n, rest, hj, hn => by
    simp only [dumpsItems, List.length_append, List.length_singleton] at hn
    obtain ⟨n, rfl⟩ : ∃ k, n = k + 1 := ⟨n - 1, by omega⟩
    simp only [dumpsItems, List.append_assoc, List.cons_append, List.nil_append, scanItems]
    rw [scanOnce_dumps j n (']' :: rest) hj.1 (by omega) (boundary_of_punctuation (by simp) _)]
    rfl
  | j, j' :: l, n, rest, hj, hn => by
    simp only [dumpsItems, List.length_append, List.length_cons] at hn
    obtain ⟨n, rfl⟩ : ∃ k, n = k + 1 := ⟨n - 1, by omega⟩
    have hitems := scanItems_dumps j' l n rest hj.2 (by simp only [dumpsItems]; omega)
    have hop : Opens (dumpsItems (j' :: l) ++ rest) := by
      have := opens_dumps j' hj.2.1
      cases l <;> simp only [dumpsItems] <;> exact (this.append _).append rest
    rw [dumpsItems]
    simp only [List.append_assoc, List.cons_append, scanItems]
    rw [scanOnce_dumps j n _ hj.1 (by omega) (boundary_of_punctuation (by simp) _)]
    simp only
    rw [show skipWs (',' :: ' ' :: (dumpsItems (j' :: l) ++ rest)) =
      ',' :: ' ' :: (dumpsItems (j' :: l) ++ rest) from rfl]
    simp only
    rw [show skipWs (' ' :: (dumpsItems (j' :: l) ++ rest)) =
      skipWs (dumpsItems (j' :: l) ++ rest) from rfl, hop.skipWs, hitems]
    rfl
  termination_by j l => sizeOf (j :: l)

theorem scanFields_dumps : ∀ (k : List Char) (j : Json) (fs : List (List Char × Json)) (n : ℕ)
    (rest : List Char), PlainFields ((k, j) :: fs) → (dumpsFields ((k, j) :: fs)).length ≤ n →
    scanFields n (dumpsFields ((k, j) :: fs) ++ rest) = some ((k, j) :: fs, rest)
  | k, j, [], n, rest, hj, hn => by
    simp only [dumpsFields, dumpsStr, List.length_append, List.length_cons] at hn
    obtain ⟨n, rfl⟩ : ∃ k, n = k + 1 := ⟨n - 1, by omega⟩
    have hop := opens_dumps j hj.1
    simp only [dumpsFields, dumpsStr, List.append_assoc, List.cons_append, List.nil_append, scanFields,
      scanString_escapes, PyStr.join_of_unpaired (PyStr.unpaired_ofText k), PyStr.toText?_ofText, Option.getD_some]
    rw [show skipWs (':' :: ' ' :: (dumps j ++ '}' :: rest)) =
      ':' :: ' ' :: (dumps j ++ '}' :: rest) from rfl]
    simp only
    rw [show skipWs (' ' :: (dumps j ++ '}' :: rest)) = skipWs (dumps j ++ '}' :: rest) from rfl,
      (hop.append _).skipWs,
      scanOnce_dumps j n ('}' :: rest) hj.1 (by omega) (boundary_of_punctuation (by simp) _)]
    rfl
  | k, j, (k', j') :: fs, n, rest, hj, hn => by
    simp only [dumpsFields, dumpsStr, List.length_append, List.length_cons] at hn
    obtain ⟨n, rfl⟩ : ∃ k, n = k + 1 := ⟨n - 1, by omega⟩
    have hfields := scanFields_dumps k' j' fs n rest hj.2
      (by simp only [dumpsFields, dumpsStr]; omega)
    have hop := opens_dumps j hj.1
    have hq : ∃ t, dumpsFields ((k', j') :: fs) ++ rest = '"' :: t := by
      cases fs <;> exact ⟨_, rfl⟩
    rw [dumpsFields]
    simp only [dumpsStr, List.append_assoc, List.cons_append, List.nil_append, scanFields,
      scanString_escapes, PyStr.join_of_unpaired (PyStr.unpaired_ofText k), PyStr.toText?_ofText, Option.getD_some]
    generalize dumpsFields ((k', j') :: fs) ++ rest = tail at hfields hq
    rw [show skipWs (':' :: ' ' :: (dumps j ++ ',' :: ' ' :: tail)) =
      ':' :: ' ' :: (dumps j ++ ',' :: ' ' :: tail) from rfl]
    simp only
    rw [show skipWs (' ' :: (dumps j ++ ',' :: ' ' :: tail)) =
      skipWs (dumps j ++ ',' :: ' ' :: tail) from rfl, (hop.append _).skipWs,
      scanOnce_dumps j n _ hj.1 (by omega) (boundary_of_punctuation (by simp) _)]
    simp only
    rw [show skipWs (',' :: ' ' :: tail) = ',' :: ' ' :: tail from rfl]
    simp only
    obtain ⟨t, rfl⟩ := hq
    rw [show skipWs (' ' :: '"' :: t) = '"' :: t from rfl, hfields]
    rfl
  termination_by k j fs => sizeOf ((k, j) :: fs)

end

/-- What `dumps` writes, `loads` reads back. -/
theorem loads_dumps {j : Json} (h : j.Plain) : loads (dumps j) = some j := by
  have hscan := scanOnce_dumps j ((dumps j).length + 1) [] h (Nat.le_succ _) (by simp [Boundary])
  rw [List.append_nil] at hscan
  rw [loads, (opens_dumps j h).skipWs, hscan]
  rfl

/-- Of a string the pairs are joined. -/
theorem loads_dumps_str (s : PyStr) : loads (dumps (.str s)) = some (.str s.join) := by
  have hscan : scanString (s.flatMap escapeChar ++ ['"']) = some (s.join, []) := scanString_escapes s []
  have hskip : skipWs (dumps (.str s)) = dumps (.str s) := rfl
  rw [loads, hskip]
  simp only [dumps, dumpsStr, scanOnce, hscan, Option.map_some]
  rfl

theorem loads_dumps_str_iff {s : PyStr} : loads (dumps (.str s)) = some (.str s) ↔ s.Unpaired := by
  rw [loads_dumps_str, Option.some.injEq, str.injEq]
  exact ⟨fun h => h ▸ PyStr.unpaired_join s, PyStr.join_of_unpaired⟩

/-- A character is written as its units are. -/
theorem escape_pair {c d : PyChar} {x : Char} (h : PyStr.pair? c d = some x) :
    escape x = escapeChar c ++ escapeChar d := by
  cases c with
  | char y => cases h
  | surrogate m =>
    cases d with
    | char y => cases h
    | surrogate n =>
      rw [PyStr.pair?] at h
      split_ifs at h with hmn
      obtain rfl := Option.some.inj h
      have hm := m.isLt
      have hn := n.isLt
      generalize hx : Char.ofNat (65536 + m.val * 1024 + (n.val - 1024)) = x
      have hnat : x.toNat = 65536 + m.val * 1024 + (n.val - 1024) := by
        rw [← hx, Char.toNat_ofNat, if_pos]
        exact Or.inr ⟨by omega, by omega⟩
      have hhigh : 0xd800 + (x.toNat - 65536) / 1024 = 0xd800 + m.val := by omega
      have hlow : 0xdc00 + (x.toNat - 65536) % 1024 = 0xd800 + n.val := by omega
      rcases escape_cases x with ⟨-, -, -, -, hc, -⟩ | ⟨-, -, hc, -⟩ | ⟨hc, -⟩ | ⟨-, he⟩
      · omega
      · omega
      · omega
      · rw [hhigh, hlow] at he
        exact he

/-- Strings with the same pairs are written alike. -/
theorem dumpsStr_join (s : PyStr) : dumpsStr s.join = dumpsStr s := by
  have hflat : s.join.flatMap escapeChar = s.flatMap escapeChar := by
    induction s using PyStr.join.induct with
    | case1 => rfl
    | case2 c => rfl
    | case3 c d s x hx ih =>
      rw [PyStr.join_pair hx, List.flatMap_cons, ih, escapeChar, escape_pair hx, List.flatMap_cons,
        List.flatMap_cons, List.append_assoc]
    | case4 c d s hx ih =>
      rw [PyStr.join, hx]
      simp only
      rw [List.flatMap_cons, ih]
      rfl
  rw [dumpsStr, hflat, dumpsStr]

/-! ### What is written is printable ASCII -/

def Printable (l : List Char) : Prop := ∀ c ∈ l, 32 ≤ c.toNat ∧ c.toNat ≤ 126

theorem Printable.append {l r : List Char} (hl : Printable l) (hr : Printable r) :
    Printable (l ++ r) := fun c hc => (List.mem_append.mp hc).elim (hl c) (hr c)

theorem Printable.cons {c : Char} {l : List Char} (hc : 32 ≤ c.toNat ∧ c.toNat ≤ 126)
    (hl : Printable l) : Printable (c :: l) := fun d hd => by
  rcases List.mem_cons.mp hd with rfl | hd
  · exact hc
  · exact hl d hd

theorem printable_hexDigit : ∀ d < 16, 32 ≤ (hexDigit d).toNat ∧ (hexDigit d).toNat ≤ 126 := by
  decide

theorem printable_unicodeEscape (n : ℕ) : Printable (unicodeEscape n) := by
  have h : ∀ m : ℕ, 32 ≤ (hexDigit (m % 16)).toNat ∧ (hexDigit (m % 16)).toNat ≤ 126 :=
    fun m => printable_hexDigit _ (Nat.mod_lt m (by decide))
  intro c hc
  simp only [unicodeEscape, List.mem_cons, List.not_mem_nil, or_false] at hc
  rcases hc with rfl | rfl | rfl | rfl | rfl | rfl
  · decide
  · decide
  all_goals exact h _

theorem printable_escape (c : Char) : Printable (escape c) := by
  rcases escape_cases c with ⟨e, -, he, -, -, h⟩ | ⟨-, -, hc, h⟩ | ⟨-, h⟩ | ⟨-, h⟩
  · rw [h]
    exact Printable.cons (by decide) (List.forall_mem_singleton.mpr he)
  · rw [h]
    exact List.forall_mem_singleton.mpr hc
  · rw [h]
    exact printable_unicodeEscape _
  · rw [h]
    exact (printable_unicodeEscape _).append (printable_unicodeEscape _)

theorem printable_escapeChar : ∀ c : PyChar, Printable (escapeChar c)
  | .char c => printable_escape c
  | .surrogate _ => printable_unicodeEscape _

theorem printable_dumpsStr (s : PyStr) : Printable (dumpsStr s) := by
  refine Printable.cons (by decide) (Printable.append ?_ (by simp [Printable]))
  intro c hc
  obtain ⟨d, -, hd⟩ := List.mem_flatMap.mp hc
  exact printable_escapeChar d c hd

theorem toNat_of_isDigit {c : Char} (h : c.isDigit = true) : 48 ≤ c.toNat ∧ c.toNat ≤ 57 := by
  simp only [Char.isDigit, Bool.and_eq_true, decide_eq_true_eq, ge_iff_le, UInt32.le_iff_toNat_le] at h
  have h1 : c.toNat = c.val.toNat := rfl
  have h2 : '0'.val.toNat = 48 := rfl
  have h3 : '9'.val.toNat = 57 := rfl
  omega

theorem printable_toDigits (n : ℕ) : Printable (Nat.toDigits 10 n) := by
  intro c hc
  have h := toNat_of_isDigit (isDigit_toDigits n c hc)
  omega

theorem printable_dumpsInt (n : ℤ) : Printable (dumpsInt n) := by
  unfold dumpsInt
  split
  · exact Printable.cons (by decide) (printable_toDigits _)
  · exact printable_toDigits _

mutual

theorem printable_dumps : ∀ j : Json, j.Plain → Printable (dumps j)
  | .null, _ => by
    rw [dumps]
    simp [Printable, nullText]
  | .bool b, _ => by
    rw [dumps]
    cases b <;> simp [Printable, trueText, falseText]
  | .int n, _ => by
    rw [dumps]
    exact printable_dumpsInt n
  | .float _, h => by simp [Plain] at h
  | .str s, _ => by
    rw [dumps]
    exact printable_dumpsStr s
  | .arr l, h => by
    rw [dumps]
    rw [Plain] at h
    exact Printable.cons (by decide) (printable_dumpsItems l h)
  | .obj fs, h => by
    rw [dumps]
    rw [Plain] at h
    exact Printable.cons (by decide) (printable_dumpsFields fs h.1)

theorem printable_dumpsItems : ∀ l : List Json, PlainItems l → Printable (dumpsItems l)
  | [], _ => by simp [Printable, dumpsItems]
  | [j], h => by
    rw [dumpsItems]
    exact (printable_dumps j h.1).append (by simp [Printable])
  | j :: j' :: l, h => by
    rw [dumpsItems]
    exact (printable_dumps j h.1).append (Printable.cons (by decide)
      (Printable.cons (by decide) (printable_dumpsItems (j' :: l) h.2)))

theorem printable_dumpsFields : ∀ fs : List (List Char × Json), PlainFields fs →
    Printable (dumpsFields fs)
  | [], _ => by simp [Printable, dumpsFields]
  | [(k, j)], h => by
    rw [dumpsFields]
    exact (printable_dumpsStr _).append (Printable.cons (by decide) (Printable.cons (by decide)
      ((printable_dumps j h.1).append (by simp [Printable]))))
  | (k, j) :: (k', j') :: fs, h => by
    rw [dumpsFields]
    exact (printable_dumpsStr _).append (Printable.cons (by decide) (Printable.cons (by decide)
      ((printable_dumps j h.1).append (Printable.cons (by decide) (Printable.cons (by decide)
        (printable_dumpsFields ((k', j') :: fs) h.2))))))

end

theorem isSpace_dumpsInt (n : ℤ) : ∀ c ∈ dumpsInt n, Text.isSpace c = false := by
  have hd : ∀ c : Char, c.isDigit = true → Text.isSpace c = false := by
    intro c hc
    have h := toNat_of_isDigit hc
    simp only [Text.isSpace, Bool.or_eq_false_iff, Bool.and_eq_false_iff, decide_eq_false_iff_not]
    omega
  intro c hc
  unfold dumpsInt at hc
  split at hc
  · rcases List.mem_cons.mp hc with rfl | hc
    · decide
    · exact hd c (isDigit_toDigits _ c hc)
  · exact hd c (isDigit_toDigits _ c hc)

theorem trimmed_dumpsInt (n : ℤ) : Text.Trimmed (dumpsInt n) :=
  ⟨fun c hc => isSpace_dumpsInt n c (List.mem_of_mem_head? hc),
    fun c hc => isSpace_dumpsInt n c (List.mem_of_getLast? hc)⟩

theorem dumpsFields_concat : ∀ fs : List (List Char × Json), ∃ t, dumpsFields fs = t ++ ['}']
  | [] => ⟨[], rfl⟩
  | [(k, j)] => ⟨dumpsStr (.ofText k) ++ ':' :: ' ' :: dumps j, by simp [dumpsFields]⟩
  | (k, j) :: (k', j') :: fs => by
    obtain ⟨t, ht⟩ := dumpsFields_concat ((k', j') :: fs)
    refine ⟨dumpsStr (.ofText k) ++ ':' :: ' ' :: (dumps j ++ ',' :: ' ' :: t), ?_⟩
    rw [dumpsFields, ht]
    simp

theorem trimmed_dumps_obj (fs : List (List Char × Json)) : Text.Trimmed (dumps (.obj fs)) := by
  obtain ⟨t, ht⟩ := dumpsFields_concat fs
  rw [dumps]
  constructor
  · intro c hc
    obtain rfl : '{' = c := Option.some.inj hc
    decide
  · intro c hc
    rw [ht, ← List.cons_append, List.getLast?_concat] at hc
    obtain rfl : '}' = c := Option.some.inj hc
    decide

/-- Numbers below `2 ^ 63` have few digits. -/
theorem short_of_lt {n : ℤ} (h0 : 0 ≤ n) (h : n < 2 ^ 63) : Short n := by
  refine ⟨(?_ : _ ≤ 19).trans (by decide)⟩
  rw [Nat.length_toDigits_le_iff (by decide) (by decide)]
  omega

end Json
end Sgm
