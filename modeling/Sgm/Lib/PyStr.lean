/-
# Strings with surrogates

A Python string is a list of code points, and a surrogate is one of them: it can
be made by an escape in JSON, and cannot be encoded. Text has none. Two
surrogates may stand for one character; where code units are put together they
become this character (`join`), and a string without such two is left as it is.

Key definitions: `PyChar`, `PyStr`, `PyStr.ofText`, `PyStr.toText?`, `PyStr.Unpaired`,
`PyStr.join`.
Key theorems: `PyStr.toText?_ofText`, `PyStr.unpaired_ofText`, `PyStr.join_split`,
`PyStr.join_of_unpaired`, `PyStr.unpaired_join`.
-/
import Mathlib

namespace Sgm

/-- A character of a Python string. -/
inductive PyChar
  | char (c : Char)
  /-- the surrogate `0xd800 + n` -/
  | surrogate (n : Fin 2048)
  deriving DecidableEq, Repr

abbrev PyStr := List PyChar

namespace PyStr

/-! ### Text -/

/-- The string of a text. -/
def ofText (t : List Char) : PyStr := t.map .char

/-- The text of a string, if it has no surrogates. -/
def toText? : PyStr → Option (List Char)
  | [] => some []
  | .char c :: s => (toText? s).map (c :: ·)
  | .surrogate _ :: _ => none

def ofString (s : String) : PyStr := ofText s.toList

instance : Coe String PyStr := ⟨ofString⟩

theorem ofText_cons (c : Char) (t : List Char) : ofText (c :: t) = .char c :: ofText t := rfl

theorem ofText_append (t t' : List Char) : ofText (t ++ t') = ofText t ++ ofText t' := List.map_append

theorem ofText_prefix_iff {t t' : List Char} : ofText t <+: ofText t' ↔ t <+: t' :=
  List.prefix_map_iff_of_injective fun _ _ h => PyChar.char.inj h

theorem ofText_flatten (ts : List (List Char)) : ofText ts.flatten = (ts.map ofText).flatten :=
  List.map_flatten

@[simp] theorem toText?_ofText (t : List Char) : toText? (ofText t) = some t := by
  induction t with
  | nil => rfl
  | cons c t ih => rw [ofText_cons, toText?, ih, Option.map_some]

/-! ### Pairs of surrogates -/

/-- The character that two surrogates make up, a high one and a low one. -/
def pair? : PyChar → PyChar → Option Char
  | .surrogate m, .surrogate n =>
    if m.val < 1024 ∧ 1024 ≤ n.val then
      some (Char.ofNat (65536 + m.val * 1024 + (n.val - 1024)))
    else none
  | _, _ => none

/-- No two surrogates make up a character. -/
def Unpaired (s : PyStr) : Prop := s.IsChain fun a b => pair? a b = none

instance (s : PyStr) : Decidable s.Unpaired :=
  inferInstanceAs (Decidable (s.IsChain fun a b => pair? a b = none))

theorem Unpaired.text_append {s : PyStr} (h : s.Unpaired) (t : List Char) : (ofText t ++ s).Unpaired := by
  induction t with
  | nil => exact h
  | cons c t ih => exact List.isChain_cons.mpr ⟨fun _ _ => rfl, ih⟩

theorem unpaired_ofText (t : List Char) : Unpaired (ofText t) := by
  have hnil : Unpaired [] := List.isChain_nil
  have ht := hnil.text_append t
  rwa [List.append_nil] at ht

/-- Every pair becomes its character. -/
def join : PyStr → PyStr
  | [] => []
  | [c] => [c]
  | c :: d :: s =>
    match pair? c d with
    | some x => .char x :: join s
    | none => c :: join (d :: s)

theorem join_cons {c : PyChar} {s : PyStr} (h : ∀ d ∈ s.head?, pair? c d = none) :
    join (c :: s) = c :: join s := by
  cases s with
  | nil => rfl
  | cons d s =>
    rw [join, h d rfl]

theorem join_pair {c d : PyChar} {x : Char} (h : pair? c d = some x) (s : PyStr) :
    join (c :: d :: s) = .char x :: join s := by
  rw [join, h]

theorem join_of_unpaired {s : PyStr} (h : s.Unpaired) : join s = s := by
  induction s with
  | nil => rfl
  | cons c s ih =>
    obtain ⟨hc, hs⟩ := List.isChain_cons.mp h
    rw [join_cons hc, ih hs]

/-- The first character stays, or a pair is joined. -/
theorem head_join {d e : PyChar} {s : PyStr} (h : e ∈ (join (d :: s)).head?) : e = d ∨ ∃ x, e = .char x := by
  cases s with
  | nil => exact Or.inl (Option.some.inj h).symm
  | cons c s =>
    rw [join] at h
    split at h
    · exact Or.inr ⟨_, (Option.some.inj h).symm⟩
    · exact Or.inl (Option.some.inj h).symm

theorem unpaired_join (s : PyStr) : (join s).Unpaired := by
  induction s using join.induct with
  | case1 => exact List.isChain_nil
  | case2 c => exact List.isChain_singleton c
  | case3 c d s x hx ih =>
    rw [join_pair hx]
    exact List.isChain_cons.mpr ⟨fun _ _ => rfl, ih⟩
  | case4 c d s hx ih =>
    rw [join, hx]
    refine List.isChain_cons.mpr ⟨fun e he => ?_, ih⟩
    rcases head_join he with rfl | ⟨x, rfl⟩
    · exact hx
    · cases c <;> rfl

/-! ### Code units -/

/-- The code units of a character in UTF-16: one, or two surrogates. -/
def units : PyChar → PyStr
  | .surrogate n => [.surrogate n]
  | .char c =>
    if h : c.toNat < 65536 then [.char c]
    else
      have hc : c.toNat < 0x110000 := by
        have hvalid : c.toNat < 0xd800 ∨ 0xdfff < c.toNat ∧ c.toNat < 0x110000 := c.valid
        omega
      [.surrogate ⟨(c.toNat - 65536) / 1024, by omega⟩,
        .surrogate ⟨1024 + (c.toNat - 65536) % 1024, by omega⟩]

def split (s : PyStr) : PyStr := s.flatMap units

theorem join_units_char (c : Char) (s : PyStr) : join (units (.char c) ++ s) = .char c :: join s := by
  rw [units]
  split_ifs with h
  · exact join_cons fun d _ => rfl
  · have hc : c.toNat < 0xd800 ∨ 0xdfff < c.toNat ∧ c.toNat < 0x110000 := c.valid
    have hpair : pair? (.surrogate ⟨(c.toNat - 65536) / 1024, by omega⟩)
        (.surrogate ⟨1024 + (c.toNat - 65536) % 1024, by omega⟩) = some c := by
      rw [pair?, if_pos ⟨by simp only; omega, by simp only; omega⟩]
      simp only
      rw [show 65536 + (c.toNat - 65536) / 1024 * 1024 +
        (1024 + (c.toNat - 65536) % 1024 - 1024) = c.toNat by omega, Char.ofNat_toNat]
    exact join_pair hpair s

/-- Nothing is made a pair with the first unit of a character. -/
theorem pair?_units {c d e : PyChar} (h : pair? c d = none) (he : e ∈ (units d).head?) :
    pair? c e = none := by
  cases d with
  | surrogate n =>
    obtain rfl : PyChar.surrogate n = e := Option.some.inj he
    exact h
  | char x =>
    have hx : x.toNat < 0xd800 ∨ 0xdfff < x.toNat ∧ x.toNat < 0x110000 := x.valid
    rw [units] at he
    split_ifs at he
    · obtain rfl : PyChar.char x = e := Option.some.inj he
      cases c <;> rfl
    · obtain rfl := Option.some.inj he
      cases c with
      | char _ => rfl
      | surrogate m => exact if_neg fun hm => by simp only at hm; omega

theorem head?_split_cons (d : PyChar) (s : PyStr) : (split (d :: s)).head? = (units d).head? := by
  cases d with
  | surrogate n => rfl
  | char x =>
    rw [split, List.flatMap_cons, units]
    split_ifs <;> rfl

/-- What was split is joined again. -/
theorem join_split (s : PyStr) : join (split s) = join s := by
  induction s using join.induct with
  | case1 => rfl
  | case2 c =>
    cases c with
    | surrogate n => rfl
    | char x => exact join_units_char x []
  | case3 c d s x hx ih =>
    cases c with
    | char y => cases hx
    | surrogate m =>
      cases d with
      | char y => cases hx
      | surrogate n =>
        have hsplit : split (.surrogate m :: .surrogate n :: s) = .surrogate m :: .surrogate n :: split s := rfl
        rw [hsplit, join_pair hx, ih, join_pair hx]
  | case4 c d s hx ih =>
    have hcons : split (c :: d :: s) = units c ++ split (d :: s) := rfl
    rw [hcons, join, hx]
    simp only
    cases c with
    | char y => rw [join_units_char, ih]
    | surrogate m =>
      rw [units, List.singleton_append, join_cons fun e he => ?_, ih]
      rw [head?_split_cons] at he
      exact pair?_units hx he

end PyStr
end Sgm
