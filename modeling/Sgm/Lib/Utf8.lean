/-
# Reading UTF-8 that may be broken

Python's `bytes.decode("utf-8", errors="replace")`, byte by byte. Inside a
character the reader knows the range in which the next byte must lie; where it
does not, or the bytes end there, what was read of the character comes out as
one U+FFFD. So a text whose encoding is cut into pieces that are decoded one by
one comes out whole exactly if no cut is inside a character (`Garbled`).

Key definitions: `Utf8.State`, `Utf8.step`, `Utf8.decodeReplace`, `Utf8.Garbled`.
Key theorems: `Utf8.decodeReplace_encode`, `Utf8.decodeReplace_append`, `Utf8.garbled_pieces`,
`Utf8.pieces_whole_iff`.
-/
import Sgm.Lib.Text

namespace Sgm
namespace Utf8

open Text

/-! ### The reader -/

def replacement : Char := '\ufffd'

/-- The bytes that go on with a character. -/
def Continuation (b : UInt8) : Prop := 0x80 ≤ b.toNat ∧ b.toNat < 0xc0

/-- What the next byte inside a character may be. -/
structure Range where
  lo : ℕ
  hi : ℕ
  lo_ge : 0x80 ≤ lo
  hi_lt : hi < 0xc0

def Range.any : Range := ⟨0x80, 0xbf, by decide, by decide⟩

/-- Between characters, or inside one: the bits read of it, the range of the
next byte and those of the bytes after it. -/
inductive State
  | start
  | inside (value : ℕ) (next : Range) (owed : List Range)

/-- A byte between characters. -/
def first (b : ℕ) : State × List Char :=
  if b < 0x80 then (.start, [Char.ofNat b])
  else if 0xc2 ≤ b ∧ b < 0xe0 then (.inside (b % 32) .any [], [])
  else if b = 0xe0 then (.inside 0 ⟨0xa0, 0xbf, by decide, by decide⟩ [.any], [])
  else if b = 0xed then (.inside 13 ⟨0x80, 0x9f, by decide, by decide⟩ [.any], [])
  else if 0xe1 ≤ b ∧ b < 0xf0 then (.inside (b % 16) .any [.any], [])
  else if b = 0xf0 then (.inside 0 ⟨0x90, 0xbf, by decide, by decide⟩ [.any, .any], [])
  else if 0xf1 ≤ b ∧ b < 0xf4 then (.inside (b % 8) .any [.any, .any], [])
  else if b = 0xf4 then (.inside 4 ⟨0x80, 0x8f, by decide, by decide⟩ [.any, .any], [])
  else (.start, [replacement])

def step : State → ℕ → State × List Char
  | .start, b => first b
  | .inside value next owed, b =>
    if next.lo ≤ b ∧ b ≤ next.hi then
      match owed with
      | [] => (.start, [Char.ofNat (value * 64 + b % 64)])
      | range :: owed => (.inside (value * 64 + b % 64) range owed, [])
    else ((first b).1, replacement :: (first b).2)

/-- What the end of the bytes leaves. -/
def finish : State → List Char
  | .start => []
  | .inside .. => [replacement]

def decodeFrom : State → List UInt8 → List Char
  | s, [] => finish s
  | s, b :: bs => (step s b.toNat).2 ++ decodeFrom (step s b.toNat).1 bs

/-- `bytes.decode("utf-8", errors="replace")` -/
def decodeReplace (b : List UInt8) : List Char := decodeFrom .start b

/-! ### One character -/

/-- From `s` on, the bytes are those that are owed, and end the character `c`. -/
inductive Spells (c : Char) : State → List UInt8 → Prop
  | last {s : State} {b : UInt8} (h : step s b.toNat = (.start, [c])) : Spells c s [b]
  | more {s : State} {b : UInt8} {value : ℕ} {next : Range} {owed : List Range} {bs : List UInt8}
      (h : step s b.toNat = (.inside value next owed, [])) (hs : Spells c (.inside value next owed) bs) :
      Spells c s (b :: bs)

theorem toNat_valid (c : Char) : c.val.toNat < 0xd800 ∨ 0xdfff < c.val.toNat ∧ c.val.toNat < 0x110000 :=
  c.valid

theorem toNat_ofNat {n : ℕ} (h : n < 256) : (UInt8.ofNat n).toNat = n := by
  rw [UInt8.toNat_ofNat']
  exact Nat.mod_eq_of_lt h

theorem step_last {value b v : ℕ} {next : Range} (h : next.lo ≤ b ∧ b ≤ next.hi)
    (hv : value * 64 + b % 64 = v) : step (.inside value next []) b = (.start, [Char.ofNat v]) := by
  rw [step, if_pos h, hv]

theorem step_more {value b v : ℕ} {next range : Range} {owed : List Range}
    (h : next.lo ≤ b ∧ b ≤ next.hi) (hv : value * 64 + b % 64 = v) :
    step (.inside value next (range :: owed)) b = (.inside v range owed, []) := by
  rw [step, if_pos h, hv]

theorem step_broken {value b : ℕ} {next : Range} {owed : List Range}
    (h : ¬ (next.lo ≤ b ∧ b ≤ next.hi)) :
    step (.inside value next owed) b = ((first b).1, replacement :: (first b).2) := if_neg h

theorem any_range {n : ℕ} : Range.any.lo ≤ n % 64 + 0x80 ∧ n % 64 + 0x80 ≤ Range.any.hi := by
  have hlt : n % 64 < 64 := Nat.mod_lt n (by decide)
  simp only [Range.any]
  omega

theorem first_two {n : ℕ} (h0 : 2 ≤ n) (h1 : n < 32) : first (n + 0xc0) = (.inside n .any [], []) := by
  rw [first, if_neg (by omega), if_pos (by omega), show (n + 0xc0) % 32 = n by omega]

/-- The first two of three bytes: after `0xe0` and `0xed` the second has a
range of its own. -/
theorem first_three {n : ℕ} (h0 : 32 ≤ n) (h1 : n < 1024) (hs : n < 0x360 ∨ 0x380 ≤ n) :
    ∃ next, first (n / 64 + 0xe0) = (.inside (n / 64) next [.any], []) ∧
      step (.inside (n / 64) next [.any]) (n % 64 + 0x80) = (.inside n .any [], []) := by
  have hv : n / 64 * 64 + (n % 64 + 0x80) % 64 = n := by omega
  rcases Nat.lt_or_ge n 64 with hlo | hlo
  · have hn : n / 64 = 0 := by omega
    refine ⟨⟨0xa0, 0xbf, by decide, by decide⟩, by rw [hn]; rfl, step_more ?_ hv⟩
    show 0xa0 ≤ n % 64 + 0x80 ∧ n % 64 + 0x80 ≤ 0xbf
    omega
  · by_cases hd : n / 64 = 13
    · refine ⟨⟨0x80, 0x9f, by decide, by decide⟩, by rw [hd]; rfl, step_more ?_ hv⟩
      show 0x80 ≤ n % 64 + 0x80 ∧ n % 64 + 0x80 ≤ 0x9f
      omega
    · refine ⟨.any, ?_, step_more any_range hv⟩
      rw [first, if_neg (by omega), if_neg (by omega), if_neg (by omega), if_neg (by omega),
        if_pos (by omega), show (n / 64 + 0xe0) % 16 = n / 64 by omega]

/-- The first two of four bytes: after `0xf0` and `0xf4` the second has a range
of its own. -/
theorem first_four {n : ℕ} (h0 : 16 ≤ n) (h1 : n < 0x110) :
    ∃ next, first (n / 64 + 0xf0) = (.inside (n / 64) next [.any, .any], []) ∧
      step (.inside (n / 64) next [.any, .any]) (n % 64 + 0x80) = (.inside n .any [.any], []) := by
  have hv : n / 64 * 64 + (n % 64 + 0x80) % 64 = n := by omega
  rcases Nat.lt_or_ge n 64 with hlo | hlo
  · have hn : n / 64 = 0 := by omega
    refine ⟨⟨0x90, 0xbf, by decide, by decide⟩, by rw [hn]; rfl, step_more ?_ hv⟩
    show 0x90 ≤ n % 64 + 0x80 ∧ n % 64 + 0x80 ≤ 0xbf
    omega
  · by_cases hd : n / 64 = 4
    · refine ⟨⟨0x80, 0x8f, by decide, by decide⟩, by rw [hd]; rfl, step_more ?_ hv⟩
      show 0x80 ≤ n % 64 + 0x80 ∧ n % 64 + 0x80 ≤ 0x8f
      omega
    · refine ⟨.any, ?_, step_more any_range hv⟩
      rw [first, if_neg (by omega), if_neg (by omega), if_neg (by omega), if_neg (by omega),
        if_neg (by omega), if_neg (by omega), if_pos (by omega),
        show (n / 64 + 0xf0) % 8 = n / 64 by omega]

/-- The bytes of a character spell it. -/
theorem spells_encode (c : Char) : Spells c .start (String.utf8EncodeChar c) := by
  obtain ⟨v, hv⟩ : ∃ v, c.val.toNat = v := ⟨_, rfl⟩
  have hvalid := toNat_valid c
  rw [hv] at hvalid
  have hc : Char.ofNat v = c := by
    rw [← hv]
    exact Char.ofNat_toNat c
  have hlast : step (.inside (v / 64) .any []) (UInt8.ofNat (v % 64 + 0x80)).toNat = (.start, [c]) := by
    rw [toNat_ofNat (by omega), @step_last (v / 64) _ v _ any_range (by omega), hc]
  unfold String.utf8EncodeChar
  simp only [hv]
  split_ifs with h1 h2 h3
  · refine .last ?_
    rw [toNat_ofNat (by omega), step, first, if_pos (by omega), hc]
  · have hfirst : step .start (UInt8.ofNat (v / 64 % 32 + 0xc0)).toNat =
        (.inside (v / 64) .any [], []) := by
      rw [toNat_ofNat (by omega), Nat.mod_eq_of_lt (by omega : v / 64 < 32)]
      exact first_two (by omega) (by omega)
    exact .more hfirst (.last hlast)
  · obtain ⟨next, hf, hs⟩ := @first_three (v / 64) (by omega) (by omega) (by omega)
    rw [Nat.div_div_eq_div_mul] at hf hs
    have hfirst : step .start (UInt8.ofNat (v / 4096 % 16 + 0xe0)).toNat =
        (.inside (v / 4096) next [.any], []) := by
      rw [toNat_ofNat (by omega), Nat.mod_eq_of_lt (by omega : v / 4096 < 16)]
      exact hf
    have hsecond : step (.inside (v / 4096) next [.any]) (UInt8.ofNat (v / 64 % 64 + 0x80)).toNat =
        (.inside (v / 64) .any [], []) := by
      rw [toNat_ofNat (by omega)]
      exact hs
    exact .more hfirst (.more hsecond (.last hlast))
  · obtain ⟨next, hf, hs⟩ := @first_four (v / 4096) (by omega) (by omega)
    rw [Nat.div_div_eq_div_mul] at hf hs
    have hfirst : step .start (UInt8.ofNat (v / 262144 % 8 + 0xf0)).toNat =
        (.inside (v / 262144) next [.any, .any], []) := by
      rw [toNat_ofNat (by omega), Nat.mod_eq_of_lt (by omega : v / 262144 < 8)]
      exact hf
    have hsecond : step (.inside (v / 262144) next [.any, .any])
        (UInt8.ofNat (v / 4096 % 64 + 0x80)).toNat = (.inside (v / 4096) .any [.any], []) := by
      rw [toNat_ofNat (by omega)]
      exact hs
    have hthird : step (.inside (v / 4096) .any [.any]) (UInt8.ofNat (v / 64 % 64 + 0x80)).toNat =
        (.inside (v / 64) .any [], []) := by
      rw [toNat_ofNat (by omega)]
      exact step_more any_range (by omega)
    exact .more hfirst (.more hsecond (.more hthird (.last hlast)))

theorem encode_shape (c : Char) : ∃ b bs, String.utf8EncodeChar c = b :: bs ∧ ¬ Continuation b ∧
    ∀ b' ∈ bs, Continuation b' := by
  obtain ⟨v, hv⟩ : ∃ v, c.val.toNat = v := ⟨_, rfl⟩
  have hvalid := toNat_valid c
  rw [hv] at hvalid
  have htail : ∀ n, Continuation (UInt8.ofNat (n % 64 + 0x80)) := by
    intro n
    rw [Continuation, toNat_ofNat (by omega)]
    omega
  unfold String.utf8EncodeChar
  simp only [hv]
  split_ifs with h1 h2 h3
  · refine ⟨_, _, rfl, ?_, by simp⟩
    rw [Continuation, toNat_ofNat (by omega)]
    omega
  · refine ⟨_, _, rfl, ?_, List.forall_mem_singleton.mpr (htail _)⟩
    rw [Continuation, toNat_ofNat (by omega)]
    omega
  · refine ⟨_, _, rfl, ?_, List.forall_mem_cons.mpr ⟨htail _, List.forall_mem_singleton.mpr (htail _)⟩⟩
    rw [Continuation, toNat_ofNat (by omega)]
    omega
  · refine ⟨_, _, rfl, ?_,
      List.forall_mem_cons.mpr ⟨htail _, List.forall_mem_cons.mpr ⟨htail _, List.forall_mem_singleton.mpr (htail _)⟩⟩⟩
    rw [Continuation, toNat_ofNat (by omega)]
    omega

/-- An ASCII byte of an encoding is a character of the text. -/
theorem mem_encode_ascii {b : UInt8} {w : List Char} (hb : b.toNat < 0x80) (h : b ∈ encodeUtf8 w) :
    Char.ofNat b.toNat ∈ w := by
  obtain ⟨c, hc, hmem⟩ := List.mem_flatMap.mp h
  obtain ⟨a, as, henc, -, htail⟩ := encode_shape c
  have hspells := spells_encode c
  rw [henc] at hspells hmem
  rcases List.mem_cons.mp hmem with rfl | hmem
  · have hfirst : step .start b.toNat = (.start, [Char.ofNat b.toNat]) := if_pos hb
    cases hspells with
    | last hstep =>
      rw [hfirst] at hstep
      obtain rfl : Char.ofNat b.toNat = c := List.head_eq_of_cons_eq (Prod.mk.inj hstep).2
      exact hc
    | more hstep _ =>
      rw [hfirst] at hstep
      cases hstep
  · have hcont := (htail b hmem).1
    omega

/-! ### Decoding -/

theorem Spells.decodeFrom_append {c : Char} {s : State} {l : List UInt8} (h : Spells c s l)
    (bs : List UInt8) : decodeFrom s (l ++ bs) = c :: decodeReplace bs := by
  induction h with
  | last h => simp [decodeFrom, h, decodeReplace]
  | more h _ ih => simp [decodeFrom, h, ih]

/-- A character that is cut short is one replacement character. -/
theorem Spells.decodeFrom_cut {c : Char} {s : State} {l p q : List UInt8} (h : Spells c s l)
    (hpq : l = p ++ q) (hp : p ≠ []) (hq : q ≠ []) : decodeFrom s p = [replacement] := by
  induction h generalizing p with
  | last h =>
    obtain ⟨b, p, rfl⟩ := List.exists_cons_of_ne_nil hp
    rw [List.cons_append] at hpq
    have hnil : p ++ q = [] := (List.cons.inj hpq).2.symm
    exact absurd (List.append_eq_nil_iff.mp hnil).2 hq
  | more h _ ih =>
    obtain ⟨b, p, rfl⟩ := List.exists_cons_of_ne_nil hp
    rw [List.cons_append] at hpq
    obtain ⟨rfl, htail⟩ := List.cons.inj hpq
    rw [decodeFrom, h, List.nil_append]
    by_cases hnil : p = []
    · rw [hnil]
      rfl
    · exact ih htail hnil

theorem decodeReplace_char (c : Char) (bs : List UInt8) :
    decodeReplace (String.utf8EncodeChar c ++ bs) = c :: decodeReplace bs :=
  (spells_encode c).decodeFrom_append bs

theorem decodeReplace_encode_append (w : List Char) (bs : List UInt8) :
    decodeReplace (encodeUtf8 w ++ bs) = w ++ decodeReplace bs := by
  induction w with
  | nil => rfl
  | cons c w ih =>
    have h : encodeUtf8 (c :: w) = String.utf8EncodeChar c ++ encodeUtf8 w := rfl
    rw [h, List.append_assoc, decodeReplace_char, ih, List.cons_append]

/-- What is not broken is decoded as it is. -/
theorem decodeReplace_encode (w : List Char) : decodeReplace (encodeUtf8 w) = w := by
  have h := decodeReplace_encode_append w []
  rw [List.append_nil] at h
  rw [h]
  exact List.append_nil w

theorem first_continuation {b : UInt8} (h : Continuation b) :
    first b.toNat = (.start, [replacement]) := by
  obtain ⟨h1, h2⟩ := h
  rw [first, if_neg (by omega), if_neg (by omega), if_neg (by omega), if_neg (by omega),
    if_neg (by omega), if_neg (by omega), if_neg (by omega), if_neg (by omega)]

/-- Bytes that go on with no character are each a replacement character. -/
theorem decodeReplace_continuations {p : List UInt8} (hp : ∀ b ∈ p, Continuation b) (q : List UInt8) :
    decodeReplace (p ++ q) = List.replicate p.length replacement ++ decodeReplace q := by
  induction p with
  | nil => rfl
  | cons b p ih =>
    have hb : first b.toNat = (.start, [replacement]) := first_continuation (hp b List.mem_cons_self)
    have htail := ih fun b' hb' => hp b' (List.mem_cons_of_mem b hb')
    have hstep : decodeReplace (b :: (p ++ q)) = replacement :: decodeReplace (p ++ q) := by
      rw [decodeReplace, decodeFrom, step, hb]
      rfl
    rw [List.cons_append, hstep, htail]
    rfl

theorem decodeFrom_append {q : List UInt8} (hq : ∀ b ∈ q.head?, ¬ Continuation b) (s : State)
    (p : List UInt8) : decodeFrom s (p ++ q) = decodeFrom s p ++ decodeReplace q := by
  induction p generalizing s with
  | cons b p ih => rw [List.cons_append, decodeFrom, decodeFrom, ih, List.append_assoc]
  | nil =>
    cases s with
    | start => rfl
    | inside value next owed =>
      cases q with
      | nil => rfl
      | cons b q =>
        -- `b` goes on with no character, so it ends the one under way
        have hb : ¬ (next.lo ≤ b.toNat ∧ b.toNat ≤ next.hi) := by
          intro hin
          have hlo := next.lo_ge
          have hhi := next.hi_lt
          exact hq b rfl ⟨by omega, by omega⟩
        show decodeFrom (.inside value next owed) (b :: q) = [replacement] ++ decodeReplace (b :: q)
        rw [decodeFrom, step_broken hb]
        rfl

/-- Bytes before one that begins a character are decoded by themselves. -/
theorem decodeReplace_append {p q : List UInt8} (hq : ∀ b ∈ q.head?, ¬ Continuation b) :
    decodeReplace (p ++ q) = decodeReplace p ++ decodeReplace q :=
  decodeFrom_append hq .start p

/-! ### Pieces decoded one by one -/

/-- Of the characters of the first text, each is kept in the second, or has
become two or more replacement characters. -/
inductive Garbled : List Char → List Char → Prop
  | nil : Garbled [] []
  | kept (c : Char) {t d : List Char} (h : Garbled t d) : Garbled (c :: t) (c :: d)
  | lost (c : Char) (n : ℕ) {t d : List Char} (h : Garbled t d) :
    Garbled (c :: t) (List.replicate (n + 2) replacement ++ d)

theorem Garbled.length_le {t d : List Char} (h : Garbled t d) : t.length ≤ d.length := by
  induction h with
  | nil => exact Nat.le_refl 0
  | kept c _ ih =>
    rw [List.length_cons, List.length_cons]
    omega
  | lost c n _ ih =>
    rw [List.length_cons, List.length_append, List.length_replicate]
    omega

theorem Garbled.mem {t d : List Char} (h : Garbled t d) : ∀ c ∈ d, c ∈ t ∨ c = replacement := by
  induction h with
  | nil => simp
  | kept c _ ih =>
    intro b hb
    rcases List.mem_cons.mp hb with rfl | hb
    · exact Or.inl List.mem_cons_self
    · exact (ih b hb).imp_left (List.mem_cons_of_mem c)
  | lost c n _ ih =>
    intro b hb
    rcases List.mem_append.mp hb with hb | hb
    · exact Or.inr (List.eq_of_mem_replicate hb)
    · exact (ih b hb).imp_left (List.mem_cons_of_mem c)

/-- Where replacement characters run into a garbled text, a text that begins
the whole consists of them, and what is left begins with one. -/
theorem Garbled.begins_replicate {t d : List Char} (h : Garbled t d) (n : ℕ)
    (hp : t <+: List.replicate (n + 1) replacement ++ d) :
    (∀ c ∈ t, c = replacement) ∧ ∃ rest, List.replicate (n + 1) replacement ++ d = t ++ replacement :: rest := by
  induction h generalizing n with
  | nil => exact ⟨by simp, List.replicate n replacement, by simp [List.replicate_succ]⟩
  | @kept c t d _ ih =>
    rw [List.replicate_succ, List.cons_append, List.cons_prefix_cons] at hp
    obtain ⟨rfl, htail⟩ := hp
    have hshift : List.replicate n replacement ++ replacement :: d =
        List.replicate (n + 1) replacement ++ d := by
      rw [List.replicate_succ', List.append_assoc]
      rfl
    rw [hshift] at htail
    obtain ⟨hall, rest, hrest⟩ := ih n htail
    refine ⟨List.forall_mem_cons.mpr ⟨rfl, hall⟩, rest, ?_⟩
    rw [List.replicate_succ, List.cons_append, hshift, hrest, List.cons_append]
  | @lost c m t d _ ih =>
    rw [List.replicate_succ, List.cons_append, List.cons_prefix_cons] at hp
    obtain ⟨rfl, htail⟩ := hp
    have hshift : List.replicate n replacement ++ (List.replicate (m + 2) replacement ++ d) =
        List.replicate (n + m + 1 + 1) replacement ++ d := by
      rw [← List.append_assoc, List.replicate_append_replicate]
      rfl
    rw [hshift] at htail
    obtain ⟨hall, rest, hrest⟩ := ih (n + m + 1) htail
    refine ⟨List.forall_mem_cons.mpr ⟨rfl, hall⟩, rest, ?_⟩
    rw [List.replicate_succ, List.cons_append, hshift, hrest, List.cons_append]

/-- A text that begins what has become of it is either whole, or ends with a
replacement character and is followed by another. -/
theorem Garbled.eq_or_more {t d : List Char} (h : Garbled t d) (hp : t <+: d) :
    d = t ∨ [replacement] <:+ t ∧ ∃ rest, d = t ++ replacement :: rest := by
  induction h with
  | nil => exact Or.inl rfl
  | @kept c t d _ ih =>
    rcases ih (List.cons_prefix_cons.mp hp).2 with rfl | ⟨hs, rest, rfl⟩
    · exact Or.inl rfl
    · exact Or.inr ⟨hs.trans (List.suffix_cons c t), rest, rfl⟩
  | @lost c n t d h _ =>
    obtain ⟨rfl, htail⟩ := List.cons_prefix_cons.mp hp
    obtain ⟨hall, rest, hrest⟩ := h.begins_replicate n htail
    refine Or.inr ⟨?_, rest, ?_⟩
    · have hrep : replacement :: t = List.replicate (t.length + 1) replacement :=
        List.eq_replicate_iff.mpr ⟨rfl, List.forall_mem_cons.mpr ⟨rfl, hall⟩⟩
      rw [hrep, List.replicate_succ']
      exact List.suffix_append _ _
    · show replacement :: (List.replicate (n + 1) replacement ++ d) = _
      rw [hrest]
      rfl

/-- The pieces that end a character which was cut: each of its bytes still to
come is a replacement character, wherever it is cut again. -/
theorem continuations_pieces {e r : List UInt8} {pieces : List (List UInt8)} (hne : e ≠ [])
    (he : ∀ b ∈ e, Continuation b) (hp : ∀ p ∈ pieces, p ≠ []) (hflat : pieces.flatten = e ++ r) :
    ∃ (n : ℕ) (pieces' : List (List UInt8)), pieces.flatMap decodeReplace =
        List.replicate (n + 1) replacement ++ pieces'.flatMap decodeReplace ∧
      (∀ p ∈ pieces', p ≠ []) ∧ pieces'.flatten = r := by
  induction pieces generalizing e with
  | nil =>
    rw [List.flatten_nil] at hflat
    exact absurd (List.append_eq_nil_iff.mp hflat.symm).1 hne
  | cons q ps ih =>
    obtain ⟨hq, hps⟩ := List.forall_mem_cons.mp hp
    rw [List.flatten_cons] at hflat
    rw [List.flatMap_cons]
    rcases List.append_eq_append_iff.mp hflat with ⟨e', rfl, hrest⟩ | ⟨q', rfl, hrest⟩
    · -- the piece ends before the character does, or with it
      have hdecode := decodeReplace_continuations (fun b hb => he b (List.mem_append_left e' hb)) []
      rw [List.append_nil] at hdecode
      obtain ⟨k, hk⟩ : ∃ k, q.length = k + 1 := Nat.exists_eq_succ_of_ne_zero (by simpa using hq)
      rw [hdecode, hk]
      by_cases hnil : e' = []
      · subst hnil
        exact ⟨k, ps, by rw [show decodeReplace [] = [] from rfl, List.append_nil], hps, hrest⟩
      · obtain ⟨n, pieces', hout, hp', hflat'⟩ :=
          ih hnil (fun b hb => he b (List.mem_append_right q hb)) hps hrest
        refine ⟨k + n + 1, pieces', ?_, hp', hflat'⟩
        rw [hout, show decodeReplace [] = [] from rfl, List.append_nil, ← List.append_assoc,
          List.replicate_append_replicate]
        congr 2
        omega
    · rw [decodeReplace_continuations he, List.append_assoc]
      obtain ⟨k, hk⟩ : ∃ k, e.length = k + 1 := Nat.exists_eq_succ_of_ne_zero (by simpa using hne)
      rw [hk]
      by_cases hnil : q' = []
      · subst hnil
        exact ⟨k, ps, rfl, hps, by rw [hrest, List.nil_append]⟩
      · exact ⟨k, q' :: ps, rfl, List.forall_mem_cons.mpr ⟨hnil, hps⟩, hrest.symm⟩

/-- Bytes that are the encoding of some text. -/
def Whole (p : List UInt8) : Prop := ∃ w, p = encodeUtf8 w

/-- What becomes of a text: nothing if every piece is whole, and otherwise some
character is lost. -/
theorem garbled_pieces {t : List Char} {pieces : List (List UInt8)} (hp : ∀ p ∈ pieces, p ≠ [])
    (hflat : pieces.flatten = encodeUtf8 t) :
    Garbled t (pieces.flatMap decodeReplace) ∧
      ((∀ p ∈ pieces, Whole p) ∨ t.length < (pieces.flatMap decodeReplace).length) := by
  induction t generalizing pieces with
  | nil =>
    have hnil : pieces = [] := by
      cases pieces with
      | nil => rfl
      | cons q ps => exact absurd (List.append_eq_nil_iff.mp hflat).1 (hp q List.mem_cons_self)
    rw [hnil]
    exact ⟨.nil, Or.inl (by simp)⟩
  | cons c t ih =>
    obtain ⟨b, bs, henc, -, htail⟩ := encode_shape c
    have hsplit : encodeUtf8 (c :: t) = String.utf8EncodeChar c ++ encodeUtf8 t := rfl
    rw [hsplit] at hflat
    cases pieces with
    | nil => simp [henc] at hflat
    | cons q ps =>
      obtain ⟨hq, hps⟩ := List.forall_mem_cons.mp hp
      rw [List.flatten_cons] at hflat
      rw [List.flatMap_cons]
      -- where the first piece goes on with the next character
      have hkept : ∀ q' : List UInt8, q = String.utf8EncodeChar c ++ q' → q' ++ ps.flatten = encodeUtf8 t →
          Garbled (c :: t) (decodeReplace q ++ ps.flatMap decodeReplace) ∧
            ((∀ p ∈ q :: ps, Whole p) ∨
              (c :: t).length < (decodeReplace q ++ ps.flatMap decodeReplace).length) := by
        rintro q' rfl hrest
        rw [decodeReplace_char, List.cons_append, List.length_cons, List.length_cons]
        by_cases hnil : q' = []
        · subst hnil
          obtain ⟨hgarbled, hwhole⟩ := ih hps hrest
          refine ⟨.kept c hgarbled, hwhole.imp (fun h => ?_) Nat.succ_lt_succ⟩
          refine List.forall_mem_cons.mpr ⟨⟨[c], ?_⟩, h⟩
          rw [List.append_nil]
          exact (List.append_nil _).symm
        · obtain ⟨hgarbled, hwhole⟩ := @ih (q' :: ps) (List.forall_mem_cons.mpr ⟨hnil, hps⟩) hrest
          refine ⟨.kept c hgarbled, hwhole.imp (fun h => ?_) Nat.succ_lt_succ⟩
          obtain ⟨⟨w, rfl⟩, htails⟩ := List.forall_mem_cons.mp h
          exact List.forall_mem_cons.mpr ⟨⟨c :: w, rfl⟩, htails⟩
      rcases List.append_eq_append_iff.mp hflat with ⟨e, he, hrest⟩ | ⟨q', hq', hrest⟩
      · by_cases hnil : e = []
        · subst hnil
          exact hkept [] (by rw [he, List.append_nil]; exact (List.append_nil q).symm) hrest
        · -- the first piece ends inside the character
          have hcut : decodeReplace q = [replacement] := (spells_encode c).decodeFrom_cut he hq hnil
          have hcont : ∀ b' ∈ e, Continuation b' := by
            obtain ⟨a, q, rfl⟩ := List.exists_cons_of_ne_nil hq
            rw [henc, List.cons_append] at he
            rw [(List.cons.inj he).2] at htail
            exact fun b' hb' => htail b' (List.mem_append_right q hb')
          obtain ⟨n, pieces', hout, hp', hflat'⟩ := continuations_pieces hnil hcont hps hrest
          have hgarbled := (ih hp' hflat').1
          have hlen := hgarbled.length_le
          rw [hcut, hout]
          refine ⟨.lost c n hgarbled, Or.inr ?_⟩
          rw [List.length_append, List.length_append, List.length_replicate, List.length_singleton,
            List.length_cons]
          omega
      · exact hkept q' hq' hrest.symm

/-- A text survives exactly if every piece of it is whole. -/
theorem pieces_whole_iff {t : List Char} {pieces : List (List UInt8)} (hp : ∀ p ∈ pieces, p ≠ [])
    (hflat : pieces.flatten = encodeUtf8 t) :
    pieces.flatMap decodeReplace = t ↔ ∀ p ∈ pieces, Whole p := by
  constructor
  · intro h
    rcases (garbled_pieces hp hflat).2 with hwhole | hlt
    · exact hwhole
    · rw [h] at hlt
      exact absurd hlt (Nat.lt_irrefl _)
  · intro hwhole
    have hjoin : ∀ qs : List (List UInt8), (∀ q ∈ qs, Whole q) →
        qs.flatMap decodeReplace = decodeReplace qs.flatten := by
      intro qs hqs
      induction qs with
      | nil => rfl
      | cons q qs ih =>
        obtain ⟨⟨w, rfl⟩, htails⟩ := List.forall_mem_cons.mp hqs
        rw [List.flatMap_cons, List.flatten_cons, decodeReplace_encode_append, decodeReplace_encode,
          ih htails]
    rw [hjoin pieces hwhole, hflat, decodeReplace_encode]

end Utf8
end Sgm
