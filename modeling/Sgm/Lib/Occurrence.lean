/-
# Occurrences of words in a text that grows

Where a word stands in a text, its first occurrence, and what a search has to
keep of a text it has already read: `Held ps t b` says that `b` is the longest
suffix of `t` that begins a word of `ps`. No occurrence that is still open
reaches back before it, so it can stand for the whole text: the search for the
words of `ps` goes on from `b` (`Held.index?_append`), and what is to be kept
of a longer text is found from `b` too (`Held.append`).

A search that goes through the words in the order of the list finds, in a
text, the first listed word that occurs in it (`listed?`), which need not be
the word that is completed first. The answers it can give as the text grows
are the unshadowed starts (`Unshadowed`, `unshadowed_iff`).

Key definitions: `At`, `index?`, `Hit`, `Held`, `listed?`, `Unshadowed`.
Key theorems: `index?_eq_some_iff`, `Held.append`, `Held.listed?_append`, `unshadowed_iff`.
-/
import Mathlib

namespace Sgm
namespace Occurrence

variable {α : Type*}

/-! ### Where a word stands -/

/-- The word `w` stands in `t` at `i`. -/
def At (w t : List α) (i : ℕ) : Prop := w <+: t.drop i

instance [DecidableEq α] (w t : List α) (i : ℕ) : Decidable (At w t i) :=
  inferInstanceAs (Decidable (w <+: t.drop i))

theorem infix_iff_at {w t : List α} : w <:+: t ↔ ∃ i, At w t i := by
  constructor
  · intro h
    obtain ⟨x, y, hxy⟩ := h
    refine ⟨x.length, y, ?_⟩
    rw [← hxy, List.append_assoc, List.drop_left]
  · intro h
    obtain ⟨i, hi⟩ := h
    exact hi.isInfix.trans (List.drop_suffix i t).isInfix

/-- An occurrence ends inside the text. -/
theorem At.end_le {w t : List α} {i : ℕ} (h : At w t i) (hw : w ≠ []) : i + w.length ≤ t.length := by
  have h1 : w.length ≤ t.length - i := by
    have := h.length_le
    rwa [List.length_drop] at this
  have h2 : 0 < w.length := List.length_pos_of_ne_nil hw
  omega

theorem At.mono {w t t' : List α} {i : ℕ} (h : At w t i) (ht : t <+: t') : At w t' i := by
  obtain ⟨s, rfl⟩ := ht
  unfold At
  rw [List.drop_append]
  exact h.trans (List.prefix_append _ _)

/-- What ends inside a prefix stands in the prefix. -/
theorem At.of_end_le {w t t' : List α} {i : ℕ} (h : At w t' i) (ht : t <+: t')
    (hi : i + w.length ≤ t.length) : At w t i := by
  obtain ⟨s, rfl⟩ := ht
  unfold At at h
  rw [List.drop_append] at h
  refine List.prefix_of_prefix_length_le h (List.prefix_append _ _) ?_
  rw [List.length_drop]
  omega

theorem at_append_iff {w s t : List α} {i : ℕ} : At w (s ++ t) (s.length + i) ↔ At w t i := by
  unfold At
  rw [List.drop_append, List.drop_eq_nil_of_le (by omega)]
  simp

theorem at_succ {w t : List α} {a : α} {i : ℕ} : At w (a :: t) (i + 1) ↔ At w t i := by
  simp [At]

/-! ### The first occurrence -/

section Index

variable [DecidableEq α]

/-- Where `w` first stands in the text (`str.index`), if it does. -/
def index? (w : List α) : List α → Option ℕ
  | [] => if w = [] then some 0 else none
  | a :: t => if w <+: a :: t then some 0 else (index? w t).map (· + 1)

theorem index?_eq_some_iff {w t : List α} {i : ℕ} :
    index? w t = some i ↔ At w t i ∧ ∀ j < i, ¬ At w t j := by
  induction t generalizing i with
  | nil =>
    by_cases hw : w = []
    · subst hw
      rw [index?, if_pos rfl, Option.some.injEq]
      constructor
      · intro h
        subst h
        exact ⟨List.nil_prefix, fun j hj => absurd hj (by omega)⟩
      · intro h
        by_contra hi
        exact h.2 0 (by omega) List.nil_prefix
    · rw [index?, if_neg hw]
      simp [At, hw]
  | cons a t ih =>
    by_cases hw : w <+: a :: t
    · rw [index?, if_pos hw, Option.some.injEq]
      constructor
      · intro h
        subst h
        exact ⟨hw, fun j hj => absurd hj (by omega)⟩
      · intro h
        by_contra hi
        exact h.2 0 (by omega) hw
    · rw [index?, if_neg hw]
      cases i with
      | zero => simp [At, hw]
      | succ i =>
        have h1 : (index? w t).map (· + 1) = some (i + 1) ↔ index? w t = some i := by simp
        rw [h1, ih, at_succ]
        refine and_congr_right fun _ => ?_
        constructor
        · intro h j hj
          cases j with
          | zero => exact hw
          | succ j => exact fun hat => h j (by omega) (at_succ.mp hat)
        · intro h j hj hat
          exact h (j + 1) (by omega) (at_succ.mpr hat)

theorem index?_eq_none_iff {w t : List α} : index? w t = none ↔ ¬ w <:+: t := by
  rw [infix_iff_at]
  constructor
  · intro h hat
    have h1 : index? w t = some (Nat.find hat) :=
      index?_eq_some_iff.mpr ⟨Nat.find_spec hat, fun j hj => Nat.find_min hat hj⟩
    rw [h] at h1
    cases h1
  · intro h
    cases hi : index? w t with
    | none => rfl
    | some i => exact absurd ⟨i, (index?_eq_some_iff.mp hi).1⟩ h

/-- The first occurrence in a prefix is the first one in the text. -/
theorem index?_mono {w t t' : List α} {i : ℕ} (ht : t <+: t') (hw : w ≠ [])
    (hi : index? w t = some i) : index? w t' = some i := by
  rw [index?_eq_some_iff] at hi ⊢
  have hend := hi.1.end_le hw
  exact ⟨hi.1.mono ht, fun j hj hat => hi.2 j hj (hat.of_end_le ht (by omega))⟩

end Index

/-! ### What a search keeps -/

/-- Some word of `ps` occurs in `t`. -/
def Hit (ps : List (List α)) (t : List α) : Prop := ∃ w ∈ ps, w <:+: t

theorem Hit.mono {ps : List (List α)} {t t' : List α} (h : Hit ps t) (ht : t <:+: t') : Hit ps t' := by
  obtain ⟨w, hw, hi⟩ := h
  exact ⟨w, hw, hi.trans ht⟩

theorem not_hit_nil {ps : List (List α)} (hps : ∀ w ∈ ps, w ≠ []) : ¬ Hit ps [] := by
  intro h
  obtain ⟨w, hw, hi⟩ := h
  exact hps w hw (List.infix_nil.mp hi)

/-- `b` is the longest suffix of `t` that begins a word of `ps` (empty when
there is none). -/
structure Held (ps : List (List α)) (t b : List α) : Prop where
  suffix : b <:+ t
  begins : b ≠ [] → ∃ w ∈ ps, b <+: w
  longest : ∀ x, x <:+ t → (∃ w ∈ ps, x <+: w) → x.length ≤ b.length

namespace Held

variable {ps : List (List α)} {t b : List α}

theorem nil : Held ps [] [] := by
  refine ⟨List.suffix_rfl, fun h => absurd rfl h, ?_⟩
  intro x hx _
  rw [List.suffix_nil.mp hx]

theorem eq (h : Held ps t b) {b' : List α} (h' : Held ps t b') : b = b' := by
  have hle : ∀ {x y : List α}, Held ps t x → Held ps t y → x.length ≤ y.length := by
    intro x y hx hy
    by_cases hn : x = []
    · simp [hn]
    · exact hy.longest x hx.suffix (hx.begins hn)
  exact List.IsSuffix.eq_of_length_le
    (List.suffix_of_suffix_length_le h.suffix h'.suffix (hle h h')) (hle h' h)

/-- What begins a word and ends with the whole of `c` starts in what is held. -/
theorem reach (h : Held ps t b) {c x : List α} (hx : x <:+ t ++ c) (hw : ∃ w ∈ ps, x <+: w) :
    x <:+ b ++ c := by
  by_cases hc : x.length ≤ c.length
  · have h1 : x <:+ c := List.suffix_of_suffix_length_le hx (List.suffix_append t c) hc
    exact h1.trans (List.suffix_append b c)
  · -- the part of `x` before `c` is a suffix of `t` and begins the same word
    have h1 : c <:+ x := List.suffix_of_suffix_length_le (List.suffix_append t c) hx (by omega)
    obtain ⟨y, rfl⟩ := h1
    have hy : y <:+ t := by
      obtain ⟨z, hz⟩ := hx
      rw [← List.append_assoc] at hz
      exact ⟨z, List.append_cancel_right hz⟩
    obtain ⟨w, hwm, hwp⟩ := hw
    have hlen := h.longest y hy ⟨w, hwm, (List.prefix_append y c).trans hwp⟩
    obtain ⟨z, hz⟩ := List.suffix_of_suffix_length_le hy h.suffix hlen
    exact ⟨z, by rw [← hz, List.append_assoc]⟩

/-- What is held of a longer text is found from what was held. -/
theorem append (h : Held ps t b) {c b' : List α} (h' : Held ps (b ++ c) b') : Held ps (t ++ c) b' := by
  have hbc : b ++ c <:+ t ++ c := by
    obtain ⟨z, hz⟩ := h.suffix
    exact ⟨z, by rw [← hz, List.append_assoc]⟩
  refine ⟨h'.suffix.trans hbc, h'.begins, ?_⟩
  intro x hx hw
  exact h'.longest x (h.reach hx hw) hw

/-- An occurrence that was not yet complete starts in what is held. -/
theorem start_le (h : Held ps t b) {c w : List α} {i : ℕ} (hw : w ∈ ps) (hn : ¬ w <:+: t)
    (hat : At w (t ++ c) i) : t.length - b.length ≤ i := by
  by_cases hi : i ≤ t.length
  · have hend : t.length < i + w.length := by
      by_contra hle
      exact hn (infix_iff_at.mpr ⟨i, hat.of_end_le (List.prefix_append t c) (by omega)⟩)
    have hx : t.drop i <+: w := by
      have h1 : t.drop i <+: (t ++ c).drop i := by
        rw [List.drop_append]
        exact List.prefix_append _ _
      refine List.prefix_of_prefix_length_le h1 hat ?_
      rw [List.length_drop]
      omega
    have hlen := h.longest _ (List.drop_suffix i t) ⟨w, hw, hx⟩
    rw [List.length_drop] at hlen
    omega
  · omega

variable [DecidableEq α]

/-- The search goes on from what is held. -/
theorem index?_append (h : Held ps t b) {c w : List α} (hw : w ∈ ps) (hn : ¬ w <:+: t) :
    index? w (t ++ c) = (index? w (b ++ c)).map (t.length - b.length + ·) := by
  obtain ⟨s, rfl⟩ := h.suffix
  have hs : (s ++ b).length - b.length = s.length := by simp
  rw [hs, List.append_assoc]
  cases hi : index? w (b ++ c) with
  | none =>
    rw [Option.map_none, index?_eq_none_iff, infix_iff_at]
    intro hat
    obtain ⟨i, hat⟩ := hat
    have hle := h.start_le hw hn ((List.append_assoc s b c).symm ▸ hat)
    obtain ⟨k, rfl⟩ : ∃ k, i = s.length + k := ⟨i - s.length, by omega⟩
    exact index?_eq_none_iff.mp hi (infix_iff_at.mpr ⟨k, at_append_iff.mp hat⟩)
  | some i =>
    rw [Option.map_some, index?_eq_some_iff]
    have hfirst := index?_eq_some_iff.mp hi
    refine ⟨at_append_iff.mpr hfirst.1, ?_⟩
    intro j hj hat
    have hle := h.start_le hw hn ((List.append_assoc s b c).symm ▸ hat)
    obtain ⟨k, rfl⟩ : ∃ k, j = s.length + k := ⟨j - s.length, by omega⟩
    exact hfirst.2 k (by omega) (at_append_iff.mp hat)

end Held

/-! ### Searching in the order of the list -/

section Listed

variable [DecidableEq α] {ps : List (List α)} {t : List α}

/-- Where the first listed word that occurs in `t` first stands. -/
def listed? (ps : List (List α)) (t : List α) : Option ℕ := ps.findSome? (index? · t)

theorem listed?_eq_none_iff : listed? ps t = none ↔ ¬ Hit ps t := by
  unfold listed? Hit
  rw [List.findSome?_eq_none_iff]
  simp only [index?_eq_none_iff]
  push Not
  rfl

theorem hit_of_listed? {i : ℕ} (h : listed? ps t = some i) : Hit ps t := by
  by_contra hn
  rw [listed?_eq_none_iff.mpr hn] at h
  cases h

theorem Hit.listed? (h : Hit ps t) : ∃ i, listed? ps t = some i := by
  cases hi : Occurrence.listed? ps t with
  | none => exact absurd h (listed?_eq_none_iff.mp hi)
  | some i => exact ⟨i, rfl⟩

theorem listed?_lt (hps : ∀ w ∈ ps, w ≠ []) {i : ℕ} (h : listed? ps t = some i) : i < t.length := by
  obtain ⟨w, hw, hi⟩ := List.exists_of_findSome?_eq_some h
  have hend := (index?_eq_some_iff.mp hi).1.end_le (hps w hw)
  have hpos := List.length_pos_of_ne_nil (hps w hw)
  omega

theorem Held.listed?_append {b : List α} (h : Held ps t b) (hn : ¬ Hit ps t) (c : List α) :
    Occurrence.listed? ps (t ++ c) =
      (Occurrence.listed? ps (b ++ c)).map (t.length - b.length + ·) := by
  have hall : ∀ qs : List (List α), (∀ w ∈ qs, w ∈ ps) →
      qs.findSome? (index? · (t ++ c)) =
        (qs.findSome? (index? · (b ++ c))).map (t.length - b.length + ·) := by
    intro qs
    induction qs with
    | nil => intro _; rfl
    | cons w qs ih =>
      intro hqs
      have hw : w ∈ ps := hqs w (by simp)
      have hone := h.index?_append (c := c) hw fun hi => hn ⟨w, hw, hi⟩
      rw [List.findSome?_cons, List.findSome?_cons, hone]
      cases index? w (b ++ c) with
      | none => exact ih fun v hv => hqs v (by simp [hv])
      | some i => rfl
  exact hall ps fun w hw => hw

/-- A word occurs in the text, first at `i`, and no word listed before it is
completed as early. -/
def Unshadowed (ps : List (List α)) (t : List α) (i : ℕ) : Prop :=
  ∃ pre w post, ps = pre ++ w :: post ∧ index? w t = some i ∧
    ∀ u ∈ pre, ∀ j, index? u t = some j → i + w.length < j + u.length

/-- The answers of the search in the prefixes of a text. -/
theorem unshadowed_iff (hps : ∀ w ∈ ps, w ≠ []) {i : ℕ} :
    Unshadowed ps t i ↔ ∃ p, p <+: t ∧ listed? ps p = some i := by
  constructor
  · intro h
    obtain ⟨pre, w, post, rfl, hi, hpre⟩ := h
    have hw : w ≠ [] := hps w (by simp)
    have hend := (index?_eq_some_iff.mp hi).1.end_le hw
    have hp : t.take (i + w.length) <+: t := List.take_prefix _ _
    have hlen : (t.take (i + w.length)).length = i + w.length := by
      rw [List.length_take]
      omega
    -- no word listed before `w` occurs in the text up to the end of `w`
    have hnone : ∀ u ∈ pre, index? u (t.take (i + w.length)) = none := by
      intro u hu
      cases hj : index? u (t.take (i + w.length)) with
      | none => rfl
      | some j =>
        have hune : u ≠ [] := hps u (by simp [hu])
        have h1 := hpre u hu j (index?_mono hp hune hj)
        have h2 := (index?_eq_some_iff.mp hj).1.end_le hune
        omega
    have hhere : index? w (t.take (i + w.length)) = some i := by
      rw [index?_eq_some_iff] at hi ⊢
      exact ⟨hi.1.of_end_le hp (by omega), fun j hj hat => hi.2 j hj (hat.mono hp)⟩
    refine ⟨t.take (i + w.length), hp, ?_⟩
    unfold listed?
    rw [List.findSome?_append, List.findSome?_eq_none_iff.mpr hnone, List.findSome?_cons, hhere]
    rfl
  · intro h
    obtain ⟨p, hp, hi⟩ := h
    obtain ⟨pre, w, post, rfl, hw, hpre⟩ := List.findSome?_eq_some_iff.mp hi
    have hwne : w ≠ [] := hps w (by simp)
    have hend := (index?_eq_some_iff.mp hw).1.end_le hwne
    refine ⟨pre, w, post, rfl, index?_mono hp hwne hw, ?_⟩
    intro u hu j hj
    by_contra hle
    have hat := (index?_eq_some_iff.mp hj).1.of_end_le hp (by omega)
    exact index?_eq_none_iff.mp (hpre u hu) (infix_iff_at.mpr ⟨j, hat⟩)

end Listed

end Occurrence
end Sgm
