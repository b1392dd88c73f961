/-
# A receiver that takes numbered items in order

Items carry a number. The receiver takes an item when its number is the count
of items taken so far, and drops it otherwise. So what it has taken is always
numbered 0, 1, 2, ...; and if no item ever skips ahead (`Contiguous`), each
taken item is the first that came with its number, whatever was repeated or
replayed. A sender that is replaced by another, which replays from a number
already taken, leaves no trace in what is taken (`accepted_append_of_numbered`).

Key definitions: `InOrder.accepted`, `InOrder.Contiguous`, `InOrder.Numbered`.
Key theorems: `InOrder.seq_accepted`, `InOrder.find?_of_accepted`,
`InOrder.foldl_accept_numbered`, `InOrder.accepted_append_of_numbered`.
-/
import Mathlib

namespace Sgm
namespace InOrder

variable {α : Type*} (seq : α → ℤ)

/-- The items taken, after one more has come. -/
def accept (acc : List α) (c : α) : List α := if seq c = acc.length then acc ++ [c] else acc

/-- The items taken from `l`. -/
def accepted (l : List α) : List α := l.foldl (accept seq) []

/-- No item of `l` skips ahead of those taken before it. -/
def Contiguous (l : List α) : Prop := ∀ p c q, l = p ++ c :: q → seq c ≤ (accepted seq p).length

/-- The items of `l` are numbered `a`, `a + 1`, ... -/
def Numbered : ℤ → List α → Prop
  | _, [] => True
  | a, c :: l => seq c = a ∧ Numbered (a + 1) l

@[simp] theorem accepted_nil : accepted seq ([] : List α) = [] := rfl

theorem accepted_concat (l : List α) (c : α) :
    accepted seq (l ++ [c]) = accept seq (accepted seq l) c := by
  simp [accepted, List.foldl_append]

theorem accepted_concat_of_eq {l : List α} {c : α} (h : seq c = (accepted seq l).length) :
    accepted seq (l ++ [c]) = accepted seq l ++ [c] := by
  rw [accepted_concat, accept, if_pos h]

theorem accepted_concat_of_ne {l : List α} {c : α} (h : seq c ≠ (accepted seq l).length) :
    accepted seq (l ++ [c]) = accepted seq l := by
  rw [accepted_concat, accept, if_neg h]

/-- Item `i` of those taken has number `i`. -/
theorem seq_accepted (l : List α) : ∀ {i : ℕ} {c : α}, (accepted seq l)[i]? = some c → seq c = i := by
  induction l using List.reverseRecOn with
  | nil => simp
  | append_singleton l d ih =>
    intro i c h
    by_cases hd : seq d = (accepted seq l).length
    · rw [accepted_concat_of_eq seq hd, List.getElem?_append] at h
      split at h
      · exact ih h
      · rename_i hi
        have hi0 : i = (accepted seq l).length := by
          by_contra hne
          rw [List.getElem?_singleton, if_neg (by omega)] at h
          cases h
        subst hi0
        obtain rfl : d = c := by simpa using h
        exact hd
    · rw [accepted_concat_of_ne seq hd] at h
      exact ih h

theorem map_seq_accepted (l : List α) :
    (accepted seq l).map seq = (List.range (accepted seq l).length).map Int.ofNat := by
  apply List.ext_getElem?
  intro i
  by_cases hi : i < (accepted seq l).length
  · rw [List.getElem?_map, List.getElem?_map, List.getElem?_range hi, List.getElem?_eq_getElem hi]
    simp [seq_accepted seq l (List.getElem?_eq_getElem hi)]
  · simp [hi]

/-! ### Nothing skips ahead -/

theorem Contiguous.nil : Contiguous seq ([] : List α) := by
  intro p c q h
  simp at h

variable {seq}

theorem Contiguous.concat {l : List α} {c : α} (h : Contiguous seq l)
    (hc : seq c ≤ (accepted seq l).length) : Contiguous seq (l ++ [c]) := by
  intro p d q hpq
  rcases List.eq_nil_or_concat q with rfl | ⟨q', e, rfl⟩
  · obtain ⟨rfl, h1⟩ := List.append_inj' hpq rfl
    obtain rfl : c = d := by simpa using h1
    exact hc
  · refine h p d q' ?_
    have : l ++ [c] = (p ++ d :: q') ++ [e] := by simpa using hpq
    exact (List.append_inj' this rfl).1

/-- Every item that came has a number below the count of those taken. -/
theorem Contiguous.lt {l : List α} : Contiguous seq l → ∀ c ∈ l, seq c < (accepted seq l).length := by
  induction l using List.reverseRecOn with
  | nil => simp
  | append_singleton l d ih =>
    intro h c hc
    have hl : Contiguous seq l := fun p c q hpq => h p c (q ++ [d]) (by simp [hpq])
    have hd : seq d ≤ (accepted seq l).length := h l d [] rfl
    rcases List.mem_append.mp hc with hc | hc
    · have hlt := ih hl c hc
      rw [accepted_concat, accept]
      split <;> simp <;> omega
    · obtain rfl : c = d := by simpa using hc
      by_cases he : seq c = (accepted seq l).length
      · rw [accepted_concat_of_eq seq he]; simp [he]
      · rw [accepted_concat_of_ne seq he]; omega

/-- Where nothing skipped ahead, up to the last item perhaps, a taken item is
the first that came with its number. -/
theorem find?_of_accepted {l : List α} : ∀ {i : ℕ} {d : α}, Contiguous seq l.dropLast →
    (accepted seq l)[i]? = some d → l.find? (fun c => seq c = i) = some d := by
  induction l using List.reverseRecOn with
  | nil => simp
  | append_singleton l c ih =>
    intro i d h hi
    rw [List.dropLast_concat] at h
    have hl : Contiguous seq l.dropLast := by
      intro p e q hpq
      rcases List.eq_nil_or_concat l with rfl | ⟨l', f, rfl⟩
      · simp at hpq
      · rw [List.concat_eq_append] at h hpq
        rw [List.dropLast_concat] at hpq
        exact h p e (q ++ [f]) (by simp [hpq])
    rw [List.find?_append]
    by_cases hc : seq c = (accepted seq l).length
    · rw [accepted_concat_of_eq seq hc, List.getElem?_append] at hi
      split at hi
      · rw [ih hl hi]; rfl
      · rename_i hle
        have hi0 : i = (accepted seq l).length := by
          by_contra hne
          rw [List.getElem?_singleton, if_neg (by omega)] at hi
          cases hi
        subst hi0
        obtain rfl : c = d := by simpa using hi
        -- no earlier item has this number, since all are below the count
        have hnone : l.find? (fun e => seq e = (accepted seq l).length) = none := by
          rw [List.find?_eq_none]
          intro e he
          have := h.lt e he
          simp only [decide_eq_true_eq]
          omega
        rw [hnone]
        simp [hc]
    · rw [accepted_concat_of_ne seq hc] at hi
      rw [ih hl hi]; rfl

/-! ### Numbered senders -/

theorem numbered_append {a : ℤ} {l l' : List α} :
    Numbered seq a (l ++ l') ↔ Numbered seq a l ∧ Numbered seq (a + l.length) l' := by
  induction l generalizing a with
  | nil => simp [Numbered]
  | cons c l ih =>
    simp only [List.cons_append, Numbered, ih, List.length_cons, and_assoc]
    rw [show a + 1 + (l.length : ℤ) = a + ((l.length + 1 : ℕ) : ℤ) by push_cast; ring]

theorem Numbered.take {a : ℤ} {l : List α} (h : Numbered seq a l) (n : ℕ) :
    Numbered seq a (l.take n) := by
  rw [← List.take_append_drop n l, numbered_append] at h
  exact h.1

theorem numbered_iff_getElem? {a : ℤ} {l : List α} :
    Numbered seq a l ↔ ∀ (i : ℕ) (c : α), l[i]? = some c → seq c = a + i := by
  induction l generalizing a with
  | nil => simp [Numbered]
  | cons d l ih =>
    simp only [Numbered, ih]
    constructor
    · rintro ⟨h0, h⟩ i c hc
      cases i with
      | zero =>
        obtain rfl : d = c := by simpa using hc
        simpa using h0
      | succ i =>
        have := h i c (by simpa using hc)
        push_cast
        omega
    · intro h
      refine ⟨by simpa using h 0 d rfl, fun i c hc => ?_⟩
      have := h (i + 1) c (by simpa using hc)
      push_cast at this
      omega

theorem map_seq_of_numbered {l : List α} (h : Numbered seq 0 l) :
    l.map seq = (List.range l.length).map Int.ofNat := by
  apply List.ext_getElem?
  intro i
  by_cases hi : i < l.length
  · rw [List.getElem?_map, List.getElem?_map, List.getElem?_range hi, List.getElem?_eq_getElem hi]
    simp [numbered_iff_getElem?.mp h i _ (List.getElem?_eq_getElem hi)]
  · simp [hi]

/-- A sender that starts at or below the count of items taken adds what it has
beyond them. -/
theorem foldl_accept_numbered : ∀ {l : List α} {acc : List α} {a : ℤ}, Numbered seq a l →
    a ≤ acc.length → l.foldl (accept seq) acc = acc ++ l.drop (acc.length - a).toNat
  | [], _, _, _, _ => by simp
  | c :: l, acc, a, h, ha => by
    rw [List.foldl_cons]
    by_cases hc : a = acc.length
    · rw [accept, if_pos (h.1.trans hc), foldl_accept_numbered h.2 (by simp; omega)]
      simp [hc]
    · rw [accept, if_neg (by rw [h.1]; exact hc), foldl_accept_numbered h.2 (by omega)]
      have : ((acc.length : ℤ) - a).toNat = ((acc.length : ℤ) - (a + 1)).toNat + 1 := by omega
      rw [this, List.drop_succ_cons]

theorem accepted_of_numbered {l : List α} (h : Numbered seq 0 l) : accepted seq l = l := by
  simpa [accepted] using @foldl_accept_numbered α seq l [] 0 h (by simp)

/-- One sender numbered from 0, then another that replays from `a`: the second
adds what lies beyond the first. -/
theorem accepted_append_of_numbered {l l' : List α} {a : ℤ} (h : Numbered seq 0 l)
    (h' : Numbered seq a l') (ha : a ≤ l.length) :
    accepted seq (l ++ l') = l ++ l'.drop (l.length - a).toNat := by
  have h1 : accepted seq (l ++ l') = l'.foldl (accept seq) (accepted seq l) := by
    simp [accepted, List.foldl_append]
  rw [h1, accepted_of_numbered h, foldl_accept_numbered h' ha]

theorem contiguous_of_numbered {l : List α} (h : Numbered seq 0 l) : Contiguous seq l := by
  intro p c q hpq
  rw [hpq, numbered_append] at h
  rw [accepted_of_numbered h.1]
  simpa using h.2.1.le

/-- A second sender that replays from a number already taken skips nothing. -/
theorem contiguous_append_of_numbered {l l' : List α} {a : ℤ} (h : Numbered seq 0 l)
    (h' : Numbered seq a l') (ha : a ≤ l.length) : Contiguous seq (l ++ l') := by
  intro p c q hpq
  rcases List.append_eq_append_iff.mp hpq with ⟨p', rfl, hl'⟩ | ⟨q', rfl, hq⟩
  · -- the item is one of the second sender
    rw [hl', numbered_append] at h'
    have hc : seq c = a + p'.length := h'.2.1
    rw [accepted_append_of_numbered h h'.1 ha, List.length_append, List.length_drop]
    omega
  · cases q' with
    | nil =>
      rw [List.nil_append] at hq
      rw [← hq] at h'
      rw [List.append_nil] at h ha
      rw [accepted_of_numbered h, h'.1]
      exact ha
    | cons d q' =>
      obtain ⟨rfl, -⟩ := List.cons.inj hq
      exact contiguous_of_numbered h p c q' rfl

end InOrder
end Sgm
