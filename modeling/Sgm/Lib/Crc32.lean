/-
# The CRC-32 of IEEE 802.3, and network byte order

The reflected CRC: a register of 32 bits, shifted once for each bit of the
input. Shifting is linear, and loses nothing, since the top bit of the
polynomial keeps the bit that is shifted out. Four consecutive bytes enter the
register as one word; so two inputs that differ within four consecutive bytes
have different checksums.

Key definitions: `Crc32.crc32`, `Crc32.shift`, `Crc32.word`, `beBytes`, `ofBe`.
Key theorems: `Crc32.shift_injective`, `Crc32.shift_xor`, `Crc32.crc32_alter` (a changed byte
changes the checksum), `Crc32.crc32_burst`, `Crc32.crc32_window`, `ofBe_beBytes`, `beBytes_ofBe`.
-/
import Mathlib

namespace Sgm
namespace Crc32

/-- The polynomial, lowest power first. -/
def polynomial : BitVec 32 := 0xEDB88320#32

/-- The register after one bit. -/
def shift (c : BitVec 32) : BitVec 32 :=
  if c.getLsbD 0 then (c >>> 1) ^^^ polynomial else c >>> 1

/-- The register after one byte. -/
def update (c : BitVec 32) (b : UInt8) : BitVec 32 := shift^[8] (c ^^^ b.toBitVec.setWidth 32)

def crc32 (l : List UInt8) : BitVec 32 :=
  l.foldl update (BitVec.allOnes 32) ^^^ BitVec.allOnes 32

/-- The check value of the standard. -/
example : crc32 [0x31, 0x32, 0x33, 0x34, 0x35, 0x36, 0x37, 0x38, 0x39] = 0xCBF43926#32 := by
  decide +kernel

/-- The bit shifted out is the top bit of what comes of it. -/
theorem getLsbD_shift_top (c : BitVec 32) : (shift c).getLsbD 31 = c.getLsbD 0 := by
  have htop : (c >>> 1).getLsbD 31 = false := by
    rw [BitVec.getLsbD_ushiftRight]
    exact BitVec.getLsbD_of_ge _ _ (by decide)
  have hpoly : polynomial.getLsbD 31 = true := by decide
  unfold shift
  split
  · rename_i h
    rw [BitVec.getLsbD_xor, htop, hpoly, h]
    rfl
  · rename_i h
    rw [htop]
    simpa using (Bool.eq_false_iff.mpr h).symm

theorem shift_injective : Function.Injective shift := by
  intro c d h
  have hlow : c.getLsbD 0 = d.getLsbD 0 := by
    rw [← getLsbD_shift_top, h, getLsbD_shift_top]
  have hhigh : c >>> 1 = d >>> 1 := by
    unfold shift at h
    rw [hlow] at h
    split at h
    · exact (BitVec.xor_left_inj polynomial).mp h
    · exact h
  apply BitVec.eq_of_getLsbD_eq
  intro i hi
  cases i with
  | zero => exact hlow
  | succ i =>
    have := congrArg (fun x : BitVec 32 => x.getLsbD i) hhigh
    simpa [BitVec.getLsbD_ushiftRight, Nat.add_comm] using this

theorem update_injective_left (b : UInt8) : Function.Injective fun c => update c b := by
  intro c d h
  exact (BitVec.xor_left_inj _).mp (shift_injective.iterate 8 h)

theorem update_injective_right (c : BitVec 32) : Function.Injective (update c) := by
  intro a b h
  have hw : a.toBitVec.setWidth 32 = b.toBitVec.setWidth 32 :=
    (BitVec.xor_right_inj _).mp (shift_injective.iterate 8 h)
  have hn := congrArg BitVec.toNat hw
  rw [BitVec.toNat_setWidth_of_le (by decide), BitVec.toNat_setWidth_of_le (by decide)] at hn
  exact UInt8.toNat_inj.mp hn

theorem foldl_update_injective : ∀ l : List UInt8, Function.Injective fun c => l.foldl update c
  | [] => fun _ _ h => h
  | b :: l => fun _ _ h => update_injective_left b (foldl_update_injective l h)

/-- One changed byte changes the checksum. -/
theorem crc32_alter {a b : UInt8} (h : a ≠ b) (l r : List UInt8) :
    crc32 (l ++ a :: r) ≠ crc32 (l ++ b :: r) := by
  intro he
  have hf := (BitVec.xor_left_inj _).mp he
  rw [List.foldl_append, List.foldl_append] at hf
  exact h (update_injective_right _ (foldl_update_injective r hf))

/-! ### Bursts -/

/-- Shifting is linear. -/
theorem shift_xor (c d : BitVec 32) : shift (c ^^^ d) = shift c ^^^ shift d := by
  simp only [shift, BitVec.getLsbD_xor, BitVec.ushiftRight_xor_distrib]
  cases c.getLsbD 0 <;> cases d.getLsbD 0
  · rfl
  · exact BitVec.xor_assoc _ _ _
  · show _ ^^^ polynomial = _
    rw [BitVec.xor_assoc, BitVec.xor_comm (d >>> 1), ← BitVec.xor_assoc]
    rfl
  · have hpoly : c >>> 1 ^^^ polynomial ^^^ (d >>> 1 ^^^ polynomial) = c >>> 1 ^^^ d >>> 1 := by
      rw [BitVec.xor_comm (d >>> 1), BitVec.xor_assoc, ← BitVec.xor_assoc polynomial,
        BitVec.xor_self, BitVec.zero_xor]
    exact hpoly.symm

theorem iterate_shift_xor (n : ℕ) (c d : BitVec 32) :
    shift^[n] (c ^^^ d) = shift^[n] c ^^^ shift^[n] d := by
  induction n generalizing c d with
  | zero => rfl
  | succ n ih => rw [Function.iterate_succ_apply, Function.iterate_succ_apply,
      Function.iterate_succ_apply, shift_xor, ih]

theorem toNat_shiftLeft {c : BitVec 32} {n : ℕ} (h : c.toNat * 2 ^ n < 2 ^ 32) :
    (c <<< n).toNat = c.toNat * 2 ^ n := by
  rw [BitVec.toNat_shiftLeft, Nat.shiftLeft_eq, Nat.mod_eq_of_lt h]

/-- What lies above the low bits is only moved down by the shifts. -/
theorem iterate_shift_shiftLeft {c : BitVec 32} : ∀ {n : ℕ}, c.toNat * 2 ^ n < 2 ^ 32 →
    shift^[n] (c <<< n) = c
  | 0, _ => BitVec.shiftLeft_zero c
  | n + 1, h => by
    have hn : c.toNat * 2 ^ n < 2 ^ 32 := by
      rw [Nat.pow_succ, ← Nat.mul_assoc] at h
      omega
    have hlow : (c <<< (n + 1)).getLsbD 0 = false := by simp
    have hdown : (c <<< (n + 1)) >>> 1 = c <<< n := by
      apply BitVec.eq_of_toNat_eq
      rw [BitVec.toNat_ushiftRight, toNat_shiftLeft h, toNat_shiftLeft hn, Nat.shiftRight_eq_div_pow,
        Nat.pow_succ, ← Nat.mul_assoc, Nat.pow_one, Nat.mul_div_cancel _ Nat.two_pos]
    have hshift : shift (c <<< (n + 1)) = c <<< n := by
      rw [shift, hlow, if_neg Bool.false_ne_true, hdown]
    rw [Function.iterate_succ_apply, hshift, iterate_shift_shiftLeft hn]

/-- Up to four bytes as one word, the first of them lowest. -/
def word : List UInt8 → BitVec 32
  | [] => 0#32
  | b :: l => b.toBitVec.setWidth 32 ^^^ word l <<< 8

theorem word_lt : ∀ {l : List UInt8}, l.length ≤ 4 → (word l).toNat < 2 ^ (8 * l.length)
  | [], _ => Nat.one_pos
  | b :: l, h => by
    have hl : l.length ≤ 3 := Nat.le_of_succ_le_succ h
    have ih := word_lt (Nat.le_succ_of_le hl)
    have hpow : 2 ^ (8 * (b :: l).length) = 2 ^ (8 * l.length) * 2 ^ 8 := by
      rw [List.length_cons, Nat.mul_succ, Nat.pow_add]
    have hle : 2 ^ (8 * l.length) * 2 ^ 8 ≤ 2 ^ 32 := by
      rw [← Nat.pow_add]
      exact Nat.pow_le_pow_right Nat.two_pos (by omega)
    have hmul : (word l).toNat * 2 ^ 8 < 2 ^ (8 * l.length) * 2 ^ 8 :=
      Nat.mul_lt_mul_of_pos_right ih (by decide)
    have hb : (b.toBitVec.setWidth 32).toNat < 2 ^ (8 * l.length) * 2 ^ 8 := by
      have hlt : b.toNat < 2 ^ 8 := b.toNat_lt
      have hpos : 0 < 2 ^ (8 * l.length) := Nat.two_pow_pos _
      rw [BitVec.toNat_setWidth_of_le (by decide)]
      show b.toNat < _
      nlinarith
    rw [word, BitVec.toNat_xor, toNat_shiftLeft (lt_of_lt_of_le hmul hle), hpow, ← Nat.pow_add]
    rw [← Nat.pow_add] at hb hmul
    exact Nat.xor_lt_two_pow hb hmul

/-- There is room for one more byte below three. -/
theorem word_mul_lt {l : List UInt8} (h : l.length ≤ 3) : (word l).toNat * 2 ^ 8 < 2 ^ 32 := by
  have hlt := word_lt (Nat.le_succ_of_le h)
  have hpow : 2 ^ (8 * l.length) ≤ 2 ^ 24 := Nat.pow_le_pow_right Nat.two_pos (by omega)
  omega

/-- Up to four bytes enter the register as their word. -/
theorem foldl_update_word : ∀ {l : List UInt8} (c : BitVec 32), l.length ≤ 4 →
    l.foldl update c = shift^[8 * l.length] (c ^^^ word l)
  | [], c, _ => (BitVec.xor_zero).symm
  | b :: l, c, h => by
    have hl : l.length ≤ 3 := Nat.le_of_succ_le_succ h
    have hword : word l = shift^[8] (word l <<< 8) := (iterate_shift_shiftLeft (word_mul_lt hl)).symm
    calc
      (b :: l).foldl update c = shift^[8 * l.length] (update c b ^^^ word l) := by
        rw [List.foldl_cons, foldl_update_word _ (Nat.le_succ_of_le hl)]
      _ = shift^[8 * l.length] (shift^[8] (c ^^^ b.toBitVec.setWidth 32 ^^^ word l <<< 8)) := by
        rw [iterate_shift_xor 8, ← hword, update]
      _ = shift^[8 * (b :: l).length] (c ^^^ word (b :: l)) := by
        rw [← Function.iterate_add_apply, word, BitVec.xor_assoc, List.length_cons, Nat.mul_succ]

theorem word_injective : ∀ {l l' : List UInt8}, l.length = l'.length → l.length ≤ 4 →
    word l = word l' → l = l'
  | [], [], _, _, _ => rfl
  | b :: l, b' :: l', hlen, h, he => by
    have hl : l.length ≤ 3 := Nat.le_of_succ_le_succ h
    have hlen' : l.length = l'.length := Nat.succ.inj hlen
    have hlow : ∀ (a : UInt8) (w : BitVec 32),
        (a.toBitVec.setWidth 32 ^^^ w <<< 8).setWidth 8 = a.toBitVec := by
      intro a w
      apply BitVec.eq_of_getLsbD_eq
      intro i hi
      simp [hi]
    have hb : b = b' := by
      have := congrArg (BitVec.setWidth 8) he
      rw [word, word, hlow, hlow] at this
      exact UInt8.toBitVec_inj.mp this
    subst hb
    have hshift := congrArg shift^[8] ((BitVec.xor_right_inj _).mp he)
    rw [iterate_shift_shiftLeft (word_mul_lt hl), iterate_shift_shiftLeft (word_mul_lt (hlen' ▸ hl))]
      at hshift
    rw [word_injective hlen' (Nat.le_succ_of_le hl) hshift]

/-- A change within four consecutive bytes changes the checksum. -/
theorem crc32_burst {w w' : List UInt8} (hlen : w.length = w'.length) (h : w.length ≤ 4)
    (hne : w ≠ w') (pre post : List UInt8) :
    crc32 (pre ++ (w ++ post)) ≠ crc32 (pre ++ (w' ++ post)) := by
  intro he
  have hf := (BitVec.xor_left_inj _).mp he
  simp only [List.foldl_append] at hf
  have hw := foldl_update_injective post hf
  have hshift : shift^[8 * w.length] (pre.foldl update (BitVec.allOnes 32) ^^^ word w) =
      shift^[8 * w.length] (pre.foldl update (BitVec.allOnes 32) ^^^ word w') := by
    rw [← foldl_update_word _ h, hlen, ← foldl_update_word _ (hlen ▸ h)]
    exact hw
  exact hne (word_injective hlen h ((BitVec.xor_right_inj _).mp (shift_injective.iterate _ hshift)))

/-- Inputs that differ, and only at the four places from `k` on, have
different checksums. -/
theorem crc32_window {l l' : List UInt8} (hlen : l.length = l'.length) (hne : l ≠ l') {k : ℕ}
    (h : ∀ i, l[i]? ≠ l'[i]? → k ≤ i ∧ i < k + 4) : crc32 l ≠ crc32 l' := by
  have hpre : l.take k = l'.take k := by
    apply List.ext_getElem?
    intro i
    rw [List.getElem?_take, List.getElem?_take]
    split
    · by_contra hi
      have := h i hi
      omega
    · rfl
  have hpost : l.drop (k + 4) = l'.drop (k + 4) := by
    apply List.ext_getElem?
    intro i
    rw [List.getElem?_drop, List.getElem?_drop]
    by_contra hi
    have := h _ hi
    omega
  have hsplit : ∀ m : List UInt8, m = m.take k ++ ((m.drop k).take 4 ++ m.drop (k + 4)) := by
    intro m
    rw [← List.drop_drop, List.take_append_drop, List.take_append_drop]
  have hword : (l.drop k).take 4 ≠ (l'.drop k).take 4 := by
    intro hw
    apply hne
    rw [hsplit l, hsplit l', hpre, hw, hpost]
  have hwlen : ((l.drop k).take 4).length = ((l'.drop k).take 4).length := by
    rw [List.length_take, List.length_take, List.length_drop, List.length_drop, hlen]
  have hburst := crc32_burst hwlen (List.length_take_le 4 _) hword (l.take k) (l.drop (k + 4))
  rwa [← hsplit, hpre, hpost, ← hsplit] at hburst

end Crc32

/-! ### Network byte order -/

/-- The lowest `w` bytes of `n`, the highest of them first. -/
def beBytes : ℕ → ℕ → List UInt8
  | 0, _ => []
  | w + 1, n => UInt8.ofNat (n / 256 ^ w) :: beBytes w n

/-- The number that these bytes are, read after the number `n`. -/
def ofBeFrom (n : ℕ) (l : List UInt8) : ℕ := l.foldl (fun n b => n * 256 + b.toNat) n

def ofBe (l : List UInt8) : ℕ := ofBeFrom 0 l

@[simp] theorem length_beBytes : ∀ w n : ℕ, (beBytes w n).length = w
  | 0, _ => rfl
  | w + 1, n => by rw [beBytes, List.length_cons, length_beBytes w n]

theorem ofBeFrom_beBytes : ∀ w n m : ℕ, ofBeFrom m (beBytes w n) = m * 256 ^ w + n % 256 ^ w
  | 0, n, m => by simp [beBytes, ofBeFrom, Nat.mod_one]
  | w + 1, n, m => by
    have ih := ofBeFrom_beBytes w n (m * 256 + n / 256 ^ w % 256)
    have hb : (UInt8.ofNat (n / 256 ^ w)).toNat = n / 256 ^ w % 256 := UInt8.toNat_ofNat'
    rw [beBytes, ofBeFrom, List.foldl_cons, hb]
    rw [ofBeFrom] at ih
    rw [ih, Nat.pow_succ, Nat.mod_mul]
    ring

theorem ofBe_beBytes {w n : ℕ} (h : n < 256 ^ w) : ofBe (beBytes w n) = n := by
  rw [ofBe, ofBeFrom_beBytes, Nat.mod_eq_of_lt h]
  omega

theorem beBytes_add (w n a : ℕ) : beBytes w (n + a * 256 ^ w) = beBytes w n := by
  induction w generalizing a with
  | zero => rfl
  | succ w ih =>
    have hpow : a * 256 ^ (w + 1) = a * 256 * 256 ^ w := by
      rw [Nat.pow_succ]
      ring
    have hhead : UInt8.ofNat ((n + a * 256 * 256 ^ w) / 256 ^ w) = UInt8.ofNat (n / 256 ^ w) := by
      rw [Nat.add_mul_div_right _ _ (by positivity)]
      apply UInt8.toNat_inj.mp
      rw [UInt8.toNat_ofNat', UInt8.toNat_ofNat']
      omega
    rw [beBytes, beBytes, hpow, hhead, ih]

theorem ofBeFrom_eq (l : List UInt8) (n : ℕ) : ofBeFrom n l = n * 256 ^ l.length + ofBe l := by
  induction l generalizing n with
  | nil => simp [ofBe, ofBeFrom]
  | cons b l ih =>
    have hcons : ∀ m, ofBeFrom m (b :: l) = ofBeFrom (m * 256 + b.toNat) l := fun _ => rfl
    rw [ofBe, hcons, hcons, ih, ih (0 * 256 + b.toNat), List.length_cons, Nat.pow_succ]
    ring

theorem ofBe_cons (b : UInt8) (l : List UInt8) :
    ofBe (b :: l) = b.toNat * 256 ^ l.length + ofBe l := by
  have hcons : ofBe (b :: l) = ofBeFrom (0 * 256 + b.toNat) l := rfl
  rw [hcons, ofBeFrom_eq, Nat.zero_mul, Nat.zero_add]

theorem ofBe_lt : ∀ l : List UInt8, ofBe l < 256 ^ l.length
  | [] => Nat.one_pos
  | b :: l => by
    have ih := ofBe_lt l
    have hb : b.toNat < 256 := b.toNat_lt
    rw [ofBe_cons, List.length_cons, Nat.pow_succ]
    nlinarith

/-- The bytes of the number that they are. -/
theorem beBytes_ofBe : ∀ l : List UInt8, beBytes l.length (ofBe l) = l
  | [] => rfl
  | b :: l => by
    have hpos : 0 < 256 ^ l.length := by positivity
    have hhead : (b.toNat * 256 ^ l.length + ofBe l) / 256 ^ l.length = b.toNat := by
      rw [Nat.mul_comm, Nat.mul_add_div hpos, Nat.div_eq_of_lt (ofBe_lt l), Nat.add_zero]
    rw [List.length_cons, beBytes, ofBe_cons, hhead, Nat.add_comm, beBytes_add, beBytes_ofBe l,
      UInt8.ofNat_toNat]

end Sgm
