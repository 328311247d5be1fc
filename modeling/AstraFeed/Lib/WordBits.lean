import Mathlib.Data.Finset.Max
import Mathlib.Data.Nat.Bits
import Mathlib.Tactic.Ring

/-!
# The set bits of a word

The highest and the lowest set bit of a nonzero word, and the masks that keep the bits at, below
or above a position.
-/

namespace WordBits

variable {w : ℕ}

/-- The position of the highest set bit, from the count of leading zeros. -/
def bitHigh (x : BitVec w) : ℕ := w - 1 - x.clz.toNat

/-- The position of the lowest set bit, from the count of trailing zeros. -/
def bitLow (x : BitVec w) : ℕ := x.ctz.toNat

theorem ne_zero_of_getLsbD {x : BitVec w} {i : ℕ} (h : x.getLsbD i = true) : x ≠ 0#w := by
  rintro rfl
  simp at h

theorem exists_getLsbD_of_ne_zero {x : BitVec w} (hx : x ≠ 0#w) :
    ∃ i < w, x.getLsbD i = true := by
  by_contra hno
  push Not at hno
  apply hx
  apply BitVec.eq_of_getLsbD_eq
  intro i hi
  simpa using hno i hi

theorem getLsbD_bitHigh {x : BitVec w} (hx : x ≠ 0#w) : x.getLsbD (bitHigh x) = true := by
  have hw : 0 < w := by
    obtain ⟨i, hi, -⟩ := exists_getLsbD_of_ne_zero hx
    omega
  exact BitVec.getLsbD_true_clz_of_ne_zero hw hx

theorem bitHigh_lt {x : BitVec w} (hx : x ≠ 0#w) : bitHigh x < w := by
  obtain ⟨i, hi, -⟩ := exists_getLsbD_of_ne_zero hx
  unfold bitHigh
  omega

theorem le_bitHigh {x : BitVec w} {i : ℕ} (h : x.getLsbD i = true) : i ≤ bitHigh x := by
  by_contra hlt
  have hx := ne_zero_of_getLsbD h
  have hclz : x.clz.toNat < w := by
    have := BitVec.clz_lt_iff_ne_zero.2 hx
    simpa [BitVec.lt_def, Nat.mod_eq_of_lt Nat.lt_two_pow_self] using this
  have hbound : x.toNat < 2 ^ i := by
    refine lt_of_lt_of_le BitVec.toNat_lt_two_pow_sub_clz ?_
    apply Nat.pow_le_pow_right (by decide)
    unfold bitHigh at hlt
    omega
  rw [← BitVec.testBit_toNat, Nat.testBit_lt_two_pow hbound] at h
  simp at h

theorem getLsbD_bitLow {x : BitVec w} (hx : x ≠ 0#w) : x.getLsbD (bitLow x) = true :=
  BitVec.getLsbD_true_ctz_of_ne_zero hx

theorem bitLow_lt {x : BitVec w} (hx : x ≠ 0#w) : bitLow x < w := by
  by_contra hge
  have := getLsbD_bitLow hx
  rw [BitVec.getLsbD_of_ge _ _ (by omega)] at this
  simp at this

theorem bitLow_le {x : BitVec w} {i : ℕ} (h : x.getLsbD i = true) : bitLow x ≤ i := by
  by_contra hlt
  have := BitVec.getLsbD_false_of_lt_ctz (x := x) (i := i) (by unfold bitLow at hlt; omega)
  simp [h] at this

/-! ## Masks -/

theorem getLsbD_oneShift {b i : ℕ} (hi : i < w) : (1#w <<< b).getLsbD i = decide (i = b) := by
  simp only [BitVec.getLsbD_shiftLeft, BitVec.getLsbD_one, hi]
  by_cases h : i = b
  · subst h
    simp
    omega
  · rcases Nat.lt_or_gt_of_ne h with h' | h'
    · simp [h, h']
    · have h1 : ¬ i < b := by omega
      have h2 : i - b ≠ 0 := by omega
      simp [h, h1, h2]

theorem getLsbD_or_oneShift (x : BitVec w) {b i : ℕ} (hi : i < w) :
    (x ||| 1#w <<< b).getLsbD i = (x.getLsbD i || decide (i = b)) := by
  rw [BitVec.getLsbD_or, getLsbD_oneShift hi]

theorem getLsbD_and_not_oneShift (x : BitVec w) {b i : ℕ} (hi : i < w) :
    (x &&& ~~~(1#w <<< b)).getLsbD i = (x.getLsbD i && !decide (i = b)) := by
  rw [BitVec.getLsbD_and, BitVec.getLsbD_not, getLsbD_oneShift hi]
  simp [hi]

theorem getLsbD_allOnes_shiftRight {n i : ℕ} :
    (BitVec.allOnes w >>> n).getLsbD i = decide (i + n < w) := by
  simp [BitVec.getLsbD_ushiftRight, BitVec.getLsbD_allOnes, Nat.add_comm]

theorem getLsbD_allOnes_shiftLeft {n i : ℕ} (hi : i < w) :
    (BitVec.allOnes w <<< n).getLsbD i = decide (n ≤ i) := by
  simp only [BitVec.getLsbD_shiftLeft, BitVec.getLsbD_allOnes, hi, decide_true, Bool.true_and]
  by_cases h : i < n
  · simp [h]
  · have h1 : i - n < w := by omega
    simp [h, h1]
    omega

end WordBits
