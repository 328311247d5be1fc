import Mathlib.Algebra.Order.Group.Nat
import Mathlib.Data.Nat.Bits
import Mathlib.Tactic.Ring

/-!
# Rounding up to a power of two

A number rounded up to a multiple, and the same for a word, where the low bits are cleared.
-/

namespace RoundUp

/-- The least multiple of `a` from `n` on. -/
def roundUp (n a : ℕ) : ℕ := (n + a - 1) / a * a

theorem dvd_roundUp (n a : ℕ) : a ∣ roundUp n a := Nat.dvd_mul_left _ _

theorem le_roundUp {n a : ℕ} (ha : 0 < a) : n ≤ roundUp n a := by
  have hdiv := Nat.div_add_mod (n + a - 1) a
  have hmod := Nat.mod_lt (n + a - 1) ha
  unfold roundUp
  rw [Nat.mul_comm] at hdiv
  omega

/-- The larger of two powers of two is a power of two. -/
theorem isPowerOfTwo_max {a b : ℕ} (ha : a.isPowerOfTwo) (hb : b.isPowerOfTwo) :
    (max a b).isPowerOfTwo := by
  rcases Nat.le_total a b with h | h
  · rwa [Nat.max_eq_right h]
  · rwa [Nat.max_eq_left h]

theorem dvd_of_isPowerOfTwo {a b : ℕ} (ha : a.isPowerOfTwo) (hb : b.isPowerOfTwo) (h : a ≤ b) :
    a ∣ b := by
  obtain ⟨i, rfl⟩ := ha
  obtain ⟨j, rfl⟩ := hb
  exact Nat.pow_dvd_pow 2 ((Nat.pow_le_pow_iff_right (by decide)).1 h)

/-- A mask without its `k` low bits rounds down to a multiple of `2 ^ k`. -/
theorem and_highMask {x k w : ℕ} (hx : x < 2 ^ w) (hk : k ≤ w) :
    x &&& (2 ^ w - 1 - (2 ^ k - 1)) = x / 2 ^ k * 2 ^ k := by
  have hmask : 2 ^ w - 1 - (2 ^ k - 1) = (2 ^ (w - k) - 1) * 2 ^ k := by
    rw [Nat.sub_mul, ← Nat.pow_add, Nat.sub_add_cancel hk]
    have := Nat.two_pow_pos k
    omega
  refine Nat.eq_of_testBit_eq fun i => ?_
  rw [hmask, Nat.testBit_and, Nat.testBit_mul_two_pow, Nat.testBit_mul_two_pow,
    Nat.testBit_two_pow_sub_one, Nat.testBit_div_two_pow]
  by_cases hi : k ≤ i
  · rw [Nat.sub_add_cancel hi]
    by_cases hiw : i < w
    · simp [hi, show i - k < w - k by omega]
    · have hout : x.testBit i = false :=
        Nat.testBit_lt_two_pow (hx.trans_le (Nat.pow_le_pow_right (by decide) (by omega)))
      simp [hout]
  · simp [hi]

variable {x a : UInt64}

theorem toNat_sub_one (ha : 0 < a.toNat) : (a - 1).toNat = a.toNat - 1 :=
  UInt64.toNat_sub_of_le _ _ (UInt64.le_iff_toNat_le.2 ha)

/-- Clearing the low bits of `x + (a - 1)` rounds `x` up. -/
theorem toNat_roundUp (ha : a.toNat.isPowerOfTwo) (hfit : x.toNat + (a.toNat - 1) < 2 ^ 64) :
    ((x + a - 1) &&& ~~~(a - 1)).toNat = roundUp x.toNat a.toNat := by
  obtain ⟨k, hk⟩ := ha
  have hpos : 0 < a.toNat := by
    rw [hk]
    exact Nat.two_pow_pos k
  have hk64 : k ≤ 64 := by
    have hlt := a.toNat_lt
    rw [hk] at hlt
    exact ((Nat.pow_lt_pow_iff_right (by decide)).1 hlt).le
  have hsum : (x + a - 1).toNat = x.toNat + a.toNat - 1 := by
    have hassoc : x + a - 1 = x + (a - 1) := by
      rw [UInt64.sub_eq_add_neg, UInt64.sub_eq_add_neg, UInt64.add_assoc]
    rw [hassoc, UInt64.toNat_add, toNat_sub_one hpos, Nat.mod_eq_of_lt hfit]
    omega
  rw [UInt64.toNat_and, UInt64.toNat_not, hsum, toNat_sub_one hpos, roundUp, hk]
  exact and_highMask (by omega) hk64

end RoundUp
