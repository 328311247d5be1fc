import Mathlib.Data.Int.Log
import Mathlib.Data.Rat.Floor
import Mathlib.Tactic.Linarith

/-!
# Rounding to a precision

A number rounded to the nearest one of so many binary digits, and to the even one of two that are as
near. The exponent is not bounded.
-/

namespace Precision

variable {x y : ℚ} {bits : ℕ}

/-! ## Whole numbers -/

/-- The nearest whole number, and the even one of two. -/
def roundEven (x : ℚ) : ℤ :=
  if Int.fract x < 1 / 2 then ⌊x⌋
  else if 1 / 2 < Int.fract x then ⌊x⌋ + 1
  else if Even ⌊x⌋ then ⌊x⌋
  else ⌊x⌋ + 1

theorem floor_le_roundEven (x : ℚ) : ⌊x⌋ ≤ roundEven x := by
  unfold roundEven
  split_ifs <;> omega

theorem roundEven_le_floor_add_one (x : ℚ) : roundEven x ≤ ⌊x⌋ + 1 := by
  unfold roundEven
  split_ifs <;> omega

theorem roundEven_intCast (n : ℤ) : roundEven n = n := by
  unfold roundEven
  rw [Int.fract_intCast, Int.floor_intCast, if_pos (by norm_num)]

theorem roundEven_mono (h : x ≤ y) : roundEven x ≤ roundEven y := by
  rcases (Int.floor_le_floor h).lt_or_eq with hlt | heq
  · have hx := roundEven_le_floor_add_one x
    have hy := floor_le_roundEven y
    omega
  · have hfract : Int.fract x ≤ Int.fract y := by
      unfold Int.fract
      rw [heq]
      exact sub_le_sub_right h _
    unfold roundEven
    rw [heq]
    split_ifs <;> first | omega | (exfalso; linarith)

/-! ## Digits -/

/-- The place of the last digit. -/
def ulp (bits : ℕ) (x : ℚ) : ℚ := 2 ^ (Int.log 2 x + 1 - bits)

def roundTo (bits : ℕ) (x : ℚ) : ℚ := roundEven (x / ulp bits x) * ulp bits x

theorem ulp_pos (bits : ℕ) (x : ℚ) : 0 < ulp bits x := zpow_pos two_pos _

/-- A power of two from the last place on is a multiple of it. -/
theorem two_zpow_eq (e : ℤ) (bits : ℕ) (k : ℕ) (he : Int.log 2 x + 1 - bits + k = e) :
    (2 : ℚ) ^ e = ((2 ^ k : ℤ) : ℚ) * ulp bits x := by
  unfold ulp
  rw [← he, zpow_add₀ two_ne_zero, mul_comm]
  simp

theorem roundTo_nonneg (h : 0 ≤ x) : 0 ≤ roundTo bits x := by
  have hround : roundEven (0 : ℤ) ≤ roundEven (x / ulp bits x) :=
    roundEven_mono (by simpa using div_nonneg h (ulp_pos bits x).le)
  rw [roundEven_intCast] at hround
  exact mul_nonneg (by exact_mod_cast hround) (ulp_pos bits x).le

/-- A number of so many digits stays what it is. -/
theorem roundTo_of_eq (m : ℤ) (h : x = m * ulp bits x) : roundTo bits x = x := by
  have hdiv : x / ulp bits x = m := by
    rw [div_eq_iff (ulp_pos bits x).ne']
    exact h
  rw [roundTo, hdiv, roundEven_intCast]
  exact h.symm

theorem roundTo_natCast {n : ℕ} (h : n < 2 ^ bits) : roundTo bits n = n := by
  rcases Nat.eq_zero_or_pos n with rfl | hpos
  · exact roundTo_of_eq 0 (by simp)
  have hlog : Int.log 2 (n : ℚ) = Nat.log 2 n := Int.log_natCast _ _
  have hlt : Nat.log 2 n < bits := Nat.log_lt_of_lt_pow hpos.ne' h
  refine roundTo_of_eq (n * 2 ^ (bits - 1 - Nat.log 2 n)) ?_
  have hone := two_zpow_eq (x := n) 0 bits (bits - 1 - Nat.log 2 n) (by rw [hlog]; omega)
  rw [zpow_zero] at hone
  push_cast at hone ⊢
  rw [mul_assoc, ← hone, mul_one]

/-- The rounded number has the same leading digit, or is the next power of two. -/
theorem zpow_le_roundTo (hx : 0 < x) (hbits : 0 < bits) :
    (2 : ℚ) ^ Int.log 2 x ≤ roundTo bits x := by
  have hpow := two_zpow_eq (x := x) (Int.log 2 x) bits (bits - 1) (by omega)
  have hle : ((2 ^ (bits - 1) : ℤ) : ℚ) ≤ x / ulp bits x := by
    rw [le_div_iff₀ (ulp_pos bits x), ← hpow]
    exact_mod_cast Int.zpow_log_le_self one_lt_two hx
  have hround := roundEven_mono hle
  rw [roundEven_intCast] at hround
  rw [hpow]
  exact mul_le_mul_of_nonneg_right (by exact_mod_cast hround) (ulp_pos bits x).le

theorem roundTo_le_zpow (x : ℚ) (bits : ℕ) : roundTo bits x ≤ (2 : ℚ) ^ (Int.log 2 x + 1) := by
  have hpow := two_zpow_eq (x := x) (Int.log 2 x + 1) bits bits (by omega)
  have hle : x / ulp bits x ≤ ((2 ^ bits : ℤ) : ℚ) := by
    rw [div_le_iff₀ (ulp_pos bits x), ← hpow]
    exact_mod_cast (Int.lt_zpow_succ_log_self one_lt_two x).le
  have hround := roundEven_mono hle
  rw [roundEven_intCast] at hround
  rw [hpow]
  exact mul_le_mul_of_nonneg_right (by exact_mod_cast hround) (ulp_pos bits x).le

theorem roundTo_mono (hbits : 0 < bits) (hx : 0 ≤ x) (h : x ≤ y) :
    roundTo bits x ≤ roundTo bits y := by
  rcases hx.eq_or_lt with rfl | hpos
  · have hzero : roundTo bits (0 : ℕ) = (0 : ℕ) := roundTo_natCast (Nat.two_pow_pos bits)
    rw [Nat.cast_zero] at hzero
    rw [hzero]
    exact roundTo_nonneg h
  have hlog : Int.log 2 x ≤ Int.log 2 y := Int.log_mono_right hpos h
  rcases hlog.lt_or_eq with hlt | heq
  · calc roundTo bits x ≤ (2 : ℚ) ^ (Int.log 2 x + 1) := roundTo_le_zpow x bits
      _ ≤ (2 : ℚ) ^ Int.log 2 y := zpow_le_zpow_right₀ one_le_two (by omega)
      _ ≤ roundTo bits y := zpow_le_roundTo (hpos.trans_le h) hbits
  · have hulp : ulp bits x = ulp bits y := by
      rw [ulp, heq, ulp]
    have hround := roundEven_mono (div_le_div_of_nonneg_right h (ulp_pos bits y).le)
    rw [roundTo, roundTo, hulp]
    exact mul_le_mul_of_nonneg_right (by exact_mod_cast hround) (ulp_pos bits y).le

end Precision
