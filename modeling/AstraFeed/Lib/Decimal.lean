import Mathlib.Data.List.Basic
import Mathlib.Data.List.Induction
import Mathlib.Data.Nat.Bits
import Mathlib.Data.Nat.Init
import Mathlib.Tactic.Ring

/-!
# Decimals

The decimal of a number in ASCII bytes, and the number a string of digits stands for. A string of
digits without a leading zero is the decimal of its number (`digits_value`), so a reader that
rejects leading zeros can rebuild what it read.
-/

namespace Decimal

def isDigit (b : UInt8) : Bool := 48 ≤ b && b ≤ 57

def digits (n : ℕ) : List UInt8 := (Nat.toDigits 10 n).map Char.toUInt8

def value (ds : List UInt8) : ℕ := ds.foldl (fun n b => 10 * n + (b.toNat - 48)) 0

theorem isDigit_iff {b : UInt8} : isDigit b = true ↔ 48 ≤ b.toNat ∧ b.toNat ≤ 57 := by
  simp [isDigit, UInt8.le_iff_toNat_le]

theorem toUInt8_digitChar : ∀ d < 10, d.digitChar.toUInt8 = UInt8.ofNat (48 + d) := by decide

theorem toNat_digit {d : ℕ} (h : d < 10) : (UInt8.ofNat (48 + d)).toNat = 48 + d :=
  UInt8.toNat_ofNat_of_lt (show 48 + d < 256 by omega)

theorem isDigit_digit {d : ℕ} (h : d < 10) : isDigit (UInt8.ofNat (48 + d)) = true := by
  rw [isDigit_iff, toNat_digit h]
  omega

theorem digits_of_lt {n : ℕ} (h : n < 10) : digits n = [UInt8.ofNat (48 + n)] := by
  rw [digits, Nat.toDigits_of_lt_base h, List.map_singleton, toUInt8_digitChar n h]

theorem digits_of_le {n : ℕ} (h : 10 ≤ n) :
    digits n = digits (n / 10) ++ [UInt8.ofNat (48 + n % 10)] := by
  rw [digits, Nat.toDigits_of_base_le (by decide) h, List.map_append, List.map_singleton,
    toUInt8_digitChar _ (Nat.mod_lt n (by decide))]
  rfl

theorem digits_ne_nil (n : ℕ) : digits n ≠ [] := by
  simp [digits, Nat.toDigits_ne_nil]

theorem length_digits_le {n k : ℕ} (hk : 0 < k) (h : n < 10 ^ k) : (digits n).length ≤ k := by
  rw [digits, List.length_map]
  exact (Nat.length_toDigits_le_iff (by decide) hk).2 h

@[simp] theorem value_nil : value [] = 0 := rfl

theorem value_concat (ds : List UInt8) (b : UInt8) :
    value (ds ++ [b]) = 10 * value ds + (b.toNat - 48) := by
  simp [value, List.foldl_append]

theorem value_digits (n : ℕ) : value (digits n) = n := by
  induction n using Nat.strong_induction_on with
  | _ n ih =>
    rcases Nat.lt_or_ge n 10 with h | h
    · rw [digits_of_lt h, ← List.nil_append [_], value_concat, toNat_digit h]
      simp
    · rw [digits_of_le h, value_concat, ih (n / 10) (by omega),
        toNat_digit (Nat.mod_lt n (by decide))]
      omega

theorem isDigit_of_mem_digits (n : ℕ) : ∀ b ∈ digits n, isDigit b = true := by
  induction n using Nat.strong_induction_on with
  | _ n ih =>
    intro b hb
    rcases Nat.lt_or_ge n 10 with h | h
    · rw [digits_of_lt h, List.mem_singleton] at hb
      rw [hb]
      exact isDigit_digit h
    · rw [digits_of_le h, List.mem_append, List.mem_singleton] at hb
      rcases hb with hb | rfl
      · exact ih (n / 10) (by omega) b hb
      · exact isDigit_digit (Nat.mod_lt n (by decide))

/-- The decimal of a positive number does not begin with zero. -/
theorem head_digits {n : ℕ} (hn : 0 < n) : (digits n).head? ≠ some 48 := by
  induction n using Nat.strong_induction_on with
  | _ n ih =>
    rcases Nat.lt_or_ge n 10 with h | h
    · rw [digits_of_lt h]
      intro heq
      have := congrArg UInt8.toNat (Option.some.inj heq)
      rw [toNat_digit h] at this
      have : 48 + n = 48 := this
      omega
    · rw [digits_of_le h, List.head?_append_of_ne_nil _ (digits_ne_nil _)]
      exact ih (n / 10) (by omega) (by omega)

theorem value_pos {ds : List UInt8} (hne : ds ≠ []) (hd : ∀ b ∈ ds, isDigit b = true)
    (hhead : ds.head? ≠ some 48) : 0 < value ds := by
  induction ds using List.reverseRecOn with
  | nil => exact absurd rfl hne
  | append_singleton ds b ih =>
    rw [value_concat]
    have hb := isDigit_iff.1 (hd b (by simp))
    rcases eq_or_ne ds [] with rfl | hds
    · have hb48 : b.toNat ≠ 48 := fun h => hhead (by simpa using UInt8.toNat_inj.1 h)
      omega
    · rw [List.head?_append_of_ne_nil _ hds] at hhead
      have := ih hds (fun c hc => hd c (by simp [hc])) hhead
      omega

theorem digits_value {ds : List UInt8} (hne : ds ≠ []) (hd : ∀ b ∈ ds, isDigit b = true)
    (hhead : ds.head? ≠ some 48) : digits (value ds) = ds := by
  induction ds using List.reverseRecOn with
  | nil => exact absurd rfl hne
  | append_singleton ds b ih =>
    have hb := isDigit_iff.1 (hd b (by simp))
    have hbyte : UInt8.ofNat (48 + (b.toNat - 48)) = b := by
      rw [show 48 + (b.toNat - 48) = b.toNat by omega]
      exact UInt8.ofNat_toNat
    rw [value_concat]
    rcases eq_or_ne ds [] with rfl | hds
    · rw [value_nil, Nat.mul_zero, Nat.zero_add, digits_of_lt (by omega), hbyte]
      rfl
    · rw [List.head?_append_of_ne_nil _ hds] at hhead
      have hds' : ∀ c ∈ ds, isDigit c = true := fun c hc => hd c (by simp [hc])
      have hpos := value_pos hds hds' hhead
      rw [digits_of_le (by omega),
        show (10 * value ds + (b.toNat - 48)) / 10 = value ds by omega,
        show (10 * value ds + (b.toNat - 48)) % 10 = b.toNat - 48 by omega, hbyte,
        ih hds hds' hhead]

end Decimal
