import Mathlib.Data.List.Induction
import Mathlib.Data.Nat.Bits
import Mathlib.Tactic.Ring

/-!
# Numbers as bytes

A number of `k` bytes, the most significant first, and back. A word that shifts bytes in holds the
number they stand for.
-/

namespace BigEndian

/-- The `k` low bytes of a number, the most significant first. -/
def toBytes : ℕ → ℕ → List UInt8
  | 0, _ => []
  | k + 1, n => toBytes k (n / 256) ++ [n.toUInt8]

def ofBytes (bytes : List UInt8) : ℕ := bytes.foldl (fun n b => n * 256 + b.toNat) 0

@[simp] theorem length_toBytes (k n : ℕ) : (toBytes k n).length = k := by
  induction k generalizing n with
  | zero => rfl
  | succ k ih => rw [toBytes, List.length_append, ih, List.length_singleton]

/-- The most significant byte is the first. -/
theorem toBytes_succ (k n : ℕ) : toBytes (k + 1) n = (n / 256 ^ k).toUInt8 :: toBytes k n := by
  induction k generalizing n with
  | zero =>
    rw [Nat.pow_zero, Nat.div_one]
    rfl
  | succ k ih =>
    rw [toBytes, ih, toBytes, Nat.div_div_eq_div_mul, ← Nat.pow_succ', List.cons_append]

theorem ofBytes_concat (bytes : List UInt8) (b : UInt8) :
    ofBytes (bytes ++ [b]) = ofBytes bytes * 256 + b.toNat := by
  rw [ofBytes, List.foldl_append]
  rfl

theorem ofBytes_toBytes {k n : ℕ} (h : n < 256 ^ k) : ofBytes (toBytes k n) = n := by
  induction k generalizing n with
  | zero =>
    rw [Nat.pow_zero] at h
    rw [Nat.lt_one_iff.1 h]
    rfl
  | succ k ih =>
    have hdiv : n / 256 < 256 ^ k := by
      rw [Nat.pow_succ] at h
      exact Nat.div_lt_of_lt_mul (by rwa [Nat.mul_comm])
    rw [toBytes, ofBytes_concat, ih hdiv]
    have hbyte : n.toUInt8.toNat = n % 256 := UInt8.toNat_ofNat'
    rw [hbyte]
    exact Nat.div_add_mod' n 256

theorem ofBytes_lt (bytes : List UInt8) : ofBytes bytes < 256 ^ bytes.length := by
  induction bytes using List.reverseRecOn with
  | nil => decide
  | append_singleton bytes b ih =>
    rw [ofBytes_concat, List.length_append, List.length_singleton, Nat.pow_succ]
    have := b.toNat_lt
    omega

theorem toBytes_ofBytes (bytes : List UInt8) : toBytes bytes.length (ofBytes bytes) = bytes := by
  induction bytes using List.reverseRecOn with
  | nil => rfl
  | append_singleton bytes b ih =>
    have hb := b.toNat_lt
    rw [ofBytes_concat, List.length_append, List.length_singleton, toBytes]
    have hdiv : (ofBytes bytes * 256 + b.toNat) / 256 = ofBytes bytes := by omega
    have hbyte : (ofBytes bytes * 256 + b.toNat).toUInt8 = b := by
      refine UInt8.toNat_inj.1 (UInt8.toNat_ofNat'.trans ?_)
      omega
    rw [hdiv, hbyte, ih]

/-- Numbers of the same width are known from their bytes. -/
theorem toBytes_inj {k m n : ℕ} (hm : m < 256 ^ k) (hn : n < 256 ^ k)
    (h : toBytes k m = toBytes k n) : m = n := by
  rw [← ofBytes_toBytes hm, h, ofBytes_toBytes hn]

/-- What a shift leaves free takes a smaller number. -/
theorem shiftLeft_or_of_lt (n : ℕ) {k m : ℕ} (h : m < 2 ^ k) : n <<< k ||| m = 2 ^ k * n + m := by
  rw [Nat.shiftLeft_eq, Nat.mul_comm, Nat.two_pow_add_eq_or_of_lt h]

/-- A shift by a byte and an `or` append the byte. -/
theorem shiftLeft_or (n : ℕ) (b : UInt8) : n <<< 8 ||| b.toNat = n * 256 + b.toNat := by
  rw [shiftLeft_or_of_lt n b.toNat_lt]
  omega

/-- A word that bytes are shifted into holds their number. -/
theorem toNat_foldl_shift {bytes : List UInt8} (h : bytes.length ≤ 8) :
    (bytes.foldl (fun (v : UInt64) b => v <<< 8 ||| b.toUInt64) 0).toNat = ofBytes bytes := by
  induction bytes using List.reverseRecOn with
  | nil => rfl
  | append_singleton bytes b ih =>
    rw [List.length_append, List.length_singleton] at h
    have hlt := ofBytes_lt bytes
    have hpow : 256 ^ bytes.length * 256 ≤ 2 ^ 64 := by
      rw [← Nat.pow_succ, show (2 : ℕ) ^ 64 = 256 ^ 8 from rfl]
      exact Nat.pow_le_pow_right (by decide) h
    rw [List.foldl_append, List.foldl_cons, List.foldl_nil, ofBytes_concat, UInt64.toNat_or,
      UInt64.toNat_shiftLeft, UInt8.toNat_toUInt64, ih (by omega)]
    rw [show (8 : UInt64).toNat % 64 = 8 from rfl, Nat.mod_eq_of_lt, shiftLeft_or]
    rw [Nat.shiftLeft_eq]
    omega

/-- Four bytes shifted to their places. -/
theorem toUInt32_or (b0 b1 b2 b3 : UInt8) :
    b0.toUInt32 <<< 24 ||| b1.toUInt32 <<< 16 ||| b2.toUInt32 <<< 8 ||| b3.toUInt32
      = (ofBytes [b0, b1, b2, b3]).toUInt32 := by
  have h0 := b0.toNat_lt
  have h1 := b1.toNat_lt
  have h2 := b2.toNat_lt
  have h3 := b3.toNat_lt
  have hof : ofBytes [b0, b1, b2, b3]
      = ((b0.toNat * 256 + b1.toNat) * 256 + b2.toNat) * 256 + b3.toNat := by
    unfold ofBytes
    simp only [List.foldl_cons, List.foldl_nil, Nat.zero_mul, Nat.zero_add]
  have hlow := shiftLeft_or_of_lt b2.toNat h3
  have hmid := shiftLeft_or_of_lt b1.toNat (k := 16) (m := 2 ^ 8 * b2.toNat + b3.toNat) (by omega)
  have hhigh := shiftLeft_or_of_lt b0.toNat (k := 24)
    (m := 2 ^ 16 * b1.toNat + (2 ^ 8 * b2.toNat + b3.toNat)) (by omega)
  have hshift : ∀ (b : UInt8) (k : ℕ), k ≤ 24 → b.toNat <<< k % 2 ^ 32 = b.toNat <<< k := by
    intro b k hk
    have hb := b.toNat_lt
    refine Nat.mod_eq_of_lt ?_
    rw [Nat.shiftLeft_eq]
    calc b.toNat * 2 ^ k < 2 ^ 8 * 2 ^ k := Nat.mul_lt_mul_of_pos_right hb (Nat.two_pow_pos k)
      _ = 2 ^ (8 + k) := (Nat.pow_add 2 8 k).symm
      _ ≤ 2 ^ 32 := Nat.pow_le_pow_right (by decide) (by omega)
  refine UInt32.toNat_inj.1 ?_
  rw [Nat.toUInt32, UInt32.toNat_ofNat_of_lt' (by rw [hof]; show _ < 2 ^ 32; omega), hof, UInt32.toNat_or,
    UInt32.toNat_or, UInt32.toNat_or, UInt32.toNat_shiftLeft, UInt32.toNat_shiftLeft,
    UInt32.toNat_shiftLeft, UInt8.toNat_toUInt32, UInt8.toNat_toUInt32, UInt8.toNat_toUInt32,
    UInt8.toNat_toUInt32]
  change b0.toNat <<< 24 % 2 ^ 32 ||| b1.toNat <<< 16 % 2 ^ 32 ||| b2.toNat <<< 8 % 2 ^ 32
    ||| b3.toNat = _
  rw [hshift b0 24 (by decide), hshift b1 16 (by decide), hshift b2 8 (by decide), Nat.or_assoc,
    hlow, Nat.or_assoc, hmid, hhigh]
  omega

end BigEndian
