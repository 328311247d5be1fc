import AstraFeed.Lib.BigEndian
import AstraFeed.Lib.BlockStream

/-!
# The secure hash standard

SHA-256 as FIPS 180-4 states it, for messages of whole bytes: the functions and constants of its
section 4, the padding and the parsing of section 5, and the computation of section 6.2.
-/

namespace Fips180

/-! ## Functions and constants -/

def rotr (n : ℕ) (x : UInt32) : UInt32 := ⟨x.toBitVec.rotateRight n⟩

def shr (n : ℕ) (x : UInt32) : UInt32 := ⟨x.toBitVec >>> n⟩

def ch (x y z : UInt32) : UInt32 := (x &&& y) ^^^ (~~~x &&& z)

def maj (x y z : UInt32) : UInt32 := (x &&& y) ^^^ (x &&& z) ^^^ (y &&& z)

/-- The functions `Σ₀`, `Σ₁`, `σ₀` and `σ₁`. -/
def bigSigma0 (x : UInt32) : UInt32 := rotr 2 x ^^^ rotr 13 x ^^^ rotr 22 x
def bigSigma1 (x : UInt32) : UInt32 := rotr 6 x ^^^ rotr 11 x ^^^ rotr 25 x
def smallSigma0 (x : UInt32) : UInt32 := rotr 7 x ^^^ rotr 18 x ^^^ shr 3 x
def smallSigma1 (x : UInt32) : UInt32 := rotr 17 x ^^^ rotr 19 x ^^^ shr 10 x

/-- The first 64 primes. -/
def primes : List ℕ :=
  [2, 3, 5, 7, 11, 13, 17, 19, 23, 29, 31, 37, 41, 43, 47, 53, 59, 61, 67, 71, 73, 79, 83, 89, 97,
    101, 103, 107, 109, 113, 127, 131, 137, 139, 149, 151, 157, 163, 167, 173, 179, 181, 191, 193,
    197, 199, 211, 223, 227, 229, 233, 239, 241, 251, 257, 263, 269, 271, 277, 281, 283, 293, 307,
    311]

/-- The largest number whose `k`-th power is at most `n`, bit by bit from the `bits` low ones. -/
def floorRoot (k n : ℕ) : ℕ → ℕ → ℕ
  | 0, root => root
  | bits + 1, root =>
    let next := root + 2 ^ bits
    if next ^ k ≤ n then floorRoot k n bits next else floorRoot k n bits root

/-- The first 32 bits of the fractional part of the `k`-th root. -/
def rootFraction (k p : ℕ) : UInt32 := (floorRoot k (p * 2 ^ (32 * k)) 37 0).toUInt32

/-- From the cube roots of the primes. -/
def roundConstant (t : ℕ) : UInt32 := rootFraction 3 (primes.getD t 0)

/-- A hash value, or the eight working variables. -/
structure Words where
  a : UInt32
  b : UInt32
  c : UInt32
  d : UInt32
  e : UInt32
  f : UInt32
  g : UInt32
  h : UInt32
  deriving DecidableEq

/-- From the square roots of the first eight primes. -/
def initialHash : Words where
  a := rootFraction 2 2
  b := rootFraction 2 3
  c := rootFraction 2 5
  d := rootFraction 2 7
  e := rootFraction 2 11
  f := rootFraction 2 13
  g := rootFraction 2 17
  h := rootFraction 2 19

/-! ## Padding and parsing -/

/-- How many zero bytes end the message, with its closing bit, 8 bytes before a block is full. -/
def zeroBytes (length : ℕ) : ℕ := (119 - length % 64) % 64

/-- The message, the byte that begins with its closing bit, zeros, and its length in bits. -/
def pad (message : List UInt8) : List UInt8 :=
  message ++ (0x80 :: List.replicate (zeroBytes message.length) 0)
    ++ BigEndian.toBytes 8 (8 * message.length)

/-- The `t`-th word of a block. -/
def word (block : List UInt8) (t : ℕ) : UInt32 :=
  (BigEndian.ofBytes ((block.drop (4 * t)).take 4)).toUInt32

/-! ## Computation -/

/-- The message schedule. -/
def schedule (block : List UInt8) (t : ℕ) : UInt32 :=
  if t < 16 then word block t
  else smallSigma1 (schedule block (t - 2)) + schedule block (t - 7)
    + smallSigma0 (schedule block (t - 15)) + schedule block (t - 16)
termination_by t
decreasing_by all_goals omega

def round (block : List UInt8) (v : Words) (t : ℕ) : Words :=
  let t1 := v.h + bigSigma1 v.e + ch v.e v.f v.g + roundConstant t + schedule block t
  let t2 := bigSigma0 v.a + maj v.a v.b v.c
  ⟨t1 + t2, v.a, v.b, v.c, v.d + t1, v.e, v.f, v.g⟩

def compress (hash : Words) (block : List UInt8) : Words :=
  let v := (List.range 64).foldl (round block) hash
  ⟨v.a + hash.a, v.b + hash.b, v.c + hash.c, v.d + hash.d, v.e + hash.e, v.f + hash.f,
    v.g + hash.g, v.h + hash.h⟩

def Words.toBytes (hash : Words) : List UInt8 :=
  [hash.a, hash.b, hash.c, hash.d, hash.e, hash.f, hash.g, hash.h].flatMap
    fun w => BigEndian.toBytes 4 w.toNat

def sha256 (message : List UInt8) : List UInt8 :=
  ((BlockStream.blocks 64 (pad message)).foldl compress initialHash).toBytes

/-! ## What the padding is -/

theorem zeroBytes_spec (length : ℕ) :
    (length + 1 + zeroBytes length + 8) % 64 = 0
    ∧ ∀ k, (length + 1 + k + 8) % 64 = 0 → zeroBytes length ≤ k := by
  unfold zeroBytes
  exact ⟨by omega, fun k hk => by omega⟩

theorem length_pad (message : List UInt8) :
    (pad message).length = message.length + 1 + zeroBytes message.length + 8 := by
  unfold pad
  rw [List.length_append, List.length_append, List.length_cons, List.length_replicate,
    BigEndian.length_toBytes]
  omega

/-- The padded message is made of whole blocks. -/
theorem dvd_length_pad (message : List UInt8) : 64 ∣ (pad message).length := by
  rw [length_pad]
  exact Nat.dvd_of_mod_eq_zero (zeroBytes_spec message.length).1

theorem length_toBytes (hash : Words) : hash.toBytes.length = 32 := by
  unfold Words.toBytes
  simp

end Fips180
