import AstraFeed.Lib.Fips180

/-!
# The streaming SHA-256

Bytes are collected in a buffer of one block, and whole blocks are transformed where they stand. The
padding is written behind the buffered bytes, into one block or two.
-/

namespace AstraFeed

/-- What `update` throws; nothing is changed then. -/
inductive Sha256Error
  | finalized
  | tooLong
  deriving DecidableEq, Repr

def Sha256Error.text : Sha256Error → String
  | .finalized => "cannot update a finalized SHA-256"
  | .tooLong => "SHA-256 input exceeds 64-bit bit length"

/-- `std::array<std::uint32_t, 8>`. -/
abbrev HashWords := Fips180.Words

structure Sha256 where
  state : HashWords
  buffer : List UInt8
  digest : List UInt8
  totalBytes : UInt64
  bufferedBytes : ℕ
  finalized : Bool

namespace Sha256

def kBlockBytes : ℕ := 64

/-- The largest number of bytes whose bits are counted by 64 bits. -/
def kMaximumBytes : UInt64 := 0xFFFFFFFFFFFFFFFF / 8

def rotateRight (value bits : UInt32) : UInt32 := value >>> bits ||| value <<< (32 - bits)

def kRoundConstants : List UInt32 :=
  [0x428a2f98, 0x71374491, 0xb5c0fbcf, 0xe9b5dba5,
    0x3956c25b, 0x59f111f1, 0x923f82a4, 0xab1c5ed5,
    0xd807aa98, 0x12835b01, 0x243185be, 0x550c7dc3,
    0x72be5d74, 0x80deb1fe, 0x9bdc06a7, 0xc19bf174,
    0xe49b69c1, 0xefbe4786, 0x0fc19dc6, 0x240ca1cc,
    0x2de92c6f, 0x4a7484aa, 0x5cb0a9dc, 0x76f988da,
    0x983e5152, 0xa831c66d, 0xb00327c8, 0xbf597fc7,
    0xc6e00bf3, 0xd5a79147, 0x06ca6351, 0x14292967,
    0x27b70a85, 0x2e1b2138, 0x4d2c6dfc, 0x53380d13,
    0x650a7354, 0x766a0abb, 0x81c2c92e, 0x92722c85,
    0xa2bfe8a1, 0xa81a664b, 0xc24b8b70, 0xc76c51a3,
    0xd192e819, 0xd6990624, 0xf40e3585, 0x106aa070,
    0x19a4c116, 0x1e376c08, 0x2748774c, 0x34b0bcb5,
    0x391c0cb3, 0x4ed8aa4a, 0x5b9cca4f, 0x682e6ff3,
    0x748f82ee, 0x78a5636f, 0x84c87814, 0x8cc70208,
    0x90befffa, 0xa4506ceb, 0xbef9a3f7, 0xc67178f2]

def init : Sha256 where
  state := ⟨0x6a09e667, 0xbb67ae85, 0x3c6ef372, 0xa54ff53a, 0x510e527f, 0x9b05688c, 0x1f83d9ab,
    0x5be0cd19⟩
  buffer := List.replicate kBlockBytes 0
  digest := List.replicate 32 0
  totalBytes := 0
  bufferedBytes := 0
  finalized := false

/-! ## One block -/

section Transform

variable (block : List UInt8)

/-- The first loop over the words of a block. -/
def loadWord (words : List UInt32) (index : ℕ) : List UInt32 :=
  let offset := index * 4
  words.set index ((block.getD offset 0).toUInt32 <<< 24
    ||| (block.getD (offset + 1) 0).toUInt32 <<< 16
    ||| (block.getD (offset + 2) 0).toUInt32 <<< 8 ||| (block.getD (offset + 3) 0).toUInt32)

/-- The second loop. -/
def extendWord (words : List UInt32) (index : ℕ) : List UInt32 :=
  let word (i : ℕ) : UInt32 := words.getD i 0
  let s0 := rotateRight (word (index - 15)) 7 ^^^ rotateRight (word (index - 15)) 18
    ^^^ word (index - 15) >>> 3
  let s1 := rotateRight (word (index - 2)) 17 ^^^ rotateRight (word (index - 2)) 19
    ^^^ word (index - 2) >>> 10
  words.set index (word (index - 16) + s0 + word (index - 7) + s1)

def loadWords : List UInt32 :=
  (List.range' 16 48).foldl extendWord
    ((List.range 16).foldl (loadWord block) (List.replicate 64 0))

/-- The body of the loop over the rounds. -/
def mixWord (words : List UInt32) (v : HashWords) (index : ℕ) : HashWords :=
  let sum1 := rotateRight v.e 6 ^^^ rotateRight v.e 11 ^^^ rotateRight v.e 25
  let choose := v.e &&& v.f ^^^ ~~~v.e &&& v.g
  let temporary1 := v.h + sum1 + choose + kRoundConstants.getD index 0 + words.getD index 0
  let sum0 := rotateRight v.a 2 ^^^ rotateRight v.a 13 ^^^ rotateRight v.a 22
  let majority := v.a &&& v.b ^^^ v.a &&& v.c ^^^ v.b &&& v.c
  let temporary2 := sum0 + majority
  { h := v.g
    g := v.f
    f := v.e
    e := v.d + temporary1
    d := v.c
    c := v.b
    b := v.a
    a := temporary1 + temporary2 }

def transform (state : HashWords) : HashWords :=
  let v := (List.range 64).foldl (mixWord (loadWords block)) state
  { a := state.a + v.a
    b := state.b + v.b
    c := state.c + v.c
    d := state.d + v.d
    e := state.e + v.e
    f := state.f + v.f
    g := state.g + v.g
    h := state.h + v.h }

end Transform

/-! ## Streaming -/

/-- `std::copy_n` to an offset of an array. -/
def copyInto (target : List UInt8) (offset : ℕ) (source : List UInt8) : List UInt8 :=
  target.take offset ++ source ++ target.drop (offset + source.length)

/-- The loop over the whole blocks of the input; what is left of the input is the second result. -/
def transformBlocks (state : HashWords) (input : List UInt8) : HashWords × List UInt8 :=
  if kBlockBytes ≤ input.length then
    transformBlocks (transform (input.take kBlockBytes) state) (input.drop kBlockBytes)
  else (state, input)
termination_by input.length
decreasing_by
  rw [List.length_drop]
  unfold kBlockBytes at *
  omega

/-- `update` once the buffer is empty. -/
def updateBlocks (s : Sha256) (input : List UInt8) : Sha256 :=
  let out := transformBlocks s.state input
  { s with
    state := out.1
    buffer := copyInto s.buffer 0 out.2
    bufferedBytes := out.2.length }

/-- `update` after its checks. -/
def updateBuffer (s : Sha256) (input : List UInt8) : Sha256 :=
  if s.bufferedBytes ≠ 0 then
    let copied := min input.length (kBlockBytes - s.bufferedBytes)
    let s := { s with
      buffer := copyInto s.buffer s.bufferedBytes (input.take copied)
      bufferedBytes := s.bufferedBytes + copied }
    let input := input.drop copied
    if s.bufferedBytes ≠ kBlockBytes then s
    else updateBlocks { s with state := transform s.buffer s.state, bufferedBytes := 0 } input
  else updateBlocks s input

def update (s : Sha256) (input : List UInt8) : Option Sha256Error × Sha256 :=
  if s.finalized then (some .finalized, s)
  else if (kMaximumBytes - s.totalBytes).toNat < input.length then (some .tooLong, s)
  else
    (none, updateBuffer { s with totalBytes := s.totalBytes + input.length.toUInt64 } input)

/-- A run of updates; it ends at the first one that throws. -/
def updateAll (s : Sha256) : List (List UInt8) → Except Sha256Error Sha256
  | [] => .ok s
  | chunk :: chunks =>
    match s.update chunk with
    | (none, s) => s.updateAll chunks
    | (some e, _) => .error e

/-- The loop that writes the length; the array holds `finalBytes` bytes that count. -/
def putLength (finalBlocks : List UInt8) (finalBytes : ℕ) (bitLength : UInt64) : List UInt8 :=
  (List.range 8).foldl (fun blocks index =>
    blocks.set (finalBytes - 1 - index) (bitLength >>> (index * 8).toUInt64).toUInt8) finalBlocks

/-- The loop over the shifts of a word of the digest. -/
def wordBytes (word : UInt32) : List UInt8 :=
  ([24, 16, 8, 0] : List UInt32).map fun shift => (word >>> shift).toUInt8

def finalize (s : Sha256) : List UInt8 × Sha256 :=
  if s.finalized then (s.digest, s)
  else
    let finalBlocks := copyInto (List.replicate 128 0) 0 (s.buffer.take s.bufferedBytes)
    let finalBlocks := finalBlocks.set s.bufferedBytes 0x80
    let finalBytes := if s.bufferedBytes < 56 then 64 else 128
    let finalBlocks := putLength finalBlocks finalBytes (s.totalBytes * 8)
    let state := transform (finalBlocks.take 64) s.state
    let state :=
      if finalBytes = 128 then transform ((finalBlocks.drop 64).take 64) state else state
    let digest :=
      [state.a, state.b, state.c, state.d, state.e, state.f, state.g, state.h].flatMap wordBytes
    (digest, { s with state := state, digest := digest, finalized := true })

def kHex : List UInt8 := "0123456789abcdef".toList.map Char.toUInt8

def finalizeHex (s : Sha256) : List UInt8 × Sha256 :=
  let (bytes, s) := s.finalize
  (bytes.flatMap fun b => [kHex.getD (b >>> 4 : UInt8).toNat 0, kHex.getD (b &&& 0x0f).toNat 0], s)

/-- `none` where `update` throws. -/
def sha256Hex (input : List UInt8) : Option (List UInt8) :=
  match init.update input with
  | (none, s) => some s.finalizeHex.1
  | (some _, _) => none

end Sha256

end AstraFeed
