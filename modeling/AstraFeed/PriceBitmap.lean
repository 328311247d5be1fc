import AstraFeed.Lib.WordBits

/-!
# The three-level price bitmap

A set of indices below `2 ^ 16` as 1024 words of bits, with a bit in `l1` for each nonzero word of
`l0` and a bit in `l2` for each nonzero word of `l1`. The arena hands out all-zero storage, the
empty set.
-/

namespace AstraFeed

open Function WordBits

structure PriceBitmapStorage where
  l0 : ℕ → BitVec 64
  l1 : ℕ → BitVec 64
  l2 : BitVec 64

namespace PriceBitmap

def kNumBits : ℕ := 65536

def kL0Words : ℕ := 1024

def kL1Words : ℕ := 16

/-- The `uint32_t` maximum, returned when a search finds nothing. -/
def kInvalid : ℕ := 4294967295

def kValidL2Mask : BitVec 64 := BitVec.allOnes 64 >>> (64 - kL1Words)

def zero : PriceBitmapStorage := ⟨fun _ => 0#64, fun _ => 0#64, 0#64⟩

def set (s : PriceBitmapStorage) (idx : ℕ) : PriceBitmapStorage :=
  let w0 := idx >>> 6
  let b0 := idx &&& 63
  let w1 := w0 >>> 6
  let b1 := w0 &&& 63
  { l0 := update s.l0 w0 (s.l0 w0 ||| 1#64 <<< b0)
    l1 := update s.l1 w1 (s.l1 w1 ||| 1#64 <<< b1)
    l2 := s.l2 ||| 1#64 <<< w1 }

def reset (s : PriceBitmapStorage) (idx : ℕ) : PriceBitmapStorage :=
  let w0 := idx >>> 6
  let b0 := idx &&& 63
  let l0' := update s.l0 w0 (s.l0 w0 &&& ~~~(1#64 <<< b0))
  if l0' w0 ≠ 0#64 then { s with l0 := l0' }
  else
    let w1 := w0 >>> 6
    let b1 := w0 &&& 63
    let l1' := update s.l1 w1 (s.l1 w1 &&& ~~~(1#64 <<< b1))
    if l1' w1 ≠ 0#64 then { s with l0 := l0', l1 := l1' }
    else { l0 := l0', l1 := l1', l2 := s.l2 &&& ~~~(1#64 <<< w1) }

def test (s : PriceBitmapStorage) (idx : ℕ) : Bool :=
  (s.l0 (idx >>> 6) >>> (idx &&& 63) &&& 1#64) != 0#64

def empty (s : PriceBitmapStorage) : Bool := s.l2 &&& kValidL2Mask == 0#64

def maskAtOrBelow (bit : ℕ) : BitVec 64 := BitVec.allOnes 64 >>> (63 - bit)

def maskBelow (bit : ℕ) : BitVec 64 := if bit = 0 then 0#64 else BitVec.allOnes 64 >>> (64 - bit)

def maskAtOrAbove (bit : ℕ) : BitVec 64 := BitVec.allOnes 64 <<< bit

def maskAbove (bit : ℕ) : BitVec 64 := if bit = 63 then 0#64 else BitVec.allOnes 64 <<< (bit + 1)

def findHighestAtOrBelow (s : PriceBitmapStorage) (idx : ℕ) : ℕ :=
  let idx := if kNumBits ≤ idx then kNumBits - 1 else idx
  let w0 := idx >>> 6
  let b0 := idx &&& 63
  let bits := s.l0 w0 &&& maskAtOrBelow b0
  if bits ≠ 0#64 then w0 <<< 6 ||| bitHigh bits
  else
    let w1 := w0 >>> 6
    let b1 := w0 &&& 63
    let l1bits := s.l1 w1 &&& maskBelow b1
    if l1bits ≠ 0#64 then
      let previousW0 := w1 <<< 6 ||| bitHigh l1bits
      let child := s.l0 previousW0
      if child = 0#64 then kInvalid else previousW0 <<< 6 ||| bitHigh child
    else
      let l2bits := s.l2 &&& kValidL2Mask &&& maskBelow w1
      if l2bits = 0#64 then kInvalid
      else
        let previousW1 := bitHigh l2bits
        let l1Child := s.l1 previousW1
        if l1Child = 0#64 then kInvalid
        else
          let previousW0 := previousW1 <<< 6 ||| bitHigh l1Child
          let l0Child := s.l0 previousW0
          if l0Child = 0#64 then kInvalid else previousW0 <<< 6 ||| bitHigh l0Child

def findLowestAtOrAbove (s : PriceBitmapStorage) (idx : ℕ) : ℕ :=
  if kNumBits ≤ idx then kInvalid
  else
    let w0 := idx >>> 6
    let b0 := idx &&& 63
    let bits := s.l0 w0 &&& maskAtOrAbove b0
    if bits ≠ 0#64 then w0 <<< 6 ||| bitLow bits
    else
      let w1 := w0 >>> 6
      let b1 := w0 &&& 63
      let l1bits := s.l1 w1 &&& maskAbove b1
      if l1bits ≠ 0#64 then
        let nextW0 := w1 <<< 6 ||| bitLow l1bits
        let child := s.l0 nextW0
        if child = 0#64 then kInvalid else nextW0 <<< 6 ||| bitLow child
      else
        let l2bits := s.l2 &&& kValidL2Mask &&& maskAbove w1
        if l2bits = 0#64 then kInvalid
        else
          let nextW1 := bitLow l2bits
          let l1Child := s.l1 nextW1
          if l1Child = 0#64 then kInvalid
          else
            let nextW0 := nextW1 <<< 6 ||| bitLow l1Child
            let l0Child := s.l0 nextW0
            if l0Child = 0#64 then kInvalid else nextW0 <<< 6 ||| bitLow l0Child

/-- The summary words say which words below them are nonzero. -/
structure Consistent (s : PriceBitmapStorage) : Prop where
  l1_bit : ∀ i < kL0Words, (s.l1 (i / 64)).getLsbD (i % 64) = true ↔ s.l0 i ≠ 0#64
  l2_bit : ∀ i < kL1Words, s.l2.getLsbD i = true ↔ s.l1 i ≠ 0#64

/-- The indices whose bit is set. -/
def members (s : PriceBitmapStorage) : Finset ℕ := (Finset.range kNumBits).filter (test s ·)

end PriceBitmap

end AstraFeed
