import AstraFeed.PriceBitmap

/-!
# Runs of the price bitmap

A history is a list of `set` and `reset` calls on zeroed storage. What it holds is a plain set of
indices, the three levels forgotten.
-/

namespace AstraFeed

inductive PriceBitmapOp
  | set (idx : ℕ)
  | reset (idx : ℕ)

def PriceBitmapOp.idx : PriceBitmapOp → ℕ
  | .set idx => idx
  | .reset idx => idx

namespace PriceBitmap

def step (s : PriceBitmapStorage) : PriceBitmapOp → PriceBitmapStorage
  | .set idx => set s idx
  | .reset idx => reset s idx

def run (ops : List PriceBitmapOp) : PriceBitmapStorage := ops.foldl step zero

/-- What a call does to the set. -/
def hold (held : Finset ℕ) : PriceBitmapOp → Finset ℕ
  | .set idx => insert idx held
  | .reset idx => held.erase idx

/-- The indices set and not reset since. -/
def heldBy (ops : List PriceBitmapOp) : Finset ℕ := ops.foldl hold ∅

end PriceBitmap

end AstraFeed
