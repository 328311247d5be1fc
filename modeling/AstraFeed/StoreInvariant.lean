import Mathlib.Order.Bounds.Basic
import Mathlib.Tactic.Ring
import AstraFeed.PriceLevelStore

/-!
# What the price store represents

A store represents, for each locate and side, the set of occupied prices. `PageOk` and `BookOk` say
what a page's and a book's summaries hold of the levels below them, and `StoreInv` that every page
and every book does, the committed handles being exactly those the roots map to their owners.
-/

namespace AstraFeed

/-- `b` is the best index of `S` on a side: the highest for a buy, the lowest for a sell. -/
def IsBest (side : OrderSide) (S : Set ℕ) (b : ℕ) : Prop :=
  if side = .buy then IsGreatest S b else IsLeast S b

/-- The members of `S` strictly worse than `x` on a side. -/
def worseThan (side : OrderSide) (S : Set ℕ) (x : ℕ) : Set ℕ :=
  {y | y ∈ S ∧ if side = .buy then y < x else x < y}

/-- `xs` are the best `n` members of `S`, or all of them when it has fewer, the best first. -/
inductive IsTop (side : OrderSide) : Set ℕ → ℕ → List ℕ → Prop
  | zero (S : Set ℕ) : IsTop side S 0 []
  | empty (n : ℕ) : IsTop side ∅ n []
  | cons {S : Set ℕ} {n x : ℕ} {xs : List ℕ} (best : IsBest side S x)
      (rest : IsTop side (worseThan side S x) n xs) : IsTop side S (n + 1) (x :: xs)

/-- A page and side's summary and bitmap, of a page whose occupied levels are `occ`: the bitmap is
materialized only for two levels or more. -/
structure PageOk (side : OrderSide) (occ : Finset ℕ) (summary : PageSideSummary)
    (bitmap : PriceBitmapStorage) : Prop where
  activeLevels : summary.activeLevels.toNat = occ.card
  consistent : PriceBitmap.Consistent bitmap
  members : PriceBitmap.members bitmap = if 2 ≤ occ.card then occ else ∅
  best : occ.Nonempty → IsBest side occ summary.bestLevelIndex.toNat

/-- The raw prices of the levels `occ p` of every page `p`. -/
def pricesOf (occ : ℕ → Finset ℕ) : Set ℕ :=
  {x | ∃ p < kPricePartCount, ∃ i ∈ occ p, x = p * kPricePartCount + i}

/-- A book and side's summary and bitmap, of a book whose page `p` has the handle `root p` and the
occupied levels `occ p`. -/
structure BookOk (side : OrderSide) (occ : ℕ → Finset ℕ) (root : ℕ → UInt32)
    (summary : BookSideSummary) (bitmap : PriceBitmapStorage) : Prop where
  consistent : PriceBitmap.Consistent bitmap
  members : ∀ p, p ∈ PriceBitmap.members bitmap ↔ p < kPricePartCount ∧ (occ p).Nonempty
  activePages : summary.activePages.toNat = (PriceBitmap.members bitmap).card
  best_none : pricesOf occ = ∅ → summary.bestPageHandle = kInvalidPricePageHandle
  best_some : (pricesOf occ).Nonempty →
    IsBest side (pricesOf occ) summary.bestRawPrice.toNat
      ∧ summary.bestPageHandle = root (summary.bestRawPrice.toNat / kPricePartCount)

namespace PriceLevelStore

variable (s : PriceLevelStore)

/-- The record of level `i` of a page. -/
def levelAt (handle : UInt32) (side : OrderSide) (i : ℕ) : PriceLevelState :=
  if side = .buy then (s.pages (handle - 1).toNat).bids i
  else (s.pages (handle - 1).toNat).asks i

/-- The levels of a page that hold an order. -/
def occupied (handle : UInt32) (side : OrderSide) : Finset ℕ :=
  (Finset.range kPricePartCount).filter fun i => (s.levelAt handle side i).orderCount ≠ 0

/-- The handle the root table maps page `p` of a locate to. -/
def rootAt (locate : UInt16) (p : ℕ) : UInt32 := s.roots (locate.toNat * kPricePartCount + p)

/-- The occupied levels of page `p` of a locate. -/
def bookLevels (locate : UInt16) (side : OrderSide) (p : ℕ) : Finset ℕ :=
  s.occupied (s.rootAt locate p) side

/-- The record of a locate's level at a raw price, empty where no page is committed. -/
def levelOf (locate : UInt16) (side : OrderSide) (x : ℕ) : PriceLevelState :=
  s.levelAt (s.rootAt locate (x / kPricePartCount)) side (x % kPricePartCount)

def Committed (handle : UInt32) : Prop :=
  handle ≠ kInvalidPricePageHandle ∧ handle ≤ s.committedPages

/-- The committed handles are `1, …, committedPages`, each owned by one page of a prepared book,
and the root table maps that page and no other to it. -/
structure ArenaInv : Prop where
  committed_le : s.committedPages ≤ s.config.pageCapacity
  committed_iff : ∀ h : UInt32, (s.pageOwners h.toNat).committed ≠ 0 ↔ s.Committed h
  prepared : ∀ h, s.Committed h → s.isBookPrepared (s.pageOwners h.toNat).stockLocate = true
  root_iff : ∀ (l : UInt16) (p : ℕ) (h : UInt32), p < kPricePartCount →
    h ≠ kInvalidPricePageHandle → (s.rootAt l p = h ↔ s.Committed h
      ∧ (s.pageOwners h.toNat).stockLocate = l ∧ (s.pageOwners h.toNat).pageIndex.toNat = p)

structure StoreInv : Prop where
  arena : s.ArenaInv
  level_iff : ∀ h side i, side ≠ .invalid →
    ((s.levelAt h side i).orderCount = 0 ↔ (s.levelAt h side i).totalQty = 0)
  uncommitted : ∀ h side, side ≠ .invalid → ¬ s.Committed h → s.occupied h side = ∅
  page : ∀ h side, side ≠ .invalid →
    PageOk side (s.occupied h side) (s.pageSummary h side) (s.pageBitmap h side)
  book : ∀ l side, side ≠ .invalid →
    BookOk side (s.bookLevels l side) (s.rootAt l) (s.bookSummary l side) (s.bookBitmap l side)

end PriceLevelStore

end AstraFeed
