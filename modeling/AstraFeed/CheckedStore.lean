import AstraFeed.Lib.Bounded
import AstraFeed.PriceLevelStore

/-!
# The price store with its accesses checked

The operations of the store and of its bitmaps, with the number of elements of every array at every
access and the width of the word at every shift: `none` stands for an access outside an array, for a
shift by too much, and for a loop that has not ended when its fuel is used up.
-/

namespace AstraFeed

open Bounded WordBits

namespace CheckedBitmap

open PriceBitmap (kNumBits kL0Words kL1Words kInvalid kValidL2Mask)

def set (s : PriceBitmapStorage) (idx : ℕ) : Option PriceBitmapStorage := do
  let w0 := idx >>> 6
  let b0 := idx &&& 63
  let w1 := w0 >>> 6
  let b1 := w0 &&& 63
  let word0 ← read kL0Words s.l0 w0
  let bit0 ← shl 1#64 b0
  let l0 ← write kL0Words s.l0 w0 (word0 ||| bit0)
  let word1 ← read kL1Words s.l1 w1
  let bit1 ← shl 1#64 b1
  let l1 ← write kL1Words s.l1 w1 (word1 ||| bit1)
  let bit2 ← shl 1#64 w1
  return ⟨l0, l1, s.l2 ||| bit2⟩

def reset (s : PriceBitmapStorage) (idx : ℕ) : Option PriceBitmapStorage := do
  let w0 := idx >>> 6
  let b0 := idx &&& 63
  let word0 ← read kL0Words s.l0 w0
  let bit0 ← shl 1#64 b0
  let l0 ← write kL0Words s.l0 w0 (word0 &&& ~~~bit0)
  let left0 ← read kL0Words l0 w0
  if left0 ≠ 0#64 then some { s with l0 := l0 }
  else do
    let w1 := w0 >>> 6
    let b1 := w0 &&& 63
    let word1 ← read kL1Words s.l1 w1
    let bit1 ← shl 1#64 b1
    let l1 ← write kL1Words s.l1 w1 (word1 &&& ~~~bit1)
    let left1 ← read kL1Words l1 w1
    if left1 ≠ 0#64 then some { s with l0 := l0, l1 := l1 }
    else do
      let bit2 ← shl 1#64 w1
      return ⟨l0, l1, s.l2 &&& ~~~bit2⟩

def test (s : PriceBitmapStorage) (idx : ℕ) : Option Bool := do
  let word ← read kL0Words s.l0 (idx >>> 6)
  let shifted ← shr word (idx &&& 63)
  return (shifted &&& 1#64) != 0#64

def maskAtOrBelow (bit : ℕ) : Option (BitVec 64) := shr (BitVec.allOnes 64) (63 - bit)

def maskBelow (bit : ℕ) : Option (BitVec 64) :=
  if bit = 0 then some 0#64 else shr (BitVec.allOnes 64) (64 - bit)

def maskAtOrAbove (bit : ℕ) : Option (BitVec 64) := shl (BitVec.allOnes 64) bit

def maskAbove (bit : ℕ) : Option (BitVec 64) :=
  if bit = 63 then some 0#64 else shl (BitVec.allOnes 64) (bit + 1)

def findHighestAtOrBelow (s : PriceBitmapStorage) (idx : ℕ) : Option ℕ := do
  let idx := if kNumBits ≤ idx then kNumBits - 1 else idx
  let w0 := idx >>> 6
  let b0 := idx &&& 63
  let word0 ← read kL0Words s.l0 w0
  let mask0 ← maskAtOrBelow b0
  if word0 &&& mask0 ≠ 0#64 then some (w0 <<< 6 ||| bitHigh (word0 &&& mask0))
  else do
    let w1 := w0 >>> 6
    let b1 := w0 &&& 63
    let word1 ← read kL1Words s.l1 w1
    let mask1 ← maskBelow b1
    if word1 &&& mask1 ≠ 0#64 then do
      let previousW0 := w1 <<< 6 ||| bitHigh (word1 &&& mask1)
      let child ← read kL0Words s.l0 previousW0
      return if child = 0#64 then kInvalid else previousW0 <<< 6 ||| bitHigh child
    else do
      let mask2 ← maskBelow w1
      let l2bits := s.l2 &&& kValidL2Mask &&& mask2
      if l2bits = 0#64 then some kInvalid
      else do
        let previousW1 := bitHigh l2bits
        let l1Child ← read kL1Words s.l1 previousW1
        if l1Child = 0#64 then some kInvalid
        else do
          let previousW0 := previousW1 <<< 6 ||| bitHigh l1Child
          let l0Child ← read kL0Words s.l0 previousW0
          return if l0Child = 0#64 then kInvalid else previousW0 <<< 6 ||| bitHigh l0Child

def findLowestAtOrAbove (s : PriceBitmapStorage) (idx : ℕ) : Option ℕ :=
  if kNumBits ≤ idx then some kInvalid
  else do
    let w0 := idx >>> 6
    let b0 := idx &&& 63
    let word0 ← read kL0Words s.l0 w0
    let mask0 ← maskAtOrAbove b0
    if word0 &&& mask0 ≠ 0#64 then some (w0 <<< 6 ||| bitLow (word0 &&& mask0))
    else do
      let w1 := w0 >>> 6
      let b1 := w0 &&& 63
      let word1 ← read kL1Words s.l1 w1
      let mask1 ← maskAbove b1
      if word1 &&& mask1 ≠ 0#64 then do
        let nextW0 := w1 <<< 6 ||| bitLow (word1 &&& mask1)
        let child ← read kL0Words s.l0 nextW0
        return if child = 0#64 then kInvalid else nextW0 <<< 6 ||| bitLow child
      else do
        let mask2 ← maskAbove w1
        let l2bits := s.l2 &&& kValidL2Mask &&& mask2
        if l2bits = 0#64 then some kInvalid
        else do
          let nextW1 := bitLow l2bits
          let l1Child ← read kL1Words s.l1 nextW1
          if l1Child = 0#64 then some kInvalid
          else do
            let nextW0 := nextW1 <<< 6 ||| bitLow l1Child
            let l0Child ← read kL0Words s.l0 nextW0
            return if l0Child = 0#64 then kInvalid else nextW0 <<< 6 ||| bitLow l0Child

end CheckedBitmap

namespace CheckedStore

open PriceLevelStore (sideIndex pageSideIndex bookSideIndex validSide better)

def kSideCount : ℕ := 2

/-- A root for each locate and page index. -/
def kPriceRootSlotCount : ℕ := kStockLocateSlots * kPricePartCount

section Read

variable (s : PriceLevelStore)

/-- One element for each page there may be; the arrays a handle indexes have one more. -/
def pageSlots : ℕ := s.config.pageCapacity.toNat

def handleSlots : ℕ := s.config.pageCapacity.toNat + 1

def root (stockLocate pageIndex : UInt16) : Option UInt32 :=
  read kPriceRootSlotCount s.roots (priceRootIndex stockLocate pageIndex)

def pageOwner (handle : UInt32) : Option PageOwner :=
  read (handleSlots s) s.pageOwners handle.toNat

def pageSummary (handle : UInt32) (side : OrderSide) : Option PageSideSummary := do
  let sides ← read (handleSlots s) s.pageSummaries handle.toNat
  read kSideCount sides (sideIndex side)

def pageBitmap (handle : UInt32) (side : OrderSide) : Option PriceBitmapStorage :=
  read (handleSlots s * kSideCount) s.pageOccupancy (pageSideIndex handle side)

def bookSummary (stockLocate : UInt16) (side : OrderSide) : Option BookSideSummary := do
  let sides ← read kStockLocateSlots s.bookSummaries stockLocate.toNat
  read kSideCount sides (sideIndex side)

def bookBitmap (stockLocate : UInt16) (side : OrderSide) : Option PriceBitmapStorage :=
  read (kStockLocateSlots * kSideCount) s.bookOccupancy (bookSideIndex stockLocate side)

def levelUnchecked (address : PriceAddress) (side : OrderSide) : Option PriceLevelState := do
  let pricePage ← read (pageSlots s) s.pages (address.pageHandle - 1).toNat
  if side = .buy then read kPricePartCount pricePage.bids address.levelIndex.toNat
  else read kPricePartCount pricePage.asks address.levelIndex.toNat

def owner (handle : UInt32) : Option (Option PageOwner) :=
  if handle = kInvalidPricePageHandle ∨ s.committedPages < handle then some none
  else (pageOwner s handle).map some

def rootHandleMatches (stockLocate pageIndex : UInt16) (handle : UInt32) : Option Bool :=
  (owner s handle).map fun
    | none => false
    | some pageOwner =>
      pageOwner.committed != 0 && pageOwner.stockLocate == stockLocate
        && pageOwner.pageIndex == pageIndex

def isBookPrepared (stockLocate : UInt16) : Option Bool :=
  if isValidStockLocate stockLocate then
    (read kStockLocateSlots s.preparedBooks stockLocate.toNat).map (· != 0)
  else some false

def pageHandle (stockLocate pageIndex : UInt16) : Option UInt32 :=
  if !isValidStockLocate stockLocate then some kInvalidPricePageHandle
  else do
    let handle ← root s stockLocate pageIndex
    let isRoot ← rootHandleMatches s stockLocate pageIndex handle
    return if isRoot then handle else kInvalidPricePageHandle

def ownsAddress (stockLocate pageIndex : UInt16) (address : PriceAddress) : Option Bool :=
  if isValidStockLocate stockLocate then
    rootHandleMatches s stockLocate pageIndex address.pageHandle
  else some false

def resolveLevel (address : PriceAddress) (side : OrderSide) : Option (Option PriceLevelState) :=
  if s.validateAddress address side ≠ .applied then some none
  else (levelUnchecked s address side).map some

end Read

section Write

variable (s : PriceLevelStore)

def setPageSummary (handle : UInt32) (side : OrderSide) (v : PageSideSummary) :
    Option PriceLevelStore := do
  let sides ← read (handleSlots s) s.pageSummaries handle.toNat
  let sides ← write kSideCount sides (sideIndex side) v
  let pageSummaries ← write (handleSlots s) s.pageSummaries handle.toNat sides
  return { s with pageSummaries := pageSummaries }

def setPageBitmap (handle : UInt32) (side : OrderSide) (v : PriceBitmapStorage) :
    Option PriceLevelStore := do
  let pageOccupancy ←
    write (handleSlots s * kSideCount) s.pageOccupancy (pageSideIndex handle side) v
  return { s with pageOccupancy := pageOccupancy }

def setBookSummary (stockLocate : UInt16) (side : OrderSide) (v : BookSideSummary) :
    Option PriceLevelStore := do
  let sides ← read kStockLocateSlots s.bookSummaries stockLocate.toNat
  let sides ← write kSideCount sides (sideIndex side) v
  let bookSummaries ← write kStockLocateSlots s.bookSummaries stockLocate.toNat sides
  return { s with bookSummaries := bookSummaries }

def setBookBitmap (stockLocate : UInt16) (side : OrderSide) (v : PriceBitmapStorage) :
    Option PriceLevelStore := do
  let bookOccupancy ←
    write (kStockLocateSlots * kSideCount) s.bookOccupancy (bookSideIndex stockLocate side) v
  return { s with bookOccupancy := bookOccupancy }

/-- A page with one level of a side replaced. -/
def setPageLevel (pricePage : PricePage) (side : OrderSide) (levelIndex : UInt16)
    (v : PriceLevelState) : Option PricePage :=
  if side = .buy then
    (write kPricePartCount pricePage.bids levelIndex.toNat v).map fun bids =>
      { pricePage with bids := bids }
  else
    (write kPricePartCount pricePage.asks levelIndex.toNat v).map fun asks =>
      { pricePage with asks := asks }

def setLevel (address : PriceAddress) (side : OrderSide) (v : PriceLevelState) :
    Option PriceLevelStore := do
  let slot := (address.pageHandle - 1).toNat
  let pricePage ← read (pageSlots s) s.pages slot
  let pricePage ← setPageLevel pricePage side address.levelIndex v
  let pages ← write (pageSlots s) s.pages slot pricePage
  return { s with pages := pages }

end Write

/-! ## Pages -/

def reservePrice (s : PriceLevelStore) (stockLocate : UInt16) (rawPrice : UInt32) :
    Option (PricePageReservation × PriceLevelStore) :=
  if !isValidStockLocate stockLocate then
    some ({ PricePageReservation.init with result := .invalidLocate }, s)
  else do
    let prepared ← isBookPrepared s stockLocate
    if !prepared then some ({ PricePageReservation.init with result := .bookNotPrepared }, s)
    else do
      let parts := splitPrice rawPrice
      let reservation : PricePageReservation :=
        { PricePageReservation.init with
          stockLocate := stockLocate
          pageIndex := parts.pageIndex
          address := ⟨kInvalidPricePageHandle, parts.levelIndex⟩
          expectedCommittedPages := s.committedPages }
      let existing ← root s stockLocate parts.pageIndex
      if existing ≠ kInvalidPricePageHandle then do
        let isRoot ← rootHandleMatches s stockLocate parts.pageIndex existing
        if !isRoot then some ({ reservation with result := .invariantViolation }, s)
        else some ({ reservation with
          address := ⟨existing, parts.levelIndex⟩
          requiresCommit := false
          result := .applied }, s)
      else if s.config.pageCapacity ≤ s.committedPages then
        some ({ reservation with result := .pricePageCapacityExceeded },
          { s with pageCapacityFailures := s.pageCapacityFailures + 1 })
      else
        some ({ reservation with
          address := ⟨s.committedPages + 1, parts.levelIndex⟩
          requiresCommit := true
          result := .applied }, s)

def commitReservation (s : PriceLevelStore) (reservation : PricePageReservation) :
    Option (MutationResult × PriceLevelStore) :=
  if reservation.result ≠ .applied then some (reservation.result, s)
  else if !reservation.address.valid then some (.invalidPricePage, s)
  else if !isValidStockLocate reservation.stockLocate then some (.invalidLocate, s)
  else do
    let prepared ← isBookPrepared s reservation.stockLocate
    if !prepared then some (.bookNotPrepared, s)
    else do
      let root ← root s reservation.stockLocate reservation.pageIndex
      if !reservation.requiresCommit then
        some (if root = reservation.address.pageHandle then .applied else .staleReservation, s)
      else if root ≠ kInvalidPricePageHandle
          ∨ s.committedPages ≠ reservation.expectedCommittedPages
          ∨ reservation.address.pageHandle ≠ s.committedPages + 1
          ∨ s.config.pageCapacity < reservation.address.pageHandle then
        some (.staleReservation, s)
      else do
        let handle := reservation.address.pageHandle
        let slot ← pageOwner s handle
        if slot.committed ≠ 0 then some (.invariantViolation, s)
        else do
          let pageOwners ← write (handleSlots s) s.pageOwners handle.toNat
            ⟨reservation.stockLocate, reservation.pageIndex, 1⟩
          let roots ← write kPriceRootSlotCount s.roots
            (priceRootIndex reservation.stockLocate reservation.pageIndex) handle
          return (.applied,
            { s with pageOwners := pageOwners, committedPages := handle, roots := roots })

/-! ## Validation -/

def validateActivation (s : PriceLevelStore) (address : PriceAddress) (side : OrderSide) :
    Option MutationResult := do
  match ← owner s address.pageHandle with
  | none => some .invariantViolation
  | some pageOwner =>
    if pageOwner.committed = 0 ∨ !isValidStockLocate pageOwner.stockLocate then
      some .invariantViolation
    else do
      let pageSummary ← pageSummary s address.pageHandle side
      let bookSummary ← bookSummary s pageOwner.stockLocate side
      return if kPricePartCount ≤ pageSummary.activeLevels.toNat
          ∨ pageSummary.activeLevels ≠ 0 ∧ kPricePartCount ≤ pageSummary.bestLevelIndex.toNat
          ∨ pageSummary.activeLevels = 0 ∧ kPricePartCount ≤ bookSummary.activePages.toNat then
        .invariantViolation
      else .applied

def validateAdd (s : PriceLevelStore) (address : PriceAddress) (side : OrderSide) (qty : UInt32) :
    Option MutationResult :=
  let addressResult := s.validateAddress address side
  if addressResult ≠ .applied then some addressResult
  else if qty = 0 then some .invalidQuantity
  else do
    let level ← levelUnchecked s address side
    if level.orderCount.toNat = 2 ^ 32 - 1 then some .orderCountOverflow
    else if 2 ^ 64 - 1 - qty.toNat < level.totalQty.toNat then some .quantityOverflow
    else if (level.orderCount == 0) != (level.totalQty == 0) then some .invariantViolation
    else if level.orderCount = 0 then validateActivation s address side
    else some .applied

def nextWorseIndex (side : OrderSide) (bitmap : PriceBitmapStorage) (index : UInt16) : Option ℕ :=
  if side = .buy then
    if index ≠ 0 then CheckedBitmap.findHighestAtOrBelow bitmap (index.toNat - 1)
    else some PriceBitmap.kInvalid
  else if index.toNat ≠ 2 ^ 16 - 1 then
    CheckedBitmap.findLowestAtOrAbove bitmap (index.toNat + 1)
  else some PriceBitmap.kInvalid

/-- The checks of the page's bitmap, which end at the first that fails. -/
def pageBitmapRefuses (bitmap : PriceBitmapStorage) (level best : ℕ) : Option Bool :=
  if PriceBitmap.empty bitmap then some true
  else do
    let levelSet ← CheckedBitmap.test bitmap level
    if !levelSet then some true
    else do
      let bestSet ← CheckedBitmap.test bitmap best
      return !bestSet

def planPage (s : PriceLevelStore) (address : PriceAddress) (side : OrderSide) :
    Option (Except MutationResult DeactivationPlan) := do
  let pageSummary ← pageSummary s address.pageHandle side
  let removedIsPageBest := pageSummary.bestLevelIndex == address.levelIndex.toUInt32
  if pageSummary.activeLevels = 1 then
    some (if !removedIsPageBest then .error .invariantViolation
      else .ok { DeactivationPlan.init with pageBecomesEmpty := true })
  else do
    let pageBitmap ← pageBitmap s address.pageHandle side
    let refused ← pageBitmapRefuses pageBitmap address.levelIndex.toNat
      pageSummary.bestLevelIndex.toNat
    if refused then some (.error .invariantViolation)
    else if removedIsPageBest then do
      let nextLevelIndex ← nextWorseIndex side pageBitmap address.levelIndex
      if nextLevelIndex = PriceBitmap.kInvalid then some (.error .invariantViolation)
      else do
        let nextLevel ← levelUnchecked s ⟨address.pageHandle, nextLevelIndex.toUInt16⟩ side
        return if nextLevel.orderCount = 0 ∨ nextLevel.totalQty = 0 then
          .error .invariantViolation
        else .ok { DeactivationPlan.init with
          nextLevelIndex := nextLevelIndex
          pageBestChanges := true }
    else some (.ok DeactivationPlan.init)

def planBook (s : PriceLevelStore) (address : PriceAddress) (side : OrderSide)
    (pageOwner : PageOwner) (plan : DeactivationPlan) :
    Option (Except MutationResult DeactivationPlan) := do
  let summary ← pageSummary s address.pageHandle side
  let bookSummary ← bookSummary s pageOwner.stockLocate side
  let bookBitmap ← bookBitmap s pageOwner.stockLocate side
  let removedIsPageBest := summary.bestLevelIndex == address.levelIndex.toUInt32
  let removedRaw := joinPrice pageOwner.pageIndex address.levelIndex
  if bookSummary.bestRawPrice = removedRaw then
    if bookSummary.bestPageHandle ≠ address.pageHandle ∨ !removedIsPageBest then
      some (.error .invariantViolation)
    else if !plan.pageBecomesEmpty then
      some (if !plan.pageBestChanges then .error .invariantViolation
        else .ok { plan with
          bookBestChanges := true
          nextBookRawPrice := joinPrice pageOwner.pageIndex plan.nextLevelIndex.toUInt16
          nextBookPageHandle := address.pageHandle })
    else do
      let nextPageIndex ← nextWorseIndex side bookBitmap pageOwner.pageIndex
      if bookSummary.activePages = 1 then
        some (if nextPageIndex = PriceBitmap.kInvalid then .ok { plan with bookBestChanges := true }
          else .error .invariantViolation)
      else if nextPageIndex = PriceBitmap.kInvalid then some (.error .invariantViolation)
      else do
        let nextHandle ← pageHandle s pageOwner.stockLocate nextPageIndex.toUInt16
        if nextHandle = kInvalidPricePageHandle then some (.error .invariantViolation)
        else do
          let nextPage ← pageSummary s nextHandle side
          if nextPage.activeLevels = 0 ∨ kPricePartCount ≤ nextPage.bestLevelIndex.toNat then
            some (.error .invariantViolation)
          else do
            let nextLevel ←
              levelUnchecked s ⟨nextHandle, nextPage.bestLevelIndex.toUInt16⟩ side
            return if nextLevel.orderCount = 0 ∨ nextLevel.totalQty = 0 then
              .error .invariantViolation
            else .ok { plan with
              bookBestChanges := true
              nextBookRawPrice :=
                joinPrice nextPageIndex.toUInt16 nextPage.bestLevelIndex.toUInt16
              nextBookPageHandle := nextHandle }
  else some (if plan.pageBecomesEmpty ∧ bookSummary.activePages = 1 then .error .invariantViolation
    else .ok plan)

def validateDeactivation (s : PriceLevelStore) (address : PriceAddress) (side : OrderSide) :
    Option (Except MutationResult DeactivationPlan) := do
  match ← owner s address.pageHandle with
  | none => some (.error .invariantViolation)
  | some pageOwner =>
    if pageOwner.committed = 0 ∨ !isValidStockLocate pageOwner.stockLocate then
      some (.error .invariantViolation)
    else do
      let summary ← pageSummary s address.pageHandle side
      let bookSummary ← bookSummary s pageOwner.stockLocate side
      let bookBitmap ← bookBitmap s pageOwner.stockLocate side
      let pageSet ← CheckedBitmap.test bookBitmap pageOwner.pageIndex.toNat
      if summary.activeLevels = 0 ∨ kPricePartCount < summary.activeLevels.toNat
          ∨ kPricePartCount ≤ summary.bestLevelIndex.toNat
          ∨ bookSummary.activePages = 0 ∨ kPricePartCount < bookSummary.activePages.toNat
          ∨ bookSummary.bestPageHandle = kInvalidPricePageHandle ∨ !pageSet then
        some (.error .invariantViolation)
      else do
        let cachedBest := splitPrice bookSummary.bestRawPrice
        match ← owner s bookSummary.bestPageHandle with
        | none => some (.error .invariantViolation)
        | some cachedOwner =>
          if cachedOwner.committed = 0 ∨ cachedOwner.stockLocate ≠ pageOwner.stockLocate
              ∨ cachedOwner.pageIndex ≠ cachedBest.pageIndex then
            some (.error .invariantViolation)
          else do
            let cachedPage ← pageSummary s bookSummary.bestPageHandle side
            if cachedPage.activeLevels = 0
                ∨ cachedPage.bestLevelIndex ≠ cachedBest.levelIndex.toUInt32 then
              some (.error .invariantViolation)
            else do
              let cachedLevel ←
                levelUnchecked s ⟨bookSummary.bestPageHandle, cachedBest.levelIndex⟩ side
              if cachedLevel.orderCount = 0 ∨ cachedLevel.totalQty = 0 then
                some (.error .invariantViolation)
              else do
                match ← planPage s address side with
                | .error e => some (.error e)
                | .ok plan => planBook s address side pageOwner plan

def validateErase (s : PriceLevelStore) (address : PriceAddress) (side : OrderSide)
    (qty : UInt32) : Option (Except MutationResult DeactivationPlan) :=
  let addressResult := s.validateAddress address side
  if addressResult ≠ .applied then some (.error addressResult)
  else if qty = 0 then some (.error .invalidQuantity)
  else do
    let level ← levelUnchecked s address side
    if level.orderCount = 0 ∨ level.totalQty = 0 then some (.error .missingPriceLevel)
    else if level.totalQty < qty.toUInt64 then some (.error .quantityUnderflow)
    else if level.orderCount = 1 ∧ level.totalQty ≠ qty.toUInt64 then
      some (.error .invariantViolation)
    else if 1 < level.orderCount ∧ level.totalQty = qty.toUInt64 then
      some (.error .invariantViolation)
    else if level.orderCount = 1 then validateDeactivation s address side
    else some (.ok DeactivationPlan.init)

/-! ## Mutation -/

/-- The page's bits after an activation: they are materialized from the second level on. -/
def activatedBits (bitmap : PriceBitmapStorage) (summary : PageSideSummary) (level : UInt16) :
    Option PriceBitmapStorage :=
  if summary.activeLevels = 1 then do
    let bitmap ← CheckedBitmap.set bitmap summary.bestLevelIndex.toNat
    CheckedBitmap.set bitmap level.toNat
  else if 1 < summary.activeLevels then CheckedBitmap.set bitmap level.toNat
  else some bitmap

def activateLevel (s : PriceLevelStore) (address : PriceAddress) (side : OrderSide) :
    Option PriceLevelStore := do
  let pageOwner ← pageOwner s address.pageHandle
  let summary ← pageSummary s address.pageHandle side
  let bitmap ← pageBitmap s address.pageHandle side
  let bookSummary ← bookSummary s pageOwner.stockLocate side
  let bookBitmap ← bookBitmap s pageOwner.stockLocate side
  let pageWasEmpty := summary.activeLevels == 0
  let bookWasEmpty := bookSummary.activePages == 0
  let bitmap' ← activatedBits bitmap summary address.levelIndex
  let summary' : PageSideSummary :=
    { activeLevels := summary.activeLevels + 1
      bestLevelIndex :=
        if pageWasEmpty || better side address.levelIndex.toUInt32 summary.bestLevelIndex then
          address.levelIndex.toUInt32
        else summary.bestLevelIndex }
  let bookBitmap' ←
    (if pageWasEmpty then CheckedBitmap.set bookBitmap pageOwner.pageIndex.toNat
      else some bookBitmap)
  let activePages' :=
    if pageWasEmpty then bookSummary.activePages + 1 else bookSummary.activePages
  let rawPrice := joinPrice pageOwner.pageIndex address.levelIndex
  let bookSummary' : BookSideSummary :=
    if bookWasEmpty || bookSummary.bestPageHandle == kInvalidPricePageHandle
        || better side rawPrice bookSummary.bestRawPrice then
      ⟨rawPrice, address.pageHandle, activePages'⟩
    else { bookSummary with activePages := activePages' }
  let s ← setPageBitmap s address.pageHandle side bitmap'
  let s ← setPageSummary s address.pageHandle side summary'
  let s ← setBookBitmap s pageOwner.stockLocate side bookBitmap'
  setBookSummary s pageOwner.stockLocate side bookSummary'

def addValidated (s : PriceLevelStore) (address : PriceAddress) (side : OrderSide)
    (qty : UInt32) : Option PriceLevelStore := do
  let level ← levelUnchecked s address side
  let s ← (if level.orderCount = 0 then activateLevel s address side else some s)
  setLevel s address side ⟨level.totalQty + qty.toUInt64, level.orderCount + 1⟩

def add (s : PriceLevelStore) (address : PriceAddress) (side : OrderSide) (qty : UInt32) :
    Option (MutationResult × PriceLevelStore) := do
  let validation ← validateAdd s address side qty
  if validation ≠ .applied then some (validation, s)
  else do
    let s ← addValidated s address side qty
    return (.applied, s)

def reduceLevel (s : PriceLevelStore) (address : PriceAddress) (side : OrderSide)
    (currentOrderQty reductionQty : UInt32) : Option (MutationResult × PriceLevelStore) :=
  if currentOrderQty = 0 ∨ reductionQty = 0 then some (.invalidQuantity, s)
  else if currentOrderQty ≤ reductionQty then some (.quantityUnderflow, s)
  else do
    let level ← levelUnchecked s address side
    if level.orderCount = 0 ∨ level.totalQty = 0 then some (.missingPriceLevel, s)
    else if level.totalQty < currentOrderQty.toUInt64 then some (.quantityUnderflow, s)
    else if level.orderCount = 1 ∧ level.totalQty ≠ currentOrderQty.toUInt64 then
      some (.invariantViolation, s)
    else if 1 < level.orderCount ∧ level.totalQty = currentOrderQty.toUInt64 then
      some (.invariantViolation, s)
    else if level.totalQty ≤ reductionQty.toUInt64 then some (.quantityUnderflow, s)
    else do
      let s ← setLevel s address side
        { level with totalQty := level.totalQty - reductionQty.toUInt64 }
      return (.applied, s)

def reduce (s : PriceLevelStore) (address : PriceAddress) (side : OrderSide)
    (currentOrderQty reductionQty : UInt32) : Option (MutationResult × PriceLevelStore) :=
  let addressResult := s.validateAddress address side
  if addressResult ≠ .applied then some (addressResult, s)
  else reduceLevel s address side currentOrderQty reductionQty

def reduceChecked (s : PriceLevelStore) (expectedStockLocate expectedPageIndex : UInt16)
    (address : PriceAddress) (side : OrderSide) (currentOrderQty reductionQty : UInt32) :
    Option (MutationResult × PriceLevelStore) :=
  if !isValidStockLocate expectedStockLocate then some (.invalidLocate, s)
  else
    let addressResult := s.validateAddress address side
    if addressResult ≠ .applied then some (addressResult, s)
    else do
      let pageOwner ← pageOwner s address.pageHandle
      if pageOwner.committed = 0 ∨ pageOwner.stockLocate ≠ expectedStockLocate
          ∨ pageOwner.pageIndex ≠ expectedPageIndex then
        some (.invariantViolation, s)
      else reduceLevel s address side currentOrderQty reductionQty

/-- The page's bits after a deactivation: those of a singleton are cleared. -/
def deactivatedBits (bitmap : PriceBitmapStorage) (emptied : Bool) (level : UInt16)
    (activeLevels' bestLevelIndex' : UInt32) : Option PriceBitmapStorage :=
  if emptied then some bitmap
  else do
    let bitmap ← CheckedBitmap.reset bitmap level.toNat
    if activeLevels' = 1 then CheckedBitmap.reset bitmap bestLevelIndex'.toNat else some bitmap

def deactivateLevel (s : PriceLevelStore) (address : PriceAddress) (side : OrderSide)
    (plan : DeactivationPlan) : Option PriceLevelStore := do
  let pageOwner ← pageOwner s address.pageHandle
  let summary ← pageSummary s address.pageHandle side
  let bitmap ← pageBitmap s address.pageHandle side
  let bookSummary ← bookSummary s pageOwner.stockLocate side
  let bookBitmap ← bookBitmap s pageOwner.stockLocate side
  let activeLevels' := if plan.pageBecomesEmpty then 0 else summary.activeLevels - 1
  let bestLevelIndex' :=
    if plan.pageBecomesEmpty then 0
    else if plan.pageBestChanges then plan.nextLevelIndex.toUInt32
    else summary.bestLevelIndex
  let bitmap' ← deactivatedBits bitmap plan.pageBecomesEmpty address.levelIndex activeLevels'
    bestLevelIndex'
  let bookBitmap' ←
    (if plan.pageBecomesEmpty then CheckedBitmap.reset bookBitmap pageOwner.pageIndex.toNat
      else some bookBitmap)
  let activePages' :=
    if plan.pageBecomesEmpty then bookSummary.activePages - 1 else bookSummary.activePages
  let bookSummary' : BookSideSummary :=
    if plan.bookBestChanges then ⟨plan.nextBookRawPrice, plan.nextBookPageHandle, activePages'⟩
    else { bookSummary with activePages := activePages' }
  let s ← setPageBitmap s address.pageHandle side bitmap'
  let s ← setPageSummary s address.pageHandle side ⟨bestLevelIndex', activeLevels'⟩
  let s ← setBookBitmap s pageOwner.stockLocate side bookBitmap'
  setBookSummary s pageOwner.stockLocate side bookSummary'

def eraseValidated (s : PriceLevelStore) (address : PriceAddress) (side : OrderSide)
    (qty : UInt32) (plan : DeactivationPlan) : Option PriceLevelStore := do
  let level ← levelUnchecked s address side
  let s ← setLevel s address side ⟨level.totalQty - qty.toUInt64, level.orderCount - 1⟩
  if level.orderCount = 1 then deactivateLevel s address side plan else some s

def erase (s : PriceLevelStore) (address : PriceAddress) (side : OrderSide)
    (remainingOrderQty : UInt32) : Option (MutationResult × PriceLevelStore) := do
  match ← validateErase s address side remainingOrderQty with
  | .error e => some (e, s)
  | .ok plan => do
    let s ← eraseValidated s address side remainingOrderQty plan
    return (.applied, s)

def move (s : PriceLevelStore) (oldAddress : PriceAddress) (oldQty : UInt32)
    (newAddress : PriceAddress) (newQty : UInt32) (side : OrderSide) :
    Option (MutationResult × PriceLevelStore) :=
  if newQty = 0 then some (.invalidQuantity, s)
  else do
    match ← owner s oldAddress.pageHandle, ← owner s newAddress.pageHandle with
    | some oldOwner, some newOwner =>
      if oldOwner.committed = 0 ∨ newOwner.committed = 0 then some (.invariantViolation, s)
      else if oldOwner.stockLocate ≠ newOwner.stockLocate then some (.locateMismatch, s)
      else do
        match ← validateErase s oldAddress side oldQty with
        | .error e => some (e, s)
        | .ok sourcePlan =>
          if oldAddress.pageHandle = newAddress.pageHandle
              ∧ oldAddress.levelIndex = newAddress.levelIndex then do
            let level ← levelUnchecked s oldAddress side
            let withoutOld := level.totalQty - oldQty.toUInt64
            if 2 ^ 64 - 1 - newQty.toNat < withoutOld.toNat then some (.quantityOverflow, s)
            else do
              let s ← setLevel s oldAddress side
                { level with totalQty := withoutOld + newQty.toUInt64 }
              return (.applied, s)
          else do
            let destinationValidation ← validateAdd s newAddress side newQty
            if destinationValidation ≠ .applied then some (destinationValidation, s)
            else do
              let s ← eraseValidated s oldAddress side oldQty sourcePlan
              let s ← addValidated s newAddress side newQty
              return (.applied, s)
    | _, _ => some (.invalidPricePage, s)

/-! ## Reading a side -/

def best (s : PriceLevelStore) (stockLocate : UInt16) (side : OrderSide) :
    Option PriceLevelCursor := do
  let prepared ← isBookPrepared s stockLocate
  if !prepared ∨ !validSide side then some .none
  else do
    let bookSummary ← bookSummary s stockLocate side
    return if bookSummary.activePages = 0
        ∨ bookSummary.bestPageHandle = kInvalidPricePageHandle then .none
      else ⟨bookSummary.bestPageHandle, bookSummary.bestRawPrice, stockLocate, true⟩

/-- The nearest worse level of the page, which is looked for only where the page has another. -/
def nextLevelOnPage (s : PriceLevelStore) (handle : UInt32) (side : OrderSide)
    (activeLevels : UInt32) (level : UInt16) : Option ℕ :=
  if 1 < activeLevels then do
    let pageBitmap ← pageBitmap s handle side
    nextWorseIndex side pageBitmap level
  else some PriceBitmap.kInvalid

def nextWorse (s : PriceLevelStore) (stockLocate : UInt16) (side : OrderSide)
    (current : PriceLevelCursor) : Option PriceLevelCursor := do
  let prepared ← isBookPrepared s stockLocate
  if !current.valid ∨ current.stockLocate ≠ stockLocate ∨ !prepared ∨ !validSide side then
    some .none
  else do
    let parts := splitPrice current.rawPrice
    let isRoot ← rootHandleMatches s stockLocate parts.pageIndex current.pageHandle
    if !isRoot then some .none
    else do
      let summary ← pageSummary s current.pageHandle side
      let nextLevelIndex ← nextLevelOnPage s current.pageHandle side summary.activeLevels
        parts.levelIndex
      if nextLevelIndex ≠ PriceBitmap.kInvalid then
        some ⟨current.pageHandle, joinPrice parts.pageIndex nextLevelIndex.toUInt16, stockLocate,
          true⟩
      else do
        let bookBitmap ← bookBitmap s stockLocate side
        let nextPageIndex ← nextWorseIndex side bookBitmap parts.pageIndex
        if nextPageIndex = PriceBitmap.kInvalid then some .none
        else do
          let nextHandle ← pageHandle s stockLocate nextPageIndex.toUInt16
          if nextHandle = kInvalidPricePageHandle then some .none
          else do
            let nextPage ← pageSummary s nextHandle side
            return if nextPage.activeLevels = 0
                ∨ kPricePartCount ≤ nextPage.bestLevelIndex.toNat then .none
              else ⟨nextHandle, joinPrice nextPageIndex.toUInt16 nextPage.bestLevelIndex.toUInt16,
                stockLocate, true⟩

def view (s : PriceLevelStore) (cursor : PriceLevelCursor) (side : OrderSide) :
    Option PriceLevelView :=
  if !cursor.valid then some .none
  else do
    let parts := splitPrice cursor.rawPrice
    let owned ← ownsAddress s cursor.stockLocate parts.pageIndex
      ⟨cursor.pageHandle, parts.levelIndex⟩
    if !owned then some .none
    else do
      match ← resolveLevel s ⟨cursor.pageHandle, parts.levelIndex⟩ side with
      | none => some .none
      | some level =>
        some (if level.orderCount = 0 then .none
          else ⟨cursor.rawPrice, level.totalQty, level.orderCount, true⟩)

/-- The loop of `topTen` with fuel for its rounds, as the source writes it. -/
def topTenLoop (s : PriceLevelStore) (stockLocate : UInt16) (side : OrderSide) (limit : ℕ) :
    ℕ → PriceLevelCursor → ℕ → List PriceLevelView → Option (ℕ × List PriceLevelView)
  | 0, _, _, _ => none
  | fuel + 1, cursor, count, output =>
    if cursor.valid ∧ count < limit then
      (view s cursor side).bind fun levelView =>
        if !levelView.valid then some (count, output)
        else if count < output.length then
          if count + 1 = limit then some (count + 1, output.set count levelView)
          else
            (nextWorse s stockLocate side cursor).bind fun cursor =>
              topTenLoop s stockLocate side limit fuel cursor (count + 1)
                (output.set count levelView)
        else none
    else some (count, output)

def topTen (fuel : ℕ) (s : PriceLevelStore) (stockLocate : UInt16) (side : OrderSide)
    (output : List PriceLevelView) : Option (ℕ × List PriceLevelView) := do
  let cursor ← best s stockLocate side
  topTenLoop s stockLocate side (min output.length kTopLevelCount) fuel cursor 0 output

end CheckedStore

end AstraFeed
