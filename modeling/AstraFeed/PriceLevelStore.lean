import Mathlib.Logic.Function.Basic
import Mathlib.Tactic.Ring
import AstraFeed.MutationResult
import AstraFeed.PriceBitmap

/-!
# The paged price-level store

A raw price is a page index and a level index. Pages are committed one after another to the
`(locate, page index)` pair that asks for them, and never given back. Occupancy is kept at every
level: the level records, a summary and a bitmap for each page and side, and a summary and a bitmap
of pages for each locate and side. An arena is a function of its index, all zero at first.
-/

namespace AstraFeed

open Function

def kInvalidPricePageHandle : UInt32 := 0

def kPricePartCount : ℕ := 65536

def kTopLevelCount : ℕ := 10

structure PriceParts where
  pageIndex : UInt16
  levelIndex : UInt16

def splitPrice (price : UInt32) : PriceParts :=
  ⟨(price >>> 16).toUInt16, (price &&& 0xffff).toUInt16⟩

def joinPrice (pageIndex levelIndex : UInt16) : UInt32 :=
  pageIndex.toUInt32 <<< 16 ||| levelIndex.toUInt32

def priceRootIndex (stockLocate pageIndex : UInt16) : ℕ :=
  stockLocate.toNat <<< 16 ||| pageIndex.toNat

structure PriceLevelState where
  totalQty : UInt64
  orderCount : UInt32
  deriving DecidableEq

structure PricePage where
  bids : ℕ → PriceLevelState
  asks : ℕ → PriceLevelState

structure PriceAddress where
  pageHandle : UInt32
  levelIndex : UInt16
  deriving DecidableEq

def PriceAddress.valid (a : PriceAddress) : Bool := a.pageHandle != kInvalidPricePageHandle

/-- What `reservePrice` promises; `expectedCommittedPages` lets a commit see that it is late. -/
structure PricePageReservation where
  result : MutationResult
  address : PriceAddress
  stockLocate : UInt16
  pageIndex : UInt16
  expectedCommittedPages : UInt32
  requiresCommit : Bool
  deriving DecidableEq

namespace PricePageReservation

def init : PricePageReservation := ⟨.invariantViolation, ⟨0, 0⟩, 0, 0, 0, false⟩

def valid (r : PricePageReservation) : Bool := r.result == .applied && r.address.valid

end PricePageReservation

structure PriceLevelCursor where
  pageHandle : UInt32
  rawPrice : UInt32
  stockLocate : UInt16
  valid : Bool
  deriving DecidableEq

def PriceLevelCursor.none : PriceLevelCursor := ⟨kInvalidPricePageHandle, 0, 0, false⟩

structure PriceLevelView where
  rawPrice : UInt32
  totalQty : UInt64
  orderCount : UInt32
  valid : Bool
  deriving DecidableEq

def PriceLevelView.none : PriceLevelView := ⟨0, 0, 0, false⟩

structure PriceLevelStoreConfig where
  pageCapacity : UInt32

structure PageOwner where
  stockLocate : UInt16
  pageIndex : UInt16
  committed : UInt32
  deriving DecidableEq

structure PageSideSummary where
  bestLevelIndex : UInt32
  activeLevels : UInt32
  deriving DecidableEq

structure BookSideSummary where
  bestRawPrice : UInt32
  bestPageHandle : UInt32
  activePages : UInt32
  deriving DecidableEq

/-- What removing the last order of a level changes above it. -/
structure DeactivationPlan where
  nextLevelIndex : ℕ
  nextBookRawPrice : UInt32
  nextBookPageHandle : UInt32
  pageBecomesEmpty : Bool
  pageBestChanges : Bool
  bookBestChanges : Bool

def DeactivationPlan.init : DeactivationPlan :=
  ⟨PriceBitmap.kInvalid, 0, kInvalidPricePageHandle, false, false, false⟩

structure PriceLevelStore where
  config : PriceLevelStoreConfig
  roots : ℕ → UInt32
  preparedBooks : ℕ → UInt8
  pages : ℕ → PricePage
  pageOwners : ℕ → PageOwner
  pageSummaries : ℕ → ℕ → PageSideSummary
  pageOccupancy : ℕ → PriceBitmapStorage
  bookSummaries : ℕ → ℕ → BookSideSummary
  bookOccupancy : ℕ → PriceBitmapStorage
  committedPages : UInt32
  preparedBookCount : UInt32
  pageCapacityFailures : UInt64

namespace PriceLevelStore

/-- A store just constructed: every arena is zero-filled. -/
def fresh (config : PriceLevelStoreConfig) : PriceLevelStore where
  config := config
  roots := fun _ => kInvalidPricePageHandle
  preparedBooks := fun _ => 0
  pages := fun _ => ⟨fun _ => ⟨0, 0⟩, fun _ => ⟨0, 0⟩⟩
  pageOwners := fun _ => ⟨0, 0, 0⟩
  pageSummaries := fun _ _ => ⟨0, 0⟩
  pageOccupancy := fun _ => PriceBitmap.zero
  bookSummaries := fun _ _ => ⟨0, kInvalidPricePageHandle, 0⟩
  bookOccupancy := fun _ => PriceBitmap.zero
  committedPages := 0
  preparedBookCount := 0
  pageCapacityFailures := 0

def validSide (side : OrderSide) : Bool := side == .buy || side == .sell

def sideIndex (side : OrderSide) : ℕ := if side = .buy then 0 else 1

/-- Whether `lhs` is the better price on a side. -/
def better (side : OrderSide) (lhs rhs : UInt32) : Bool :=
  if side = .buy then rhs < lhs else lhs < rhs

def pageSideIndex (handle : UInt32) (side : OrderSide) : ℕ := handle.toNat * 2 + sideIndex side

def bookSideIndex (stockLocate : UInt16) (side : OrderSide) : ℕ :=
  stockLocate.toNat * 2 + sideIndex side

section Read

variable (s : PriceLevelStore)

def pageSummary (handle : UInt32) (side : OrderSide) : PageSideSummary :=
  s.pageSummaries handle.toNat (sideIndex side)

def pageBitmap (handle : UInt32) (side : OrderSide) : PriceBitmapStorage :=
  s.pageOccupancy (pageSideIndex handle side)

def bookSummary (stockLocate : UInt16) (side : OrderSide) : BookSideSummary :=
  s.bookSummaries stockLocate.toNat (sideIndex side)

def bookBitmap (stockLocate : UInt16) (side : OrderSide) : PriceBitmapStorage :=
  s.bookOccupancy (bookSideIndex stockLocate side)

def levelUnchecked (address : PriceAddress) (side : OrderSide) : PriceLevelState :=
  let pricePage := s.pages (address.pageHandle - 1).toNat
  if side = .buy then pricePage.bids address.levelIndex.toNat
  else pricePage.asks address.levelIndex.toNat

def owner (handle : UInt32) : Option PageOwner :=
  if handle = kInvalidPricePageHandle ∨ s.committedPages < handle then none
  else some (s.pageOwners handle.toNat)

/-- `handle` is committed to `(stockLocate, pageIndex)`. -/
def rootHandleMatches (stockLocate pageIndex : UInt16) (handle : UInt32) : Bool :=
  match s.owner handle with
  | none => false
  | some pageOwner =>
    pageOwner.committed != 0 && pageOwner.stockLocate == stockLocate
      && pageOwner.pageIndex == pageIndex

def isBookPrepared (stockLocate : UInt16) : Bool :=
  isValidStockLocate stockLocate && s.preparedBooks stockLocate.toNat != 0

def pageHandle (stockLocate pageIndex : UInt16) : UInt32 :=
  if !isValidStockLocate stockLocate then kInvalidPricePageHandle
  else
    let handle := s.roots (priceRootIndex stockLocate pageIndex)
    if s.rootHandleMatches stockLocate pageIndex handle then handle else kInvalidPricePageHandle

def ownsAddress (stockLocate pageIndex : UInt16) (address : PriceAddress) : Bool :=
  isValidStockLocate stockLocate && s.rootHandleMatches stockLocate pageIndex address.pageHandle

def validateAddress (address : PriceAddress) (side : OrderSide) : MutationResult :=
  if !validSide side then .invalidSide
  else if !address.valid ∨ s.committedPages < address.pageHandle then .invalidPricePage
  else .applied

def resolveLevel (address : PriceAddress) (side : OrderSide) : Option PriceLevelState :=
  if s.validateAddress address side ≠ .applied then none
  else some (s.levelUnchecked address side)

end Read

section Write

variable (s : PriceLevelStore)

def setPageSummary (handle : UInt32) (side : OrderSide) (v : PageSideSummary) : PriceLevelStore :=
  { s with
    pageSummaries := update s.pageSummaries handle.toNat
      (update (s.pageSummaries handle.toNat) (sideIndex side) v) }

def setPageBitmap (handle : UInt32) (side : OrderSide) (v : PriceBitmapStorage) :
    PriceLevelStore :=
  { s with pageOccupancy := update s.pageOccupancy (pageSideIndex handle side) v }

def setBookSummary (stockLocate : UInt16) (side : OrderSide) (v : BookSideSummary) :
    PriceLevelStore :=
  { s with
    bookSummaries := update s.bookSummaries stockLocate.toNat
      (update (s.bookSummaries stockLocate.toNat) (sideIndex side) v) }

def setBookBitmap (stockLocate : UInt16) (side : OrderSide) (v : PriceBitmapStorage) :
    PriceLevelStore :=
  { s with bookOccupancy := update s.bookOccupancy (bookSideIndex stockLocate side) v }

def setLevel (address : PriceAddress) (side : OrderSide) (v : PriceLevelState) : PriceLevelStore :=
  let slot := (address.pageHandle - 1).toNat
  let pricePage := s.pages slot
  { s with
    pages := update s.pages slot
      (if side = .buy then
        { pricePage with bids := update pricePage.bids address.levelIndex.toNat v }
      else { pricePage with asks := update pricePage.asks address.levelIndex.toNat v }) }

end Write

/-! ## Pages -/

def prepareBook (s : PriceLevelStore) (stockLocate : UInt16) : MutationResult × PriceLevelStore :=
  if !isValidStockLocate stockLocate then (.invalidLocate, s)
  else if s.preparedBooks stockLocate.toNat = 0 then
    (.applied, { s with
      preparedBooks := update s.preparedBooks stockLocate.toNat 1
      preparedBookCount := s.preparedBookCount + 1 })
  else (.applied, s)

/-- Reserving is read-only but for the count of capacity failures. -/
def reservePrice (s : PriceLevelStore) (stockLocate : UInt16) (rawPrice : UInt32) :
    PricePageReservation × PriceLevelStore :=
  if !isValidStockLocate stockLocate then
    ({ PricePageReservation.init with result := .invalidLocate }, s)
  else if !s.isBookPrepared stockLocate then
    ({ PricePageReservation.init with result := .bookNotPrepared }, s)
  else
    let parts := splitPrice rawPrice
    let reservation : PricePageReservation :=
      { PricePageReservation.init with
        stockLocate := stockLocate
        pageIndex := parts.pageIndex
        address := ⟨kInvalidPricePageHandle, parts.levelIndex⟩
        expectedCommittedPages := s.committedPages }
    let existing := s.roots (priceRootIndex stockLocate parts.pageIndex)
    if existing ≠ kInvalidPricePageHandle then
      if !s.rootHandleMatches stockLocate parts.pageIndex existing then
        ({ reservation with result := .invariantViolation }, s)
      else
        ({ reservation with
            address := ⟨existing, parts.levelIndex⟩
            requiresCommit := false
            result := .applied }, s)
    else if s.config.pageCapacity ≤ s.committedPages then
      ({ reservation with result := .pricePageCapacityExceeded },
        { s with pageCapacityFailures := s.pageCapacityFailures + 1 })
    else
      ({ reservation with
          address := ⟨s.committedPages + 1, parts.levelIndex⟩
          requiresCommit := true
          result := .applied }, s)

def commitReservation (s : PriceLevelStore) (reservation : PricePageReservation) :
    MutationResult × PriceLevelStore :=
  if reservation.result ≠ .applied then (reservation.result, s)
  else if !reservation.address.valid then (.invalidPricePage, s)
  else if !isValidStockLocate reservation.stockLocate then (.invalidLocate, s)
  else if !s.isBookPrepared reservation.stockLocate then (.bookNotPrepared, s)
  else
    let rootIndex := priceRootIndex reservation.stockLocate reservation.pageIndex
    let root := s.roots rootIndex
    if !reservation.requiresCommit then
      (if root = reservation.address.pageHandle then .applied else .staleReservation, s)
    else if root ≠ kInvalidPricePageHandle ∨ s.committedPages ≠ reservation.expectedCommittedPages
        ∨ reservation.address.pageHandle ≠ s.committedPages + 1
        ∨ s.config.pageCapacity < reservation.address.pageHandle then
      (.staleReservation, s)
    else
      let handle := reservation.address.pageHandle
      if (s.pageOwners handle.toNat).committed ≠ 0 then (.invariantViolation, s)
      else
        (.applied, { s with
          pageOwners := update s.pageOwners handle.toNat
            ⟨reservation.stockLocate, reservation.pageIndex, 1⟩
          committedPages := handle
          roots := update s.roots rootIndex handle })

/-! ## Validation -/

def validateActivation (s : PriceLevelStore) (address : PriceAddress) (side : OrderSide) :
    MutationResult :=
  match s.owner address.pageHandle with
  | none => .invariantViolation
  | some pageOwner =>
    if pageOwner.committed = 0 ∨ !isValidStockLocate pageOwner.stockLocate then .invariantViolation
    else
      let pageSummary := s.pageSummary address.pageHandle side
      let bookSummary := s.bookSummary pageOwner.stockLocate side
      if kPricePartCount ≤ pageSummary.activeLevels.toNat
          ∨ pageSummary.activeLevels ≠ 0 ∧ kPricePartCount ≤ pageSummary.bestLevelIndex.toNat
          ∨ pageSummary.activeLevels = 0 ∧ kPricePartCount ≤ bookSummary.activePages.toNat then
        .invariantViolation
      else .applied

def validateAdd (s : PriceLevelStore) (address : PriceAddress) (side : OrderSide) (qty : UInt32) :
    MutationResult :=
  let addressResult := s.validateAddress address side
  if addressResult ≠ .applied then addressResult
  else if qty = 0 then .invalidQuantity
  else
    let level := s.levelUnchecked address side
    if level.orderCount.toNat = 2 ^ 32 - 1 then .orderCountOverflow
    else if 2 ^ 64 - 1 - qty.toNat < level.totalQty.toNat then .quantityOverflow
    else if (level.orderCount == 0) != (level.totalQty == 0) then .invariantViolation
    else if level.orderCount = 0 then s.validateActivation address side
    else .applied

/-- The nearest occupied index strictly worse than `index`, the search `validateDeactivation` and
`nextWorse` make in a page's bitmap and in a book's. -/
def nextWorseIndex (side : OrderSide) (bitmap : PriceBitmapStorage) (index : UInt16) : ℕ :=
  if side = .buy then
    if index ≠ 0 then PriceBitmap.findHighestAtOrBelow bitmap (index.toNat - 1)
    else PriceBitmap.kInvalid
  else if index.toNat ≠ 2 ^ 16 - 1 then
    PriceBitmap.findLowestAtOrAbove bitmap (index.toNat + 1)
  else PriceBitmap.kInvalid

/-- The page's part of a deactivation: whether the page empties, and its next best level. -/
def planPage (s : PriceLevelStore) (address : PriceAddress) (side : OrderSide) :
    Except MutationResult DeactivationPlan :=
  let pageSummary := s.pageSummary address.pageHandle side
  let removedIsPageBest := pageSummary.bestLevelIndex == address.levelIndex.toUInt32
  if pageSummary.activeLevels = 1 then
    -- the summary is authoritative for a singleton page, whose bitmap is never materialized
    if !removedIsPageBest then .error .invariantViolation
    else .ok { DeactivationPlan.init with pageBecomesEmpty := true }
  else
    let pageBitmap := s.pageBitmap address.pageHandle side
    if PriceBitmap.empty pageBitmap ∨ !PriceBitmap.test pageBitmap address.levelIndex.toNat
        ∨ !PriceBitmap.test pageBitmap pageSummary.bestLevelIndex.toNat then
      .error .invariantViolation
    else if removedIsPageBest then
      let nextLevelIndex := nextWorseIndex side pageBitmap address.levelIndex
      if nextLevelIndex = PriceBitmap.kInvalid then .error .invariantViolation
      else
        let nextLevel := s.levelUnchecked ⟨address.pageHandle, nextLevelIndex.toUInt16⟩ side
        if nextLevel.orderCount = 0 ∨ nextLevel.totalQty = 0 then .error .invariantViolation
        else .ok { DeactivationPlan.init with
          nextLevelIndex := nextLevelIndex
          pageBestChanges := true }
    else .ok DeactivationPlan.init

/-- The book's part of a deactivation: the next best price when the best one goes. -/
def planBook (s : PriceLevelStore) (address : PriceAddress) (side : OrderSide)
    (pageOwner : PageOwner) (plan : DeactivationPlan) : Except MutationResult DeactivationPlan :=
  let pageSummary := s.pageSummary address.pageHandle side
  let bookSummary := s.bookSummary pageOwner.stockLocate side
  let bookBitmap := s.bookBitmap pageOwner.stockLocate side
  let removedIsPageBest := pageSummary.bestLevelIndex == address.levelIndex.toUInt32
  let removedRaw := joinPrice pageOwner.pageIndex address.levelIndex
  if bookSummary.bestRawPrice = removedRaw then
    if bookSummary.bestPageHandle ≠ address.pageHandle ∨ !removedIsPageBest then
      .error .invariantViolation
    else if !plan.pageBecomesEmpty then
      if !plan.pageBestChanges then .error .invariantViolation
      else .ok { plan with
        bookBestChanges := true
        nextBookRawPrice := joinPrice pageOwner.pageIndex plan.nextLevelIndex.toUInt16
        nextBookPageHandle := address.pageHandle }
    else
      let nextPageIndex := nextWorseIndex side bookBitmap pageOwner.pageIndex
      if bookSummary.activePages = 1 then
        if nextPageIndex = PriceBitmap.kInvalid then .ok { plan with bookBestChanges := true }
        else .error .invariantViolation
      else if nextPageIndex = PriceBitmap.kInvalid then .error .invariantViolation
      else
        let nextHandle := s.pageHandle pageOwner.stockLocate nextPageIndex.toUInt16
        if nextHandle = kInvalidPricePageHandle then .error .invariantViolation
        else
          let nextPage := s.pageSummary nextHandle side
          if nextPage.activeLevels = 0 ∨ kPricePartCount ≤ nextPage.bestLevelIndex.toNat then
            .error .invariantViolation
          else
            let nextLevel := s.levelUnchecked ⟨nextHandle, nextPage.bestLevelIndex.toUInt16⟩ side
            if nextLevel.orderCount = 0 ∨ nextLevel.totalQty = 0 then .error .invariantViolation
            else .ok { plan with
              bookBestChanges := true
              nextBookRawPrice :=
                joinPrice nextPageIndex.toUInt16 nextPage.bestLevelIndex.toUInt16
              nextBookPageHandle := nextHandle }
  else if plan.pageBecomesEmpty ∧ bookSummary.activePages = 1 then .error .invariantViolation
  else .ok plan

def validateDeactivation (s : PriceLevelStore) (address : PriceAddress) (side : OrderSide) :
    Except MutationResult DeactivationPlan :=
  match s.owner address.pageHandle with
  | none => .error .invariantViolation
  | some pageOwner =>
    if pageOwner.committed = 0 ∨ !isValidStockLocate pageOwner.stockLocate then
      .error .invariantViolation
    else
      let pageSummary := s.pageSummary address.pageHandle side
      let bookSummary := s.bookSummary pageOwner.stockLocate side
      let bookBitmap := s.bookBitmap pageOwner.stockLocate side
      if pageSummary.activeLevels = 0 ∨ kPricePartCount < pageSummary.activeLevels.toNat
          ∨ kPricePartCount ≤ pageSummary.bestLevelIndex.toNat
          ∨ bookSummary.activePages = 0 ∨ kPricePartCount < bookSummary.activePages.toNat
          ∨ bookSummary.bestPageHandle = kInvalidPricePageHandle
          ∨ !PriceBitmap.test bookBitmap pageOwner.pageIndex.toNat then
        .error .invariantViolation
      else
        let cachedBest := splitPrice bookSummary.bestRawPrice
        match s.owner bookSummary.bestPageHandle with
        | none => .error .invariantViolation
        | some cachedOwner =>
          let cachedPage := s.pageSummary bookSummary.bestPageHandle side
          let cachedLevel :=
            s.levelUnchecked ⟨bookSummary.bestPageHandle, cachedBest.levelIndex⟩ side
          if cachedOwner.committed = 0 ∨ cachedOwner.stockLocate ≠ pageOwner.stockLocate
              ∨ cachedOwner.pageIndex ≠ cachedBest.pageIndex then
            .error .invariantViolation
          else if cachedPage.activeLevels = 0
              ∨ cachedPage.bestLevelIndex ≠ cachedBest.levelIndex.toUInt32 then
            .error .invariantViolation
          else if cachedLevel.orderCount = 0 ∨ cachedLevel.totalQty = 0 then
            .error .invariantViolation
          else
            match s.planPage address side with
            | .error e => .error e
            | .ok plan => s.planBook address side pageOwner plan

def validateErase (s : PriceLevelStore) (address : PriceAddress) (side : OrderSide)
    (qty : UInt32) : Except MutationResult DeactivationPlan :=
  let addressResult := s.validateAddress address side
  if addressResult ≠ .applied then .error addressResult
  else if qty = 0 then .error .invalidQuantity
  else
    let level := s.levelUnchecked address side
    if level.orderCount = 0 ∨ level.totalQty = 0 then .error .missingPriceLevel
    else if level.totalQty < qty.toUInt64 then .error .quantityUnderflow
    else if level.orderCount = 1 ∧ level.totalQty ≠ qty.toUInt64 then .error .invariantViolation
    else if 1 < level.orderCount ∧ level.totalQty = qty.toUInt64 then .error .invariantViolation
    else if level.orderCount = 1 then s.validateDeactivation address side
    else .ok DeactivationPlan.init

/-! ## Mutation -/

/-- A level gains its first order: the page's bits are materialized from its second level on. -/
def activateLevel (s : PriceLevelStore) (address : PriceAddress) (side : OrderSide) :
    PriceLevelStore :=
  let pageOwner := s.pageOwners address.pageHandle.toNat
  let pageSummary := s.pageSummary address.pageHandle side
  let pageBitmap := s.pageBitmap address.pageHandle side
  let bookSummary := s.bookSummary pageOwner.stockLocate side
  let bookBitmap := s.bookBitmap pageOwner.stockLocate side
  let pageWasEmpty := pageSummary.activeLevels == 0
  let bookWasEmpty := bookSummary.activePages == 0
  let pageBitmap' :=
    if pageSummary.activeLevels = 1 then
      PriceBitmap.set (PriceBitmap.set pageBitmap pageSummary.bestLevelIndex.toNat)
        address.levelIndex.toNat
    else if 1 < pageSummary.activeLevels then PriceBitmap.set pageBitmap address.levelIndex.toNat
    else pageBitmap
  let pageSummary' : PageSideSummary :=
    { activeLevels := pageSummary.activeLevels + 1
      bestLevelIndex :=
        if pageWasEmpty
            || better side address.levelIndex.toUInt32 pageSummary.bestLevelIndex then
          address.levelIndex.toUInt32
        else pageSummary.bestLevelIndex }
  let bookBitmap' :=
    if pageWasEmpty then PriceBitmap.set bookBitmap pageOwner.pageIndex.toNat else bookBitmap
  let activePages' :=
    if pageWasEmpty then bookSummary.activePages + 1 else bookSummary.activePages
  let rawPrice := joinPrice pageOwner.pageIndex address.levelIndex
  let bookSummary' : BookSideSummary :=
    if bookWasEmpty || bookSummary.bestPageHandle == kInvalidPricePageHandle
        || better side rawPrice bookSummary.bestRawPrice then
      ⟨rawPrice, address.pageHandle, activePages'⟩
    else { bookSummary with activePages := activePages' }
  (((s.setPageBitmap address.pageHandle side pageBitmap').setPageSummary address.pageHandle side
    pageSummary').setBookBitmap pageOwner.stockLocate side bookBitmap').setBookSummary
    pageOwner.stockLocate side bookSummary'

def addValidated (s : PriceLevelStore) (address : PriceAddress) (side : OrderSide)
    (qty : UInt32) : PriceLevelStore :=
  let level := s.levelUnchecked address side
  let s := if level.orderCount = 0 then s.activateLevel address side else s
  s.setLevel address side ⟨level.totalQty + qty.toUInt64, level.orderCount + 1⟩

def add (s : PriceLevelStore) (address : PriceAddress) (side : OrderSide) (qty : UInt32) :
    MutationResult × PriceLevelStore :=
  let validation := s.validateAdd address side qty
  if validation ≠ .applied then (validation, s) else (.applied, s.addValidated address side qty)

/-- The checks `reduce` and `reduceChecked` share, and the reduction they guard. -/
def reduceLevel (s : PriceLevelStore) (address : PriceAddress) (side : OrderSide)
    (currentOrderQty reductionQty : UInt32) : MutationResult × PriceLevelStore :=
  if currentOrderQty = 0 ∨ reductionQty = 0 then (.invalidQuantity, s)
  else if currentOrderQty ≤ reductionQty then (.quantityUnderflow, s)
  else
    let level := s.levelUnchecked address side
    if level.orderCount = 0 ∨ level.totalQty = 0 then (.missingPriceLevel, s)
    else if level.totalQty < currentOrderQty.toUInt64 then (.quantityUnderflow, s)
    else if level.orderCount = 1 ∧ level.totalQty ≠ currentOrderQty.toUInt64 then
      (.invariantViolation, s)
    else if 1 < level.orderCount ∧ level.totalQty = currentOrderQty.toUInt64 then
      (.invariantViolation, s)
    else if level.totalQty ≤ reductionQty.toUInt64 then (.quantityUnderflow, s)
    else
      (.applied, s.setLevel address side
        { level with totalQty := level.totalQty - reductionQty.toUInt64 })

def reduce (s : PriceLevelStore) (address : PriceAddress) (side : OrderSide)
    (currentOrderQty reductionQty : UInt32) : MutationResult × PriceLevelStore :=
  let addressResult := s.validateAddress address side
  if addressResult ≠ .applied then (addressResult, s)
  else s.reduceLevel address side currentOrderQty reductionQty

def reduceChecked (s : PriceLevelStore) (expectedStockLocate expectedPageIndex : UInt16)
    (address : PriceAddress) (side : OrderSide) (currentOrderQty reductionQty : UInt32) :
    MutationResult × PriceLevelStore :=
  if !isValidStockLocate expectedStockLocate then (.invalidLocate, s)
  else
    let addressResult := s.validateAddress address side
    if addressResult ≠ .applied then (addressResult, s)
    else
      let pageOwner := s.pageOwners address.pageHandle.toNat
      if pageOwner.committed = 0 ∨ pageOwner.stockLocate ≠ expectedStockLocate
          ∨ pageOwner.pageIndex ≠ expectedPageIndex then
        (.invariantViolation, s)
      else s.reduceLevel address side currentOrderQty reductionQty

def deactivateLevel (s : PriceLevelStore) (address : PriceAddress) (side : OrderSide)
    (plan : DeactivationPlan) : PriceLevelStore :=
  let pageOwner := s.pageOwners address.pageHandle.toNat
  let pageSummary := s.pageSummary address.pageHandle side
  let pageBitmap := s.pageBitmap address.pageHandle side
  let bookSummary := s.bookSummary pageOwner.stockLocate side
  let bookBitmap := s.bookBitmap pageOwner.stockLocate side
  let activeLevels' := if plan.pageBecomesEmpty then 0 else pageSummary.activeLevels - 1
  let bestLevelIndex' :=
    if plan.pageBecomesEmpty then 0
    else if plan.pageBestChanges then plan.nextLevelIndex.toUInt32
    else pageSummary.bestLevelIndex
  let pageBitmap' :=
    if plan.pageBecomesEmpty then pageBitmap
    else if activeLevels' = 1 then
      PriceBitmap.reset (PriceBitmap.reset pageBitmap address.levelIndex.toNat)
        bestLevelIndex'.toNat
    else PriceBitmap.reset pageBitmap address.levelIndex.toNat
  let bookBitmap' :=
    if plan.pageBecomesEmpty then PriceBitmap.reset bookBitmap pageOwner.pageIndex.toNat
    else bookBitmap
  let activePages' :=
    if plan.pageBecomesEmpty then bookSummary.activePages - 1 else bookSummary.activePages
  let bookSummary' : BookSideSummary :=
    if plan.bookBestChanges then ⟨plan.nextBookRawPrice, plan.nextBookPageHandle, activePages'⟩
    else { bookSummary with activePages := activePages' }
  (((s.setPageBitmap address.pageHandle side pageBitmap').setPageSummary address.pageHandle side
    ⟨bestLevelIndex', activeLevels'⟩).setBookBitmap pageOwner.stockLocate side
    bookBitmap').setBookSummary pageOwner.stockLocate side bookSummary'

def eraseValidated (s : PriceLevelStore) (address : PriceAddress) (side : OrderSide)
    (qty : UInt32) (plan : DeactivationPlan) : PriceLevelStore :=
  let level := s.levelUnchecked address side
  let s := s.setLevel address side ⟨level.totalQty - qty.toUInt64, level.orderCount - 1⟩
  if level.orderCount = 1 then s.deactivateLevel address side plan else s

def erase (s : PriceLevelStore) (address : PriceAddress) (side : OrderSide)
    (remainingOrderQty : UInt32) : MutationResult × PriceLevelStore :=
  match s.validateErase address side remainingOrderQty with
  | .error e => (e, s)
  | .ok plan => (.applied, s.eraseValidated address side remainingOrderQty plan)

def move (s : PriceLevelStore) (oldAddress : PriceAddress) (oldQty : UInt32)
    (newAddress : PriceAddress) (newQty : UInt32) (side : OrderSide) :
    MutationResult × PriceLevelStore :=
  if newQty = 0 then (.invalidQuantity, s)
  else
    match s.owner oldAddress.pageHandle, s.owner newAddress.pageHandle with
    | some oldOwner, some newOwner =>
      if oldOwner.committed = 0 ∨ newOwner.committed = 0 then (.invariantViolation, s)
      else if oldOwner.stockLocate ≠ newOwner.stockLocate then (.locateMismatch, s)
      else
        match s.validateErase oldAddress side oldQty with
        | .error e => (e, s)
        | .ok sourcePlan =>
          if oldAddress.pageHandle = newAddress.pageHandle
              ∧ oldAddress.levelIndex = newAddress.levelIndex then
            let level := s.levelUnchecked oldAddress side
            let withoutOld := level.totalQty - oldQty.toUInt64
            if 2 ^ 64 - 1 - newQty.toNat < withoutOld.toNat then (.quantityOverflow, s)
            else
              (.applied, s.setLevel oldAddress side
                { level with totalQty := withoutOld + newQty.toUInt64 })
          else
            let destinationValidation := s.validateAdd newAddress side newQty
            if destinationValidation ≠ .applied then (destinationValidation, s)
            else
              (.applied, (s.eraseValidated oldAddress side oldQty sourcePlan).addValidated
                newAddress side newQty)
    | _, _ => (.invalidPricePage, s)

/-! ## Reading a side -/

def best (s : PriceLevelStore) (stockLocate : UInt16) (side : OrderSide) : PriceLevelCursor :=
  if !s.isBookPrepared stockLocate ∨ !validSide side then .none
  else
    let bookSummary := s.bookSummary stockLocate side
    if bookSummary.activePages = 0 ∨ bookSummary.bestPageHandle = kInvalidPricePageHandle then .none
    else ⟨bookSummary.bestPageHandle, bookSummary.bestRawPrice, stockLocate, true⟩

def nextWorse (s : PriceLevelStore) (stockLocate : UInt16) (side : OrderSide)
    (current : PriceLevelCursor) : PriceLevelCursor :=
  if !current.valid ∨ current.stockLocate ≠ stockLocate ∨ !s.isBookPrepared stockLocate
      ∨ !validSide side then .none
  else
    let parts := splitPrice current.rawPrice
    if !s.rootHandleMatches stockLocate parts.pageIndex current.pageHandle then .none
    else
      let pageSummary := s.pageSummary current.pageHandle side
      let nextLevelIndex :=
        if 1 < pageSummary.activeLevels then
          nextWorseIndex side (s.pageBitmap current.pageHandle side) parts.levelIndex
        else PriceBitmap.kInvalid
      if nextLevelIndex ≠ PriceBitmap.kInvalid then
        ⟨current.pageHandle, joinPrice parts.pageIndex nextLevelIndex.toUInt16, stockLocate, true⟩
      else
        let nextPageIndex :=
          nextWorseIndex side (s.bookBitmap stockLocate side) parts.pageIndex
        if nextPageIndex = PriceBitmap.kInvalid then .none
        else
          let nextHandle := s.pageHandle stockLocate nextPageIndex.toUInt16
          if nextHandle = kInvalidPricePageHandle then .none
          else
            let nextPage := s.pageSummary nextHandle side
            if nextPage.activeLevels = 0 ∨ kPricePartCount ≤ nextPage.bestLevelIndex.toNat then
              .none
            else
              ⟨nextHandle, joinPrice nextPageIndex.toUInt16 nextPage.bestLevelIndex.toUInt16,
                stockLocate, true⟩

def view (s : PriceLevelStore) (cursor : PriceLevelCursor) (side : OrderSide) : PriceLevelView :=
  if !cursor.valid then .none
  else
    let parts := splitPrice cursor.rawPrice
    if !s.ownsAddress cursor.stockLocate parts.pageIndex ⟨cursor.pageHandle, parts.levelIndex⟩ then
      .none
    else
      match s.resolveLevel ⟨cursor.pageHandle, parts.levelIndex⟩ side with
      | none => .none
      | some level =>
        if level.orderCount = 0 then .none
        else ⟨cursor.rawPrice, level.totalQty, level.orderCount, true⟩

/-- The loop of `topTen`, with `remaining` slots left to fill from slot `count` on. -/
def topTenLoop (s : PriceLevelStore) (stockLocate : UInt16) (side : OrderSide) :
    ℕ → PriceLevelCursor → ℕ → List PriceLevelView → ℕ × List PriceLevelView
  | 0, _, count, output => (count, output)
  | remaining + 1, cursor, count, output =>
    if !cursor.valid then (count, output)
    else
      let levelView := s.view cursor side
      if !levelView.valid then (count, output)
      else if remaining = 0 then (count + 1, output.set count levelView)
      else
        topTenLoop s stockLocate side remaining (s.nextWorse stockLocate side cursor) (count + 1)
          (output.set count levelView)

def topTen (s : PriceLevelStore) (stockLocate : UInt16) (side : OrderSide)
    (output : List PriceLevelView) : ℕ × List PriceLevelView :=
  topTenLoop s stockLocate side (min output.length kTopLevelCount) (s.best stockLocate side) 0
    output

end PriceLevelStore

end AstraFeed
