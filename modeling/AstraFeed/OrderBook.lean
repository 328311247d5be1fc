import AstraFeed.OrderTable
import AstraFeed.PriceLevelStore

/-!
# One locate's order book

A book is a descriptor over the process-wide order table and price store; its operations change the
three together. Only managed books are modelled: their store pointers are never null.
-/

namespace AstraFeed

structure OrderBook where
  symbolId : UInt32
  stockLocate : UInt16
  localInvalid : Bool
  orderCapacity : UInt64
  liveOrderCount : UInt64
  allocationFailures : UInt64
  latestUpdateTimestamp : UInt64
  deriving DecidableEq

structure TopOfBook where
  timestamp : UInt64
  bidPrice : UInt64
  bidQty : UInt64
  askPrice : UInt64
  askQty : UInt64
  symbolId : UInt32
  hasBid : Bool
  hasAsk : Bool
  deriving DecidableEq

structure BookLevelUpdate where
  price : UInt64
  qty : UInt64
  numOrders : UInt32
  deriving DecidableEq

/-- The top levels of both sides; the arrays are kept as the lists of their filled entries, so
`bidsDepth` and `asksDepth` are their lengths. -/
structure BookUpdate where
  bids : List BookLevelUpdate
  asks : List BookLevelUpdate
  timestamp : UInt64
  symbolId : UInt32
  deriving DecidableEq

/-- A book with the stores its pointers lead to. -/
structure BookContext where
  book : OrderBook
  orders : OrderTable
  prices : PriceLevelStore

namespace OrderBook

/-- `decodeSide(char)`: `'B'` and `'S'`. -/
def decodeSide (side : UInt8) : OrderSide :=
  if side = 66 then .buy else if side = 83 then .sell else .invalid

/-- The manager-backed constructor. -/
def create (stockLocate : UInt16) (prices : PriceLevelStore) (reportedCapacity : UInt64) :
    OrderBook where
  symbolId := stockLocate.toUInt32
  stockLocate := stockLocate
  localInvalid := !prices.isBookPrepared stockLocate
  orderCapacity := reportedCapacity
  liveOrderCount := 0
  allocationFailures := 0
  latestUpdateTimestamp := 0

def addressOf (state : OrderState) : PriceAddress := ⟨state.pricePageHandle, state.priceLevelIndex⟩

end OrderBook

namespace BookContext

open OrderBook

def reject (c : BookContext) (result : MutationResult) : MutationResult × BookContext :=
  let countsAllocation :=
    result = .orderTableCapacityExceeded ∨ result = .pricePageCapacityExceeded
  let invalidates :=
    result = .quantityOverflow ∨ result = .quantityUnderflow ∨ result = .invalidPricePage
      ∨ result = .missingPriceLevel ∨ result = .staleReservation ∨ result = .invariantViolation
      ∨ result = .bookInvalid
  (result, { c with
    book := { c.book with
      allocationFailures :=
        if countsAllocation then c.book.allocationFailures + 1 else c.book.allocationFailures
      localInvalid := if invalidates then true else c.book.localInvalid } })

/-- What `validateState` refuses a looked-up state with, if anything. -/
def stateError (c : BookContext) (state : Option OrderSlot) : Option MutationResult :=
  match state with
  | none => some .orderNotFound
  | some slot =>
    let st := c.orders.read slot
    if st.locate ≠ c.book.stockLocate then some .locateMismatch
    else if OrderSide.ofUInt8 st.side = .invalid ∨ st.qty = 0
        ∨ st.pricePageHandle = kInvalidPricePageHandle then
      some .invariantViolation
    else if !c.prices.ownsAddress c.book.stockLocate st.pricePageIndex (addressOf st) then
      some .invariantViolation
    else none

def addOrder (c : BookContext) (orderId price : UInt64) (qty : UInt32) (side : UInt8)
    (timestamp : UInt64) : MutationResult × BookContext :=
  if c.book.localInvalid then (.bookInvalid, c)
  else if !c.prices.isBookPrepared c.book.stockLocate then c.reject .bookNotPrepared
  else
    let decodedSide := decodeSide side
    if decodedSide = .invalid then c.reject .invalidSide
    else if qty = 0 then c.reject .invalidQuantity
    else if !isValidItchPrice4 price then c.reject .priceOutOfRange
    else
      let orderReservation := c.orders.reserve orderId
      if !orderReservation.valid then c.reject orderReservation.result
      else
        let (priceReservation, prices) := c.prices.reservePrice c.book.stockLocate price.toUInt32
        let c := { c with prices := prices }
        if !priceReservation.valid then c.reject priceReservation.result
        else
          let (pageCommit, prices) :=
            if priceReservation.requiresCommit then c.prices.commitReservation priceReservation
            else (.applied, c.prices)
          let c := { c with prices := prices }
          if pageCommit ≠ .applied then c.reject pageCommit
          else
            let (levelResult, prices) := c.prices.add priceReservation.address decodedSide qty
            let c := { c with prices := prices }
            if levelResult ≠ .applied then c.reject levelResult
            else
              let state : OrderState :=
                { qty := qty
                  pricePageHandle := priceReservation.address.pageHandle
                  priceLevelIndex := priceReservation.address.levelIndex
                  locate := c.book.stockLocate
                  side := decodedSide.toUInt8
                  flags := 0
                  pricePageIndex := priceReservation.pageIndex }
              let (orderCommit, orders) := c.orders.commit orderReservation state
              let c := { c with orders := orders }
              if orderCommit ≠ .applied then
                let (rollback, prices) := c.prices.erase priceReservation.address decodedSide qty
                let c := { c with prices := prices }
                c.reject (if rollback = .applied then orderCommit else .invariantViolation)
              else
                (.applied, { c with
                  book := { c.book with
                    liveOrderCount := c.book.liveOrderCount + 1
                    latestUpdateTimestamp := timestamp } })

def cancelShares (c : BookContext) (orderId : UInt64) (canceledQty : UInt32)
    (timestamp : UInt64) : MutationResult × BookContext :=
  if c.book.localInvalid then (.bookInvalid, c)
  else if canceledQty = 0 then c.reject .invalidQuantity
  else
    match c.orders.findState orderId with
    | none => c.reject .orderNotFound
    | some slot =>
      let st := c.orders.read slot
      let side := OrderSide.ofUInt8 st.side
      let address := addressOf st
      if st.locate ≠ c.book.stockLocate then c.reject .locateMismatch
      else if side = .invalid ∨ st.qty = 0 ∨ !address.valid then c.reject .invariantViolation
      else if st.qty ≤ canceledQty then
        -- ITCH X is a partial cancel; D removes the final order
        if !c.prices.ownsAddress c.book.stockLocate st.pricePageIndex address then
          c.reject .invariantViolation
        else c.reject .quantityExceeded
      else
        let (result, prices) := c.prices.reduceChecked c.book.stockLocate st.pricePageIndex address
          side st.qty canceledQty
        let c := { c with prices := prices }
        if result ≠ .applied then c.reject result
        else
          (.applied, { c with
            orders := c.orders.write slot { st with qty := st.qty - canceledQty }
            book := { c.book with latestUpdateTimestamp := timestamp } })

def deleteOrder (c : BookContext) (orderId timestamp : UInt64) : MutationResult × BookContext :=
  if c.book.localInvalid then (.bookInvalid, c)
  else
    let state := c.orders.findState orderId
    match c.stateError state, state with
    | some e, _ => c.reject e
    | none, none => c.reject .orderNotFound
    | none, some slot =>
      let st := c.orders.read slot
      let (levelResult, prices) :=
        c.prices.erase (addressOf st) (OrderSide.ofUInt8 st.side) st.qty
      let c := { c with prices := prices }
      if levelResult ≠ .applied then c.reject levelResult
      else
        let (tableResult, orders) := c.orders.eraseState (some slot)
        let c := { c with orders := orders }
        if tableResult ≠ .applied then c.reject .invariantViolation
        else
          (.applied, { c with
            book := { c.book with
              liveOrderCount := c.book.liveOrderCount - 1
              latestUpdateTimestamp := timestamp } })

def executeOrder (c : BookContext) (orderId : UInt64) (executedQty : UInt32)
    (timestamp : UInt64) : MutationResult × BookContext :=
  if c.book.localInvalid then (.bookInvalid, c)
  else if executedQty = 0 then c.reject .invalidQuantity
  else
    match c.orders.findState orderId with
    | none => c.reject .orderNotFound
    | some slot =>
      let st := c.orders.read slot
      let side := OrderSide.ofUInt8 st.side
      let address := addressOf st
      if st.locate ≠ c.book.stockLocate then c.reject .locateMismatch
      else if side = .invalid ∨ st.qty = 0 ∨ !address.valid then c.reject .invariantViolation
      else if st.qty < executedQty then
        if !c.prices.ownsAddress c.book.stockLocate st.pricePageIndex address then
          c.reject .invariantViolation
        else c.reject .quantityExceeded
      else if executedQty = st.qty then
        if !c.prices.ownsAddress c.book.stockLocate st.pricePageIndex address then
          c.reject .invariantViolation
        else
          let (levelResult, prices) := c.prices.erase address side st.qty
          let c := { c with prices := prices }
          if levelResult ≠ .applied then c.reject levelResult
          else
            let (tableResult, orders) := c.orders.eraseState (some slot)
            let c := { c with orders := orders }
            if tableResult ≠ .applied then c.reject .invariantViolation
            else
              (.applied, { c with
                book := { c.book with
                  liveOrderCount := c.book.liveOrderCount - 1
                  latestUpdateTimestamp := timestamp } })
      else
        let (levelResult, prices) := c.prices.reduceChecked c.book.stockLocate st.pricePageIndex
          address side st.qty executedQty
        let c := { c with prices := prices }
        if levelResult ≠ .applied then c.reject levelResult
        else
          (.applied, { c with
            orders := c.orders.write slot { st with qty := st.qty - executedQty }
            book := { c.book with latestUpdateTimestamp := timestamp } })

/-- The second half of `replaceOrder`, the price reserved: an in-place move for an unchanged
reference, else a new order committed, the shares moved and the old order erased. -/
def replaceReserved (c : BookContext) (slot : OrderSlot) (oldId newId : UInt64)
    (newOrderReservation : OrderSlotReservation) (priceReservation : PricePageReservation)
    (newQty : UInt32) (timestamp : UInt64) : MutationResult × BookContext :=
  let old := c.orders.read slot
  let side := OrderSide.ofUInt8 old.side
  let oldAddress := addressOf old
  let oldQty := old.qty
  if newId = oldId then
    let (moveResult, prices) :=
      c.prices.move oldAddress oldQty priceReservation.address newQty side
    let c := { c with prices := prices }
    if moveResult ≠ .applied then c.reject moveResult
    else
      (.applied, { c with
        orders := c.orders.write slot { old with
          qty := newQty
          pricePageHandle := priceReservation.address.pageHandle
          priceLevelIndex := priceReservation.address.levelIndex
          pricePageIndex := priceReservation.pageIndex }
        book := { c.book with latestUpdateTimestamp := timestamp } })
  else
    let newState : OrderState :=
      { qty := newQty
        pricePageHandle := priceReservation.address.pageHandle
        priceLevelIndex := priceReservation.address.levelIndex
        locate := c.book.stockLocate
        side := side.toUInt8
        flags := 0
        pricePageIndex := priceReservation.pageIndex }
    let (newCommit, orders) := c.orders.commit newOrderReservation newState
    let c := { c with orders := orders }
    if newCommit ≠ .applied then c.reject newCommit
    else
      let (moveResult, prices) :=
        c.prices.move oldAddress oldQty priceReservation.address newQty side
      let c := { c with prices := prices }
      if moveResult ≠ .applied then
        let (tableRollback, orders) := c.orders.erase newId
        let c := { c with orders := orders }
        c.reject (if tableRollback = .applied then moveResult else .invariantViolation)
      else
        let (tableResult, orders) := c.orders.eraseState (some slot)
        let c := { c with orders := orders }
        if tableResult ≠ .applied then
          let (_, orders) := c.orders.erase newId
          let (_, prices) :=
            c.prices.move priceReservation.address newQty oldAddress oldQty side
          -- whether or not both rollbacks succeed
          { c with orders := orders, prices := prices }.reject .invariantViolation
        else
          (.applied, { c with book := { c.book with latestUpdateTimestamp := timestamp } })

def replaceOrder (c : BookContext) (oldId newId newPrice : UInt64) (newQty : UInt32)
    (timestamp : UInt64) : MutationResult × BookContext :=
  if c.book.localInvalid then (.bookInvalid, c)
  else if newQty = 0 then c.reject .invalidQuantity
  else if !isValidItchPrice4 newPrice then c.reject .priceOutOfRange
  else
    let state := c.orders.findState oldId
    match c.stateError state, state with
    | some e, _ => c.reject e
    | none, none => c.reject .orderNotFound
    | none, some slot =>
      let newOrderReservation :=
        if newId ≠ oldId then c.orders.reserve newId else OrderSlotReservation.init
      if newId ≠ oldId ∧ !newOrderReservation.valid then c.reject newOrderReservation.result
      else
        let (priceReservation, prices) :=
          c.prices.reservePrice c.book.stockLocate newPrice.toUInt32
        let c := { c with prices := prices }
        if !priceReservation.valid then c.reject priceReservation.result
        else
          let (pageCommit, prices) :=
            if priceReservation.requiresCommit then c.prices.commitReservation priceReservation
            else (.applied, c.prices)
          let c := { c with prices := prices }
          if pageCommit ≠ .applied then c.reject pageCommit
          else
            c.replaceReserved slot oldId newId newOrderReservation priceReservation newQty timestamp

def getTopOfBook (c : BookContext) : TopOfBook :=
  let bid := c.prices.view (c.prices.best c.book.stockLocate .buy) .buy
  let ask := c.prices.view (c.prices.best c.book.stockLocate .sell) .sell
  { timestamp := c.book.latestUpdateTimestamp
    symbolId := c.book.symbolId
    bidPrice := if bid.valid then bid.rawPrice.toUInt64 else 0
    bidQty := if bid.valid then bid.totalQty else 0
    hasBid := bid.valid
    askPrice := if ask.valid then ask.rawPrice.toUInt64 else 0
    askQty := if ask.valid then ask.totalQty else 0
    hasAsk := ask.valid }

/-- One side of `getBookUpdate`: the entries `topTen` fills of a ten-entry array. -/
def sideUpdate (c : BookContext) (side : OrderSide) : List BookLevelUpdate :=
  let (depth, views) :=
    c.prices.topTen c.book.stockLocate side (List.replicate 10 PriceLevelView.none)
  (views.take depth).map fun v => ⟨v.rawPrice.toUInt64, v.totalQty, v.orderCount⟩

def getBookUpdate (c : BookContext) : BookUpdate where
  bids := c.sideUpdate .buy
  asks := c.sideUpdate .sell
  timestamp := c.book.latestUpdateTimestamp
  symbolId := c.book.symbolId

end BookContext

end AstraFeed
