import AstraFeed.BookModel

/-!
# The rollback branches

`addOrder` and `replaceOrder` with another body in place of the branch that takes an unfinished
operation back: a branch is dead where the body makes no difference.
-/

namespace AstraFeed

/-- The results that stand for a damaged book. -/
def IsInternal (e : MutationResult) : Prop :=
  e = .quantityOverflow ∨ e = .quantityUnderflow ∨ e = .invalidPricePage ∨ e = .missingPriceLevel
    ∨ e = .staleReservation ∨ e = .invariantViolation ∨ e = .bookInvalid

/-- The body of a branch that is entered with a context. -/
abbrev Branch := BookContext → MutationResult × BookContext

namespace BookContext

open OrderBook

/-- `addOrder`, with `rollback` where the table does not commit the order. -/
def addOrderWith (rollback : Branch) (c : BookContext) (orderId price : UInt64) (qty : UInt32)
    (side : UInt8) (timestamp : UInt64) : MutationResult × BookContext :=
  if c.book.localInvalid then (.bookInvalid, c)
  else if !c.prices.isBookPrepared c.book.stockLocate then c.reject .bookNotPrepared
  else
    let decodedSide := decodeSide side
    if decodedSide = .invalid then c.reject .invalidSide
    else if qty = 0 then c.reject .invalidQuantity
    else if !isValidItchPrice4 price then c.reject .priceOutOfRange
    else
      let orderReservation := c.orders.reserve orderId
      if !orderReservation.valid then c.reject orderReservation.result
      else
        let (priceReservation, prices) := c.prices.reservePrice c.book.stockLocate price.toUInt32
        let c := { c with prices := prices }
        if !priceReservation.valid then c.reject priceReservation.result
        else
          let (pageCommit, prices) :=
            if priceReservation.requiresCommit then c.prices.commitReservation priceReservation
            else (.applied, c.prices)
          let c := { c with prices := prices }
          if pageCommit ≠ .applied then c.reject pageCommit
          else
            let (levelResult, prices) := c.prices.add priceReservation.address decodedSide qty
            let c := { c with prices := prices }
            if levelResult ≠ .applied then c.reject levelResult
            else
              let state : OrderState :=
                { qty := qty
                  pricePageHandle := priceReservation.address.pageHandle
                  priceLevelIndex := priceReservation.address.levelIndex
                  locate := c.book.stockLocate
                  side := decodedSide.toUInt8
                  flags := 0
                  pricePageIndex := priceReservation.pageIndex }
              let (orderCommit, orders) := c.orders.commit orderReservation state
              let c := { c with orders := orders }
              if orderCommit ≠ .applied then rollback c
              else
                (.applied, { c with
                  book := { c.book with
                    liveOrderCount := c.book.liveOrderCount + 1
                    latestUpdateTimestamp := timestamp } })

/-- `replaceReserved`, with `rollback` where the table does not erase the old order. -/
def replaceReservedWith (rollback : Branch) (c : BookContext) (slot : OrderSlot)
    (oldId newId : UInt64) (newOrderReservation : OrderSlotReservation)
    (priceReservation : PricePageReservation) (newQty : UInt32) (timestamp : UInt64) :
    MutationResult × BookContext :=
  let old := c.orders.read slot
  let side := OrderSide.ofUInt8 old.side
  let oldAddress := addressOf old
  let oldQty := old.qty
  if newId = oldId then
    let (moveResult, prices) :=
      c.prices.move oldAddress oldQty priceReservation.address newQty side
    let c := { c with prices := prices }
    if moveResult ≠ .applied then c.reject moveResult
    else
      (.applied, { c with
        orders := c.orders.write slot { old with
          qty := newQty
          pricePageHandle := priceReservation.address.pageHandle
          priceLevelIndex := priceReservation.address.levelIndex
          pricePageIndex := priceReservation.pageIndex }
        book := { c.book with latestUpdateTimestamp := timestamp } })
  else
    let newState : OrderState :=
      { qty := newQty
        pricePageHandle := priceReservation.address.pageHandle
        priceLevelIndex := priceReservation.address.levelIndex
        locate := c.book.stockLocate
        side := side.toUInt8
        flags := 0
        pricePageIndex := priceReservation.pageIndex }
    let (newCommit, orders) := c.orders.commit newOrderReservation newState
    let c := { c with orders := orders }
    if newCommit ≠ .applied then c.reject newCommit
    else
      let (moveResult, prices) :=
        c.prices.move oldAddress oldQty priceReservation.address newQty side
      let c := { c with prices := prices }
      if moveResult ≠ .applied then
        let (tableRollback, orders) := c.orders.erase newId
        let c := { c with orders := orders }
        c.reject (if tableRollback = .applied then moveResult else .invariantViolation)
      else
        let (tableResult, orders) := c.orders.eraseState (some slot)
        let c := { c with orders := orders }
        if tableResult ≠ .applied then rollback c
        else
          (.applied, { c with book := { c.book with latestUpdateTimestamp := timestamp } })

/-- `replaceOrder`, with `rollback` for its second rollback branch. -/
def replaceOrderWith (rollback : Branch) (c : BookContext) (oldId newId newPrice : UInt64)
    (newQty : UInt32) (timestamp : UInt64) : MutationResult × BookContext :=
  if c.book.localInvalid then (.bookInvalid, c)
  else if newQty = 0 then c.reject .invalidQuantity
  else if !isValidItchPrice4 newPrice then c.reject .priceOutOfRange
  else
    let state := c.orders.findState oldId
    match c.stateError state, state with
    | some e, _ => c.reject e
    | none, none => c.reject .orderNotFound
    | none, some slot =>
      let newOrderReservation :=
        if newId ≠ oldId then c.orders.reserve newId else OrderSlotReservation.init
      if newId ≠ oldId ∧ !newOrderReservation.valid then c.reject newOrderReservation.result
      else
        let (priceReservation, prices) :=
          c.prices.reservePrice c.book.stockLocate newPrice.toUInt32
        let c := { c with prices := prices }
        if !priceReservation.valid then c.reject priceReservation.result
        else
          let (pageCommit, prices) :=
            if priceReservation.requiresCommit then c.prices.commitReservation priceReservation
            else (.applied, c.prices)
          let c := { c with prices := prices }
          if pageCommit ≠ .applied then c.reject pageCommit
          else
            c.replaceReservedWith rollback slot oldId newId newOrderReservation priceReservation
              newQty timestamp

end BookContext

namespace BookManager

def run (m : BookManager) (ops : List BookOp) : BookManager :=
  ops.foldl (fun m op => (m.perform op).2) m

/-- A stored order counts one at its own level. -/
def restingCount (l : UInt16) (side : OrderSide) (x : ℕ) : Option OrderState → ℕ
  | none => 0
  | some st => if st.locate = l ∧ OrderSide.ofUInt8 st.side = side
      ∧ st.pricePageIndex.toNat * kPricePartCount + st.priceLevelIndex.toNat = x then 1 else 0

/-- A stored order counts its shares at its own level. -/
def restingQty (l : UInt16) (side : OrderSide) (x : ℕ) : Option OrderState → ℕ
  | none => 0
  | some st => if st.locate = l ∧ OrderSide.ofUInt8 st.side = side
      ∧ st.pricePageIndex.toNat * kPricePartCount + st.priceLevelIndex.toNat = x then st.qty.toNat
    else 0

end BookManager

end AstraFeed
