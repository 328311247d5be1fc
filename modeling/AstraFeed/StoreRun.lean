import AstraFeed.PriceLevelStore

/-!
# Runs of the price store

`StoreOp` is a call of any operation of the store, and `ArenaOp` a step of a caller that keeps every
reservation it was ever given and may commit any of them at any time.
-/

namespace AstraFeed

inductive StoreOp
  | prepareBook (stockLocate : UInt16)
  | reservePrice (stockLocate : UInt16) (rawPrice : UInt32)
  | commitReservation (reservation : PricePageReservation)
  | add (address : PriceAddress) (side : OrderSide) (qty : UInt32)
  | reduce (address : PriceAddress) (side : OrderSide) (currentOrderQty reductionQty : UInt32)
  | reduceChecked (expectedStockLocate expectedPageIndex : UInt16) (address : PriceAddress)
      (side : OrderSide) (currentOrderQty reductionQty : UInt32)
  | erase (address : PriceAddress) (side : OrderSide) (remainingOrderQty : UInt32)
  | move (oldAddress : PriceAddress) (oldQty : UInt32) (newAddress : PriceAddress)
      (newQty : UInt32) (side : OrderSide)

namespace PriceLevelStore

def step (s : PriceLevelStore) : StoreOp → PriceLevelStore
  | .prepareBook l => (s.prepareBook l).2
  | .reservePrice l x => (s.reservePrice l x).2
  | .commitReservation r => (s.commitReservation r).2
  | .add a side qty => (s.add a side qty).2
  | .reduce a side current reduction => (s.reduce a side current reduction).2
  | .reduceChecked l p a side current reduction =>
    (s.reduceChecked l p a side current reduction).2
  | .erase a side qty => (s.erase a side qty).2
  | .move a oldQty b newQty side => (s.move a oldQty b newQty side).2

def run (s : PriceLevelStore) (ops : List StoreOp) : PriceLevelStore := ops.foldl step s

/-- The cursors of a side: the best, and the next worse of each. -/
def depthCursor (s : PriceLevelStore) (l : UInt16) (side : OrderSide) : ℕ → PriceLevelCursor
  | 0 => s.best l side
  | k + 1 => s.nextWorse l side (s.depthCursor l side k)

/-- An address whose page is committed to the locate, and which decodes to the price. -/
def Decodes (s : PriceLevelStore) (l : UInt16) (x : UInt32) (a : PriceAddress) : Prop :=
  ∃ o, s.owner a.pageHandle = some o ∧ o.committed ≠ 0 ∧ o.stockLocate = l
    ∧ joinPrice o.pageIndex a.levelIndex = x

end PriceLevelStore

/-- A reservation with the locate and the price it was asked for. -/
structure IssuedPrice where
  stockLocate : UInt16
  rawPrice : UInt32
  reservation : PricePageReservation

structure ArenaState where
  store : PriceLevelStore
  issued : List IssuedPrice

inductive ArenaOp
  | prepareBook (stockLocate : UInt16)
  | reservePrice (stockLocate : UInt16) (rawPrice : UInt32)
  | commitReservation (i : ℕ)

namespace ArenaState

def start (config : PriceLevelStoreConfig) : ArenaState := ⟨.fresh config, []⟩

def step (st : ArenaState) : ArenaOp → ArenaState
  | .prepareBook l => { st with store := (st.store.prepareBook l).2 }
  | .reservePrice l x =>
    let (reservation, store) := st.store.reservePrice l x
    { store, issued := st.issued ++ [⟨l, x, reservation⟩] }
  | .commitReservation i =>
    match st.issued[i]? with
    | none => st
    | some issued => { st with store := (st.store.commitReservation issued.reservation).2 }

def run (st : ArenaState) (ops : List ArenaOp) : ArenaState := ops.foldl step st

end ArenaState

end AstraFeed
