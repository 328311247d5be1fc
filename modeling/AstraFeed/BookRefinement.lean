import AstraFeed.BookModel
import AstraFeed.StoreInvariant
import AstraFeed.TableInvariant

/-!
# How the stores stand for the model

The order table holds a state for each live order of the model, which leads to its level; the price
store holds at each level the number and the shares of the live orders there; and a descriptor
counts the live orders of its locate.
-/

namespace AstraFeed

/-- A stored state is that of the order: it has its fields, and its address is that of its price. -/
structure StateOf (prices : PriceLevelStore) (st : OrderState) (o : ModelOrder) : Prop where
  qty : st.qty = o.qty
  qty_ne : o.qty ≠ 0
  locate : st.locate = o.locate
  side : st.side = o.side.toUInt8
  side_ne : o.side ≠ .invalid
  handle_ne : st.pricePageHandle ≠ kInvalidPricePageHandle
  root : prices.rootAt o.locate st.pricePageIndex.toNat = st.pricePageHandle
  price : st.pricePageIndex.toNat * kPricePartCount + st.priceLevelIndex.toNat = o.price.toNat

/-- What the table knows of a reference is what the model knows. -/
def Matches (prices : PriceLevelStore) : Option OrderState → Option ModelOrder → Prop
  | none, none => True
  | some st, some o => StateOf prices st o
  | _, _ => False

/-- Every level holds the number and the shares of the live orders at its price. -/
def LevelsOf (prices : PriceLevelStore) (live : UInt64 → Option ModelOrder) : Prop :=
  ∀ l side x, side ≠ .invalid → x < 2 ^ 32 →
    (prices.levelOf l side x).orderCount.toNat
        = PointUpdate.total (BookModel.countAt l side x) live
      ∧ (prices.levelOf l side x).totalQty.toNat
        = PointUpdate.total (BookModel.qtyAt l side x) live

/-- The table and the store stand for the orders of a model. -/
structure StoresOf (orders : OrderTable) (prices : PriceLevelStore)
    (live : UInt64 → Option ModelOrder) (used : Set UInt64) : Prop where
  table : orders.TableInv
  store : prices.StoreInv
  used_iff : ∀ r, orders.Used r ↔ r ∈ used
  matching : ∀ r, Matches prices (orders.live r) (live r)
  levels : LevelsOf prices live

/-- A descriptor is that of its locate. -/
structure BookOf (b : BookModel) (l : UInt16) (book : OrderBook) : Prop where
  symbolId : book.symbolId = l.toUInt32
  stockLocate : book.stockLocate = l
  localInvalid : book.localInvalid = false
  liveOrderCount : book.liveOrderCount.toNat = b.liveCount l
  timestamp : book.latestUpdateTimestamp = b.lastTimestamp l

/-- A configuration whose storage was planned: the counts of orders cannot overflow. -/
structure ConfigOk (config : BookManagerConfig) : Prop where
  directSlots : config.orders.directSlots.toNat * 16 < 2 ^ 64
  fallbackBucketCount : config.orders.fallbackBucketCount ≠ 0

structure Refines (m : BookManager) (b : BookModel) : Prop where
  config : ConfigOk m.config
  ordersConfig : m.orders.config = m.config.orders
  stores : StoresOf m.orders m.prices b.live b.used
  prepared : ∀ l, l ∈ b.prepared ↔ m.prices.isBookPrepared l = true
  books : ∀ l, l ∈ b.prepared ↔ (m.books l).isSome
  book : ∀ l book, m.books l = some book → BookOf b l book
  untouched : ∀ l, l ∉ b.prepared → b.lastTimestamp l = 0

/-- A published level is that of price `x`. -/
structure LevelIs (b : BookModel) (l : UInt16) (side : OrderSide) (x : ℕ)
    (level : BookLevelUpdate) : Prop where
  price : level.price.toNat = x
  qty : level.qty.toNat = b.levelQty l side x
  numOrders : level.numOrders.toNat = b.levelCount l side x

/-- A published side is the best price with its shares, or nothing when no order is live. -/
def TopIs (b : BookModel) (l : UInt16) (side : OrderSide) (has : Bool) (price qty : UInt64) :
    Prop :=
  if has then IsBest side (b.prices l side) price.toNat
    ∧ qty.toNat = b.levelQty l side price.toNat
  else b.prices l side = ∅ ∧ price = 0 ∧ qty = 0

/-- A published ladder is that of the best ten prices. -/
def LadderIs (b : BookModel) (l : UInt16) (side : OrderSide) (levels : List BookLevelUpdate) :
    Prop :=
  ∃ xs, IsTop side (b.prices l side) 10 xs ∧ List.Forall₂ (LevelIs b l side) xs levels

/-- What a book publishes is what the model says of its locate. -/
structure Shows (b : BookModel) (l : UInt16) (c : BookContext) : Prop where
  liveOrderCount : c.book.liveOrderCount.toNat = b.liveCount l
  timestamp : c.getTopOfBook.timestamp = b.lastTimestamp l
    ∧ c.getBookUpdate.timestamp = b.lastTimestamp l
  symbolId : c.getTopOfBook.symbolId = l.toUInt32 ∧ c.getBookUpdate.symbolId = l.toUInt32
  bid : TopIs b l .buy c.getTopOfBook.hasBid c.getTopOfBook.bidPrice c.getTopOfBook.bidQty
  ask : TopIs b l .sell c.getTopOfBook.hasAsk c.getTopOfBook.askPrice c.getTopOfBook.askQty
  bids : LadderIs b l .buy c.getBookUpdate.bids
  asks : LadderIs b l .sell c.getBookUpdate.asks

/-- All that can be read off a manager is what the model says. -/
structure Agrees (m : BookManager) (b : BookModel) : Prop where
  lookup : ∀ r, Matches m.prices (m.orders.live r) (b.live r)
  used : ∀ r, m.orders.Used r ↔ r ∈ b.used
  levels : LevelsOf m.prices b.live
  prepared : ∀ l, l ∈ b.prepared ↔ (m.getOrderBook l).isSome
  shows : ∀ l c, m.getOrderBook l = some c → Shows b l c
  totalLiveOrderCount : m.totalLiveOrderCount.toNat = b.totalCount

end AstraFeed
