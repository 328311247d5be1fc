import Mathlib.Data.Fintype.EquivFin
import Mathlib.Tactic.Ring
import AstraFeed.BookManager
import AstraFeed.Lib.PointUpdate
import AstraFeed.StoreInvariant

/-!
# What the books are for

A model of the day's books without tables, pages or summaries: the live orders by reference, the
references ever used, the locates with a book and the timestamp each was last changed with. Levels,
the top of a book and its depth are what the live orders say.
-/

namespace AstraFeed

open Function

noncomputable instance fintypeUInt64 : Fintype UInt64 :=
  Fintype.ofInjective UInt64.toFin fun _ _ h => UInt64.toFin_inj.1 h

structure ModelOrder where
  locate : UInt16
  side : OrderSide
  price : UInt64
  qty : UInt32
  deriving DecidableEq

structure BookModel where
  live : UInt64 → Option ModelOrder
  used : Set UInt64
  prepared : Set UInt16
  lastTimestamp : UInt16 → UInt64

inductive BookOp
  | getOrCreate (stockLocate : UInt16)
  | addOrder (stockLocate : UInt16) (orderId price : UInt64) (qty : UInt32) (side : UInt8)
      (timestamp : UInt64)
  | executeOrder (stockLocate : UInt16) (orderId : UInt64) (executedQty : UInt32)
      (timestamp : UInt64)
  | cancelShares (stockLocate : UInt16) (orderId : UInt64) (canceledQty : UInt32)
      (timestamp : UInt64)
  | deleteOrder (stockLocate : UInt16) (orderId timestamp : UInt64)
  | replaceOrder (stockLocate : UInt16) (oldId newId newPrice : UInt64) (newQty : UInt32)
      (timestamp : UInt64)

/-- The results for a full table, a full arena or a full level. -/
def IsCapacity (e : MutationResult) : Prop :=
  e = .orderTableCapacityExceeded ∨ e = .pricePageCapacityExceeded ∨ e = .orderCountOverflow

/-- The references a refused operation may leave used: a replacement that met a full level has
committed its new reference and rolled it back. -/
def BookOp.spoils : BookOp → MutationResult → Set UInt64
  | .replaceOrder _ _ newId _ _ _, .orderCountOverflow => {newId}
  | _, _ => ∅

namespace ModelOrder

/-- The order is at a level. -/
def AtLevel (l : UInt16) (side : OrderSide) (x : ℕ) (o : ModelOrder) : Prop :=
  o.locate = l ∧ o.side = side ∧ o.price.toNat = x

instance (l : UInt16) (side : OrderSide) (x : ℕ) (o : ModelOrder) :
    Decidable (AtLevel l side x o) := inferInstanceAs (Decidable (_ ∧ _ ∧ _))

end ModelOrder

namespace BookModel

def init : BookModel := ⟨fun _ => none, ∅, ∅, fun _ => 0⟩

section Read

variable (b : BookModel)

/-- An order counts one at its own level. -/
def countAt (l : UInt16) (side : OrderSide) (x : ℕ) : Option ModelOrder → ℕ
  | none => 0
  | some o => if o.AtLevel l side x then 1 else 0

/-- An order counts its shares at its own level. -/
def qtyAt (l : UInt16) (side : OrderSide) (x : ℕ) : Option ModelOrder → ℕ
  | none => 0
  | some o => if o.AtLevel l side x then o.qty.toNat else 0

def countIn (l : UInt16) : Option ModelOrder → ℕ
  | none => 0
  | some o => if o.locate = l then 1 else 0

def countAny : Option ModelOrder → ℕ
  | none => 0
  | some _ => 1

/-- The number of live orders at a level. -/
noncomputable def levelCount (l : UInt16) (side : OrderSide) (x : ℕ) : ℕ :=
  PointUpdate.total (countAt l side x) b.live

/-- The shares of the live orders at a level. -/
noncomputable def levelQty (l : UInt16) (side : OrderSide) (x : ℕ) : ℕ :=
  PointUpdate.total (qtyAt l side x) b.live

/-- The number of live orders of a locate. -/
noncomputable def liveCount (l : UInt16) : ℕ := PointUpdate.total (countIn l) b.live

noncomputable def totalCount : ℕ := PointUpdate.total countAny b.live

/-- The prices with a live order on one side of a book. -/
def prices (l : UInt16) (side : OrderSide) : Set ℕ := {x | 0 < b.levelCount l side x}

end Read

/-- Which operations the model admits. -/
def Admits (b : BookModel) : BookOp → Prop
  | .getOrCreate l => isValidStockLocate l = true
  | .addOrder l orderId price qty side _ =>
    l ∈ b.prepared ∧ OrderBook.decodeSide side ≠ .invalid ∧ 0 < qty
      ∧ isValidItchPrice4 price = true ∧ orderId ∉ b.used
  | .executeOrder l orderId qty _ =>
    l ∈ b.prepared ∧ ∃ o, b.live orderId = some o ∧ o.locate = l ∧ 0 < qty ∧ qty ≤ o.qty
  | .cancelShares l orderId qty _ =>
    l ∈ b.prepared ∧ ∃ o, b.live orderId = some o ∧ o.locate = l ∧ 0 < qty ∧ qty < o.qty
  | .deleteOrder l orderId _ =>
    l ∈ b.prepared ∧ ∃ o, b.live orderId = some o ∧ o.locate = l
  | .replaceOrder l oldId newId newPrice newQty _ =>
    l ∈ b.prepared ∧ (∃ o, b.live oldId = some o ∧ o.locate = l) ∧ 0 < newQty
      ∧ isValidItchPrice4 newPrice = true ∧ (newId = oldId ∨ newId ∉ b.used)

/-- The level an operation adds an order to has as many orders as its count can hold. -/
def Full (b : BookModel) : BookOp → Prop
  | .addOrder l _ price _ side _ =>
    b.levelCount l (OrderBook.decodeSide side) price.toNat = 2 ^ 32 - 1
  | .replaceOrder l oldId _ newPrice _ _ =>
    ∃ o, b.live oldId = some o ∧ b.levelCount l o.side newPrice.toNat = 2 ^ 32 - 1
  | _ => False

/-- The order `o` loses `qty` shares, and goes when none are left. -/
def reduced (o : ModelOrder) (qty : UInt32) : Option ModelOrder :=
  if qty = o.qty then none else some { o with qty := o.qty - qty }

/-- What an admitted operation does. -/
def apply (b : BookModel) : BookOp → BookModel
  | .getOrCreate l => { b with prepared := insert l b.prepared }
  | .addOrder l orderId price qty side timestamp =>
    { b with
      live := update b.live orderId (some ⟨l, OrderBook.decodeSide side, price, qty⟩)
      used := insert orderId b.used
      lastTimestamp := update b.lastTimestamp l timestamp }
  | .executeOrder l orderId qty timestamp =>
    { b with
      live := update b.live orderId ((b.live orderId).bind (reduced · qty))
      lastTimestamp := update b.lastTimestamp l timestamp }
  | .cancelShares l orderId qty timestamp =>
    { b with
      live := update b.live orderId ((b.live orderId).bind (reduced · qty))
      lastTimestamp := update b.lastTimestamp l timestamp }
  | .deleteOrder l orderId timestamp =>
    { b with
      live := update b.live orderId none
      lastTimestamp := update b.lastTimestamp l timestamp }
  | .replaceOrder l oldId newId newPrice newQty timestamp =>
    { b with
      live := update (update b.live oldId none) newId
        ((b.live oldId).map fun o => { o with price := newPrice, qty := newQty })
      used := insert newId b.used
      lastTimestamp := update b.lastTimestamp l timestamp }

/-- What an operation with a given result does. A replacement refused for a full level has used its
new reference up. -/
def after (b : BookModel) (op : BookOp) (result : MutationResult) : BookModel :=
  if result = .applied then b.apply op
  else
    match op, result with
    | .replaceOrder _ _ newId _ _ _, .orderCountOverflow =>
      { b with used := insert newId b.used }
    | _, _ => b

end BookModel

namespace BookManager

/-- An operation with its result; `getOrCreate` is applied when it returns a book. -/
def perform (m : BookManager) : BookOp → MutationResult × BookManager
  | .getOrCreate l =>
    let (book, m) := m.getOrCreate l
    (if book.isSome then .applied else .invalidLocate, m)
  | .addOrder l orderId price qty side timestamp => m.addOrder l orderId price qty side timestamp
  | .executeOrder l orderId qty timestamp => m.executeOrder l orderId qty timestamp
  | .cancelShares l orderId qty timestamp => m.cancelShares l orderId qty timestamp
  | .deleteOrder l orderId timestamp => m.deleteOrder l orderId timestamp
  | .replaceOrder l oldId newId newPrice newQty timestamp =>
    m.replaceOrder l oldId newId newPrice newQty timestamp

end BookManager

/-- A manager run beside its model. -/
structure BookRun where
  manager : BookManager
  model : BookModel

namespace BookRun

def step (r : BookRun) (op : BookOp) : BookRun :=
  let (result, manager) := r.manager.perform op
  ⟨manager, r.model.after op result⟩

def run (r : BookRun) (ops : List BookOp) : BookRun := ops.foldl step r

end BookRun

end AstraFeed
