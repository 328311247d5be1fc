import Mathlib.Data.Nat.Notation
import Mathlib.Tactic.Ring

/-!
# The results and the small protocol types the book modules share
-/

namespace AstraFeed

inductive MutationResult
  | applied
  | invalidLocate
  | bookNotPrepared
  | invalidSide
  | invalidQuantity
  | priceOutOfRange
  | orderNotFound
  | duplicateOrderRef
  | locateMismatch
  | quantityExceeded
  | pricePageCapacityExceeded
  | orderTableCapacityExceeded
  | quantityOverflow
  | quantityUnderflow
  | orderCountOverflow
  | invalidPricePage
  | missingPriceLevel
  | staleReservation
  | invariantViolation
  | bookInvalid
  deriving DecidableEq, Repr

def mutationResultName : MutationResult → String
  | .applied => "applied"
  | .invalidLocate => "invalid locate"
  | .bookNotPrepared => "book not prepared"
  | .invalidSide => "invalid side"
  | .invalidQuantity => "invalid quantity"
  | .priceOutOfRange => "price out of range"
  | .orderNotFound => "order not found"
  | .duplicateOrderRef => "duplicate order reference"
  | .locateMismatch => "stock locate mismatch"
  | .quantityExceeded => "quantity exceeds remaining order"
  | .pricePageCapacityExceeded => "price page capacity exceeded"
  | .orderTableCapacityExceeded => "order table capacity exceeded"
  | .quantityOverflow => "quantity overflow"
  | .quantityUnderflow => "quantity underflow"
  | .orderCountOverflow => "order count overflow"
  | .invalidPricePage => "invalid price page"
  | .missingPriceLevel => "missing price level"
  | .staleReservation => "stale reservation"
  | .invariantViolation => "book invariant violation"
  | .bookInvalid => "book state is invalid"

inductive LookupPath
  | none
  | direct
  | fallbackPrimary
  | fallbackSecondary
  | miss
  deriving DecidableEq, Repr

/-- `OrderSide` is an enumeration over `uint8_t`: `invalid` stands for every value that is neither
of the two enumerators, `static_cast<OrderSide>(0)` among them. -/
inductive OrderSide
  | buy
  | sell
  | invalid
  deriving DecidableEq, Repr

namespace OrderSide

/-- The underlying value of an enumerator. -/
def toUInt8 : OrderSide → UInt8
  | .buy => 1
  | .sell => 2
  | .invalid => 0

def ofUInt8 (side : UInt8) : OrderSide :=
  if side = 1 then .buy else if side = 2 then .sell else .invalid

end OrderSide

def kStockLocateSlots : ℕ := 65536

def isValidStockLocate (locate : UInt16) : Bool := locate != 0

def kMaxItchPrice4 : UInt32 := 2000000000

def isValidItchPrice4 (rawPrice : UInt64) : Bool := rawPrice ≤ kMaxItchPrice4.toUInt64

end AstraFeed
