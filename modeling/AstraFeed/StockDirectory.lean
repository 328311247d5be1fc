import Mathlib.Logic.Function.Basic
import Mathlib.Tactic.Ring
import AstraFeed.MutationResult

/-!
# The stock directory

Entries are indexed by the stock locate, and a hash table of locates leads from a ticker back to its
entry. A locate keeps the ticker it was registered with.
-/

namespace AstraFeed

open Function

/-- `char[9]`: eight characters and a terminator. -/
structure Ticker where
  chars : List UInt8
  length_eq : chars.length = 9
  deriving DecidableEq

namespace Ticker

/-- The characters, followed by NUL characters. -/
def ofChars (chars : List UInt8) : Ticker where
  chars := chars.take 9 ++ List.replicate (9 - chars.length) 0
  length_eq := by
    rw [List.length_append, List.length_take, List.length_replicate]
    omega

def zero : Ticker := ofChars []

/-- `std::string_view(const char *)`. -/
def cString (t : Ticker) : List UInt8 := t.chars.takeWhile (· ≠ 0)

end Ticker

structure StockDirectoryEntry where
  roundLotSize : UInt32
  locate : UInt16
  ticker : Ticker
  marketCategory : UInt8
  finStatus : UInt8
  isTest : Bool
  roundLotsOnly : Bool
  issueClassification : UInt8
  deriving DecidableEq

def StockDirectoryEntry.zero : StockDirectoryEntry := ⟨0, 0, .zero, 0, 0, false, false, 0⟩

structure StockDirectory where
  entries : UInt16 → StockDirectoryEntry
  tickerIndex : ℕ → UInt16
  count : ℕ

namespace StockDirectory

def kInvalidStockLocate : UInt16 := 0

def kTickerIndexCapacity : ℕ := 2 ^ 17

def kTickerIndexMask : ℕ := kTickerIndexCapacity - 1

def fresh : StockDirectory where
  entries := fun _ => .zero
  tickerIndex := fun _ => kInvalidStockLocate
  count := 0

def tickerView (entry : StockDirectoryEntry) : List UInt8 :=
  (entry.ticker.chars.take 8).takeWhile (· ≠ 0)

def canonicalEntry (locate : UInt16) (entry : StockDirectoryEntry) (tickerValue : List UInt8) :
    StockDirectoryEntry :=
  { entry with
    ticker := .ofChars (entry.ticker.chars.take tickerValue.length)
    locate := locate }

def tickerHash (tickerValue : List UInt8) : UInt64 :=
  tickerValue.foldl (fun hash byte => (hash ^^^ byte.toUInt64) * 1099511628211)
    14695981039346656037

def firstSlot (tickerValue : List UInt8) : ℕ :=
  (tickerHash tickerValue).toNat &&& kTickerIndexMask

section Read

variable (d : StockDirectory)

def isRegistered (locate : UInt16) : Bool :=
  isValidStockLocate locate && (d.entries locate).ticker.chars.getD 0 0 != 0

/-- `none` is the null pointer. -/
def get (locate : UInt16) : Option StockDirectoryEntry :=
  if d.isRegistered locate then some (d.entries locate) else none

/-- The loop of `locateForTicker`, with `probes` left. -/
def locateForTickerLoop (tickerValue : List UInt8) : ℕ → ℕ → UInt16
  | 0, _ => kInvalidStockLocate
  | probes + 1, slot =>
    let locate := d.tickerIndex slot
    if locate = kInvalidStockLocate then kInvalidStockLocate
    else if tickerView (d.entries locate) = tickerValue then locate
    else locateForTickerLoop tickerValue probes ((slot + 1) &&& kTickerIndexMask)

def locateForTicker (tickerValue : List UInt8) : UInt16 :=
  if tickerValue = [] then kInvalidStockLocate
  else d.locateForTickerLoop tickerValue kTickerIndexCapacity (firstSlot tickerValue)

/-- The loop of `emptyReverseSlot`, with `probes` left. -/
def emptyReverseSlotLoop : ℕ → ℕ → ℕ
  | 0, _ => kTickerIndexCapacity
  | probes + 1, slot =>
    if d.tickerIndex slot = kInvalidStockLocate then slot
    else emptyReverseSlotLoop probes ((slot + 1) &&& kTickerIndexMask)

def emptyReverseSlot (tickerValue : List UInt8) : ℕ :=
  d.emptyReverseSlotLoop kTickerIndexCapacity (firstSlot tickerValue)

def size : ℕ := d.count

end Read

def set (d : StockDirectory) (locate : UInt16) (entry : StockDirectoryEntry) :
    Bool × StockDirectory :=
  if !isValidStockLocate locate then (false, d)
  else
    let newTicker := tickerView entry
    if newTicker = [] then (false, d)
    else
      match d.get locate with
      | some existing =>
        if tickerView existing ≠ newTicker then (false, d)
        else
          (true, { d with
            entries := update d.entries locate (canonicalEntry locate entry newTicker) })
      | none =>
        if d.locateForTicker newTicker ≠ kInvalidStockLocate then (false, d)
        else
          let reverseSlot := d.emptyReverseSlot newTicker
          if reverseSlot = kTickerIndexCapacity then (false, d)
          else
            (true,
              { entries := update d.entries locate (canonicalEntry locate entry newTicker)
                tickerIndex := update d.tickerIndex reverseSlot locate
                count := d.count + 1 })

end StockDirectory

end AstraFeed
