import Mathlib.Data.Set.Card
import Mathlib.Tactic.Ring
import AstraFeed.Lib.Probe
import AstraFeed.StockDirectory

/-!
# Runs of the directory

A run is a list of `set` calls. The reverse index is a probe table of locates, whose keys are the
tickers of their entries.
-/

namespace AstraFeed

namespace StockDirectory

def run (d : StockDirectory) (calls : List (UInt16 × StockDirectoryEntry)) : StockDirectory :=
  calls.foldl (fun d call => (d.set call.1 call.2).2) d

/-- The locate is registered with the ticker. -/
def RegisteredAs (d : StockDirectory) (l : UInt16) (t : List UInt8) : Prop :=
  ∃ e, d.get l = some e ∧ tickerView e = t

/-- The ticker of the entry of a locate. -/
def tickerAt (d : StockDirectory) (l : UInt16) : List UInt8 := tickerView (d.entries l)

/-- The reverse index as a table, free where the locate is invalid. -/
def reverse (d : StockDirectory) (slot : ℕ) : Option UInt16 :=
  if d.tickerIndex slot = kInvalidStockLocate then none else some (d.tickerIndex slot)

/-- The reverse index holds the registered locates, each within reach of its ticker. -/
structure Ok (d : StockDirectory) : Prop where
  table : Probe.Ok kTickerIndexCapacity firstSlot d.tickerAt d.reverse
  has_iff : ∀ l, Probe.Has kTickerIndexCapacity d.reverse l ↔ d.isRegistered l = true
  count_reverse : d.count = Probe.count kTickerIndexCapacity d.reverse
  count_registered : d.count = {l | d.isRegistered l = true}.ncard

end StockDirectory

end AstraFeed
