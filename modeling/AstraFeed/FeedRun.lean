import AstraFeed.BookModel
import AstraFeed.ItchParser
import AstraFeed.TableInvariant

/-!
# Messages and operations on a feed's state

The directory and the books are reached by messages and by calls of their own; `Kept` is what a
refusal leaves as it was.
-/

namespace AstraFeed

inductive FeedOp
  | message (msg : List UInt8)
  | book (op : BookOp)
  | register (locate : UInt16) (entry : StockDirectoryEntry)

namespace ItchParser

def feedStep (p : ItchParser) : FeedOp → ItchParser
  | .message msg => (p.handleMessage msg).2
  | .book op => { p with books := (p.books.perform op).2 }
  | .register locate entry => { p with symbols := (p.symbols.set locate entry).2 }

def feedRun (p : ItchParser) (ops : List FeedOp) : ItchParser := ops.foldl feedStep p

end ItchParser

/-- The books are as they were, but for counters of failures and the references in `spoiled`, which
may have been used up. -/
structure BooksKept (m m' : BookManager) (spoiled : Set UInt64) : Prop where
  live : ∀ r, m'.orders.live r = m.orders.live r
  used : ∀ r, m.orders.Used r → m'.orders.Used r
  used_or : ∀ r, m'.orders.Used r → m.orders.Used r ∨ r ∈ spoiled
  prices : ∃ n, m'.prices = { m.prices with pageCapacityFailures := n }
  books : ∀ l, m'.books l = m.books l
    ∨ ∃ book n, m.books l = some book ∧ m'.books l = some { book with allocationFailures := n }

/-- The parser, the directory and the books are as they were. -/
structure Kept (p p' : ItchParser) (spoiled : Set UInt64) : Prop where
  channelPhase : p'.channelPhase = p.channelPhase
  booksPrepared : p'.booksPrepared = p.booksPrepared
  symbols : p'.symbols = p.symbols
  books : BooksKept p.books p'.books spoiled

/-- The new reference of a replace message that was refused for a full level. -/
def spoiledBy (msg : List UInt8) (error : Option ItchError) : Set UInt64 :=
  {r | Wire.byteAt msg 0 = byte 'U' ∧ r = Wire.readU64BE msg 19
    ∧ error = some (.bookFailure .orderReplace .orderCountOverflow)}

end AstraFeed
