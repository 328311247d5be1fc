import AstraFeed.BookCapacityProfile
import AstraFeed.DirectoryRefresh
import AstraFeed.ItchTraceProfile
import AstraFeed.Lib.AssocTotal

/-!
# A profile as books

The maps of a profile say what the live orders, the used references and the levels of a day are. The
levels are accounted for when they are those of the live orders, and every page that has had one is
among the pages that were ever active.
-/

namespace AstraFeed

/-- The locate an operation is for. -/
def BookOp.stockLocate : BookOp → UInt16
  | .getOrCreate l => l
  | .addOrder l _ _ _ _ _ => l
  | .executeOrder l _ _ _ => l
  | .cancelShares l _ _ _ => l
  | .deleteOrder l _ _ => l
  | .replaceOrder l _ _ _ _ _ => l

namespace ItchTraceProfile

open Wire ItchParser

/-- The sides an order may have. -/
def IsSide (side : UInt8) : Prop := side = byte 'B' ∨ side = byte 'S'

def OrderState.model (order : OrderState) : ModelOrder :=
  ⟨order.locate, OrderBook.decodeSide order.side, order.price.toUInt64, order.qty⟩

/-- The key of a locate and a price page. -/
def pairKey (pair : UInt16 × ℕ) : UInt32 := pair.1.toUInt32 <<< 16 ||| pair.2.toUInt32

namespace Stats

variable (s : Stats)

def live (r : UInt64) : Option ModelOrder := (s.liveOrders.lookup r).map OrderState.model

/-- The bit of a reference is set. -/
def Seen (r : UInt64) : Prop :=
  ((s.seenOrderReferencePages.lookup (r >>> 16)).getD ⟨fun _ => 0⟩).words (r.toUInt16 >>> 6).toNat
    &&& (1 : UInt64) <<< (r.toUInt16 &&& 63).toUInt64 ≠ 0

/-- The state of a key, empty where its level is not active. -/
def level (key : UInt64) : LevelState := (s.activeLevels.lookup key).getD ⟨0, 0⟩

/-- The number of live orders at a price. -/
def ordersAt (l : UInt16) (side : OrderSide) (x : ℕ) : ℕ :=
  s.liveOrders.entries.countP fun e => e.2.model.AtLevel l side x

/-- No price has more live orders than an order count can be raised from. -/
def Bounded : Prop := ∀ l side x, s.ordersAt l side x ≤ 2 ^ 32 - 2

/-- The books of a profile, with what it does not know: the locates with a book, and when each was
changed. -/
def model (prepared : Set UInt16) (lastTimestamp : UInt16 → UInt64) : BookModel :=
  ⟨s.live, {r | s.Seen r}, prepared, lastTimestamp⟩

/-- The levels are those of the live orders. -/
def LevelsFor (level : UInt64 → LevelState) (live : UInt64 → Option ModelOrder) : Prop :=
  ∀ l side x, IsSide side →
    (level (levelKey l side x)).orderCount.toNat
        = PointUpdate.total (BookModel.countAt l (OrderBook.decodeSide side) x.toNat) live
      ∧ (level (levelKey l side x)).totalQty.toNat
        = PointUpdate.total (BookModel.qtyAt l (OrderBook.decodeSide side) x.toNat) live

/-- The active pages, and those of the active levels, were ever active. -/
structure PagesOk : Prop where
  level : ∀ l side x, levelKey l side x ∈ s.activeLevels → pageKey l x ∈ s.everActivePages
  page : ∀ k ∈ s.activePageLevelCounts, k ∈ s.everActivePages

structure Ok : Prop where
  side : ∀ r o, s.liveOrders.lookup r = some o → IsSide o.side
  levels : LevelsFor s.level s.live
  pages : s.PagesOk

/-- Nothing was counted that a clean profile has at zero. -/
def Faultless : Prop := ∀ fault, s.faults fault = 0

def observeAll (messages : List (List UInt8)) : Stats := messages.foldl observeMessage s

/-- The stats `s'` have changed as the books do under an operation that they admit. -/
structure Applies (s : Stats) (op : BookOp) (s' : Stats) : Prop where
  faultless : s.Faultless
  admits : ∀ prepared times, op.stockLocate ∈ prepared → (s.model prepared times).Admits op
  live : ∀ prepared times, ((s.model prepared times).apply op).live = s'.live
  used : ∀ prepared times, ((s.model prepared times).apply op).used = {r | s'.Seen r}
  ever : s'.everActivePages = s.everActivePages ∪ (op.pagePair.map pairKey).toFinset
  ok : s'.Ok

/-- What is counted, and what a capacity is planned for. -/
structure Grows (s s' : Stats) : Prop where
  faults : ∀ fault, s.faults fault ≤ s'.faults fault
  ever : s.everActivePages ⊆ s'.everActivePages
  maxOrderRef : s.maxOrderRef ≤ s'.maxOrderRef

/-- What a message of its type's length does not count. -/
structure Reads (s s' : Stats) : Prop extends Grows s s' where
  malformed : s'.faults .malformedRecords = s.faults .malformedRecords

/-- What a message about orders leaves as it is. -/
structure Frame (s s' : Stats) : Prop extends Reads s s' where
  directory : s'.directory = s.directory
  tickers : s'.directoryTickerLocates = s.directoryTickerLocates
  eventsSeen : s'.dailySystemEventsSeen = s.dailySystemEventsSeen
  started : s'.systemHoursStarted = s.systemHoursStarted
  ended : s'.systemHoursEnded = s.systemHoursEnded

/-- The operation a message about orders stands for. The stock and the execution price have been
compared with what they should be, and a replacement has a reference of its own. -/
inductive Asks (s : Stats) (msg : List UInt8) : BookOp → Prop
  | add (htype : IsType msg ['A', 'F'])
      (hstock : s.directory (readU16BE msg 1) = ⟨stockField msg kAddStockOffset, true⟩) :
      Asks s msg (.addOrder (readU16BE msg 1) (readU64BE msg 11) (readU32BE msg 32).toUInt64
        (readU32BE msg 20) (byteAt msg 19) (readU48BE msg kTimestampOffset))
  | execute (htype : IsType msg ['E', 'C'])
      (hprice : byteAt msg 0 = byte 'C' → isValidItchPrice4 (readU32BE msg 32).toUInt64 = true) :
      Asks s msg (.executeOrder (readU16BE msg 1) (readU64BE msg 11) (readU32BE msg 19)
        (readU48BE msg kTimestampOffset))
  | cancel (htype : IsType msg ['X']) :
      Asks s msg (.cancelShares (readU16BE msg 1) (readU64BE msg 11) (readU32BE msg 19)
        (readU48BE msg kTimestampOffset))
  | delete (htype : IsType msg ['D']) :
      Asks s msg (.deleteOrder (readU16BE msg 1) (readU64BE msg 11)
        (readU48BE msg kTimestampOffset))
  | replace (htype : IsType msg ['U']) (hnew : readU64BE msg 19 ≠ readU64BE msg 11) :
      Asks s msg (.replaceOrder (readU16BE msg 1) (readU64BE msg 11) (readU64BE msg 19)
        (readU32BE msg 31).toUInt64 (readU32BE msg 27) (readU48BE msg kTimestampOffset))

end Stats

/-- The file is the messages, up to an end of messages, and a terminator, which may be missing where
that is allowed. -/
def Holds (allowLegacyEofAfterSc : Bool) (file : BinaryFile) (messages : List (List UInt8)) : Prop :=
  Records messages ∧ (∃ last ∈ messages.getLast?, IsEvent last 'C')
    ∧ (file.bytes = messages.flatMap framed ++ [0, 0]
      ∨ allowLegacyEofAfterSc = true ∧ file.bytes = messages.flatMap framed)

/-- What the books need for the day that was profiled: stock fields as text, order counts that can
be raised, and room for its references and pages. -/
structure Planned (config : BookManagerConfig) (messages : List (List UInt8)) : Prop where
  stocks : ∀ msg ∈ messages, byteAt msg 0 = byte 'R' → (0 : UInt8) ∉ stockField msg 11
  bounded : ∀ taken, taken <+: messages → (Stats.init.observeAll taken).Bounded
  slots : (Stats.init.observeAll messages).maxOrderRef < config.orders.directSlots
  pages : (Stats.init.observeAll messages).everActivePages.card ≤ config.prices.pageCapacity.toNat

/-- The books have the levels of a profile, and a page for each pair that was ever active. -/
structure SameBooks (stats : Stats) (prices : PriceLevelStore) : Prop where
  totalQty : ∀ l side x, IsSide side →
    (prices.levelOf l (OrderBook.decodeSide side) x.toNat).totalQty
      = (stats.level (levelKey l side x)).totalQty
  orderCount : ∀ l side x, IsSide side →
    (prices.levelOf l (OrderBook.decodeSide side) x.toNat).orderCount
      = (stats.level (levelKey l side x)).orderCount
  pages : prices.committedPages.toNat = stats.everActivePages.card

/-- The policy a replay of the file would be given. -/
def completionPolicy (allowLegacyEofAfterSc : Bool) : CompletionPolicy :=
  if allowLegacyEofAfterSc then .allowEofAfterEndOfMessages else .requireTerminator

end ItchTraceProfile

end AstraFeed
