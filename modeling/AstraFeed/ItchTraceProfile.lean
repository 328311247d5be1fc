import Mathlib.Data.Finset.Insert
import Mathlib.Data.List.AList
import AstraFeed.ItchMoldUdpSource

/-!
# The trace profiler

The profiler reads a BinaryFILE on its own, rebuilds the levels of its orders in maps and counts
whatever is wrong with it. Figures that are printed and never looked at again are left out.
-/

namespace AstraFeed

open Function Wire ItchParser

/-- `std::unordered_map`. -/
abbrev UnorderedMap (κ α : Type) := AList fun _ : κ => α

namespace ItchTraceProfile

def kTickerLength : ℕ := 8
def kDailySystemEvents : List UInt8 := ['O', 'S', 'Q', 'M', 'E', 'C'].map byte

structure DirectoryIdentity where
  ticker : List UInt8
  seen : Bool

structure OrderState where
  price : UInt32
  qty : UInt32
  locate : UInt16
  side : UInt8
  deriving DecidableEq

structure LevelState where
  totalQty : UInt64
  orderCount : UInt32
  deriving DecidableEq

/-- A bit for each of 65,536 references. -/
structure SeenOrderReferencePage where
  words : ℕ → UInt64

/-- The counts that a clean profile has at zero. -/
inductive Fault
  | malformedRecords
  | pricesAboveDocumentedMax
  | conflictingDirectoryAfterSystemHours
  | conflictingDirectoryIdentities
  | invalidDirectoryIdentities
  | duplicateDirectoryTickers
  | invalidTimestamps
  | orderAddsBeforeDirectory
  | orderAddStockMismatches
  | bookMessagesBeforeSystemHours
  | systemEventSequenceErrors
  | unsupportedSystemEventCodes
  | invalidMessagesAfterSystemEventE
  | duplicateOrderRefs
  | missingDeletes
  | missingCancels
  | missingExecutions
  | missingReplaces
  | sameReferenceReplaces
  | overCancels
  | overExecutions
  | zeroQuantityMutations
  | invalidOrderSides
  | locateMismatches
  | reconstructionInvariantFailures
  deriving DecidableEq

/-- A record adds to a count a few times at most, and a file has fewer than `2 ^ 63` bytes, so that
a count is a number. -/
structure Stats where
  directory : UInt16 → DirectoryIdentity
  liveOrders : UnorderedMap UInt64 OrderState
  seenOrderReferencePages : UnorderedMap UInt64 SeenOrderReferencePage
  activeLevels : UnorderedMap UInt64 LevelState
  activePageLevelCounts : UnorderedMap UInt32 UInt32
  everActivePages : Finset UInt32
  directoryTickerLocates : UnorderedMap UInt64 UInt16
  faults : Fault → ℕ
  systemEventE : ℕ
  dailySystemEventsSeen : ℕ
  maxOrderRef : UInt64
  activeLevelCount : UInt64
  activePageCount : UInt64
  systemHoursStarted : Bool
  systemHoursEnded : Bool

/-- `side == 'S'` as a bit. -/
def sideBit (side : UInt8) : UInt64 := if side = byte 'S' then 1 else 0

def levelKey (locate : UInt16) (side : UInt8) (price : UInt32) : UInt64 :=
  locate.toUInt64 <<< 33 ||| sideBit side <<< 32 ||| price.toUInt64

def pageKey (locate : UInt16) (price : UInt32) : UInt32 :=
  locate.toUInt32 <<< 16 ||| price >>> 16

/-- The ticker bytes of a message. -/
def tickerBytes (message : List UInt8) (offset : ℕ) : List UInt8 :=
  (message.drop offset).take kTickerLength

def tickerMatches (identity : DirectoryIdentity) (message : List UInt8) (offset : ℕ) : Bool :=
  identity.ticker == tickerBytes message offset

def tickerHasIdentity (message : List UInt8) (offset : ℕ) : Bool :=
  (tickerBytes message offset).any fun c => c ≠ byte ' ' ∧ c ≠ 0

def tickerKey (message : List UInt8) (offset : ℕ) : UInt64 := readU64BE message offset

namespace Stats

def init : Stats where
  directory := fun _ => ⟨List.replicate kTickerLength 0, false⟩
  liveOrders := ∅
  seenOrderReferencePages := ∅
  activeLevels := ∅
  activePageLevelCounts := ∅
  everActivePages := ∅
  directoryTickerLocates := ∅
  faults := fun _ => 0
  systemEventE := 0
  dailySystemEventsSeen := 0
  maxOrderRef := 0
  activeLevelCount := 0
  activePageCount := 0
  systemHoursStarted := false
  systemHoursEnded := false

variable (stats : Stats)

/-- `++` on a count. -/
def bump (fault : Fault) : Stats :=
  { stats with faults := update stats.faults fault (stats.faults fault + 1) }

/-- `+=` of a condition on a count. -/
def countIf (fault : Fault) (condition : Bool) : Stats :=
  if condition then stats.bump fault else stats

def observeOrderRef (orderRef : UInt64) : Stats :=
  if stats.maxOrderRef < orderRef then { stats with maxOrderRef := orderRef } else stats

def observePrice (price : UInt32) : Stats :=
  stats.countIf .pricesAboveDocumentedMax (kMaxItchPrice4 < price)

/-- Whether the reference was new to the day. -/
def claimDayUniqueOrderRef (orderRef : UInt64) : Bool × Stats :=
  let pageIndex := orderRef >>> 16
  let bitIndex := orderRef.toUInt16
  let page := (stats.seenOrderReferencePages.lookup pageIndex).getD ⟨fun _ => 0⟩
  let word := page.words (bitIndex >>> 6).toNat
  let mask := (1 : UInt64) <<< (bitIndex &&& 63).toUInt64
  if word &&& mask ≠ 0 then
    (false, { stats with
      seenOrderReferencePages := stats.seenOrderReferencePages.insert pageIndex page
      }.bump .duplicateOrderRefs)
  else
    (true, { stats with
      seenOrderReferencePages := stats.seenOrderReferencePages.insert pageIndex
        ⟨update page.words (bitIndex >>> 6).toNat (word ||| mask)⟩ })

/-- A new level counts in its page. -/
def addLevelToPage (order : OrderState) : Stats :=
  let pageKey := pageKey order.locate order.price
  match stats.activePageLevelCounts.lookup pageKey with
  | some count =>
    { stats with
      activeLevelCount := stats.activeLevelCount + 1
      activePageLevelCounts := stats.activePageLevelCounts.insert pageKey (count + 1) }
  | none =>
    { stats with
      activeLevelCount := stats.activeLevelCount + 1
      everActivePages := insert pageKey stats.everActivePages
      activePageCount := stats.activePageCount + 1
      activePageLevelCounts := stats.activePageLevelCounts.insert pageKey (0 + 1) }

/-- The source returns `true` in every case. -/
def addToLevel (order : OrderState) : Stats :=
  let key := levelKey order.locate order.side order.price
  let found := stats.activeLevels.lookup key
  let level := found.getD ⟨0, 0⟩
  let stats := if found = none then stats.addLevelToPage order else stats
  { stats with
    activeLevels := stats.activeLevels.insert key
      ⟨level.totalQty + order.qty.toUInt64, level.orderCount + 1⟩ }

/-- An empty level leaves its page. -/
def removeLevelFromPage (order : OrderState) : Bool × Stats :=
  let pageKey := pageKey order.locate order.price
  match stats.activePageLevelCounts.lookup pageKey with
  | none => (false, stats.bump .reconstructionInvariantFailures)
  | some count =>
    if count = 0 then (false, stats.bump .reconstructionInvariantFailures)
    else if count - 1 = 0 then
      (true, { stats with
        activePageLevelCounts := stats.activePageLevelCounts.erase pageKey
        activePageCount := stats.activePageCount - 1 })
    else
      (true, { stats with
        activePageLevelCounts := stats.activePageLevelCounts.insert pageKey (count - 1) })

def putLevel (key : UInt64) (level : LevelState) : Stats :=
  { stats with activeLevels := stats.activeLevels.insert key level }

def removeFromLevel (order : OrderState) (removedQty : UInt32) (removeOrder : Bool) :
    Bool × Stats :=
  let key := levelKey order.locate order.side order.price
  match stats.activeLevels.lookup key with
  | none => (false, stats.bump .reconstructionInvariantFailures)
  | some level =>
    if level.totalQty < removedQty.toUInt64 ∨ level.orderCount = 0 then
      (false, stats.bump .reconstructionInvariantFailures)
    else
      let totalQty := level.totalQty - removedQty.toUInt64
      if !removeOrder then
        let stats := stats.putLevel key ⟨totalQty, level.orderCount⟩
        if totalQty = 0 then (false, stats.bump .reconstructionInvariantFailures)
        else (true, stats)
      else
        let orderCount := level.orderCount - 1
        let stats := stats.putLevel key ⟨totalQty, orderCount⟩
        if orderCount ≠ 0 then
          if totalQty = 0 then (false, stats.bump .reconstructionInvariantFailures)
          else (true, stats)
        else if totalQty ≠ 0 then (false, stats.bump .reconstructionInvariantFailures)
        else
          { stats with
            activeLevels := stats.activeLevels.erase key
            activeLevelCount := stats.activeLevelCount - 1 }.removeLevelFromPage order

def addLiveOrder (orderRef : UInt64) (order : OrderState) : Stats :=
  if stats.liveOrders.lookup orderRef ≠ none then stats.bump .duplicateOrderRefs
  else
    { stats with liveOrders := stats.liveOrders.insert orderRef order }.addToLevel order

def removeLiveOrder (orderRef : UInt64) (order : OrderState) : Bool × Stats :=
  let (removed, stats) := stats.removeFromLevel order order.qty true
  if !removed then (false, stats)
  else (true, { stats with liveOrders := stats.liveOrders.erase orderRef })

/-- The end of a partial cancel and of a partial execution. -/
def reduceLiveOrder (orderRef : UInt64) (order : OrderState) (qty : UInt32) : Stats :=
  let (removed, stats) := stats.removeFromLevel order qty false
  if !removed then stats
  else
    { stats with
      liveOrders := stats.liveOrders.insert orderRef { order with qty := order.qty - qty } }

def checkLocate (wireLocate : UInt16) (order : OrderState) : Stats :=
  stats.countIf .locateMismatches (wireLocate ≠ order.locate)

def profileAdd (locate : UInt16) (orderRef : UInt64) (price qty : UInt32) (side : UInt8) : Stats :=
  let (claimed, stats) := stats.claimDayUniqueOrderRef orderRef
  if !claimed then stats
  else if qty = 0 then stats.bump .zeroQuantityMutations
  else if side ≠ byte 'B' ∧ side ≠ byte 'S' then stats.bump .invalidOrderSides
  else stats.addLiveOrder orderRef ⟨price, qty, locate, side⟩

def profileCancel (locate : UInt16) (orderRef : UInt64) (canceledQty : UInt32) : Stats :=
  match stats.liveOrders.lookup orderRef with
  | none => stats.bump .missingCancels
  | some order =>
    let stats := stats.checkLocate locate order
    if canceledQty = 0 then stats.bump .zeroQuantityMutations
    -- a cancel is partial, and the whole order goes with a delete
    else if order.qty ≤ canceledQty then stats.bump .overCancels
    else stats.reduceLiveOrder orderRef order canceledQty

def profileDelete (locate : UInt16) (orderRef : UInt64) : Stats :=
  match stats.liveOrders.lookup orderRef with
  | none => stats.bump .missingDeletes
  | some order => ((stats.checkLocate locate order).removeLiveOrder orderRef order).2

def profileExecution (locate : UInt16) (orderRef : UInt64) (executedQty : UInt32) : Stats :=
  match stats.liveOrders.lookup orderRef with
  | none => stats.bump .missingExecutions
  | some order =>
    let stats := stats.checkLocate locate order
    if executedQty = 0 then stats.bump .zeroQuantityMutations
    else if order.qty < executedQty then stats.bump .overExecutions
    else if executedQty = order.qty then (stats.removeLiveOrder orderRef order).2
    else stats.reduceLiveOrder orderRef order executedQty

def profileReplace (locate : UInt16) (oldOrderRef newOrderRef : UInt64) (newPrice newQty : UInt32) :
    Stats :=
  if oldOrderRef = newOrderRef then stats.bump .sameReferenceReplaces
  else
    let (claimed, stats) := stats.claimDayUniqueOrderRef newOrderRef
    if !claimed then stats
    else
      match stats.liveOrders.lookup oldOrderRef with
      | none => stats.bump .missingReplaces
      | some old =>
        let stats := stats.checkLocate locate old
        if newQty = 0 then stats.bump .zeroQuantityMutations
        else if stats.liveOrders.lookup newOrderRef ≠ none then stats.bump .duplicateOrderRefs
        else
          let (removed, stats) := stats.removeLiveOrder oldOrderRef old
          if !removed then stats
          else stats.addLiveOrder newOrderRef ⟨newPrice, newQty, old.locate, old.side⟩

def observeDirectory (locate : UInt16) (message : List UInt8) : Stats :=
  if locate = 0 ∨ !tickerHasIdentity message 11 then stats.bump .invalidDirectoryIdentities
  else
    let identity := stats.directory locate
    let existed := identity.seen
    let sameIdentity := existed && tickerMatches identity message 11
    let stats := stats.countIf .conflictingDirectoryIdentities (existed && !sameIdentity)
    let stats := stats.countIf .conflictingDirectoryAfterSystemHours
      (stats.systemHoursStarted && existed && !sameIdentity)
    if existed then stats
    else
      let tickerKey := tickerKey message 11
      let stats :=
        match stats.directoryTickerLocates.lookup tickerKey with
        | some other => stats.countIf .duplicateDirectoryTickers (other ≠ locate)
        | none =>
          { stats with
            directoryTickerLocates := stats.directoryTickerLocates.insert tickerKey locate }
      { stats with directory := update stats.directory locate ⟨tickerBytes message 11, true⟩ }

def observeAddIdentity (locate : UInt16) (message : List UInt8) : Stats :=
  let identity := stats.directory locate
  if !identity.seen then stats.bump .orderAddsBeforeDirectory
  else stats.countIf .orderAddStockMismatches (!tickerMatches identity message 24)

def observeSystemEvent (eventCode : UInt8) : Stats :=
  let stats :=
    if eventCode ∈ kDailySystemEvents then
      if kDailySystemEvents[stats.dailySystemEventsSeen]? ≠ some eventCode then
        stats.bump .systemEventSequenceErrors
      else { stats with dailySystemEventsSeen := stats.dailySystemEventsSeen + 1 }
    else if eventCode = byte 'A' ∨ eventCode = byte 'R' ∨ eventCode = byte 'B' then stats
    else stats.bump .unsupportedSystemEventCodes
  if eventCode = byte 'S' then { stats with systemHoursStarted := true }
  else if eventCode = byte 'E' then
    { stats with
      systemEventE := stats.systemEventE + 1
      systemHoursEnded := true }
  else if eventCode = byte 'C' then { stats with systemHoursEnded := false }
  else stats

/-- A record with `length` bytes at least. -/
def ifLong (message : List UInt8) (length : ℕ) (observe : Stats → Stats) : Stats :=
  if message.length < length then stats.bump .malformedRecords else observe stats

/-- The switch of `observeMessage`. -/
def observeType (message : List UInt8) (type : UInt8) (locate : UInt16) : Stats :=
  if type = byte 'A' ∨ type = byte 'F' then
    stats.ifLong message (if type = byte 'F' then 40 else 36) fun stats =>
      let orderRef := readU64BE message 11
      let qty := readU32BE message 20
      let price := readU32BE message 32
      (((stats.observeOrderRef orderRef).observePrice price).observeAddIdentity locate
        message).profileAdd locate orderRef price qty (byteAt message 19)
  else if type = byte 'E' then
    stats.ifLong message 31 fun stats =>
      let orderRef := readU64BE message 11
      (stats.observeOrderRef orderRef).profileExecution locate orderRef (readU32BE message 19)
  else if type = byte 'C' then
    stats.ifLong message 36 fun stats =>
      let orderRef := readU64BE message 11
      ((stats.observeOrderRef orderRef).profileExecution locate orderRef
        (readU32BE message 19)).observePrice (readU32BE message 32)
  else if type = byte 'X' then
    stats.ifLong message 23 fun stats =>
      let orderRef := readU64BE message 11
      (stats.observeOrderRef orderRef).profileCancel locate orderRef (readU32BE message 19)
  else if type = byte 'D' then
    stats.ifLong message 19 fun stats =>
      let orderRef := readU64BE message 11
      (stats.observeOrderRef orderRef).profileDelete locate orderRef
  else if type = byte 'U' then
    stats.ifLong message 35 fun stats =>
      let oldOrderRef := readU64BE message 11
      let newOrderRef := readU64BE message 19
      let newPrice := readU32BE message 31
      (((stats.observeOrderRef oldOrderRef).observeOrderRef newOrderRef).observePrice
        newPrice).profileReplace locate oldOrderRef newOrderRef newPrice (readU32BE message 27)
  else if type = byte 'B' then stats.ifLong message 19 fun stats => stats
  else if type = byte 'R' then
    stats.ifLong message 39 fun stats => stats.observeDirectory locate message
  else if type = byte 'S' then
    stats.ifLong message 12 fun stats => stats.observeSystemEvent (byteAt message 11)
  else stats

def observeMessage (message : List UInt8) : Stats :=
  if message.length = 0 then stats
  else
    let type := byteAt message 0
    let expectedLength := expectedItchMessageLength type
    if expectedLength = 0 ∨ message.length ≠ expectedLength then stats.bump .malformedRecords
    else
      let locate := if 3 ≤ message.length then readU16BE message 1 else 0
      let stats := stats.countIf .invalidTimestamps (kNanosecondsPerDay ≤ readU48BE message 5)
      -- the official archive has partial cancels after System Event E
      let stats := stats.countIf .invalidMessagesAfterSystemEventE (stats.systemHoursEnded
        && decide (type ≠ byte 'X' ∧ type ≠ byte 'D' ∧ type ≠ byte 'B'
          ∧ ¬ (type = byte 'S' ∧ byteAt message 11 = byte 'C')))
      let stats := stats.countIf .bookMessagesBeforeSystemHours (!stats.systemHoursStarted
        && decide (type = byte 'A' ∨ type = byte 'F' ∨ type = byte 'E' ∨ type = byte 'C'
          ∨ type = byte 'X' ∨ type = byte 'D' ∨ type = byte 'U'))
      stats.observeType message type locate

/-- The counts `semanticProfileClean` looks at. -/
def semanticFaults : List Fault :=
  [.pricesAboveDocumentedMax, .conflictingDirectoryAfterSystemHours,
    .conflictingDirectoryIdentities, .invalidDirectoryIdentities, .duplicateDirectoryTickers,
    .invalidTimestamps, .orderAddsBeforeDirectory, .orderAddStockMismatches,
    .bookMessagesBeforeSystemHours, .systemEventSequenceErrors, .unsupportedSystemEventCodes,
    .invalidMessagesAfterSystemEventE, .duplicateOrderRefs, .missingDeletes, .missingCancels,
    .missingExecutions, .missingReplaces, .sameReferenceReplaces, .overCancels, .overExecutions,
    .zeroQuantityMutations, .invalidOrderSides, .locateMismatches,
    .reconstructionInvariantFailures]

def semanticProfileClean : Bool :=
  semanticFaults.all (fun fault => stats.faults fault == 0)
    && stats.dailySystemEventsSeen == kDailySystemEvents.length
    && stats.systemEventE == 1
    && stats.liveOrders.entries.isEmpty
    && stats.activeLevelCount == 0
    && stats.activePageCount == 0

def malformedRecords : ℕ := stats.faults .malformedRecords

end Stats

inductive BinaryFileCompletion
  | none
  | terminator
  | legacyScEof
  | incompleteEof
  | truncatedLength
  | trailingData
  | terminatorBeforeSc
  | truncatedPayload
  | malformedRecord
  | missingSo
  | recordAfterSc
  deriving DecidableEq

/-- The locals of the loop of `main`. -/
structure Profile where
  stats : Stats := .init
  binaryfileCompletion : BinaryFileCompletion := .none
  sawMessage : Bool := false
  sawEndOfMessages : Bool := false

namespace Profile

def malformed (profile : Profile) (completion : BinaryFileCompletion) : Profile :=
  { profile with
    stats := profile.stats.bump .malformedRecords
    binaryfileCompletion := completion }

def isSystemEvent (message : List UInt8) (code : Char) : Bool :=
  message.length == 12 && byteAt message 0 == byte 'S' && byteAt message 11 == byte code

def observe (profile : Profile) (message : List UInt8) : Profile :=
  { profile with
    stats := profile.stats.observeMessage message
    sawMessage := true
    sawEndOfMessages := isSystemEvent message 'C' }

/-- The loop of `main` over what is left of the file. -/
def readRecords (allowLegacyEofAfterSc : Bool) (input : List UInt8) (profile : Profile) : Profile :=
  let lengthBytes := input.take 2
  let rest := input.drop 2
  if lengthBytes.length = 0 then
    if allowLegacyEofAfterSc && profile.sawEndOfMessages then
      { profile with binaryfileCompletion := .legacyScEof }
    else profile.malformed .incompleteEof
  else if lengthBytes.length ≠ 2 then profile.malformed .truncatedLength
  else
    let length := (readU16BE lengthBytes 0).toNat
    if length = 0 then
      if rest ≠ [] then profile.malformed .trailingData
      else if !profile.sawEndOfMessages then profile.malformed .terminatorBeforeSc
      else { profile with binaryfileCompletion := .terminator }
    else
      let message := rest.take length
      let expectedLength := expectedItchMessageLength (byteAt message 0)
      if message.length ≠ length then profile.malformed .truncatedPayload
      else if expectedLength = 0 ∨ length ≠ expectedLength then profile.malformed .malformedRecord
      else if byteAt message 0 = byte 'S' ∧ readU16BE message 1 ≠ 0 then
        profile.malformed .malformedRecord
      else if !profile.sawMessage && !isSystemEvent message 'O' then profile.malformed .missingSo
      else if profile.sawEndOfMessages then profile.malformed .recordAfterSc
      else readRecords allowLegacyEofAfterSc (rest.drop length) (profile.observe message)
termination_by input.length
decreasing_by
  have hlen : (input.take 2).length = 2 := not_not.1 ‹_›
  rw [List.length_take] at hlen
  rw [List.length_drop, List.length_drop]
  omega

/-- What `main` returns `0` for. -/
def passes (profile : Profile) : Bool :=
  profile.stats.malformedRecords == 0
    && (profile.binaryfileCompletion == .terminator
      || profile.binaryfileCompletion == .legacyScEof)
    && profile.stats.semanticProfileClean

end Profile

/-- The profile of a file that is read without an error. -/
def profile (allowLegacyEofAfterSc : Bool) (file : BinaryFile) : Profile :=
  Profile.readRecords allowLegacyEofAfterSc file.bytes {}

end ItchTraceProfile

end AstraFeed
