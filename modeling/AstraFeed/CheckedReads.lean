import AstraFeed.ItchParser

/-!
# The parser with its reads checked

The span a handler gets has a size, and the handlers index it without looking at the size. Here
every read asks whether the offset is inside the span, and the handler is `none` where one is not.
-/

namespace AstraFeed

namespace Checked

def byteAt (msg : List UInt8) (off : ℕ) : Option UInt8 := msg[off]?

def readU16BE (msg : List UInt8) (off : ℕ) : Option UInt16 := do
  let b0 ← byteAt msg off
  let b1 ← byteAt msg (off + 1)
  return b0.toUInt16 <<< 8 ||| b1.toUInt16

def readU32BE (msg : List UInt8) (off : ℕ) : Option UInt32 := do
  let b0 ← byteAt msg off
  let b1 ← byteAt msg (off + 1)
  let b2 ← byteAt msg (off + 2)
  let b3 ← byteAt msg (off + 3)
  return b0.toUInt32 <<< 24 ||| b1.toUInt32 <<< 16 ||| b2.toUInt32 <<< 8 ||| b3.toUInt32

def readBELoop (msg : List UInt8) (off : ℕ) : List ℕ → UInt64 → Option UInt64
  | [], v => some v
  | i :: rest, v => do
    let b ← byteAt msg (off + i)
    readBELoop msg off rest (v <<< 8 ||| b.toUInt64)

def readU48BE (msg : List UInt8) (off : ℕ) : Option UInt64 := readBELoop msg off (List.range 6) 0

def readU64BE (msg : List UInt8) (off : ℕ) : Option UInt64 := readBELoop msg off (List.range 8) 0

/-- The text is a view of the field, so all of the field has to be there. -/
def fixedText (msg : List UInt8) (off len : ℕ) : Option (List UInt8) := do
  let field ← (List.range len).mapM fun i => byteAt msg (off + i)
  return (field.reverse.dropWhile fun c => c = byte ' ' ∨ c = 0).reverse

/-- The second loop of `wireStockMatches`, which ends at the first character that differs. -/
def stockLoop (entry : StockDirectoryEntry) (msg : List UInt8) (offset : ℕ) :
    List ℕ → Option Bool
  | [] => some true
  | index :: rest => do
    let observed ← byteAt msg (offset + index)
    let expected :=
      if index < (StockDirectory.tickerView entry).length then entry.ticker.chars.getD index 0
      else byte ' '
    if observed ≠ expected then some false else stockLoop entry msg offset rest

def wireStockMatches (entry : StockDirectoryEntry) (msg : List UInt8) (offset : ℕ) :
    Option Bool := stockLoop entry msg offset (List.range Wire.kStockLen)

open Wire (kStockLen kTimestampOffset kAddStockOffset kSystemEventCodeOffset kNanosecondsPerDay)

section Handlers

variable (p : ItchParser) (msg : List UInt8)

def handleAdd (locate : UInt16) : Option ItchParser :=
  match p.symbols.get locate with
  | none => some (p.fail .unregisteredLocate)
  | some directoryEntry => do
    let stockMatches ← wireStockMatches directoryEntry msg kAddStockOffset
    if !stockMatches then some (p.fail .stockMismatch)
    else do
      let orderId ← readU64BE msg 11
      let qty ← readU32BE msg 20
      let price ← readU32BE msg 32
      let timestamp ← readU48BE msg kTimestampOffset
      let side ← byteAt msg 19
      return p.applyBook .addOrder (p.books.addOrder locate orderId price.toUInt64 qty side timestamp)

def applyExecution (locate : UInt16) : Option ItchParser := do
  let orderId ← readU64BE msg 11
  let executedQty ← readU32BE msg 19
  let timestamp ← readU48BE msg kTimestampOffset
  return p.applyBook .orderExecution (p.books.executeOrder locate orderId executedQty timestamp)

def handleOrderExecuted (locate : UInt16) : Option ItchParser := applyExecution p msg locate

def handleOrderExecutedWithPrice (locate : UInt16) : Option ItchParser := do
  let executionPrice ← readU32BE msg 32
  if !isValidItchPrice4 executionPrice.toUInt64 then some (p.fail .executionPriceOutOfRange)
  else applyExecution p msg locate

def handleCancel (locate : UInt16) : Option ItchParser := do
  let orderId ← readU64BE msg 11
  let canceledQty ← readU32BE msg 19
  let timestamp ← readU48BE msg kTimestampOffset
  return p.applyBook .orderCancel (p.books.cancelShares locate orderId canceledQty timestamp)

def handleDelete (locate : UInt16) : Option ItchParser := do
  let orderId ← readU64BE msg 11
  let timestamp ← readU48BE msg kTimestampOffset
  return p.applyBook .orderDelete (p.books.deleteOrder locate orderId timestamp)

def handleReplace (locate : UInt16) : Option ItchParser := do
  let oldId ← readU64BE msg 11
  let newId ← readU64BE msg 19
  let newQty ← readU32BE msg 27
  let newPrice ← readU32BE msg 31
  let timestamp ← readU48BE msg kTimestampOffset
  if newId = oldId then some (p.fail .replacementNotNew)
  else some (p.applyBook .orderReplace (p.books.replaceOrder locate oldId newId newPrice.toUInt64
    newQty timestamp))

def directoryEntry (locate : UInt16) (sym : List UInt8) : Option StockDirectoryEntry := do
  let marketCategory ← byteAt msg 19
  let finStatus ← byteAt msg 20
  let roundLotSize ← readU32BE msg 21
  let roundLotsOnly ← byteAt msg 25
  let issueClassification ← byteAt msg 26
  let authenticity ← byteAt msg 29
  return {
    roundLotSize := roundLotSize
    locate := locate
    ticker := .ofChars sym
    marketCategory := marketCategory
    finStatus := finStatus
    isTest := authenticity = byte 'T'
    roundLotsOnly := roundLotsOnly = byte 'Y'
    issueClassification := issueClassification }

def handleStockDirectory : Option ItchParser := do
  let locate ← readU16BE msg 1
  let sym ← fixedText msg 11 kStockLen
  if sym = [] ∨ !isValidStockLocate locate then some (p.fail .invalidIdentity)
  else if p.tickerConflicts locate sym then some (p.fail .conflictingTicker)
  else
    let existingLocate := p.symbols.locateForTicker sym
    if existingLocate ≠ StockDirectory.kInvalidStockLocate ∧ existingLocate ≠ locate then
      some (p.fail .tickerElsewhere)
    else do
      let p :=
        if p.channelPhase = .waitingStartOfMessages then
          { p with channelPhase := .startupDirectorySpin }
        else p
      let entry ← directoryEntry msg locate sym
      let (registered, symbols) := p.symbols.set locate entry
      let p := { p with symbols := symbols }
      if !registered then some (p.fail .unableToRegister)
      else if p.booksPrepared then
        let (created, p) := p.createRegisteredBook locate
        if created then some p else some (p.fail .unableToPrepareBook)
      else some p

def handleSystemEvent : Option ItchParser := do
  let eventCode ← byteAt msg kSystemEventCodeOffset
  if eventCode = byte 'O' then some (p.advancePhase .startupDirectorySpin).2
  else if eventCode = byte 'S' then some p.handleSystemHoursStart
  else if eventCode = byte 'Q' then some (p.advancePhase .marketHours).2
  else if eventCode = byte 'M' then some (p.advancePhase .postMarketHours).2
  else if eventCode = byte 'E' then some (p.advancePhase .postSystemHours).2
  else if eventCode = byte 'C' then
    if p.books.totalLiveOrderCount ≠ 0 then some (p.fail .liveOrders)
    else some (p.advancePhase .endOfMessages).2
  else if eventCode = byte 'A' ∨ eventCode = byte 'R' ∨ eventCode = byte 'B' then some p
  else some (p.fail .unsupportedEvent)

def dispatchType (type : UInt8) (locate : UInt16) : Option (Bool × ItchParser) :=
  let updated (p : Option ItchParser) : Option (Bool × ItchParser) :=
    p.map fun p => (!p.lastMessageSkipped, p)
  if type = byte 'A' then updated (handleAdd p msg locate)
  else if type = byte 'F' then updated (handleAdd p msg locate)
  else if type = byte 'E' then updated (handleOrderExecuted p msg locate)
  else if type = byte 'C' then updated (handleOrderExecutedWithPrice p msg locate)
  else if type = byte 'X' then updated (handleCancel p msg locate)
  else if type = byte 'D' then updated (handleDelete p msg locate)
  else if type = byte 'U' then updated (handleReplace p msg locate)
  else if type = byte 'B' then updated (some p.handleBrokenTrade)
  else if type = byte 'R' then (handleStockDirectory p msg).map fun p => (false, p)
  else if type = byte 'S' then (handleSystemEvent p msg).map fun p => (false, p)
  else if type = byte 'H' ∨ type = byte 'Y' ∨ type = byte 'L' ∨ type = byte 'V'
      ∨ type = byte 'W' ∨ type = byte 'K' ∨ type = byte 'J' ∨ type = byte 'h' then
    some (false, p.markStartupAdminMessage)
  else some (false, p.skip)

def dispatchMessage : Option (Bool × ItchParser) := do
  let type ← byteAt msg 0
  let locate ← readU16BE msg 1
  let timestamp ← readU48BE msg kTimestampOffset
  if kNanosecondsPerDay ≤ timestamp then some (false, p.fail .timestampOutsideDay)
  else
    (if type = byte 'S' then byteAt msg kSystemEventCodeOffset else some 0).bind
      fun systemEventCode =>
        if type = byte 'S' ∧ locate ≠ 0 then some (false, p.fail .systemEventLocate)
        else if p.channelPhase = .waitingStartOfMessages
            ∧ (type ≠ byte 'S' ∨ systemEventCode ≠ byte 'O') then
          some (false, p.fail .firstIsNotStart)
        else if p.channelPhase = .endOfMessages then some (false, p.fail .afterEndOfMessages)
        else if p.channelPhase = .postSystemHours ∧ type ≠ byte 'X' ∧ type ≠ byte 'D'
            ∧ type ≠ byte 'B' ∧ ¬ (type = byte 'S' ∧ systemEventCode = byte 'C') then
          some (false, p.fail .afterSystemHours)
        else dispatchType p msg type locate

end Handlers

end Checked

end AstraFeed
