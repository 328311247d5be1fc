import AstraFeed.BookManager
import AstraFeed.StockDirectory

/-!
# The ITCH 5.0 parser

A message is decoded and applied to the directory, to the lifecycle phase or to a book. A message
that is refused leaves its error behind.
-/

namespace AstraFeed

inductive ChannelPhase
  | waitingStartOfMessages
  | startupDirectorySpin
  | startupAdminSpin
  | systemHours
  | marketHours
  | postMarketHours
  | postSystemHours
  | endOfMessages
  deriving DecidableEq, Repr

/-- The operations a book failure is reported for. -/
inductive BookOperation
  | addOrder
  | orderExecution
  | orderCancel
  | orderDelete
  | orderReplace
  deriving DecidableEq, Repr

/-- What `last_error_` says; an empty text is no error. -/
inductive ItchError
  | emptyMessage
  | unsupportedType
  | invalidLength
  | emptyPrevalidatedMessage
  | timestampOutsideDay
  | systemEventLocate
  | firstIsNotStart
  | afterEndOfMessages
  | afterSystemHours
  | unregisteredLocate
  | stockMismatch
  | executionPriceOutOfRange
  | replacementNotNew
  | invalidIdentity
  | conflictingTicker
  | tickerElsewhere
  | unableToRegister
  | unableToPrepareBook
  | liveOrders
  | unsupportedEvent
  | unableToPrepareBooks
  | outOfOrderEvent
  | bookFailure (operation : BookOperation) (result : MutationResult)
  deriving DecidableEq, Repr

def BookOperation.text : BookOperation → String
  | .addOrder => "add order"
  | .orderExecution => "order execution"
  | .orderCancel => "order cancel"
  | .orderDelete => "order delete"
  | .orderReplace => "order replace"

def ItchError.text : ItchError → String
  | .emptyMessage => "empty ITCH message"
  | .unsupportedType => "unsupported ITCH message type"
  | .invalidLength => "invalid ITCH message length"
  | .emptyPrevalidatedMessage => "empty prevalidated ITCH message"
  | .timestampOutsideDay => "ITCH timestamp is outside trading day"
  | .systemEventLocate => "System Event stock locate is not zero"
  | .firstIsNotStart => "first ITCH message is not System Event O"
  | .afterEndOfMessages => "ITCH message after end of messages"
  | .afterSystemHours => "ITCH message is not permitted after System Event E"
  | .unregisteredLocate => "add order uses unregistered stock locate"
  | .stockMismatch => "add order stock does not match registered ticker"
  | .executionPriceOutOfRange => "order execution with price: price out of range"
  | .replacementNotNew => "replacement order reference is not new"
  | .invalidIdentity => "invalid stock-directory identity"
  | .conflictingTicker => "conflicting ticker for stock locate"
  | .tickerElsewhere => "ticker is already registered to another stock locate"
  | .unableToRegister => "unable to register stock-directory identity"
  | .unableToPrepareBook => "unable to prepare stock-directory book"
  | .liveOrders => "end of messages with live orders"
  | .unsupportedEvent => "unsupported system event code"
  | .unableToPrepareBooks => "unable to prepare registered books"
  | .outOfOrderEvent => "out-of-order or duplicate system event"
  | .bookFailure operation result => operation.text ++ ": " ++ mutationResultName result

/-- The byte of a character. -/
def byte (c : Char) : UInt8 := c.toUInt8

/-- `0` for a type that is not supported. -/
def expectedItchMessageLength (type : UInt8) : ℕ :=
  if type = byte 'S' then 12
  else if type = byte 'R' then 39
  else if type = byte 'H' then 25
  else if type = byte 'Y' then 20
  else if type = byte 'L' then 26
  else if type = byte 'V' then 35
  else if type = byte 'W' then 12
  else if type = byte 'K' then 28
  else if type = byte 'J' then 35
  else if type = byte 'h' then 21
  else if type = byte 'A' then 36
  else if type = byte 'F' then 40
  else if type = byte 'E' then 31
  else if type = byte 'C' then 36
  else if type = byte 'X' then 23
  else if type = byte 'D' then 19
  else if type = byte 'U' then 35
  else if type = byte 'P' then 44
  else if type = byte 'Q' then 40
  else if type = byte 'B' then 19
  else if type = byte 'I' then 50
  else if type = byte 'N' then 20
  else if type = byte 'O' then 48
  else 0

namespace Wire

/-- The byte at an offset; the lengths checked beforehand keep every offset inside the bytes. -/
def byteAt (msg : List UInt8) (off : ℕ) : UInt8 := msg.getD off 0

def readU16BE (msg : List UInt8) (off : ℕ) : UInt16 :=
  (byteAt msg off).toUInt16 <<< 8 ||| (byteAt msg (off + 1)).toUInt16

def readU32BE (msg : List UInt8) (off : ℕ) : UInt32 :=
  (byteAt msg off).toUInt32 <<< 24 ||| (byteAt msg (off + 1)).toUInt32 <<< 16
    ||| (byteAt msg (off + 2)).toUInt32 <<< 8 ||| (byteAt msg (off + 3)).toUInt32

def readBE (msg : List UInt8) (off count : ℕ) : UInt64 :=
  (List.range count).foldl (fun v i => v <<< 8 ||| (byteAt msg (off + i)).toUInt64) 0

def readU48BE (msg : List UInt8) (off : ℕ) : UInt64 := readBE msg off 6

def readU64BE (msg : List UInt8) (off : ℕ) : UInt64 := readBE msg off 8

/-- A fixed field without the blanks and NUL characters it ends in. -/
def fixedText (msg : List UInt8) (off len : ℕ) : List UInt8 :=
  (((msg.drop off).take len).reverse.dropWhile fun c => c = byte ' ' ∨ c = 0).reverse

def kStockLen : ℕ := 8
def kTimestampOffset : ℕ := 5
def kAddStockOffset : ℕ := 24
def kSystemEventCodeOffset : ℕ := 11
def kNanosecondsPerDay : UInt64 := 86400000000000

/-- The stock field is the entry's ticker, filled up with blanks. -/
def wireStockMatches (entry : StockDirectoryEntry) (msg : List UInt8) (offset : ℕ) : Bool :=
  let tickerLength := (StockDirectory.tickerView entry).length
  (List.range kStockLen).all fun index =>
    byteAt msg (offset + index)
      == if index < tickerLength then entry.ticker.chars.getD index 0 else byte ' '

end Wire

/-- The parser with the directory and the books it refers to. -/
structure ItchParser where
  symbols : StockDirectory
  books : BookManager
  channelPhase : ChannelPhase
  lastMessageSkipped : Bool
  lastError : Option ItchError
  booksPrepared : Bool

namespace ItchParser

open Wire

def create (symbols : StockDirectory) (books : BookManager) : ItchParser where
  symbols := symbols
  books := books
  channelPhase := .waitingStartOfMessages
  lastMessageSkipped := false
  lastError := none
  booksPrepared := false

/-- The text of `lastError()`. -/
def lastErrorText (p : ItchParser) : String := (p.lastError.map ItchError.text).getD ""

section Handlers

variable (p : ItchParser) (msg : List UInt8)

def fail (error : ItchError) : ItchParser :=
  { p with lastMessageSkipped := true, lastError := some error }

def skip : ItchParser := { p with lastMessageSkipped := true }

def applyBookResult (result : MutationResult) (operation : BookOperation) : ItchParser :=
  if result = .applied then p else p.fail (.bookFailure operation result)

/-- A book operation, and the report of its result. -/
def applyBook (operation : BookOperation) (out : MutationResult × BookManager) : ItchParser :=
  applyBookResult { p with books := out.2 } out.1 operation

def handleAdd (locate : UInt16) : ItchParser :=
  match p.symbols.get locate with
  | none => p.fail .unregisteredLocate
  | some directoryEntry =>
    if !wireStockMatches directoryEntry msg kAddStockOffset then p.fail .stockMismatch
    else
      p.applyBook .addOrder (p.books.addOrder locate (readU64BE msg 11)
        (readU32BE msg 32).toUInt64 (readU32BE msg 20) (byteAt msg 19)
        (readU48BE msg kTimestampOffset))

def applyExecution (locate : UInt16) : ItchParser :=
  p.applyBook .orderExecution (p.books.executeOrder locate (readU64BE msg 11) (readU32BE msg 19)
    (readU48BE msg kTimestampOffset))

def handleOrderExecuted (locate : UInt16) : ItchParser := p.applyExecution msg locate

def handleOrderExecutedWithPrice (locate : UInt16) : ItchParser :=
  if !isValidItchPrice4 (readU32BE msg 32).toUInt64 then p.fail .executionPriceOutOfRange
  else p.applyExecution msg locate

def handleCancel (locate : UInt16) : ItchParser :=
  p.applyBook .orderCancel (p.books.cancelShares locate (readU64BE msg 11) (readU32BE msg 19)
    (readU48BE msg kTimestampOffset))

def handleDelete (locate : UInt16) : ItchParser :=
  p.applyBook .orderDelete (p.books.deleteOrder locate (readU64BE msg 11)
    (readU48BE msg kTimestampOffset))

def handleReplace (locate : UInt16) : ItchParser :=
  let oldId := readU64BE msg 11
  let newId := readU64BE msg 19
  if newId = oldId then p.fail .replacementNotNew
  else
    p.applyBook .orderReplace (p.books.replaceOrder locate oldId newId
      (readU32BE msg 31).toUInt64 (readU32BE msg 27) (readU48BE msg kTimestampOffset))

/-- Match-number history is not tracked. -/
def handleBrokenTrade : ItchParser := p.skip

def createRegisteredBook (locate : UInt16) : Bool × ItchParser :=
  if !isValidStockLocate locate ∨ !p.symbols.isRegistered locate then (false, p)
  else
    let (book, books) := p.books.getOrCreate locate
    (book.isSome, { p with books := books })

/-- A book for each registered locate; one failure does not stop the others. -/
def createRegisteredBooks : Bool × ItchParser :=
  (List.range' 1 (kStockLocateSlots - 1)).foldl (fun (success, p) slot =>
    let locate := slot.toUInt16
    if p.symbols.isRegistered locate then
      let (created, p) := p.createRegisteredBook locate
      (created && success, p)
    else (success, p)) (true, p)

def directoryEntry (locate : UInt16) : StockDirectoryEntry where
  roundLotSize := readU32BE msg 21
  locate := locate
  ticker := .ofChars (fixedText msg 11 kStockLen)
  marketCategory := byteAt msg 19
  finStatus := byteAt msg 20
  isTest := byteAt msg 29 = byte 'T'
  roundLotsOnly := byteAt msg 25 = byte 'Y'
  issueClassification := byteAt msg 26

/-- Whether `locate` is registered with another ticker than `sym`. -/
def tickerConflicts (locate : UInt16) (sym : List UInt8) : Bool :=
  match p.symbols.get locate with
  | none => false
  | some existing => existing.ticker.cString ≠ sym

def handleStockDirectory : ItchParser :=
  let locate := readU16BE msg 1
  let sym := fixedText msg 11 kStockLen
  if sym = [] ∨ !isValidStockLocate locate then p.fail .invalidIdentity
  -- a repeated message refreshes the metadata, and does not retarget a book
  else if p.tickerConflicts locate sym then p.fail .conflictingTicker
  else
    let existingLocate := p.symbols.locateForTicker sym
    if existingLocate ≠ StockDirectory.kInvalidStockLocate ∧ existingLocate ≠ locate then
      p.fail .tickerElsewhere
    else
      let p :=
        if p.channelPhase = .waitingStartOfMessages then
          { p with channelPhase := .startupDirectorySpin }
        else p
      let (registered, symbols) := p.symbols.set locate (directoryEntry msg locate)
      let p := { p with symbols := symbols }
      if !registered then p.fail .unableToRegister
      else if p.booksPrepared then
        let (created, p) := p.createRegisteredBook locate
        if created then p else p.fail .unableToPrepareBook
      else p

/-- Whether the lifecycle allows `nextPhase`. -/
def phaseAllowed : ChannelPhase → Bool
  | .startupDirectorySpin => p.channelPhase = .waitingStartOfMessages
  | .systemHours =>
    p.channelPhase = .startupDirectorySpin ∨ p.channelPhase = .startupAdminSpin
  | .marketHours => p.channelPhase = .systemHours
  | .postMarketHours => p.channelPhase = .marketHours
  | .postSystemHours => p.channelPhase = .postMarketHours
  | .endOfMessages => p.channelPhase = .postSystemHours
  | .waitingStartOfMessages => false
  | .startupAdminSpin => false

def advancePhase (nextPhase : ChannelPhase) : Bool × ItchParser :=
  if !p.phaseAllowed nextPhase then (false, p.fail .outOfOrderEvent)
  else (true, { p with channelPhase := nextPhase })

def handleSystemHoursStart : ItchParser :=
  let advanced := p.advancePhase .systemHours
  if !advanced.1 then advanced.2
  else if advanced.2.booksPrepared then advanced.2
  else
    let created := { advanced.2 with booksPrepared := true }.createRegisteredBooks
    if created.1 then created.2 else created.2.fail .unableToPrepareBooks

def handleSystemEvent : ItchParser :=
  let eventCode := byteAt msg kSystemEventCodeOffset
  if eventCode = byte 'O' then (p.advancePhase .startupDirectorySpin).2
  else if eventCode = byte 'S' then p.handleSystemHoursStart
  else if eventCode = byte 'Q' then (p.advancePhase .marketHours).2
  else if eventCode = byte 'M' then (p.advancePhase .postMarketHours).2
  else if eventCode = byte 'E' then (p.advancePhase .postSystemHours).2
  else if eventCode = byte 'C' then
    if p.books.totalLiveOrderCount ≠ 0 then p.fail .liveOrders
    else (p.advancePhase .endOfMessages).2
  -- the emergency conditions do not alter the daily lifecycle
  else if eventCode = byte 'A' ∨ eventCode = byte 'R' ∨ eventCode = byte 'B' then p
  else p.fail .unsupportedEvent

def markStartupAdminMessage : ItchParser :=
  if p.channelPhase = .startupDirectorySpin then { p with channelPhase := .startupAdminSpin }
  else p

/-- The switch of `dispatchMessage`; the result is whether the message updated a book. -/
def dispatchType (type : UInt8) (locate : UInt16) : Bool × ItchParser :=
  let updated (p : ItchParser) : Bool × ItchParser := (!p.lastMessageSkipped, p)
  if type = byte 'A' then updated (p.handleAdd msg locate)
  else if type = byte 'F' then updated (p.handleAdd msg locate)
  else if type = byte 'E' then updated (p.handleOrderExecuted msg locate)
  else if type = byte 'C' then updated (p.handleOrderExecutedWithPrice msg locate)
  else if type = byte 'X' then updated (p.handleCancel msg locate)
  else if type = byte 'D' then updated (p.handleDelete msg locate)
  else if type = byte 'U' then updated (p.handleReplace msg locate)
  else if type = byte 'B' then updated p.handleBrokenTrade
  else if type = byte 'R' then (false, p.handleStockDirectory msg)
  else if type = byte 'S' then (false, p.handleSystemEvent msg)
  else if type = byte 'H' ∨ type = byte 'Y' ∨ type = byte 'L' ∨ type = byte 'V'
      ∨ type = byte 'W' ∨ type = byte 'K' ∨ type = byte 'J' ∨ type = byte 'h' then
    (false, p.markStartupAdminMessage)
  else (false, p.skip)

def dispatchMessage : Bool × ItchParser :=
  let type := byteAt msg 0
  let locate := readU16BE msg 1
  let systemEventCode := if type = byte 'S' then byteAt msg kSystemEventCodeOffset else 0
  if kNanosecondsPerDay ≤ readU48BE msg kTimestampOffset then
    (false, p.fail .timestampOutsideDay)
  else if type = byte 'S' ∧ locate ≠ 0 then (false, p.fail .systemEventLocate)
  else if p.channelPhase = .waitingStartOfMessages
      ∧ (type ≠ byte 'S' ∨ systemEventCode ≠ byte 'O') then
    (false, p.fail .firstIsNotStart)
  else if p.channelPhase = .endOfMessages then (false, p.fail .afterEndOfMessages)
  -- only mutations of existing orders are still open after System Event E
  else if p.channelPhase = .postSystemHours ∧ type ≠ byte 'X' ∧ type ≠ byte 'D'
      ∧ type ≠ byte 'B' ∧ ¬ (type = byte 'S' ∧ systemEventCode = byte 'C') then
    (false, p.fail .afterSystemHours)
  else p.dispatchType msg type locate

/-- What both entries clear first. -/
def cleared : ItchParser := { p with lastError := none, lastMessageSkipped := false }

def handleMessage : Bool × ItchParser :=
  if msg = [] then (false, p.cleared.fail .emptyMessage)
  else
    let expectedLength := expectedItchMessageLength (byteAt msg 0)
    if expectedLength = 0 then (false, p.cleared.fail .unsupportedType)
    else if msg.length ≠ expectedLength then (false, p.cleared.fail .invalidLength)
    else p.cleared.dispatchMessage msg

/-- The decoder's entry, after its own check of types and lengths. -/
def handlePrevalidatedMessage : Bool × ItchParser :=
  if msg = [] then (false, p.cleared.fail .emptyPrevalidatedMessage)
  else p.cleared.dispatchMessage msg

end Handlers

end ItchParser

end AstraFeed
