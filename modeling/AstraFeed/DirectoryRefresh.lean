import AstraFeed.ParserRun

/-!
# Repeated directory messages

A directory message may be repeated, and the orders of its stock repeat its stock field. The field
is compared as it is on the wire, as trimmed text, and as the ticker that was stored.
-/

namespace AstraFeed

namespace ItchParser

open Wire

/-- The bytes of a stock field. -/
def stockField (msg : List UInt8) (off : ℕ) : List UInt8 := (msg.drop off).take kStockLen

/-- A message that adds an order at a locate. -/
def AddsAt (msg : List UInt8) (locate : UInt16) : Prop :=
  IsType msg ['A', 'F'] ∧ readU16BE msg 1 = locate

section Phases

variable (p : ItchParser)

/-- Between System Events S and E. -/
def AdmitsOrders : Prop :=
  p.channelPhase ∈ [ChannelPhase.systemHours, .marketHours, .postMarketHours]

/-- Between System Events O and E. -/
def AdmitsDirectory : Prop :=
  p.channelPhase ∈ [ChannelPhase.startupDirectorySpin, .startupAdminSpin] ∨ p.AdmitsOrders

/-- The message is not refused for its stock. -/
def PassesStockIdentity (msg : List UInt8) : Prop :=
  ∀ e ∈ (p.handleMessage msg).2.lastError, e ≠ .unregisteredLocate ∧ e ≠ .stockMismatch

end Phases

/-- What a directory message `m` promises from the state `p` it led to. -/
structure RefreshLaw (p : ItchParser) (m : List UInt8) : Prop where
  /-- The same message is accepted again and changes no book, and no entry either unless another
  one was accepted for its locate. -/
  refresh : ∀ later,
    let q := p.feed later
    q.AdmitsDirectory → q.Accepts m ∧ (q.handleMessage m).2.books = q.books
      ∧ ((∀ r ∈ accepted p later, IsType r ['R'] → readU16BE r 1 = readU16BE m 1 → r = m) →
        (q.handleMessage m).2.symbols = q.symbols)
  /-- The same bytes name the stock in an order. -/
  identity : ∀ later a,
    let q := p.feed later
    q.AdmitsOrders → AddsAt a (readU16BE m 1) →
      stockField a kAddStockOffset = stockField m 11 → q.PassesStockIdentity a
  /-- Another text does not. -/
  conflict : ∀ later a,
    let q := p.feed later
    AddsAt a (readU16BE m 1) →
      fixedText a kAddStockOffset kStockLen ≠ fixedText m 11 kStockLen →
      ¬ q.Accepts a ∧ (q.handleMessage a).2.books = q.books

end ItchParser

end AstraFeed
