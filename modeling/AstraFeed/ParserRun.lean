import AstraFeed.ItchParser

/-!
# Runs of the parser

A run hands messages over one after the other, and an accepted message is one that leaves no error.
The daily System Events are accepted in one order; the phase says how many of them were.
-/

namespace AstraFeed

/-- The position of a phase in the day. -/
def ChannelPhase.ordinal : ChannelPhase → ℕ
  | .waitingStartOfMessages => 0
  | .startupDirectorySpin => 1
  | .startupAdminSpin => 2
  | .systemHours => 3
  | .marketHours => 4
  | .postMarketHours => 5
  | .postSystemHours => 6
  | .endOfMessages => 7

/-- How many daily System Events lead to a phase. -/
def ChannelPhase.eventCount : ChannelPhase → ℕ
  | .waitingStartOfMessages => 0
  | .startupDirectorySpin => 1
  | .startupAdminSpin => 1
  | .systemHours => 2
  | .marketHours => 3
  | .postMarketHours => 4
  | .postSystemHours => 5
  | .endOfMessages => 6

namespace ItchParser

open Wire

section Messages

variable (msg : List UInt8)

/-- What is said of listed characters is decided by going through the list, not through all
characters. -/
instance (priority := high) (types : List Char) (p : Char → Prop) [DecidablePred p] :
    Decidable (∀ c ∈ types, p c) := List.decidableBAll p types

instance (priority := high) (types : List Char) (p : Char → Prop) [DecidablePred p] :
    Decidable (∃ c ∈ types, p c) := List.decidableBEx p types

def IsType (types : List Char) : Prop := ∃ c ∈ types, byteAt msg 0 = byte c

instance (types : List Char) : Decidable (IsType msg types) :=
  inferInstanceAs (Decidable (∃ c ∈ types, _))

def IsEvent (code : Char) : Prop :=
  byteAt msg 0 = byte 'S' ∧ byteAt msg kSystemEventCodeOffset = byte code

instance (code : Char) : Decidable (IsEvent msg code) := inferInstanceAs (Decidable (_ ∧ _))

/-- Messages that add an order or change one. -/
def IsOrderMessage : Prop := IsType msg ['A', 'F', 'E', 'C', 'X', 'D', 'U']

def IsAdministrative : Prop := IsType msg ['H', 'Y', 'L', 'V', 'W', 'K', 'J', 'h']

def IsEmergency : Prop := IsEvent msg 'A' ∨ IsEvent msg 'R' ∨ IsEvent msg 'B'

end Messages

/-- The System Events of a day, in their order. -/
def dailyEvents : List Char := ['O', 'S', 'Q', 'M', 'E', 'C']

/-- The daily event a message is. -/
def dailyEvent (msg : List UInt8) : Option Char := dailyEvents.find? fun code => IsEvent msg code

section Run

variable (p : ItchParser)

def feed (messages : List (List UInt8)) : ItchParser :=
  messages.foldl (fun p msg => (p.handleMessage msg).2) p

def Accepts (msg : List UInt8) : Prop := (p.handleMessage msg).2.lastError = none

instance (msg : List UInt8) : Decidable (p.Accepts msg) := inferInstanceAs (Decidable (_ = _))

end Run

/-- The accepted messages of a run. -/
def accepted : ItchParser → List (List UInt8) → List (List UInt8)
  | _, [] => []
  | p, msg :: messages =>
    let rest := accepted (p.handleMessage msg).2 messages
    if p.Accepts msg then msg :: rest else rest

end ItchParser

/-! ## Messages without a stock -/

/-- A System Event at midnight. -/
def systemEvent (code : Char) : List UInt8 := byte 'S' :: List.replicate 10 0 ++ [byte code]

/-- A status message of the market-wide circuit breaker. -/
def breakerStatus : List UInt8 := byte 'W' :: List.replicate 11 0

/-! ## Messages of a stock -/

/-- A stock field, filled up with blanks. -/
def blankPadded (stock : List Char) : List UInt8 :=
  stock.map byte ++ List.replicate (Wire.kStockLen - stock.length) (byte ' ')

/-- A directory message at midnight, with round lots of the given size. -/
def registration (locate : UInt8) (stock : List Char) (lot : UInt8) : List UInt8 :=
  byte 'R' :: [0, locate] ++ List.replicate 8 0 ++ blankPadded stock ++ [0, 0, 0, 0, 0, lot]
    ++ List.replicate 14 0

/-- A buy order at midnight, at the price of a hundred units. -/
def addition (locate : UInt8) (stock : List Char) (ref shares : UInt8) : List UInt8 :=
  byte 'A' :: [0, locate] ++ List.replicate 15 0 ++ [ref, byte 'B', 0, 0, 0, shares]
    ++ blankPadded stock ++ [0, 0, 0, 100]

/-- A replacement at midnight, at the price of a hundred units. -/
def replacement (locate oldRef newRef shares : UInt8) : List UInt8 :=
  byte 'U' :: [0, locate] ++ List.replicate 15 0 ++ [oldRef] ++ List.replicate 7 0
    ++ [newRef, 0, 0, 0, shares, 0, 0, 0, 100]

end AstraFeed
