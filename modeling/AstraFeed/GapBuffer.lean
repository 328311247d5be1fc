import Mathlib.Data.Nat.Notation
import Mathlib.Logic.Function.Basic
import Mathlib.Tactic.Ring

/-!
# The gap buffer

Packets that arrived ahead of a gap wait in an open-addressing table, by their first sequence.
Erasing shifts later entries back, so no tombstones are left.
-/

namespace AstraFeed

open Function

/-- `data` holds the `len` bytes that were copied. -/
structure SequencedPacket where
  seq : UInt64
  receiveStartTicks : UInt64
  msgCount : UInt16
  data : List UInt8
  deriving DecidableEq

def SequencedPacket.kMaxPacketSize : ℕ := 2048

namespace GapBuffer

inductive InsertResult
  | inserted
  | duplicateIdentical
  | conflictingDuplicate
  | invalidPacket
  | capacityExceeded
  deriving DecidableEq, Repr

end GapBuffer

/-- A slot is `none` when it is not occupied. -/
structure GapBuffer where
  slots : ℕ → Option SequencedPacket
  size : ℕ

namespace GapBuffer

def kCapacity : ℕ := 1024 * 1024

def kMask : ℕ := kCapacity - 1

/-- What the constructor and `clear` leave. -/
def fresh : GapBuffer := ⟨fun _ => none, 0⟩

def hash (value : UInt64) : UInt64 :=
  let value := value ^^^ value >>> 33
  let value := value * 0xff51afd7ed558ccd
  let value := value ^^^ value >>> 33
  let value := value * 0xc4ceb9fe1a85ec53
  value ^^^ value >>> 33

def slotFor (seq : UInt64) : ℕ := (hash seq).toNat &&& kMask

def next (slot : ℕ) : ℕ := (slot + 1) &&& kMask

/-- The subtraction wraps around `2 ^ 32`. -/
def probeDistance (natural slot : ℕ) : ℕ := (slot + 2 ^ 32 - natural) &&& kMask

section Loops

variable (b : GapBuffer)

/-- The loop of `insert`, after `probes` slots and with `remaining` of them left. -/
def insertLoop (packet : SequencedPacket) (start : ℕ) : ℕ → ℕ → InsertResult × GapBuffer
  | 0, _ => (.capacityExceeded, b)
  | remaining + 1, probes =>
    let slot := (start + probes) &&& kMask
    match b.slots slot with
    | some stored =>
      if stored.seq = packet.seq then
        if stored.msgCount ≠ packet.msgCount ∨ stored.data ≠ packet.data then
          (.conflictingDuplicate, b)
        -- the first arrival's receive time is kept
        else (.duplicateIdentical, b)
      else insertLoop packet start remaining (probes + 1)
    | none => (.inserted, ⟨update b.slots slot (some packet), b.size + 1⟩)

def insert (packet : SequencedPacket) : InsertResult × GapBuffer :=
  if SequencedPacket.kMaxPacketSize < packet.data.length then (.invalidPacket, b)
  else b.insertLoop packet (slotFor packet.seq) kCapacity 0

/-- The loop `find` and `erase` share: the slot that holds `seq`. -/
def findLoop (seq : UInt64) (start : ℕ) : ℕ → ℕ → Option ℕ
  | 0, _ => none
  | remaining + 1, probes =>
    let slot := (start + probes) &&& kMask
    match b.slots slot with
    | none => none
    | some stored =>
      if stored.seq = seq then some slot else findLoop seq start remaining (probes + 1)

def find (seq : UInt64) : Option SequencedPacket :=
  (b.findLoop seq (slotFor seq) kCapacity 0).bind b.slots

def empty : Bool := b.size = 0

end Loops

/-- The loop of `eraseAt`, with `remaining` slots left to scan. -/
def eraseAtLoop : ℕ → (ℕ → Option SequencedPacket) → ℕ → ℕ → (ℕ → Option SequencedPacket)
  | 0, slots, gap, _ => update slots gap none
  | remaining + 1, slots, gap, slot =>
    match slots slot with
    | none => update slots gap none
    | some entry =>
      let natural := slotFor entry.seq
      if probeDistance natural gap < probeDistance natural slot then
        eraseAtLoop remaining (update slots gap (some entry)) slot (next slot)
      else eraseAtLoop remaining slots gap (next slot)

def eraseAt (b : GapBuffer) (eraseSlot : ℕ) : GapBuffer where
  slots := eraseAtLoop (kCapacity - 1) b.slots eraseSlot (next eraseSlot)
  size := b.size - 1

def erase (b : GapBuffer) (seq : UInt64) : GapBuffer :=
  match b.findLoop seq (slotFor seq) kCapacity 0 with
  | none => b
  | some slot => b.eraseAt slot

end GapBuffer

end AstraFeed
