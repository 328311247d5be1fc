import AstraFeed.MoldUdpDecoder
import AstraFeed.ParserRun
import AstraFeed.Lib.Probe

/-!
# Runs of the decoder

The packets a run is made of, the messages they carry and the stream they are cut from.
-/

namespace AstraFeed

open MoldUdpPacketHeader Wire

/-- The `n` messages framed from an offset on. -/
def framedMessages (data : List UInt8) : ℕ → ℕ → List (List UInt8)
  | 0, _ => []
  | n + 1, offset =>
    let msgLen := (readU16BE data offset).toNat
    (data.drop (offset + 2)).take msgLen :: framedMessages data n (offset + 2 + msgLen)

namespace PacketView

variable (p : PacketView)

def session : List UInt8 := p.data.take kSessionSize

def firstSeq : UInt64 := readU64BE p.data 10

def msgCount : UInt16 := readU16BE p.data 18

def endSeq : UInt64 := p.firstSeq + p.msgCount.toUInt64

def messages : List (List UInt8) := framedMessages p.data p.msgCount.toNat kHeaderSize

def IsEndOfSession : Prop :=
  p.data.length = kHeaderSize ∧ p.msgCount = kEndOfSessionMessageCount

instance : Decidable p.IsEndOfSession := inferInstanceAs (Decidable (_ ∧ _))

def IsHeartbeat : Prop := p.data.length = kHeaderSize ∧ p.msgCount = 0

instance : Decidable p.IsHeartbeat := inferInstanceAs (Decidable (_ ∧ _))

/-- A well-formed packet with messages. -/
structure IsData : Prop where
  header : kHeaderSize ≤ p.data.length
  msgCount_ne_zero : p.msgCount ≠ 0
  msgCount_ne_end : p.msgCount ≠ kEndOfSessionMessageCount
  endSeq_lt : p.firstSeq.toNat + p.msgCount.toNat < 2 ^ 64
  valid : MoldUdpDecoder.validateSequencedPacket p.data p.msgCount = .ok

instance : Decidable p.IsData :=
  decidable_of_iff (kHeaderSize ≤ p.data.length ∧ p.msgCount ≠ 0
      ∧ p.msgCount ≠ kEndOfSessionMessageCount ∧ p.firstSeq.toNat + p.msgCount.toNat < 2 ^ 64
      ∧ MoldUdpDecoder.validateSequencedPacket p.data p.msgCount = .ok)
    ⟨fun ⟨h, h0, he, hlt, hv⟩ => ⟨h, h0, he, hlt, hv⟩,
      fun ⟨h, h0, he, hlt, hv⟩ => ⟨h, h0, he, hlt, hv⟩⟩

/-- The packet carries the sequence. -/
def Carries (seq : ℕ) : Prop :=
  p.firstSeq.toNat ≤ seq ∧ seq < p.firstSeq.toNat + p.msgCount.toNat

/-- Every message of the packet has the property, at its sequence. -/
def Each (Q : ℕ → List UInt8 → Prop) : Prop :=
  ∀ i msg, p.messages[i]? = some msg → Q (p.firstSeq.toNat + i) msg

/-- Every message of the packet is the one `M` has at its sequence. -/
def SliceOf (M : ℕ → List UInt8) : Prop := p.Each fun seq msg => msg = M seq

/-- What the gap buffer stores of the packet. -/
def toSequenced : SequencedPacket := ⟨p.firstSeq, p.receiveStartTicks, p.msgCount, p.data⟩

end PacketView

namespace MoldUdpDecoder

/-- Messages handed over one after the other, the first with the sequence `seq`. -/
def handAll (d : MoldUdpDecoder) (seq : UInt64) : List (List UInt8) → MoldUdpDecoder
  | [] => d
  | msg :: msgs => (d.handMessage seq msg).handAll (seq + 1) msgs

def run (d : MoldUdpDecoder) (packets : List PacketView) : MoldUdpDecoder :=
  packets.foldl (fun d p => (d.processPacket p).2) d

/-- A packet occupies a slot of the gap buffer. -/
def Buffered (d : MoldUdpDecoder) (e : SequencedPacket) : Prop :=
  Probe.Has GapBuffer.kCapacity d.channel.gapBuffer.slots e

end MoldUdpDecoder

/-! ## Packets as a line sends them -/

/-- The `k` bytes of a number, the most significant first. -/
def bigEndian (k n : ℕ) : List UInt8 :=
  (List.range k).reverse.map fun i => (n / 256 ^ i).toUInt8

namespace PacketView

/-- A packet of the session of ten blanks. -/
def sent (firstSeq msgCount : ℕ) (msgs : List (List UInt8)) : PacketView where
  data := List.replicate kSessionSize (byte ' ') ++ bigEndian 8 firstSeq ++ bigEndian 2 msgCount
    ++ msgs.flatMap fun msg => bigEndian 2 msg.length ++ msg
  receiveStartTicks := 0

def sentData (firstSeq : ℕ) (msgs : List (List UInt8)) : PacketView :=
  sent firstSeq msgs.length msgs

def sentEndOfSession (firstSeq : ℕ) : PacketView := sent firstSeq 0xFFFF []

end PacketView

/-! ## Streams -/

/-- A start of messages at the sequence `1`, and the circuit breaker's status from then on. -/
def quietStream (seq : ℕ) : List UInt8 := if seq = 1 then systemEvent 'O' else breakerStatus

/-- Packets of the quiet stream that reach into one another; the first of them arrives last. -/
def overlappingPackets : List PacketView :=
  [(4, 2), (2, 3), (5, 4), (1, 2)].map fun a =>
    .sentData a.1 ((List.range' a.1 a.2).map quietStream)

/-- The parser after the messages of `M` with the `n` sequences from `first` on. -/
def ItchParser.fold (p : ItchParser) (M : ℕ → List UInt8) (first n : ℕ) : ItchParser :=
  (List.range' first n).foldl (fun p seq => (p.handleMessage (M seq)).2) p

end AstraFeed
