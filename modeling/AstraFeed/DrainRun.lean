import AstraFeed.DecoderInvariant
import AstraFeed.Lib.Loop

/-!
# Rounds of the drain

The body of the loop of `drainGapBuffer`, the states a run comes to, those the gap buffer is drained
from among them, and what a round of the loop may do.
-/

namespace AstraFeed

open MoldUdpPacketHeader Wire

/-- The sequence is that of one of the packet's messages. -/
def SequencedPacket.Contains (e : SequencedPacket) (seq : ℕ) : Prop :=
  e.seq.toNat ≤ seq ∧ seq < e.seq.toNat + e.msgCount.toNat

namespace MoldUdpDecoder

/-- The body of the loop of `drainGapBuffer`: it returns, or goes on with one packet less. -/
def drainRound : DecodeResult × MoldUdpDecoder →
    (DecodeResult × MoldUdpDecoder) ⊕ (DecodeResult × MoldUdpDecoder)
  | (aggregate, d) =>
    match d.drainCandidate with
    | none => .inl (aggregate, d)
    | some packet =>
      if packet.endSeq ≤ d.channel.nextExpectedSeq then
        .inr (aggregate, d.eraseBuffered packet.seq)
      else
        let out := d.processBuffered packet
        let aggregate := mergeLatency aggregate out.1
        let d := out.2.eraseBuffered packet.seq
        if out.1.status ≠ .ok then
          .inl ({ aggregate with status := out.1.status }, d.setStatus .invalid)
        else .inr (aggregate, d.setNextExpectedSeq packet.endSeq)

section Entry

variable (d : MoldUdpDecoder)

/-- The part of `applyInOrder` before the drain: the packet's own messages. -/
def applyOwn (packet : PacketView) (firstSeq : UInt64) (msgCount : UInt16) :
    Option MoldUdpDecoder :=
  let expected := d.channel.nextExpectedSeq
  let startSeq := if firstSeq < expected then expected else firstSeq
  let out := d.processSequencedPacket packet.data firstSeq msgCount startSeq
    packet.receiveStartTicks
  if out.1.status ≠ .ok then none
  else
    let d := if out.2.channel.status = .gapDetected then out.2.setStatus .recovering else out.2
    some (d.setNextExpectedSeq (firstSeq + msgCount.toUInt64))

/-- The state `processPacket` drains the gap buffer from, if it comes to that. -/
def drainEntry (packet : PacketView) : Option MoldUdpDecoder :=
  let msgCount := readU16BE packet.data 18
  let firstSeq := readU64BE packet.data 10
  if d.terminalStatus ≠ .ok ∨ packet.data.length < kHeaderSize ∨ msgCount = 0
      ∨ msgCount = kEndOfSessionMessageCount
      ∨ d.firstPacketSeen ∧ !d.channel.sessionMatches packet.data then none
  else
    let d := d.bindSession packet.data
    let packetEnd := firstSeq + msgCount.toUInt64
    if 0xFFFFFFFFFFFFFFFF - msgCount.toUInt64 < firstSeq
        ∨ validateSequencedPacket packet.data msgCount ≠ .ok
        ∨ d.pendingEndSequence ≠ 0 ∧ d.pendingEndSequence < packetEnd
        ∨ packetEnd ≤ d.channel.nextExpectedSeq ∨ d.channel.nextExpectedSeq < firstSeq then none
    else d.applyOwn packet firstSeq msgCount

/-- The states a run comes to, after a packet and inside one. -/
inductive Reachable : MoldUdpDecoder → Prop
  | after (packets : List PacketView) : Reachable (d.run packets)
  | draining (packets : List PacketView) (p : PacketView) (d' : MoldUdpDecoder)
      (h : (d.run packets).drainEntry p = some d') : Reachable d'

end Entry

/-- A round computes without going below zero or past the last sequence: the search looks at or
above zero, the ends of what it finds are ends, and a packet is replayed from one of its own
sequences. -/
structure InRange (d : MoldUdpDecoder) : Prop where
  candidate : ∀ distance ≤ min d.channel.nextExpectedSeq.toNat kMaxMessagesPerStoredPacket,
    (d.channel.nextExpectedSeq - distance.toUInt64).toNat + distance
      = d.channel.nextExpectedSeq.toNat
  packetEnd : ∀ seq e, d.channel.gapBuffer.find seq = some e →
    e.endSeq.toNat = e.seq.toNat + e.msgCount.toNat
  start : ∀ e, d.drainCandidate = some e → d.channel.nextExpectedSeq < e.endSeq →
    e.Contains d.channel.nextExpectedSeq.toNat

/-- One buffered packet is gone, and every other is still there. -/
def DropsOne (d d' : MoldUdpDecoder) : Prop :=
  ∃ e, Buffered d e ∧ (∀ f, Buffered d' f ↔ Buffered d f ∧ f ≠ e)
    ∧ d'.channel.gapBuffer.size + 1 = d.channel.gapBuffer.size

/-- Messages of buffered packets have been handed over, one sequence after the other from the next
one on. -/
structure Extends (d d' : MoldUdpDecoder) (msgs : List (UInt64 × List UInt8)) : Prop where
  handed : d'.handed = d.handed ++ msgs
  seqs : msgs.map (·.1.toNat) = List.range' d.channel.nextExpectedSeq.toNat msgs.length
  stored : ∀ m ∈ msgs, ∃ e, Buffered d e
    ∧ ∃ i, e.messages[i]? = some m.2 ∧ m.1.toNat = e.seq.toNat + i

end MoldUdpDecoder

end AstraFeed
