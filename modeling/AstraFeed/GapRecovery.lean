import AstraFeed.DecoderRun
import AstraFeed.Lib.Sweep

/-!
# Recovery from gaps

What a run must be given to recover every message below an end, and which packets the drain leaves
behind.
-/

namespace AstraFeed

namespace MoldUdpDecoder

/-- The packets are cut from a stream `M` the parser accepts, cover it from `initial` to `last`, are
identical where they begin alike, and are never too many for the gap buffer. -/
structure Recoverable (symbols : StockDirectory) (books : BookManager) (initial last : UInt64)
    (M : ℕ → List UInt8) (session : List UInt8) (packets : List PacketView) : Prop where
  initial_le : initial ≤ last
  session : ∀ p ∈ packets, p.session = session
  kinds : ∀ p ∈ packets, p.IsData ∧ p.data.length ≤ SequencedPacket.kMaxPacketSize ∧ p.SliceOf M
      ∧ p.endSeq ≤ last
    ∨ p.IsHeartbeat ∧ p.firstSeq ≤ last
  identical : ∀ p ∈ packets, ∀ q ∈ packets, p.IsData → q.IsData → p.firstSeq = q.firstSeq →
    p.data = q.data
  covers : ∀ seq, initial.toNat ≤ seq → seq < last.toNat → ∃ p ∈ packets, p.IsData ∧ p.Carries seq
  accepted : ∀ k < last.toNat - initial.toNat,
    ((ItchParser.create symbols books).fold M initial.toNat (k + 1)).lastError = none
  notFull : ∀ before after, packets = before ++ after →
    ((create symbols books initial).run before).channel.gapBuffer.size < GapBuffer.kCapacity

/-- Every message below `last` was handed over, nothing is missing or kept back, and the end of the
session at `last` is not out of sequence. -/
structure Recovered (last : UInt64) (session : List UInt8) (d : MoldUdpDecoder) : Prop where
  next : d.channel.nextExpectedSeq = last
  empty : d.channel.gapBuffer.empty = true
  watermark : d.channel.heartbeatNextSeqHighWatermark = 0
  status : d.channel.status = .good
  marker : ∀ m : PacketView, m.IsEndOfSession → m.session = session → m.firstSeq = last →
    (d.processPacket m).1.status ≠ .invalidSequence

/-- A packet that carries the next sequence makes the drain leave a buffered packet behind: from the
packet's end it gets more than `144` past the buffered packet's first sequence, at every sequence on
its way inside packets that begin later. -/
def Overtakes (d : MoldUdpDecoder) (p : PacketView) : Prop :=
  p.IsData ∧ p.firstSeq ≤ d.channel.nextExpectedSeq ∧ d.channel.nextExpectedSeq < p.endSeq
    ∧ ∃ e, Sweep.Overtaken (·.seq.toNat) (·.endSeq.toNat) {e | Buffered d e}
      kMaxMessagesPerStoredPacket p.endSeq.toNat e

/-- The first packet to arrive is the second message alone; twelve packets later the two first
messages arrive together. -/
def latePackets : List PacketView :=
  .sentData 2 [quietStream 2]
    :: (List.range 12).map (fun k => .sentData (3 + 12 * k)
      ((List.range' (3 + 12 * k) 12).map quietStream))
    ++ [.sentData 1 [quietStream 1, quietStream 2]]

end MoldUdpDecoder

end AstraFeed
