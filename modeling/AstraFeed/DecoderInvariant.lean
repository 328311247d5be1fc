import AstraFeed.DecoderRun

/-!
# The decoder's invariants

`Coherent` holds in every state of a run, `CaughtUp` until a packet is refused. Both are relative to
the parser and the sequence the run began with, and to a property `Q` of the messages of the run's
packets.
-/

namespace AstraFeed

open MoldUdpPacketHeader Wire

/-- The message has the length of its type. -/
def WellSized (msg : List UInt8) : Prop :=
  msg ≠ [] ∧ msg.length = expectedItchMessageLength (byteAt msg 0)

def SequencedPacket.messages (e : SequencedPacket) : List (List UInt8) :=
  framedMessages e.data e.msgCount.toNat kHeaderSize

/-- A packet as the gap buffer holds it. -/
structure SequencedPacket.WellFormed (Q : ℕ → List UInt8 → Prop) (e : SequencedPacket) :
    Prop where
  msgCount_ne_zero : e.msgCount ≠ 0
  endSeq_lt : e.seq.toNat + e.msgCount.toNat < 2 ^ 64
  size : e.data.length ≤ SequencedPacket.kMaxPacketSize
  valid : MoldUdpDecoder.validateSequencedPacket e.data e.msgCount = .ok
  messages : ∀ i msg, e.messages[i]? = some msg → Q (e.seq.toNat + i) msg

namespace MoldUdpDecoder

section Run

variable (first : ItchParser) (initial : UInt64) (Q : ℕ → List UInt8 → Prop)

/-- The messages handed over are those from `initial` on, the parser is what they make of `first`,
and the gap buffer holds well-formed packets. -/
structure Coherent (d : MoldUdpDecoder) : Prop where
  seqs : d.handed.map (·.1.toNat) = List.range' initial.toNat d.handed.length
  parser : d.parser = d.handed.foldl (fun p m => (p.handleMessage m.2).2) first
  phase : d.channel.phase = d.parser.channelPhase
  messages : ∀ m ∈ d.handed, Q m.1.toNat m.2
  buffered : ∀ e, Buffered d e → e.WellFormed Q
  sized : d.channel.gapBuffer.size
    = Probe.count GapBuffer.kCapacity d.channel.gapBuffer.slots

/-- The messages handed over are those below the next sequence. -/
def CaughtUp (d : MoldUdpDecoder) : Prop :=
  initial.toNat + d.handed.length = d.channel.nextExpectedSeq.toNat

end Run

/-- What applying messages keeps. -/
structure Moved (d d' : MoldUdpDecoder) : Prop where
  pending : d'.pendingEndSequence = d.pendingEndSequence
  terminal : d'.terminalStatus = d.terminalStatus
  watermark : d'.channel.heartbeatNextSeqHighWatermark = d.channel.heartbeatNextSeqHighWatermark
  seen : d'.firstPacketSeen = d.firstPacketSeen
  session : d'.channel.session = d.channel.session
  next : d.channel.nextExpectedSeq ≤ d'.channel.nextExpectedSeq

/-- What draining the gap buffer keeps: the next sequence moves on, and passes a sequence only by a
buffered packet that contains it, and the buffer holds fewer packets. -/
structure Forward (d d' : MoldUdpDecoder) : Prop extends Moved d d' where
  within : ∀ n, d.channel.nextExpectedSeq.toNat ≤ n →
    (∀ e, Buffered d e → e.seq.toNat ≤ n → e.endSeq.toNat ≤ n) →
    d'.channel.nextExpectedSeq.toNat ≤ n
  buffered : ∀ e, Buffered d' e → Buffered d e

/-- How the channel's fields belong together while the decoder is not terminal. A stale channel
keeps its watermark, so what is said of the watermark is for the others. -/
structure Health (d : MoldUdpDecoder) : Prop where
  not_invalid : d.channel.status ≠ .invalid
  good_iff : d.channel.status ≠ .stale → (d.channel.status = .good
    ↔ d.channel.gapBuffer.empty = true ∧ d.channel.heartbeatNextSeqHighWatermark = 0)
  watermark : d.channel.status ≠ .stale → d.channel.heartbeatNextSeqHighWatermark ≠ 0 →
    d.channel.nextExpectedSeq < d.channel.heartbeatNextSeqHighWatermark
  pending : d.pendingEndSequence ≠ 0 → d.channel.nextExpectedSeq ≤ d.pendingEndSequence
  pending_open : d.channel.status ≠ .stale → d.pendingEndSequence ≠ 0 →
    d.pendingEndSequence ≤ d.channel.heartbeatNextSeqHighWatermark
      ∨ d.pendingEndSequence = d.channel.nextExpectedSeq ∧ d.channel.gapBuffer.empty = false

/-- What the end of the stream was accepted on. -/
structure Ended (d : MoldUdpDecoder) : Prop where
  status : d.channel.status = .good
  empty : d.channel.gapBuffer.empty = true
  watermark : d.channel.heartbeatNextSeqHighWatermark = 0
  phase : d.channel.phase = .endOfMessages

end MoldUdpDecoder

end AstraFeed
