import AstraFeed.GapBuffer
import AstraFeed.ItchParser

/-!
# The MoldUDP64 decoder

One session's packets, from any number of redundant lines, are merged into one sequence of messages
for the parser. A packet ahead of a gap waits in the gap buffer until what it needs has arrived.
-/

namespace AstraFeed

/-- A null pointer is the empty list: both are refused as too small. -/
structure PacketView where
  data : List UInt8
  receiveStartTicks : UInt64

inductive ChannelHealth
  | good
  | gapDetected
  | recovering
  | stale
  | invalid
  deriving DecidableEq, Repr

inductive DecodeStatus
  | ok
  | packetTooSmall
  | invalidMessageType
  | invalidSize
  | unSupportedVersion
  | invalidOrderSide
  | heartbeat
  | endOfStream
  | invalidSequence
  | invalidSession
  | redundantFeedMismatch
  | invalidItchMessage
  | incompleteSession
  deriving DecidableEq, Repr

def isTerminalDecodeFailure : DecodeStatus → Bool
  | .invalidSize => true
  | .invalidSequence => true
  | .invalidSession => true
  | .redundantFeedMismatch => true
  | .invalidItchMessage => true
  | .incompleteSession => true
  | _ => false

/-- Without the measured time `latency_total_ns`. -/
structure DecodeResult where
  status : DecodeStatus := .ok
  hadGap : Bool := false
  latencySampleCount : UInt64 := 0
  deriving DecidableEq, Repr

def mergeLatency (target source : DecodeResult) : DecodeResult :=
  { target with latencySampleCount := target.latencySampleCount + source.latencySampleCount }

namespace MoldUdpPacketHeader

def kSessionSize : ℕ := 10

def kHeaderSize : ℕ := 20

def kEndOfSessionMessageCount : UInt16 := 0xFFFF

end MoldUdpPacketHeader

open MoldUdpPacketHeader

structure ChannelState where
  session : List UInt8 := List.replicate kSessionSize 0
  nextExpectedSeq : UInt64 := 1
  heartbeatNextSeqHighWatermark : UInt64 := 0
  identicalBufferedRedundantPackets : UInt64 := 0
  conflictingBufferedRedundantPackets : UInt64 := 0
  status : ChannelHealth := .good
  phase : ChannelPhase := .waitingStartOfMessages
  gapBuffer : GapBuffer := .fresh

namespace ChannelState

def setSession (c : ChannelState) (bytes : List UInt8) : ChannelState :=
  { c with session := bytes.take kSessionSize }

def sessionMatches (c : ChannelState) (bytes : List UInt8) : Bool :=
  c.session = bytes.take kSessionSize

end ChannelState

/-- `2 + 12`: a length field and the shortest message. -/
def kMinimumFramedItchMessageBytes : ℕ := 2 + 12

def kMaxMessagesPerStoredPacket : ℕ :=
  (SequencedPacket.kMaxPacketSize - kHeaderSize) / kMinimumFramedItchMessageBytes

/-- The sequence after the packet's last. -/
def SequencedPacket.endSeq (e : SequencedPacket) : UInt64 := e.seq + e.msgCount.toUInt64

/-- `handed` records the messages handed to the parser with their sequences; the code does not keep
it. -/
structure MoldUdpDecoder where
  firstPacketSeen : Bool
  pendingEndSequence : UInt64
  terminalStatus : DecodeStatus
  channel : ChannelState
  parser : ItchParser
  handed : List (UInt64 × List UInt8)

namespace MoldUdpDecoder

open Wire

def create (symbols : StockDirectory) (books : BookManager) (initialExpectedSequence : UInt64) :
    MoldUdpDecoder where
  firstPacketSeen := false
  pendingEndSequence := 0
  terminalStatus := .ok
  channel := { nextExpectedSeq := initialExpectedSequence }
  parser := .create symbols books
  handed := []

/-- The loop of `validateSequencedPacket`, with `remaining` messages left. -/
def validateLoop (data : List UInt8) : ℕ → ℕ → DecodeStatus
  | 0, offset => if offset ≠ data.length then .invalidSize else .ok
  | remaining + 1, offset =>
    if data.length < offset + 2 then .invalidSize
    else
      let msgLen := (readU16BE data offset).toNat
      let offset := offset + 2
      if msgLen = 0 ∨ data.length - offset < msgLen then .invalidSize
      else
        let expectedLen := expectedItchMessageLength (byteAt data offset)
        if expectedLen = 0 ∨ msgLen ≠ expectedLen then .invalidItchMessage
        else validateLoop data remaining (offset + msgLen)

/-- The framing and every message's length, before anything of the packet is applied. -/
def validateSequencedPacket (data : List UInt8) (msgCount : UInt16) : DecodeStatus :=
  validateLoop data msgCount.toNat kHeaderSize

section Steps

variable (d : MoldUdpDecoder)

def setStatus (status : ChannelHealth) : MoldUdpDecoder :=
  { d with channel := { d.channel with status := status } }

def setNextExpectedSeq (seq : UInt64) : MoldUdpDecoder :=
  { d with channel := { d.channel with nextExpectedSeq := seq } }

def setWatermark (seq : UInt64) : MoldUdpDecoder :=
  { d with channel := { d.channel with heartbeatNextSeqHighWatermark := seq } }

def eraseBuffered (seq : UInt64) : MoldUdpDecoder :=
  { d with channel := { d.channel with gapBuffer := d.channel.gapBuffer.erase seq } }

def terminalFailure (status : DecodeStatus) : DecodeResult × MoldUdpDecoder :=
  ({ status := status }, { d.setStatus .invalid with terminalStatus := status })

/-- One message is handed to the parser, and the channel takes the parser's phase. -/
def handMessage (messageSeq : UInt64) (msg : List UInt8) : MoldUdpDecoder :=
  let parser := (d.parser.handlePrevalidatedMessage msg).2
  { d with
    parser := parser
    channel := { d.channel with phase := parser.channelPhase }
    handed := d.handed ++ [(messageSeq, msg)] }

end Steps

/-- The loop of `processSequencedPacket`, with `remaining` messages left. -/
def processLoop (data : List UInt8) (startSeq : UInt64) :
    ℕ → ℕ → UInt64 → UInt64 → MoldUdpDecoder → DecodeStatus × UInt64 × MoldUdpDecoder
  | 0, _, _, processedMessages, d => (.ok, processedMessages, d)
  | remaining + 1, offset, messageSeq, processedMessages, d =>
    if data.length < offset + 2 then (.invalidSize, processedMessages, d)
    else
      let msgLen := (readU16BE data offset).toNat
      let offset := offset + 2
      if msgLen = 0 ∨ data.length < offset + msgLen then (.invalidSize, processedMessages, d)
      else if startSeq ≤ messageSeq then
        let d := d.handMessage messageSeq ((data.drop offset).take msgLen)
        if d.parser.lastError ≠ none then
          (.invalidItchMessage, processedMessages, d.setStatus .invalid)
        else
          processLoop data startSeq remaining (offset + msgLen) (messageSeq + 1)
            (processedMessages + 1) d
      else
        processLoop data startSeq remaining (offset + msgLen) (messageSeq + 1)
          processedMessages d

section Packets

variable (d : MoldUdpDecoder)

def processSequencedPacket (data : List UInt8) (firstSeq : UInt64) (msgCount : UInt16)
    (startSeq receiveStartTicks : UInt64) : DecodeResult × MoldUdpDecoder :=
  let packetEnd := firstSeq + msgCount.toUInt64
  if startSeq < firstSeq ∨ packetEnd < startSeq then ({ status := .invalidSequence }, d)
  else
    let out := processLoop data startSeq msgCount.toNat kHeaderSize firstSeq 0 d
    if out.1 ≠ .ok then ({ status := out.1 }, out.2.2)
    else if receiveStartTicks ≠ 0 ∧ out.2.1 ≠ 0 then
      ({ status := .ok, latencySampleCount := out.2.1 }, out.2.2)
    else ({ status := .ok }, out.2.2)

/-- The buffered packet the drain takes up: the first found going back from the next sequence. -/
def drainCandidate : Option SequencedPacket :=
  let next := d.channel.nextExpectedSeq
  let maxDistance := min next.toNat kMaxMessagesPerStoredPacket
  (List.range (maxDistance + 1)).findSome? fun distance =>
    d.channel.gapBuffer.find (next - distance.toUInt64)

/-- The unseen tail of a buffered packet. -/
def processBuffered (packet : SequencedPacket) : DecodeResult × MoldUdpDecoder :=
  d.processSequencedPacket packet.data packet.seq packet.msgCount d.channel.nextExpectedSeq
    packet.receiveStartTicks

end Packets

/-- The loop of `drainGapBuffer`. Every round erases a packet, so the fuel `drainGapBuffer` gives
is never used up (`drainGapBuffer_returns`). -/
def drainLoop : ℕ → DecodeResult → MoldUdpDecoder → DecodeResult × MoldUdpDecoder
  | 0, aggregate, d => (aggregate, d)
  | fuel + 1, aggregate, d =>
    match d.drainCandidate with
    | none => (aggregate, d)
    | some packet =>
      -- a packet that was overtaken is only erased
      if packet.endSeq ≤ d.channel.nextExpectedSeq then
        drainLoop fuel aggregate (d.eraseBuffered packet.seq)
      else
        let out := d.processBuffered packet
        let aggregate := mergeLatency aggregate out.1
        let d := out.2.eraseBuffered packet.seq
        if out.1.status ≠ .ok then
          ({ aggregate with status := out.1.status }, d.setStatus .invalid)
        else drainLoop fuel aggregate (d.setNextExpectedSeq packet.endSeq)

section Packets

variable (d : MoldUdpDecoder)

def drainGapBuffer : DecodeResult × MoldUdpDecoder :=
  drainLoop (d.channel.gapBuffer.size + 1) {} d

def resolvePendingEndOfStream : DecodeStatus × MoldUdpDecoder :=
  let c := d.channel
  if d.pendingEndSequence = 0 ∨ c.nextExpectedSeq < d.pendingEndSequence then (.ok, d)
  else if d.pendingEndSequence < c.nextExpectedSeq then (.invalidSequence, d)
  else if c.status ≠ .good ∨ !c.gapBuffer.empty ∨ c.heartbeatNextSeqHighWatermark ≠ 0 then
    (.ok, d)
  else if c.phase ≠ .endOfMessages then (.incompleteSession, d)
  else (.endOfStream, { d with pendingEndSequence := 0, terminalStatus := .endOfStream })

/-- The end-of-session branch of `processPacket`. -/
def processEndOfSession (firstSeq : UInt64) : DecodeResult × MoldUdpDecoder :=
  let c := d.channel
  if firstSeq < c.nextExpectedSeq
      ∨ (d.pendingEndSequence ≠ 0 ∧ d.pendingEndSequence ≠ firstSeq)
      ∨ firstSeq < c.heartbeatNextSeqHighWatermark then
    d.terminalFailure .invalidSequence
  else if c.nextExpectedSeq < firstSeq then
    -- one line's end can arrive before the other line has supplied a missing packet
    if c.phase = .endOfMessages ∨ c.status = .invalid ∨ c.status = .stale then
      d.terminalFailure .invalidSequence
    else
      let d := { d with pendingEndSequence := firstSeq }
      let d := d.setWatermark (max c.heartbeatNextSeqHighWatermark firstSeq)
      ({ status := .ok, hadGap := true }, d.setStatus .gapDetected)
  else if c.status ≠ .good ∨ !c.gapBuffer.empty ∨ c.heartbeatNextSeqHighWatermark ≠ 0 then
    d.terminalFailure .invalidSequence
  else if c.phase ≠ .endOfMessages then d.terminalFailure .incompleteSession
  else ({ status := .endOfStream }, { d with terminalStatus := .endOfStream })

/-- The heartbeat branch of `processPacket`. -/
def processHeartbeat (firstSeq : UInt64) : DecodeResult × MoldUdpDecoder :=
  let c := d.channel
  if d.pendingEndSequence ≠ 0 ∧ d.pendingEndSequence < firstSeq then
    d.terminalFailure .invalidSequence
  else if c.nextExpectedSeq < firstSeq then
    let d := d.setWatermark (max c.heartbeatNextSeqHighWatermark firstSeq)
    ({ status := .ok, hadGap := true },
      if c.status ≠ .stale ∧ c.status ≠ .invalid then d.setStatus .gapDetected else d)
  else if c.heartbeatNextSeqHighWatermark ≠ 0
      ∧ c.heartbeatNextSeqHighWatermark ≤ c.nextExpectedSeq then
    let d := d.setWatermark 0
    ({ status := .ok },
      if c.gapBuffer.empty ∧ c.status ≠ .invalid ∧ c.status ≠ .stale then d.setStatus .good else d)
  else ({ status := .ok }, d)

/-- A packet ahead of the next sequence. -/
def bufferAhead (packet : PacketView) (firstSeq : UInt64) (msgCount : UInt16) :
    DecodeResult × MoldUdpDecoder :=
  let alreadyStale := d.channel.status = .stale
  let d := d.setStatus .gapDetected
  if alreadyStale then ({ status := .ok, hadGap := true }, d.setStatus .stale)
  else if SequencedPacket.kMaxPacketSize < packet.data.length then d.terminalFailure .invalidSize
  else
    let out := d.channel.gapBuffer.insert
      ⟨firstSeq, packet.receiveStartTicks, msgCount, packet.data⟩
    let c := { d.channel with gapBuffer := out.2 }
    match out.1 with
    | .conflictingDuplicate =>
      terminalFailure { d with channel := { c with
        conflictingBufferedRedundantPackets := c.conflictingBufferedRedundantPackets + 1 } }
        .redundantFeedMismatch
    | .duplicateIdentical =>
      ({ status := .ok, hadGap := true }, { d with channel := { c with
        identicalBufferedRedundantPackets := c.identicalBufferedRedundantPackets + 1 } })
    | .inserted => ({ status := .ok, hadGap := true }, { d with channel := c })
    | _ => ({ status := .ok, hadGap := true }, setStatus { d with channel := c } .stale)

/-- The watermark and the status after an in-order packet and the drain. -/
def settle : MoldUdpDecoder :=
  if d.channel.status ≠ .invalid ∧ d.channel.status ≠ .stale then
    let d :=
      if d.channel.heartbeatNextSeqHighWatermark ≠ 0
          ∧ d.channel.heartbeatNextSeqHighWatermark ≤ d.channel.nextExpectedSeq then
        d.setWatermark 0
      else d
    let resolved := d.channel.gapBuffer.empty ∧ d.channel.heartbeatNextSeqHighWatermark = 0
    d.setStatus (if resolved then .good else .recovering)
  else d

/-- What `processPacket` does once the drain of an in-order packet has ended well. -/
def concludeInOrder (result : DecodeResult) (hadGap : Bool) : DecodeResult × MoldUdpDecoder :=
  let d := d.settle
  let result := { result with hadGap := hadGap }
  let out := d.resolvePendingEndOfStream
  if out.1 ≠ .ok then
    if out.1 = .endOfStream then ({ result with status := out.1 }, out.2)
    else out.2.terminalFailure out.1
  else (result, out.2)

/-- A packet that carries the next sequence. -/
def applyInOrder (packet : PacketView) (firstSeq : UInt64) (msgCount : UInt16) :
    DecodeResult × MoldUdpDecoder :=
  let expected := d.channel.nextExpectedSeq
  let startSeq := if firstSeq < expected then expected else firstSeq
  let out := d.processSequencedPacket packet.data firstSeq msgCount startSeq
    packet.receiveStartTicks
  if out.1.status ≠ .ok then out.2.terminalFailure out.1.status
  else
    let d := if out.2.channel.status = .gapDetected then out.2.setStatus .recovering else out.2
    let d := d.setNextExpectedSeq (firstSeq + msgCount.toUInt64)
    let hadGap := d.channel.status = .gapDetected ∨ d.channel.status = .recovering
    let drained := d.drainGapBuffer
    let result := mergeLatency out.1 drained.1
    if drained.1.status ≠ .ok then drained.2.terminalFailure drained.1.status
    else drained.2.concludeInOrder result hadGap

/-- The part of `processPacket` for packets with messages. -/
def processData (packet : PacketView) (firstSeq : UInt64) (msgCount : UInt16) :
    DecodeResult × MoldUdpDecoder :=
  if 0xFFFFFFFFFFFFFFFF - msgCount.toUInt64 < firstSeq then d.terminalFailure .invalidSequence
  else
    let validationStatus := validateSequencedPacket packet.data msgCount
    if validationStatus ≠ .ok then d.terminalFailure validationStatus
    else
      let packetEnd := firstSeq + msgCount.toUInt64
      if d.pendingEndSequence ≠ 0 ∧ d.pendingEndSequence < packetEnd then
        d.terminalFailure .invalidSequence
      else if packetEnd ≤ d.channel.nextExpectedSeq then ({ status := .ok }, d)
      else if d.channel.nextExpectedSeq < firstSeq then d.bufferAhead packet firstSeq msgCount
      else d.applyInOrder packet firstSeq msgCount

/-- The first packet binds the decoder to its session. -/
def bindSession (data : List UInt8) : MoldUdpDecoder :=
  if d.firstPacketSeen then d
  else { d with firstPacketSeen := true, channel := d.channel.setSession data }

def processPacket (packet : PacketView) : DecodeResult × MoldUdpDecoder :=
  if d.terminalStatus ≠ .ok then ({ status := d.terminalStatus }, d)
  else if packet.data.length < kHeaderSize then ({ status := .packetTooSmall }, d)
  else
    let msgCount := readU16BE packet.data 18
    let firstSeq := readU64BE packet.data 10
    if (msgCount = 0 ∨ msgCount = kEndOfSessionMessageCount)
        ∧ packet.data.length ≠ kHeaderSize then
      d.terminalFailure .invalidSize
    else if d.firstPacketSeen ∧ !d.channel.sessionMatches packet.data then
      d.terminalFailure .invalidSession
    else
      let d := d.bindSession packet.data
      if msgCount = kEndOfSessionMessageCount then d.processEndOfSession firstSeq
      else if msgCount = 0 then d.processHeartbeat firstSeq
      else d.processData packet firstSeq msgCount

end Packets

end MoldUdpDecoder

end AstraFeed
