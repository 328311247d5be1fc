import AstraFeed.CheckedReads
import AstraFeed.MoldUdpDecoder

/-!
# The decoder with its reads checked

The pre-pass and the loop that hands messages over, each with the spans it walks over, as offsets
and lengths. A packet that reaches the parser is held against its pre-pass: `none` stands for a
read outside a span, for one of the exits the pre-pass should have made impossible, and for a
boundary the pre-pass did not see.
-/

namespace AstraFeed

open MoldUdpPacketHeader

namespace Checked

/-- The span of a message inside its packet. -/
def span (data : List UInt8) (off len : ℕ) : Option (List UInt8) :=
  if off + len ≤ data.length then some ((data.drop off).take len) else none

def validateLoop (data : List UInt8) : ℕ → ℕ → Option (List (ℕ × ℕ) × DecodeStatus)
  | 0, offset => some ([], if offset ≠ data.length then .invalidSize else .ok)
  | remaining + 1, offset =>
    if data.length < offset + 2 then some ([], .invalidSize)
    else
      (readU16BE data offset).bind fun msgLen =>
        let msgLen := msgLen.toNat
        let offset := offset + 2
        if msgLen = 0 ∨ data.length - offset < msgLen then some ([], .invalidSize)
        else
          (byteAt data offset).bind fun type =>
            let expectedLen := expectedItchMessageLength type
            if expectedLen = 0 ∨ msgLen ≠ expectedLen then some ([], .invalidItchMessage)
            else
              (validateLoop data remaining (offset + msgLen)).map fun out =>
                ((offset, msgLen) :: out.1, out.2)

def validateSequencedPacket (data : List UInt8) (msgCount : UInt16) :
    Option (List (ℕ × ℕ) × DecodeStatus) :=
  validateLoop data msgCount.toNat kHeaderSize

def handlePrevalidatedMessage (p : ItchParser) (msg : List UInt8) : Option (Bool × ItchParser) :=
  if msg = [] then some (false, p.cleared.fail .emptyPrevalidatedMessage)
  else dispatchMessage p.cleared msg

def handMessage (d : MoldUdpDecoder) (messageSeq : UInt64) (msg : List UInt8) :
    Option MoldUdpDecoder :=
  (handlePrevalidatedMessage d.parser msg).map fun out =>
    { d with
      parser := out.2
      channel := { d.channel with phase := out.2.channelPhase }
      handed := d.handed ++ [(messageSeq, msg)] }

/-- What `reportMessageFailure` is told of the message: its type and its locate. -/
def reported (data : List UInt8) (offset : ℕ) : Option (UInt8 × UInt16) := do
  let type ← byteAt data offset
  let locate ← readU16BE data (offset + 1)
  return (type, locate)

def processLoop (data : List UInt8) (startSeq : UInt64) :
    ℕ → ℕ → UInt64 → UInt64 → MoldUdpDecoder →
      Option (List (ℕ × ℕ) × DecodeStatus × UInt64 × MoldUdpDecoder)
  | 0, _, _, processedMessages, d => some ([], .ok, processedMessages, d)
  | remaining + 1, offset, messageSeq, processedMessages, d =>
    if data.length < offset + 2 then some ([], .invalidSize, processedMessages, d)
    else
      (readU16BE data offset).bind fun msgLen =>
        let msgLen := msgLen.toNat
        let offset := offset + 2
        if msgLen = 0 ∨ data.length < offset + msgLen then
          some ([], .invalidSize, processedMessages, d)
        else if startSeq ≤ messageSeq then
          (span data offset msgLen).bind fun msg =>
            (handMessage d messageSeq msg).bind fun d =>
              if d.parser.lastError ≠ none then
                (reported data offset).map fun _ =>
                  ([(offset, msgLen)], .invalidItchMessage, processedMessages,
                    d.setStatus .invalid)
              else
                (processLoop data startSeq remaining (offset + msgLen) (messageSeq + 1)
                  (processedMessages + 1) d).map fun out => ((offset, msgLen) :: out.1, out.2)
        else
          (processLoop data startSeq remaining (offset + msgLen) (messageSeq + 1)
            processedMessages d).map fun out => ((offset, msgLen) :: out.1, out.2)

def processSequencedPacket (d : MoldUdpDecoder) (data : List UInt8) (firstSeq : UInt64)
    (msgCount : UInt16) (startSeq receiveStartTicks : UInt64) :
    Option (List (ℕ × ℕ) × DecodeResult × MoldUdpDecoder) :=
  let packetEnd := firstSeq + msgCount.toUInt64
  if startSeq < firstSeq ∨ packetEnd < startSeq then some ([], { status := .invalidSequence }, d)
  else
    (processLoop data startSeq msgCount.toNat kHeaderSize firstSeq 0 d).map fun out =>
      (out.1,
        if out.2.1 ≠ .ok then ({ status := out.2.1 }, out.2.2.2)
        else if receiveStartTicks ≠ 0 ∧ out.2.2.1 ≠ 0 then
          ({ status := .ok, latencySampleCount := out.2.2.1 }, out.2.2.2)
        else ({ status := .ok }, out.2.2.2))

/-- The packet is walked over as the pre-pass walked over it: up to a message that is refused, or
to its end. -/
def Foreseen (spans walked : List (ℕ × ℕ)) (status : DecodeStatus) : Prop :=
  walked <+: spans ∧ status ≠ .invalidSize ∧ status ≠ .invalidSequence
    ∧ (status = .ok → walked = spans)

instance (spans walked : List (ℕ × ℕ)) (status : DecodeStatus) :
    Decidable (Foreseen spans walked status) :=
  inferInstanceAs (Decidable (_ ∧ _))

/-- `processSequencedPacket`, held against the pre-pass over the same bytes. -/
def processForeseen (d : MoldUdpDecoder) (data : List UInt8) (firstSeq : UInt64)
    (msgCount : UInt16) (startSeq receiveStartTicks : UInt64) :
    Option (DecodeResult × MoldUdpDecoder) := do
  let (spans, validated) ← validateSequencedPacket data msgCount
  let (walked, out) ←
    processSequencedPacket d data firstSeq msgCount startSeq receiveStartTicks
  if validated = .ok ∧ Foreseen spans walked out.1.status then some out else none

def processBuffered (d : MoldUdpDecoder) (packet : SequencedPacket) :
    Option (DecodeResult × MoldUdpDecoder) :=
  processForeseen d packet.data packet.seq packet.msgCount d.channel.nextExpectedSeq
    packet.receiveStartTicks

def drainLoop : ℕ → DecodeResult → MoldUdpDecoder → Option (DecodeResult × MoldUdpDecoder)
  | 0, aggregate, d => some (aggregate, d)
  | fuel + 1, aggregate, d =>
    match d.drainCandidate with
    | none => some (aggregate, d)
    | some packet =>
      if packet.endSeq ≤ d.channel.nextExpectedSeq then
        drainLoop fuel aggregate (d.eraseBuffered packet.seq)
      else
        (processBuffered d packet).bind fun out =>
          let aggregate := mergeLatency aggregate out.1
          let d := out.2.eraseBuffered packet.seq
          if out.1.status ≠ .ok then
            some ({ aggregate with status := out.1.status }, d.setStatus .invalid)
          else drainLoop fuel aggregate (d.setNextExpectedSeq packet.endSeq)

def drainGapBuffer (d : MoldUdpDecoder) : Option (DecodeResult × MoldUdpDecoder) :=
  drainLoop (d.channel.gapBuffer.size + 1) {} d

def applyInOrder (d : MoldUdpDecoder) (packet : PacketView) (firstSeq : UInt64)
    (msgCount : UInt16) : Option (DecodeResult × MoldUdpDecoder) :=
  let expected := d.channel.nextExpectedSeq
  let startSeq := if firstSeq < expected then expected else firstSeq
  (processForeseen d packet.data firstSeq msgCount startSeq packet.receiveStartTicks).bind
    fun out =>
      if out.1.status ≠ .ok then some (out.2.terminalFailure out.1.status)
      else
        let d := if out.2.channel.status = .gapDetected then out.2.setStatus .recovering else out.2
        let d := d.setNextExpectedSeq (firstSeq + msgCount.toUInt64)
        let hadGap := d.channel.status = .gapDetected ∨ d.channel.status = .recovering
        (drainGapBuffer d).map fun drained =>
          let result := mergeLatency out.1 drained.1
          if drained.1.status ≠ .ok then drained.2.terminalFailure drained.1.status
          else drained.2.concludeInOrder result hadGap

def processData (d : MoldUdpDecoder) (packet : PacketView) (firstSeq : UInt64)
    (msgCount : UInt16) : Option (DecodeResult × MoldUdpDecoder) :=
  if 0xFFFFFFFFFFFFFFFF - msgCount.toUInt64 < firstSeq then
    some (d.terminalFailure .invalidSequence)
  else
    (validateSequencedPacket packet.data msgCount).bind fun validation =>
      if validation.2 ≠ .ok then some (d.terminalFailure validation.2)
      else
        let packetEnd := firstSeq + msgCount.toUInt64
        if d.pendingEndSequence ≠ 0 ∧ d.pendingEndSequence < packetEnd then
          some (d.terminalFailure .invalidSequence)
        else if packetEnd ≤ d.channel.nextExpectedSeq then some ({ status := .ok }, d)
        else if d.channel.nextExpectedSeq < firstSeq then
          some (d.bufferAhead packet firstSeq msgCount)
        else applyInOrder d packet firstSeq msgCount

def processPacket (d : MoldUdpDecoder) (packet : PacketView) :
    Option (DecodeResult × MoldUdpDecoder) :=
  if d.terminalStatus ≠ .ok then some ({ status := d.terminalStatus }, d)
  else if packet.data.length < kHeaderSize then some ({ status := .packetTooSmall }, d)
  else do
    let msgCount ← readU16BE packet.data 18
    let firstSeq ← readU64BE packet.data 10
    if (msgCount = 0 ∨ msgCount = kEndOfSessionMessageCount)
        ∧ packet.data.length ≠ kHeaderSize then
      some (d.terminalFailure .invalidSize)
    else if d.firstPacketSeen ∧ !d.channel.sessionMatches packet.data then
      some (d.terminalFailure .invalidSession)
    else
      let d := d.bindSession packet.data
      if msgCount = kEndOfSessionMessageCount then some (d.processEndOfSession firstSeq)
      else if msgCount = 0 then some (d.processHeartbeat firstSeq)
      else processData d packet firstSeq msgCount

end Checked

end AstraFeed
