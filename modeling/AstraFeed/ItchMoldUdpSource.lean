import AstraFeed.DecoderInvariant
import AstraFeed.Lib.BigEndian

/-!
# The BinaryFILE source

A BinaryFILE is read record by record and sent on as MoldUDP64 packets. `Records` and `InGrammar`
say what the file may hold, apart from how it is read.
-/

namespace AstraFeed

open MoldUdpPacketHeader Wire ItchParser

inductive CompletionPolicy
  | requireTerminator
  | allowEofAfterEndOfMessages
  deriving DecidableEq

inductive CompletionKind
  | none
  | terminator
  | legacyEndOfMessagesEof
  deriving DecidableEq

inductive SourceError
  | sessionTooLong
  | zeroMessagesPerPacket
  | eofBeforeTerminator
  | truncatedLength
  | dataAfterTerminator
  | terminatorBeforeEndOfMessages
  | recordAfterEndOfMessages
  | messageTooLarge
  | truncatedPayload
  | unsupportedType
  | invalidLength
  | systemEventLocate
  | firstNotStartOfMessages
  deriving DecidableEq

def SourceError.text : SourceError → String
  | .sessionTooLong => "MoldUDP64 session must not exceed 10 bytes"
  | .zeroMessagesPerPacket => "msgs_per_packet must be greater than zero"
  | .eofBeforeTerminator => "physical EOF before zero-length BinaryFILE terminator"
  | .truncatedLength => "truncated ITCH message-length prefix"
  | .dataAfterTerminator => "data follows zero-length BinaryFILE terminator"
  | .terminatorBeforeEndOfMessages => "BinaryFILE terminator before ITCH System Event C"
  | .recordAfterEndOfMessages => "ITCH record follows System Event C"
  | .messageTooLarge => "ITCH message is too large for a MoldUDP packet"
  | .truncatedPayload => "truncated ITCH message payload"
  | .unsupportedType => "unsupported ITCH message type"
  | .invalidLength => "invalid ITCH message length"
  | .systemEventLocate => "System Event stock locate is not zero"
  | .firstNotStartOfMessages => "first ITCH record is not System Event O"

/-- A file that was opened; its size fits a stream offset. -/
structure BinaryFile where
  bytes : List UInt8
  size_lt : bytes.length < 2 ^ 63

def writeU16BE (v : UInt16) : List UInt8 := [(v >>> 8 &&& 0xFF).toUInt8, (v &&& 0xFF).toUInt8]

/-- The loop of `writeU64BE`, the last byte first. -/
def writeLoop : ℕ → UInt64 → List UInt8 → List UInt8
  | 0, _, bytes => bytes
  | i + 1, v, bytes => writeLoop i (v >>> 8) ((v &&& 0xFF).toUInt8 :: bytes)

def writeU64BE (v : UInt64) : List UInt8 := writeLoop 8 v []

/-- `input` is what is left of the file. -/
structure ItchMoldUdpSource where
  input : List UInt8
  session : List UInt8
  msgsPerPacket : UInt16
  completionPolicy : CompletionPolicy
  nextSeq : UInt64
  lastError : Option SourceError
  eof : Bool
  completed : Bool
  sawMessage : Bool
  lastMessageWasEndOfMessages : Bool
  completionKind : CompletionKind

namespace ItchMoldUdpSource

def kMoldHeaderSize : ℕ := 20

def kStandardIpv4UdpPayloadBytes : ℕ := 1472

def kMaxPacketBytes : ℕ :=
  if kStandardIpv4UdpPayloadBytes < SequencedPacket.kMaxPacketSize then
    kStandardIpv4UdpPayloadBytes
  else SequencedPacket.kMaxPacketSize

/-- `session_.resize(10, ' ')`. -/
def resizeSession (session : List UInt8) : List UInt8 :=
  (session ++ List.replicate kSessionSize (byte ' ')).take kSessionSize

def fail (s : ItchMoldUdpSource) (error : SourceError) : ItchMoldUdpSource :=
  { s with eof := true, lastError := some error }

def create (file : BinaryFile) (session : List UInt8) (msgsPerPacket : UInt16)
    (completionPolicy : CompletionPolicy) : ItchMoldUdpSource :=
  let s : ItchMoldUdpSource :=
    { input := file.bytes
      session := resizeSession session
      msgsPerPacket := msgsPerPacket
      completionPolicy := completionPolicy
      nextSeq := 1
      lastError := none
      eof := false
      completed := false
      sawMessage := false
      lastMessageWasEndOfMessages := false
      completionKind := .none }
  if kSessionSize < session.length then s.fail .sessionTooLong
  else if msgsPerPacket = 0 then s.fail .zeroMessagesPerPacket
  else s

/-- The payload of a record and the checks on it. Nothing is read after a failure, so the position
it leaves is that before the record. -/
def readPayload (s : ItchMoldUdpSource) (rest : List UInt8) (msgLen : ℕ) :
    Except ItchMoldUdpSource (List UInt8 × ItchMoldUdpSource) :=
  let msg := rest.take msgLen
  let expectedLength := expectedItchMessageLength (byteAt msg 0)
  if msg.length ≠ msgLen then .error (s.fail .truncatedPayload)
  else if expectedLength = 0 then .error (s.fail .unsupportedType)
  else if msgLen ≠ expectedLength then .error (s.fail .invalidLength)
  else if byteAt msg 0 = byte 'S' ∧ (byteAt msg 1 ≠ 0 ∨ byteAt msg 2 ≠ 0) then
    .error (s.fail .systemEventLocate)
  else if !s.sawMessage ∧ ¬ IsEvent msg 'O' then .error (s.fail .firstNotStartOfMessages)
  else
    .ok (msg, { s with
      input := rest.drop msgLen
      sawMessage := true
      lastMessageWasEndOfMessages := IsEvent msg 'C'
      nextSeq := s.nextSeq + 1 })

/-- The loop of `next` up to the record: what a round that breaks leaves, or the record. -/
def readRecord (s : ItchMoldUdpSource) (count : UInt16) (offset : ℕ) :
    Except ItchMoldUdpSource (List UInt8 × ItchMoldUdpSource) :=
  let lenBytes := s.input.take 2
  let rest := s.input.drop 2
  if lenBytes.length = 0 then
    .error (if s.completionPolicy = .allowEofAfterEndOfMessages ∧ s.lastMessageWasEndOfMessages then
      { s with eof := true, completed := true, completionKind := .legacyEndOfMessagesEof }
    else s.fail .eofBeforeTerminator)
  else if lenBytes.length ≠ 2 then .error (s.fail .truncatedLength)
  else
    let msgLen := (readU16BE lenBytes 0).toNat
    if msgLen = 0 then
      .error (if rest ≠ [] then s.fail .dataAfterTerminator
        else if !s.lastMessageWasEndOfMessages then s.fail .terminatorBeforeEndOfMessages
        else { s with eof := true, completed := true, completionKind := .terminator })
    else if s.lastMessageWasEndOfMessages then .error (s.fail .recordAfterEndOfMessages)
    else if kMaxPacketBytes < offset + 2 + msgLen then
      -- the record is read again for the next packet
      .error (if count = 0 then s.fail .messageTooLarge else s)
    else s.readPayload rest msgLen

/-- A packet ends at the events that replay is timed by. -/
def isReplayTimingBoundary (msg : List UInt8) : Bool := IsEvent msg 'S' ∨ IsEvent msg 'Q'

/-- The loop of `next`, with `body` the bytes after the header. A round reads a record or ends the
loop, so the fuel `next` gives is never used up (`fill_spec`). -/
def fill : ℕ → ItchMoldUdpSource → UInt16 → List UInt8 → ItchMoldUdpSource × UInt16 × List UInt8
  | 0, s, count, body => (s, count, body)
  | fuel + 1, s, count, body =>
    if count < s.msgsPerPacket ∨ s.lastMessageWasEndOfMessages then
      match s.readRecord count (kMoldHeaderSize + body.length) with
      | .error s => (s, count, body)
      | .ok (msg, s) =>
        let body := body ++ writeU16BE msg.length.toUInt16 ++ msg
        if isReplayTimingBoundary msg then (s, count + 1, body)
        else fill fuel s (count + 1) body
    else (s, count, body)

/-- `ticks` is what `rdtsc` reads. -/
def next (s : ItchMoldUdpSource) (ticks : UInt64) : Option PacketView × ItchMoldUdpSource :=
  if s.eof then (none, s)
  else
    let (s', count, body) := s.fill (s.input.length + 1) 0 []
    if count = 0 then (none, s')
    else
      (some ⟨s.session ++ writeU64BE s.nextSeq ++ writeU16BE count ++ body, ticks⟩, s')

def setMessagesPerPacket (s : ItchMoldUdpSource) (msgsPerPacket : UInt16) :
    Bool × ItchMoldUdpSource :=
  if msgsPerPacket = 0 then (false, s) else (true, { s with msgsPerPacket := msgsPerPacket })

/-- A call of `next`, and what is set before it. -/
structure Call where
  msgsPerPacket : UInt16
  ticks : UInt64

/-- The packets of repeated calls, and the source they leave. -/
def emit (s : ItchMoldUdpSource) : List Call → List PacketView × ItchMoldUdpSource
  | [] => ([], s)
  | call :: calls =>
    let out := (s.setMessagesPerPacket call.msgsPerPacket).2.next call.ticks
    let rest := emit out.2 calls
    (out.1.toList ++ rest.1, rest.2)

end ItchMoldUdpSource

/-! ## What a file may hold -/

/-- A message with its length, in a file as in a packet. -/
def framed (msg : List UInt8) : List UInt8 := BigEndian.toBytes 2 msg.length ++ msg

/-- A message of a known type and its length, a System Event with locate `0`. -/
structure IsRecord (msg : List UInt8) : Prop where
  sized : WellSized msg
  locate : byteAt msg 0 = byte 'S' → byteAt msg 1 = 0 ∧ byteAt msg 2 = 0

/-- Records that begin with the start of messages, if at all, and end with the end of messages once
it has come. -/
structure Records (msgs : List (List UInt8)) : Prop where
  each : ∀ msg ∈ msgs, IsRecord msg
  first : ∀ msg ∈ msgs.head?, IsEvent msg 'O'
  last : ∀ before msg after, msgs = before ++ msg :: after → IsEvent msg 'C' → after = []

/-- The file begins with the records. -/
def BeginsWith (file : List UInt8) (msgs : List (List UInt8)) : Prop :=
  Records msgs ∧ msgs.flatMap framed <+: file

/-- The records are the longest the file begins with. -/
def IsLongest (file : List UInt8) (msgs : List (List UInt8)) : Prop :=
  BeginsWith file msgs ∧ ∀ msgs', BeginsWith file msgs' → msgs' <+: msgs

/-- The file is records up to an end of messages and a zero-length terminator; the terminator may be
missing where the policy allows it. -/
def InGrammar (policy : CompletionPolicy) (file : List UInt8) : Prop :=
  ∃ before msg, Records (before ++ [msg]) ∧ IsEvent msg 'C'
    ∧ (file = (before ++ [msg]).flatMap framed ++ [0, 0]
      ∨ policy = .allowEofAfterEndOfMessages ∧ file = (before ++ [msg]).flatMap framed)

/-! ## How messages are cut into packets -/

/-- A packet of these messages does not take another. -/
def ClosedTo (msgsPerPacket : UInt16) (msgs : List (List UInt8)) (msg : List UInt8) : Prop :=
  (∃ last ∈ msgs.getLast?, ItchMoldUdpSource.isReplayTimingBoundary last = true)
    ∨ msgs.length = msgsPerPacket.toNat
    ∨ ItchMoldUdpSource.kMaxPacketBytes
      < ItchMoldUdpSource.kMoldHeaderSize + (msgs.flatMap framed).length + 2 + msg.length

/-- The packets carry the sequences from `seq` on, without a gap. -/
def Contiguous : ℕ → List PacketView → Prop
  | _, [] => True
  | seq, p :: packets => p.firstSeq.toNat = seq ∧ Contiguous (seq + p.msgCount.toNat) packets

/-- The messages a parser is given, up to the first it rejects. -/
def ItchParser.untilRejected : ItchParser → List (List UInt8) → List (List UInt8)
  | _, [] => []
  | p, msg :: msgs =>
    msg :: if p.Accepts msg then untilRejected (p.handleMessage msg).2 msgs else []

end AstraFeed
