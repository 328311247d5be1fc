import AstraFeed.PremarketScan

/-!
# The sender

The sender replays a BinaryFILE over one line or two: startup heartbeats, the packets of the source
with heartbeats in between, and the announcements of the end of the session. The clock is left out.
Where a deadline or a signal decides what comes next, a `SenderChoice` does.
-/

namespace AstraFeed

open MoldUdpPacketHeader Wire

/-! ## Control packets -/

def makeMoldControlPacket (session : List UInt8) (nextSequence : UInt64) (messageCount : UInt16) :
    List UInt8 :=
  ItchMoldUdpSource.resizeSession session ++ writeU64BE nextSequence ++ writeU16BE messageCount

def makeMoldHeartbeatPacket (session : List UInt8) (nextSequence : UInt64) : List UInt8 :=
  makeMoldControlPacket session nextSequence 0

def makeMoldEndOfSessionPacket (session : List UInt8) (nextSequence : UInt64) : List UInt8 :=
  makeMoldControlPacket session nextSequence kEndOfSessionMessageCount

/-! ## What a packet is timed by -/

structure PacketTiming where
  hasTimestamp : Bool := false
  firstTimestampNs : UInt64 := 0
  containsSs : Bool := false
  containsSq : Bool := false
  ssTimestampNs : UInt64 := 0
  sqTimestampNs : UInt64 := 0

/-- The body of the loop of `inspectPacket`, for a message. -/
def PacketTiming.observe (timing : PacketTiming) (msg : List UInt8) : PacketTiming :=
  let timing :=
    if 11 ≤ msg.length ∧ !timing.hasTimestamp then
      { timing with firstTimestampNs := readU48BE msg 5, hasTimestamp := true }
    else timing
  if 12 ≤ msg.length ∧ byteAt msg 0 = byte 'S' then
    if byteAt msg 11 = byte 'S' then
      { timing with containsSs := true, ssTimestampNs := readU48BE msg 5 }
    else if byteAt msg 11 = byte 'Q' then
      { timing with containsSq := true, sqTimestampNs := readU48BE msg 5 }
    else timing
  else timing

/-- The loop of `inspectPacket`, with `remaining` messages left. -/
def inspectLoop (data : List UInt8) : ℕ → ℕ → PacketTiming → PacketTiming
  | 0, _, timing => timing
  | remaining + 1, offset, timing =>
    if data.length < offset + 2 then timing
    else
      let msgLen := (readU16BE data offset).toNat
      let offset := offset + 2
      if msgLen = 0 ∨ data.length < offset + msgLen then timing
      else inspectLoop data remaining (offset + msgLen)
        (timing.observe ((data.drop offset).take msgLen))

def inspectPacket (packet : PacketView) : PacketTiming :=
  if packet.data.length < ItchMoldUdpSource.kMoldHeaderSize then {}
  else
    inspectLoop packet.data (readU16BE packet.data 18).toNat ItchMoldUdpSource.kMoldHeaderSize {}

/-! ## The configuration -/

inductive PremarketReplayMode
  | off
  | flat
  | timestamp
  deriving DecidableEq

def kNanosecondsPerSecond : UInt64 := 1000000000

/-- The largest number of nanoseconds a deadline counts. -/
def kMaxNanoseconds : UInt64 := 0x7FFFFFFFFFFFFFFF

/-- The nanoseconds between packets, rounded up. -/
def intervalFor (seconds packets : UInt64) : UInt64 :=
  if seconds = 0 ∨ packets = 0 then 0
  else if 0xFFFFFFFFFFFFFFFF / kNanosecondsPerSecond < seconds then kMaxNanoseconds
  else
    let totalNs := seconds * kNanosecondsPerSecond
    let ceilingNs := totalNs / packets + if totalNs % packets = 0 then 0 else 1
    if kMaxNanoseconds < ceilingNs then kMaxNanoseconds else ceilingNs

/-- The arguments that `main` has checked. The speedup is positive then, and scales deadlines
only. -/
structure SenderConfig where
  session : List UInt8
  msgsPerPacket : UInt16
  completionPolicy : CompletionPolicy
  redundant : Bool
  pktsPerSecond : UInt64
  premarketSeconds : UInt64
  ssPauseSeconds : UInt64
  replayMode : PremarketReplayMode
  startupHeartbeatCount : UInt64
  idleHeartbeatIntervalMs : UInt64
  endOfSessionPacketCount : UInt64
  session_length_le : session.length ≤ kSessionSize
  msgsPerPacket_ne_zero : msgsPerPacket ≠ 0
  endOfSessionPacketCount_ne_zero : endOfSessionPacketCount ≠ 0

namespace SenderConfig

variable (config : SenderConfig)

def premarket (file : BinaryFile) : PremarketWindow :=
  if config.replayMode = .off then {} else scanPremarketWindow file config.msgsPerPacket

def premarketEnabled (premarket : PremarketWindow) : Bool :=
  (config.replayMode = .flat ∧ 0 < intervalFor config.premarketSeconds premarket.packetsToPace)
    ∨ (config.replayMode = .timestamp ∧ premarket.found ∧ 0 < premarket.durationNs)

end SenderConfig

/-! ## The state -/

structure RedundantLineState where
  packetsSent : UInt64 := 0
  messagesSent : UInt64 := 0
  sendFailures : UInt64 := 0

def RedundantLineState.record (line : RedundantLineState) (sent : Bool) (msgCount : UInt16) :
    RedundantLineState :=
  if sent then
    { line with
      packetsSent := line.packetsSent + 1
      messagesSent := line.messagesSent + msgCount.toUInt64 }
  else { line with sendFailures := line.sendFailures + 1 }

/-- What `sendto` gives on each line. -/
structure LineOutcome where
  lineA : Bool
  lineB : Bool

/-- Where `main` is. A packet is `waiting` from the call of `next` on until it is sent; after a
packet with System Event S the sender is `paused`, and between ordinary packets `pacing`. -/
inductive SenderStage
  | startup
  | ready
  | waiting (packet : PacketView)
  | paused (timing : PacketTiming) (paced : Bool)
  | pacing
  | ending
  | finished

inductive SenderChoice
  | stop
  | next (ticks : UInt64)
  | heartbeat (outcome : LineOutcome)
  | transmit (outcome : LineOutcome)
  | proceed

/-- `wire` records what was sent on a line, whether the other line took it or not. -/
structure ItchMoldUdpSender where
  source : ItchMoldUdpSource
  premarket : PremarketWindow
  stage : SenderStage
  premarketActive : Bool
  ssPausePending : Bool
  interrupted : Bool
  transmissionFailed : Bool
  lineA : RedundantLineState
  lineB : RedundantLineState
  logicalPackets : UInt64
  logicalMessages : UInt64
  logicalFirstSeq : UInt64
  logicalNextSeq : UInt64
  startupHeartbeatsSent : UInt64
  periodicHeartbeatsSent : UInt64
  endOfSessionPacketsSent : UInt64
  wire : List (List UInt8)

namespace ItchMoldUdpSender

def create (config : SenderConfig) (file : BinaryFile) : ItchMoldUdpSender where
  source := .create file config.session config.msgsPerPacket config.completionPolicy
  premarket := config.premarket file
  stage := .startup
  premarketActive := false
  ssPausePending := 0 < config.ssPauseSeconds
  interrupted := false
  transmissionFailed := false
  lineA := {}
  lineB := {}
  logicalPackets := 0
  logicalMessages := 0
  logicalFirstSeq := 0
  logicalNextSeq := 0
  startupHeartbeatsSent := 0
  periodicHeartbeatsSent := 0
  endOfSessionPacketsSent := 0
  wire := []

section Steps

variable (config : SenderConfig) (s : ItchMoldUdpSender)

def atStage (stage : SenderStage) : ItchMoldUdpSender := { s with stage := stage }

/-- A datagram on the lines there are. When a line does not take it, nothing more is sent. -/
def transmit (data : List UInt8) (msgCount : UInt16) (outcome : LineOutcome) :
    Bool × ItchMoldUdpSender :=
  let s := { s with
    lineA := s.lineA.record outcome.lineA msgCount
    lineB := if config.redundant then s.lineB.record outcome.lineB msgCount else s.lineB
    wire := if outcome.lineA ∨ (config.redundant ∧ outcome.lineB) then s.wire ++ [data] else s.wire }
  if outcome.lineA ∧ (config.redundant → outcome.lineB) then (true, s)
  else (false, { s with transmissionFailed := true, stage := .finished })

def sendControlPacket (packet : List UInt8) (nextSequence : UInt64) (outcome : LineOutcome) :
    Bool × ItchMoldUdpSender :=
  let out := s.transmit config packet 0 outcome
  if !out.1 then out
  else
    (true, { out.2 with
      logicalPackets := out.2.logicalPackets + 1
      logicalNextSeq := nextSequence })

/-- A heartbeat of `wait_until_with_heartbeats`. -/
def sendHeartbeat (nextSequence : UInt64) (outcome : LineOutcome) : Option ItchMoldUdpSender :=
  if config.idleHeartbeatIntervalMs = 0 then none
  else
    let out := s.sendControlPacket config (makeMoldHeartbeatPacket config.session nextSequence)
      nextSequence outcome
    some (if out.1 then
      { out.2 with periodicHeartbeatsSent := out.2.periodicHeartbeatsSent + 1 }
    else out.2)

def sendStartupHeartbeat (outcome : LineOutcome) : ItchMoldUdpSender :=
  let out := s.sendControlPacket config
    (makeMoldHeartbeatPacket config.session s.source.nextSeq) s.source.nextSeq outcome
  if out.1 then { out.2 with startupHeartbeatsSent := out.2.startupHeartbeatsSent + 1 } else out.2

def timingOf (packet : PacketView) : PacketTiming :=
  if config.premarketEnabled s.premarket ∨ s.ssPausePending then inspectPacket packet else {}

/-- The packet has a deadline of its own. -/
def Waits (packet : PacketView) : Prop :=
  let timing := s.timingOf config packet
  let packetTimestamp :=
    if timing.containsSq then timing.sqTimestampNs else timing.firstTimestampNs
  s.premarketActive ∧ (config.replayMode = .flat
    ∨ (config.replayMode = .timestamp ∧ timing.hasTimestamp
      ∧ s.premarket.ssTimestampNs < packetTimestamp))

instance (packet : PacketView) : Decidable (s.Waits config packet) :=
  inferInstanceAs (Decidable (_ ∧ _))

def readNext (ticks : UInt64) : ItchMoldUdpSender :=
  let out := s.source.next ticks
  let s := { s with source := out.2 }
  match out.1 with
  | some packet => s.atStage (.waiting packet)
  | none => s.atStage (if s.source.completed then .ending else .finished)

/-- The premarket window opens with System Event S and closes with System Event Q. -/
def afterPause (timing : PacketTiming) (paced : Bool) : ItchMoldUdpSender :=
  let s :=
    if timing.containsSs ∧ config.premarketEnabled s.premarket ∧ !s.premarketActive then
      { s with
        premarketActive := true
        source :=
          if config.replayMode = .timestamp then (s.source.setMessagesPerPacket 1).2 else s.source }
    else s
  let s :=
    if timing.containsSq then
      { s with
        premarketActive := false
        source :=
          if config.replayMode = .timestamp then
            (s.source.setMessagesPerPacket config.msgsPerPacket).2
          else s.source }
    else s
  s.atStage (if !s.premarketActive ∧ paced ∧ !s.source.completed ∧ s.source.lastError = none then
    .pacing else .ready)

/-- A packet of the source is sent. -/
def sendPacket (packet : PacketView) (outcome : LineOutcome) : ItchMoldUdpSender :=
  let firstSeq := readU64BE packet.data 10
  let msgCount := readU16BE packet.data 18
  let timing := s.timingOf config packet
  let out := s.transmit config packet.data msgCount outcome
  if !out.1 then out.2
  else
    let s : ItchMoldUdpSender := { out.2 with
      logicalPackets := out.2.logicalPackets + 1
      logicalMessages := out.2.logicalMessages + msgCount.toUInt64
      logicalFirstSeq := if out.2.logicalFirstSeq = 0 then firstSeq else out.2.logicalFirstSeq
      logicalNextSeq := firstSeq + msgCount.toUInt64 }
    let paced : Bool := config.pktsPerSecond ≠ 0 ∧ (!s.premarketActive ∨ timing.containsSq)
    if timing.containsSs ∧ s.ssPausePending then s.atStage (.paused timing paced)
    else s.afterPause config timing paced

/-- A copy of the end of the session. -/
def sendEndOfSession (outcome : LineOutcome) : ItchMoldUdpSender :=
  let endSequence := s.source.nextSeq
  let out := s.sendControlPacket config (makeMoldEndOfSessionPacket config.session endSequence)
    endSequence outcome
  if !out.1 then out.2
  else
    let s := { out.2 with
      logicalFirstSeq :=
        if out.2.endOfSessionPacketsSent = 0 ∧ out.2.logicalFirstSeq = 0 then endSequence
        else out.2.logicalFirstSeq
      endOfSessionPacketsSent := out.2.endOfSessionPacketsSent + 1 }
    if s.endOfSessionPacketsSent < config.endOfSessionPacketCount then s else s.atStage .finished

/-- What `main` does next; `none` where the choice is not one it has. A deadline beyond the clock's
range ends the replay as a signal does. -/
def step : SenderChoice → Option ItchMoldUdpSender
  | .stop =>
    match s.stage with
    | .finished => none
    | _ => some { s with interrupted := true, stage := .finished }
  | .next ticks =>
    match s.stage with
    | .ready => some (s.readNext ticks)
    | _ => none
  | .heartbeat outcome =>
    match s.stage with
    | .waiting packet =>
      if s.Waits config packet then s.sendHeartbeat config (readU64BE packet.data 10) outcome
      else none
    | .paused _ _ => s.sendHeartbeat config s.source.nextSeq outcome
    | .pacing => s.sendHeartbeat config s.source.nextSeq outcome
    | _ => none
  | .transmit outcome =>
    match s.stage with
    | .startup =>
      if s.startupHeartbeatsSent < config.startupHeartbeatCount then
        some (s.sendStartupHeartbeat config outcome)
      else none
    | .waiting packet => some (s.sendPacket config packet outcome)
    | .ending => some (s.sendEndOfSession config outcome)
    | _ => none
  | .proceed =>
    match s.stage with
    | .startup =>
      if s.startupHeartbeatsSent < config.startupHeartbeatCount then none
      else some (s.atStage .ready)
    | .paused timing paced =>
      some (afterPause config { s with ssPausePending := false } timing paced)
    | .pacing => some (s.atStage .ready)
    | _ => none

/-- A choice that there is not is passed over. -/
def run (choices : List SenderChoice) : ItchMoldUdpSender :=
  choices.foldl (fun s choice => (s.step config choice).getD s) s

end Steps

/-! ## How a replay ends -/

inductive Completion
  | sendError
  | complete
  | interrupted
  | eosIncomplete
  | sourceError
  deriving DecidableEq

section Ending

variable (config : SenderConfig) (s : ItchMoldUdpSender)

def endOfSessionSent : Bool := s.endOfSessionPacketsSent = config.endOfSessionPacketCount

def completion : Completion :=
  if s.transmissionFailed then .sendError
  else if s.source.completed ∧ s.endOfSessionSent config then .complete
  else if s.interrupted then .interrupted
  else if s.source.completed then .eosIncomplete
  else .sourceError

def redundantCountsClean : Bool :=
  config.redundant → s.lineA.packetsSent = s.logicalPackets
    ∧ s.lineB.packetsSent = s.logicalPackets ∧ s.lineA.messagesSent = s.logicalMessages
    ∧ s.lineB.messagesSent = s.logicalMessages

/-- `EXIT_SUCCESS`. -/
def exitsWithSuccess : Bool :=
  s.source.completed ∧ !s.transmissionFailed ∧ s.endOfSessionSent config
    ∧ s.lineA.sendFailures = 0 ∧ s.lineB.sendFailures = 0 ∧ s.redundantCountsClean config

end Ending

end ItchMoldUdpSender

end AstraFeed
