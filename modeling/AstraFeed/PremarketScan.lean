import AstraFeed.ItchMoldUdpSource
import AstraFeed.Lib.GreedyCut

/-!
# The pre-market scan

The sender paces the packets from System Event S to System Event Q. It looks for the two before it
sends anything, and counts packets as the source is going to cut them.
-/

namespace AstraFeed

open Wire ItchParser

structure PremarketWindow where
  found : Bool := false
  ssPacket : UInt64 := 0
  sqPacket : UInt64 := 0
  ssTimestampNs : UInt64 := 0
  sqTimestampNs : UInt64 := 0

namespace PremarketWindow

variable (w : PremarketWindow)

def packetsToPace : UInt64 :=
  if !w.found ∨ w.sqPacket ≤ w.ssPacket then 0 else w.sqPacket - w.ssPacket

def durationNs : UInt64 :=
  if !w.found ∨ w.sqTimestampNs ≤ w.ssTimestampNs then 0 else w.sqTimestampNs - w.ssTimestampNs

end PremarketWindow

/-- The locals of `scanPremarketWindow`. -/
structure PremarketScan where
  window : PremarketWindow := {}
  packetIndex : UInt64 := 1
  packetCount : UInt16 := 0
  packetOffset : ℕ := ItchMoldUdpSource.kMoldHeaderSize
  forceNextPacket : Bool := false

namespace PremarketScan

open ItchMoldUdpSource

/-- A message that the packet is closed to starts the next one. -/
def startPacket (st : PremarketScan) (msgsPerPacket : UInt16) (msgLen : ℕ) : PremarketScan :=
  if st.forceNextPacket ∨ st.packetCount = msgsPerPacket
      ∨ kMaxPacketBytes < st.packetOffset + 2 + msgLen then
    { st with
      packetIndex := st.packetIndex + 1
      packetCount := 0
      packetOffset := kMoldHeaderSize
      forceNextPacket := false }
  else st

def countMessage (st : PremarketScan) (msgLen : ℕ) : PremarketScan :=
  { st with
    packetCount := st.packetCount + 1
    packetOffset := st.packetOffset + (2 + msgLen) }

def timestampNs (msg : List UInt8) : UInt64 := if 11 ≤ msg.length then readU48BE msg 5 else 0

def recordStart (st : PremarketScan) (msg : List UInt8) : PremarketScan :=
  { st with
    window := { st.window with ssPacket := st.packetIndex, ssTimestampNs := timestampNs msg }
    forceNextPacket := true }

def windowAt (st : PremarketScan) (msg : List UInt8) : PremarketWindow :=
  { st.window with
    sqPacket := st.packetIndex
    sqTimestampNs := timestampNs msg
    found := true }

/-- The loop over what is left of the file. -/
def scan (msgsPerPacket : UInt16) (input : List UInt8) (st : PremarketScan) : PremarketWindow :=
  let lenBytes := input.take 2
  let rest := input.drop 2
  if lenBytes.length ≠ 2 then st.window
  else
    let msgLen := (readU16BE lenBytes 0).toNat
    if msgLen = 0 then st.window
    else
      let st := st.startPacket msgsPerPacket msgLen
      let msg := rest.take msgLen
      if msg.length ≠ msgLen then st.window
      else
        let st := st.countMessage msgLen
        if IsEvent msg 'S' then scan msgsPerPacket (rest.drop msgLen) (st.recordStart msg)
        else if IsEvent msg 'Q' ∧ st.window.ssPacket ≠ 0 then st.windowAt msg
        else scan msgsPerPacket (rest.drop msgLen) st
termination_by input.length
decreasing_by
  all_goals
    have hlen : (input.take 2).length = 2 := not_not.1 ‹_›
    rw [List.length_take] at hlen
    rw [List.length_drop, List.length_drop]
    omega

end PremarketScan

/-- The file was opened. -/
def scanPremarketWindow (file : BinaryFile) (msgsPerPacket : UInt16) : PremarketWindow :=
  PremarketScan.scan msgsPerPacket file.bytes {}

namespace ItchMoldUdpSource

/-- The packets of repeated calls of `next`, with the ticks of each, and the source they leave. -/
def nexts (s : ItchMoldUdpSource) : List UInt64 → List PacketView × ItchMoldUdpSource
  | [] => ([], s)
  | ticks :: later =>
    let out := s.next ticks
    let rest := nexts out.2 later
    (out.1.toList ++ rest.1, rest.2)

end ItchMoldUdpSource

/-- The number, from one on, of the packet with the message of an index. -/
def packetOf (packets : List PacketView) (i : ℕ) : ℕ :=
  Greedy.chunkOf (packets.map PacketView.messages) i

end AstraFeed
