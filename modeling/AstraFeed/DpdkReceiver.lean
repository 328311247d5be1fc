import AstraFeed.CheckedReads
import AstraFeed.GapBuffer

/-!
# The DPDK frame parsers

A frame is parsed down to the UDP payload. `parseFast` handles untagged IPv4 without options, and
hands every other frame to `parseGeneral`. A parser is `none` where it reads outside of the frame.
-/

namespace AstraFeed

open Checked (byteAt readU16BE readU32BE)

inductive ParseStatus
  | accepted
  | filtered
  | malformed
  deriving DecidableEq, Repr

/-- A payload pointer is its offset in the frame; `none` is the null pointer. -/
structure ParsedPacket where
  status : ParseStatus := .filtered
  payload : Option ℕ := none
  payloadSize : ℕ := 0
  lineIndex : UInt8 := 0
  fastPath : Bool := false
  deriving DecidableEq, Repr

structure EndpointFilter where
  ip : UInt32
  port : UInt16
  matchIp : Bool
  enabled : Bool

def EndpointFilter.matches (f : EndpointFilter) (dstIp : UInt32) (dstPort : UInt16) : Bool :=
  f.enabled && dstPort == f.port && (!f.matchIp || dstIp == f.ip)

/-- The two configured lines. -/
structure DpdkReceiver where
  lineA : EndpointFilter
  lineB : EndpointFilter

namespace DpdkReceiver

/-! The sizes of `rte_ether_hdr`, `rte_ipv4_hdr`, `rte_udp_hdr` and `rte_vlan_hdr`. -/

def kEtherHeaderSize : ℕ := 14
def kIpv4HeaderSize : ℕ := 20
def kUdpHeaderSize : ℕ := 8
def kVlanHeaderSize : ℕ := 4

def kIpv4EtherType : UInt16 := 0x0800
def kVlanEtherType : UInt16 := 0x8100
def kQinqEtherType : UInt16 := 0x88A8
def kIpv4FragmentOffsetMask : UInt16 := 0x1FFF
def kIpv4MoreFragmentsFlag : UInt16 := 0x2000
def kIpProtoUdp : UInt8 := 17

def isVlanEtherType (etherType : UInt16) : Bool :=
  etherType == kVlanEtherType || etherType == kQinqEtherType

section Fields

variable (frame : List UInt8) (header : ℕ)

/-! Fields of a header at an offset. -/

def etherType : Option UInt16 := readU16BE frame (header + 12)
def vlanEthProto : Option UInt16 := readU16BE frame (header + 2)
def versionIhl : Option UInt8 := byteAt frame header
def totalLength : Option UInt16 := readU16BE frame (header + 2)
def fragmentOffset : Option UInt16 := readU16BE frame (header + 6)
def nextProtoId : Option UInt8 := byteAt frame (header + 9)
def dstAddr : Option UInt32 := readU32BE frame (header + 16)
def dstPort : Option UInt16 := readU16BE frame (header + 2)
def dgramLen : Option UInt16 := readU16BE frame (header + 4)

end Fields

section Parse

variable (r : DpdkReceiver) (frame : List UInt8)

/-- The line of an endpoint, and what is delivered to it. -/
def deliver (fastPath : Bool) (dstAddr : UInt32) (dstPort : UInt16) (payload payloadSize : ℕ) :
    ParsedPacket :=
  if r.lineA.matches dstAddr dstPort then ⟨.accepted, some payload, payloadSize, 0, fastPath⟩
  else if r.lineB.matches dstAddr dstPort then ⟨.accepted, some payload, payloadSize, 1, fastPath⟩
  else { status := .filtered, fastPath := fastPath }

/-- The loop over the tags, with `depth` left: an offset and an ethertype, or a tag that does not
fit. -/
def vlanLoop : ℕ → ℕ → UInt16 → Option (Option (ℕ × UInt16))
  | 0, offset, type => some (some (offset, type))
  | depth + 1, offset, type =>
    if !isVlanEtherType type then some (some (offset, type))
    else if frame.length < offset + kVlanHeaderSize then some none
    else do
      let type ← vlanEthProto frame offset
      vlanLoop depth (offset + kVlanHeaderSize) type

/-- `parseGeneral` from the UDP header on. -/
def parseGeneralUdp (ipv4 udpOffset : ℕ) (totalLen : UInt16) : Option ParsedPacket :=
  if frame.length < udpOffset + kUdpHeaderSize then some { status := .malformed }
  else do
    let port ← dstPort frame udpOffset
    let udpLen ← dgramLen frame udpOffset
    if udpLen.toNat < kUdpHeaderSize then some { status := .malformed }
    else if ipv4 + totalLen.toNat < udpOffset + udpLen.toNat then some { status := .malformed }
    else
      let payloadSize := udpLen.toNat - kUdpHeaderSize
      if SequencedPacket.kMaxPacketSize < payloadSize then some { status := .malformed }
      else do
        let dstAddr ← dstAddr frame ipv4
        some (r.deliver false dstAddr port (udpOffset + kUdpHeaderSize) payloadSize)

/-- `parseGeneral` from the IPv4 header on. -/
def parseGeneralIpv4 (offset : ℕ) : Option ParsedPacket :=
  if frame.length < offset + kIpv4HeaderSize then some { status := .malformed }
  else do
    let versionIhl ← versionIhl frame offset
    let ipv4HeaderLen := (versionIhl &&& 0x0F).toNat * 4
    if versionIhl >>> 4 ≠ 4 ∨ ipv4HeaderLen < kIpv4HeaderSize then some { status := .malformed }
    else if frame.length < offset + ipv4HeaderLen then some { status := .malformed }
    else do
      let totalLen ← totalLength frame offset
      if totalLen.toNat < ipv4HeaderLen ∨ frame.length < offset + totalLen.toNat then
        some { status := .malformed }
      else do
        let fragment ← fragmentOffset frame offset
        if fragment &&& (kIpv4FragmentOffsetMask ||| kIpv4MoreFragmentsFlag) ≠ 0 then
          some { status := .malformed }
        else do
          let proto ← nextProtoId frame offset
          if proto ≠ kIpProtoUdp then some { status := .filtered }
          else r.parseGeneralUdp frame offset (offset + ipv4HeaderLen) totalLen

def parseGeneral : Option ParsedPacket :=
  if frame.length < kEtherHeaderSize then some { status := .malformed }
  else do
    let type ← etherType frame 0
    let tags ← vlanLoop frame 2 kEtherHeaderSize type
    match tags with
    | none => some { status := .malformed }
    | some (offset, type) =>
      if type ≠ kIpv4EtherType then some { status := .filtered }
      else r.parseGeneralIpv4 frame offset

/-- `parseFast` from the UDP header on. -/
def parseFastUdp (totalLen : UInt16) : Option ParsedPacket := do
  let udpOffset := kEtherHeaderSize + kIpv4HeaderSize
  let port ← dstPort frame udpOffset
  let udpLen ← dgramLen frame udpOffset
  if udpLen.toNat < kUdpHeaderSize
      ∨ kEtherHeaderSize + totalLen.toNat < udpOffset + udpLen.toNat then
    some { status := .malformed, fastPath := true }
  else
    let payloadSize := udpLen.toNat - kUdpHeaderSize
    if SequencedPacket.kMaxPacketSize < payloadSize then
      some { status := .malformed, fastPath := true }
    else do
      let dstAddr ← dstAddr frame kEtherHeaderSize
      some (r.deliver true dstAddr port (udpOffset + kUdpHeaderSize) payloadSize)

/-- `parseFast` from the IPv4 header on. -/
def parseFastIpv4 : Option ParsedPacket := do
  let totalLen ← totalLength frame kEtherHeaderSize
  if totalLen.toNat < kIpv4HeaderSize + kUdpHeaderSize
      ∨ frame.length < kEtherHeaderSize + totalLen.toNat then
    some { status := .malformed, fastPath := true }
  else do
    let fragment ← fragmentOffset frame kEtherHeaderSize
    if fragment &&& (kIpv4FragmentOffsetMask ||| kIpv4MoreFragmentsFlag) ≠ 0 then
      some { status := .malformed, fastPath := true }
    else do
      let proto ← nextProtoId frame kEtherHeaderSize
      if proto ≠ kIpProtoUdp then some { status := .filtered, fastPath := true }
      else r.parseFastUdp frame totalLen

def parseFast : Option ParsedPacket :=
  let payloadOffset := kEtherHeaderSize + kIpv4HeaderSize + kUdpHeaderSize
  if frame.length < kEtherHeaderSize then some { status := .malformed, fastPath := true }
  else do
    let type ← etherType frame 0
    if type ≠ kIpv4EtherType then r.parseGeneral frame
    else if frame.length < payloadOffset then some { status := .malformed, fastPath := true }
    else do
      let versionIhl ← versionIhl frame kEtherHeaderSize
      if versionIhl ≠ 0x45 then r.parseGeneral frame else r.parseFastIpv4 frame

end Parse

end DpdkReceiver

end AstraFeed
