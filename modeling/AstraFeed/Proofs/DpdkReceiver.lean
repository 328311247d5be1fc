import AstraFeed.DpdkReceiver
import AstraFeed.Proofs.CheckedReads

/-!
# The two frame parsers

Both parsers take the headers apart by the same conditions (`Datagram`, `UdpFits`). `parseFast` asks
for room for a UDP header before it looks at the protocol, so a datagram of another protocol that is
shorter is malformed to it (`parseFast_agrees_iff`).
-/

namespace AstraFeed

namespace DpdkReceiver

open Wire (byteAt readU16BE readU32BE)

/-! ## Headers -/

section Headers

variable (frame : List UInt8) (offset : ℕ)

def ipv4HeaderLen : ℕ := (byteAt frame offset &&& 0x0F).toNat * 4

def totalLen : ℕ := (readU16BE frame (offset + 2)).toNat

def protocol : UInt8 := byteAt frame (offset + 9)

/-- A whole IPv4 datagram that is no fragment. -/
structure Datagram : Prop where
  header : offset + kIpv4HeaderSize ≤ frame.length
  version : byteAt frame offset >>> 4 = 4
  headerLen : kIpv4HeaderSize ≤ ipv4HeaderLen frame offset
  options : offset + ipv4HeaderLen frame offset ≤ frame.length
  total : ipv4HeaderLen frame offset ≤ totalLen frame offset
  inside : offset + totalLen frame offset ≤ frame.length
  whole : readU16BE frame (offset + 6) &&& (kIpv4FragmentOffsetMask ||| kIpv4MoreFragmentsFlag) = 0

def udpLen : ℕ := (readU16BE frame (offset + 4)).toNat

/-- A UDP header and its payload before `endOffset`. -/
structure UdpFits (endOffset : ℕ) : Prop where
  header : offset + kUdpHeaderSize ≤ frame.length
  length : kUdpHeaderSize ≤ udpLen frame offset
  inside : offset + udpLen frame offset ≤ endOffset
  size : udpLen frame offset - kUdpHeaderSize ≤ SequencedPacket.kMaxPacketSize

end Headers

/-- The same status, and the same payload and line of an accepted frame. -/
def Agrees (fast general : ParsedPacket) : Prop :=
  fast.status = general.status ∧ (fast.status = .accepted →
    fast.payload = general.payload ∧ fast.payloadSize = general.payloadSize
    ∧ fast.lineIndex = general.lineIndex)

/-- An accepted payload lies inside the frame and has at most 2048 bytes. -/
def InFrame (frame : List UInt8) (out : ParsedPacket) : Prop :=
  out.status = .accepted → ∃ offset, out.payload = some offset
    ∧ offset + out.payloadSize ≤ frame.length ∧ out.payloadSize ≤ 2048

/-- Both parsers read inside the frame, and the fast one answers like the general one. -/
def Agreement (r : DpdkReceiver) (frame : List UInt8) : Prop :=
  ∃ fast general, r.parseFast frame = some fast ∧ r.parseGeneral frame = some general
    ∧ Agrees fast general ∧ InFrame frame fast ∧ InFrame frame general

/-- An untagged datagram of another protocol, too short for a UDP header. -/
structure ShortNonUdp (frame : List UInt8) : Prop where
  etherType : readU16BE frame 12 = kIpv4EtherType
  datagram : Datagram frame kEtherHeaderSize
  protocol : protocol frame kEtherHeaderSize ≠ kIpProtoUdp
  short : frame.length < 42
    ∨ byteAt frame kEtherHeaderSize = 0x45 ∧ totalLen frame kEtherHeaderSize < 28

variable {r : DpdkReceiver} {frame : List UInt8} {offset : ℕ}

theorem Agrees.refl (out : ParsedPacket) : Agrees out out := ⟨rfl, fun _ => ⟨rfl, rfl, rfl⟩⟩

theorem inFrame_of_ne {out : ParsedPacket} (h : out.status ≠ .accepted) : InFrame frame out :=
  fun hacc => absurd hacc h

theorem agrees_deliver (r : DpdkReceiver) (addr : UInt32) (port : UInt16) (payload size : ℕ) :
    Agrees (r.deliver true addr port payload size) (r.deliver false addr port payload size) := by
  unfold deliver
  split_ifs
  · exact ⟨rfl, fun _ => ⟨rfl, rfl, rfl⟩⟩
  · exact ⟨rfl, fun _ => ⟨rfl, rfl, rfl⟩⟩
  · exact ⟨rfl, nofun⟩

theorem inFrame_deliver {fast : Bool} {addr : UInt32} {port : UInt16} {payload size : ℕ}
    (h : payload + size ≤ frame.length) (hsize : size ≤ 2048) :
    InFrame frame (r.deliver fast addr port payload size) := by
  unfold deliver
  split_ifs
  · exact fun _ => ⟨payload, rfl, h, hsize⟩
  · exact fun _ => ⟨payload, rfl, h, hsize⟩
  · exact nofun

/-! ## The general parser -/

theorem parseGeneralUdp_cases (r : DpdkReceiver) {ipv4 : ℕ} (udpOffset : ℕ) (total : UInt16)
    (hipv4 : ipv4 + kIpv4HeaderSize ≤ frame.length) :
    ¬ UdpFits frame udpOffset (ipv4 + total.toNat)
      ∧ r.parseGeneralUdp frame ipv4 udpOffset total = some { status := .malformed }
    ∨ UdpFits frame udpOffset (ipv4 + total.toNat)
      ∧ r.parseGeneralUdp frame ipv4 udpOffset total
        = some (r.deliver false (readU32BE frame (ipv4 + 16)) (readU16BE frame (udpOffset + 2))
          (udpOffset + kUdpHeaderSize) (udpLen frame udpOffset - kUdpHeaderSize)) := by
  unfold parseGeneralUdp
  by_cases hheader : frame.length < udpOffset + kUdpHeaderSize
  · rw [if_pos hheader]
    exact .inl ⟨fun h => absurd h.header (by omega), rfl⟩
  rw [if_neg hheader]
  unfold kUdpHeaderSize at hheader
  unfold kIpv4HeaderSize at hipv4
  unfold dstPort dgramLen dstAddr
  rw [Checked.readU16BE_eq (by omega), Checked.readU16BE_eq (by omega),
    Checked.readU32BE_eq (by omega)]
  dsimp only [Option.bind_eq_bind, Option.bind_some]
  split_ifs with hlength hinside hsize
  · exact .inl ⟨fun h => absurd h.length (Nat.not_le.2 hlength), rfl⟩
  · exact .inl ⟨fun h => absurd h.inside (Nat.not_le.2 hinside), rfl⟩
  · exact .inl ⟨fun h => absurd h.size (Nat.not_le.2 hsize), rfl⟩
  · exact .inr ⟨⟨Nat.not_lt.1 hheader, Nat.not_lt.1 hlength, Nat.not_lt.1 hinside,
      Nat.not_lt.1 hsize⟩, rfl⟩

theorem parseGeneralIpv4_cases (r : DpdkReceiver) (frame : List UInt8) (offset : ℕ) :
    ¬ Datagram frame offset
      ∧ r.parseGeneralIpv4 frame offset = some { status := .malformed }
    ∨ Datagram frame offset ∧ protocol frame offset ≠ kIpProtoUdp
      ∧ r.parseGeneralIpv4 frame offset = some { status := .filtered }
    ∨ Datagram frame offset ∧ protocol frame offset = kIpProtoUdp
      ∧ r.parseGeneralIpv4 frame offset = r.parseGeneralUdp frame offset
        (offset + ipv4HeaderLen frame offset) (readU16BE frame (offset + 2)) := by
  unfold parseGeneralIpv4
  by_cases hheader : frame.length < offset + kIpv4HeaderSize
  · rw [if_pos hheader]
    exact .inl ⟨fun h => absurd h.header (Nat.not_le.2 hheader), rfl⟩
  rw [if_neg hheader]
  have hsize := Nat.not_lt.1 hheader
  unfold kIpv4HeaderSize at hsize
  unfold versionIhl totalLength fragmentOffset nextProtoId
  rw [Checked.byteAt_eq (by omega), Checked.byteAt_eq (by omega), Checked.readU16BE_eq (by omega),
    Checked.readU16BE_eq (by omega)]
  dsimp only [Option.bind_eq_bind, Option.bind_some]
  split_ifs with hversion hoptions htotal hwhole hproto
  · refine .inl ⟨fun h => ?_, rfl⟩
    exact hversion.elim (absurd h.version) fun hlen => absurd h.headerLen (Nat.not_le.2 hlen)
  · exact .inl ⟨fun h => absurd h.options (Nat.not_le.2 hoptions), rfl⟩
  · refine .inl ⟨fun h => ?_, rfl⟩
    exact htotal.elim (fun hlen => absurd h.total (Nat.not_le.2 hlen))
      fun hlen => absurd h.inside (Nat.not_le.2 hlen)
  · exact .inl ⟨fun h => absurd h.whole hwhole, rfl⟩
  all_goals
    obtain ⟨hversion, hlen⟩ := not_or.1 hversion
    obtain ⟨htotal, hinside⟩ := not_or.1 htotal
    have hdatagram : Datagram frame offset := ⟨Nat.not_lt.1 hheader, not_not.1 hversion,
      Nat.not_lt.1 hlen, Nat.not_lt.1 hoptions, Nat.not_lt.1 htotal, Nat.not_lt.1 hinside,
      not_not.1 hwhole⟩
  · exact .inr (.inl ⟨hdatagram, hproto, rfl⟩)
  · exact .inr (.inr ⟨hdatagram, not_not.1 hproto, rfl⟩)

theorem parseGeneralIpv4_inFrame (r : DpdkReceiver) (frame : List UInt8) (offset : ℕ) :
    ∃ out, r.parseGeneralIpv4 frame offset = some out ∧ InFrame frame out := by
  rcases parseGeneralIpv4_cases r frame offset with ⟨_, hout⟩ | ⟨_, _, hout⟩ | ⟨h, _, hout⟩
  · exact ⟨_, hout, inFrame_of_ne nofun⟩
  · exact ⟨_, hout, inFrame_of_ne nofun⟩
  rw [hout]
  rcases parseGeneralUdp_cases r (offset + ipv4HeaderLen frame offset)
    (readU16BE frame (offset + 2)) h.header with ⟨_, hudp⟩ | ⟨hfits, hudp⟩
  · exact ⟨_, hudp, inFrame_of_ne nofun⟩
  · have hpayload : offset + ipv4HeaderLen frame offset + kUdpHeaderSize
        + (udpLen frame (offset + ipv4HeaderLen frame offset) - kUdpHeaderSize)
        ≤ frame.length := by
      have hlength := hfits.length
      have hinside := hfits.inside.trans h.inside
      omega
    exact ⟨_, hudp, inFrame_deliver hpayload hfits.size⟩

theorem vlanLoop_some (frame : List UInt8) (depth offset : ℕ) (type : UInt16) :
    ∃ tags, vlanLoop frame depth offset type = some tags := by
  induction depth generalizing offset type with
  | zero => exact ⟨_, rfl⟩
  | succ depth ih =>
    unfold vlanLoop
    split_ifs with hvlan hsize
    · exact ⟨_, rfl⟩
    · exact ⟨_, rfl⟩
    · unfold kVlanHeaderSize at hsize
      unfold vlanEthProto
      rw [Checked.readU16BE_eq (by omega)]
      exact ih _ _

/-- The general parser returns, and stays inside the frame. -/
theorem parseGeneral_inFrame (r : DpdkReceiver) (frame : List UInt8) :
    ∃ out, r.parseGeneral frame = some out ∧ InFrame frame out := by
  unfold parseGeneral
  by_cases hsize : frame.length < kEtherHeaderSize
  · rw [if_pos hsize]
    exact ⟨_, rfl, inFrame_of_ne nofun⟩
  rw [if_neg hsize]
  unfold kEtherHeaderSize at hsize
  unfold etherType
  rw [Checked.readU16BE_eq (by omega)]
  obtain ⟨tags, htags⟩ := vlanLoop_some frame 2 kEtherHeaderSize (readU16BE frame (0 + 12))
  dsimp only [Option.bind_eq_bind, Option.bind_some]
  rw [htags, Option.bind_some]
  rcases tags with _ | ⟨offset, type⟩
  · exact ⟨_, rfl, inFrame_of_ne nofun⟩
  dsimp only
  split_ifs
  · exact ⟨_, rfl, inFrame_of_ne nofun⟩
  · exact parseGeneralIpv4_inFrame r frame offset

/-- An untagged IPv4 frame has its datagram after the Ethernet header. -/
theorem parseGeneral_untagged (hsize : kEtherHeaderSize ≤ frame.length)
    (htype : readU16BE frame 12 = kIpv4EtherType) :
    r.parseGeneral frame = r.parseGeneralIpv4 frame kEtherHeaderSize := by
  unfold parseGeneral
  rw [if_neg (Nat.not_lt.2 hsize)]
  unfold kEtherHeaderSize at hsize
  unfold etherType
  rw [Checked.readU16BE_eq (by omega)]
  dsimp only [Option.bind_eq_bind, Option.bind_some]
  rw [Nat.zero_add, htype]
  rfl

/-! ## The fast parser -/

theorem parseFastUdp_cases (r : DpdkReceiver) (total : UInt16) (hsize : 42 ≤ frame.length) :
    ¬ UdpFits frame (kEtherHeaderSize + kIpv4HeaderSize) (kEtherHeaderSize + total.toNat)
      ∧ r.parseFastUdp frame total = some { status := .malformed, fastPath := true }
    ∨ UdpFits frame (kEtherHeaderSize + kIpv4HeaderSize) (kEtherHeaderSize + total.toNat)
      ∧ r.parseFastUdp frame total
        = some (r.deliver true (readU32BE frame (kEtherHeaderSize + 16))
          (readU16BE frame (kEtherHeaderSize + kIpv4HeaderSize + 2))
          (kEtherHeaderSize + kIpv4HeaderSize + kUdpHeaderSize)
          (udpLen frame (kEtherHeaderSize + kIpv4HeaderSize) - kUdpHeaderSize)) := by
  have hether : kEtherHeaderSize = 14 := rfl
  have hipv4 : kIpv4HeaderSize = 20 := rfl
  unfold parseFastUdp dstPort dgramLen dstAddr
  dsimp only
  rw [Checked.readU16BE_eq (by omega), Checked.readU16BE_eq (by omega),
    Checked.readU32BE_eq (by omega)]
  dsimp only [Option.bind_eq_bind, Option.bind_some]
  split_ifs with hlength hpayload
  · refine .inl ⟨fun h => ?_, rfl⟩
    exact hlength.elim (fun hlt => absurd h.length (Nat.not_le.2 hlt))
      fun hlt => absurd h.inside (Nat.not_le.2 hlt)
  · exact .inl ⟨fun h => absurd h.size (Nat.not_le.2 hpayload), rfl⟩
  · obtain ⟨hlength, hinside⟩ := not_or.1 hlength
    exact .inr ⟨⟨hsize, Nat.not_lt.1 hlength, Nat.not_lt.1 hinside, Nat.not_lt.1 hpayload⟩, rfl⟩

/-- The first byte says that there are no options. -/
theorem ipv4HeaderLen_of_plain (h : byteAt frame offset = 0x45) :
    ipv4HeaderLen frame offset = kIpv4HeaderSize := by
  unfold ipv4HeaderLen
  rw [h]
  rfl

theorem parseFastIpv4_cases (r : DpdkReceiver) (hsize : 42 ≤ frame.length)
    (hplain : byteAt frame kEtherHeaderSize = 0x45) :
    (Datagram frame kEtherHeaderSize → totalLen frame kEtherHeaderSize < 28)
      ∧ r.parseFastIpv4 frame = some { status := .malformed, fastPath := true }
    ∨ Datagram frame kEtherHeaderSize ∧ 28 ≤ totalLen frame kEtherHeaderSize
      ∧ protocol frame kEtherHeaderSize ≠ kIpProtoUdp
      ∧ r.parseFastIpv4 frame = some { status := .filtered, fastPath := true }
    ∨ Datagram frame kEtherHeaderSize ∧ 28 ≤ totalLen frame kEtherHeaderSize
      ∧ protocol frame kEtherHeaderSize = kIpProtoUdp
      ∧ r.parseFastIpv4 frame = r.parseFastUdp frame (readU16BE frame (kEtherHeaderSize + 2)) := by
  have hether : kEtherHeaderSize = 14 := rfl
  have hlen := ipv4HeaderLen_of_plain hplain
  unfold parseFastIpv4 totalLength fragmentOffset nextProtoId
  rw [Checked.byteAt_eq (by omega), Checked.readU16BE_eq (by omega),
    Checked.readU16BE_eq (by omega)]
  dsimp only [Option.bind_eq_bind, Option.bind_some]
  split_ifs with htotal hwhole hproto
  · refine .inl ⟨fun h => ?_, rfl⟩
    exact htotal.elim id fun hlt => absurd h.inside (Nat.not_le.2 hlt)
  · exact .inl ⟨fun h => absurd h.whole hwhole, rfl⟩
  all_goals
    obtain ⟨htotal, hinside⟩ := not_or.1 htotal
    have htotal : 28 ≤ totalLen frame kEtherHeaderSize := Nat.not_lt.1 htotal
    have hipv4 : kIpv4HeaderSize = 20 := rfl
    have hdatagram : Datagram frame kEtherHeaderSize := ⟨by omega, by rw [hplain]; rfl, hlen.ge,
      by omega, by omega, Nat.not_lt.1 hinside, not_not.1 hwhole⟩
  · exact .inr (.inl ⟨hdatagram, htotal, hproto, rfl⟩)
  · exact .inr (.inr ⟨hdatagram, htotal, not_not.1 hproto, rfl⟩)

/-- The parsers do the same with a UDP header that follows a header without options. -/
theorem parseFastUdp_agrees (r : DpdkReceiver) {total : UInt16} (hsize : 42 ≤ frame.length)
    (hinside : kEtherHeaderSize + total.toNat ≤ frame.length) :
    ∃ fast general, r.parseFastUdp frame total = some fast
      ∧ r.parseGeneralUdp frame kEtherHeaderSize (kEtherHeaderSize + kIpv4HeaderSize) total
        = some general ∧ InFrame frame fast ∧ Agrees fast general := by
  have hipv4 : kEtherHeaderSize + kIpv4HeaderSize ≤ frame.length := le_trans (by decide) hsize
  rcases parseFastUdp_cases r total hsize with ⟨hnot, hfast⟩ | ⟨hfits, hfast⟩ <;>
    rcases parseGeneralUdp_cases r (kEtherHeaderSize + kIpv4HeaderSize) total hipv4
      with ⟨hnot', hgeneral⟩ | ⟨hfits', hgeneral⟩
  · exact ⟨_, _, hfast, hgeneral, inFrame_of_ne nofun, rfl, nofun⟩
  · exact absurd hfits' hnot
  · exact absurd hfits hnot'
  · have hpayload : kEtherHeaderSize + kIpv4HeaderSize + kUdpHeaderSize
        + (udpLen frame (kEtherHeaderSize + kIpv4HeaderSize) - kUdpHeaderSize)
        ≤ frame.length := by
      have hlength := hfits.length
      have hend := hfits.inside
      omega
    exact ⟨_, _, hfast, hgeneral, inFrame_deliver hpayload hfits.size, agrees_deliver ..⟩

/-- In a short datagram no UDP header fits. -/
theorem parseGeneralIpv4_short (hdatagram : Datagram frame offset)
    (hproto : protocol frame offset = kIpProtoUdp)
    (hshort : frame.length < offset + ipv4HeaderLen frame offset + kUdpHeaderSize
      ∨ totalLen frame offset < ipv4HeaderLen frame offset + kUdpHeaderSize) :
    r.parseGeneralIpv4 frame offset = some { status := .malformed } := by
  rcases parseGeneralIpv4_cases r frame offset with ⟨hnot, _⟩ | ⟨_, hne, _⟩ | ⟨_, _, hout⟩
  · exact absurd hdatagram hnot
  · exact absurd hproto hne
  rw [hout]
  rcases parseGeneralUdp_cases r (offset + ipv4HeaderLen frame offset)
    (readU16BE frame (offset + 2)) hdatagram.header with ⟨_, hudp⟩ | ⟨hfits, _⟩
  · exact hudp
  · have hheader := hfits.header
    have hlength := hfits.length
    have hinside : _ ≤ offset + totalLen frame offset := hfits.inside
    omega

/-- The answers decide whether the parsers agree. -/
theorem agreement_of {fast general : ParsedPacket} {c : Prop} (hfast : r.parseFast frame = some fast)
    (hgeneral : r.parseGeneral frame = some general) (hin : InFrame frame fast)
    (h : c ∧ Agrees fast general ∨ ¬ c ∧ fast.status ≠ general.status) :
    r.Agreement frame ↔ c := by
  rcases h with ⟨hc, hagrees⟩ | ⟨hc, hne⟩
  · obtain ⟨out, hout, hin'⟩ := parseGeneral_inFrame r frame
    rw [hgeneral, Option.some_inj] at hout
    rw [← hout] at hin'
    exact iff_of_true ⟨fast, general, hfast, hgeneral, hagrees, hin, hin'⟩ hc
  · refine iff_of_false ?_ hc
    rintro ⟨fast', general', hfast', hgeneral', hagrees, _⟩
    rw [hfast, Option.some_inj] at hfast'
    rw [hgeneral, Option.some_inj] at hgeneral'
    rw [hfast', hgeneral'] at hne
    exact hne hagrees.1

/-- Frames that the fast parser hands over. -/
theorem agreement_of_eq (h : r.parseFast frame = r.parseGeneral frame) : r.Agreement frame := by
  obtain ⟨out, hout, hin⟩ := parseGeneral_inFrame r frame
  exact ⟨out, out, h.trans hout, hout, .refl out, hin, hin⟩

theorem parseFast_cases (r : DpdkReceiver) (frame : List UInt8) :
    frame.length < 14 ∧ r.parseFast frame = some { status := .malformed, fastPath := true }
    ∨ ¬ (readU16BE frame 12 = kIpv4EtherType
        ∧ (frame.length < 42 ∨ byteAt frame kEtherHeaderSize = 0x45))
      ∧ r.parseFast frame = r.parseGeneral frame
    ∨ 14 ≤ frame.length ∧ readU16BE frame 12 = kIpv4EtherType ∧ frame.length < 42
      ∧ r.parseFast frame = some { status := .malformed, fastPath := true }
    ∨ readU16BE frame 12 = kIpv4EtherType ∧ 42 ≤ frame.length
      ∧ byteAt frame kEtherHeaderSize = 0x45 ∧ r.parseFast frame = r.parseFastIpv4 frame := by
  have hether : kEtherHeaderSize = 14 := rfl
  unfold parseFast
  dsimp only
  by_cases hsize : frame.length < kEtherHeaderSize
  · rw [if_pos hsize]
    exact .inl ⟨hsize, rfl⟩
  rw [if_neg hsize]
  unfold etherType versionIhl
  rw [Checked.readU16BE_eq (by omega), Nat.zero_add]
  dsimp only [Option.bind_eq_bind, Option.bind_some]
  by_cases htype : readU16BE frame 12 = kIpv4EtherType
  swap
  · rw [if_pos htype]
    exact .inr (.inl ⟨fun h => htype h.1, rfl⟩)
  rw [if_neg (not_not.2 htype)]
  by_cases hshort : frame.length < kEtherHeaderSize + kIpv4HeaderSize + kUdpHeaderSize
  · rw [if_pos hshort]
    exact .inr (.inr (.inl ⟨Nat.not_lt.1 hsize, htype, hshort, rfl⟩))
  have hlong : 42 ≤ frame.length := Nat.not_lt.1 hshort
  rw [if_neg hshort, Checked.byteAt_eq (by omega), Option.bind_some]
  split_ifs with hplain
  · exact .inr (.inl ⟨fun h => h.2.elim (Nat.not_lt.2 hlong) hplain, rfl⟩)
  · exact .inr (.inr (.inr ⟨htype, hlong, not_not.1 hplain, rfl⟩))

/-- An untagged datagram whose UDP header would not fit is malformed to the fast parser; the general
one looks at the protocol first. -/
theorem agreement_of_short (hfast : r.parseFast frame
      = some { status := .malformed, fastPath := true })
    (hsize : kEtherHeaderSize ≤ frame.length) (htype : readU16BE frame 12 = kIpv4EtherType)
    (hshort : Datagram frame kEtherHeaderSize → frame.length < 42
      ∨ byteAt frame kEtherHeaderSize = 0x45 ∧ totalLen frame kEtherHeaderSize < 28) :
    r.Agreement frame ↔ ¬ ShortNonUdp frame := by
  have huntagged := parseGeneral_untagged (r := r) hsize htype
  rcases parseGeneralIpv4_cases r frame kEtherHeaderSize with
    ⟨hnot, hout⟩ | ⟨hdatagram, hproto, hout⟩ | ⟨hdatagram, hproto, _⟩
  · refine agreement_of hfast (huntagged.trans hout) (inFrame_of_ne nofun) (.inl ⟨?_, rfl, nofun⟩)
    exact fun h => hnot h.datagram
  · refine agreement_of hfast (huntagged.trans hout) (inFrame_of_ne nofun) (.inr ⟨?_, nofun⟩)
    exact not_not.2 ⟨htype, hdatagram, hproto, hshort hdatagram⟩
  · have hout : r.parseGeneralIpv4 frame kEtherHeaderSize = some { status := .malformed } := by
      refine parseGeneralIpv4_short hdatagram hproto ?_
      rcases hshort hdatagram with hlen | ⟨hplain, htotal⟩
      · have hheader := hdatagram.headerLen
        have hether : kEtherHeaderSize = 14 := rfl
        have hipv4 : kIpv4HeaderSize = 20 := rfl
        have hudp : kUdpHeaderSize = 8 := rfl
        exact .inl (by omega)
      · rw [ipv4HeaderLen_of_plain hplain]
        exact .inr htotal
    refine agreement_of hfast (huntagged.trans hout) (inFrame_of_ne nofun) (.inl ⟨?_, rfl, nofun⟩)
    exact fun h => h.protocol hproto

/-- Whatever the lines, the parsers agree on a frame exactly when it is no short datagram of another
protocol than UDP. -/
theorem parseFast_agrees_iff (r : DpdkReceiver) (frame : List UInt8) :
    r.Agreement frame ↔ ¬ ShortNonUdp frame := by
  rcases parseFast_cases r frame with ⟨hsize, hfast⟩ | ⟨hnot, hfast⟩ | ⟨hsize, htype, hlen, hfast⟩
    | ⟨htype, hlen, hplain, hfast⟩
  · have hgeneral : r.parseGeneral frame = some { status := .malformed } := by
      unfold parseGeneral
      exact if_pos hsize
    refine agreement_of hfast hgeneral (inFrame_of_ne nofun) (.inl ⟨fun h => ?_, rfl, nofun⟩)
    have hheader := h.datagram.header
    have hether : kEtherHeaderSize = 14 := rfl
    omega
  · refine iff_of_true (agreement_of_eq hfast) fun h => hnot ⟨h.etherType, ?_⟩
    exact h.short.imp_right fun hplain => hplain.1
  · exact agreement_of_short hfast hsize htype fun _ => .inl hlen
  have hsize : kEtherHeaderSize ≤ frame.length := le_trans (by decide) hlen
  have huntagged := parseGeneral_untagged (r := r) hsize htype
  have hlong : 28 ≤ totalLen frame kEtherHeaderSize → ¬ ShortNonUdp frame := by
    intro htotal h
    exact h.short.elim (Nat.not_lt.2 hlen) fun hplain => absurd hplain.2 (Nat.not_lt.2 htotal)
  rcases parseFastIpv4_cases r hlen hplain with ⟨hshort, hout⟩ | ⟨hdatagram, htotal, hproto, hout⟩
    | ⟨hdatagram, htotal, hproto, hout⟩
  · exact agreement_of_short (hfast.trans hout) hsize htype fun h => .inr ⟨hplain, hshort h⟩
  · rcases parseGeneralIpv4_cases r frame kEtherHeaderSize with ⟨hnot, _⟩ | ⟨_, _, hgeneral⟩
      | ⟨_, hudp, _⟩
    · exact absurd hdatagram hnot
    · exact agreement_of (hfast.trans hout) (huntagged.trans hgeneral) (inFrame_of_ne nofun)
        (.inl ⟨hlong htotal, rfl, nofun⟩)
    · exact absurd hudp hproto
  · rcases parseGeneralIpv4_cases r frame kEtherHeaderSize with ⟨hnot, _⟩ | ⟨_, hne, _⟩
      | ⟨_, _, hgeneral⟩
    · exact absurd hdatagram hnot
    · exact absurd hproto hne
    · obtain ⟨fast, general, hfastUdp, hgeneralUdp, hin, hagrees⟩ :=
        parseFastUdp_agrees r hlen hdatagram.inside
      rw [ipv4HeaderLen_of_plain hplain, hgeneralUdp] at hgeneral
      rw [hfastUdp] at hout
      exact agreement_of (hfast.trans hout) (huntagged.trans hgeneral) hin
        (.inl ⟨hlong htotal, hagrees⟩)

/-- An IPv4 header without payload, of protocol 6, in a frame of 60 bytes: the fast parser says
malformed, and the general one filters it. -/
theorem parseFast_differs :
    let r : DpdkReceiver := ⟨⟨0, 26477, false, true⟩, ⟨0, 0, false, false⟩⟩
    let frame := List.replicate 12 0 ++ [0x08, 0x00, 0x45, 0, 0, 20, 0, 0, 0, 0, 64, 6]
      ++ List.replicate 36 0
    frame.length = 60
    ∧ (r.parseFast frame).map (·.status) = some .malformed
    ∧ (r.parseGeneral frame).map (·.status) = some .filtered
    ∧ ¬ r.Agreement frame := by
  intro r frame
  refine ⟨rfl, rfl, rfl, ?_⟩
  rintro ⟨fast, general, hfast, hgeneral, hagrees, _⟩
  have hstatus : (r.parseFast frame).map (·.status) = (r.parseGeneral frame).map (·.status) := by
    rw [hfast, hgeneral]
    exact congrArg some hagrees.1
  exact absurd hstatus (by decide)

end DpdkReceiver

end AstraFeed
