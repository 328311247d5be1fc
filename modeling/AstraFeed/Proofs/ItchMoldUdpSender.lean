import AstraFeed.ItchMoldUdpSender
import AstraFeed.Proofs.SourceRoundTrip

/-!
# What the sender sends

Apart from heartbeats, the sender sends the packets of the source once each and in their order, and
announces the end of the session after the last of them (`Sending.run`). It reports success if and
only if it sent all there was to send (`exits_with_success_iff`).
-/

namespace AstraFeed

open MoldUdpPacketHeader Wire BigEndian

/-! ## Control packets -/

section Control

variable {session : List UInt8} {seq : UInt64} {count : UInt16} {p : PacketView}

theorem makeMoldControlPacket_eq (session : List UInt8) (seq : UInt64) (count : UInt16) :
    makeMoldControlPacket session seq count
      = ItchMoldUdpSource.resizeSession session
        ++ (toBytes 8 seq.toNat ++ toBytes 2 count.toNat) := by
  rw [makeMoldControlPacket, writeU64BE_eq, writeU16BE_eq, List.append_assoc]

theorem length_makeMoldControlPacket :
    (makeMoldControlPacket session seq count).length = kHeaderSize := by
  rw [makeMoldControlPacket_eq]
  simp [ItchMoldUdpSource.length_resizeSession, kSessionSize, kHeaderSize]

theorem readU64BE_makeMoldControlPacket :
    readU64BE (makeMoldControlPacket session seq count) 10 = seq := by
  refine UInt64.toNat_inj.1 ?_
  rw [makeMoldControlPacket_eq,
    show 10 = (ItchMoldUdpSource.resizeSession session).length from
      (ItchMoldUdpSource.length_resizeSession session).symm]
  exact readU64BE_append _ _ seq.toNat_lt

theorem readU16BE_makeMoldControlPacket :
    readU16BE (makeMoldControlPacket session seq count) 18 = count := by
  refine UInt16.toNat_inj.1 ?_
  have hlen : 18 = (ItchMoldUdpSource.resizeSession session ++ toBytes 8 seq.toNat).length := by
    simp [ItchMoldUdpSource.length_resizeSession, kSessionSize]
  have hread := readU16BE_append (ItchMoldUdpSource.resizeSession session ++ toBytes 8 seq.toNat) []
    count.toNat_lt
  rw [← hlen, List.append_nil, List.append_assoc] at hread
  rwa [makeMoldControlPacket_eq]

theorem session_makeMoldControlPacket :
    (makeMoldControlPacket session seq count).take kSessionSize
      = ItchMoldUdpSource.resizeSession session := by
  rw [makeMoldControlPacket_eq]
  exact List.take_left' (ItchMoldUdpSource.length_resizeSession session)

end Control

namespace Emitted

variable {session : List UInt8} {seq : ℕ} {packets : List PacketView}
  {msgs more : List (List UInt8)} {p : PacketView}

/-- One more packet, of the messages that come next. -/
theorem concat (h : Emitted session seq packets msgs)
    (hp : IsPacket session (seq + msgs.length) more p)
    (hsize : p.data.length ≤ ItchMoldUdpSource.kMaxPacketBytes)
    (hboundary : ItchMoldUdpSource.BoundaryLast more) :
    Emitted session seq (packets ++ [p]) (msgs ++ more) := by
  induction h with
  | nil seq =>
    have hone := Emitted.cons hp hsize hboundary (.nil _)
    rwa [List.append_nil] at hone
  | @cons seq q packets first rest hq hqsize hqboundary _ ih =>
    rw [List.length_append, ← Nat.add_assoc] at hp
    have := Emitted.cons hq hqsize hqboundary (ih hp)
    rwa [← List.append_assoc] at this

/-- Every packet is one of a slice of the messages. -/
theorem slice (h : Emitted session seq packets msgs) (hp : p ∈ packets) :
    ∃ before own after, msgs = before ++ own ++ after
      ∧ IsPacket session (seq + before.length) own p := by
  induction h with
  | nil => exact absurd hp List.not_mem_nil
  | @cons seq q packets first rest hq _ _ _ ih =>
    rcases List.mem_cons.1 hp with rfl | hp
    · exact ⟨[], first, rest, rfl, hq⟩
    · obtain ⟨before, own, after, rfl, hown⟩ := ih hp
      refine ⟨first ++ before, own, after, by simp, ?_⟩
      rwa [List.length_append, ← Nat.add_assoc]

end Emitted

/-! ## Where the source stands -/

namespace ItchMoldUdpSource

variable {s s' : ItchMoldUdpSource} {count : UInt16} {offset : ℕ} {body msg : List UInt8}
  {file : BinaryFile} {policy : CompletionPolicy} {session : List UInt8}
  {taken : List (List UInt8)}

theorem readRecord_error (h : s.readRecord count offset = .error s') : s'.nextSeq = s.nextSeq := by
  unfold readRecord readPayload at h
  dsimp only at h
  split_ifs at h
  all_goals
    obtain rfl := Except.error.inj h
    rfl

theorem readRecord_ok (h : s.readRecord count offset = .ok (msg, s')) :
    s.lastMessageWasEndOfMessages = false ∧ s'.nextSeq = s.nextSeq + 1 := by
  unfold readRecord readPayload at h
  dsimp only at h
  split_ifs at h with _ _ _ hlast
  obtain ⟨rfl, rfl⟩ := Prod.mk.inj (Except.ok.inj h)
  exact ⟨by simpa using hlast, rfl⟩

/-- The sequence goes on by the messages of the packet. -/
theorem fill_nextSeq (fuel : ℕ) (s : ItchMoldUdpSource) (count : UInt16) (body : List UInt8) :
    ∃ k : ℕ, (s.fill fuel count body).1.nextSeq = s.nextSeq + UInt64.ofNat k
      ∧ (s.fill fuel count body).2.1.toNat = count.toNat + k := by
  have hstay : ∀ (s : ItchMoldUdpSource) (count : UInt16), ∃ k : ℕ,
      s.nextSeq = s.nextSeq + UInt64.ofNat k ∧ count.toNat = count.toNat + k :=
    fun s _ => ⟨0, (UInt64.add_zero s.nextSeq).symm, rfl⟩
  induction fuel generalizing s count body with
  | zero => exact hstay s count
  | succ fuel ih =>
    rw [fill]
    split_ifs with hloop
    swap
    · exact hstay s count
    cases hread : s.readRecord count (kMoldHeaderSize + body.length) with
    | error s' =>
      obtain ⟨k, hk⟩ := hstay s count
      exact ⟨k, (readRecord_error hread).trans hk.1, hk.2⟩
    | ok out =>
      obtain ⟨msg, s'⟩ := out
      obtain ⟨hlast, hseq⟩ := readRecord_ok hread
      have hlt : count < s.msgsPerPacket := hloop.resolve_right (by simp [hlast])
      have hcount : (count + 1).toNat = count.toNat + 1 := by
        have hmax := s.msgsPerPacket.toNat_lt
        rw [UInt16.lt_iff_toNat_lt] at hlt
        rw [UInt16.toNat_add, show (1 : UInt16).toNat = 1 from rfl, Nat.mod_eq_of_lt (by omega)]
      dsimp only
      split_ifs
      · exact ⟨1, hseq, hcount⟩
      · obtain ⟨k, hnext, htotal⟩ := ih s' (count + 1) (body ++ writeU16BE msg.length.toUInt16 ++ msg)
        refine ⟨k + 1, ?_, by omega⟩
        rw [hnext, hseq, UInt64.add_assoc, Nat.add_comm k 1, UInt64.ofNat_add]
        rfl

/-- A call of `next` takes the sequence past the packet it gives. -/
theorem next_nextSeq (heof : s.eof = false) (hsession : s.session.length = kSessionSize)
    (ticks : UInt64) :
    ((s.next ticks).1 = none → (s.next ticks).2.nextSeq = s.nextSeq)
      ∧ ∀ p, (s.next ticks).1 = some p →
        (s.next ticks).2.nextSeq = s.nextSeq + UInt64.ofNat p.msgCount.toNat := by
  obtain ⟨k, hk, hcount⟩ := fill_nextSeq (s.input.length + 1) s 0 []
  rw [UInt16.toNat_zero, Nat.zero_add] at hcount
  rw [ItchMoldUdpSource.next, heof, if_neg (by decide)]
  generalize s.fill (s.input.length + 1) 0 [] = out at hk hcount ⊢
  obtain ⟨s', count, body⟩ := out
  dsimp only at hk hcount ⊢
  by_cases h0 : count = 0
  · rw [if_pos h0]
    refine ⟨fun _ => ?_, fun p hp => (by cases hp)⟩
    rw [h0, UInt16.toNat_zero] at hcount
    rw [hk, ← hcount]
    exact UInt64.add_zero _
  · rw [if_neg h0]
    refine ⟨fun hnone => (by cases hnone), fun p hp => ?_⟩
    obtain rfl := Option.some.inj hp
    have hlen : 18 = (s.session ++ writeU64BE s.nextSeq).length := by
      rw [writeU64BE_eq, List.length_append, hsession, length_toBytes]
      rfl
    have hread := readU16BE_append (s.session ++ writeU64BE s.nextSeq) body count.toNat_lt
    rw [← writeU16BE_eq, ← List.append_assoc, ← hlen] at hread
    rw [PacketView.msgCount, hread, hcount]
    exact hk

/-- The source has read the records `taken`, and numbers the next. -/
structure Stands (file : BinaryFile) (policy : CompletionPolicy) (session : List UInt8)
    (taken : List (List UInt8)) (s : ItchMoldUdpSource) : Prop where
  position : At file policy session taken s ∨ Done file policy taken s
  seq : s.nextSeq = UInt64.ofNat (1 + taken.length)

theorem Stands.beginsWith (h : Stands file policy session taken s) : BeginsWith file.bytes taken :=
  h.position.elim At.beginsWith fun hd => hd.longest.1

theorem Stands.setMessagesPerPacket (h : Stands file policy session taken s) (n : UInt16) :
    Stands file policy session taken (s.setMessagesPerPacket n).2 := by
  refine ⟨h.position.imp (At.setMessagesPerPacket · n) (Done.setMessagesPerPacket · n), ?_⟩
  unfold ItchMoldUdpSource.setMessagesPerPacket
  split_ifs <;> exact h.seq

/-- The sequence after the records of a file. -/
theorem toNat_of_beginsWith (h : BeginsWith file.bytes taken) :
    (UInt64.ofNat (1 + taken.length)).toNat = 1 + taken.length := by
  obtain ⟨hrecords, rest, hfile⟩ := h
  have hlen := length_flatMap_framed hrecords.each
  have hsize := file.size_lt
  rw [← hfile, List.length_append] at hsize
  rw [UInt64.toNat_ofNat', Nat.mod_eq_of_lt (by omega)]

theorem Stands.seq_toNat (h : Stands file policy session taken s) :
    s.nextSeq.toNat = 1 + taken.length := by
  rw [h.seq]
  exact toNat_of_beginsWith h.beginsWith

/-- A packet of the next records, and the source after it. -/
structure Fetched (file : BinaryFile) (policy : CompletionPolicy) (session : List UInt8)
    (taken msgs : List (List UInt8)) (p : PacketView) (s : ItchMoldUdpSource) : Prop where
  packet : IsPacket session (1 + taken.length) msgs p
  size : p.data.length ≤ kMaxPacketBytes
  boundary : BoundaryLast msgs
  stands : Stands file policy session (taken ++ msgs) s

theorem Stands.next (h : Stands file policy session taken s)
    (hsession : session.length = kSessionSize) (ticks : UInt64) :
    (∃ s', s.next ticks = (none, s') ∧ Done file policy taken s'
      ∧ Stands file policy session taken s')
    ∨ ∃ p s' msgs, s.next ticks = (some p, s') ∧ Fetched file policy session taken msgs p s' := by
  rcases h.position with hat | hdone
  swap
  · exact .inl ⟨s, next_done hdone ticks, hdone, h⟩
  obtain ⟨hnone, hsome⟩ := next_nextSeq hat.eof (hat.session ▸ hsession) ticks
  rcases next_spec hat hsession ticks with
    ⟨s', hnext, hdone⟩ | ⟨p, s', msgs, hnext, hp, hsize, hcut, hat'⟩
  · rw [hnext] at hnone
    exact .inl ⟨s', hnext, hdone, .inr hdone, (hnone rfl).trans h.seq⟩
  · rw [hnext] at hsome
    refine .inr ⟨p, s', msgs, hnext, hp, hsize, boundaryLast_of_chunk hcut.chunk, hat', ?_⟩
    rw [hsome p rfl, h.seq, hp.msgCount, List.length_append, ← Nat.add_assoc]
    exact (UInt64.ofNat_add _ _).symm

end ItchMoldUdpSource

/-! ## What is on the wire -/

open ItchMoldUdpSource in
/-- Heartbeats apart, what was sent is packets of the records `taken` and copies of the end of the
session. -/
structure Wired (config : SenderConfig) (file : BinaryFile) (packets : List PacketView)
    (taken : List (List UInt8)) (copies : ℕ) (wire : List (List UInt8)) : Prop where
  emitted : Emitted (resizeSession config.session) 1 packets taken
  begins : BeginsWith file.bytes taken
  ended : copies ≠ 0 → IsLongest file.bytes taken ∧ InGrammar config.completionPolicy file.bytes
  traffic : wire.filter (fun data => readU16BE data 18 ≠ 0) = packets.map (·.data)
    ++ List.replicate copies
      (makeMoldEndOfSessionPacket config.session (UInt64.ofNat (1 + taken.length)))
  heartbeats : ∀ data ∈ wire, readU16BE data 18 = 0 → ∃ seq : UInt64, 1 ≤ seq.toNat
    ∧ seq.toNat ≤ 1 + taken.length ∧ data = makeMoldHeartbeatPacket config.session seq

section Wire

open ItchMoldUdpSource

variable {config : SenderConfig} {file : BinaryFile} {packets : List PacketView}
  {taken msgs : List (List UInt8)} {copies : ℕ} {wire : List (List UInt8)} {p : PacketView}
  {source : ItchMoldUdpSource} {seq : UInt64}

theorem filter_concat {P : List UInt8 → Bool} {data : List UInt8} :
    (wire ++ [data]).filter P = wire.filter P ++ if P data then [data] else [] := by
  rw [List.filter_append]
  cases h : P data <;> simp [h]

theorem Wired.heartbeat (h : Wired config file packets taken copies wire) (hpos : 1 ≤ seq.toNat)
    (hle : seq.toNat ≤ 1 + taken.length) :
    Wired config file packets taken copies
      (wire ++ [makeMoldHeartbeatPacket config.session seq]) := by
  have hbeat : readU16BE (makeMoldHeartbeatPacket config.session seq) 18 = 0 :=
    readU16BE_makeMoldControlPacket
  refine ⟨h.emitted, h.begins, h.ended, ?_, fun data hdata h0 => ?_⟩
  · rw [filter_concat, if_neg (by simp [hbeat]), List.append_nil]
    exact h.traffic
  · rcases List.mem_append.1 hdata with hdata | hdata
    · exact h.heartbeats data hdata h0
    · exact ⟨seq, hpos, hle, List.mem_singleton.1 hdata⟩

theorem Wired.packet (h : Wired config file packets taken copies wire)
    (hf : Fetched file config.completionPolicy (resizeSession config.session) taken msgs p source) :
    Wired config file (packets ++ [p]) (taken ++ msgs) 0 (wire ++ [p.data]) := by
  -- no record follows an announced end
  have h0 : copies = 0 := by
    by_contra hne
    have hpre := ((h.ended hne).1.2 _ hf.stands.beginsWith).length_le
    rw [List.length_append] at hpre
    exact hf.packet.nonempty (List.length_eq_zero_iff.1 (by omega))
  subst h0
  have hdata : readU16BE p.data 18 ≠ 0 := hf.packet.isData.msgCount_ne_zero
  refine ⟨h.emitted.concat hf.packet hf.size hf.boundary, hf.stands.beginsWith,
    fun hne => absurd rfl hne, ?_, fun data hmem hbeat => ?_⟩
  · rw [filter_concat, if_pos (by simpa using hdata), h.traffic]
    simp
  · rcases List.mem_append.1 hmem with hmem | hmem
    · obtain ⟨seq, hpos, hle, heq⟩ := h.heartbeats data hmem hbeat
      refine ⟨seq, hpos, hle.trans ?_, heq⟩
      rw [List.length_append]
      omega
    · rw [List.mem_singleton.1 hmem] at hbeat
      exact absurd hbeat hdata

theorem Wired.endOfSession (h : Wired config file packets taken copies wire)
    (hdone : Done file config.completionPolicy taken source) (hc : source.completed = true) :
    Wired config file packets taken (copies + 1) (wire ++
      [makeMoldEndOfSessionPacket config.session (UInt64.ofNat (1 + taken.length))]) := by
  have hend : readU16BE (makeMoldEndOfSessionPacket config.session
      (UInt64.ofNat (1 + taken.length))) 18 ≠ 0 := by
    rw [makeMoldEndOfSessionPacket, readU16BE_makeMoldControlPacket]
    decide
  refine ⟨h.emitted, h.begins, fun _ => ⟨hdone.longest, hdone.completed.1 hc⟩, ?_,
    fun data hmem hbeat => ?_⟩
  · rw [filter_concat, if_pos (by simpa using hend), h.traffic, List.append_assoc,
      ← List.replicate_succ']
  · rcases List.mem_append.1 hmem with hmem | hmem
    · exact h.heartbeats data hmem hbeat
    · rw [List.mem_singleton.1 hmem] at hbeat
      exact absurd hbeat hend

theorem wired_nil (config : SenderConfig) (file : BinaryFile) : Wired config file [] [] 0 [] :=
  ⟨.nil 1, ⟨records_nil, List.nil_prefix⟩, fun hne => absurd rfl hne, rfl,
    fun _ h => absurd h List.not_mem_nil⟩

end Wire

namespace ItchMoldUdpSender

open ItchMoldUdpSource

/-! ## Where the sender is -/

section Place

variable (config : SenderConfig) (file : BinaryFile) (taken : List (List UInt8))

/-- The source is where the stage has it, with the records `taken` sent. -/
def Placed (s : ItchMoldUdpSender) : SenderStage → Prop
  | .waiting p => s.endOfSessionPacketsSent = 0 ∧ ∃ msgs,
    Fetched file config.completionPolicy (resizeSession config.session) taken msgs p s.source
  | .ending => s.endOfSessionPacketsSent < config.endOfSessionPacketCount
    ∧ Stands file config.completionPolicy (resizeSession config.session) taken s.source
    ∧ Done file config.completionPolicy taken s.source ∧ s.source.completed = true
  | .finished => s.transmissionFailed = true
    ∨ s.interrupted = true ∧ s.endOfSessionPacketsSent ≠ config.endOfSessionPacketCount
    ∨ s.interrupted = false ∧ Done file config.completionPolicy taken s.source
      ∧ (s.source.completed = true → s.endOfSessionPacketsSent = config.endOfSessionPacketCount)
  | _ => s.endOfSessionPacketsSent = 0
    ∧ Stands file config.completionPolicy (resizeSession config.session) taken s.source

/-- The counters, as long as no line refuses a datagram. -/
structure Counted (copies : ℕ) (s : ItchMoldUdpSender) : Prop where
  copies : s.endOfSessionPacketsSent.toNat = copies
  messages : s.logicalMessages = UInt64.ofNat taken.length
  lineA : s.lineA = ⟨s.logicalPackets, s.logicalMessages, 0⟩
  lineB : s.lineB = if config.redundant then ⟨s.logicalPackets, s.logicalMessages, 0⟩ else {}

/-- A state of a run. -/
structure Sending (packets : List PacketView) (copies : ℕ) (s : ItchMoldUdpSender) : Prop where
  wired : Wired config file packets taken copies s.wire
  placed : Placed config file taken s s.stage
  running : s.stage ≠ .finished → s.transmissionFailed = false ∧ s.interrupted = false
  counted : s.transmissionFailed = false → Counted config taken copies s

end Place

variable {config : SenderConfig} {file : BinaryFile} {s s' : ItchMoldUdpSender}
  {packets : List PacketView} {taken msgs : List (List UInt8)} {copies : ℕ} {p : PacketView}

/-- A line refused a datagram, and nothing more is sent. -/
structure Failed (s : ItchMoldUdpSender) (data : List UInt8) (s' : ItchMoldUdpSender) : Prop where
  stage : s'.stage = .finished
  failed : s'.transmissionFailed = true
  wire : s'.wire = s.wire ∨ s'.wire = s.wire ++ [data]

theorem Wired.sending_of_failed {data : List UInt8} (hf : Failed s data s')
    (h : Wired config file packets taken copies s'.wire) :
    Sending config file taken packets copies s' := by
  refine ⟨h, ?_, fun hne => absurd hf.stage hne, fun hno => ?_⟩
  · rw [hf.stage]
    exact .inl hf.failed
  · rw [hf.failed] at hno
    cases hno

/-- The lines after a datagram that every line took. -/
def onLines (config : SenderConfig) (s : ItchMoldUdpSender) (data : List UInt8) (msgCount : UInt16) :
    ItchMoldUdpSender :=
  { s with
    lineA := s.lineA.record true msgCount
    lineB := if config.redundant then s.lineB.record true msgCount else s.lineB
    wire := s.wire ++ [data] }

theorem transmit_cases (config : SenderConfig) (s : ItchMoldUdpSender) (data : List UInt8)
    (msgCount : UInt16) (outcome : LineOutcome) :
    s.transmit config data msgCount outcome = (true, s.onLines config data msgCount)
    ∨ ∃ s', s.transmit config data msgCount outcome = (false, s') ∧ Failed s data s' := by
  unfold transmit onLines
  dsimp only
  by_cases hall : outcome.lineA = true ∧ (config.redundant = true → outcome.lineB = true)
  · left
    rw [if_pos hall, hall.1]
    cases hr : config.redundant with
    | false => simp
    | true => simp [hall.2 hr]
  · right
    rw [if_neg hall]
    refine ⟨_, rfl, rfl, rfl, ?_⟩
    dsimp only
    split_ifs
    · exact .inr rfl
    · exact .inl rfl

/-- A control packet that every line took. -/
def controlled (config : SenderConfig) (s : ItchMoldUdpSender) (packet : List UInt8)
    (nextSequence : UInt64) : ItchMoldUdpSender :=
  { s.onLines config packet 0 with
    logicalPackets := s.logicalPackets + 1
    logicalNextSeq := nextSequence }

theorem sendControlPacket_cases (config : SenderConfig) (s : ItchMoldUdpSender)
    (packet : List UInt8) (nextSequence : UInt64) (outcome : LineOutcome) :
    s.sendControlPacket config packet nextSequence outcome
      = (true, s.controlled config packet nextSequence)
    ∨ ∃ s', s.sendControlPacket config packet nextSequence outcome = (false, s')
      ∧ Failed s packet s' := by
  unfold sendControlPacket
  rcases transmit_cases config s packet 0 outcome with hsent | ⟨s', hsent, hf⟩
  · rw [hsent]
    exact .inl rfl
  · rw [hsent]
    exact .inr ⟨s', rfl, hf⟩

theorem record_sent {line : RedundantLineState} {packets messages : UInt64} {msgCount : UInt16}
    (h : line = ⟨packets, messages, 0⟩) :
    line.record true msgCount = ⟨packets + 1, messages + msgCount.toUInt64, 0⟩ := by
  rw [h]
  rfl

/-- The counters after a datagram that every line took. -/
theorem Counted.onLines (h : Counted config taken copies s) (data : List UInt8)
    (msgCount : UInt16) :
    (s.onLines config data msgCount).lineA
        = ⟨s.logicalPackets + 1, s.logicalMessages + msgCount.toUInt64, 0⟩
      ∧ (s.onLines config data msgCount).lineB = if config.redundant then
          ⟨s.logicalPackets + 1, s.logicalMessages + msgCount.toUInt64, 0⟩ else {} := by
  refine ⟨record_sent h.lineA, ?_⟩
  have hb := h.lineB
  unfold ItchMoldUdpSender.onLines
  dsimp only
  split_ifs at hb ⊢
  · exact record_sent hb
  · exact hb

theorem Counted.controlled (h : Counted config taken copies s) (packet : List UInt8)
    (nextSequence : UInt64) :
    Counted config taken copies (s.controlled config packet nextSequence) := by
  obtain ⟨ha, hb⟩ := h.onLines packet 0
  have h0 : s.logicalMessages + (0 : UInt16).toUInt64 = s.logicalMessages := UInt64.add_zero _
  rw [h0] at ha hb
  exact ⟨h.copies, h.messages, ha, hb⟩

theorem Counted.congr (h : Counted config taken copies s)
    (hcopies : s'.endOfSessionPacketsSent = s.endOfSessionPacketsSent)
    (hpackets : s'.logicalPackets = s.logicalPackets)
    (hmessages : s'.logicalMessages = s.logicalMessages) (ha : s'.lineA = s.lineA)
    (hb : s'.lineB = s.lineB) : Counted config taken copies s' := by
  refine ⟨?_, ?_, ?_, ?_⟩
  · rw [hcopies, h.copies]
  · rw [hmessages, h.messages]
  · rw [ha, hpackets, hmessages, h.lineA]
  · rw [hb, hpackets, hmessages, h.lineB]

/-- A heartbeat of the next sequence, or of the packet that waits. -/
theorem Sending.control {packet : List UInt8} {nextSequence : UInt64}
    (h : Sending config file taken packets copies s)
    (hw : Wired config file packets taken copies (s.wire ++ [packet])) :
    Sending config file taken packets copies (s.controlled config packet nextSequence) := by
  refine ⟨hw, ?_, h.running, fun hok => (h.counted hok).controlled packet nextSequence⟩
  have hp := h.placed
  show Placed config file taken (s.controlled config packet nextSequence) s.stage
  cases hs : s.stage <;> rw [hs] at hp <;> exact hp

/-- A state of a run, whatever was sent so far. -/
def Replays (config : SenderConfig) (file : BinaryFile) (s : ItchMoldUdpSender) : Prop :=
  ∃ packets taken copies, Sending config file taken packets copies s

theorem Sending.refuse {data : List UInt8} {packets' : List PacketView}
    {taken' : List (List UInt8)} {copies' : ℕ} (h : Sending config file taken packets copies s)
    (hf : Failed s data s') (hw : Wired config file packets' taken' copies' (s.wire ++ [data])) :
    Replays config file s' := by
  rcases hf.wire with heq | heq
  · exact ⟨_, _, _, Wired.sending_of_failed hf (heq ▸ h.wired)⟩
  · exact ⟨_, _, _, Wired.sending_of_failed hf (heq ▸ hw)⟩

variable {outcome : LineOutcome}

theorem Sending.sendHeartbeat {seq : UInt64} (h : Sending config file taken packets copies s)
    (hseq : seq.toNat = 1 + taken.length) (hstep : s.sendHeartbeat config seq outcome = some s') :
    Replays config file s' := by
  have hw : Wired config file packets taken copies
      (s.wire ++ [makeMoldHeartbeatPacket config.session seq]) :=
    h.wired.heartbeat (by omega) hseq.le
  unfold ItchMoldUdpSender.sendHeartbeat at hstep
  split_ifs at hstep
  rcases sendControlPacket_cases config s (makeMoldHeartbeatPacket config.session seq) seq outcome
    with hsent | ⟨f, hsent, hf⟩
  · rw [hsent] at hstep
    obtain rfl := Option.some.inj hstep
    have hc : Sending config file taken packets copies (s.controlled config _ seq) := h.control hw
    exact ⟨packets, taken, copies, hc.wired, hc.placed, hc.running,
      fun hok => (hc.counted hok).congr rfl rfl rfl rfl rfl⟩
  · rw [hsent] at hstep
    obtain rfl := Option.some.inj hstep
    exact h.refuse hf hw

theorem Sending.sendStartupHeartbeat (h : Sending config file taken packets copies s)
    (hseq : s.source.nextSeq.toNat = 1 + taken.length) :
    Replays config file (s.sendStartupHeartbeat config outcome) := by
  have hw : Wired config file packets taken copies
      (s.wire ++ [makeMoldHeartbeatPacket config.session s.source.nextSeq]) :=
    h.wired.heartbeat (by omega) hseq.le
  unfold ItchMoldUdpSender.sendStartupHeartbeat
  rcases sendControlPacket_cases config s
    (makeMoldHeartbeatPacket config.session s.source.nextSeq) s.source.nextSeq outcome
    with hsent | ⟨f, hsent, hf⟩
  · rw [hsent]
    have hc : Sending config file taken packets copies
        (s.controlled config _ s.source.nextSeq) := h.control hw
    exact ⟨packets, taken, copies, hc.wired, hc.placed, hc.running,
      fun hok => (hc.counted hok).congr rfl rfl rfl rfl rfl⟩
  · rw [hsent]
    exact h.refuse hf hw

theorem Sending.readNext (h : Sending config file taken packets copies s)
    (hready : s.stage = .ready) (ticks : UInt64) : Replays config file (s.readNext ticks) := by
  have hp := h.placed
  rw [hready] at hp
  obtain ⟨h0, hstands⟩ := hp
  obtain ⟨hfailed, hinterrupted⟩ := h.running (by simp [hready])
  have hcounted := h.counted hfailed
  unfold ItchMoldUdpSender.readNext
  rcases hstands.next (length_resizeSession config.session) ticks with
    ⟨source, hnext, hdone, hstands'⟩ | ⟨p, source, msgs, hnext, hf⟩
  · rw [hnext]
    refine ⟨packets, taken, copies, h.wired, ?_, fun _ => ⟨hfailed, hinterrupted⟩,
      fun _ => hcounted.congr rfl rfl rfl rfl rfl⟩
    unfold atStage
    dsimp only
    cases hc : source.completed with
    | true =>
      refine ⟨?_, hstands', hdone, hc⟩
      show s.endOfSessionPacketsSent < _
      rw [h0]
      exact UInt64.pos_iff_ne_zero.2 config.endOfSessionPacketCount_ne_zero
    | false => exact .inr (.inr ⟨hinterrupted, hdone, fun hno => by rw [hc] at hno; cases hno⟩)
  · rw [hnext]
    exact ⟨packets, taken, copies, h.wired, ⟨h0, msgs, hf⟩, fun _ => ⟨hfailed, hinterrupted⟩,
      fun _ => hcounted.congr rfl rfl rfl rfl rfl⟩

/-- The source is where the stages between packets have it. -/
structure Between (config : SenderConfig) (file : BinaryFile) (taken : List (List UInt8))
    (packets : List PacketView) (copies : ℕ) (s : ItchMoldUdpSender) : Prop where
  wired : Wired config file packets taken copies s.wire
  none_ended : s.endOfSessionPacketsSent = 0
  stands : Stands file config.completionPolicy (resizeSession config.session) taken s.source
  not_failed : s.transmissionFailed = false
  not_interrupted : s.interrupted = false
  counted : Counted config taken copies s

theorem Between.sending (h : Between config file taken packets copies s) {stage : SenderStage}
    (hstage : stage = .ready ∨ stage = .pacing ∨ ∃ timing paced, stage = .paused timing paced) :
    Sending config file taken packets copies (s.atStage stage) := by
  refine ⟨h.wired, ?_, fun _ => ⟨h.not_failed, h.not_interrupted⟩,
    fun _ => h.counted.congr rfl rfl rfl rfl rfl⟩
  rcases hstage with rfl | rfl | ⟨timing, paced, rfl⟩ <;> exact ⟨h.none_ended, h.stands⟩

/-- Opening or closing the window changes how the next packets are cut, at most. -/
theorem Between.window (h : Between config file taken packets copies s) (active : Bool)
    (n : UInt16) :
    Between config file taken packets copies { s with
      premarketActive := active
      source := if config.replayMode = .timestamp then (s.source.setMessagesPerPacket n).2
        else s.source } := by
  refine ⟨h.wired, h.none_ended, ?_, h.not_failed, h.not_interrupted,
    h.counted.congr rfl rfl rfl rfl rfl⟩
  dsimp only
  split_ifs
  · exact h.stands.setMessagesPerPacket n
  · exact h.stands

theorem Between.afterPause (h : Between config file taken packets copies s)
    (timing : PacketTiming) (paced : Bool) :
    Sending config file taken packets copies (s.afterPause config timing paced) := by
  have hite : ∀ {c : Prop} [Decidable c] {a b : ItchMoldUdpSender},
      Between config file taken packets copies a → Between config file taken packets copies b →
      Between config file taken packets copies (if c then a else b) := by
    intro c _ a b ha hb
    split_ifs
    · exact ha
    · exact hb
  unfold ItchMoldUdpSender.afterPause
  have hopen := hite (c := timing.containsSs = true
    ∧ config.premarketEnabled s.premarket = true ∧ (!s.premarketActive) = true) (h.window true 1) h
  dsimp only at hopen ⊢
  generalize (if timing.containsSs = true ∧ config.premarketEnabled s.premarket = true
    ∧ (!s.premarketActive) = true then _ else s : ItchMoldUdpSender) = s₁ at hopen ⊢
  have hclose := hite (c := timing.containsSq = true) (hopen.window false config.msgsPerPacket)
    hopen
  generalize (if timing.containsSq = true then _ else s₁ : ItchMoldUdpSender) = s₂ at hclose ⊢
  refine hclose.sending ?_
  split_ifs
  · exact .inr (.inl rfl)
  · exact .inl rfl

/-- A packet that every line took. -/
def packetSent (config : SenderConfig) (s : ItchMoldUdpSender) (packet : PacketView) :
    ItchMoldUdpSender :=
  { s.onLines config packet.data packet.msgCount with
    logicalPackets := s.logicalPackets + 1
    logicalMessages := s.logicalMessages + packet.msgCount.toUInt64
    logicalFirstSeq := if s.logicalFirstSeq = 0 then packet.firstSeq else s.logicalFirstSeq
    logicalNextSeq := packet.endSeq }

theorem sendPacket_cases (config : SenderConfig) (s : ItchMoldUdpSender) (packet : PacketView)
    (outcome : LineOutcome) :
    (∃ timing paced, s.sendPacket config packet outcome
      = (s.packetSent config packet).atStage (.paused timing paced))
    ∨ (∃ timing paced, s.sendPacket config packet outcome
      = (s.packetSent config packet).afterPause config timing paced)
    ∨ Failed s packet.data (s.sendPacket config packet outcome) := by
  unfold ItchMoldUdpSender.sendPacket
  dsimp only
  rcases transmit_cases config s packet.data (readU16BE packet.data 18) outcome with
    hsent | ⟨f, hsent, hf⟩
  · rw [hsent]
    dsimp only
    rw [if_neg (by decide)]
    by_cases hpause : (s.timingOf config packet).containsSs = true
      ∧ (s.onLines config packet.data (readU16BE packet.data 18)).ssPausePending = true
    · rw [if_pos hpause]
      exact .inl ⟨_, _, rfl⟩
    · rw [if_neg hpause]
      exact .inr (.inl ⟨_, _, rfl⟩)
  · rw [hsent]
    exact .inr (.inr hf)

theorem toUInt64_eq_ofNat (n : UInt16) : n.toUInt64 = UInt64.ofNat n.toNat := by
  have hlt := n.toNat_lt
  refine UInt64.toNat_inj.1 ?_
  rw [UInt16.toNat_toUInt64, UInt64.toNat_ofNat', Nat.mod_eq_of_lt (by omega)]

theorem Sending.sendPacket (h : Sending config file taken packets copies s)
    (hstage : s.stage = .waiting p) : Replays config file (s.sendPacket config p outcome) := by
  have hp := h.placed
  rw [hstage] at hp
  obtain ⟨h0, msgs, hf⟩ := hp
  obtain ⟨hfailed, hinterrupted⟩ := h.running (by simp [hstage])
  have hcounted := h.counted hfailed
  have hw := h.wired.packet hf
  have hbetween : Between config file (taken ++ msgs) (packets ++ [p]) 0
      (s.packetSent config p) := by
    obtain ⟨ha, hb⟩ := hcounted.onLines p.data p.msgCount
    refine ⟨hw, h0, hf.stands, hfailed, hinterrupted, ?_, ?_, ha, hb⟩
    · show s.endOfSessionPacketsSent.toNat = 0
      rw [h0]
      rfl
    · show s.logicalMessages + p.msgCount.toUInt64 = _
      rw [hcounted.messages, toUInt64_eq_ofNat, hf.packet.msgCount, List.length_append,
        UInt64.ofNat_add]
  rcases sendPacket_cases config s p outcome with ⟨timing, paced, hout⟩ | ⟨timing, paced, hout⟩ | hout
  · rw [hout]
    exact ⟨_, _, _, hbetween.sending (.inr (.inr ⟨timing, paced, rfl⟩))⟩
  · rw [hout]
    exact ⟨_, _, _, hbetween.afterPause timing paced⟩
  · exact h.refuse hout hw

/-- A copy of the end of the session that every line took. -/
def copySent (config : SenderConfig) (s : ItchMoldUdpSender) : ItchMoldUdpSender :=
  { s.controlled config (makeMoldEndOfSessionPacket config.session s.source.nextSeq)
      s.source.nextSeq with
    logicalFirstSeq :=
      if s.endOfSessionPacketsSent = 0 ∧ s.logicalFirstSeq = 0 then s.source.nextSeq
      else s.logicalFirstSeq
    endOfSessionPacketsSent := s.endOfSessionPacketsSent + 1 }

theorem sendEndOfSession_cases (config : SenderConfig) (s : ItchMoldUdpSender)
    (outcome : LineOutcome) :
    s.sendEndOfSession config outcome
      = (if s.endOfSessionPacketsSent + 1 < config.endOfSessionPacketCount then s.copySent config
        else (s.copySent config).atStage .finished)
    ∨ Failed s (makeMoldEndOfSessionPacket config.session s.source.nextSeq)
      (s.sendEndOfSession config outcome) := by
  unfold ItchMoldUdpSender.sendEndOfSession
  dsimp only
  rcases sendControlPacket_cases config s
    (makeMoldEndOfSessionPacket config.session s.source.nextSeq) s.source.nextSeq outcome
    with hsent | ⟨f, hsent, hf⟩
  · rw [hsent]
    exact .inl rfl
  · rw [hsent]
    exact .inr hf

/-- Copies are sent until there are as many as configured. -/
theorem Sending.sendEndOfSession (h : Sending config file taken packets copies s)
    (hstage : s.stage = .ending) : Replays config file (s.sendEndOfSession config outcome) := by
  have hp := h.placed
  rw [hstage] at hp
  obtain ⟨hlt, hstands, hdone, hc⟩ := hp
  obtain ⟨hfailed, hinterrupted⟩ := h.running (by simp [hstage])
  have hcounted := h.counted hfailed
  have hw := h.wired.endOfSession hdone hc
  rw [← hstands.seq] at hw
  rcases sendEndOfSession_cases config s outcome with hout | hout
  swap
  · exact h.refuse hout hw
  have hnext : (s.endOfSessionPacketsSent + 1).toNat = s.endOfSessionPacketsSent.toNat + 1 := by
    have hmax := config.endOfSessionPacketCount.toNat_lt
    rw [UInt64.lt_iff_toNat_lt] at hlt
    rw [UInt64.toNat_add, show (1 : UInt64).toNat = 1 from rfl, Nat.mod_eq_of_lt (by omega)]
  have hcopies : Counted config taken (copies + 1) (s.copySent config) := by
    have hctl := hcounted.controlled
      (makeMoldEndOfSessionPacket config.session s.source.nextSeq) s.source.nextSeq
    refine ⟨?_, hctl.messages, hctl.lineA, hctl.lineB⟩
    rw [← hcounted.copies]
    exact hnext
  rw [hout]
  split_ifs with hmore
  · refine ⟨packets, taken, copies + 1, hw, ?_, fun _ => ⟨hfailed, hinterrupted⟩, fun _ => hcopies⟩
    show Placed config file taken (s.copySent config) s.stage
    rw [hstage]
    exact ⟨hmore, hstands, hdone, hc⟩
  · refine ⟨packets, taken, copies + 1, hw, .inr (.inr ⟨hinterrupted, hdone, fun _ => ?_⟩),
      fun hne => absurd rfl hne, fun _ => hcopies.congr rfl rfl rfl rfl rfl⟩
    refine UInt64.toNat_inj.1 ?_
    show (s.endOfSessionPacketsSent + 1).toNat = _
    rw [UInt64.lt_iff_toNat_lt] at hlt hmore
    omega

/-! ## Runs -/

theorem Sending.stop (h : Sending config file taken packets copies s)
    (hne : s.stage ≠ .finished) :
    Sending config file taken packets copies { s with interrupted := true, stage := .finished } := by
  refine ⟨h.wired, .inr (.inl ⟨rfl, ?_⟩), fun hne => absurd rfl hne,
    fun hok => (h.counted hok).congr rfl rfl rfl rfl rfl⟩
  have hp := h.placed
  have h0 := config.endOfSessionPacketCount_ne_zero
  show s.endOfSessionPacketsSent ≠ _
  cases hs : s.stage with
  | finished => exact absurd hs hne
  | ending =>
    rw [hs] at hp
    exact fun heq => absurd hp.1 (by rw [heq]; exact UInt64.lt_irrefl _)
  | _ =>
    rw [hs] at hp
    rw [hp.1]
    exact h0.symm

/-- What a step can do. -/
inductive Moves (config : SenderConfig) (s : ItchMoldUdpSender) : ItchMoldUdpSender → Prop
  | stop (hs : s.stage ≠ .finished) :
    Moves config s { s with interrupted := true, stage := .finished }
  | read (hs : s.stage = .ready) (ticks : UInt64) : Moves config s (s.readNext ticks)
  | startup (hs : s.stage = .startup) (outcome : LineOutcome) :
    Moves config s (s.sendStartupHeartbeat config outcome)
  | ready (hs : s.stage = .startup ∨ s.stage = .pacing) : Moves config s (s.atStage .ready)
  | heartbeat {s' : ItchMoldUdpSender} {seq : UInt64} {outcome : LineOutcome}
    (hs : (∃ p, s.stage = .waiting p ∧ seq = p.firstSeq)
      ∨ ((∃ timing paced, s.stage = .paused timing paced) ∨ s.stage = .pacing)
        ∧ seq = s.source.nextSeq)
    (hsent : s.sendHeartbeat config seq outcome = some s') : Moves config s s'
  | packet {p : PacketView} (hs : s.stage = .waiting p) (outcome : LineOutcome) :
    Moves config s (s.sendPacket config p outcome)
  | resume {timing : PacketTiming} {paced : Bool} (hs : s.stage = .paused timing paced) :
    Moves config s (afterPause config { s with ssPausePending := false } timing paced)
  | copy (hs : s.stage = .ending) (outcome : LineOutcome) :
    Moves config s (s.sendEndOfSession config outcome)

theorem step_moves {choice : SenderChoice} (h : s.step config choice = some s') :
    Moves config s s' := by
  unfold ItchMoldUdpSender.step at h
  cases choice with
  | stop =>
    dsimp only at h
    split at h
    · cases h
    · obtain rfl := Option.some.inj h
      exact .stop ‹_›
  | next ticks =>
    dsimp only at h
    split at h
    · obtain rfl := Option.some.inj h
      exact .read ‹_› ticks
    · cases h
  | heartbeat outcome =>
    dsimp only at h
    split at h
    · split_ifs at h
      exact .heartbeat (.inl ⟨_, ‹_›, rfl⟩) h
    · exact .heartbeat (.inr ⟨.inl ⟨_, _, ‹_›⟩, rfl⟩) h
    · exact .heartbeat (.inr ⟨.inr ‹_›, rfl⟩) h
    · cases h
  | transmit outcome =>
    dsimp only at h
    split at h
    · split_ifs at h
      obtain rfl := Option.some.inj h
      exact .startup ‹_› outcome
    · obtain rfl := Option.some.inj h
      exact .packet ‹_› outcome
    · obtain rfl := Option.some.inj h
      exact .copy ‹_› outcome
    · cases h
  | proceed =>
    dsimp only at h
    split at h
    · split_ifs at h
      obtain rfl := Option.some.inj h
      exact .ready (.inl ‹_›)
    · obtain rfl := Option.some.inj h
      exact .resume ‹_›
    · obtain rfl := Option.some.inj h
      exact .ready (.inr ‹_›)
    · cases h

/-- The stages between packets. -/
theorem Sending.between {stage : SenderStage} (h : Sending config file taken packets copies s)
    (hs : s.stage = stage) (hstage : stage = .startup ∨ stage = .ready ∨ stage = .pacing
      ∨ ∃ timing paced, stage = .paused timing paced) :
    Between config file taken packets copies s := by
  have hp := h.placed
  rw [hs] at hp
  rcases hstage with rfl | rfl | rfl | ⟨timing, paced, rfl⟩
  all_goals
    obtain ⟨hfailed, hinterrupted⟩ := h.running (by simp [hs])
    exact ⟨h.wired, hp.1, hp.2, hfailed, hinterrupted, h.counted hfailed⟩

theorem Sending.moves (h : Sending config file taken packets copies s)
    (hm : Moves config s s') : Replays config file s' := by
  cases hm with
  | stop hs => exact ⟨packets, taken, copies, h.stop hs⟩
  | read hs ticks => exact h.readNext hs ticks
  | startup hs outcome =>
    exact h.sendStartupHeartbeat (h.between hs (.inl rfl)).stands.seq_toNat
  | ready hs =>
    have hb : Between config file taken packets copies s :=
      hs.elim (h.between · (.inl rfl)) (h.between · (.inr (.inr (.inl rfl))))
    exact ⟨packets, taken, copies, hb.sending (.inl rfl)⟩
  | heartbeat hs hsent =>
    refine h.sendHeartbeat ?_ hsent
    rcases hs with ⟨p, hs, rfl⟩ | ⟨⟨timing, paced, hs⟩ | hs, rfl⟩
    · have hp := h.placed
      rw [hs] at hp
      obtain ⟨-, msgs, hf⟩ := hp
      exact hf.packet.firstSeq
    · exact (h.between hs (.inr (.inr (.inr ⟨_, _, rfl⟩)))).stands.seq_toNat
    · exact (h.between hs (.inr (.inr (.inl rfl)))).stands.seq_toNat
  | packet hs outcome => exact h.sendPacket hs
  | @resume timing paced hs =>
    have hb := h.between hs (.inr (.inr (.inr ⟨_, _, rfl⟩)))
    refine ⟨packets, taken, copies, Between.afterPause ?_ timing paced⟩
    exact ⟨hb.wired, hb.none_ended, hb.stands, hb.not_failed, hb.not_interrupted,
      hb.counted.congr rfl rfl rfl rfl rfl⟩
  | copy hs outcome => exact h.sendEndOfSession hs

theorem replays_create (config : SenderConfig) (file : BinaryFile) :
    Replays config file (create config file) := by
  refine ⟨[], [], 0, wired_nil config file, ⟨rfl, ?_⟩, fun _ => ⟨rfl, rfl⟩,
    fun _ => ⟨rfl, rfl, rfl, ?_⟩⟩
  · refine ⟨.inl (at_create file config.completionPolicy config.session_length_le
      config.msgsPerPacket_ne_zero), ?_⟩
    show (ItchMoldUdpSource.create _ _ _ _).nextSeq = _
    unfold ItchMoldUdpSource.create
    rw [if_neg (Nat.not_lt.2 config.session_length_le), if_neg config.msgsPerPacket_ne_zero]
    rfl
  · show ({} : RedundantLineState) = _
    split_ifs <;> rfl

theorem Replays.run (h : Replays config file s) (choices : List SenderChoice) :
    Replays config file (s.run config choices) := by
  induction choices generalizing s with
  | nil => exact h
  | cons choice choices ih =>
    refine ih ?_
    show Replays config file ((s.step config choice).getD s)
    cases hstep : s.step config choice with
    | none => exact h
    | some s' =>
      obtain ⟨_, _, _, h⟩ := h
      exact h.moves (step_moves hstep)

theorem Failed.wire_isPrefix {data : List UInt8} (h : Failed s data s') : s.wire <+: s'.wire := by
  rcases h.wire with heq | heq <;> rw [heq]
  exact List.prefix_append _ _

/-- What is sent stays sent. -/
theorem transmit_wire (data : List UInt8) (msgCount : UInt16) :
    s.wire <+: (s.transmit config data msgCount outcome).2.wire := by
  rcases transmit_cases config s data msgCount outcome with hsent | ⟨f, hsent, hf⟩
  · rw [hsent]
    exact List.prefix_append _ _
  · rw [hsent]
    exact hf.wire_isPrefix

theorem sendControlPacket_wire (packet : List UInt8) (nextSequence : UInt64) :
    s.wire <+: (s.sendControlPacket config packet nextSequence outcome).2.wire := by
  have hw : s.wire <+: (s.transmit config packet 0 outcome).2.wire := transmit_wire packet 0
  unfold ItchMoldUdpSender.sendControlPacket
  dsimp only
  split_ifs <;> exact hw

theorem sendHeartbeat_wire {seq : UInt64} (h : s.sendHeartbeat config seq outcome = some s') :
    s.wire <+: s'.wire := by
  unfold ItchMoldUdpSender.sendHeartbeat at h
  split_ifs at h
  obtain rfl := Option.some.inj h
  split_ifs <;> exact sendControlPacket_wire _ _

theorem afterPause_wire (timing : PacketTiming) (paced : Bool) :
    (s.afterPause config timing paced).wire = s.wire := by
  unfold ItchMoldUdpSender.afterPause atStage
  dsimp only
  split_ifs <;> rfl

theorem Moves.wire (h : Moves config s s') : s.wire <+: s'.wire := by
  cases h with
  | stop => exact List.prefix_rfl
  | ready => exact List.prefix_rfl
  | read hs ticks =>
    unfold readNext
    dsimp only
    split <;> exact List.prefix_rfl
  | startup hs outcome =>
    have hw : s.wire <+: (s.sendControlPacket config _ s.source.nextSeq outcome).2.wire :=
      sendControlPacket_wire (makeMoldHeartbeatPacket config.session s.source.nextSeq) _
    unfold sendStartupHeartbeat
    dsimp only
    split_ifs <;> exact hw
  | heartbeat hs hsent => exact sendHeartbeat_wire hsent
  | @packet p hs outcome =>
    have hsent : s.wire <+: (s.packetSent config p).wire := List.prefix_append _ _
    rcases sendPacket_cases config s p outcome with ⟨_, _, hout⟩ | ⟨_, _, hout⟩ | hout
    · rw [hout]
      exact hsent
    · rw [hout, afterPause_wire]
      exact hsent
    · exact hout.wire_isPrefix
  | resume hs => rw [afterPause_wire]
  | copy hs outcome =>
    rcases sendEndOfSession_cases config s outcome with hout | hout
    · rw [hout]
      split_ifs <;> exact List.prefix_append _ _
    · exact hout.wire_isPrefix

/-! ## Success -/

/-- The counters of a replay without a failure are those of its lines. -/
theorem Counted.exitsWithSuccess (h : Counted config taken copies s)
    (hok : s.transmissionFailed = false) :
    s.exitsWithSuccess config = true ↔ s.completion config = .complete := by
  have ha : s.lineA.sendFailures = 0 := by rw [h.lineA]
  have hb : s.lineB.sendFailures = 0 := by
    rw [h.lineB]
    split_ifs <;> rfl
  have hclean : s.redundantCountsClean config = true := by
    unfold redundantCountsClean
    rw [decide_eq_true_eq]
    intro hr
    rw [h.lineB, h.lineA, if_pos hr]
    exact ⟨rfl, rfl, rfl, rfl⟩
  unfold ItchMoldUdpSender.exitsWithSuccess ItchMoldUdpSender.completion
  rw [decide_eq_true_eq, hok, ha, hb, hclean]
  cases s.source.completed <;> cases s.endOfSessionSent config <;> cases s.interrupted <;> simp

/-- A replay that ended was a success exactly when no line refused a datagram, nothing interrupted
it and the file is complete. Then every line took the packets of all the records, once each and in
their order, and after them the announcements of the end of the session. -/
theorem exits_with_success_iff (config : SenderConfig) (file : BinaryFile)
    (choices : List SenderChoice)
    (hend : ((create config file).run config choices).stage = .finished) :
    let s := (create config file).run config choices
    (s.exitsWithSuccess config = true ↔ s.transmissionFailed = false ∧ s.interrupted = false
        ∧ InGrammar config.completionPolicy file.bytes)
      ∧ (s.exitsWithSuccess config = true ↔ s.completion config = .complete)
      ∧ (s.exitsWithSuccess config = true → ∃ packets records,
        IsLongest file.bytes records
          ∧ Contiguous 1 packets
          ∧ packets.flatMap PacketView.messages = records
          ∧ s.wire.filter (fun data => readU16BE data 18 ≠ 0) = packets.map (·.data)
            ++ List.replicate config.endOfSessionPacketCount.toNat
              (makeMoldEndOfSessionPacket config.session (UInt64.ofNat (1 + records.length)))
          ∧ s.logicalMessages = UInt64.ofNat records.length
          ∧ s.lineA = ⟨s.logicalPackets, s.logicalMessages, 0⟩
          ∧ (config.redundant = true → s.lineB = s.lineA)) := by
  intro s
  obtain ⟨packets, taken, copies, h⟩ := (replays_create config file).run choices
  change Sending config file taken packets copies s at h
  change s.stage = .finished at hend
  have hp := h.placed
  rw [hend] at hp
  cases hf : s.transmissionFailed with
  | true =>
    have hexit : s.exitsWithSuccess config = false := by simp [exitsWithSuccess, hf]
    have hcompletion : s.completion config ≠ .complete := by simp [completion, hf]
    simp [hexit, hcompletion]
  | false =>
    have hcounted := h.counted hf
    have hexit := hcounted.exitsWithSuccess hf
    have hcomplete : s.completion config = .complete ↔ s.source.completed = true
        ∧ s.endOfSessionPacketsSent = config.endOfSessionPacketCount := by
      unfold completion endOfSessionSent
      rw [hf]
      cases s.source.completed <;> cases s.interrupted <;> simp
    refine ⟨?_, hexit, fun hs => ?_⟩
    · rw [hexit, hcomplete]
      rcases hp with hno | ⟨hint, hne⟩ | ⟨hint, hdone, hsent⟩
      · rw [hf] at hno
        cases hno
      · simp [hint, hne]
      · rw [hint, ← hdone.completed]
        exact ⟨fun hc => ⟨rfl, rfl, hc.1⟩, fun hc => ⟨hc.2.2, hsent hc.2.2⟩⟩
    · obtain ⟨-, hsent⟩ := hcomplete.1 (hexit.1 hs)
      have hcopies : copies = config.endOfSessionPacketCount.toNat := by
        rw [← hcounted.copies, hsent]
      have hne : copies ≠ 0 := fun h0 => config.endOfSessionPacketCount_ne_zero
        (UInt64.toNat_inj.1 (hcopies.symm.trans h0))
      refine ⟨packets, taken, (h.wired.ended hne).1, h.wired.emitted.contiguous,
        h.wired.emitted.messages, ?_, hcounted.messages, hcounted.lineA, fun hr => ?_⟩
      · rw [← hcopies]
        exact h.wired.traffic
      · rw [hcounted.lineB, if_pos hr, hcounted.lineA]

/-- A replay of the short file over two lines, with a heartbeat before it. -/
def shortReplay : List SenderChoice :=
  [.transmit ⟨true, true⟩, .proceed, .next 0, .transmit ⟨true, true⟩, .next 0,
    .transmit ⟨true, true⟩, .transmit ⟨true, true⟩]

def shortConfig : SenderConfig where
  session := []
  msgsPerPacket := 2
  completionPolicy := .requireTerminator
  redundant := true
  pktsPerSecond := 0
  premarketSeconds := 0
  ssPauseSeconds := 0
  replayMode := .off
  startupHeartbeatCount := 1
  idleHeartbeatIntervalMs := 1000
  endOfSessionPacketCount := 2
  session_length_le := by decide
  msgsPerPacket_ne_zero := by decide
  endOfSessionPacketCount_ne_zero := by decide

theorem exits_with_success_iff_short :
    ((create shortConfig shortFile).run shortConfig shortReplay).exitsWithSuccess shortConfig = true
      ∧ InGrammar .requireTerminator shortFile.bytes := by
  have hsuccess : ((create shortConfig shortFile).run shortConfig shortReplay).exitsWithSuccess
      shortConfig = true := by decide +kernel
  have hend : ((create shortConfig shortFile).run shortConfig shortReplay).stage = .finished := by
    with_unfolding_all rfl
  exact ⟨hsuccess, ((exits_with_success_iff shortConfig shortFile shortReplay hend).1.1
    hsuccess).2.2⟩

end ItchMoldUdpSender

end AstraFeed
