import AstraFeed.CheckedDecoder
import AstraFeed.Proofs.CheckedReads
import AstraFeed.Proofs.DecoderRun
import AstraFeed.Proofs.Framing

/-!
# The pre-pass suffices

A packet the pre-pass accepts is walked over as the pre-pass walked over it, from whatever sequence
its messages are handed over, and no read leaves its message (`processForeseen_eq`). So the decoder
with its reads checked is the decoder, in every run (`processPacket_eq`). A packet the pre-pass
does not accept leaves the decoder's state alone (`processPacket_unframed`).
-/

namespace AstraFeed

open MoldUdpPacketHeader

namespace Checked

variable {data : List UInt8} {n offset : ℕ} {d : MoldUdpDecoder}

/-- The spans of the `n` messages framed from an offset on. -/
def framedSpans (data : List UInt8) : ℕ → ℕ → List (ℕ × ℕ)
  | 0, _ => []
  | n + 1, offset =>
    let msgLen := (Wire.readU16BE data offset).toNat
    (offset + 2, msgLen) :: framedSpans data n (offset + 2 + msgLen)

/-! ## The walks -/

/-- The pre-pass itself reads nothing outside the packet. -/
theorem validateLoop_eq (data : List UInt8) (n offset : ℕ) :
    ∃ spans, validateLoop data n offset = some (spans, MoldUdpDecoder.validateLoop data n offset)
      ∧ (MoldUdpDecoder.validateLoop data n offset = .ok → spans = framedSpans data n offset) := by
  induction n generalizing offset with
  | zero => exact ⟨[], rfl, fun _ => rfl⟩
  | succ n ih =>
    rw [validateLoop, MoldUdpDecoder.validateLoop]
    dsimp only
    by_cases h1 : data.length < offset + 2
    · rw [if_pos h1, if_pos h1]
      exact ⟨[], rfl, fun h => by cases h⟩
    rw [if_neg h1, if_neg h1, readU16BE_eq (by omega), Option.bind_some]
    by_cases h2 : (Wire.readU16BE data offset).toNat = 0
        ∨ data.length - (offset + 2) < (Wire.readU16BE data offset).toNat
    · rw [if_pos h2, if_pos h2]
      exact ⟨[], rfl, fun h => by cases h⟩
    rw [if_neg h2, if_neg h2, byteAt_eq (by omega), Option.bind_some]
    split_ifs with h3
    · exact ⟨[], rfl, fun h => by cases h⟩
    · obtain ⟨spans, hspans, hok⟩ := ih (offset + 2 + (Wire.readU16BE data offset).toNat)
      rw [hspans]
      exact ⟨_, rfl, fun h => by rw [hok h]; rfl⟩

theorem span_eq {off len : ℕ} (h : off + len ≤ data.length) :
    span data off len = some ((data.drop off).take len) := if_pos h

theorem handlePrevalidatedMessage_eq {msg : List UInt8} (h : WellSized msg) {p : ItchParser} :
    handlePrevalidatedMessage p msg = some (p.handlePrevalidatedMessage msg) := by
  unfold handlePrevalidatedMessage ItchParser.handlePrevalidatedMessage
  rw [if_neg h.1, if_neg h.1, dispatchMessage_eq h h.length_bounds.1]

theorem handMessage_eq {msg : List UInt8} (h : WellSized msg) (seq : UInt64) :
    handMessage d seq msg = some (d.handMessage seq msg) := by
  unfold handMessage
  rw [handlePrevalidatedMessage_eq h]
  rfl

theorem reported_eq (h : offset + 3 ≤ data.length) :
    reported data offset
      = some (Wire.byteAt data offset, Wire.readU16BE data (offset + 1)) := by
  unfold reported
  rw [byteAt_eq (by omega), readU16BE_eq (by omega)]
  rfl

theorem Foreseen.cons {spans walked : List (ℕ × ℕ)} {status : DecodeStatus}
    (h : Foreseen spans walked status) (s : ℕ × ℕ) : Foreseen (s :: spans) (s :: walked) status :=
  ⟨List.cons_prefix_cons.2 ⟨rfl, h.1⟩, h.2.1, h.2.2.1, fun hok => by rw [h.2.2.2 hok]⟩

/-- The loop walks as the pre-pass did, whether a message is handed over or passed over. -/
theorem processLoop_eq (hv : MoldUdpDecoder.validateLoop data n offset = .ok)
    (startSeq seq processed : UInt64) :
    ∃ walked, processLoop data startSeq n offset seq processed d
        = some (walked, MoldUdpDecoder.processLoop data startSeq n offset seq processed d)
      ∧ Foreseen (framedSpans data n offset) walked
        (MoldUdpDecoder.processLoop data startSeq n offset seq processed d).1 := by
  induction n generalizing offset seq processed d with
  | zero => exact ⟨[], rfl, List.prefix_refl _, by simp [MoldUdpDecoder.processLoop],
    by simp [MoldUdpDecoder.processLoop], fun _ => rfl⟩
  | succ n ih =>
    obtain ⟨h1, h2, h3, _, h5⟩ := MoldUdpDecoder.validateLoop_succ hv
    have hsized : WellSized
        ((data.drop (offset + 2)).take (Wire.readU16BE data offset).toNat) :=
      MoldUdpDecoder.framed_wellSized hv List.mem_cons_self
    have hmin : 12 ≤ (Wire.readU16BE data offset).toNat := by
      have := hsized.length_bounds.1
      rw [List.length_take] at this
      omega
    have hheader : ¬ data.length < offset + 2 := by omega
    have hbody : ¬ ((Wire.readU16BE data offset).toNat = 0
        ∨ data.length < offset + 2 + (Wire.readU16BE data offset).toNat) := by omega
    rw [processLoop, MoldUdpDecoder.processLoop, framedSpans]
    dsimp only
    rw [if_neg hheader, if_neg hheader, readU16BE_eq h1, Option.bind_some, if_neg hbody,
      if_neg hbody]
    by_cases hs : startSeq ≤ seq
    · rw [if_pos hs, if_pos hs, span_eq h3, Option.bind_some, handMessage_eq hsized,
        Option.bind_some]
      split_ifs with herr
      · rw [reported_eq (by omega)]
        exact ⟨_, rfl, List.cons_prefix_cons.2 ⟨rfl, List.nil_prefix⟩, by simp, by simp,
          fun h => absurd h (by simp)⟩
      · obtain ⟨walked, hwalked, hf⟩ := ih h5 (seq + 1) (processed + 1) (d := d.handMessage seq
          ((data.drop (offset + 2)).take (Wire.readU16BE data offset).toNat))
        rw [hwalked]
        exact ⟨_, rfl, hf.cons _⟩
    · rw [if_neg hs, if_neg hs]
      obtain ⟨walked, hwalked, hf⟩ := ih h5 (seq + 1) processed (d := d)
      rw [hwalked]
      exact ⟨_, rfl, hf.cons _⟩

/-! ## One packet -/

section Packet

variable {firstSeq startSeq : UInt64} {msgCount : UInt16}

theorem validateSequencedPacket_eq (hv : MoldUdpDecoder.validateSequencedPacket data msgCount = .ok) :
    validateSequencedPacket data msgCount
      = some (framedSpans data msgCount.toNat kHeaderSize, .ok) := by
  obtain ⟨spans, hspans, hok⟩ := validateLoop_eq data msgCount.toNat kHeaderSize
  rw [hok hv, show MoldUdpDecoder.validateLoop data msgCount.toNat kHeaderSize = .ok from hv]
    at hspans
  exact hspans

/-- Its status is that of its loop. -/
theorem processSequencedPacket_eq (hv : MoldUdpDecoder.validateSequencedPacket data msgCount = .ok)
    (hs : firstSeq ≤ startSeq) (he : startSeq ≤ firstSeq + msgCount.toUInt64) (ticks : UInt64) :
    ∃ walked, processSequencedPacket d data firstSeq msgCount startSeq ticks
        = some (walked, d.processSequencedPacket data firstSeq msgCount startSeq ticks)
      ∧ Foreseen (framedSpans data msgCount.toNat kHeaderSize) walked
        (d.processSequencedPacket data firstSeq msgCount startSeq ticks).1.status := by
  obtain ⟨walked, hwalked, hf⟩ := processLoop_eq (d := d) hv startSeq firstSeq 0
  have hin : ¬ (startSeq < firstSeq ∨ firstSeq + msgCount.toUInt64 < startSeq) := by
    rintro (h | h)
    · exact UInt64.not_lt.2 hs h
    · exact UInt64.not_lt.2 he h
  unfold processSequencedPacket MoldUdpDecoder.processSequencedPacket
  dsimp only
  rw [if_neg hin, if_neg hin, hwalked, Option.map_some]
  refine ⟨walked, rfl, ?_⟩
  split_ifs with h1 h2
  · exact hf
  · rwa [not_not.1 h1] at hf
  · rwa [not_not.1 h1] at hf

theorem processForeseen_eq (hv : MoldUdpDecoder.validateSequencedPacket data msgCount = .ok)
    (hs : firstSeq ≤ startSeq) (he : startSeq ≤ firstSeq + msgCount.toUInt64) (ticks : UInt64) :
    processForeseen d data firstSeq msgCount startSeq ticks
      = some (d.processSequencedPacket data firstSeq msgCount startSeq ticks) := by
  obtain ⟨walked, hwalked, hf⟩ := processSequencedPacket_eq (d := d) hv hs he ticks
  unfold processForeseen
  rw [validateSequencedPacket_eq hv, hwalked]
  exact if_pos ⟨rfl, hf⟩

end Packet

/-! ## Runs -/

/-- The gap buffer holds packets the pre-pass accepted. -/
structure Prevalidated (d : MoldUdpDecoder) : Prop where
  sized : d.channel.gapBuffer.Sized
  buffered : ∀ e, MoldUdpDecoder.Buffered d e → e.WellFormed fun _ _ => True

theorem Prevalidated.congr {d' : MoldUdpDecoder} (h : Prevalidated d)
    (hbuf : d'.channel.gapBuffer = d.channel.gapBuffer) : Prevalidated d' where
  sized := by rw [hbuf]; exact h.sized
  buffered := fun e he => h.buffered e (by
    unfold MoldUdpDecoder.Buffered at he ⊢
    rwa [hbuf] at he)

theorem Prevalidated.eraseBuffered (h : Prevalidated d) (seq : UInt64) :
    Prevalidated (d.eraseBuffered seq) where
  sized := by
    rcases h.sized.erase_cases seq with ⟨_, herase⟩ | ⟨_, _, hsized, _⟩
    · simp only [MoldUdpDecoder.eraseBuffered]
      rw [herase]
      exact h.sized
    · exact hsized
  buffered := fun e he => h.buffered e (MoldUdpDecoder.buffered_erase h.sized seq he)

theorem Prevalidated.bindSession (h : Prevalidated d) (data : List UInt8) :
    Prevalidated (d.bindSession data) := by
  refine h.congr ?_
  unfold MoldUdpDecoder.bindSession
  split <;> rfl

/-- A replay begins inside its packet. -/
theorem processBuffered_eq (h : Prevalidated d) {e : SequencedPacket}
    (hcand : d.drainCandidate = some e) (hlt : d.channel.nextExpectedSeq < e.endSeq) :
    processBuffered d e = some (d.processBuffered e) := by
  obtain ⟨_, hb, hle, _⟩ := MoldUdpDecoder.find_of_drainCandidate hcand
  exact processForeseen_eq (h.buffered e hb).valid (UInt64.le_iff_toNat_le.2 hle)
    (UInt64.le_of_lt hlt) _

theorem drainLoop_eq (h : Prevalidated d) (fuel : ℕ) (aggregate : DecodeResult) :
    drainLoop fuel aggregate d = some (MoldUdpDecoder.drainLoop fuel aggregate d) := by
  induction fuel generalizing aggregate d with
  | zero => rfl
  | succ fuel ih =>
    rw [drainLoop, MoldUdpDecoder.drainLoop]
    cases hcand : d.drainCandidate with
    | none => rfl
    | some e =>
      dsimp only
      by_cases hend : e.endSeq ≤ d.channel.nextExpectedSeq
      · rw [if_pos hend, if_pos hend]
        exact ih (h.eraseBuffered e.seq) _
      · have happlied : Prevalidated ((d.processBuffered e).2.eraseBuffered e.seq) :=
          (h.congr (MoldUdpDecoder.processBuffered_gapBuffer e)).eraseBuffered e.seq
        rw [if_neg hend, if_neg hend, processBuffered_eq h hcand (UInt64.not_le.1 hend),
          Option.bind_some]
        split_ifs
        · rfl
        · exact ih (d := ((d.processBuffered e).2.eraseBuffered e.seq).setNextExpectedSeq e.endSeq)
            (happlied.congr rfl) _

theorem drainGapBuffer_eq (h : Prevalidated d) : drainGapBuffer d = some d.drainGapBuffer :=
  drainLoop_eq h _ _

theorem applyInOrder_eq (h : Prevalidated d) {packet : PacketView} {firstSeq : UInt64}
    {msgCount : UInt16}
    (hv : MoldUdpDecoder.validateSequencedPacket packet.data msgCount = .ok)
    (hfit : firstSeq.toNat + msgCount.toNat < 2 ^ 64)
    (hlt : d.channel.nextExpectedSeq < firstSeq + msgCount.toUInt64) :
    applyInOrder d packet firstSeq msgCount = some (d.applyInOrder packet firstSeq msgCount) := by
  have hstart : firstSeq ≤ (if firstSeq < d.channel.nextExpectedSeq then d.channel.nextExpectedSeq
        else firstSeq)
      ∧ (if firstSeq < d.channel.nextExpectedSeq then d.channel.nextExpectedSeq else firstSeq)
        ≤ firstSeq + msgCount.toUInt64 := by
    split_ifs with hfirst
    · exact ⟨UInt64.le_of_lt hfirst, UInt64.le_of_lt hlt⟩
    · refine ⟨UInt64.le_refl _, UInt64.le_iff_toNat_le.2 ?_⟩
      rw [UInt64.toNat_add, UInt16.toNat_toUInt64, Nat.mod_eq_of_lt hfit]
      exact Nat.le_add_right _ _
  unfold applyInOrder MoldUdpDecoder.applyInOrder
  dsimp only
  rw [processForeseen_eq hv hstart.1 hstart.2, Option.bind_some]
  generalize hout : d.processSequencedPacket packet.data firstSeq msgCount _ _ = out
  have hbuf : out.2.channel.gapBuffer = d.channel.gapBuffer := by
    rw [← hout]
    exact MoldUdpDecoder.unparsed_gapBuffer.processSequencedPacket
  refine ite_some (fun _ => rfl) fun _ => ?_
  rw [drainGapBuffer_eq, Option.map_some]
  refine h.congr (Eq.trans ?_ hbuf)
  split_ifs <;> rfl

theorem processData_eq (h : Prevalidated d) (packet : PacketView) (firstSeq : UInt64)
    (msgCount : UInt16) :
    processData d packet firstSeq msgCount = some (d.processData packet firstSeq msgCount) := by
  obtain ⟨spans, hspans, _⟩ := validateLoop_eq packet.data msgCount.toNat kHeaderSize
  have hvalidate : validateSequencedPacket packet.data msgCount
    = some (spans, MoldUdpDecoder.validateSequencedPacket packet.data msgCount) := hspans
  unfold processData MoldUdpDecoder.processData
  dsimp only
  rw [hvalidate, Option.bind_some]
  refine ite_some (fun _ => rfl) fun h1 => ite_some (fun _ => rfl) fun h2 =>
    ite_some (fun _ => rfl) fun _ => ite_some (fun _ => rfl) fun h4 =>
    ite_some (fun _ => rfl) fun h5 => ?_
  exact applyInOrder_eq h (not_not.1 h2) (MoldUdpDecoder.endSeq_lt_of_le h1) (UInt64.not_le.1 h4)

theorem processPacket_eq (h : Prevalidated d) (packet : PacketView) :
    processPacket d packet = some (d.processPacket packet) := by
  unfold processPacket MoldUdpDecoder.processPacket
  dsimp only
  refine ite_some (fun _ => rfl) fun _ => ite_some (fun _ => rfl) fun hsize => ?_
  have hlen : 20 ≤ packet.data.length := Nat.not_lt.1 hsize
  rw [readU16BE_eq (by omega), readU64BE_eq (by omega)]
  refine ite_some (fun _ => rfl) fun _ => ite_some (fun _ => rfl) fun _ =>
    ite_some (fun _ => rfl) fun _ => ite_some (fun _ => rfl) fun _ => ?_
  exact processData_eq (h.bindSession packet.data) packet _ _

/-! ## Exact framing -/

/-- The slice a span stands for. -/
def slice (data : List UInt8) (s : ℕ × ℕ) : List UInt8 := (data.drop s.1).take s.2

theorem map_slice_framedSpans (data : List UInt8) (n offset : ℕ) :
    (framedSpans data n offset).map (slice data) = framedMessages data n offset := by
  induction n generalizing offset with
  | zero => rfl
  | succ n ih => exact congrArg _ (ih _)

theorem framedSpans_le (h : MoldUdpDecoder.validateLoop data n offset = .ok) {s : ℕ × ℕ}
    (hs : s ∈ framedSpans data n offset) : s.1 + s.2 ≤ data.length := by
  induction n generalizing offset with
  | zero => cases hs
  | succ n ih =>
    obtain ⟨_, _, h3, _, h5⟩ := MoldUdpDecoder.validateLoop_succ h
    rcases List.mem_cons.1 hs with rfl | hs
    · exact h3
    · exact ih h5 hs

theorem slice_wellSized (h : MoldUdpDecoder.validateLoop data n offset = .ok) {s : ℕ × ℕ}
    (hs : s ∈ framedSpans data n offset) : WellSized (slice data s) := by
  refine MoldUdpDecoder.framed_wellSized h ?_
  rw [← map_slice_framedSpans]
  exact List.mem_map_of_mem hs

/-- A two-byte field and what follows it. -/
theorem drop_eq_toBytes (h : offset + 2 ≤ data.length) :
    data.drop offset
      = BigEndian.toBytes 2 (Wire.readU16BE data offset).toNat ++ data.drop (offset + 2) := by
  have hbytes := BigEndian.toBytes_ofBytes [Wire.byteAt data offset, Wire.byteAt data (offset + 1)]
  rw [← readU16BE_toNat] at hbytes
  change BigEndian.toBytes 2 _ = _ at hbytes
  rw [hbytes, List.drop_eq_getElem_cons (by omega), List.drop_eq_getElem_cons (by omega)]
  simp [Wire.byteAt, List.getElem?_eq_getElem (show offset < data.length by omega),
    List.getElem?_eq_getElem (show offset + 1 < data.length by omega)]

/-- What the pre-pass accepts is the messages with their lengths, and nothing behind them. -/
theorem drop_of_validateLoop (h : MoldUdpDecoder.validateLoop data n offset = .ok) :
    data.drop offset = (framedMessages data n offset).flatMap framed := by
  induction n generalizing offset with
  | zero =>
    rw [MoldUdpDecoder.validateLoop] at h
    split_ifs at h with hend
    rw [not_not.1 hend, List.drop_length]
    rfl
  | succ n ih =>
    obtain ⟨h1, _, h3, _, h5⟩ := MoldUdpDecoder.validateLoop_succ h
    rw [framedMessages]
    have hlen : ((data.drop (offset + 2)).take (Wire.readU16BE data offset).toNat).length
        = (Wire.readU16BE data offset).toNat := by
      rw [List.length_take, List.length_drop]
      omega
    rw [List.flatMap_cons, framed, hlen, ← ih h5, List.append_assoc,
      ← List.drop_drop (j := offset + 2), List.take_append_drop]
    exact drop_eq_toBytes h1

/-- The packet's bytes behind the header are `msgCount` messages of known types, of the lengths of
their types, each behind its length. -/
def ExactlyFramed (data : List UInt8) (msgCount : UInt16) : Prop :=
  ∃ msgs : List (List UInt8), msgs.length = msgCount.toNat ∧ (∀ msg ∈ msgs, WellSized msg)
    ∧ data.drop kHeaderSize = msgs.flatMap framed

theorem validateSequencedPacket_iff {msgCount : UInt16} (hsize : kHeaderSize ≤ data.length) :
    MoldUdpDecoder.validateSequencedPacket data msgCount = .ok ↔ ExactlyFramed data msgCount := by
  constructor
  · exact fun h => ⟨framedMessages data msgCount.toNat kHeaderSize,
      MoldUdpDecoder.length_framedMessages, fun msg hm => MoldUdpDecoder.framed_wellSized h hm,
      drop_of_validateLoop h⟩
  · rintro ⟨msgs, hlen, hsized, hdrop⟩
    have htake : (data.take kHeaderSize).length = kHeaderSize := List.length_take_of_le hsize
    have hv := validateLoop_flatMap (data.take kHeaderSize) hsized
    rw [← hdrop, List.take_append_drop, hlen, htake] at hv
    exact hv

/-- The packet is refused, and nothing that belongs to the stream has changed: neither the parser
with the directory, the books and the phase, nor the messages handed over, nor the gap buffer, nor
the next sequence. -/
structure Rejected (d : MoldUdpDecoder) (out : DecodeResult × MoldUdpDecoder) : Prop where
  status : out.1.status ≠ .ok
  parser : out.2.parser = d.parser
  handed : out.2.handed = d.handed
  phase : out.2.channel.phase = d.channel.phase
  gapBuffer : out.2.channel.gapBuffer = d.channel.gapBuffer
  next : out.2.channel.nextExpectedSeq = d.channel.nextExpectedSeq

theorem rejected_terminalFailure (d : MoldUdpDecoder) {status : DecodeStatus} (h : status ≠ .ok) :
    Rejected d (d.terminalFailure status) := ⟨h, rfl, rfl, rfl, rfl, rfl⟩

theorem Rejected.bindSession (data : List UInt8) {out : DecodeResult × MoldUdpDecoder}
    (h : Rejected (d.bindSession data) out) : Rejected d out := by
  unfold MoldUdpDecoder.bindSession at h
  split_ifs at h
  · exact h
  · exact ⟨h.status, h.parser, h.handed, h.phase, h.gapBuffer, h.next⟩

theorem processPacket_unframed (d : MoldUdpDecoder) {packet : PacketView}
    (h0 : packet.msgCount ≠ 0) (hend : packet.msgCount ≠ kEndOfSessionMessageCount)
    (hf : ¬ ExactlyFramed packet.data packet.msgCount) : Rejected d (d.processPacket packet) := by
  unfold MoldUdpDecoder.processPacket
  dsimp only
  by_cases ht : d.terminalStatus = .ok
  swap
  · rw [if_pos ht]
    exact ⟨ht, rfl, rfl, rfl, rfl, rfl⟩
  rw [if_neg (not_not.2 ht)]
  by_cases hsize : packet.data.length < kHeaderSize
  · rw [if_pos hsize]
    exact ⟨nofun, rfl, rfl, rfl, rfl, rfl⟩
  have hv : MoldUdpDecoder.validateSequencedPacket packet.data
      (Wire.readU16BE packet.data 18) ≠ .ok :=
    mt (validateSequencedPacket_iff (Nat.not_lt.1 hsize)).1 hf
  rw [if_neg hsize]
  split_ifs with h1 h2 h3 h4
  · exact rejected_terminalFailure d nofun
  · exact rejected_terminalFailure d nofun
  · exact absurd h3 hend
  · exact absurd h4 h0
  · refine Rejected.bindSession packet.data ?_
    unfold MoldUdpDecoder.processData
    dsimp only
    by_cases hfit : 0xFFFFFFFFFFFFFFFF - (Wire.readU16BE packet.data 18).toUInt64
        < Wire.readU64BE packet.data 10
    · rw [if_pos hfit]
      exact rejected_terminalFailure _ nofun
    · rw [if_neg hfit, if_pos hv]
      exact rejected_terminalFailure _ hv

/-! ## The pre-pass -/

/-- A packet the pre-pass accepts is walked over in the same spans, from any sequence inside it: the
exits for bad framing and for a sequence outside are not taken, and inside each span the parser does
not read past its end and needs no check of the length. So no packet of a run, applied at once or
replayed from the gap buffer, reads anything but its messages. A packet with messages that is not
exactly framed is refused before anything is applied. -/
theorem prepass_suffices :
    (∀ (d : MoldUdpDecoder) (data : List UInt8) (firstSeq startSeq ticks : UInt64)
      (msgCount : UInt16), MoldUdpDecoder.validateSequencedPacket data msgCount = .ok →
      firstSeq ≤ startSeq → startSeq ≤ firstSeq + msgCount.toUInt64 →
      let out := d.processSequencedPacket data firstSeq msgCount startSeq ticks
      ∃ spans walked, validateSequencedPacket data msgCount = some (spans, .ok)
        ∧ processSequencedPacket d data firstSeq msgCount startSeq ticks = some (walked, out)
        ∧ Foreseen spans walked out.1.status
        ∧ ∀ s ∈ spans, s.1 + s.2 ≤ data.length ∧ ∀ p : ItchParser,
          handlePrevalidatedMessage p (slice data s)
              = some (p.handlePrevalidatedMessage (slice data s))
            ∧ p.handlePrevalidatedMessage (slice data s) = p.handleMessage (slice data s))
    ∧ (∀ (symbols : StockDirectory) (books : BookManager) (initial : UInt64)
      (packets : List PacketView) (packet : PacketView),
      let d := (MoldUdpDecoder.create symbols books initial).run packets
      processPacket d packet = some (d.processPacket packet))
    ∧ ∀ (d : MoldUdpDecoder) (packet : PacketView), packet.msgCount ≠ 0 →
      packet.msgCount ≠ kEndOfSessionMessageCount →
      ¬ ExactlyFramed packet.data packet.msgCount → Rejected d (d.processPacket packet) := by
  refine ⟨fun d data firstSeq startSeq ticks msgCount hv hs he => ?_,
    fun symbols books initial packets packet => ?_, fun d packet h0 hend hf =>
      processPacket_unframed d h0 hend hf⟩
  · obtain ⟨walked, hwalked, hforeseen⟩ := processSequencedPacket_eq (d := d) hv hs he ticks
    refine ⟨_, walked, validateSequencedPacket_eq hv, hwalked, hforeseen,
      fun s hspan => ⟨framedSpans_le hv hspan, fun p => ⟨?_, ?_⟩⟩⟩
    · exact handlePrevalidatedMessage_eq (slice_wellSized hv hspan)
    · exact AstraFeed.handlePrevalidatedMessage_eq (slice_wellSized hv hspan)
  · have hd : MoldUdpDecoder.Reached (ItchParser.create symbols books) initial (fun _ _ => True)
        ((MoldUdpDecoder.create symbols books initial).run packets) :=
      (MoldUdpDecoder.reached_create symbols books initial _).run
        fun p _ => MoldUdpDecoder.each_true p
    exact processPacket_eq ⟨hd.coherent.sized, hd.coherent.buffered⟩ packet

/-- A packet of three messages, the first of which the decoder has had. -/
theorem prepass_suffices_start : ∃ books, BookManager.create ⟨⟨1, 1⟩, ⟨1⟩⟩ 4096 = .ok books
    ∧ let d := (MoldUdpDecoder.create .fresh books 1).run [.sentData 1 [systemEvent 'O']]
      let messages := [systemEvent 'O', registration 1 ['Z', 'X', 'Z', 'Z', 'T'] 100,
        systemEvent 'S']
      let data := (PacketView.sentData 1 messages).data
      (∃ spans walked, validateSequencedPacket data 3 = some (spans, .ok)
        ∧ processSequencedPacket d data 1 3 2 0
          = some (walked, d.processSequencedPacket data 1 3 2 0)
        ∧ Foreseen spans walked (d.processSequencedPacket data 1 3 2 0).1.status
        ∧ ∀ s ∈ spans, s.1 + s.2 ≤ data.length ∧ ∀ p : ItchParser,
          handlePrevalidatedMessage p (slice data s)
              = some (p.handlePrevalidatedMessage (slice data s))
            ∧ p.handlePrevalidatedMessage (slice data s) = p.handleMessage (slice data s))
      ∧ Rejected d (d.processPacket (.sent 1 4 messages)) := by
  obtain ⟨books, hm⟩ : ∃ books, BookManager.create ⟨⟨1, 1⟩, ⟨1⟩⟩ 4096 = .ok books := ⟨_, rfl⟩
  refine ⟨books, hm, prepass_suffices.1 _ _ 1 2 0 3 (by decide +kernel) (by decide) (by decide),
    prepass_suffices.2.2 _ _ (by decide +kernel) (by decide +kernel) ?_⟩
  exact mt (validateSequencedPacket_iff (by decide +kernel)).2 (by decide +kernel)

end Checked

end AstraFeed
