import AstraFeed.Proofs.MoldUdpDecoder

/-!
# What a packet can do to the decoder

`Transition` lists the ways a packet changes a decoder that is not terminal, with the conditions
the code checks on the way. Every invariant of a run is derived from it.
-/

namespace AstraFeed

open MoldUdpPacketHeader Wire Probe

namespace MoldUdpDecoder

/-- The messages of the packet from the next sequence on are handed over, and the next sequence is
the packet's end. -/
def advance (d : MoldUdpDecoder) (p : PacketView) : MoldUdpDecoder :=
  let next := d.channel.nextExpectedSeq
  let d := d.handAll next (p.messages.drop (next.toNat - p.firstSeq.toNat))
  (if d.channel.status = .gapDetected then d.setStatus .recovering else d).setNextExpectedSeq
    p.endSeq

/-- The packet is well-formed, carries the next sequence and stays within a pending end. -/
structure InOrder (d : MoldUdpDecoder) (p : PacketView) : Prop where
  data : p.IsData
  first : p.firstSeq ≤ d.channel.nextExpectedSeq
  last : d.channel.nextExpectedSeq < p.endSeq
  pending : d.pendingEndSequence = 0 ∨ p.endSeq ≤ d.pendingEndSequence

/-- The packet is well-formed, begins after the next sequence and stays within a pending end. -/
structure Ahead (d : MoldUdpDecoder) (p : PacketView) : Prop where
  data : p.IsData
  first : d.channel.nextExpectedSeq < p.firstSeq
  pending : d.pendingEndSequence = 0 ∨ p.endSeq ≤ d.pendingEndSequence
  status : d.channel.status ≠ .stale
  size : p.data.length ≤ SequencedPacket.kMaxPacketSize

/-- How a stored packet leaves the channel's status. -/
inductive StoredAs : GapBuffer.InsertResult → ChannelHealth → Prop
  | inserted : StoredAs .inserted .gapDetected
  | duplicate : StoredAs .duplicateIdentical .gapDetected
  | refused (r : GapBuffer.InsertResult) (h : r ≠ .inserted) (hc : r ≠ .conflictingDuplicate)
      (hd : r ≠ .duplicateIdentical) : StoredAs r .stale

inductive Transition (d : MoldUdpDecoder) (p : PacketView) : MoldUdpDecoder → Prop
  | idle (hm : ¬ p.IsEndOfSession) (hb : p.IsHeartbeat → p.firstSeq ≤ d.channel.nextExpectedSeq) :
      Transition d p d
  | fail (status : DecodeStatus) (hs : isTerminalDecodeFailure status = true) (n : UInt64) :
      Transition d p (terminalFailure { d with channel := { d.channel with
        conflictingBufferedRedundantPackets := n } } status).2
  | retain (hm : p.IsEndOfSession) (hlt : d.channel.nextExpectedSeq < p.firstSeq)
      (hpend : d.pendingEndSequence = 0 ∨ d.pendingEndSequence = p.firstSeq)
      (hwm : d.channel.heartbeatNextSeqHighWatermark ≤ p.firstSeq)
      (hst : d.channel.status ≠ .stale) :
      Transition d p { d with
        pendingEndSequence := p.firstSeq
        channel := { d.channel with
          heartbeatNextSeqHighWatermark := p.firstSeq
          status := .gapDetected } }
  | finish (hm : p.IsEndOfSession) (heq : p.firstSeq = d.channel.nextExpectedSeq)
      (hst : d.channel.status = .good) (hemp : d.channel.gapBuffer.empty = true)
      (hwm : d.channel.heartbeatNextSeqHighWatermark = 0)
      (hphase : d.channel.phase = .endOfMessages) :
      Transition d p { d with terminalStatus := .endOfStream }
  | announce (hb : p.IsHeartbeat) (hlt : d.channel.nextExpectedSeq < p.firstSeq)
      (hpend : d.pendingEndSequence = 0 ∨ p.firstSeq ≤ d.pendingEndSequence) :
      Transition d p { d with channel := { d.channel with
        heartbeatNextSeqHighWatermark := max d.channel.heartbeatNextSeqHighWatermark p.firstSeq
        status := if d.channel.status ≠ .stale ∧ d.channel.status ≠ .invalid then .gapDetected
          else d.channel.status } }
  | clear (hb : p.IsHeartbeat) (hle : p.firstSeq ≤ d.channel.nextExpectedSeq)
      (h0 : d.channel.heartbeatNextSeqHighWatermark ≠ 0)
      (hwm : d.channel.heartbeatNextSeqHighWatermark ≤ d.channel.nextExpectedSeq) :
      Transition d p { d with channel := { d.channel with
        heartbeatNextSeqHighWatermark := 0
        status := if d.channel.gapBuffer.empty ∧ d.channel.status ≠ .invalid
            ∧ d.channel.status ≠ .stale then .good
          else d.channel.status } }
  | store (ha : Ahead d p) (status : ChannelHealth) (n : UInt64)
      (hs : StoredAs (d.channel.gapBuffer.insert p.toSequenced).1 status) :
      Transition d p { d with channel := { d.channel with
        status := status
        identicalBufferedRedundantPackets := n
        gapBuffer := (d.channel.gapBuffer.insert p.toSequenced).2 } }
  | refuse (ho : InOrder d p) (status : DecodeStatus) (d' : MoldUdpDecoder)
      (hh : Hands d d.channel.nextExpectedSeq
        (p.messages.drop (d.channel.nextExpectedSeq.toNat - p.firstSeq.toNat)) status d')
      (hne : status ≠ .ok) : Transition d p (d'.terminalFailure status).2
  | refuseDrain (ho : InOrder d p) (hne : (d.advance p).drainGapBuffer.1.status ≠ .ok) :
      Transition d p ((d.advance p).drainGapBuffer.2.terminalFailure
        (d.advance p).drainGapBuffer.1.status).2
  | apply (ho : InOrder d p) (hok : (d.advance p).drainGapBuffer.1.status = .ok)
      (result : DecodeResult) (hadGap : Bool) :
      Transition d p ((d.advance p).drainGapBuffer.2.concludeInOrder result hadGap).2

variable {d : MoldUdpDecoder} {p : PacketView}

theorem endSeq_toNat (hfit : p.firstSeq.toNat + p.msgCount.toNat < 2 ^ 64) :
    p.endSeq.toNat = p.firstSeq.toNat + p.msgCount.toNat := by
  rw [PacketView.endSeq, UInt64.toNat_add, UInt16.toNat_toUInt64]
  exact Nat.mod_eq_of_lt hfit

theorem pending_of_not {a b : UInt64} (h : ¬ (a ≠ 0 ∧ a < b)) : a = 0 ∨ b ≤ a := by
  rcases eq_or_ne a 0 with h0 | h0
  · exact .inl h0
  · exact .inr (UInt64.not_lt.1 fun hlt => h ⟨h0, hlt⟩)

theorem max_eq_of_le {a b : UInt64} (h : a ≤ b) : max a b = b := if_pos h

theorem Transition.failed {status : DecodeStatus} (hs : isTerminalDecodeFailure status = true) :
    Transition d p (d.terminalFailure status).2 := .fail status hs _

theorem processEndOfSession_transition (hm : p.IsEndOfSession) :
    Transition d p (d.processEndOfSession p.firstSeq).2 := by
  unfold processEndOfSession
  dsimp only
  split_ifs with h1 h2 h3 h4 h5
  · exact .failed rfl
  · exact .failed rfl
  · obtain ⟨_, h1⟩ := not_or.1 h1
    obtain ⟨hpend, hwm⟩ := not_or.1 h1
    obtain ⟨_, h3⟩ := not_or.1 h3
    have hwm := UInt64.not_lt.1 hwm
    have hret := Transition.retain hm h2 (by tauto) hwm (not_or.1 h3).2
    rw [max_eq_of_le hwm]
    exact hret
  · exact .failed rfl
  · exact .failed rfl
  · obtain ⟨hlt, _⟩ := not_or.1 h1
    obtain ⟨hst, h4⟩ := not_or.1 h4
    obtain ⟨hemp, hwm⟩ := not_or.1 h4
    have heq := UInt64.le_antisymm (UInt64.not_lt.1 h2) (UInt64.not_lt.1 hlt)
    exact .finish hm heq (not_not.1 hst) (by simpa using hemp) (not_not.1 hwm) (not_not.1 h5)

theorem processHeartbeat_transition (hb : p.IsHeartbeat) :
    Transition d p (d.processHeartbeat p.firstSeq).2 := by
  have hm : ¬ p.IsEndOfSession := fun hm => absurd (hb.2.symm.trans hm.2) (by decide)
  unfold processHeartbeat
  dsimp only
  split_ifs with h1 h2 h3 h4 h5
  · exact .failed rfl
  · have h := Transition.announce hb h2 (pending_of_not h1)
    rw [if_pos h3] at h
    exact h
  · have h := Transition.announce hb h2 (pending_of_not h1)
    rw [if_neg h3] at h
    exact h
  · have h := Transition.clear hb (UInt64.not_lt.1 h2) h4.1 h4.2
    rw [if_pos h5] at h
    exact h
  · have h := Transition.clear hb (UInt64.not_lt.1 h2) h4.1 h4.2
    rw [if_neg h5] at h
    exact h
  · exact .idle hm fun _ => UInt64.not_lt.1 h2

theorem bufferAhead_transition (hd : p.IsData) (hm : ¬ p.IsEndOfSession) (hb : ¬ p.IsHeartbeat)
    (hlt : d.channel.nextExpectedSeq < p.firstSeq)
    (hpend : d.pendingEndSequence = 0 ∨ p.endSeq ≤ d.pendingEndSequence) :
    Transition d p (d.bufferAhead p p.firstSeq p.msgCount).2 := by
  unfold bufferAhead
  dsimp only
  split_ifs with h1 h2
  · have hd' : setStatus (d.setStatus .gapDetected) .stale = d := by
      simp only [setStatus]
      rw [← h1]
    rw [hd']
    exact .idle hm fun h => absurd h hb
  · exact .failed rfl
  · have ha : Ahead d p := ⟨hd, hlt, hpend, h1, Nat.not_lt.1 h2⟩
    have hins : (d.setStatus .gapDetected).channel.gapBuffer.insert
        ⟨p.firstSeq, p.receiveStartTicks, p.msgCount, p.data⟩
          = d.channel.gapBuffer.insert p.toSequenced := rfl
    rw [hins]
    cases hr : (d.channel.gapBuffer.insert p.toSequenced).1 with
    | conflictingDuplicate =>
      have hbuf : (d.channel.gapBuffer.insert p.toSequenced).2 = d.channel.gapBuffer :=
        GapBuffer.insert_buffer (by rw [hr]; decide)
      rw [hbuf]
      exact .fail .redundantFeedMismatch rfl _
    | duplicateIdentical => exact .store ha .gapDetected _ (hr ▸ .duplicate)
    | inserted => exact .store ha .gapDetected _ (hr ▸ .inserted)
    | invalidPacket =>
      exact .store ha .stale _ (hr ▸ .refused _ (by decide) (by decide) (by decide))
    | capacityExceeded =>
      exact .store ha .stale _ (hr ▸ .refused _ (by decide) (by decide) (by decide))

theorem Hands.eq_handAll {seq : UInt64} {msgs : List (List UInt8)} {d' : MoldUdpDecoder}
    (h : Hands d seq msgs .ok d') : d' = d.handAll seq msgs := by
  cases h
  rfl

/-- How the messages of an in-order packet from the next sequence on are handed over. -/
theorem InOrder.hands (ho : InOrder d p) :
    let out := d.processSequencedPacket p.data p.firstSeq p.msgCount
      (if p.firstSeq < d.channel.nextExpectedSeq then d.channel.nextExpectedSeq else p.firstSeq)
      p.receiveStartTicks
    Hands d d.channel.nextExpectedSeq
      (p.messages.drop (d.channel.nextExpectedSeq.toNat - p.firstSeq.toNat)) out.1.status out.2 := by
  have hstart : (if p.firstSeq < d.channel.nextExpectedSeq then d.channel.nextExpectedSeq
      else p.firstSeq) = d.channel.nextExpectedSeq := by
    split_ifs with h
    · rfl
    · exact UInt64.le_antisymm ho.first (UInt64.not_lt.1 h)
  have hlast : d.channel.nextExpectedSeq.toNat ≤ p.firstSeq.toNat + p.msgCount.toNat := by
    rw [← endSeq_toNat ho.data.endSeq_lt]
    exact (UInt64.lt_iff_toNat_lt.1 ho.last).le
  dsimp only
  rw [hstart]
  exact processSequencedPacket_spec ho.data.valid ho.first hlast ho.data.endSeq_lt

/-- How an in-order packet ends: refused itself, with a refusal in the drain, or applied. -/
theorem applyInOrder_cases (ho : InOrder d p) :
    (∃ status d', Hands d d.channel.nextExpectedSeq
        (p.messages.drop (d.channel.nextExpectedSeq.toNat - p.firstSeq.toNat)) status d'
      ∧ status ≠ .ok
      ∧ (d.applyInOrder p p.firstSeq p.msgCount).2 = (d'.terminalFailure status).2)
    ∨ (d.advance p).drainGapBuffer.1.status ≠ .ok
      ∧ (d.applyInOrder p p.firstSeq p.msgCount).2
        = ((d.advance p).drainGapBuffer.2.terminalFailure
            (d.advance p).drainGapBuffer.1.status).2
    ∨ (d.advance p).drainGapBuffer.1.status = .ok ∧ ∃ result hadGap,
      (d.applyInOrder p p.firstSeq p.msgCount).2
        = ((d.advance p).drainGapBuffer.2.concludeInOrder result hadGap).2 := by
  have hhands := ho.hands
  unfold applyInOrder
  dsimp only at hhands ⊢
  generalize d.processSequencedPacket p.data p.firstSeq p.msgCount _ p.receiveStartTicks = out
    at hhands ⊢
  by_cases hst : out.1.status = .ok
  · rw [if_neg (not_not.2 hst)]
    rw [hst] at hhands
    have hout : (if out.2.channel.status = .gapDetected then out.2.setStatus .recovering
        else out.2).setNextExpectedSeq (p.firstSeq + p.msgCount.toUInt64) = d.advance p := by
      rw [hhands.eq_handAll]
      rfl
    rw [hout]
    split_ifs with hdr
    · exact .inr (.inl ⟨hdr, rfl⟩)
    · exact .inr (.inr ⟨not_not.1 hdr, _, _, rfl⟩)
  · rw [if_pos hst]
    exact .inl ⟨_, _, hhands, hst, rfl⟩

theorem applyInOrder_transition (ho : InOrder d p) :
    Transition d p (d.applyInOrder p p.firstSeq p.msgCount).2 := by
  rcases applyInOrder_cases ho with ⟨status, d', hh, hne, hout⟩ | ⟨hne, hout⟩ | ⟨hok, _, _, hout⟩
  · rw [hout]
    exact .refuse ho status d' hh hne
  · rw [hout]
    exact .refuseDrain ho hne
  · rw [hout]
    exact .apply ho hok _ _

theorem validateLoop_status {data : List UInt8} {n offset : ℕ}
    (h : validateLoop data n offset ≠ .ok) :
    isTerminalDecodeFailure (validateLoop data n offset) = true := by
  induction n generalizing offset with
  | zero =>
    rw [validateLoop] at h ⊢
    split_ifs at h ⊢
    · rfl
    · exact absurd rfl h
  | succ n ih =>
    rw [validateLoop] at h ⊢
    dsimp only at h ⊢
    split_ifs at h ⊢
    · rfl
    · rfl
    · rfl
    · exact ih h

theorem endSeq_lt_of_le {n : UInt16} {seq : UInt64}
    (h : ¬ 0xFFFFFFFFFFFFFFFF - n.toUInt64 < seq) : seq.toNat + n.toNat < 2 ^ 64 := by
  have hn := n.toNat_lt
  have hsub : (0xFFFFFFFFFFFFFFFF - n.toUInt64).toNat = 2 ^ 64 - 1 - n.toNat := by
    rw [UInt64.toNat_sub_of_le, UInt16.toNat_toUInt64]
    · rfl
    · rw [UInt64.le_iff_toNat_le, UInt16.toNat_toUInt64]
      change n.toNat ≤ 2 ^ 64 - 1
      omega
  rw [UInt64.lt_iff_toNat_lt, hsub] at h
  omega

theorem processData_transition (hsize : kHeaderSize ≤ p.data.length) (h0 : p.msgCount ≠ 0)
    (hend : p.msgCount ≠ kEndOfSessionMessageCount) :
    Transition d p (d.processData p p.firstSeq p.msgCount).2 := by
  have hm : ¬ p.IsEndOfSession := fun h => hend h.2
  have hb : ¬ p.IsHeartbeat := fun h => h0 h.2
  unfold processData
  dsimp only
  split_ifs with h1 h2 h3 h4 h5
  · exact .failed rfl
  · exact .failed (validateLoop_status h2)
  · exact .failed rfl
  · exact .idle hm fun h => absurd h hb
  · have hd : p.IsData := ⟨hsize, h0, hend, endSeq_lt_of_le h1, not_not.1 h2⟩
    exact bufferAhead_transition hd hm hb h5 (pending_of_not h3)
  · have hd : p.IsData := ⟨hsize, h0, hend, endSeq_lt_of_le h1, not_not.1 h2⟩
    exact applyInOrder_transition ⟨hd, UInt64.not_lt.1 h5, UInt64.not_le.1 h4,
      pending_of_not h3⟩

/-- What a packet does to a decoder that is not terminal, once the decoder is bound to a session. -/
theorem processPacket_transition (ht : d.terminalStatus = .ok) (p : PacketView) :
    Transition d p (d.processPacket p).2 ∨ Transition (d.bindSession p.data) p
      (d.processPacket p).2 := by
  unfold processPacket
  dsimp only
  rw [if_neg (not_not.2 ht)]
  by_cases hsize : p.data.length < kHeaderSize
  · rw [if_pos hsize]
    exact .inl (.idle (fun h => hsize.ne h.1) fun h => absurd h.1 hsize.ne)
  rw [if_neg hsize]
  split_ifs with h1 h2 h3 h4
  · exact .inl (.failed rfl)
  · exact .inl (.failed rfl)
  · refine .inr (processEndOfSession_transition ⟨?_, h3⟩)
    exact not_not.1 fun h => h1 ⟨.inr h3, h⟩
  · refine .inr (processHeartbeat_transition ⟨?_, h4⟩)
    exact not_not.1 fun h => h1 ⟨.inl h4, h⟩
  · exact .inr (processData_transition (Nat.not_lt.1 hsize) h4 h3)

theorem processPacket_terminal (ht : d.terminalStatus ≠ .ok) (p : PacketView) :
    d.processPacket p = ({ status := d.terminalStatus }, d) := if_pos ht

/-- The watermark once the next sequence may have reached it. -/
def watermarkAt (watermark next : UInt64) : UInt64 :=
  if watermark ≠ 0 ∧ watermark ≤ next then 0 else watermark

theorem settle_cases (d : MoldUdpDecoder) :
    (d.channel.status = .invalid ∨ d.channel.status = .stale) ∧ d.settle = d
    ∨ d.channel.status ≠ .invalid ∧ d.channel.status ≠ .stale
      ∧ d.settle = { d with channel := { d.channel with
        heartbeatNextSeqHighWatermark :=
          watermarkAt d.channel.heartbeatNextSeqHighWatermark d.channel.nextExpectedSeq
        status :=
          if d.channel.gapBuffer.empty = true
            ∧ watermarkAt d.channel.heartbeatNextSeqHighWatermark d.channel.nextExpectedSeq = 0
          then .good else .recovering } } := by
  unfold settle watermarkAt
  dsimp only
  by_cases hst : d.channel.status ≠ .invalid ∧ d.channel.status ≠ .stale
  · refine .inr ⟨hst.1, hst.2, ?_⟩
    rw [if_pos hst]
    by_cases hwm : d.channel.heartbeatNextSeqHighWatermark ≠ 0
        ∧ d.channel.heartbeatNextSeqHighWatermark ≤ d.channel.nextExpectedSeq
    · rw [if_pos hwm, if_pos hwm]
      rfl
    · rw [if_neg hwm, if_neg hwm]
      rfl
  · rw [if_neg hst]
    refine .inl ⟨?_, rfl⟩
    rw [not_and_or, not_not, not_not] at hst
    exact hst

theorem settle_gapBuffer (d : MoldUdpDecoder) :
    d.settle.channel.gapBuffer = d.channel.gapBuffer := by
  rcases settle_cases d with ⟨_, hs⟩ | ⟨_, _, hs⟩ <;> rw [hs]

/-- How the decoder is left once the drain of an in-order packet has ended well. -/
theorem concludeInOrder_cases (d : MoldUdpDecoder) (result : DecodeResult) (hadGap : Bool) :
    (d.concludeInOrder result hadGap).2 = d.settle
      ∧ (d.settle.pendingEndSequence = 0
        ∨ d.settle.channel.nextExpectedSeq < d.settle.pendingEndSequence
        ∨ d.settle.channel.nextExpectedSeq = d.settle.pendingEndSequence
          ∧ (d.settle.channel.status ≠ .good ∨ d.settle.channel.gapBuffer.empty = false
            ∨ d.settle.channel.heartbeatNextSeqHighWatermark ≠ 0))
    ∨ (∃ status, isTerminalDecodeFailure status = true
      ∧ (d.concludeInOrder result hadGap).2 = (d.settle.terminalFailure status).2)
    ∨ d.settle.pendingEndSequence ≠ 0
      ∧ d.settle.channel.nextExpectedSeq = d.settle.pendingEndSequence
      ∧ d.settle.channel.status = .good ∧ d.settle.channel.gapBuffer.empty = true
      ∧ d.settle.channel.heartbeatNextSeqHighWatermark = 0
      ∧ d.settle.channel.phase = .endOfMessages
      ∧ (d.concludeInOrder result hadGap).2
        = { d.settle with pendingEndSequence := 0, terminalStatus := .endOfStream } := by
  unfold concludeInOrder
  dsimp only
  generalize d.settle = s
  unfold resolvePendingEndOfStream
  dsimp only
  by_cases h1 : s.pendingEndSequence = 0 ∨ s.channel.nextExpectedSeq < s.pendingEndSequence
  · rw [if_pos h1]
    exact .inl ⟨rfl, h1.imp_right .inl⟩
  rw [if_neg h1]
  obtain ⟨h0, hlt⟩ := not_or.1 h1
  by_cases h2 : s.pendingEndSequence < s.channel.nextExpectedSeq
  · rw [if_pos h2]
    exact .inr (.inl ⟨.invalidSequence, rfl, rfl⟩)
  rw [if_neg h2]
  have heq := UInt64.le_antisymm (UInt64.not_lt.1 h2) (UInt64.not_lt.1 hlt)
  by_cases h3 : s.channel.status ≠ .good ∨ (!s.channel.gapBuffer.empty) = true
      ∨ s.channel.heartbeatNextSeqHighWatermark ≠ 0
  · rw [if_pos h3]
    refine .inl ⟨rfl, .inr (.inr ⟨heq, ?_⟩)⟩
    rwa [Bool.not_eq_true'] at h3
  rw [if_neg h3]
  obtain ⟨hst, h3⟩ := not_or.1 h3
  obtain ⟨hemp, hwm⟩ := not_or.1 h3
  by_cases h4 : s.channel.phase ≠ .endOfMessages
  · rw [if_pos h4]
    exact .inr (.inl ⟨.incompleteSession, rfl, rfl⟩)
  · rw [if_neg h4]
    exact .inr (.inr ⟨h0, heq, not_not.1 hst, by simpa using hemp, not_not.1 hwm, not_not.1 h4,
      rfl⟩)

theorem terminalStatus_bindSession (data : List UInt8) :
    (d.bindSession data).terminalStatus = d.terminalStatus := by
  unfold MoldUdpDecoder.bindSession
  split_ifs <;> rfl

theorem bindSession_gapBuffer (data : List UInt8) :
    (d.bindSession data).channel.gapBuffer = d.channel.gapBuffer := by
  unfold bindSession
  split <;> rfl

/-- Without a pending end the decoder only settles. -/
theorem concludeInOrder_of_pending (h : d.pendingEndSequence = 0) (result : DecodeResult)
    (hadGap : Bool) : (d.concludeInOrder result hadGap).2 = d.settle := by
  have hs : d.settle.pendingEndSequence = 0 := by
    rcases settle_cases d with ⟨_, hs⟩ | ⟨_, _, hs⟩
    · rw [hs]
      exact h
    · rw [hs]
      exact h
  have hres : d.settle.resolvePendingEndOfStream = (.ok, d.settle) := if_pos (.inl hs)
  unfold concludeInOrder
  dsimp only
  rw [hres]
  rfl

/-- What a transition of the decoder, bound to its session or not, keeps is kept by a packet. -/
theorem processPacket_induction {I : MoldUdpDecoder → MoldUdpDecoder → Prop}
    (hterm : d.terminalStatus ≠ .ok → I d d)
    (hstep : ∀ b, b = d ∨ b = d.bindSession p.data → b.terminalStatus = .ok →
      ∀ d', Transition b p d' → I d d') : I d (d.processPacket p).2 := by
  by_cases ht : d.terminalStatus = .ok
  · rcases processPacket_transition ht p with h | h
    · exact hstep d (.inl rfl) ht _ h
    · exact hstep _ (.inr rfl) ((terminalStatus_bindSession p.data).trans ht) _ h
  · rw [processPacket_terminal ht]
    exact hterm ht

/-- What every packet of a run keeps holds after the run. -/
theorem run_induction {I : MoldUdpDecoder → Prop} {P : PacketView → Prop}
    (hstep : ∀ d p, P p → I d → I (d.processPacket p).2) {packets : List PacketView} (h : I d)
    (hp : ∀ p ∈ packets, P p) : I (d.run packets) := by
  induction packets generalizing d with
  | nil => exact h
  | cons p packets ih =>
    exact ih (hstep d p (hp p List.mem_cons_self) h) fun q hq => hp q (List.mem_cons_of_mem _ hq)

theorem run_snoc (d : MoldUdpDecoder) (packets : List PacketView) (p : PacketView) :
    d.run (packets ++ [p]) = ((d.run packets).processPacket p).2 := by
  unfold run
  rw [List.foldl_append]
  rfl

/-- Whether the packet's session is the one the decoder is bound to, or can be. -/
def Admitted (d : MoldUdpDecoder) (p : PacketView) : Prop :=
  d.firstPacketSeen = true → d.channel.sessionMatches p.data = true

theorem not_le_of_endSeq_lt (h : p.firstSeq.toNat + p.msgCount.toNat < 2 ^ 64) :
    ¬ 0xFFFFFFFFFFFFFFFF - p.msgCount.toUInt64 < p.firstSeq := by
  have hn := p.msgCount.toNat_lt
  have hsub : (0xFFFFFFFFFFFFFFFF - p.msgCount.toUInt64).toNat = 2 ^ 64 - 1 - p.msgCount.toNat := by
    rw [UInt64.toNat_sub_of_le, UInt16.toNat_toUInt64]
    · rfl
    · rw [UInt64.le_iff_toNat_le, UInt16.toNat_toUInt64]
      change p.msgCount.toNat ≤ 2 ^ 64 - 1
      omega
  rw [UInt64.lt_iff_toNat_lt, hsub]
  omega

/-- A packet with a header of the decoder's session, by its kind. -/
theorem processPacket_admitted (hok : d.terminalStatus = .ok) (hs : Admitted d p)
    (hlen : kHeaderSize ≤ p.data.length)
    (hkind : p.msgCount = 0 ∨ p.msgCount = kEndOfSessionMessageCount →
      p.data.length = kHeaderSize) :
    d.processPacket p
      = let b := d.bindSession p.data
        if p.msgCount = kEndOfSessionMessageCount then b.processEndOfSession p.firstSeq
        else if p.msgCount = 0 then b.processHeartbeat p.firstSeq
        else b.processData p p.firstSeq p.msgCount := by
  have hk : ¬ ((readU16BE p.data 18 = 0 ∨ readU16BE p.data 18 = kEndOfSessionMessageCount)
      ∧ p.data.length ≠ kHeaderSize) := fun h => h.2 (hkind h.1)
  have hsession : ¬ (d.firstPacketSeen = true ∧ (!d.channel.sessionMatches p.data) = true) := by
    rintro ⟨hseen, hne⟩
    rw [hs hseen] at hne
    cases hne
  unfold processPacket
  dsimp only
  rw [if_neg (not_not.2 hok), if_neg (Nat.not_lt.2 hlen), if_neg hk, if_neg hsession]
  rfl

/-- A well-formed data packet, by where it lies. -/
theorem processPacket_data (hd : p.IsData) (hok : d.terminalStatus = .ok) (hs : Admitted d p) :
    d.processPacket p
      = let b := d.bindSession p.data
        if b.pendingEndSequence ≠ 0 ∧ b.pendingEndSequence < p.endSeq then
          b.terminalFailure .invalidSequence
        else if p.endSeq ≤ b.channel.nextExpectedSeq then ({ status := .ok }, b)
        else if b.channel.nextExpectedSeq < p.firstSeq then b.bufferAhead p p.firstSeq p.msgCount
        else b.applyInOrder p p.firstSeq p.msgCount := by
  rw [processPacket_admitted hok hs hd.header fun h =>
    absurd h (not_or.2 ⟨hd.msgCount_ne_zero, hd.msgCount_ne_end⟩)]
  dsimp only
  rw [if_neg hd.msgCount_ne_end, if_neg hd.msgCount_ne_zero]
  unfold processData
  dsimp only
  rw [if_neg (not_le_of_endSeq_lt hd.endSeq_lt), if_neg (not_not.2 hd.valid)]
  rfl

theorem bindSession_eq (d : MoldUdpDecoder) (data : List UInt8) :
    ∃ session, d.bindSession data = { d with
      firstPacketSeen := true
      channel := { d.channel with session := session } } := by
  unfold bindSession
  split
  · rename_i hseen
    exact ⟨d.channel.session, by rw [← hseen]⟩
  · exact ⟨_, rfl⟩

theorem InOrder.bindSession (ho : InOrder d p) (data : List UInt8) :
    InOrder (d.bindSession data) p := by
  obtain ⟨session, hb⟩ := bindSession_eq d data
  rw [hb]
  exact ⟨ho.data, ho.first, ho.last, ho.pending⟩

/-- A packet in order is applied. -/
theorem processPacket_inOrder (ho : InOrder d p) (hok : d.terminalStatus = .ok)
    (hs : Admitted d p) :
    d.processPacket p = (d.bindSession p.data).applyInOrder p p.firstSeq p.msgCount := by
  have hb := ho.bindSession p.data
  rw [processPacket_data ho.data hok hs]
  dsimp only
  rw [if_neg, if_neg (UInt64.not_le.2 hb.last), if_neg (UInt64.not_lt.2 hb.first)]
  rintro ⟨h0, hlt⟩
  rcases hb.pending with h | h
  · exact h0 h
  · exact UInt64.not_lt.2 h hlt

/-- A heartbeat of the decoder's session. -/
theorem processPacket_heartbeat (hb : p.IsHeartbeat) (hok : d.terminalStatus = .ok)
    (hs : Admitted d p) :
    d.processPacket p = (d.bindSession p.data).processHeartbeat p.firstSeq := by
  rw [processPacket_admitted hok hs hb.1.ge fun _ => hb.1]
  dsimp only
  rw [if_neg fun h => absurd (hb.2.symm.trans h) (by decide), if_pos hb.2]

/-- A marker of the decoder's session. -/
theorem processPacket_endOfSession (hm : p.IsEndOfSession) (hok : d.terminalStatus = .ok)
    (hs : Admitted d p) :
    d.processPacket p = (d.bindSession p.data).processEndOfSession p.firstSeq := by
  rw [processPacket_admitted hok hs hm.1.ge fun _ => hm.1]
  exact if_pos hm.2

end MoldUdpDecoder

end AstraFeed
