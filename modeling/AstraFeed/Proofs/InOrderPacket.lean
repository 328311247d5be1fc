import AstraFeed.Proofs.DecoderRun
import AstraFeed.Proofs.Lifecycle

/-!
# Packets in order

While nothing is buffered, a packet that carries the next sequence is applied and nothing else
happens. A day of System Events alone, in one packet, leads to the end of messages.
-/

namespace AstraFeed

open MoldUdpPacketHeader Wire Probe

namespace MoldUdpDecoder

variable {d : MoldUdpDecoder} {p : PacketView}

theorem find_fresh (seq : UInt64) : GapBuffer.fresh.find seq = none := by
  cases h : GapBuffer.fresh.find seq with
  | none => rfl
  | some e =>
    obtain ⟨⟨_, _, hslot⟩, _⟩ := GapBuffer.has_of_find h
    cases hslot

/-- There is nothing to drain. -/
theorem drainGapBuffer_fresh (h : d.channel.gapBuffer = .fresh) : d.drainGapBuffer = ({}, d) := by
  have hnone : d.drainCandidate = none := by
    refine List.findSome?_eq_none_iff.2 fun distance _ => ?_
    rw [h]
    exact find_fresh _
  unfold drainGapBuffer
  rw [drainLoop, hnone]

/-- The messages of the packet that are new. -/
def newMessages (d : MoldUdpDecoder) (p : PacketView) : List (List UInt8) :=
  p.messages.drop (d.channel.nextExpectedSeq.toNat - p.firstSeq.toNat)

/-- A packet in order is refused with one of its messages, or applied. -/
theorem applyInOrder_fresh (ho : InOrder d p) (hbuf : d.channel.gapBuffer = .fresh) :
    (∃ k < (d.newMessages p).length,
      (d.handAll d.channel.nextExpectedSeq ((d.newMessages p).take (k + 1))).parser.lastError ≠ none
      ∧ (d.applyInOrder p p.firstSeq p.msgCount).2
        = (((d.handAll d.channel.nextExpectedSeq ((d.newMessages p).take (k + 1))).setStatus
          .invalid).terminalFailure .invalidItchMessage).2)
    ∨ ∃ result hadGap, (d.applyInOrder p p.firstSeq p.msgCount).2
        = ((d.advance p).concludeInOrder result hadGap).2 := by
  have hfresh : (d.advance p).channel.gapBuffer = .fresh := by
    obtain ⟨_, _, _, ha⟩ := advance_eq d p
    rw [ha]
    exact hbuf
  have hdrain := drainGapBuffer_fresh hfresh
  rcases applyInOrder_cases ho with ⟨status, d', hh, hne, hout⟩ | ⟨hne, hout⟩ | ⟨_, result, hadGap, hout⟩
  · cases hh with
    | all => exact absurd rfl hne
    | refused k hk herr => exact .inl ⟨k, hk, herr, hout⟩
  · rw [hdrain] at hne
    exact absurd rfl hne
  · rw [hdrain] at hout
    exact .inr ⟨result, hadGap, hout⟩

theorem parser_handAll {seq : UInt64} {msgs : List (List UInt8)}
    (h : ∀ msg ∈ msgs, WellSized msg) :
    (d.handAll seq msgs).parser = d.parser.feed msgs := by
  induction msgs generalizing d seq with
  | nil => rfl
  | cons msg msgs ih =>
    rw [handAll, ih fun m hm => h m (List.mem_cons_of_mem _ hm)]
    show ItchParser.feed (d.parser.handlePrevalidatedMessage msg).2 msgs = _
    rw [handlePrevalidatedMessage_eq (h msg List.mem_cons_self)]
    rfl

theorem handAll_phase (seq : UInt64) (msgs : List (List UInt8))
    (h : d.channel.phase = d.parser.channelPhase) :
    (d.handAll seq msgs).channel.phase = (d.handAll seq msgs).parser.channelPhase := by
  induction msgs generalizing d seq with
  | nil => exact h
  | cons msg msgs ih => exact ih _ rfl

/-! ## A day of System Events -/

/-- The daily System Events, in one packet. -/
def dayPacket : PacketView :=
  { PacketView.sentData 1 (ItchParser.dailyEvents.map systemEvent) with receiveStartTicks := 1 }

/-- The end of the day's session. -/
def dayMarker : PacketView := { PacketView.sentEndOfSession 7 with receiveStartTicks := 1 }

/-- The packet is well-formed and carries the events, as sequences 1 to 6. -/
theorem dayPacket_spec : dayPacket.IsData
    ∧ dayPacket.messages = ItchParser.dailyEvents.map systemEvent
    ∧ dayPacket.firstSeq = 1 ∧ dayPacket.endSeq = 7
    ∧ dayPacket.data.take kSessionSize = dayMarker.data.take kSessionSize := by
  decide +kernel

/-- The parser at the end of the day. -/
theorem feed_day {config : BookManagerConfig} {systemPageBytes : ℕ} {books : BookManager}
    (hm : BookManager.create config systemPageBytes = .ok books) :
    ((ItchParser.create .fresh books).feed
      (ItchParser.dailyEvents.map systemEvent)).channelPhase = .endOfMessages := by
  have h := ItchParser.lifecycle_run hm ((ItchParser.dailyEvents.take 6).map systemEvent)
  rw [(ItchParser.accepted_day hm 6).1] at h
  have hcount : ((ItchParser.create .fresh books).feed
      (ItchParser.dailyEvents.map systemEvent)).channelPhase.eventCount = 6 :=
    h.eventCount_eq (Nat.le_refl 6)
  revert hcount
  generalize ((ItchParser.create .fresh books).feed
    (ItchParser.dailyEvents.map systemEvent)).channelPhase = phase
  cases phase <;> decide

/-- The day's packet to a decoder that has handed nothing over yet. -/
theorem processPacket_day {config : BookManagerConfig} {systemPageBytes : ℕ} {books : BookManager}
    (hm : BookManager.create config systemPageBytes = .ok books) (hok : d.terminalStatus = .ok)
    (hs : Admitted d dayPacket) (hparser : d.parser = .create .fresh books)
    (hphase : d.channel.phase = .waitingStartOfMessages) (hnext : d.channel.nextExpectedSeq = 1)
    (hbuf : d.channel.gapBuffer = .fresh)
    (hpend : d.pendingEndSequence = 0 ∨ d.pendingEndSequence = 7) :
    ∃ result hadGap b,
      (d.processPacket dayPacket).2 = (concludeInOrder b result hadGap).2
      ∧ b.terminalStatus = .ok ∧ b.pendingEndSequence = d.pendingEndSequence
      ∧ b.firstPacketSeen = true ∧ b.channel.session = (d.bindSession dayPacket.data).channel.session
      ∧ b.channel.phase = .endOfMessages ∧ b.channel.nextExpectedSeq = 7
      ∧ b.channel.gapBuffer = .fresh
      ∧ b.channel.heartbeatNextSeqHighWatermark = d.channel.heartbeatNextSeqHighWatermark
      ∧ b.channel.status
        = if d.channel.status = .gapDetected then .recovering else d.channel.status := by
  have ho : InOrder d dayPacket := by
    refine ⟨dayPacket_spec.1, ?_, ?_, hpend.imp_right fun h => ?_⟩
    · rw [hnext, dayPacket_spec.2.2.1]
      exact UInt64.le_refl _
    · rw [hnext, dayPacket_spec.2.2.2.1]
      decide
    · rw [h, dayPacket_spec.2.2.2.1]
      exact UInt64.le_refl _
  have hob := ho.bindSession dayPacket.data
  obtain ⟨session, hb⟩ := bindSession_eq d dayPacket.data
  rw [processPacket_inOrder ho hok hs]
  rw [hb] at hob ⊢
  generalize hd : ({ d with
    firstPacketSeen := true
    channel := { d.channel with session := session } } : MoldUdpDecoder) = b at hob ⊢
  have hbparser : b.parser = .create .fresh books := by
    rw [← hd]
    exact hparser
  have hbnext : b.channel.nextExpectedSeq = 1 := by
    rw [← hd]
    exact hnext
  have hbfresh : b.channel.gapBuffer = .fresh := by
    rw [← hd]
    exact hbuf
  have hnew : b.newMessages dayPacket = ItchParser.dailyEvents.map systemEvent := by
    unfold newMessages
    rw [hbnext, dayPacket_spec.2.2.1, dayPacket_spec.2.1]
    rfl
  have hsized : ∀ msg ∈ ItchParser.dailyEvents.map systemEvent, WellSized msg := by
    unfold WellSized
    decide +kernel
  rcases applyInOrder_fresh hob hbfresh with ⟨k, hk, herr, _⟩ | ⟨result, hadGap, hout⟩
  · rw [hnew] at herr
    rw [parser_handAll fun msg hmsg => hsized msg (List.mem_of_mem_take hmsg), hbparser,
      ← List.map_take] at herr
    exact absurd (ItchParser.accepted_day hm (k + 1)).2.2 herr
  · have hadvphase : (b.advance dayPacket).channel.phase = .endOfMessages := by
      have hhand := handAll_phase b.channel.nextExpectedSeq (b.newMessages dayPacket)
        (by rw [hbparser, ← hd]; exact hphase)
      rw [parser_handAll (by rw [hnew]; exact hsized), hnew, hbparser, feed_day hm, ← hnew] at hhand
      unfold advance
      dsimp only
      split
      · exact hhand
      · exact hhand
    obtain ⟨_, _, _, hadv⟩ := advance_eq b dayPacket
    refine ⟨result, hadGap, b.advance dayPacket, hout, ?_, ?_, ?_, ?_, hadvphase, ?_, ?_, ?_, ?_⟩
    all_goals rw [hadv]
    · rw [← hd]
      exact hok
    · rw [← hd]
    · rw [← hd]
    · exact dayPacket_spec.2.2.2.1
    · exact hbfresh
    · rw [← hd]
    · rw [← hd]

/-- A clear channel after the last message accepts the marker. -/
theorem processPacket_marker (hmark : p.IsEndOfSession) (hok : d.terminalStatus = .ok)
    (hs : Admitted d p) (hnext : d.channel.nextExpectedSeq = p.firstSeq)
    (hpend : d.pendingEndSequence = 0) (hempty : d.channel.gapBuffer.empty = true)
    (hended : d.channel.status = .good) (hwatermark : d.channel.heartbeatNextSeqHighWatermark = 0)
    (hphase : d.channel.phase = .endOfMessages) :
    (d.processPacket p).2.terminalStatus = .endOfStream := by
  obtain ⟨session, hb⟩ := bindSession_eq d p.data
  rw [processPacket_endOfSession hmark hok hs, hb]
  unfold processEndOfSession
  dsimp only
  rw [hnext, hpend, hempty, hended, hwatermark, hphase, if_neg, if_neg (UInt64.lt_irrefl _),
    if_neg (by decide), if_neg (by decide)]
  rintro (h | ⟨h, _⟩ | h)
  · exact UInt64.lt_irrefl _ h
  · exact h rfl
  · exact UInt64.not_lt.2 (UInt64.le_iff_toNat_le.2 (Nat.zero_le _)) h

section Day

variable {config : BookManagerConfig} {systemPageBytes : ℕ} {books : BookManager}

theorem day_then_marker (hm : BookManager.create config systemPageBytes = .ok books) :
    ((create .fresh books 1).run [dayPacket]).terminalStatus = .ok
      ∧ ((create .fresh books 1).run [dayPacket]).channel.nextExpectedSeq = 7
      ∧ (((create .fresh books 1).run [dayPacket]).processPacket dayMarker).2.terminalStatus
        = .endOfStream := by
  obtain ⟨result, hadGap, b, hout, hok, hpend, hseen, hsession, hphase, hnext, hbuf, hwm, hst⟩ :=
    processPacket_day (d := create .fresh books 1) hm rfl (fun h => by cases h) rfl rfl rfl rfl
      (.inl rfl)
  have hrun : (create .fresh books 1).run [dayPacket] = b.settle := by
    rw [← concludeInOrder_of_pending hpend result hadGap, ← hout]
    exact run_snoc _ [] dayPacket
  have hsettle : b.settle = { b with channel := { b.channel with
      heartbeatNextSeqHighWatermark := 0, status := .good } } := by
    rcases settle_cases b with ⟨hbad, _⟩ | ⟨_, _, hs⟩
    · rw [hst] at hbad
      rcases hbad with h | h <;> cases h
    · rw [hs, hbuf, hwm, hnext]
      rfl
  rw [hrun, hsettle]
  refine ⟨hok, hnext, processPacket_marker (by decide +kernel) hok (fun _ => ?_) ?_ hpend ?_ rfl
    rfl hphase⟩
  · exact decide_eq_true (hsession.trans dayPacket_spec.2.2.2.2)
  · rw [hnext]
    decide +kernel
  · rw [hbuf]
    rfl

theorem marker_then_day (hm : BookManager.create config systemPageBytes = .ok books) :
    ((create .fresh books 1).run [dayMarker]).terminalStatus = .ok
      ∧ (((create .fresh books 1).run [dayMarker]).processPacket dayPacket).2.terminalStatus
        = .endOfStream
      ∧ (((create .fresh books 1).run [dayMarker]).processPacket
        dayPacket).2.channel.nextExpectedSeq = 7 := by
  refine ⟨rfl, ?_⟩
  have hsame : dayMarker.data.take kSessionSize = dayPacket.data.take kSessionSize :=
    dayPacket_spec.2.2.2.2.symm
  obtain ⟨result, hadGap, b, hout, hok, hpend, hseen, hsession, hphase, hnext, hbuf, hwm, hst⟩ :=
    processPacket_day (d := (create .fresh books 1).run [dayMarker]) hm rfl
      (fun _ => decide_eq_true hsame) rfl rfl rfl rfl (.inr rfl)
  have hpend' : b.pendingEndSequence = 7 := hpend
  have hsettle : b.settle = { b with channel := { b.channel with
      heartbeatNextSeqHighWatermark := 0, status := .good } } := by
    rcases settle_cases b with ⟨hbad, _⟩ | ⟨_, _, hs⟩
    · rw [hst] at hbad
      rcases hbad with h | h <;> cases h
    · rw [hs, hbuf, hwm, hnext]
      rfl
  have hres : b.settle.resolvePendingEndOfStream.1 = .endOfStream
      ∧ b.settle.resolvePendingEndOfStream.2.terminalStatus = .endOfStream := by
    rw [hsettle]
    unfold resolvePendingEndOfStream
    dsimp only
    rw [hpend', hnext, hbuf, hphase]
    exact ⟨rfl, rfl⟩
  rw [hout, concludeInOrder_next]
  refine ⟨?_, hnext⟩
  unfold concludeInOrder
  dsimp only
  rw [hres.1, if_pos (by decide), if_pos rfl]
  exact hres.2

end Day

end MoldUdpDecoder

end AstraFeed
