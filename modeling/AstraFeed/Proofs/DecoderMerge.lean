import AstraFeed.Proofs.DecoderStep

/-!
# The merge of redundant lines

The messages handed to the parser are those from the initial sequence on, each once and in order
(`coherent_transition`).
-/

namespace AstraFeed

open MoldUdpPacketHeader Wire Probe

theorem SequencedPacket.WellFormed.endSeq_toNat {Q : ℕ → List UInt8 → Prop}
    {e : SequencedPacket} (h : e.WellFormed Q) :
    e.endSeq.toNat = e.seq.toNat + e.msgCount.toNat := by
  rw [SequencedPacket.endSeq, UInt64.toNat_add, UInt16.toNat_toUInt64]
  exact Nat.mod_eq_of_lt h.endSeq_lt

namespace MoldUdpDecoder

variable {first : ItchParser} {initial : UInt64} {Q : ℕ → List UInt8 → Prop}
variable {d : MoldUdpDecoder} {p : PacketView} {e : SequencedPacket}

/-! ## Messages -/

theorem Coherent.handMessage (h : Coherent first initial Q d) {seq : UInt64} {msg : List UInt8}
    (hseq : seq.toNat = initial.toNat + d.handed.length) (hs : WellSized msg)
    (hq : Q seq.toNat msg) : Coherent first initial Q (d.handMessage seq msg) where
  seqs := by
    simp only [MoldUdpDecoder.handMessage, List.map_append, List.map_cons, List.map_nil,
      List.length_append, List.length_cons, List.length_nil, h.seqs, hseq]
    rw [Nat.zero_add, List.range'_concat, Nat.one_mul]
  parser := by
    simp only [MoldUdpDecoder.handMessage, List.foldl_append, List.foldl_cons, List.foldl_nil]
    rw [← h.parser, handlePrevalidatedMessage_eq hs]
  phase := rfl
  messages := by
    intro m hm
    rcases List.mem_append.1 hm with hm | hm
    · exact h.messages m hm
    · rw [List.mem_singleton.1 hm]
      exact hq
  buffered := h.buffered
  sized := h.sized

theorem Coherent.handAll (h : Coherent first initial Q d) {seq : UInt64}
    {msgs : List (List UInt8)} (hseq : seq.toNat = initial.toNat + d.handed.length)
    (hfit : seq.toNat + msgs.length < 2 ^ 64) (hs : ∀ msg ∈ msgs, WellSized msg)
    (hq : ∀ i msg, msgs[i]? = some msg → Q (seq.toNat + i) msg) :
    Coherent first initial Q (d.handAll seq msgs)
      ∧ (d.handAll seq msgs).handed.length = d.handed.length + msgs.length := by
  induction msgs generalizing d seq with
  | nil => exact ⟨h, rfl⟩
  | cons msg msgs ih =>
    have hnext : (seq + 1).toNat = seq.toNat + 1 := toNat_add_one hfit
    have hhand := h.handMessage hseq (hs msg List.mem_cons_self) (hq 0 msg rfl)
    have hlen : (d.handMessage seq msg).handed.length = d.handed.length + 1 := by
      simp only [MoldUdpDecoder.handMessage, List.length_append, List.length_singleton]
    obtain ⟨hc, hl⟩ := @ih (d.handMessage seq msg) hhand (seq + 1) (by omega)
      (by rw [hnext]; rw [List.length_cons] at hfit; omega)
      (fun m hm => hs m (List.mem_cons_of_mem _ hm))
      (fun i m hm => by rw [hnext, Nat.add_assoc, Nat.add_comm 1 i]; exact hq (i + 1) m hm)
    refine ⟨hc, ?_⟩
    rw [MoldUdpDecoder.handAll, hl, hlen, List.length_cons]
    omega

theorem Coherent.setStatus (h : Coherent first initial Q d) (status : ChannelHealth) :
    Coherent first initial Q (d.setStatus status) :=
  ⟨h.seqs, h.parser, h.phase, h.messages, h.buffered, h.sized⟩

/-- Messages handed over from the next sequence on, up to the sequence `last`. -/
theorem Coherent.hands (h : Coherent first initial Q d) (hc : CaughtUp initial d)
    {msgs : List (List UInt8)} {last : ℕ} {status : DecodeStatus} {d' : MoldUdpDecoder}
    (hlast : d.channel.nextExpectedSeq.toNat + msgs.length = last) (hfit : last < 2 ^ 64)
    (hs : ∀ msg ∈ msgs, WellSized msg)
    (hq : ∀ i msg, msgs[i]? = some msg → Q (d.channel.nextExpectedSeq.toNat + i) msg)
    (hh : Hands d d.channel.nextExpectedSeq msgs status d') :
    Coherent first initial Q d' ∧ initial.toNat + d'.handed.length ≤ last
      ∧ (status = .ok → initial.toNat + d'.handed.length = last) := by
  unfold CaughtUp at hc
  cases hh with
  | all =>
    obtain ⟨hco, hlen⟩ := h.handAll hc.symm (by omega) hs hq
    exact ⟨hco, by omega, fun _ => by omega⟩
  | refused k hk herr =>
    have htake : (msgs.take (k + 1)).length = k + 1 := by
      rw [List.length_take]
      omega
    have hqt : ∀ i msg, (msgs.take (k + 1))[i]? = some msg →
        Q (d.channel.nextExpectedSeq.toNat + i) msg := by
      intro i msg hm
      rw [List.getElem?_take] at hm
      split_ifs at hm
      exact hq i msg hm
    obtain ⟨hco, hlen⟩ := h.handAll hc.symm (by omega)
      (fun m hm => hs m (List.mem_of_mem_take hm)) hqt
    refine ⟨hco.setStatus _, ?_, fun hok => by cases hok⟩
    change _ + (d.handAll _ _).handed.length ≤ _
    omega

/-- The unseen messages of a valid packet, handed over from the next sequence on. -/
theorem Coherent.hands_tail (h : Coherent first initial Q d) (hc : CaughtUp initial d)
    {data : List UInt8} {firstSeq : UInt64} {msgCount : UInt16} {status : DecodeStatus}
    {d' : MoldUdpDecoder} (hv : validateSequencedPacket data msgCount = .ok)
    (hfirst : firstSeq ≤ d.channel.nextExpectedSeq)
    (hlast : d.channel.nextExpectedSeq.toNat ≤ firstSeq.toNat + msgCount.toNat)
    (hfit : firstSeq.toNat + msgCount.toNat < 2 ^ 64)
    (hq : ∀ i msg, (framedMessages data msgCount.toNat kHeaderSize)[i]? = some msg →
      Q (firstSeq.toNat + i) msg)
    (hh : Hands d d.channel.nextExpectedSeq
      ((framedMessages data msgCount.toNat kHeaderSize).drop
        (d.channel.nextExpectedSeq.toNat - firstSeq.toNat)) status d') :
    Coherent first initial Q d'
      ∧ initial.toNat + d'.handed.length ≤ firstSeq.toNat + msgCount.toNat
      ∧ (status = .ok → initial.toNat + d'.handed.length = firstSeq.toNat + msgCount.toNat) := by
  rw [UInt64.le_iff_toNat_le] at hfirst
  refine h.hands hc ?_ hfit (fun m hm => framed_wellSized hv (List.mem_of_mem_drop hm)) ?_ hh
  · rw [List.length_drop, length_framedMessages]
    omega
  · intro i msg hm
    rw [List.getElem?_drop] at hm
    have hi : d.channel.nextExpectedSeq.toNat + i
        = firstSeq.toNat + (d.channel.nextExpectedSeq.toNat - firstSeq.toNat + i) := by omega
    rw [hi]
    exact hq _ msg hm

/-! ## The drain -/

theorem buffered_erase (hs : d.channel.gapBuffer.Sized) (seq : UInt64)
    (he : Buffered (d.eraseBuffered seq) e) : Buffered d e := by
  unfold Buffered at he ⊢
  simp only [MoldUdpDecoder.eraseBuffered] at he
  rcases hs.erase_cases seq with ⟨_, herase⟩ | ⟨_, _, _, _, hsub⟩
  · rw [herase] at he
    exact he
  · exact hsub e he

theorem Coherent.eraseBuffered (h : Coherent first initial Q d) (seq : UInt64) :
    Coherent first initial Q (d.eraseBuffered seq) where
  seqs := h.seqs
  parser := h.parser
  phase := h.phase
  messages := h.messages
  buffered := fun e he => h.buffered e (buffered_erase h.sized seq he)
  sized := by
    rcases GapBuffer.Sized.erase_cases h.sized seq with ⟨_, herase⟩ | ⟨_, _, hsized, _⟩
    · simp only [MoldUdpDecoder.eraseBuffered]
      rw [herase]
      exact h.sized
    · exact hsized

theorem Forward.refl (d : MoldUdpDecoder) : Forward d d :=
  ⟨⟨rfl, rfl, rfl, rfl, rfl, UInt64.le_refl _⟩, fun _ hn _ => hn, fun _ => id⟩

theorem Moved.trans {d₁ d₂ d₃ : MoldUdpDecoder} (h : Moved d₁ d₂) (h' : Moved d₂ d₃) :
    Moved d₁ d₃ where
  pending := h'.pending.trans h.pending
  terminal := h'.terminal.trans h.terminal
  watermark := h'.watermark.trans h.watermark
  seen := h'.seen.trans h.seen
  session := h'.session.trans h.session
  next := UInt64.le_trans h.next h'.next

theorem Forward.trans {d₁ d₂ d₃ : MoldUdpDecoder} (h : Forward d₁ d₂) (h' : Forward d₂ d₃) :
    Forward d₁ d₃ where
  toMoved := h.toMoved.trans h'.toMoved
  within := fun n hn hb => h'.within n (h.within n hn hb) fun e he => hb e (h.buffered e he)
  buffered := fun e he => h.buffered e (h'.buffered e he)

theorem SameButParsed.forward {d' : MoldUdpDecoder} (h : SameButParsed d d') : Forward d d' := by
  obtain ⟨_, _, _, rfl⟩ := h
  exact ⟨⟨rfl, rfl, rfl, rfl, rfl, UInt64.le_refl _⟩, fun _ hn _ => hn, fun _ => id⟩

theorem Hands.forward {seq : UInt64} {msgs : List (List UInt8)} {status : DecodeStatus}
    {d' : MoldUdpDecoder} (h : Hands d seq msgs status d') :
    Forward d d' ∧ d'.channel.gapBuffer = d.channel.gapBuffer
      ∧ d'.channel.nextExpectedSeq = d.channel.nextExpectedSeq := by
  cases h with
  | all =>
    obtain ⟨_, _, _, h⟩ := sameButParsed_handAll d seq msgs
    rw [h]
    exact ⟨SameButParsed.forward ⟨_, _, _, rfl⟩, rfl, rfl⟩
  | refused k _ _ =>
    obtain ⟨_, _, _, h⟩ := sameButParsed_handAll d seq (msgs.take (k + 1))
    rw [h]
    exact ⟨⟨⟨rfl, rfl, rfl, rfl, rfl, UInt64.le_refl _⟩, fun _ hn _ => hn, fun _ => id⟩, rfl, rfl⟩

theorem Hands.status_of_ne {seq : UInt64} {msgs : List (List UInt8)} {status : DecodeStatus}
    {d' : MoldUdpDecoder} (h : Hands d seq msgs status d') (hne : status ≠ .ok) :
    status = .invalidItchMessage := by
  cases h with
  | all => exact absurd rfl hne
  | refused => rfl

theorem Forward.eraseBuffered (hs : d.channel.gapBuffer.Sized) (seq : UInt64) :
    Forward d (d.eraseBuffered seq) :=
  ⟨⟨rfl, rfl, rfl, rfl, rfl, UInt64.le_refl _⟩, fun _ hn _ => hn, fun _ he => buffered_erase hs seq he⟩

/-- How the tail of a buffered packet is handed over. -/
theorem hands_processBuffered (hw : e.WellFormed Q) (hcand : d.drainCandidate = some e)
    (hlt : d.channel.nextExpectedSeq < e.endSeq) :
    Hands d d.channel.nextExpectedSeq
      (e.messages.drop (d.channel.nextExpectedSeq.toNat - e.seq.toNat))
      (d.processBuffered e).1.status (d.processBuffered e).2 := by
  obtain ⟨_, _, hle, _⟩ := find_of_drainCandidate hcand
  rw [UInt64.lt_iff_toNat_lt, hw.endSeq_toNat] at hlt
  exact processSequencedPacket_spec hw.valid (UInt64.le_iff_toNat_le.2 hle) hlt.le hw.endSeq_lt

theorem Coherent.processBuffered (h : Coherent first initial Q d) (hcand : d.drainCandidate = some e)
    (hlt : d.channel.nextExpectedSeq < e.endSeq) :
    Hands d d.channel.nextExpectedSeq
      (e.messages.drop (d.channel.nextExpectedSeq.toNat - e.seq.toNat))
      (d.processBuffered e).1.status (d.processBuffered e).2 :=
  hands_processBuffered (h.buffered e (find_of_drainCandidate hcand).2.1) hcand hlt

/-- What every round of the drain keeps. -/
structure Draining (first : ItchParser) (initial : UInt64) (Q : ℕ → List UInt8 → Prop)
    (d₀ d : MoldUdpDecoder) : Prop where
  coherent : Coherent first initial Q d
  caughtUp : CaughtUp initial d
  forward : Forward d₀ d
  status : d.channel.status = d₀.channel.status

theorem Draining.erase {d₀ : MoldUdpDecoder} (h : Draining first initial Q d₀ d) (seq : UInt64) :
    Draining first initial Q d₀ (d.eraseBuffered seq) :=
  ⟨h.coherent.eraseBuffered seq, h.caughtUp,
    h.forward.trans (.eraseBuffered h.coherent.sized seq), h.status⟩

/-- The tail of a buffered packet is applied. -/
theorem Draining.apply {d₀ : MoldUdpDecoder} (h : Draining first initial Q d₀ d)
    (hcand : d.drainCandidate = some e) (hlt : d.channel.nextExpectedSeq < e.endSeq)
    (hok : (d.processBuffered e).1.status = .ok) :
    Draining first initial Q d₀
      (((d.processBuffered e).2.eraseBuffered e.seq).setNextExpectedSeq e.endSeq) := by
  obtain ⟨_, hb, hle, _⟩ := find_of_drainCandidate hcand
  have hw := h.coherent.buffered e hb
  have hhands := h.coherent.processBuffered hcand hlt
  have hlast := UInt64.lt_iff_toNat_lt.1 hlt
  rw [hw.endSeq_toNat] at hlast
  obtain ⟨hco, _, hlen⟩ := h.coherent.hands_tail h.caughtUp hw.valid
    (UInt64.le_iff_toNat_le.2 hle) hlast.le hw.endSeq_lt hw.messages hhands
  rw [hok] at hhands hlen
  have hfwd := hhands.forward
  have hst : (d.processBuffered e).2.channel.status = d.channel.status := by
    obtain ⟨_, _, _, hsame⟩ := sameButParsed_handAll d d.channel.nextExpectedSeq
      (e.messages.drop (d.channel.nextExpectedSeq.toNat - e.seq.toNat))
    rw [hhands.eq_handAll, hsame]
  have herased := hco.eraseBuffered e.seq
  have hfwd' := hfwd.1.trans (.eraseBuffered hco.sized e.seq)
  refine ⟨⟨herased.seqs, herased.parser, herased.phase, herased.messages, herased.buffered,
    herased.sized⟩, ?_, h.forward.trans ⟨⟨hfwd'.pending, hfwd'.terminal, hfwd'.watermark,
      hfwd'.seen, hfwd'.session, UInt64.le_of_lt hlt⟩, fun n hn hall => hall e hb (hle.trans hn), hfwd'.buffered⟩,
      hst.trans h.status⟩
  change initial.toNat + (d.processBuffered e).2.handed.length = e.endSeq.toNat
  rw [hw.endSeq_toNat]
  exact hlen rfl

/-- How the drain ends. -/
theorem Coherent.drain (h : Coherent first initial Q d) (hc : CaughtUp initial d) :
    Coherent first initial Q d.drainGapBuffer.2 ∧ Forward d d.drainGapBuffer.2
      ∧ (∀ n, d.channel.nextExpectedSeq.toNat ≤ n →
        (∀ e, Buffered d e → e.seq.toNat ≤ n → e.endSeq.toNat ≤ n) → initial.toNat + d.drainGapBuffer.2.handed.length ≤ n)
      ∧ (d.drainGapBuffer.1.status = .ok → Draining first initial Q d d.drainGapBuffer.2
        ∧ d.drainGapBuffer.2.drainCandidate = none)
      ∧ (d.drainGapBuffer.1.status ≠ .ok →
        isTerminalDecodeFailure d.drainGapBuffer.1.status = true) := by
  have hend := drainGapBuffer_rule (I := Draining first initial Q d) (d := d)
    (fun d h => h.coherent.sized) (fun d e h _ _ => h.erase e.seq)
    (fun d e h hcand hlt hok => h.apply hcand hlt hok) ⟨h, hc, .refl d, rfl⟩
  generalize d.drainGapBuffer = out at hend ⊢
  obtain ⟨result, d'⟩ := out
  dsimp only at hend ⊢
  generalize result.status = status at hend ⊢
  cases hend with
  | clear d' hd hcand =>
    refine ⟨hd.coherent, hd.forward, fun n hn hall => ?_, fun _ => ⟨hd, hcand⟩,
      fun hne => absurd rfl hne⟩
    rw [hd.caughtUp]
    exact hd.forward.within n hn hall
  | refused d' e hd hcand hlt hst =>
    obtain ⟨_, hb, hle, _⟩ := find_of_drainCandidate hcand
    have hw := hd.coherent.buffered e hb
    have hhands := hd.coherent.processBuffered hcand hlt
    have hlast := UInt64.lt_iff_toNat_lt.1 hlt
    rw [hw.endSeq_toNat] at hlast
    obtain ⟨hco, hlen, _⟩ := hd.coherent.hands_tail hd.caughtUp hw.valid
      (UInt64.le_iff_toNat_le.2 hle) hlast.le hw.endSeq_lt hw.messages hhands
    have hfwd := hhands.forward.1.trans (.eraseBuffered hco.sized e.seq)
    refine ⟨(hco.eraseBuffered e.seq).setStatus .invalid, hd.forward.trans ⟨⟨hfwd.pending,
      hfwd.terminal, hfwd.watermark, hfwd.seen, hfwd.session, hfwd.next⟩, hfwd.within, hfwd.buffered⟩,
      fun n hn hall => ?_, fun hok => absurd hok hst, fun _ => ?_⟩
    · have := hall e (hd.forward.buffered e hb) (hle.trans (hd.forward.within n hn hall))
      rw [hw.endSeq_toNat] at this
      exact hlen.trans this
    · rw [hhands.status_of_ne hst]
      rfl

/-! ## The step -/

theorem Coherent.congr {d' : MoldUdpDecoder} (h : Coherent first initial Q d)
    (hhanded : d'.handed = d.handed) (hparser : d'.parser = d.parser)
    (hphase : d'.channel.phase = d.channel.phase)
    (hbuf : d'.channel.gapBuffer = d.channel.gapBuffer) : Coherent first initial Q d' where
  seqs := by rw [hhanded, h.seqs]
  parser := by rw [hhanded, hparser, h.parser]
  phase := by rw [hphase, hparser, h.phase]
  messages := by
    rw [hhanded]
    exact h.messages
  buffered := by
    unfold Buffered
    rw [hbuf]
    exact h.buffered
  sized := by
    rw [hbuf]
    exact h.sized

theorem CaughtUp.congr {d' : MoldUdpDecoder} (h : CaughtUp initial d)
    (hhanded : d'.handed = d.handed)
    (hnext : d'.channel.nextExpectedSeq = d.channel.nextExpectedSeq) : CaughtUp initial d' := by
  unfold CaughtUp
  rw [hhanded, hnext]
  exact h

theorem advance_eq (d : MoldUdpDecoder) (p : PacketView) :
    ∃ parser phase handed, d.advance p = { d with
      parser := parser
      handed := handed
      channel := { d.channel with
        phase := phase
        nextExpectedSeq := p.endSeq
        status := if d.channel.status = .gapDetected then .recovering else d.channel.status } } := by
  unfold advance
  dsimp only
  obtain ⟨parser, phase, handed, h⟩ := sameButParsed_handAll d d.channel.nextExpectedSeq
    (p.messages.drop (d.channel.nextExpectedSeq.toNat - p.firstSeq.toNat))
  refine ⟨parser, phase, handed, ?_⟩
  rw [h]
  dsimp only
  split_ifs <;> rfl

/-- An in-order packet before the drain. -/
theorem Coherent.advance (h : Coherent first initial Q d) (hc : CaughtUp initial d)
    (ho : InOrder d p)
    (hq : p.Each Q) :
    Coherent first initial Q (d.advance p) ∧ CaughtUp initial (d.advance p) := by
  have hlast := UInt64.lt_iff_toNat_lt.1 ho.last
  rw [endSeq_toNat ho.data.endSeq_lt] at hlast
  obtain ⟨hco, _, hlen⟩ := h.hands_tail hc ho.data.valid ho.first hlast.le ho.data.endSeq_lt hq
    .all
  unfold MoldUdpDecoder.advance
  dsimp only
  constructor
  · refine hco.congr ?_ ?_ ?_ ?_ <;> split_ifs <;> rfl
  · unfold CaughtUp
    simp only [setNextExpectedSeq]
    rw [endSeq_toNat ho.data.endSeq_lt, ← hlen rfl]
    congr 2
    split_ifs <;> rfl

theorem moved_advance (ho : InOrder d p) : Moved d (d.advance p) := by
  obtain ⟨_, _, _, ha⟩ := advance_eq d p
  rw [ha]
  exact ⟨rfl, rfl, rfl, rfl, rfl, UInt64.le_of_lt ho.last⟩

/-- An in-order packet after a drain that ended well. -/
theorem Coherent.drained (h : Coherent first initial Q d) (hc : CaughtUp initial d)
    (hq : p.IsData → p.Each Q) (ho : InOrder d p)
    (hok : (d.advance p).drainGapBuffer.1.status = .ok) :
    Draining first initial Q (d.advance p) (d.advance p).drainGapBuffer.2
      ∧ Moved d (d.advance p).drainGapBuffer.2 := by
  obtain ⟨hco, hcu⟩ := h.advance hc ho (hq ho.data)
  obtain ⟨_, _, _, hdrained, _⟩ := hco.drain hcu
  obtain ⟨hdr, _⟩ := hdrained hok
  exact ⟨hdr, (moved_advance ho).trans hdr.forward.toMoved⟩

theorem Coherent.store (h : Coherent first initial Q d) (hp : p.toSequenced.WellFormed Q)
    (status : ChannelHealth) (n : UInt64) :
    Coherent first initial Q { d with channel := { d.channel with
      status := status
      identicalBufferedRedundantPackets := n
      gapBuffer := (d.channel.gapBuffer.insert p.toSequenced).2 } } := by
  rcases GapBuffer.Sized.insert_cases h.sized p.toSequenced with ⟨_, hout, _⟩ | ⟨b, hout, hb, hhas⟩
  · rw [hout]
    exact h.congr rfl rfl rfl rfl
  · rw [hout]
    refine ⟨h.seqs, h.parser, h.phase, h.messages, fun e he => ?_, hb⟩
    rcases (hhas e).1 he with rfl | he
    · exact hp
    · exact h.buffered e he

theorem toSequenced_wellFormed (hd : p.IsData)
    (hsize : p.data.length ≤ SequencedPacket.kMaxPacketSize)
    (hq : p.Each Q) :
    p.toSequenced.WellFormed Q :=
  ⟨hd.msgCount_ne_zero, hd.endSeq_lt, hsize, hd.valid, hq⟩

/-- The states in which nothing was refused. -/
def Unbroken (d : MoldUdpDecoder) : Prop :=
  d.terminalStatus = .ok ∨ d.terminalStatus = .endOfStream

theorem not_unbroken_terminalFailure {status : DecodeStatus}
    (hs : isTerminalDecodeFailure status = true) : ¬ Unbroken (d.terminalFailure status).2 := by
  rintro (h | h)
  · rw [show status = .ok from h] at hs
    cases hs
  · rw [show status = .endOfStream from h] at hs
    cases hs

theorem Coherent.conclude (h : Coherent first initial Q d) (hc : CaughtUp initial d)
    (result : DecodeResult) (hadGap : Bool) :
    Coherent first initial Q (d.concludeInOrder result hadGap).2
      ∧ (Unbroken (d.concludeInOrder result hadGap).2 →
        CaughtUp initial (d.concludeInOrder result hadGap).2) := by
  have hcs : Coherent first initial Q d.settle := by
    rcases settle_cases d with ⟨_, hs⟩ | ⟨_, _, hs⟩
    · rw [hs]
      exact h
    · rw [hs]
      exact h.congr rfl rfl rfl rfl
  have hus : CaughtUp initial d.settle := by
    rcases settle_cases d with ⟨_, hs⟩ | ⟨_, _, hs⟩
    · rw [hs]
      exact hc
    · rw [hs]
      exact hc.congr rfl rfl
  rcases concludeInOrder_cases d result hadGap with
    ⟨hout, _⟩ | ⟨status, hs, hout⟩ | ⟨_, _, _, _, _, _, hout⟩
  · rw [hout]
    exact ⟨hcs, fun _ => hus⟩
  · rw [hout]
    exact ⟨hcs.congr rfl rfl rfl rfl, fun hu => absurd hu (not_unbroken_terminalFailure hs)⟩
  · rw [hout]
    exact ⟨hcs.congr rfl rfl rfl rfl, fun _ => hus.congr rfl rfl⟩

theorem coherent_transition {d' : MoldUdpDecoder} (h : Coherent first initial Q d)
    (hc : CaughtUp initial d)
    (hq : p.IsData → p.Each Q)
    (ht : Transition d p d') :
    Coherent first initial Q d' ∧ (Unbroken d' → CaughtUp initial d') := by
  cases ht with
  | idle hm hb => exact ⟨h, fun _ => hc⟩
  | fail status hs n =>
    exact ⟨h.congr rfl rfl rfl rfl, fun hu => absurd hu (not_unbroken_terminalFailure hs)⟩
  | retain => exact ⟨h.congr rfl rfl rfl rfl, fun _ => hc.congr rfl rfl⟩
  | finish => exact ⟨h.congr rfl rfl rfl rfl, fun _ => hc.congr rfl rfl⟩
  | announce => exact ⟨h.congr rfl rfl rfl rfl, fun _ => hc.congr rfl rfl⟩
  | clear => exact ⟨h.congr rfl rfl rfl rfl, fun _ => hc.congr rfl rfl⟩
  | store ha status n hs =>
    exact ⟨h.store (toSequenced_wellFormed ha.data ha.size (hq ha.data)) status n,
      fun _ => hc.congr rfl rfl⟩
  | refuse ho status d' hh hne =>
    have hlast := UInt64.lt_iff_toNat_lt.1 ho.last
    rw [endSeq_toNat ho.data.endSeq_lt] at hlast
    obtain ⟨hco, _, _⟩ := h.hands_tail hc ho.data.valid ho.first hlast.le ho.data.endSeq_lt
      (hq ho.data) hh
    refine ⟨hco.congr rfl rfl rfl rfl, fun hu => absurd hu (not_unbroken_terminalFailure ?_)⟩
    rw [hh.status_of_ne hne]
    rfl
  | refuseDrain ho hne =>
    obtain ⟨hco, hcu⟩ := h.advance hc ho (hq ho.data)
    obtain ⟨hdr, _, _, _, hfail⟩ := hco.drain hcu
    exact ⟨hdr.congr rfl rfl rfl rfl,
      fun hu => absurd hu (not_unbroken_terminalFailure (hfail hne))⟩
  | apply ho hok result hadGap =>
    obtain ⟨hdr, _⟩ := h.drained hc hq ho hok
    exact hdr.coherent.conclude hdr.caughtUp result hadGap

end MoldUdpDecoder

end AstraFeed
