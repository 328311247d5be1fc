import AstraFeed.Lib.RunLog
import AstraFeed.Proofs.FeedSystem
import AstraFeed.Proofs.TraceRun

/-!
# What arrives is recovered

An end of session that is announced ahead changes nothing of what the decoder does until the end is
reached (`hold`), and packets of one replay overlap only where they are the same. So nothing that
arrives is left behind, and once all has arrived the stream ends (`feed_is_live`).
-/

namespace AstraFeed

open MoldUdpPacketHeader Wire ItchMoldUdpSource Probe

namespace MoldUdpDecoder

/-! ## An end that is announced ahead -/

section Hold

variable {d : MoldUdpDecoder} {p : PacketView} {n : UInt64}

/-- The decoder with another end announced. -/
def hold (d : MoldUdpDecoder) (n : UInt64) : MoldUdpDecoder := { d with pendingEndSequence := n }

@[simp] theorem channel_hold : (d.hold n).channel = d.channel := rfl

@[simp] theorem parser_hold : (d.hold n).parser = d.parser := rfl

@[simp] theorem terminalStatus_hold : (d.hold n).terminalStatus = d.terminalStatus := rfl

@[simp] theorem pendingEndSequence_hold : (d.hold n).pendingEndSequence = n := rfl

@[simp] theorem hold_hold (m : UInt64) : (d.hold m).hold n = d.hold n := rfl

theorem hold_self : d.hold d.pendingEndSequence = d := rfl

theorem ite_hold {c : Prop} [Decidable c] {b : MoldUdpDecoder} :
    (if c then d else b).hold n = if c then d.hold n else b.hold n := apply_ite (hold · n) c d b

theorem handMessage_hold (seq : UInt64) (msg : List UInt8) :
    (d.hold n).handMessage seq msg = (d.handMessage seq msg).hold n := rfl

theorem processLoop_hold {data : List UInt8} {startSeq seq processed : UInt64}
    {remaining offset : ℕ} :
    processLoop data startSeq remaining offset seq processed (d.hold n)
      = ((processLoop data startSeq remaining offset seq processed d).1,
        (processLoop data startSeq remaining offset seq processed d).2.1,
        (processLoop data startSeq remaining offset seq processed d).2.2.hold n) := by
  induction remaining generalizing offset seq processed d with
  | zero => rfl
  | succ remaining ih =>
    rw [processLoop, processLoop]
    dsimp only
    rw [handMessage_hold, parser_hold]
    split_ifs
    · rfl
    · rfl
    · rfl
    · exact ih
    · exact ih

theorem processSequencedPacket_hold {data : List UInt8} {firstSeq startSeq ticks : UInt64}
    {msgCount : UInt16} :
    (d.hold n).processSequencedPacket data firstSeq msgCount startSeq ticks
      = ((d.processSequencedPacket data firstSeq msgCount startSeq ticks).1,
        (d.processSequencedPacket data firstSeq msgCount startSeq ticks).2.hold n) := by
  unfold processSequencedPacket
  simp only [processLoop_hold]
  split_ifs <;> rfl

theorem drainLoop_hold {fuel : ℕ} {aggregate : DecodeResult} :
    drainLoop fuel aggregate (d.hold n)
      = ((drainLoop fuel aggregate d).1, (drainLoop fuel aggregate d).2.hold n) := by
  induction fuel generalizing aggregate d with
  | zero => rfl
  | succ fuel ih =>
    rw [drainLoop, drainLoop]
    have hcand : (d.hold n).drainCandidate = d.drainCandidate := rfl
    rw [hcand]
    cases d.drainCandidate with
    | none => rfl
    | some packet =>
      have hout : (d.hold n).processBuffered packet
          = ((d.processBuffered packet).1, (d.processBuffered packet).2.hold n) :=
        processSequencedPacket_hold
      dsimp only
      rw [hout]
      by_cases hend : packet.endSeq ≤ d.channel.nextExpectedSeq
      · rw [if_pos hend]
        exact (if_pos hend).trans (ih (d := d.eraseBuffered packet.seq))
      · rw [if_neg hend]
        refine (if_neg hend).trans ?_
        dsimp only
        split_ifs
        · rfl
        · exact ih (d := ((d.processBuffered packet).2.eraseBuffered packet.seq).setNextExpectedSeq
            packet.endSeq)

theorem drainGapBuffer_hold :
    (d.hold n).drainGapBuffer = (d.drainGapBuffer.1, d.drainGapBuffer.2.hold n) := drainLoop_hold

theorem settle_hold : (d.hold n).settle = d.settle.hold n := by
  rcases settle_cases (d.hold n) with ⟨hbad, hs⟩ | ⟨h1, h2, hs⟩
  · rcases settle_cases d with ⟨_, hs'⟩ | ⟨h1, h2, _⟩
    · rw [hs, hs']
    · exact absurd hbad (not_or.2 ⟨h1, h2⟩)
  · rcases settle_cases d with ⟨hbad, _⟩ | ⟨_, _, hs'⟩
    · exact absurd hbad (not_or.2 ⟨h1, h2⟩)
    · rw [hs, hs']
      rfl

theorem bindSession_hold (data : List UInt8) :
    (d.hold n).bindSession data = (d.bindSession data).hold n := by
  unfold MoldUdpDecoder.bindSession
  rw [ite_hold]
  rfl

theorem bufferAhead_hold {firstSeq : UInt64} {msgCount : UInt16} :
    ((d.hold n).bufferAhead p firstSeq msgCount).2
      = (d.bufferAhead p firstSeq msgCount).2.hold n := by
  unfold bufferAhead
  have hset : (d.hold n).setStatus .gapDetected = (d.setStatus .gapDetected).hold n := rfl
  simp only [hset, channel_hold]
  split_ifs
  · rfl
  · rfl
  · split <;> rfl

theorem bufferAhead_next {firstSeq : UInt64} {msgCount : UInt16} :
    (d.bufferAhead p firstSeq msgCount).2.channel.nextExpectedSeq = d.channel.nextExpectedSeq := by
  unfold bufferAhead
  dsimp only
  split_ifs
  · rfl
  · rfl
  · split <;> rfl

theorem processHeartbeat_next {seq : UInt64} :
    (d.processHeartbeat seq).2.channel.nextExpectedSeq = d.channel.nextExpectedSeq := by
  unfold processHeartbeat
  dsimp only
  split_ifs <;> rfl

theorem processHeartbeat_hold {seq : UInt64} (hd : d.pendingEndSequence = 0)
    (hn : n = 0 ∨ seq ≤ n) :
    ((d.hold n).processHeartbeat seq).2 = (d.processHeartbeat seq).2.hold n := by
  have hpend : ¬ (n ≠ 0 ∧ n < seq) := by
    rintro ⟨h0, hlt⟩
    exact hn.elim h0 fun hle => absurd hlt (UInt64.not_lt.2 hle)
  unfold processHeartbeat
  refine (congrArg Prod.snd (if_neg hpend)).trans ?_
  have hnone : ¬ (d.pendingEndSequence ≠ 0 ∧ d.pendingEndSequence < seq) := fun h => h.1 hd
  rw [if_neg hnone]
  simp only [apply_ite Prod.snd, ite_hold]
  rfl

/-- Up to its conclusion an in-order packet is applied alike. -/
theorem applyInOrder_hold (d : MoldUdpDecoder) (p : PacketView) (firstSeq : UInt64)
    (msgCount : UInt16) :
    (d.applyInOrder p firstSeq msgCount).2.terminalStatus ≠ .ok
    ∨ ∃ (b : MoldUdpDecoder) (result : DecodeResult) (hadGap : Bool),
      d.applyInOrder p firstSeq msgCount = b.concludeInOrder result hadGap
      ∧ ∀ n, (d.hold n).applyInOrder p firstSeq msgCount
        = (b.hold n).concludeInOrder result hadGap := by
  unfold applyInOrder
  dsimp only
  have hout : ∀ n, (d.hold n).processSequencedPacket p.data firstSeq msgCount
        (if firstSeq < (d.hold n).channel.nextExpectedSeq then (d.hold n).channel.nextExpectedSeq
          else firstSeq) p.receiveStartTicks
      = ((d.processSequencedPacket p.data firstSeq msgCount
          (if firstSeq < d.channel.nextExpectedSeq then d.channel.nextExpectedSeq else firstSeq)
          p.receiveStartTicks).1,
        (d.processSequencedPacket p.data firstSeq msgCount
          (if firstSeq < d.channel.nextExpectedSeq then d.channel.nextExpectedSeq else firstSeq)
          p.receiveStartTicks).2.hold n) :=
    fun n => processSequencedPacket_hold
  simp only [hout]
  generalize d.processSequencedPacket p.data firstSeq msgCount _ p.receiveStartTicks = out
  by_cases hst : out.1.status ≠ .ok
  · rw [if_pos hst]
    exact .inl hst
  rw [if_neg hst]
  have hset : ∀ n, (if (out.2.hold n).channel.status = .gapDetected then
        (out.2.hold n).setStatus .recovering else out.2.hold n)
      = (if out.2.channel.status = .gapDetected then out.2.setStatus .recovering else out.2).hold n := by
    intro n
    rw [ite_hold]
    rfl
  simp only [hset]
  generalize (if out.2.channel.status = .gapDetected then out.2.setStatus .recovering
    else out.2) = c
  have hnext : ∀ n, (c.hold n).setNextExpectedSeq (firstSeq + msgCount.toUInt64)
      = (c.setNextExpectedSeq (firstSeq + msgCount.toUInt64)).hold n := fun n => rfl
  simp only [hnext, drainGapBuffer_hold]
  generalize (c.setNextExpectedSeq (firstSeq + msgCount.toUInt64)).drainGapBuffer = drained
  by_cases hdr : drained.1.status ≠ .ok
  · rw [if_pos hdr]
    exact .inl hdr
  rw [if_neg hdr]
  refine .inr ⟨drained.2, _, _, rfl, fun n => ?_⟩
  rw [if_neg hst, if_neg hdr]
  rfl

/-- Before the pending end is reached, nothing comes of it. -/
theorem concludeInOrder_before (result : DecodeResult) (hadGap : Bool)
    (h : d.settle.channel.nextExpectedSeq < d.settle.pendingEndSequence) :
    (d.concludeInOrder result hadGap).2 = d.settle := by
  have hres : d.settle.resolvePendingEndOfStream = (.ok, d.settle) := if_pos (.inr h)
  unfold concludeInOrder
  dsimp only
  rw [hres]
  rfl

/-- The channel misses nothing. -/
structure Settled (d : MoldUdpDecoder) : Prop where
  status : d.channel.status = .good
  empty : d.channel.gapBuffer.empty = true
  watermark : d.channel.heartbeatNextSeqHighWatermark = 0

theorem Settled.not_open (h : Settled d) : ¬ (d.channel.status ≠ .good
    ∨ (!d.channel.gapBuffer.empty) = true ∨ d.channel.heartbeatNextSeqHighWatermark ≠ 0) := by
  rintro (hst | hemp | hwm)
  · exact hst h.status
  · rw [h.empty] at hemp
    cases hemp
  · exact hwm h.watermark

/-- The stream ends where the pending end is reached with nothing missing. -/
theorem concludeInOrder_at (result : DecodeResult) (hadGap : Bool)
    (hpend : d.settle.pendingEndSequence ≠ 0)
    (hnext : d.settle.channel.nextExpectedSeq = d.settle.pendingEndSequence)
    (hset : Settled d.settle) (hphase : d.settle.channel.phase = .endOfMessages) :
    (d.concludeInOrder result hadGap).2.terminalStatus = .endOfStream := by
  have hirr : ¬ d.settle.pendingEndSequence < d.settle.pendingEndSequence := UInt64.lt_irrefl _
  have hres : d.settle.resolvePendingEndOfStream
      = (.endOfStream, { d.settle with pendingEndSequence := 0, terminalStatus := .endOfStream }) := by
    unfold resolvePendingEndOfStream
    dsimp only
    rw [if_neg (not_or.2 ⟨hpend, hnext ▸ hirr⟩), if_neg (hnext ▸ hirr), if_neg hset.not_open,
      if_neg (not_not.2 hphase)]
  unfold concludeInOrder
  dsimp only
  rw [hres]
  rfl

end Hold

section Following

variable {first : ItchParser} {initial last : UInt64} {M : ℕ → List UInt8} {session : List UInt8}
variable {packets sofar : List PacketView} {d : MoldUdpDecoder} {p : PacketView} {n : UInt64}

theorem Reached.hold {Q : ℕ → List UInt8 → Prop} (h : Reached first initial Q d) :
    Reached first initial Q (d.hold 0) :=
  ⟨h.coherent.congr rfl rfl rfl rfl, fun hu => h.caughtUp hu, fun hok => ⟨(h.health hok).not_invalid,
    (h.health hok).good_iff, (h.health hok).watermark, fun h0 => absurd rfl h0,
    fun _ h0 => absurd rfl h0⟩, fun he => ⟨(h.ended he).status, (h.ended he).empty,
    (h.ended he).watermark, (h.ended he).phase⟩, h.failed⟩

/-! ## Packets that do not overlap -/

/-- A packet ends before the packets that begin later. -/
def Apart (packets : List PacketView) : Prop :=
  ∀ p ∈ packets, ∀ q ∈ packets, p.IsData → q.IsData → p.firstSeq.toNat < q.firstSeq.toNat →
    p.endSeq.toNat ≤ q.firstSeq.toNat

/-- A packet that does not reach into a later one overtakes nothing. -/
theorem Recovering.not_overtakes (h : Recovering first initial last M session packets sofar d)
    (hclean : Clean d) (hapart : Apart packets) (hp : p ∈ packets) : ¬ Overtakes d p := by
  rintro ⟨hd, hle, -, e, hover⟩
  obtain ⟨q, hq, hqd, -, hqs, -⟩ := h.stored e hover.mem
  have hafter := hclean e hover.mem
  have hle := UInt64.le_iff_toNat_le.1 hle
  rw [hqs] at hafter
  refine Sweep.not_overtaken_of_apart (fun f hf hlt => ?_) ?_ hover
  · obtain ⟨r, hr, hrd, -, hrs, hrc, -⟩ := h.stored f hf
    rw [hrs, hqs] at hlt
    rw [hqs, SequencedPacket.endSeq, hrs, hrc]
    exact hapart r hr q hq hrd hqd hlt
  · rw [hqs]
    exact hapart p hp q hq hd hqd (by omega)

/-! ## A step -/

/-- The messages of `M` end with the end of messages, and not before. -/
def Closes (first : ItchParser) (initial last : UInt64) (M : ℕ → List UInt8) : Prop :=
  ∀ n, initial.toNat + n ≤ last.toNat →
    ((first.fold M initial.toNat n).channelPhase = .endOfMessages ↔ initial.toNat + n = last.toNat)

/-- Nothing that arrived is left behind, and an end that was announced is still ahead. -/
structure Following (first : ItchParser) (initial last : UInt64) (M : ℕ → List UInt8)
    (session : List UInt8) (packets sofar : List PacketView) (d : MoldUdpDecoder) : Prop where
  recovering : Recovering first initial last M session packets sofar (d.hold 0)
  clean : Clean d
  pending : d.pendingEndSequence = 0
    ∨ d.pendingEndSequence = last ∧ d.channel.nextExpectedSeq < last
  closes : d.pendingEndSequence ≠ 0 → Closes first initial last M

/-- At the end of the stream nothing is missing. -/
theorem Following.settled (h : Following first initial last M session packets sofar d)
    (hnext : d.channel.nextExpectedSeq = last) : Settled d := by
  have hr := h.recovering
  have hh := hr.reached.health hr.ok
  have hwm : d.channel.heartbeatNextSeqHighWatermark = 0 := by
    by_contra hne
    have hlt : d.channel.nextExpectedSeq < d.channel.heartbeatNextSeqHighWatermark :=
      hh.watermark hr.status hne
    rw [hnext] at hlt
    exact absurd hlt (UInt64.not_lt.2 hr.watermark_le)
  have hemp : d.channel.gapBuffer.empty = true := by
    refine (GapBuffer.Sized.empty_iff hr.table.size).2 fun e he => ?_
    have hlt := h.clean e he
    obtain ⟨q, -, hqd, hql, hqs, -, -⟩ := hr.stored e he
    rw [UInt64.le_iff_toNat_le, endSeq_toNat hqd.endSeq_lt, ← hqs, ← hnext] at hql
    omega
  exact ⟨(hh.good_iff hr.status).2 ⟨hemp, hwm⟩, hemp, hwm⟩

theorem Recovering.phase_iff (h : Recovering first initial last M session packets sofar d)
    (hcloses : Closes first initial last M) :
    d.channel.phase = .endOfMessages ↔ d.channel.nextExpectedSeq = last := by
  have hcu := h.reached.caughtUp (.inl h.ok)
  have hle := UInt64.le_iff_toNat_le.1 h.next_le
  unfold CaughtUp at hcu
  rw [h.reached.coherent.phase, h.reached.coherent.parser,
    foldl_eq_fold h.reached.coherent.seqs h.reached.coherent.messages,
    hcloses _ (hcu.trans_le hle), hcu, UInt64.toNat_inj]

/-- A packet of messages before the announced end is taken alike, up to the conclusion of an
in-order one. -/
theorem processPacket_hold_data (hd : p.IsData) (hok : d.terminalStatus = .ok) (hadm : Admitted d p)
    (hpend : d.pendingEndSequence = 0) (hn : n = 0 ∨ p.endSeq ≤ n) :
    ((d.hold n).processPacket p).2 = (d.processPacket p).2.hold n
      ∧ (d.processPacket p).2.channel.nextExpectedSeq = d.channel.nextExpectedSeq
    ∨ (d.processPacket p).2.terminalStatus ≠ .ok
    ∨ ∃ (b : MoldUdpDecoder) (result : DecodeResult) (hadGap : Bool),
      d.processPacket p = b.concludeInOrder result hadGap
      ∧ (d.hold n).processPacket p = (b.hold n).concludeInOrder result hadGap := by
  have hbnext := bindSession_next (d := d) p.data
  have hbpend : (d.bindSession p.data).pendingEndSequence = 0 := by
    unfold MoldUdpDecoder.bindSession
    split_ifs <;> exact hpend
  have hheld : ¬ (((d.bindSession p.data).hold n).pendingEndSequence ≠ 0
      ∧ ((d.bindSession p.data).hold n).pendingEndSequence < p.endSeq) := by
    rintro ⟨h0, hlt⟩
    exact hn.elim h0 fun hle => absurd hlt (UInt64.not_lt.2 hle)
  have hfree : ¬ ((d.bindSession p.data).pendingEndSequence ≠ 0
      ∧ (d.bindSession p.data).pendingEndSequence < p.endSeq) := fun h => h.1 hbpend
  rw [processPacket_data hd hok hadm, processPacket_data (d := d.hold n) hd hok hadm]
  dsimp only
  rw [bindSession_hold, if_neg hheld, if_neg hfree]
  generalize d.bindSession p.data = b at hbnext
  by_cases hold : p.endSeq ≤ b.channel.nextExpectedSeq
  · rw [if_pos hold]
    exact .inl ⟨congrArg Prod.snd (if_pos hold), hbnext⟩
  rw [if_neg hold]
  by_cases hahead : b.channel.nextExpectedSeq < p.firstSeq
  · rw [if_pos hahead]
    refine .inl ⟨(congrArg Prod.snd ((if_neg hold).trans (if_pos hahead))).trans bufferAhead_hold,
      bufferAhead_next.trans hbnext⟩
  · rw [if_neg hahead]
    rcases applyInOrder_hold b p p.firstSeq p.msgCount with hne | ⟨c, result, hadGap, hout, hheld⟩
    · exact .inr (.inl hne)
    · exact .inr (.inr ⟨c, result, hadGap, hout,
        ((if_neg hold).trans (if_neg hahead)).trans (hheld n)⟩)

theorem processPacket_hold_heartbeat (hb : p.IsHeartbeat) (hok : d.terminalStatus = .ok)
    (hadm : Admitted d p) (hpend : d.pendingEndSequence = 0) (hn : n = 0 ∨ p.firstSeq ≤ n) :
    ((d.hold n).processPacket p).2 = (d.processPacket p).2.hold n
      ∧ (d.processPacket p).2.channel.nextExpectedSeq = d.channel.nextExpectedSeq := by
  have hbpend : (d.bindSession p.data).pendingEndSequence = 0 := by
    unfold MoldUdpDecoder.bindSession
    split_ifs <;> exact hpend
  rw [processPacket_heartbeat hb hok hadm, processPacket_heartbeat (d := d.hold n) hb hok hadm,
    bindSession_hold]
  exact ⟨processHeartbeat_hold hbpend hn, processHeartbeat_next.trans (bindSession_next p.data)⟩

theorem Recovering.following {x : MoldUdpDecoder}
    (h : Recovering first initial last M session packets sofar x) (hclean : Clean x)
    (hn : n = 0 ∨ n = last ∧ x.channel.nextExpectedSeq < last)
    (hcloses : n ≠ 0 → Closes first initial last M) :
    Following first initial last M session packets sofar (x.hold n) := by
  refine ⟨?_, hclean, hn, hcloses⟩
  rw [hold_hold, ← h.pending, hold_self]
  exact h

/-- What a step makes of a decoder that is following: it goes on, or the stream has ended. -/
def Follows (first : ItchParser) (initial last : UInt64) (M : ℕ → List UInt8)
    (session : List UInt8) (packets sofar : List PacketView) (d : MoldUdpDecoder) : Prop :=
  Following first initial last M session packets sofar d ∨ d.terminalStatus = .endOfStream

/-- An in-order packet of a decoder that is following. -/
theorem Recovering.concluded {b : MoldUdpDecoder} {result : DecodeResult} {hadGap : Bool}
    (h : Recovering first initial last M session packets sofar (b.concludeInOrder result hadGap).2)
    (hclean : Clean (b.concludeInOrder result hadGap).2) (hn : n = 0 ∨ n = last)
    (hcloses : n ≠ 0 → Closes first initial last M) :
    Follows first initial last M session packets sofar
      ((b.hold n).concludeInOrder result hadGap).2 := by
  have hout : (b.concludeInOrder result hadGap).2 = b.settle := by
    rcases concludeInOrder_cases b result hadGap with
      ⟨hout, _⟩ | ⟨status, hs, hout⟩ | ⟨_, _, _, _, _, _, hout⟩
    · exact hout
    · have hok := h.ok
      rw [hout] at hok
      exact absurd (.inl hok) (not_unbroken_terminalFailure hs)
    · have hok := h.ok
      rw [hout] at hok
      cases hok
  rw [hout] at h hclean
  by_cases h0 : n = 0
  · refine .inl ?_
    rw [concludeInOrder_of_pending h0, settle_hold]
    exact h.following hclean (.inl h0) hcloses
  have hlast : n = last := hn.resolve_left h0
  by_cases hlt : b.settle.channel.nextExpectedSeq < last
  · refine .inl ?_
    have hbefore : (b.hold n).settle.channel.nextExpectedSeq
        < (b.hold n).settle.pendingEndSequence := by
      rw [settle_hold, hlast]
      exact hlt
    rw [concludeInOrder_before result hadGap hbefore, settle_hold]
    exact h.following hclean (.inr ⟨hlast, hlt⟩) hcloses
  · have hnext : b.settle.channel.nextExpectedSeq = last :=
      UInt64.le_antisymm h.next_le (UInt64.not_lt.1 hlt)
    have hset := (h.following hclean (.inl rfl) fun hne => absurd rfl hne).settled hnext
    refine .inr (concludeInOrder_at result hadGap ?_ ?_ ?_ ?_)
    · rw [settle_hold]
      exact h0
    · rw [settle_hold, hlast]
      exact hnext
    · rw [settle_hold]
      exact ⟨hset.status, hset.empty, hset.watermark⟩
    · rw [settle_hold]
      exact (h.phase_iff (hcloses h0)).2 hnext

theorem Following.bindSession (h : Following first initial last M session packets sofar d)
    (hp : p.session = session) :
    Following first initial last M session packets sofar (d.bindSession p.data) := by
  have hr := h.recovering.bindSession hp
  rw [bindSession_hold] at hr
  refine ⟨hr, ?_, ?_, ?_⟩
  · unfold MoldUdpDecoder.bindSession
    split_ifs <;> exact h.clean
  · unfold MoldUdpDecoder.bindSession
    split_ifs <;> exact h.pending
  · unfold MoldUdpDecoder.bindSession
    split_ifs <;> exact h.closes

theorem Following.announced (h : Following first initial last M session packets sofar d)
    (hm : p.IsEndOfSession) (hcloses : Closes first initial last M)
    (hr : Reached first initial (fun seq msg => msg = M seq) (d.processEndOfSession last).2) :
    Follows first initial last M session packets (sofar ++ [p]) (d.processEndOfSession last).2 := by
  have hrec := h.recovering
  have hphase : d.channel.phase = .endOfMessages ↔ d.channel.nextExpectedSeq = last :=
    hrec.phase_iff hcloses
  have hnext : d.channel.nextExpectedSeq ≤ last := hrec.next_le
  have hwm : d.channel.heartbeatNextSeqHighWatermark ≤ last := hrec.watermark_le
  have hin : ¬ (last < d.channel.nextExpectedSeq
      ∨ (d.pendingEndSequence ≠ 0 ∧ d.pendingEndSequence ≠ last)
      ∨ last < d.channel.heartbeatNextSeqHighWatermark) := by
    rintro (hlt | ⟨h0, hne⟩ | hlt)
    · exact UInt64.not_lt.2 hnext hlt
    · exact h.pending.elim h0 fun hp => hne hp.1
    · exact UInt64.not_lt.2 hwm hlt
  unfold processEndOfSession at hr ⊢
  dsimp only at hr ⊢
  rw [if_neg hin] at hr ⊢
  by_cases hlt : d.channel.nextExpectedSeq < last
  · have hopen : ¬ (d.channel.phase = .endOfMessages ∨ d.channel.status = .invalid
        ∨ d.channel.status = .stale) := by
      rintro (hend | hinv | hstale)
      · rw [hphase.1 hend] at hlt
        exact UInt64.lt_irrefl _ hlt
      · exact (hrec.reached.health hrec.ok).not_invalid hinv
      · exact hrec.status hstale
    rw [if_pos hlt, if_neg hopen] at hr ⊢
    have hover : ¬ Overtakes (d.hold 0) p := fun ho => ho.1.msgCount_ne_end hm.2
    have hmax : max d.channel.heartbeatNextSeqHighWatermark last ≤ last := by
      rw [UInt64.le_iff_toNat_le] at hwm ⊢
      rw [toNat_max]
      exact max_le hwm le_rfl
    have hstep := hrec.keep (p := p) hr.hold hrec.ok rfl rfl rfl (by simp) hmax hrec.session
      fun hd => absurd hm.2 hd.msgCount_ne_end
    exact .inl ⟨hstep.recovering, hstep.clean h.clean hover, .inr ⟨rfl, hlt⟩, fun _ => hcloses⟩
  · have heq : d.channel.nextExpectedSeq = last :=
      UInt64.le_antisymm hnext (UInt64.not_lt.1 hlt)
    rw [if_neg hlt, if_neg (h.settled heq).not_open, if_neg (not_not.2 (hphase.2 heq))]
    exact .inr rfl

/-- A packet of the stream, a heartbeat or the end of the session keeps the decoder following, or
ends the stream. -/
theorem Following.step (hcut : CutFrom first initial last M session packets)
    (hapart : Apart packets) (h : Following first initial last M session packets sofar d)
    (hkind : IsCutAt last M p
      ∨ p.IsEndOfSession ∧ p.firstSeq = last ∧ Closes first initial last M)
    (hp : p ∈ packets) (hroom : d.channel.gapBuffer.size < GapBuffer.kCapacity)
    (hr : Reached first initial (fun seq msg => msg = M seq) (d.processPacket p).2) :
    Follows first initial last M session packets (sofar ++ [p]) (d.processPacket p).2 := by
  have hrec := h.recovering
  have hadm : Admitted (d.hold 0) p := admitted_of_session hrec.session (hcut.session p hp)
  rcases hkind with hkind | ⟨hm, hlast, hcloses⟩
  swap
  · rw [processPacket_endOfSession (d := d) hm hrec.ok hadm, hlast] at hr ⊢
    exact (h.bindSession (hcut.session p hp)).announced hm hcloses hr
  have hstep := hrec.step hcut hkind hp hroom
  have hclean := hstep.clean h.clean (hrec.not_overtakes h.clean hapart hp)
  have hself : (d.hold 0).hold d.pendingEndSequence = d := rfl
  have hkept : (d.processPacket p).2 = ((d.hold 0).processPacket p).2.hold d.pendingEndSequence
      → ((d.hold 0).processPacket p).2.channel.nextExpectedSeq = d.channel.nextExpectedSeq →
      Follows first initial last M session packets (sofar ++ [p]) (d.processPacket p).2 := by
    intro hout hnext
    rw [hout]
    refine .inl (hstep.recovering.following hclean ?_ h.closes)
    rw [hnext]
    exact h.pending
  rcases hkind with ⟨hd, _, _, hlast⟩ | ⟨hbeat, hlast⟩
  · have hn : d.pendingEndSequence = 0 ∨ p.endSeq ≤ d.pendingEndSequence := by
      refine h.pending.imp_right fun hpend => ?_
      rw [hpend.1]
      exact hlast
    rcases processPacket_hold_data hd hrec.ok hadm rfl hn with
      ⟨hout, hnext⟩ | hne | ⟨b, result, hadGap, hout, hheld⟩
    · rw [hself] at hout
      exact hkept hout hnext
    · exact absurd hstep.recovering.ok hne
    · have hrec' := hstep.recovering
      rw [hout] at hrec' hclean
      rw [hself] at hheld
      rw [hheld]
      exact hrec'.concluded hclean (h.pending.imp_right And.left) h.closes
  · have hn : d.pendingEndSequence = 0 ∨ p.firstSeq ≤ d.pendingEndSequence := by
      refine h.pending.imp_right fun hpend => ?_
      rw [hpend.1]
      exact hlast
    obtain ⟨hout, hnext⟩ := processPacket_hold_heartbeat hbeat hrec.ok hadm rfl hn
    rw [hself] at hout
    exact hkept hout hnext

/-- Over packets that do not overlap nothing is left behind, until the stream has ended. -/
theorem follows_run {symbols : StockDirectory} {books : BookManager} (hle : initial ≤ last)
    (hcut : CutFrom (ItchParser.create symbols books) initial last M session packets)
    (hapart : Apart packets)
    (hkinds : ∀ p ∈ packets, IsCutAt last M p ∨ p.IsEndOfSession ∧ p.firstSeq = last
      ∧ Closes (ItchParser.create symbols books) initial last M)
    (hroom : ∀ before, before <+: packets →
      ((create symbols books initial).run before).channel.gapBuffer.size < GapBuffer.kCapacity)
    (hsofar : sofar <+: packets) :
    Follows (ItchParser.create symbols books) initial last M session packets sofar
      ((create symbols books initial).run sofar) := by
  induction sofar using List.reverseRecOn with
  | nil =>
    refine .inl ⟨recovering_create hle, fun e he => ?_, .inl rfl, fun h => absurd rfl h⟩
    obtain ⟨_, _, h⟩ := he
    cases h
  | append_singleton sofar p ih =>
    have hbefore : sofar <+: packets := (List.prefix_append sofar [p]).trans hsofar
    have hslices : ∀ q ∈ sofar ++ [p], q.IsData → q.SliceOf M := by
      intro q hq hqd
      rcases hkinds q (hsofar.subset hq) with (⟨_, _, hslice, _⟩ | ⟨hbeat, _⟩) | ⟨hm, _⟩
      · exact hslice
      · exact absurd hbeat.2 hqd.msgCount_ne_zero
      · exact absurd hm.2 hqd.msgCount_ne_end
    have hr := (reached_create symbols books initial _).run hslices
    have hp : p ∈ packets := hsofar.subset (List.mem_append_right _ List.mem_cons_self)
    rw [run_snoc] at hr ⊢
    rcases ih hbefore with h | hend
    · exact h.step hcut hapart (hkinds p hp) hp (hroom sofar hbefore) hr
    · rw [processPacket_terminal (by rw [hend]; decide)]
      exact .inr hend

theorem Following.next_eq (h : Following first initial last M session packets sofar d) :
    initial.toNat + d.handed.length = d.channel.nextExpectedSeq.toNat :=
  h.recovering.reached.caughtUp (.inl h.recovering.ok)

/-- An end that was announced is ahead. -/
theorem Following.ahead (h : Following first initial last M session packets sofar d)
    (hpend : d.pendingEndSequence ≠ 0) : d.channel.nextExpectedSeq < last :=
  (h.pending.resolve_left hpend).2

/-- The sequence after those handed over has not arrived. -/
theorem Following.missing (h : Following first initial last M session packets sofar d)
    (hp : p ∈ sofar) (hd : p.IsData) : ¬ p.Carries (initial.toNat + d.handed.length) := by
  rintro ⟨hfirst, hlt⟩
  have hnext := h.next_eq
  rcases h.recovering.seen p hp hd with hle | ⟨hahead, -⟩
  · have hle : p.endSeq.toNat ≤ d.channel.nextExpectedSeq.toNat := UInt64.le_iff_toNat_le.1 hle
    rw [endSeq_toNat hd.endSeq_lt] at hle
    omega
  · have hahead : d.channel.nextExpectedSeq.toNat < p.firstSeq.toNat :=
      UInt64.lt_iff_toNat_lt.1 hahead
    omega

end Following

/-! ## How many packets wait -/

variable {d' : MoldUdpDecoder} {e : SequencedPacket} {k : ℕ}

/-- At most `k` packets wait. -/
structure Waiting (k : ℕ) (d : MoldUdpDecoder) : Prop where
  sound : d.channel.gapBuffer.Sound
  size_le : d.channel.gapBuffer.size ≤ k

theorem Waiting.of_gapBuffer (h : Waiting k d)
    (hbuf : d'.channel.gapBuffer = d.channel.gapBuffer) : Waiting k d' :=
  ⟨hbuf ▸ h.sound, hbuf ▸ h.size_le⟩

theorem Waiting.erase (h : Waiting k d) (seq : UInt64) : Waiting k (d.eraseBuffered seq) :=
  ⟨h.sound.erase seq, (erase_size_le h.sound.ok.size seq).trans h.size_le⟩

theorem Waiting.drain (h : Waiting k d) : Waiting k d.drainGapBuffer.2 := by
  have happly : ∀ {d : MoldUdpDecoder} {e : SequencedPacket}, Waiting k d →
      Waiting k ((d.processBuffered e).2.eraseBuffered e.seq) :=
    fun h => (h.of_gapBuffer (processBuffered_gapBuffer _)).erase _
  have hend := drainGapBuffer_rule (I := Waiting k) (fun d h => h.sound.ok.size)
    (fun d e h _ _ => h.erase e.seq) (fun d e h _ _ _ => (happly h).of_gapBuffer rfl) h
  generalize d.drainGapBuffer = out at hend ⊢
  obtain ⟨result, d'⟩ := out
  generalize result.status = status at hend
  cases hend with
  | clear d' hd _ => exact hd
  | refused d' e hd _ _ _ => exact (happly hd).of_gapBuffer rfl

theorem Waiting.transition (h : Waiting k d) (ht : Transition d p d') : Waiting (k + 1) d' := by
  have hsame : ∀ {b : MoldUdpDecoder}, Waiting k b → Waiting (k + 1) b :=
    fun hb => ⟨hb.sound, Nat.le_succ_of_le hb.size_le⟩
  have hdrain : Waiting k (d.advance p).drainGapBuffer.2 :=
    (h.of_gapBuffer (advance_gapBuffer d p)).drain
  cases ht with
  | store ha status n hs =>
    refine ⟨h.sound.insert p.toSequenced, ?_⟩
    have hle := h.size_le
    rcases h.sound.ok.insert_cases p.toSequenced ha.size with
      ⟨_, _, hins⟩ | ⟨_, hins, _⟩ | ⟨_, _, b, _, hsize, _, hins⟩
    · rw [hins]
      exact Nat.le_succ_of_le hle
    · rw [hins]
      exact Nat.le_succ_of_le hle
    · rw [hins]
      exact hsize.trans_le (Nat.succ_le_succ hle)
  | refuse ho status d' hh hne => exact hsame (h.of_gapBuffer hh.forward.2.1)
  | refuseDrain => exact hsame (hdrain.of_gapBuffer rfl)
  | apply ho hok result hadGap =>
    refine hsame (hdrain.of_gapBuffer ?_)
    rcases concludeInOrder_cases (d.advance p).drainGapBuffer.2 result hadGap with
      ⟨hout, _⟩ | ⟨_, _, hout⟩ | ⟨_, _, _, _, _, _, hout⟩
    all_goals
      rw [hout]
      exact settle_gapBuffer (d.advance p).drainGapBuffer.2
  | _ => exact hsame (h.of_gapBuffer rfl)

/-- No more packets wait than have arrived. -/
theorem waiting_run (symbols : StockDirectory) (books : BookManager) (initial : UInt64)
    (packets : List PacketView) :
    Waiting packets.length ((create symbols books initial).run packets) := by
  induction packets using List.reverseRecOn with
  | nil => exact ⟨GapBuffer.fresh_sound, Nat.le_refl 0⟩
  | append_singleton packets p ih =>
    rw [run_snoc, List.length_append]
    refine processPacket_induction (I := fun _ d' => Waiting (packets.length + 1) d')
      (fun _ => ⟨ih.sound, Nat.le_succ_of_le ih.size_le⟩) ?_
    rintro b (rfl | rfl) _ d' ht
    · exact ih.transition ht
    · exact (ih.of_gapBuffer (bindSession_gapBuffer p.data)).transition ht

end MoldUdpDecoder

/-! ## What is sent -/

section Sent

variable {session : List UInt8} {packets : List PacketView} {taken : List (List UInt8)}
  {first : ItchParser} {seq copies : ℕ} {p q : PacketView}

/-- Of two packets that are sent, the one that begins earlier ends before the other. -/
theorem Emitted.apart (h : Emitted session seq packets taken) (hp : p ∈ packets) (hq : q ∈ packets)
    (hle : p.firstSeq.toNat ≤ q.firstSeq.toNat) :
    p = q ∨ p.endSeq.toNat ≤ q.firstSeq.toNat := by
  induction h with
  | nil => exact absurd hp List.not_mem_nil
  | @cons seq first packets msgs rest hfirst _ _ hrest ih =>
    have hlater : ∀ r ∈ packets, first.endSeq.toNat ≤ r.firstSeq.toNat := by
      intro r hr
      obtain ⟨before, own, after, -, hown⟩ := hrest.slice hr
      rw [hfirst.endSeq, hown.firstSeq]
      exact Nat.le_add_right _ _
    rcases List.mem_cons.1 hp with rfl | hp
    · rcases List.mem_cons.1 hq with rfl | hq
      · exact .inl rfl
      · exact .inr (hlater q hq)
    · rcases List.mem_cons.1 hq with heq | hq
      · have hend := hlater p hp
        rw [heq] at hle
        have hne := List.length_pos_iff.2 hfirst.nonempty
        rw [hfirst.endSeq] at hend
        rw [hfirst.firstSeq] at hle
        omega
      · exact ih hp hq

theorem IsPacket.session_eq {msgs : List (List UInt8)} (h : IsPacket session seq msgs p) :
    p.session = session := by
  unfold PacketView.session
  rw [h.data, ← h.session, List.take_left]

/-- What arrives that begins alike is the same. -/
theorem Arrives.apart (hp : Arrives session packets taken copies p)
    (hq : Arrives session packets taken copies q) (hemitted : Emitted session 1 packets taken)
    (hpd : p.IsData) (hqd : q.IsData) (hle : p.firstSeq.toNat ≤ q.firstSeq.toNat) :
    p.data = q.data ∨ p.endSeq.toNat ≤ q.firstSeq.toNat := by
  have hsent : ∀ {r : PacketView}, Arrives session packets taken copies r → r.IsData →
      ∃ r' ∈ packets, r.data = r'.data := by
    intro r hr hrd
    cases hr with
    | data hmem heq => exact ⟨_, hmem, heq⟩
    | heartbeat hb => exact absurd hb.2 hrd.msgCount_ne_zero
    | endOfSession hm => exact absurd hm.2 hrd.msgCount_ne_end
  have hfirst : ∀ {r r' : PacketView}, r.data = r'.data → r.firstSeq = r'.firstSeq := by
    intro r r' heq
    unfold PacketView.firstSeq
    rw [heq]
  obtain ⟨p', hp', hpeq⟩ := hsent hp hpd
  obtain ⟨q', hq', hqeq⟩ := hsent hq hqd
  have hend : p.endSeq = p'.endSeq := by
    unfold PacketView.endSeq PacketView.msgCount
    rw [hfirst hpeq, hpeq]
  rw [hfirst hpeq, hfirst hqeq] at hle
  rw [hend, hfirst hqeq, hpeq, hqeq]
  exact (hemitted.apart hp' hq' hle).imp_left fun heq => by rw [heq]

/-- A packet with messages stays within the records. -/
theorem Arrives.cut (h : Arrives session packets taken copies p)
    (hemitted : Emitted session 1 packets taken) (hd : p.IsData) :
    p.data.length ≤ SequencedPacket.kMaxPacketSize ∧ p.endSeq.toNat ≤ 1 + taken.length := by
  obtain ⟨before, own, after, htaken, hown⟩ := h.slice hemitted hd
  constructor
  · cases h with
    | data hq heq =>
      rw [heq]
      exact ((hemitted.packet _ hq).2.1).trans (by decide)
    | heartbeat hb => exact absurd hb.2 hd.msgCount_ne_zero
    | endOfSession hm => exact absurd hm.2 hd.msgCount_ne_end
  · rw [hown.endSeq, htaken, List.length_append, List.length_append]
    omega

theorem Arrives.session_eq (h : Arrives session packets taken copies p)
    (hemitted : Emitted session 1 packets taken) : p.session = session := by
  cases h with
  | data hq heq =>
    obtain ⟨_, _, _, -, hown⟩ := hemitted.slice hq
    exact (hown.of_data heq).session_eq
  | heartbeat _ hs => exact hs
  | endOfSession _ hs => exact hs

/-- The parser after the first `n` of the records. -/
theorem fold_messageAt {n : ℕ} (hn : n ≤ taken.length) :
    first.fold (messageAt taken) 1 n = first.feed (taken.take n) := by
  have hmap : (List.range' 1 n).map (messageAt taken) = taken.take n := by
    refine List.ext_getElem? fun i => ?_
    rw [List.getElem?_map, List.getElem?_take]
    split_ifs with hi
    swap
    · rw [List.getElem?_eq_none (by rw [List.length_range']; omega)]
      rfl
    have hlt : i < taken.length := hi.trans_le hn
    rw [List.getElem?_range' hi, Option.map_some, messageAt, List.getD_eq_getElem?_getD,
      show 1 + 1 * i - 1 = i by omega, List.getElem?_eq_getElem hlt]
    rfl
  unfold ItchParser.fold ItchParser.feed
  rw [← hmap, List.foldl_map]

theorem acceptsAll_of_isPrefix {records : List (List UInt8)} (h : first.AcceptsAll records)
    (hpre : taken <+: records) : first.AcceptsAll taken := by
  obtain ⟨more, rfl⟩ := hpre
  exact (ItchParser.acceptsAll_append.1 h).1

/-- Records the parser accepts are accepted as a stream. -/
theorem accepts_messageAt {last : UInt64} (hnone : first.lastError = none)
    (h : first.AcceptsAll taken) (hlast : last.toNat = 1 + taken.length) :
    MoldUdpDecoder.Accepts first 1 last (messageAt taken) := by
  refine ⟨hnone, fun k hk => ?_⟩
  have hlt : k < taken.length := by
    rw [hlast] at hk
    exact (Nat.lt_sub_iff_add_lt'.1 hk |> Nat.add_lt_add_iff_left.1)
  show (first.fold (messageAt taken) 1 (k + 1)).lastError = none
  have hmsgs := acceptsAll_of_isPrefix h (List.take_prefix (k + 1) taken)
  rw [fold_messageAt hlt, List.take_succ_eq_append_getElem hlt] at *
  rw [ItchParser.feed_snoc]
  exact (ItchParser.acceptsAll_append.1 hmsgs).2.1

/-- The parser is at the end of messages after the last of the records that end in one. -/
theorem closes_messageAt {bookConfig : BookManagerConfig} {systemPageBytes : ℕ} {books : BookManager}
    (hbooks : BookManager.create bookConfig systemPageBytes = .ok books) {last : UInt64}
    (hrecords : Records taken) (hends : EndsInC taken)
    (h : (ItchParser.create .fresh books).AcceptsAll taken)
    (hlast : last.toNat = 1 + taken.length) :
    MoldUdpDecoder.Closes (ItchParser.create .fresh books) 1 last (messageAt taken) := by
  intro n hn
  have hle : n ≤ taken.length := by
    rw [hlast] at hn
    exact Nat.add_le_add_iff_left.1 hn
  have hacc := ItchTraceProfile.acceptsAll_iff.1 (acceptsAll_of_isPrefix h (List.take_prefix n taken))
  have hcycle := ItchParser.lifecycle_run hbooks (taken.take n)
  rw [hacc] at hcycle
  have hphase : ∀ phase : ChannelPhase, phase = .endOfMessages ↔ 5 < phase.eventCount := by
    intro phase
    cases phase <;> decide
  have hnat : (1 : UInt64).toNat = 1 := rfl
  have hcode : ItchParser.dailyEvents[5]? = some 'C' := rfl
  rw [hnat, fold_messageAt hle, hphase, ← hcycle.event_iff hcode, hlast, Nat.add_right_inj]
  constructor
  · rintro ⟨msg, hmem, hC⟩
    obtain ⟨before, after, heq⟩ := List.append_of_mem hmem
    have hsplit : taken = before ++ msg :: (after ++ taken.drop n) := by
      rw [← List.cons_append, ← List.append_assoc, ← heq, List.take_append_drop]
    have hnil := hrecords.last before msg _ hsplit hC
    have hdrop : (taken.drop n).length = 0 := by rw [(List.append_eq_nil_iff.1 hnil).2]; rfl
    rw [List.length_drop] at hdrop
    omega
  · rintro rfl
    obtain ⟨before, msg, heq, hC⟩ := hends
    rw [List.take_length, heq]
    exact ⟨msg, by simp, hC⟩

end Sent

/-! ## Runs of the system -/

namespace FeedSystem

variable {config : SenderConfig} {file : BinaryFile} {books : BookManager} {s : FeedSystem}

theorem appends_delivered (config : SenderConfig) :
    RunLog.Appends (FeedSystem.step config) (·.delivered) := by
  rintro s (_ | ⟨index, ticks⟩)
  · exact .inl rfl
  · unfold FeedSystem.step
    dsimp only
    split
    · exact .inr ⟨_, rfl⟩
    · exact .inl rfl

/-- A datagram with the sequence was delivered. -/
def Covered (delivered : List PacketView) (seq : ℕ) : Prop :=
  ∃ p ∈ delivered, p.IsData ∧ p.Carries seq

section Liveness

variable {packets : List PacketView} {taken records : List (List UInt8)} {copies : ℕ}
  {bookConfig : BookManagerConfig} {systemPageBytes : ℕ}

/-- The decoder follows what is delivered. -/
theorem Linked.follows (h : Linked config file books s)
    (hs : ItchMoldUdpSender.Sending config file taken packets copies s.sender)
    (hbooks : BookManager.create bookConfig systemPageBytes = .ok books)
    (hacc : (ItchParser.create .fresh books).AcceptsAll taken)
    (hroom : ∀ before, before <+: s.delivered →
      ((MoldUdpDecoder.create .fresh books 1).run before).channel.gapBuffer.size
        < GapBuffer.kCapacity) :
    MoldUdpDecoder.Follows (ItchParser.create .fresh books) 1 (UInt64.ofNat (1 + taken.length))
      (messageAt taken) (resizeSession config.session) s.delivered s.delivered s.decoder := by
  have hlast := toNat_of_beginsWith hs.wired.begins
  have hemitted := hs.wired.emitted
  have harrives := h.arrives hs
  rw [h.decoder]
  refine MoldUdpDecoder.follows_run ?_ ⟨accepts_messageAt rfl hacc hlast,
    fun p hp => (harrives p hp).session_eq hemitted, fun p hp q hq hpd hqd heq => ?_⟩
    (fun p hp q hq hpd hqd hlt => ?_) (fun p hp => ?_) hroom List.prefix_rfl
  · rw [UInt64.le_iff_toNat_le, hlast]
    exact Nat.le_add_right 1 _
  · rcases (harrives p hp).apart (harrives q hq) hemitted hpd hqd (by rw [heq]) with heq' | hend
    · exact heq'
    · have hpos : p.msgCount.toNat ≠ 0 :=
        fun h0 => hpd.msgCount_ne_zero (UInt16.toNat_inj.1 h0)
      rw [MoldUdpDecoder.endSeq_toNat hpd.endSeq_lt, heq] at hend
      omega
  · rcases (harrives p hp).apart (harrives q hq) hemitted hpd hqd hlt.le with heq | hend
    · unfold PacketView.firstSeq at hlt
      rw [heq] at hlt
      exact absurd hlt (lt_irrefl _)
    · exact hend
  · have hkind := harrives p hp
    by_cases hd : p.IsData
    · obtain ⟨hsize, hend⟩ := hkind.cut hemitted hd
      refine .inl (.inl ⟨hd, hsize, fun i msg hi => (hkind.each hemitted hd i msg hi).eq, ?_⟩)
      rw [UInt64.le_iff_toNat_le, hlast]
      exact hend
    · cases hkind with
      | data hq heq =>
        obtain ⟨_, _, _, -, hown⟩ := hemitted.slice hq
        exact absurd (hown.of_data heq).isData hd
      | heartbeat hb _ hle =>
        refine .inl (.inr ⟨hb, ?_⟩)
        rw [UInt64.le_iff_toNat_le, hlast]
        exact hle
      | endOfSession hm _ hseq hc =>
        obtain ⟨hlongest, hgrammar⟩ := hs.wired.ended hc
        obtain ⟨input, hfile⟩ := hlongest.1.2
        exact .inr ⟨hm, hseq, closes_messageAt hbooks hlongest.1.1
          ((inGrammar_iff hlongest hfile.symm).1 hgrammar).1 hacc hlast⟩

/-- Messages handed over were delivered. -/
theorem Linked.covered (h : Linked config file books s) {seq : ℕ} (h1 : 1 ≤ seq)
    (hle : seq ≤ s.decoder.handed.length) : Covered s.delivered seq := by
  have hreached : MoldUdpDecoder.Reached (ItchParser.create .fresh books) 1
      (fun seq _ => Covered s.delivered seq) s.decoder := by
    rw [h.decoder]
    refine (MoldUdpDecoder.reached_create .fresh books 1 _).run fun p hp hd i msg hi => ?_
    have hlt : i < p.msgCount.toNat := by
      have hlt := (List.getElem?_eq_some_iff.1 hi).1
      unfold PacketView.messages at hlt
      rwa [MoldUdpDecoder.length_framedMessages] at hlt
    exact ⟨p, hp, hd, Nat.le_add_right _ _, by omega⟩
  have hmem : seq ∈ s.decoder.handed.map (·.1.toNat) := by
    rw [hreached.coherent.seqs, List.mem_range'_1]
    show 1 ≤ seq ∧ seq < 1 + _
    omega
  obtain ⟨m, hm, rfl⟩ := List.mem_map.1 hmem
  exact hreached.coherent.messages m hm

variable (h : Linked config file books s)
  (hs : ItchMoldUdpSender.Sending config file taken packets copies s.sender)
  (hfollows : MoldUdpDecoder.Follows (ItchParser.create .fresh books) 1
    (UInt64.ofNat (1 + taken.length)) (messageAt taken) (resizeSession config.session) s.delivered
    s.delivered s.decoder)
include h hs hfollows

/-- What is handed over goes up to the first message that was not delivered. -/
theorem Linked.le_length_iff (k : ℕ) : k ≤ s.decoder.handed.length ↔
    ∀ seq, 1 ≤ seq → seq ≤ k → Covered s.delivered seq := by
  refine ⟨fun hk seq h1 hle => h.covered h1 (hle.trans hk), fun hcover => ?_⟩
  by_contra hk
  obtain ⟨p, hp, hd, hfirst, hlt⟩ := hcover (1 + s.decoder.handed.length)
    (Nat.le_add_right 1 _) (by omega)
  have hend := ((h.arrives hs p hp).cut hs.wired.emitted hd).2
  rw [MoldUdpDecoder.endSeq_toNat hd.endSeq_lt] at hend
  rcases hfollows with hf | hdone
  · exact hf.missing hp hd ⟨hfirst, hlt⟩
  · have hlen := congrArg List.length (h.complete hs hdone).2.2
    rw [List.length_map] at hlen
    omega

theorem Linked.endOfStream_iff (hlongest : IsLongest file.bytes records) :
    s.decoder.terminalStatus = .endOfStream ↔ s.decoder.handed.length = records.length
      ∧ ∃ m ∈ s.delivered, m.IsEndOfSession := by
  refine ⟨fun hend => ?_, fun ⟨hall, m, hm, hmark⟩ => ?_⟩
  · obtain ⟨hcomplete, -, hall⟩ := h.complete hs hend
    have hlen := congrArg List.length hall
    rw [List.length_map, isLongest_unique hcomplete hlongest] at hlen
    obtain ⟨m, hm, hmark, -⟩ := MoldUdpDecoder.announced_of_endOfStream (h.decoder ▸ hend)
    exact ⟨hlen, m, hm, hmark⟩
  · rcases hfollows with hf | hdone
    swap
    · exact hdone
    have hnoted := MoldUdpDecoder.noted_run .fresh books 1 s.delivered (h.decoder ▸ hf.recovering.ok)
    obtain ⟨hpend, hne⟩ := hnoted.markers m hm hmark
    rw [← h.decoder] at hpend
    have hnext := UInt64.lt_iff_toNat_lt.1 (hf.ahead (hpend ▸ hne))
    rw [toNat_of_beginsWith hs.wired.begins, ← hf.next_eq, hall] at hnext
    exact absurd (hlongest.2 _ hs.wired.begins).length_le
      (Nat.not_le.2 (Nat.add_lt_add_iff_left.1 hnext))

end Liveness

/-- In no state up to here is the gap buffer full. -/
def HasRoom (config : SenderConfig) (file : BinaryFile) (books : BookManager)
    (events : List FeedEvent) : Prop :=
  ∀ earlier, earlier <+: events →
    ((create config file books).run config earlier).decoder.channel.gapBuffer.size
      < GapBuffer.kCapacity

theorem HasRoom.delivered {events : List FeedEvent} (h : HasRoom config file books events)
    {before : List PacketView}
    (hbefore : before <+: ((create config file books).run config events).delivered) :
    ((MoldUdpDecoder.create .fresh books 1).run before).channel.gapBuffer.size
      < GapBuffer.kCapacity := by
  obtain ⟨earlier, hpre, hlog⟩ := (appends_delivered config).exists_earlier rfl hbefore
  change ((create config file books).run config earlier).delivered = before at hlog
  subst hlog
  rw [← (linked_run config file books earlier).decoder]
  exact h earlier hpre

/-- Fewer events than the gap buffer has slots leave it room. -/
theorem hasRoom_of_length_lt {events : List FeedEvent}
    (h : events.length < GapBuffer.kCapacity) : HasRoom config file books events := by
  intro earlier hpre
  have hdecoder := (linked_run config file books earlier).decoder
  have hlen := (appends_delivered config).length_le (create config file books) earlier
  rw [hdecoder]
  have hwait := (MoldUdpDecoder.waiting_run .fresh books 1
    ((create config file books).run config earlier).delivered).size_le
  have hevents := hpre.length_le
  exact (hwait.trans (hlen.trans (by rw [create, List.length_nil, Nat.zero_add]))).trans_lt
    (hevents.trans_lt h)

/-- Where the parser accepts the records and the gap buffer is never full, nothing fails: the
messages handed over are those up to the first that was not delivered in any datagram, and the
stream has ended if and only if that is all of them and an end of the session was delivered. -/
theorem feed_is_live (config : SenderConfig) (file : BinaryFile) {bookConfig : BookManagerConfig}
    {systemPageBytes : ℕ} (hbooks : BookManager.create bookConfig systemPageBytes = .ok books)
    {records : List (List UInt8)} (hlongest : IsLongest file.bytes records)
    (haccepted : (ItchParser.create .fresh books).AcceptsAll records) (events : List FeedEvent)
    (hroom : HasRoom config file books events) :
    let s := (create config file books).run config events
    (s.decoder.terminalStatus = .ok ∨ s.decoder.terminalStatus = .endOfStream)
      ∧ (∀ k, k ≤ s.decoder.handed.length ↔
        ∀ seq, 1 ≤ seq → seq ≤ k → Covered s.delivered seq)
      ∧ (s.decoder.terminalStatus = .endOfStream ↔ s.decoder.handed.length = records.length
        ∧ ∃ m ∈ s.delivered, m.IsEndOfSession) := by
  intro s
  have h : Linked config file books s := linked_run config file books events
  obtain ⟨packets, taken, copies, hs⟩ := h.sender
  have htaken := hlongest.2 _ hs.wired.begins
  have hfollows := h.follows hs hbooks (acceptsAll_of_isPrefix haccepted htaken)
    fun _ => hroom.delivered
  exact ⟨hfollows.imp_left fun hf => hf.recovering.ok, h.le_length_iff hs hfollows,
    h.endOfStream_iff hs hfollows hlongest⟩

/-- The day with an order arrives from its end on, and some of it twice. -/
def shuffledDay : List FeedEvent :=
  orderDayReplay.map .choose ++ [5, 3, 2, 8, 2, 1, 6, 4].map (.deliver · 0)

theorem accepts_orderDay {books : BookManager}
    (hbooks : BookManager.create ⟨⟨2, 1⟩, ⟨1⟩⟩ 4096 = .ok books) :
    (ItchParser.create .fresh books).AcceptsAll ItchTraceProfile.orderDay :=
  (ItchTraceProfile.day_simulates hbooks ItchTraceProfile.holds_orderDay.1
    ItchTraceProfile.planned_orderDay (by decide +kernel) (by decide +kernel)).1

theorem feed_is_live_shuffledDay : ∃ books, BookManager.create ⟨⟨2, 1⟩, ⟨1⟩⟩ 4096 = .ok books
    ∧ ((create orderDayConfig ItchTraceProfile.orderDayFile books).run orderDayConfig
      shuffledDay).decoder.terminalStatus = .endOfStream := by
  obtain ⟨books, hbooks, hcovered, hbeyond, hmarked⟩ : ∃ books,
      BookManager.create ⟨⟨2, 1⟩, ⟨1⟩⟩ 4096 = .ok books
      ∧ let delivered := ((create orderDayConfig ItchTraceProfile.orderDayFile books).run
          orderDayConfig shuffledDay).delivered
        (∀ seq < 10, 1 ≤ seq → ∃ p ∈ delivered, p.IsData
          ∧ p.firstSeq.toNat ≤ seq ∧ seq < p.firstSeq.toNat + p.msgCount.toNat)
        ∧ (¬ ∃ p ∈ delivered, p.IsData
          ∧ p.firstSeq.toNat ≤ 10 ∧ 10 < p.firstSeq.toNat + p.msgCount.toNat)
        ∧ ∃ m ∈ delivered, m.IsEndOfSession := ⟨_, rfl, by decide +kernel⟩
  obtain ⟨-, hhanded, hend⟩ := feed_is_live orderDayConfig ItchTraceProfile.orderDayFile hbooks
    ItchTraceProfile.holds_orderDay.isLongest (accepts_orderDay hbooks) shuffledDay
    (hasRoom_of_length_lt (by decide))
  refine ⟨books, hbooks, hend.2 ⟨le_antisymm ?_ ?_, hmarked⟩⟩
  · by_contra hlt
    exact hbeyond ((hhanded 10).1 (Nat.lt_of_not_le hlt) 10 (by decide) le_rfl)
  · exact (hhanded 9).2 fun seq h1 hle => hcovered seq (Nat.lt_succ_of_le hle) h1

end FeedSystem

end AstraFeed
