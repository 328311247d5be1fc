import AstraFeed.Proofs.DecoderMerge

/-!
# The channel's health

In every state that is not terminal the status, the watermark, the pending end and the gap buffer
agree (`Health`), by cases on what a packet can do.
-/

namespace AstraFeed

open MoldUdpPacketHeader Wire Probe

namespace MoldUdpDecoder

variable {first : ItchParser} {initial : UInt64} {Q : ℕ → List UInt8 → Prop}
variable {d d' : MoldUdpDecoder} {p : PacketView}

theorem pos_of_lt {a b : UInt64} (h : a < b) : b ≠ 0 := by
  rintro rfl
  rw [UInt64.lt_iff_toNat_lt] at h
  exact absurd h (Nat.not_lt_zero _)

theorem health_create (symbols : StockDirectory) (books : BookManager) (initial : UInt64) :
    Health (create symbols books initial) where
  not_invalid := by simp [create]
  good_iff := fun _ => by simp [create, GapBuffer.empty, GapBuffer.fresh]
  watermark := fun _ h => absurd rfl h
  pending := fun h => absurd rfl h
  pending_open := fun _ h => absurd rfl h

/-- A good channel has no end pending. -/
theorem Health.pending_of_good (h : Health d) (hg : d.channel.status = .good) :
    d.pendingEndSequence = 0 := by
  by_contra hp
  have hs : d.channel.status ≠ .stale := by
    rw [hg]
    decide
  obtain ⟨hemp, hwm⟩ := (h.good_iff hs).1 hg
  rcases h.pending_open hs hp with hle | ⟨_, hne⟩
  · rw [hwm] at hle
    exact hp (UInt64.le_zero_iff.1 hle)
  · rw [hemp] at hne
    cases hne

/-- While an end is pending, whatever still counts as ahead stays below it. -/
theorem Health.pending_lt (h : Health d) (hs : d.channel.status ≠ .stale)
    (hp : d.pendingEndSequence ≠ 0) {seq : UInt64} (hlt : d.channel.nextExpectedSeq < seq)
    (hle : d.pendingEndSequence = 0 ∨ seq ≤ d.pendingEndSequence) :
    d.pendingEndSequence ≤ d.channel.heartbeatNextSeqHighWatermark := by
  rcases h.pending_open hs hp with hwm | ⟨heq, _⟩
  · exact hwm
  · have hle := hle.resolve_left hp
    rw [heq] at hle
    exact absurd hlt (UInt64.not_lt.2 hle)

theorem health_retain (hlt : d.channel.nextExpectedSeq < p.firstSeq) :
    Health { d with
      pendingEndSequence := p.firstSeq
      channel := { d.channel with
        heartbeatNextSeqHighWatermark := p.firstSeq
        status := .gapDetected } } where
  not_invalid := by simp
  good_iff := fun _ => ⟨fun hg => (by cases hg), fun hg => absurd hg.2 (pos_of_lt hlt)⟩
  watermark := fun _ _ => hlt
  pending := fun _ => UInt64.le_of_lt hlt
  pending_open := fun _ _ => .inl (UInt64.le_refl _)

theorem toNat_max (a b : UInt64) : (max a b).toNat = max a.toNat b.toNat := by
  change (if a ≤ b then b else a).toNat = _
  split_ifs with h
  · rw [UInt64.le_iff_toNat_le] at h
    exact (max_eq_right h).symm
  · rw [UInt64.le_iff_toNat_le] at h
    exact (max_eq_left (Nat.le_of_not_le h)).symm

theorem health_announce (h : Health d) (hlt : d.channel.nextExpectedSeq < p.firstSeq)
    (hpend : d.pendingEndSequence = 0 ∨ p.firstSeq ≤ d.pendingEndSequence) :
    Health { d with channel := { d.channel with
      heartbeatNextSeqHighWatermark := max d.channel.heartbeatNextSeqHighWatermark p.firstSeq
      status := if d.channel.status ≠ .stale ∧ d.channel.status ≠ .invalid then .gapDetected
        else d.channel.status } } := by
  have hmax : d.channel.nextExpectedSeq
      < max d.channel.heartbeatNextSeqHighWatermark p.firstSeq := by
    rw [UInt64.lt_iff_toNat_lt, toNat_max] at *
    exact hlt.trans_le (le_max_right _ _)
  by_cases hs : d.channel.status = .stale
  · rw [if_neg fun hc => hc.1 hs]
    exact ⟨h.not_invalid, fun hne => absurd hs hne, fun hne => absurd hs hne, h.pending,
      fun hne => absurd hs hne⟩
  · rw [if_pos ⟨hs, h.not_invalid⟩]
    refine ⟨by simp, fun _ => ⟨fun hg => (by cases hg), fun hg => absurd hg.2 (pos_of_lt hmax)⟩,
      fun _ _ => hmax, h.pending, fun _ hp => .inl ?_⟩
    have hle := h.pending_lt hs hp hlt hpend
    rw [UInt64.le_iff_toNat_le, toNat_max] at *
    exact hle.trans (le_max_left _ _)

/-- Only a stale channel has a watermark that the next sequence has reached. -/
theorem health_clear (h : Health d) (h0 : d.channel.heartbeatNextSeqHighWatermark ≠ 0)
    (hwm : d.channel.heartbeatNextSeqHighWatermark ≤ d.channel.nextExpectedSeq) :
    Health { d with channel := { d.channel with
      heartbeatNextSeqHighWatermark := 0
      status := if d.channel.gapBuffer.empty ∧ d.channel.status ≠ .invalid
          ∧ d.channel.status ≠ .stale then .good
        else d.channel.status } } := by
  have hs : d.channel.status = .stale := by
    by_contra hs
    exact absurd (h.watermark hs h0) (UInt64.not_lt.2 hwm)
  rw [if_neg fun hc => hc.2.2 hs]
  exact ⟨h.not_invalid, fun hne => absurd hs hne, fun hne => absurd hs hne, h.pending,
    fun hne => absurd hs hne⟩

/-- A packet that was stored, or had been before, leaves the gap buffer with a packet. -/
theorem insert_not_empty (hd : d.channel.gapBuffer.Sized) {e : SequencedPacket}
    (hs : StoredAs (d.channel.gapBuffer.insert e).1 .gapDetected) :
    (d.channel.gapBuffer.insert e).2.empty = false := by
  rw [Bool.eq_false_iff]
  intro hemp
  rcases hd.insert_cases e with ⟨result, hout, hne, hdup⟩ | ⟨b, hout, hb, hhas⟩
  · rw [hout] at hs hemp
    cases hs with
    | inserted => exact hne rfl
    | duplicate =>
      obtain ⟨stored, hst⟩ := hdup (.inr rfl)
      exact hd.empty_iff.1 hemp stored hst
  · rw [hout] at hemp
    exact hb.empty_iff.1 hemp e ((hhas e).2 (.inl rfl))

theorem StoredAs.status_cases {r : GapBuffer.InsertResult} {status : ChannelHealth}
    (h : StoredAs r status) : status = .stale ∨ status = .gapDetected := by
  cases h with
  | inserted => exact .inr rfl
  | duplicate => exact .inr rfl
  | refused => exact .inl rfl

theorem health_store (h : Health d) (hd : d.channel.gapBuffer.Sized) (ha : Ahead d p)
    {status : ChannelHealth} {n : UInt64}
    (hs : StoredAs (d.channel.gapBuffer.insert p.toSequenced).1 status) :
    Health { d with channel := { d.channel with
      status := status
      identicalBufferedRedundantPackets := n
      gapBuffer := (d.channel.gapBuffer.insert p.toSequenced).2 } } := by
  rcases hs.status_cases with rfl | rfl
  · exact ⟨by simp, fun hne => absurd rfl hne, fun hne => absurd rfl hne, h.pending,
      fun hne => absurd rfl hne⟩
  · have hemp := insert_not_empty hd hs
    have hend : d.pendingEndSequence = 0 ∨ p.firstSeq ≤ d.pendingEndSequence := by
      refine ha.pending.imp_right fun hle => ?_
      rw [UInt64.le_iff_toNat_le, endSeq_toNat ha.data.endSeq_lt] at hle
      rw [UInt64.le_iff_toNat_le]
      omega
    refine ⟨by simp, fun _ => ⟨fun hg => (by cases hg), fun hg => ?_⟩,
      fun _ => h.watermark ha.status, h.pending,
      fun _ hp => .inl (h.pending_lt ha.status hp ha.first hend)⟩
    rw [hemp] at hg
    cases hg.1

theorem watermarkAt_eq_zero_or (watermark next : UInt64) :
    watermarkAt watermark next = 0 ∧ (watermark = 0 ∨ watermark ≤ next)
    ∨ watermarkAt watermark next = watermark ∧ next < watermark := by
  unfold watermarkAt
  split_ifs with h
  · exact .inl ⟨rfl, .inr h.2⟩
  · rcases eq_or_ne watermark 0 with h0 | h0
    · exact .inl ⟨h0, .inl h0⟩
    · exact .inr ⟨rfl, UInt64.not_le.1 fun hle => h ⟨h0, hle⟩⟩

/-- After the drain the status and the watermark are set anew; the pending end is checked. -/
theorem health_conclude (hinv : d.channel.status ≠ .invalid)
    (hpend : d.channel.status ≠ .stale → d.pendingEndSequence ≠ 0 →
      d.pendingEndSequence ≤ d.channel.heartbeatNextSeqHighWatermark)
    (result : DecodeResult) (hadGap : Bool)
    (hok : (d.concludeInOrder result hadGap).2.terminalStatus = .ok) :
    Health (d.concludeInOrder result hadGap).2 := by
  rcases concludeInOrder_cases d result hadGap with
    ⟨hout, hopen⟩ | ⟨status, hs, hout⟩ | ⟨_, _, _, _, _, _, hout⟩
  · rw [hout]
    have hle : d.settle.pendingEndSequence ≠ 0 →
        d.settle.channel.nextExpectedSeq ≤ d.settle.pendingEndSequence := by
      intro hp
      rcases hopen with h0 | hlt | ⟨heq, _⟩
      · exact absurd h0 hp
      · exact UInt64.le_of_lt hlt
      · rw [heq]
        exact UInt64.le_refl _
    rcases settle_cases d with ⟨hst, hs⟩ | ⟨_, hstale, hs⟩
    · have hst := hst.resolve_left hinv
      rw [hs] at hle ⊢
      exact ⟨hinv, fun hne => absurd hst hne, fun hne => absurd hst hne, hle,
        fun hne => absurd hst hne⟩
    · rw [hs] at hopen hle ⊢
      dsimp only at hopen hle
      have hwm := watermarkAt_eq_zero_or d.channel.heartbeatNextSeqHighWatermark
        d.channel.nextExpectedSeq
      generalize watermarkAt d.channel.heartbeatNextSeqHighWatermark
        d.channel.nextExpectedSeq = w at hwm hopen ⊢
      refine ⟨?_, fun _ => ?_, fun _ hw => ?_, hle, fun _ hp => ?_⟩
      · dsimp only
        split_ifs <;> simp
      · dsimp only
        split_ifs with hres
        · exact ⟨fun _ => hres, fun _ => rfl⟩
        · exact ⟨fun hg => (by cases hg), fun hc => absurd hc hres⟩
      · rcases hwm with ⟨h0, _⟩ | ⟨rfl, hlt⟩
        · exact absurd h0 hw
        · exact hlt
      · have hpw := hpend hstale hp
        rcases hwm with ⟨h0, hreach⟩ | ⟨rfl, _⟩
        · refine .inr ?_
          have hpn : d.pendingEndSequence = d.channel.nextExpectedSeq := by
            rcases hreach with hz | hreach
            · rw [hz] at hpw
              exact absurd (UInt64.le_zero_iff.1 hpw) hp
            · exact UInt64.le_antisymm (UInt64.le_trans hpw hreach) (hle hp)
          refine ⟨hpn, Bool.eq_false_iff.2 fun hemp => ?_⟩
          rw [if_pos ⟨hemp, h0⟩] at hopen
          rcases hopen with hz | hlt | ⟨_, hbad | hbad | hbad⟩
          · exact hp hz
          · rw [hpn] at hlt
            exact UInt64.lt_irrefl _ hlt
          · exact hbad rfl
          · rw [hemp] at hbad
            cases hbad
          · exact hbad h0
        · exact .inl hpw
  · rw [hout] at hok
    rw [show status = .ok from hok] at hs
    cases hs
  · rw [hout] at hok
    cases hok

/-! ## Steps and runs -/

theorem advance_status_ne {status : ChannelHealth} (h : d.channel.status ≠ status)
    (hr : status ≠ .recovering) : (d.advance p).channel.status ≠ status := by
  obtain ⟨_, _, _, ha⟩ := advance_eq d p
  rw [ha]
  dsimp only
  split_ifs
  · exact hr.symm
  · exact h

theorem health_transition (h : Health d) (hc : Coherent first initial Q d)
    (hcu : CaughtUp initial d)
    (hq : p.IsData → p.Each Q)
    (ht : Transition d p d') (hok : d'.terminalStatus = .ok) : Health d' := by
  cases ht with
  | idle => exact h
  | fail status hs n =>
    rw [show status = .ok from hok] at hs
    cases hs
  | retain hm hlt => exact health_retain hlt
  | finish => cases hok
  | announce hb hlt hpend => exact health_announce h hlt hpend
  | clear hb hle h0 hwm => exact health_clear h h0 hwm
  | store ha status n hs => exact health_store h hc.sized ha hs
  | refuse ho status d' hh hne => exact absurd hok hne
  | refuseDrain ho hne => exact absurd hok hne
  | apply ho hdr result hadGap =>
    obtain ⟨hdr, hmv⟩ := hc.drained hcu hq ho hdr
    obtain ⟨_, _, _, ha⟩ := advance_eq d p
    refine health_conclude ?_ (fun hs hp => ?_) result hadGap hok
    · rw [hdr.status]
      exact advance_status_ne h.not_invalid (by decide)
    · rw [hdr.status, ha] at hs
      rw [hmv.pending] at hp ⊢
      rw [hmv.watermark]
      refine h.pending_lt (fun hst => hs ?_) hp ho.last ho.pending
      dsimp only
      rw [hst]
      rfl

theorem settle_terminal (d : MoldUdpDecoder) : d.settle.terminalStatus = d.terminalStatus := by
  rcases settle_cases d with ⟨_, hs⟩ | ⟨_, _, hs⟩ <;> rw [hs]

theorem ended_transition (ht : Transition d p d') (hok : d.terminalStatus = .ok)
    (hc : Coherent first initial Q d) (hcu : CaughtUp initial d)
    (hq : p.IsData → p.Each Q) :
    (d'.terminalStatus = .endOfStream → Ended d')
      ∧ (¬ Unbroken d' → d'.channel.status = .invalid) := by
  have hlive : ∀ {b : MoldUdpDecoder}, b.terminalStatus = d.terminalStatus →
      (b.terminalStatus = .endOfStream → Ended b)
        ∧ (¬ Unbroken b → b.channel.status = .invalid) := by
    intro b hb
    rw [hok] at hb
    refine ⟨fun he => ?_, fun hu => absurd (.inl hb) hu⟩
    rw [hb] at he
    cases he
  cases ht with
  | idle => exact hlive rfl
  | fail status hs n =>
    exact ⟨fun he => absurd (.inr he) (not_unbroken_terminalFailure hs), fun _ => rfl⟩
  | retain => exact hlive rfl
  | finish hm heq hst hemp hwm hphase =>
    exact ⟨fun _ => ⟨hst, hemp, hwm, hphase⟩, fun hu => absurd (.inr rfl) hu⟩
  | announce => exact hlive rfl
  | clear => exact hlive rfl
  | store => exact hlive rfl
  | refuse ho status d' hh hne =>
    refine ⟨fun he => ?_, fun _ => rfl⟩
    rw [show status = .endOfStream from he] at hh
    cases hh.status_of_ne (by decide)
  | refuseDrain ho hne =>
    obtain ⟨hco, hcau⟩ := hc.advance hcu ho (hq ho.data)
    have hfail := (hco.drain hcau).2.2.2.2 hne
    exact ⟨fun he => absurd (.inr he) (not_unbroken_terminalFailure hfail), fun _ => rfl⟩
  | apply ho hdr result hadGap =>
    obtain ⟨_, hmv⟩ := hc.drained hcu hq ho hdr
    have hterm : (d.advance p).drainGapBuffer.2.settle.terminalStatus = d.terminalStatus := by
      rw [settle_terminal, hmv.terminal]
    rcases concludeInOrder_cases (d.advance p).drainGapBuffer.2 result hadGap with
      ⟨hout, _⟩ | ⟨status, hs, hout⟩ | ⟨_, _, hst, hemp, hwm, hphase, hout⟩
    · rw [hout]
      exact hlive hterm
    · rw [hout]
      exact ⟨fun he => absurd (.inr he) (not_unbroken_terminalFailure hs), fun _ => rfl⟩
    · rw [hout]
      exact ⟨fun _ => ⟨hst, hemp, hwm, hphase⟩, fun hu => absurd (.inr rfl) hu⟩

theorem settle_next (d : MoldUdpDecoder) :
    d.settle.channel.nextExpectedSeq = d.channel.nextExpectedSeq := by
  rcases settle_cases d with ⟨_, hs⟩ | ⟨_, _, hs⟩ <;> rw [hs]

theorem concludeInOrder_next (d : MoldUdpDecoder) (result : DecodeResult) (hadGap : Bool) :
    (d.concludeInOrder result hadGap).2.channel.nextExpectedSeq
      = d.channel.nextExpectedSeq := by
  rcases concludeInOrder_cases d result hadGap with ⟨hout, _⟩ | ⟨_, _, hout⟩ | ⟨_, _, _, _, _, _, hout⟩
  all_goals
    rw [hout]
    exact settle_next d

/-- The next sequence never goes back. -/
theorem next_le_transition (hc : Coherent first initial Q d) (hcu : CaughtUp initial d)
    (hq : p.IsData → p.Each Q) (ht : Transition d p d') :
    d.channel.nextExpectedSeq ≤ d'.channel.nextExpectedSeq := by
  have hadvance : InOrder d p →
      d.channel.nextExpectedSeq ≤ (d.advance p).drainGapBuffer.2.channel.nextExpectedSeq := by
    intro ho
    obtain ⟨hco, hcau⟩ := hc.advance hcu ho (hq ho.data)
    exact ((moved_advance ho).trans (hco.drain hcau).2.1.toMoved).next
  cases ht with
  | refuse ho status d' hh hne =>
    rw [← hh.forward.2.2]
    exact UInt64.le_refl _
  | refuseDrain ho hne => exact hadvance ho
  | apply ho hok result hadGap =>
    rw [concludeInOrder_next]
    exact hadvance ho
  | _ => exact UInt64.le_refl _

/-- A stale channel stays stale until it is invalid. -/
theorem stale_transition (hst : d.channel.status = .stale) (hc : Coherent first initial Q d)
    (hcu : CaughtUp initial d) (hq : p.IsData → p.Each Q) (ht : Transition d p d') :
    d'.channel.status = .stale ∨ d'.channel.status = .invalid := by
  cases ht with
  | idle => exact .inl hst
  | fail => exact .inr rfl
  | retain _ _ _ _ hne => exact absurd hst hne
  | finish _ _ hg =>
    rw [hst] at hg
    cases hg
  | announce =>
    refine .inl ?_
    dsimp only
    rw [if_neg fun h => h.1 hst]
    exact hst
  | clear =>
    refine .inl ?_
    dsimp only
    rw [if_neg fun h => h.2.2 hst]
    exact hst
  | store ha => exact absurd hst ha.status
  | refuse => exact .inr rfl
  | refuseDrain => exact .inr rfl
  | apply ho hok result hadGap =>
    obtain ⟨hdr, _⟩ := hc.drained hcu hq ho hok
    obtain ⟨_, _, _, ha⟩ := advance_eq d p
    have hs : (d.advance p).drainGapBuffer.2.channel.status = .stale := by
      rw [hdr.status, ha]
      dsimp only
      rw [hst]
      rfl
    have hsettle : (d.advance p).drainGapBuffer.2.settle.channel.status = .stale := by
      rcases settle_cases (d.advance p).drainGapBuffer.2 with ⟨_, h⟩ | ⟨_, hne, _⟩
      · rw [h]
        exact hs
      · exact absurd hs hne
    rcases concludeInOrder_cases (d.advance p).drainGapBuffer.2 result hadGap with
      ⟨hout, _⟩ | ⟨_, _, hout⟩ | ⟨_, _, hg, _⟩
    · rw [hout]
      exact .inl hsettle
    · rw [hout]
      exact .inr rfl
    · rw [hsettle] at hg
      cases hg

end MoldUdpDecoder

end AstraFeed
