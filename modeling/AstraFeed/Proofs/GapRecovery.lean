import AstraFeed.GapRecovery
import AstraFeed.Proofs.DrainGapBuffer

/-!
# Recovery from gaps

The drain is a sweep over the buffered packets (`Draining`, `Sweep.Progress`), so a packet stays
behind exactly when it is overtaken. A run that covers its stream always gets to the end of it; the
gap buffer is empty then if and only if no step overtook a packet (`gap_recovery_iff`).
-/

namespace AstraFeed

open MoldUdpPacketHeader Wire Probe

namespace MoldUdpDecoder

variable {first : ItchParser} {initial : UInt64} {Q : ℕ → List UInt8 → Prop}
variable {d d' : MoldUdpDecoder} {p : PacketView} {e : SequencedPacket}

/-! ## The buffered packets as intervals -/

theorem buffered_injOn (h : d.channel.gapBuffer.Ok) :
    Set.InjOn (fun e : SequencedPacket => e.seq.toNat) {e | Buffered d e} := by
  intro e he f hf heq
  have he' := (buffered_iff_find h).1 he
  have hf' := (buffered_iff_find h).1 hf
  rw [UInt64.toNat_inj.1 heq, hf'] at he'
  exact (Option.some_inj.1 he').symm

theorem findSome?_range {α : Type} {n : ℕ} {g : ℕ → Option α} {a : α}
    (h : (List.range n).findSome? g = some a) : ∃ i < n, g i = some a ∧ ∀ j < i, g j = none := by
  induction n with
  | zero => cases h
  | succ n ih =>
    rw [List.range_succ, List.findSome?_append] at h
    cases hn : (List.range n).findSome? g with
    | some b =>
      rw [hn] at h
      obtain ⟨i, hi, hgi, hbefore⟩ := ih (hn.trans h)
      exact ⟨i, Nat.lt_succ_of_lt hi, hgi, hbefore⟩
    | none =>
      rw [hn, Option.none_or] at h
      rw [List.findSome?_eq_none_iff] at hn
      refine ⟨n, Nat.lt_succ_self n, ?_, fun j hj => hn j (List.mem_range.2 hj)⟩
      simpa using h

theorem candidate_of_drainCandidate (h : d.channel.gapBuffer.Ok) (hc : d.drainCandidate = some e) :
    Sweep.Candidate (fun e : SequencedPacket => e.seq.toNat) kMaxMessagesPerStoredPacket
      d.channel.nextExpectedSeq.toNat {e | Buffered d e} e := by
  obtain ⟨_, hb, hle, hnear⟩ := find_of_drainCandidate hc
  refine ⟨hb, hle, hnear, fun f hf hfle hfnear => ?_⟩
  obtain ⟨i, hin, hi, hbefore⟩ := findSome?_range hc
  have hil : i ≤ d.channel.nextExpectedSeq.toNat :=
    (Nat.lt_succ_iff.1 hin).trans (min_le_left _ _)
  have hlt := d.channel.nextExpectedSeq.toNat_lt
  by_contra hlater
  -- the packet that begins later would have been found at its smaller distance
  have hfind := find_at_distance h hf hfle
  have hie : e.seq.toNat = d.channel.nextExpectedSeq.toNat - i := by
    rw [(GapBuffer.has_of_find hi).2, toNat_sub_distance hil]
  rw [hbefore _ (by omega)] at hfind
  cases hfind

/-! ## The drain of a stream that is accepted -/

section Accepted

variable {M : ℕ → List UInt8} {last : UInt64}

/-- The parser accepts the messages of `M` from `initial` to `last`. -/
def Accepts (first : ItchParser) (initial last : UInt64) (M : ℕ → List UInt8) : Prop :=
  first.lastError = none ∧ ∀ k < last.toNat - initial.toNat,
    (first.fold M initial.toNat (k + 1)).lastError = none

theorem lastError_of_accepts (hacc : Accepts first initial last M)
    (h : Coherent first initial (fun seq msg => msg = M seq) d)
    (hlen : initial.toNat + d.handed.length ≤ last.toNat) : d.parser.lastError = none := by
  rw [h.parser, foldl_eq_fold h.seqs h.messages]
  cases hn : d.handed.length with
  | zero => exact hacc.1
  | succ k => exact hacc.2 k (by omega)

theorem Hands.lastError_of_ne {seq : UInt64} {msgs : List (List UInt8)} {status : DecodeStatus}
    (h : Hands d seq msgs status d') (hne : status ≠ .ok) : d'.parser.lastError ≠ none := by
  cases h with
  | all => exact absurd rfl hne
  | refused k hk herr => exact herr

/-- What the drain of an accepted stream keeps. -/
structure Sweeping (first : ItchParser) (initial : UInt64) (M : ℕ → List UInt8)
    (d₀ d : MoldUdpDecoder) : Prop where
  draining : Draining first initial (fun seq msg => msg = M seq) d₀ d
  table : d.channel.gapBuffer.Ok
  size_le : d.channel.gapBuffer.size ≤ d₀.channel.gapBuffer.size
  progress : Sweep.Progress (fun e : SequencedPacket => e.seq.toNat) (fun e => e.endSeq.toNat)
    {e | Buffered d₀ e} kMaxMessagesPerStoredPacket d₀.channel.nextExpectedSeq.toNat
    d.channel.nextExpectedSeq.toNat {e | Buffered d e}

variable {d₀ : MoldUdpDecoder}

theorem buffered_short (h : Coherent first initial Q d₀) :
    ∀ e ∈ {e | Buffered d₀ e}, e.endSeq.toNat ≤ e.seq.toNat + kMaxMessagesPerStoredPacket :=
  fun e he => wellFormed_short (h.buffered e he)

theorem erase_size_le (h : d.channel.gapBuffer.Sized) (seq : UInt64) :
    (d.channel.gapBuffer.erase seq).size ≤ d.channel.gapBuffer.size := by
  rcases h.erase_cases seq with ⟨_, herase⟩ | ⟨_, _, _, hsize, _⟩
  · rw [herase]
  · omega

theorem Sweeping.erase (h : Sweeping first initial M d₀ d)
    (h₀ : Coherent first initial (fun seq msg => msg = M seq) d₀)
    (hlt : d₀.channel.gapBuffer.size < GapBuffer.kCapacity)
    (hc : d.drainCandidate = some e) (hend : e.endSeq ≤ d.channel.nextExpectedSeq) :
    Sweeping first initial M d₀ (d.eraseBuffered e.seq) := by
  obtain ⟨_, hb, _, _⟩ := find_of_drainCandidate hc
  have hsize := h.size_le.trans_lt hlt
  refine ⟨h.draining.erase e.seq, (h.table.erase hsize e.seq).1,
    (erase_size_le h.table.size e.seq).trans h.size_le, ?_⟩
  rw [buffered_eraseBuffered (h.table.sound_of_lt hsize) hb]
  exact h.progress.remove (buffered_short h₀) (candidate_of_drainCandidate h.table hc)
    (UInt64.le_iff_toNat_le.1 hend)

theorem Sweeping.apply (h : Sweeping first initial M d₀ d)
    (h₀ : Coherent first initial (fun seq msg => msg = M seq) d₀)
    (htable : d₀.channel.gapBuffer.Ok) (hlt : d₀.channel.gapBuffer.size < GapBuffer.kCapacity)
    (hc : d.drainCandidate = some e) (hend : d.channel.nextExpectedSeq < e.endSeq)
    (hok : (d.processBuffered e).1.status = .ok) :
    Sweeping first initial M d₀
      (((d.processBuffered e).2.eraseBuffered e.seq).setNextExpectedSeq e.endSeq) := by
  obtain ⟨_, hb, _, _⟩ := find_of_drainCandidate hc
  have hsize := h.size_le.trans_lt hlt
  have hbuf : (((d.processBuffered e).2.eraseBuffered e.seq).setNextExpectedSeq
      e.endSeq).channel.gapBuffer = (d.eraseBuffered e.seq).channel.gapBuffer := by
    simp only [setNextExpectedSeq, eraseBuffered]
    rw [processBuffered_gapBuffer]
  refine ⟨h.draining.apply hc hend hok, ?_, ?_, ?_⟩
  · rw [hbuf]
    exact (h.table.erase hsize e.seq).1
  · rw [hbuf]
    exact (erase_size_le h.table.size e.seq).trans h.size_le
  · have hset : {f | Buffered (((d.processBuffered e).2.eraseBuffered e.seq).setNextExpectedSeq
        e.endSeq) f} = {f | Buffered d f} \ {e} := by
      rw [← buffered_eraseBuffered (h.table.sound_of_lt hsize) hb]
      unfold Buffered
      rw [hbuf]
    rw [hset]
    exact h.progress.take (buffered_injOn htable) (buffered_short h₀)
      (candidate_of_drainCandidate h.table hc) (UInt64.lt_iff_toNat_lt.1 hend)

/-- The drain of an accepted stream ends well, with nothing left in reach. -/
theorem sweep_drain (hacc : Accepts first initial last M)
    (h₀ : Coherent first initial (fun seq msg => msg = M seq) d₀) (hcu : CaughtUp initial d₀)
    (htable : d₀.channel.gapBuffer.Ok) (hlt : d₀.channel.gapBuffer.size < GapBuffer.kCapacity)
    (hends : ∀ e, Buffered d₀ e → e.endSeq ≤ last) :
    d₀.drainGapBuffer.1.status = .ok ∧ Sweeping first initial M d₀ d₀.drainGapBuffer.2
      ∧ d₀.drainGapBuffer.2.drainCandidate = none := by
  have hend := drainGapBuffer_rule (I := Sweeping first initial M d₀) (d := d₀)
    (fun d h => h.table.size) (fun d e h hc hle => h.erase h₀ hlt hc hle)
    (fun d e h hc hle hok => h.apply h₀ htable hlt hc hle hok)
    ⟨⟨h₀, hcu, .refl d₀, rfl⟩, htable, le_rfl, .init _ _ _ _ _⟩
  generalize d₀.drainGapBuffer = out at hend ⊢
  obtain ⟨result, d'⟩ := out
  dsimp only at hend ⊢
  generalize result.status = status at hend ⊢
  cases hend with
  | clear d' hd hcand => exact ⟨rfl, hd, hcand⟩
  | refused d' e hd hcand hlt hst =>
    obtain ⟨_, hb, hle, _⟩ := find_of_drainCandidate hcand
    have hw := hd.draining.coherent.buffered e hb
    have hhands := hd.draining.coherent.processBuffered hcand hlt
    have hlast := UInt64.lt_iff_toNat_lt.1 hlt
    rw [hw.endSeq_toNat] at hlast
    obtain ⟨hco, hlen, _⟩ := hd.draining.coherent.hands_tail hd.draining.caughtUp hw.valid
      (UInt64.le_iff_toNat_le.2 hle) hlast.le hw.endSeq_lt hw.messages hhands
    have hel := UInt64.le_iff_toNat_le.1 (hends e (hd.draining.forward.buffered e hb))
    rw [hw.endSeq_toNat] at hel
    exact absurd (lastError_of_accepts hacc hco (hlen.trans hel)) (hhands.lastError_of_ne hst)

end Accepted

/-! ## Steps of a recovery -/

section Recovery

variable {M : ℕ → List UInt8} {last : UInt64} {session : List UInt8}
variable {packets sofar : List PacketView}

/-- A state of a run over some of the packets. -/
structure Recovering (first : ItchParser) (initial last : UInt64) (M : ℕ → List UInt8)
    (session : List UInt8) (packets sofar : List PacketView) (d : MoldUdpDecoder) : Prop where
  reached : Reached first initial (fun seq msg => msg = M seq) d
  ok : d.terminalStatus = .ok
  table : d.channel.gapBuffer.Ok
  pending : d.pendingEndSequence = 0
  status : d.channel.status ≠ .stale
  next_le : d.channel.nextExpectedSeq ≤ last
  watermark_le : d.channel.heartbeatNextSeqHighWatermark ≤ last
  stored : ∀ e, Buffered d e → ∃ q ∈ packets, q.IsData ∧ q.endSeq ≤ last
    ∧ e.seq = q.firstSeq ∧ e.msgCount = q.msgCount ∧ e.data = q.data
  seen : ∀ q ∈ sofar, q.IsData → q.endSeq ≤ d.channel.nextExpectedSeq
    ∨ d.channel.nextExpectedSeq < q.firstSeq
      ∧ ∃ e, Buffered d e ∧ e.seq = q.firstSeq ∧ e.msgCount = q.msgCount
  session : d.firstPacketSeen = true → d.channel.session = session

/-- No buffered packet begins below the next sequence. -/
def Clean (d : MoldUdpDecoder) : Prop :=
  ∀ e, Buffered d e → d.channel.nextExpectedSeq.toNat < e.seq.toNat

/-- A buffered packet is out of the drain's reach for good. -/
def Stuck (d : MoldUdpDecoder) : Prop :=
  ∃ e, Buffered d e ∧ e.seq.toNat + kMaxMessagesPerStoredPacket < d.channel.nextExpectedSeq.toNat

theorem admitted_of_session (h : d.firstPacketSeen = true → d.channel.session = session)
    (hp : p.session = session) : Admitted d p := by
  intro hseen
  unfold ChannelState.sessionMatches
  rw [decide_eq_true_eq, h hseen, ← hp]
  rfl

theorem Recovering.bindSession (h : Recovering first initial last M session packets sofar d)
    (hp : p.session = session) :
    Recovering first initial last M session packets sofar (d.bindSession p.data) := by
  have hr := h.reached.bindSession p.data
  unfold MoldUdpDecoder.bindSession at hr ⊢
  split_ifs at hr ⊢
  · exact h
  · exact ⟨hr, h.ok, h.table, h.pending, h.status, h.next_le, h.watermark_le, h.stored, h.seen,
      fun _ => hp⟩

theorem overtakes_bindSession (data : List UInt8) :
    Overtakes (d.bindSession data) p ↔ Overtakes d p := by
  unfold MoldUdpDecoder.bindSession
  split_ifs <;> rfl

/-- What a step makes of a recovery. -/
structure RecoveryStep (first : ItchParser) (initial last : UInt64) (M : ℕ → List UInt8)
    (session : List UInt8) (packets sofar : List PacketView) (d : MoldUdpDecoder) (p : PacketView)
    (d' : MoldUdpDecoder) : Prop where
  recovering : Recovering first initial last M session packets (sofar ++ [p]) d'
  clean : Clean d → ¬ Overtakes d p → Clean d'
  stuck : Overtakes d p ∨ Stuck d → Stuck d'

/-- A step that changes neither the next sequence nor the gap buffer. -/
theorem Recovering.keep (h : Recovering first initial last M session packets sofar d)
    (hr : Reached first initial (fun seq msg => msg = M seq) d')
    (hok : d'.terminalStatus = .ok) (hpend : d'.pendingEndSequence = 0)
    (hnext : d'.channel.nextExpectedSeq = d.channel.nextExpectedSeq)
    (hbuf : d'.channel.gapBuffer = d.channel.gapBuffer) (hst : d'.channel.status ≠ .stale)
    (hwm : d'.channel.heartbeatNextSeqHighWatermark ≤ last)
    (hs : d'.firstPacketSeen = true → d'.channel.session = session)
    (hp : p.IsData → p.endSeq ≤ d.channel.nextExpectedSeq) :
    RecoveryStep first initial last M session packets sofar d p d' := by
  have hb : ∀ e, Buffered d' e ↔ Buffered d e := by
    intro e
    unfold Buffered
    rw [hbuf]
  refine ⟨⟨hr, hok, hbuf ▸ h.table, hpend, hst, hnext ▸ h.next_le, hwm,
    fun e he => h.stored e ((hb e).1 he), ?_, hs⟩, fun hc _ e he => ?_, fun hst => ?_⟩
  · intro q hq hdata
    rw [hnext]
    rcases List.mem_append.1 hq with hq | hq
    · rcases h.seen q hq hdata with hle | ⟨hlt, e, he, hseq⟩
      · exact .inl hle
      · exact .inr ⟨hlt, e, (hb e).2 he, hseq⟩
    · rw [List.mem_singleton.1 hq] at hdata ⊢
      exact .inl (hp hdata)
  · rw [hnext]
    exact hc e ((hb e).1 he)
  · rcases hst with ⟨hd, _, hlt, _⟩ | ⟨e, he, hfar⟩
    · exact absurd hlt (UInt64.not_lt.2 (hp hd))
    · exact ⟨e, (hb e).2 he, by rw [hnext]; exact hfar⟩

theorem Recovering.heartbeat (h : Recovering first initial last M session packets sofar d)
    (hb : p.IsHeartbeat) (hlast : p.firstSeq ≤ last)
    (hr : Reached first initial (fun seq msg => msg = M seq) (d.processHeartbeat p.firstSeq).2) :
    RecoveryStep first initial last M session packets sofar d p
      (d.processHeartbeat p.firstSeq).2 := by
  have hdata : p.IsData → p.endSeq ≤ d.channel.nextExpectedSeq :=
    fun hd => absurd hb.2 hd.msgCount_ne_zero
  have hh := h.reached.health h.ok
  unfold processHeartbeat at hr ⊢
  dsimp only at hr ⊢
  rw [if_neg fun hc => hc.1 h.pending] at hr ⊢
  by_cases hlt : d.channel.nextExpectedSeq < p.firstSeq
  · rw [if_pos hlt] at hr ⊢
    rw [if_pos ⟨h.status, hh.not_invalid⟩] at hr ⊢
    refine h.keep hr h.ok h.pending rfl rfl (by simp) ?_ h.session hdata
    have hwm := h.watermark_le
    simp only [setStatus, setWatermark]
    rw [UInt64.le_iff_toNat_le] at *
    rw [toNat_max]
    exact max_le hwm hlast
  · rw [if_neg hlt] at hr ⊢
    have hclear : ¬ (d.channel.heartbeatNextSeqHighWatermark ≠ 0
        ∧ d.channel.heartbeatNextSeqHighWatermark ≤ d.channel.nextExpectedSeq) :=
      fun hc => absurd (hh.watermark h.status hc.1) (UInt64.not_lt.2 hc.2)
    rw [if_neg hclear] at hr ⊢
    exact h.keep hr h.ok h.pending rfl rfl h.status h.watermark_le h.session hdata

theorem bufferAhead_of_insert (hst : d.channel.status ≠ .stale)
    (hsize : p.data.length ≤ SequencedPacket.kMaxPacketSize) {r : GapBuffer.InsertResult}
    {b : GapBuffer} (hins : d.channel.gapBuffer.insert p.toSequenced = (r, b))
    (hr : r = .inserted ∨ r = .duplicateIdentical) :
    ∃ n, (d.bufferAhead p p.firstSeq p.msgCount).2 = { d with channel := { d.channel with
      status := .gapDetected
      identicalBufferedRedundantPackets := n
      gapBuffer := b } } := by
  have hins' : (d.setStatus .gapDetected).channel.gapBuffer.insert
      ⟨p.firstSeq, p.receiveStartTicks, p.msgCount, p.data⟩ = (r, b) := hins
  unfold bufferAhead
  dsimp only
  rw [if_neg hst, if_neg (Nat.not_lt.2 hsize), hins']
  rcases hr with rfl | rfl
  · exact ⟨_, rfl⟩
  · exact ⟨_, rfl⟩

/-- A packet ahead of the next sequence is in the gap buffer afterwards. -/
theorem Recovering.ahead (h : Recovering first initial last M session packets sofar d)
    (hp : p ∈ packets) (hd : p.IsData) (hsize : p.data.length ≤ SequencedPacket.kMaxPacketSize)
    (hlast : p.endSeq ≤ last) (hlt : d.channel.nextExpectedSeq < p.firstSeq)
    (hsame : ∀ q ∈ packets, q.IsData → q.firstSeq = p.firstSeq → q.data = p.data)
    (hroom : d.channel.gapBuffer.size < GapBuffer.kCapacity)
    (hr : Reached first initial (fun seq msg => msg = M seq)
      (d.bufferAhead p p.firstSeq p.msgCount).2) :
    RecoveryStep first initial last M session packets sofar d p
      (d.bufferAhead p p.firstSeq p.msgCount).2 := by
  have hover : ¬ Overtakes d p := fun ho => absurd hlt (UInt64.not_lt.2 ho.2.1)
  rcases h.table.insert_cases p.toSequenced hsize with
    ⟨stored, hfind, hins⟩ | ⟨_, _, hfull⟩ | ⟨hnone, _, b, hb, _, hfind, hins⟩
  · -- the packet that is already there was cut from the same bytes
    obtain ⟨hhas, hseq⟩ := h.table.find_iff.1 hfind
    obtain ⟨q, hq, hqd, _, hqs, hqc, hqdata⟩ := h.stored stored hhas
    have hdata : q.data = p.data := hsame q hq hqd (hqs.symm.trans hseq)
    have hcount : stored.msgCount = p.msgCount := by
      rw [hqc]
      unfold PacketView.msgCount
      rw [hdata]
    have hdup : ¬ (stored.msgCount ≠ p.toSequenced.msgCount
        ∨ stored.data ≠ p.toSequenced.data) := by
      rintro (hne | hne)
      · exact hne hcount
      · exact hne (hqdata.trans hdata)
    rw [if_neg hdup] at hins
    obtain ⟨n, hout⟩ := bufferAhead_of_insert h.status hsize hins (.inr rfl)
    rw [hout] at hr ⊢
    refine ⟨⟨hr, h.ok, h.table, h.pending, by simp, h.next_le, h.watermark_le, h.stored, ?_,
      h.session⟩, fun hc _ => hc, fun hs => hs.resolve_left hover⟩
    intro q hq hqd
    rcases List.mem_append.1 hq with hq | hq
    · exact h.seen q hq hqd
    · rw [List.mem_singleton.1 hq]
      exact .inr ⟨hlt, stored, hhas, hseq, hcount⟩
  · exact absurd hfull hroom.ne
  · obtain ⟨n, hout⟩ := bufferAhead_of_insert h.status hsize hins (.inl rfl)
    rw [hout] at hr ⊢
    have hhas : ∀ e, Has GapBuffer.kCapacity b.slots e ↔ e = p.toSequenced ∨ Buffered d e := by
      intro e
      have hbf : Has GapBuffer.kCapacity b.slots e ↔ b.find e.seq = some e := by
        rw [hb.find_iff]
        exact ⟨fun he => ⟨he, rfl⟩, fun he => he.1⟩
      rw [hbf, hfind, buffered_iff_find h.table]
      by_cases hseq : e.seq = p.toSequenced.seq
      · rw [if_pos hseq]
        constructor
        · exact fun he => .inl (Option.some_inj.1 he).symm
        · rintro (rfl | he)
          · rfl
          · rw [hseq, hnone] at he
            cases he
      · rw [if_neg hseq]
        exact ⟨.inr, fun he => he.resolve_left fun heq => hseq (by rw [heq])⟩
    refine ⟨⟨hr, h.ok, hb, h.pending, by simp, h.next_le, h.watermark_le, fun e he => ?_, ?_,
      h.session⟩, fun hc _ e he => ?_, fun hs => ?_⟩
    · rcases (hhas e).1 he with rfl | he
      · exact ⟨p, hp, hd, hlast, rfl, rfl, rfl⟩
      · exact h.stored e he
    · intro q hq hqd
      rcases List.mem_append.1 hq with hq | hq
      · exact (h.seen q hq hqd).imp_right
          fun ⟨hql, e, he, hes⟩ => ⟨hql, e, (hhas e).2 (.inr he), hes⟩
      · rw [List.mem_singleton.1 hq]
        exact .inr ⟨hlt, p.toSequenced, (hhas _).2 (.inl rfl), rfl, rfl⟩
    · rcases (hhas e).1 he with rfl | he
      · exact UInt64.lt_iff_toNat_lt.1 hlt
      · exact hc e he
    · obtain ⟨e, he, hfar⟩ := hs.resolve_left hover
      exact ⟨e, (hhas e).2 (.inr he), hfar⟩

theorem buffered_advance : Buffered (d.advance p) e ↔ Buffered d e := by
  obtain ⟨_, _, _, ha⟩ := advance_eq d p
  rw [ha]
  rfl

/-- An in-order packet of an accepted stream is applied, and the drain after it. -/
theorem Recovering.applied (h : Recovering first initial last M session packets sofar d)
    (hacc : Accepts first initial last M) (ho : InOrder d p) (hslice : p.SliceOf M)
    (hlast : p.endSeq ≤ last) (hroom : d.channel.gapBuffer.size < GapBuffer.kCapacity) :
    ∃ b, (d.applyInOrder p p.firstSeq p.msgCount).2 = b.settle
      ∧ Sweeping first initial M (d.advance p) b ∧ b.drainCandidate = none := by
  have hcu := h.reached.caughtUp (.inl h.ok)
  obtain ⟨_, _, _, ha⟩ := advance_eq d p
  have hbuf : (d.advance p).channel.gapBuffer = d.channel.gapBuffer := by rw [ha]
  obtain ⟨hco, hcau⟩ := h.reached.coherent.advance hcu ho hslice
  have hends : ∀ e, Buffered (d.advance p) e → e.endSeq ≤ last := by
    intro e he
    obtain ⟨q, _, _, hql, hqs, hqc, _⟩ := h.stored e (buffered_advance.1 he)
    rw [SequencedPacket.endSeq, hqs, hqc]
    exact hql
  have hsweep := sweep_drain hacc hco hcau (hbuf ▸ h.table) (hbuf ▸ hroom) hends
  have hlt := UInt64.lt_iff_toNat_lt.1 ho.last
  rw [endSeq_toNat ho.data.endSeq_lt] at hlt
  rcases applyInOrder_cases ho with ⟨status, d', hh, hne, _⟩ | ⟨hne, _⟩ | ⟨_, result, hadGap, hout⟩
  · obtain ⟨hco', hlen, _⟩ := h.reached.coherent.hands_tail hcu ho.data.valid ho.first hlt.le
      ho.data.endSeq_lt hslice hh
    rw [← endSeq_toNat ho.data.endSeq_lt] at hlen
    exact absurd (lastError_of_accepts hacc hco'
      (hlen.trans (UInt64.le_iff_toNat_le.1 hlast))) (hh.lastError_of_ne hne)
  · exact absurd hsweep.1 hne
  · refine ⟨_, ?_, hsweep.2⟩
    rw [hout]
    refine concludeInOrder_of_pending ?_ result hadGap
    rw [hsweep.2.1.draining.forward.pending, (moved_advance ho).pending, h.pending]

/-- Where the drain has ended, a packet seen before is applied or still waits ahead. -/
theorem Recovering.seen_drained (h : Recovering first initial last M session packets sofar d)
    (ho : InOrder d p) {b : MoldUdpDecoder} (hsweep : Sweeping first initial M (d.advance p) b)
    (hcand : b.drainCandidate = none) {q : PacketView} (hq : q ∈ sofar ++ [p]) (hqd : q.IsData) :
    q.endSeq ≤ b.channel.nextExpectedSeq ∨ b.channel.nextExpectedSeq < q.firstSeq
      ∧ ∃ e, Buffered b e ∧ e.seq = q.firstSeq ∧ e.msgCount = q.msgCount := by
  have hmove := (moved_advance ho).trans hsweep.draining.forward.toMoved
  rcases List.mem_append.1 hq with hq | hq
  · rcases h.seen q hq hqd with hle | ⟨_, e, he, hseq, hcount⟩
    · exact .inl (UInt64.le_trans hle hmove.next)
    · have hend : e.endSeq = q.endSeq := by
        rw [SequencedPacket.endSeq, hseq, hcount]
        rfl
      have hshort := wellFormed_short (h.reached.coherent.buffered e he)
      by_cases heb : Buffered b e
      · by_cases hlt : b.channel.nextExpectedSeq < q.firstSeq
        · exact .inr ⟨hlt, e, heb, hseq, hcount⟩
        · have hle := UInt64.le_iff_toNat_le.1 (UInt64.not_lt.1 hlt)
          rw [← hseq] at hle
          have hfar := far_of_drainCandidate hsweep.table hcand heb hle
          refine .inl (UInt64.le_iff_toNat_le.2 ?_)
          rw [← hend]
          omega
      · refine .inl ?_
        rw [← hend]
        exact UInt64.le_iff_toNat_le.2
          (hsweep.progress.gone e (buffered_advance.2 he) heb)
  · rw [List.mem_singleton.1 hq]
    obtain ⟨_, _, _, ha⟩ := advance_eq d p
    have hnext := hsweep.draining.forward.next
    rw [ha] at hnext
    exact .inl hnext

/-- A packet is left behind by the drain exactly when it is overtaken. -/
theorem overtakes_iff (hco : Coherent first initial Q d) (htable : d.channel.gapBuffer.Ok)
    (ho : InOrder d p) {b : MoldUdpDecoder} (hsweep : Sweeping first initial M (d.advance p) b)
    (hcand : b.drainCandidate = none) : Overtakes d p ↔ Stuck b := by
  obtain ⟨_, _, _, ha⟩ := advance_eq d p
  have hset : {e | Buffered (d.advance p) e} = {e | Buffered d e} := by
    ext e
    exact buffered_advance
  have hnext : (d.advance p).channel.nextExpectedSeq = p.endSeq := by rw [ha]
  have hprogress := hsweep.progress
  rw [hset, hnext] at hprogress
  have hiff : ∀ e, Sweep.Overtaken (fun e : SequencedPacket => e.seq.toNat)
      (fun e => e.endSeq.toNat) {e | Buffered d e} kMaxMessagesPerStoredPacket p.endSeq.toNat e
      ↔ Buffered b e ∧ e.seq.toNat + kMaxMessagesPerStoredPacket
        < b.channel.nextExpectedSeq.toNat :=
    fun e => hprogress.overtaken_iff (buffered_injOn htable) (buffered_short hco)
      fun f hf hle => far_of_drainCandidate hsweep.table hcand hf hle
  constructor
  · rintro ⟨_, _, _, e, he⟩
    exact ⟨e, (hiff e).1 he⟩
  · rintro ⟨e, he⟩
    exact ⟨ho.data, ho.first, ho.last, e, (hiff e).2 he⟩

/-- What the drain cannot reach it leaves. -/
theorem stuck_drained (hs : Stuck d) (ho : InOrder d p) {b : MoldUdpDecoder}
    (hsweep : Sweeping first initial M (d.advance p) b) : Stuck b := by
  obtain ⟨e, he, hfar⟩ := hs
  obtain ⟨_, _, _, ha⟩ := advance_eq d p
  have hmove := moved_advance ho
  have hle := UInt64.le_iff_toNat_le.1 (hmove.trans hsweep.draining.forward.toMoved).next
  have hadv := UInt64.le_iff_toNat_le.1 hmove.next
  refine ⟨e, ?_, by omega⟩
  by_contra heb
  obtain ⟨y, hy, _, hyw, _⟩ := hsweep.progress.removed e (buffered_advance.2 he) heb
  have := Sweep.Reaches.le hy
  omega

/-- An in-order packet clears what it reaches. -/
theorem Recovering.inOrder (h : Recovering first initial last M session packets sofar d)
    (hacc : Accepts first initial last M) (ho : InOrder d p) (hslice : p.SliceOf M)
    (hlast : p.endSeq ≤ last) (hroom : d.channel.gapBuffer.size < GapBuffer.kCapacity)
    (hr : Reached first initial (fun seq msg => msg = M seq)
      (d.applyInOrder p p.firstSeq p.msgCount).2) :
    RecoveryStep first initial last M session packets sofar d p
      (d.applyInOrder p p.firstSeq p.msgCount).2 := by
  obtain ⟨b, hout, hsweep, hcand⟩ := h.applied hacc ho hslice hlast hroom
  have hmove := (moved_advance ho).trans hsweep.draining.forward.toMoved
  have hinv : b.channel.status ≠ .invalid ∧ b.channel.status ≠ .stale := by
    rw [hsweep.draining.status]
    exact ⟨advance_status_ne (h.reached.health h.ok).not_invalid (by decide),
      advance_status_ne h.status (by decide)⟩
  obtain ⟨_, _, _, ha⟩ := advance_eq d p
  have hstored : ∀ e, Buffered b e → Buffered d e :=
    fun e he => buffered_advance.1 (hsweep.draining.forward.buffered e he)
  have hnext : b.channel.nextExpectedSeq ≤ last := by
    refine UInt64.le_iff_toNat_le.2 (hsweep.draining.forward.within last.toNat ?_ ?_)
    · rw [ha]
      exact UInt64.le_iff_toNat_le.1 hlast
    · intro e he _
      obtain ⟨q, _, _, hql, hqs, hqc, _⟩ := h.stored e (buffered_advance.1 he)
      rw [SequencedPacket.endSeq, hqs, hqc]
      exact UInt64.le_iff_toNat_le.1 hql
  have hwm : watermarkAt b.channel.heartbeatNextSeqHighWatermark b.channel.nextExpectedSeq
      ≤ last := by
    rcases watermarkAt_eq_zero_or b.channel.heartbeatNextSeqHighWatermark
      b.channel.nextExpectedSeq with ⟨h0, _⟩ | ⟨hw, _⟩
    · rw [h0]
      exact UInt64.zero_le
    · rw [hw, hmove.watermark]
      exact h.watermark_le
  have hstuck : Overtakes d p ∨ Stuck d → Stuck b := by
    rintro (hover | hst)
    · exact (overtakes_iff h.reached.coherent h.table ho hsweep hcand).1 hover
    · exact stuck_drained hst ho hsweep
  rw [hout] at hr ⊢
  rcases settle_cases b with ⟨hbad, _⟩ | ⟨_, _, hs⟩
  · exact absurd hbad (not_or.2 hinv)
  rw [hs] at hr ⊢
  refine ⟨⟨hr, hmove.terminal.trans h.ok, hsweep.table, hmove.pending.trans h.pending, ?_, hnext,
    hwm, fun e he => h.stored e (hstored e he),
    fun q hq hqd => h.seen_drained ho hsweep hcand hq hqd, fun hseen => ?_⟩,
    fun _ hover e he => ?_, hstuck⟩
  · dsimp only
    split_ifs <;> simp
  · exact hmove.session.trans (h.session (hmove.seen.symm.trans hseen))
  · by_contra hle
    have hfar := far_of_drainCandidate hsweep.table hcand he (Nat.not_lt.1 hle)
    exact hover ((overtakes_iff h.reached.coherent h.table ho hsweep hcand).2
      ⟨e, he, Nat.not_le.1 hfar⟩)

/-- A packet of messages of the stream, or a heartbeat, that does not go beyond `last`. -/
def IsCutAt (last : UInt64) (M : ℕ → List UInt8) (p : PacketView) : Prop :=
  p.IsData ∧ p.data.length ≤ SequencedPacket.kMaxPacketSize ∧ p.SliceOf M ∧ p.endSeq ≤ last
    ∨ p.IsHeartbeat ∧ p.firstSeq ≤ last

/-- Packets of one session, identical where they begin alike, of a stream that is accepted. -/
structure CutFrom (first : ItchParser) (initial last : UInt64) (M : ℕ → List UInt8)
    (session : List UInt8) (packets : List PacketView) : Prop where
  accepted : Accepts first initial last M
  session : ∀ p ∈ packets, p.session = session
  identical : ∀ p ∈ packets, ∀ q ∈ packets, p.IsData → q.IsData → p.firstSeq = q.firstSeq →
    p.data = q.data

theorem Recovering.step (hcut : CutFrom first initial last M session packets)
    (h : Recovering first initial last M session packets sofar d) (hkind : IsCutAt last M p)
    (hp : p ∈ packets) (hroom : d.channel.gapBuffer.size < GapBuffer.kCapacity) :
    RecoveryStep first initial last M session packets sofar d p (d.processPacket p).2 := by
  have hb := h.bindSession (hcut.session p hp)
  have hadm := admitted_of_session h.session (hcut.session p hp)
  have hroom' : (d.bindSession p.data).channel.gapBuffer.size < GapBuffer.kCapacity := by
    unfold MoldUdpDecoder.bindSession
    split_ifs <;> exact hroom
  -- the rest is said of the decoder bound to the session
  suffices hstep : RecoveryStep first initial last M session packets sofar (d.bindSession p.data) p
      (d.processPacket p).2 by
    have hbind : (Clean (d.bindSession p.data) ↔ Clean d)
        ∧ (Stuck (d.bindSession p.data) ↔ Stuck d) := by
      unfold MoldUdpDecoder.bindSession
      split_ifs <;> exact ⟨Iff.rfl, Iff.rfl⟩
    have hclean := hstep.clean
    have hstuck := hstep.stuck
    rw [overtakes_bindSession, hbind.1] at hclean
    rw [overtakes_bindSession, hbind.2] at hstuck
    exact ⟨hstep.recovering, hclean, hstuck⟩
  rcases hkind with ⟨hd, hsize, hslice, hlast⟩ | ⟨hbeat, hlast⟩
  · have hr := h.reached.step (p := p) fun _ => hslice
    rw [processPacket_data hd h.ok hadm] at hr ⊢
    dsimp only at hr ⊢
    rw [if_neg fun hc => hc.1 hb.pending] at hr ⊢
    by_cases hold : p.endSeq ≤ (d.bindSession p.data).channel.nextExpectedSeq
    · rw [if_pos hold] at hr ⊢
      exact hb.keep hr hb.ok hb.pending rfl rfl hb.status hb.watermark_le hb.session fun _ => hold
    rw [if_neg hold] at hr ⊢
    by_cases hahead : (d.bindSession p.data).channel.nextExpectedSeq < p.firstSeq
    · rw [if_pos hahead] at hr ⊢
      exact hb.ahead hp hd hsize hlast hahead
        (fun q hq hqd hseq => hcut.identical q hq p hp hqd hd hseq) hroom' hr
    · rw [if_neg hahead] at hr ⊢
      exact hb.inOrder hcut.accepted ⟨hd, UInt64.not_lt.1 hahead, UInt64.not_le.1 hold, .inl hb.pending⟩
        hslice hlast hroom' hr
  · have hr := h.reached.step (p := p) fun hd => absurd hbeat.2 hd.msgCount_ne_zero
    rw [processPacket_heartbeat hbeat h.ok hadm] at hr ⊢
    exact hb.heartbeat hbeat hlast hr

theorem recovering_create {symbols : StockDirectory} {books : BookManager} (hle : initial ≤ last) :
    Recovering (ItchParser.create symbols books) initial last M session packets []
      (create symbols books initial) := by
  have hnone : ∀ e, ¬ Buffered (create symbols books initial) e := by
    rintro e ⟨_, _, h⟩
    cases h
  exact ⟨reached_create symbols books initial _, rfl, GapBuffer.fresh_ok, rfl, by simp [create],
    hle, UInt64.zero_le, fun e he => absurd he (hnone e),
    fun _ h => absurd h List.not_mem_nil, fun h => (by cases h)⟩

/-- Along a run over the packets nothing is left behind until a step overtakes a packet, which then
stays for good. -/
theorem recovering_run {symbols : StockDirectory} {books : BookManager}
    (hrec : Recoverable symbols books initial last M session packets) {rest : List PacketView}
    (hsplit : packets = sofar ++ rest) :
    Recovering (ItchParser.create symbols books) initial last M session packets sofar
      ((create symbols books initial).run sofar)
    ∧ ((∀ before p after, sofar = before ++ p :: after →
        ¬ Overtakes ((create symbols books initial).run before) p) →
      Clean ((create symbols books initial).run sofar))
    ∧ ((∃ before p after, sofar = before ++ p :: after
        ∧ Overtakes ((create symbols books initial).run before) p) →
      Stuck ((create symbols books initial).run sofar)) := by
  induction sofar using List.reverseRecOn generalizing rest with
  | nil =>
    refine ⟨recovering_create hrec.initial_le, fun _ e he => ?_, ?_⟩
    · obtain ⟨_, _, h⟩ := he
      cases h
    · rintro ⟨before, p, after, h, _⟩
      simp at h
  | append_singleton sofar p ih =>
    rw [List.append_assoc] at hsplit
    obtain ⟨hr, hclean, hstuck⟩ := ih hsplit
    have hmem : p ∈ packets := by
      rw [hsplit]
      exact List.mem_append_right _ List.mem_cons_self
    have hstep := hr.step ⟨⟨rfl, hrec.accepted⟩, hrec.session, hrec.identical⟩ (hrec.kinds p hmem)
      hmem (hrec.notFull sofar ([p] ++ rest) hsplit)
    rw [run_snoc]
    refine ⟨hstep.recovering, fun hover => hstep.clean (hclean fun before q after hq => ?_) ?_, ?_⟩
    · exact hover before q (after ++ [p]) (by rw [hq]; simp)
    · exact hover sofar p [] rfl
    · rintro ⟨before, q, after, hq, hover⟩
      refine hstep.stuck ?_
      rcases List.eq_nil_or_concat after with rfl | ⟨after, r, rfl⟩
      · obtain ⟨rfl, hpq⟩ := List.append_inj' hq rfl
        rw [List.singleton_inj.1 hpq]
        exact .inl hover
      · refine .inr (hstuck ⟨before, q, after, ?_, hover⟩)
        rw [List.concat_eq_append, ← List.cons_append, ← List.append_assoc] at hq
        exact (List.append_inj' hq rfl).1

/-- A marker at the next sequence of a channel that misses nothing. -/
theorem marker_not_out_of_sequence {seq : UInt64} (hpend : d.pendingEndSequence = 0)
    (hseq : seq = d.channel.nextExpectedSeq) (hst : d.channel.status = .good)
    (hemp : d.channel.gapBuffer.empty = true)
    (hwm : d.channel.heartbeatNextSeqHighWatermark = 0) :
    (d.processEndOfSession seq).1.status ≠ .invalidSequence := by
  have h1 : ¬ (seq < d.channel.nextExpectedSeq
      ∨ (d.pendingEndSequence ≠ 0 ∧ d.pendingEndSequence ≠ seq)
      ∨ seq < d.channel.heartbeatNextSeqHighWatermark) := by
    rintro (h | h | h)
    · rw [hseq] at h
      exact UInt64.lt_irrefl _ h
    · exact h.1 hpend
    · rw [hwm] at h
      exact UInt64.not_lt_zero h
  have h2 : ¬ d.channel.nextExpectedSeq < seq := by
    rw [hseq]
    exact UInt64.lt_irrefl _
  have h3 : ¬ (d.channel.status ≠ .good ∨ (!d.channel.gapBuffer.empty) = true
      ∨ d.channel.heartbeatNextSeqHighWatermark ≠ 0) := by
    rintro (h | h | h)
    · exact h hst
    · rw [hemp] at h
      cases h
    · exact h hwm
  unfold processEndOfSession
  dsimp only
  rw [if_neg h1, if_neg h2, if_neg h3]
  split_ifs
  · simp [terminalFailure]
  · simp

/-- In a stream of no more than `144` messages no packet is overtaken. -/
theorem Recoverable.not_overtakes_of_short {symbols : StockDirectory} {books : BookManager}
    (hrec : Recoverable symbols books initial last M session packets)
    (hshort : last.toNat ≤ initial.toNat + kMaxMessagesPerStoredPacket) (before : List PacketView)
    (p : PacketView) (after : List PacketView) (hsplit : packets = before ++ p :: after) :
    ¬ Overtakes ((create symbols books initial).run before) p := by
  induction hlen : before.length using Nat.strong_induction_on generalizing before p after with
  | _ n ih =>
    subst hlen
    obtain ⟨hr, hclean, -⟩ := recovering_run hrec hsplit
    have hclean' := hclean fun b q a hbq => by
      refine ih b.length ?_ b q (a ++ p :: after) ?_ rfl
      · rw [hbq]
        simp
      · rw [hsplit, hbq]
        simp
    rintro ⟨hd, -, -, e, hover⟩
    have hinitial : initial.toNat ≤ e.seq.toNat := by
      have hafter := hclean' e hover.mem
      have hcaught := hr.reached.caughtUp (.inl hr.ok)
      unfold CaughtUp at hcaught
      omega
    have hbound : ∀ q ∈ packets, q.IsData →
        q.endSeq.toNat ≤ e.seq.toNat + kMaxMessagesPerStoredPacket := by
      intro q hq hqd
      have hle : q.endSeq ≤ last := by
        rcases hrec.kinds q hq with ⟨-, -, -, hle⟩ | ⟨hbeat, -⟩
        · exact hle
        · exact absurd hbeat.2 hqd.msgCount_ne_zero
      have hle := UInt64.le_iff_toNat_le.1 hle
      omega
    refine Sweep.not_overtaken_of_short (fun f hf => ?_) ?_ hover
    · obtain ⟨q, hq, hqd, -, hqs, hqc, -⟩ := hr.stored f hf
      rw [SequencedPacket.endSeq, hqs, hqc]
      exact hbound q hq hqd
    · exact hbound p (hsplit ▸ List.mem_append_right _ List.mem_cons_self) hd

/-- A run over packets that cover an accepted stream gets to its end; nothing is kept back then if
and only if no packet of the run overtook a buffered one. -/
theorem gap_recovery_iff {symbols : StockDirectory} {books : BookManager}
    (hrec : Recoverable symbols books initial last M session packets) :
    Recovered last session ((create symbols books initial).run packets)
      ↔ ∀ before p after, packets = before ++ p :: after →
        ¬ Overtakes ((create symbols books initial).run before) p := by
  obtain ⟨hr, hclean, hstuck⟩ := recovering_run hrec (List.append_nil packets).symm
  generalize hd : (create symbols books initial).run packets = d at *
  have hh := hr.reached.health hr.ok
  have hcu := hr.reached.caughtUp (.inl hr.ok)
  have hnext : d.channel.nextExpectedSeq = last := by
    by_contra hne
    have hle := UInt64.le_iff_toNat_le.1 hr.next_le
    have hlt : d.channel.nextExpectedSeq.toNat < last.toNat :=
      lt_of_le_of_ne hle fun heq => hne (UInt64.toNat_inj.1 heq)
    unfold CaughtUp at hcu
    obtain ⟨q, hq, hqd, hfirst, hend⟩ := hrec.covers d.channel.nextExpectedSeq.toNat (by omega) hlt
    rcases hr.seen q hq hqd with hle | ⟨hql, _⟩
    · rw [UInt64.le_iff_toNat_le, endSeq_toNat hqd.endSeq_lt] at hle
      omega
    · rw [UInt64.lt_iff_toNat_lt] at hql
      omega
  have hwm : d.channel.heartbeatNextSeqHighWatermark = 0 := by
    by_contra hne
    have hlt := hh.watermark hr.status hne
    rw [hnext] at hlt
    exact absurd hlt (UInt64.not_lt.2 hr.watermark_le)
  constructor
  · intro hrecovered before p after hsplit hover
    obtain ⟨e, he, _⟩ := hstuck ⟨before, p, after, hsplit, hover⟩
    exact GapBuffer.Sized.empty_iff hr.table.size |>.1 hrecovered.empty e he
  · intro hnone
    have hemp : d.channel.gapBuffer.empty = true := by
      refine (GapBuffer.Sized.empty_iff hr.table.size).2 fun e he => ?_
      have hlt := hclean hnone e he
      have hw := hr.reached.coherent.buffered e he
      obtain ⟨q, _, hqd, hql, hqs, hqc, _⟩ := hr.stored e he
      rw [UInt64.le_iff_toNat_le, endSeq_toNat hqd.endSeq_lt, ← hqs, ← hnext] at hql
      omega
    have hgood := (hh.good_iff hr.status).2 ⟨hemp, hwm⟩
    refine ⟨hnext, hemp, hwm, hgood, fun m hm hsess hlast => ?_⟩
    rw [processPacket_endOfSession hm hr.ok (admitted_of_session hr.session hsess)]
    unfold MoldUdpDecoder.bindSession
    split_ifs
    · exact marker_not_out_of_sequence hr.pending (hlast.trans hnext.symm) hgood hemp hwm
    · refine marker_not_out_of_sequence hr.pending (hlast.trans hnext.symm) ?_ ?_ ?_
      · exact hgood
      · exact hemp
      · exact hwm

end Recovery

/-! ## A packet that stays behind -/

end MoldUdpDecoder

theorem ItchParser.handleMessage_breakerStatus {p : ItchParser}
    (hphase : p.channelPhase = .startupDirectorySpin ∨ p.channelPhase = .startupAdminSpin)
    (h : p.lastError = none) (hs : p.lastMessageSkipped = false) :
    (p.handleMessage breakerStatus).2 = { p with channelPhase := .startupAdminSpin } := by
  obtain ⟨symbols, books, phase, skipped, error, prepared⟩ := p
  subst h hs
  rcases hphase with rfl | rfl <;> rfl

/-- The parser accepts the quiet stream. -/
theorem ItchParser.fold_quietStream (symbols : StockDirectory) (books : BookManager) (k : ℕ) :
    ∃ phase, (phase = .startupDirectorySpin ∨ phase = .startupAdminSpin)
      ∧ (ItchParser.create symbols books).fold quietStream 1 (k + 1)
        = { ItchParser.create symbols books with channelPhase := phase } := by
  induction k with
  | zero => exact ⟨_, .inl rfl, handleMessage_start symbols books⟩
  | succ k ih =>
    obtain ⟨phase, hphase, hfold⟩ := ih
    refine ⟨.startupAdminSpin, .inr rfl, ?_⟩
    unfold fold at hfold ⊢
    rw [List.range'_concat, List.foldl_append, hfold]
    have hmsg : quietStream (1 + 1 * (k + 1)) = breakerStatus := if_neg (by omega)
    rw [List.foldl_cons, List.foldl_nil, hmsg]
    exact handleMessage_breakerStatus hphase rfl rfl

namespace MoldUdpDecoder

open PacketView

/-- The first sequences of the packets, and how many messages they carry. -/
theorem sequences_latePackets :
    latePackets.map (fun p => (p.firstSeq.toNat, p.msgCount.toNat))
      = (2, 1) :: (List.range 12).map (fun k => (3 + 12 * k, 12)) ++ [(1, 2)] := by
  decide +kernel

/-- Packets that are cut from the quiet stream. -/
structure Quiet (last : UInt64) (packets : List PacketView) : Prop where
  initial_le : 1 ≤ last
  session : ∀ p ∈ packets, p.session = List.replicate kSessionSize (byte ' ')
  kinds : ∀ p ∈ packets, p.IsData ∧ p.data.length ≤ SequencedPacket.kMaxPacketSize
    ∧ p.messages = (List.range' p.firstSeq.toNat p.messages.length).map quietStream
    ∧ p.endSeq ≤ last
  identical : ∀ p ∈ packets, ∀ q ∈ packets, p.firstSeq = q.firstSeq → p.data = q.data
  covers : ∀ seq < last.toNat, 1 ≤ seq → ∃ a ∈ packets.map fun p =>
    (p.firstSeq.toNat, p.msgCount.toNat), a.1 ≤ seq ∧ seq < a.1 + a.2

theorem Quiet.recoverable {symbols : StockDirectory} {books : BookManager} {last : UInt64}
    {packets : List PacketView} (h : Quiet last packets)
    (hroom : ∀ n ≤ packets.length, ((create symbols books 1).run
      (packets.take n)).channel.gapBuffer.size < GapBuffer.kCapacity) :
    Recoverable symbols books 1 last quietStream (List.replicate kSessionSize (byte ' '))
      packets := by
  refine ⟨h.initial_le, h.session, fun p hp => ?_, fun p hp q hq _ _ => h.identical p hp q hq,
    fun seq h1 hlt => ?_, fun k _ => ?_, ?_⟩
  · obtain ⟨hd, hlen, hm, hend⟩ := h.kinds p hp
    exact .inl ⟨hd, hlen, sliceOf_of_messages_eq hm, hend⟩
  · obtain ⟨a, ha, hc⟩ := h.covers seq hlt h1
    obtain ⟨p, hp, rfl⟩ := List.mem_map.1 ha
    exact ⟨p, hp, (h.kinds p hp).1, hc⟩
  · obtain ⟨phase, _, hfold⟩ := ItchParser.fold_quietStream symbols books k
    exact congrArg (·.lastError) hfold
  · intro before after hsplit
    have hlen : before.length ≤ packets.length := by
      rw [hsplit, List.length_append]
      exact Nat.le_add_right _ _
    have hb := hroom before.length hlen
    rwa [hsplit, List.take_left] at hb

theorem quiet_latePackets : Quiet 147 latePackets := by
  refine ⟨by decide, by decide +kernel, by decide +kernel, by decide +kernel, ?_⟩
  rw [sequences_latePackets]
  decide +kernel

/-- One packet is left in the buffer in the end. -/
theorem size_latePackets : ∃ books, BookManager.create ⟨⟨1, 1⟩, ⟨1⟩⟩ 4096 = .ok books
    ∧ (∀ n < 14, ((create .fresh books 1).run (latePackets.take n)).channel.gapBuffer.size
      < GapBuffer.kCapacity)
    ∧ ((create .fresh books 1).run latePackets).channel.gapBuffer.size = 1 := by
  refine ⟨_, rfl, ?_⟩
  decide +kernel

theorem latePackets_kept : ∃ books, BookManager.create ⟨⟨1, 1⟩, ⟨1⟩⟩ 4096 = .ok books
    ∧ Recoverable .fresh books 1 147 quietStream (List.replicate kSessionSize (byte ' ')) latePackets
    ∧ ((create .fresh books 1).run latePackets).channel.gapBuffer.empty = false := by
  obtain ⟨books, hbooks, hroom, hsize⟩ := size_latePackets
  refine ⟨books, hbooks, quiet_latePackets.recoverable fun n hn => ?_, ?_⟩
  · rcases Nat.lt_or_eq_of_le hn with hlt | rfl
    · exact hroom n hlt
    · rw [List.take_of_length_le (by simp [latePackets]), hsize]
      unfold GapBuffer.kCapacity
      omega
  · unfold GapBuffer.empty
    rw [hsize]
    rfl

/-- The packets cover their stream, and one of them is overtaken and kept. -/
theorem latePackets_not_recovered : ∃ books, BookManager.create ⟨⟨1, 1⟩, ⟨1⟩⟩ 4096 = .ok books
    ∧ Recoverable .fresh books 1 147 quietStream (List.replicate kSessionSize (byte ' ')) latePackets
    ∧ ¬ Recovered 147 (List.replicate kSessionSize (byte ' '))
      ((create .fresh books 1).run latePackets) := by
  obtain ⟨books, hbooks, hrec, hkept⟩ := latePackets_kept
  exact ⟨books, hbooks, hrec, fun h => absurd (hkept.symm.trans h.empty) (by decide)⟩

theorem overlappingPackets_recoverable {books : BookManager}
    (hbooks : BookManager.create ⟨⟨1, 1⟩, ⟨1⟩⟩ 4096 = .ok books) :
    Recoverable .fresh books 1 9 quietStream (List.replicate kSessionSize (byte ' '))
      overlappingPackets := by
  have hquiet : Quiet 9 overlappingPackets := by
    refine ⟨by decide, ?_, ?_, ?_, ?_⟩ <;> decide +kernel
  refine hquiet.recoverable ?_
  cases hbooks
  decide +kernel

/-- Some packet of the late ones overtakes a buffered one. The overlapping ones are too few for
that, and are recovered. -/
theorem gap_recovery_iff_latePackets : ∃ books, BookManager.create ⟨⟨1, 1⟩, ⟨1⟩⟩ 4096 = .ok books
    ∧ (¬ ∀ before p after, latePackets = before ++ p :: after →
      ¬ Overtakes ((create .fresh books 1).run before) p)
    ∧ Recovered 9 (List.replicate kSessionSize (byte ' '))
      ((create .fresh books 1).run overlappingPackets) := by
  obtain ⟨books, hbooks, hrec, hkept⟩ := latePackets_kept
  refine ⟨books, hbooks, fun hnone => ?_, ?_⟩
  · have hall := (gap_recovery_iff hrec).2 hnone
    exact absurd (hkept.symm.trans hall.empty) (by decide)
  · have hrec' := overlappingPackets_recoverable hbooks
    exact (gap_recovery_iff hrec').2 (hrec'.not_overtakes_of_short (by decide))

end MoldUdpDecoder

end AstraFeed
