import AstraFeed.Proofs.DecoderRun
import AstraFeed.Proofs.GapBufferRun

/-!
# The drain of the gap buffer

In every state of a run the table finds what it holds, and no stored packet is longer than the
search reaches back. So the drain ends with nothing left that contains the next sequence, and what
it handed over continues the messages before (`drain_complete`).
-/

namespace AstraFeed

open MoldUdpPacketHeader Wire Probe

namespace MoldUdpDecoder

variable {first : ItchParser} {initial : UInt64} {Q : ℕ → List UInt8 → Prop}
variable {d d' : MoldUdpDecoder} {p : PacketView} {e : SequencedPacket}

/-! ## What the table finds -/

theorem buffered_iff_find (h : d.channel.gapBuffer.Ok) :
    Buffered d e ↔ d.channel.gapBuffer.find e.seq = some e := by
  rw [h.find_iff]
  exact ⟨fun he => ⟨he, rfl⟩, fun he => he.1⟩

/-- A packet that is erased is gone, and no other. -/
theorem buffered_eraseBuffered (h : d.channel.gapBuffer.Sound) {c : SequencedPacket}
    (hc : Buffered d c) :
    {e | Buffered (d.eraseBuffered c.seq) e} = {e | Buffered d e} \ {c} := by
  have hb : (d.eraseBuffered c.seq).channel.gapBuffer.Ok := (h.erase c.seq).ok
  ext e
  rw [Set.mem_sdiff, Set.mem_ofPred_eq, Set.mem_ofPred_eq, Set.mem_singleton_iff,
    buffered_iff_find hb, buffered_iff_find h.ok]
  change (d.channel.gapBuffer.erase c.seq).find e.seq = some e ↔ _
  rw [h.find_erase]
  by_cases hseq : e.seq = c.seq
  · rw [if_pos hseq]
    refine iff_of_false (by simp) fun hand => hand.2 ?_
    rw [hseq, (buffered_iff_find h.ok).1 hc] at hand
    exact (Option.some_inj.1 hand.1).symm
  · rw [if_neg hseq]
    exact ⟨fun he => ⟨he, fun hec => hseq (by rw [hec])⟩, fun he => he.1⟩

/-- A stored packet has at most `144` messages. -/
theorem wellFormed_short (h : e.WellFormed Q) :
    e.endSeq.toNat ≤ e.seq.toNat + kMaxMessagesPerStoredPacket := by
  have hlen := validateLoop_length h.valid
  have hsize := h.size
  rw [h.endSeq_toNat]
  simp only [kMaxMessagesPerStoredPacket, kMinimumFramedItchMessageBytes, kHeaderSize,
    SequencedPacket.kMaxPacketSize] at *
  omega

/-- The table is asked for a packet by its distance from the next sequence. -/
theorem find_at_distance (h : d.channel.gapBuffer.Ok) (he : Buffered d e)
    (hle : e.seq.toNat ≤ d.channel.nextExpectedSeq.toNat) :
    d.channel.gapBuffer.find (d.channel.nextExpectedSeq
      - (d.channel.nextExpectedSeq.toNat - e.seq.toNat).toUInt64) = some e := by
  have hseq : d.channel.nextExpectedSeq
      - (d.channel.nextExpectedSeq.toNat - e.seq.toNat).toUInt64 = e.seq := by
    rw [← UInt64.toNat_inj, toNat_sub_distance (by omega)]
    omega
  rw [hseq]
  exact (buffered_iff_find h).1 he

theorem far_of_drainCandidate (h : d.channel.gapBuffer.Ok) (hc : d.drainCandidate = none)
    (he : Buffered d e) (hle : e.seq.toNat ≤ d.channel.nextExpectedSeq.toNat) :
    ¬ d.channel.nextExpectedSeq.toNat ≤ e.seq.toNat + kMaxMessagesPerStoredPacket := by
  intro hnear
  unfold drainCandidate at hc
  rw [List.findSome?_eq_none_iff] at hc
  have hnone := hc (d.channel.nextExpectedSeq.toNat - e.seq.toNat)
    (List.mem_range.2 (Nat.lt_succ_of_le (le_min (by omega) (by omega))))
  rw [find_at_distance h he hle] at hnone
  cases hnone

/-! ## What is handed over -/

/-- Messages handed over are recorded with the sequences from the first one on. -/
theorem handed_handAll (d : MoldUdpDecoder) (seq : UInt64) {msgs : List (List UInt8)}
    (hfit : seq.toNat + msgs.length < 2 ^ 64) :
    ∃ new, (d.handAll seq msgs).handed = d.handed ++ new ∧ new.map (·.2) = msgs
      ∧ new.map (·.1.toNat) = List.range' seq.toNat msgs.length := by
  induction msgs generalizing d seq with
  | nil => exact ⟨[], (List.append_nil _).symm, rfl, rfl⟩
  | cons msg msgs ih =>
    have hnext : (seq + 1).toNat = seq.toNat + 1 := toNat_add_one hfit
    rw [List.length_cons] at hfit
    obtain ⟨new, hhanded, hmsgs, hseqs⟩ :=
      ih (d.handMessage seq msg) (seq + 1) (by omega)
    refine ⟨(seq, msg) :: new, ?_, ?_, ?_⟩
    · rw [handAll, hhanded, MoldUdpDecoder.handMessage, List.append_assoc]
      rfl
    · rw [List.map_cons, hmsgs]
    · rw [List.map_cons, hseqs, hnext, List.length_cons, List.range'_succ]

/-- The same up to a message that is refused. -/
theorem Hands.handed {seq : UInt64} {msgs : List (List UInt8)} {status : DecodeStatus}
    (h : Hands d seq msgs status d') (hfit : seq.toNat + msgs.length < 2 ^ 64) :
    ∃ new, d'.handed = d.handed ++ new ∧ new.map (·.2) <+: msgs
      ∧ new.map (·.1.toNat) = List.range' seq.toNat new.length
      ∧ (status = .ok → new.length = msgs.length) := by
  cases h with
  | all =>
    obtain ⟨new, hhanded, hmsgs, hseqs⟩ := handed_handAll d seq hfit
    have hlen : new.length = msgs.length := by rw [← hmsgs, List.length_map]
    exact ⟨new, hhanded, hmsgs ▸ List.prefix_rfl, hlen ▸ hseqs, fun _ => hlen⟩
  | refused k hk _ =>
    have hle : (msgs.take (k + 1)).length ≤ msgs.length := List.length_take_le' _ _
    obtain ⟨new, hhanded, hmsgs, hseqs⟩ :=
      handed_handAll d seq (show seq.toNat + (msgs.take (k + 1)).length < 2 ^ 64 by omega)
    have hlen : new.length = (msgs.take (k + 1)).length := by rw [← hmsgs, List.length_map]
    exact ⟨new, hhanded, hmsgs ▸ List.take_prefix _ _, hlen ▸ hseqs, fun hok => by cases hok⟩

theorem Extends.nil (d : MoldUdpDecoder) : Extends d d [] :=
  ⟨(List.append_nil _).symm, rfl, by simp⟩

/-- What is handed over from where other messages end continues them. -/
theorem Extends.append {d₀ : MoldUdpDecoder} {msgs msgs' : List (UInt64 × List UInt8)}
    (h : Extends d₀ d msgs)
    (hnext : d.channel.nextExpectedSeq.toNat = d₀.channel.nextExpectedSeq.toNat + msgs.length)
    (hsub : ∀ e, Buffered d e → Buffered d₀ e) (h' : Extends d d' msgs') :
    Extends d₀ d' (msgs ++ msgs') where
  handed := by rw [h'.handed, h.handed, List.append_assoc]
  seqs := by
    rw [List.map_append, h.seqs, h'.seqs, hnext, List.range'_append_1, List.length_append]
  stored := by
    intro m hm
    rcases List.mem_append.1 hm with hm | hm
    · exact h.stored m hm
    · obtain ⟨e, he, hi⟩ := h'.stored m hm
      exact ⟨e, hsub e he, hi⟩

/-- The tail of a candidate is handed over. -/
theorem extends_processBuffered (hw : e.WellFormed Q)
    (hcand : d.drainCandidate = some e) (hlt : d.channel.nextExpectedSeq < e.endSeq) :
    ∃ msgs, Extends d (d.processBuffered e).2 msgs
      ∧ ((d.processBuffered e).1.status = .ok →
        d.channel.nextExpectedSeq.toNat + msgs.length = e.endSeq.toNat) := by
  obtain ⟨_, hb, hle, _⟩ := find_of_drainCandidate hcand
  have hhands := hands_processBuffered hw hcand hlt
  have hend := hw.endSeq_lt
  have hlen : (e.messages.drop (d.channel.nextExpectedSeq.toNat - e.seq.toNat)).length
      = e.msgCount.toNat - (d.channel.nextExpectedSeq.toNat - e.seq.toNat) := by
    rw [List.length_drop, SequencedPacket.messages, length_framedMessages]
  rw [UInt64.lt_iff_toNat_lt, hw.endSeq_toNat] at hlt
  obtain ⟨new, hhanded, hprefix, hseqs, hall⟩ := hhands.handed (by omega)
  refine ⟨new, ⟨hhanded, hseqs, fun m hm => ⟨e, hb, ?_⟩⟩, fun hok => ?_⟩
  · -- the message's place in the tail is its sequence's distance from the next one
    obtain ⟨j, hj, hnew⟩ := List.mem_iff_getElem.1 hm
    refine ⟨d.channel.nextExpectedSeq.toNat - e.seq.toNat + j, ?_, ?_⟩
    · have hmap : j < (new.map (·.2)).length := by rwa [List.length_map]
      rw [← List.getElem?_drop, List.prefix_iff_getElem?.1 hprefix j hmap, List.getElem_map, hnew]
    · have hseq : (new.map (·.1.toNat))[j]? = some m.1.toNat := by
        rw [List.getElem?_map, List.getElem?_eq_getElem hj, hnew]
        rfl
      rw [hseqs, List.getElem?_range' hj] at hseq
      have := Option.some_inj.1 hseq
      omega
  · rw [hall hok, hlen, hw.endSeq_toNat]
    omega

/-! ## Rounds -/

/-- The table finds what it holds, and holds packets that were valid. -/
structure Holding (d : MoldUdpDecoder) : Prop where
  sound : d.channel.gapBuffer.Sound
  stored : ∀ e, Buffered d e → e.WellFormed fun _ _ => True

theorem Holding.congr (h : Holding d) (hbuf : d'.channel.gapBuffer = d.channel.gapBuffer) :
    Holding d' := by
  refine ⟨hbuf ▸ h.sound, fun e he => h.stored e ?_⟩
  unfold Buffered at he ⊢
  rwa [hbuf] at he

theorem Holding.eraseBuffered (h : Holding d) (seq : UInt64) : Holding (d.eraseBuffered seq) :=
  ⟨h.sound.erase seq, fun e he => h.stored e (buffered_erase h.sound.ok.size seq he)⟩

/-- A stored packet is no larger than a slot, and has no more messages than the search reaches back
for. -/
theorem Holding.bounded (h : Holding d) (he : Buffered d e) :
    e.data.length ≤ SequencedPacket.kMaxPacketSize
      ∧ kHeaderSize + kMinimumFramedItchMessageBytes * e.msgCount.toNat ≤ e.data.length
      ∧ e.msgCount.toNat ≤ kMaxMessagesPerStoredPacket := by
  have hw := h.stored e he
  have hshort := wellFormed_short hw
  rw [hw.endSeq_toNat] at hshort
  exact ⟨hw.size, validateLoop_length hw.valid, by omega⟩

theorem Holding.inRange (h : Holding d) : InRange d where
  candidate := by
    intro distance hle
    rw [toNat_sub_distance (by omega)]
    omega
  packetEnd := fun seq e hfind => (h.stored e (GapBuffer.has_of_find hfind).1).endSeq_toNat
  start := by
    intro e hcand hlt
    obtain ⟨_, hb, hle, _⟩ := find_of_drainCandidate hcand
    rw [UInt64.lt_iff_toNat_lt, (h.stored e hb).endSeq_toNat] at hlt
    exact ⟨hle, hlt⟩

theorem Holding.dropsOne (h : Holding d) {a a' : DecodeResult}
    (hround : drainRound (a, d) = .inr (a', d')) : DropsOne d d' := by
  obtain ⟨e, hcand, hbuf⟩ := drainRound_gapBuffer hround
  have hb := (find_of_drainCandidate hcand).2.1
  refine ⟨e, hb, fun f => ?_, drainRound_size h.sound.ok.size hround⟩
  have hset := Set.ext_iff.1 (buffered_eraseBuffered h.sound hb) f
  unfold Buffered at hset ⊢
  rw [hbuf]
  exact hset

/-- With nothing left in reach, no packet contains the next sequence. -/
theorem Holding.not_contains (h : Holding d) (hc : d.drainCandidate = none) (he : Buffered d e) :
    ¬ e.Contains d.channel.nextExpectedSeq.toNat := by
  rintro ⟨hle, hlt⟩
  have hshort := (h.bounded he).2.2
  exact far_of_drainCandidate h.sound.ok hc he hle (by omega)

/-- What the rounds of the drain keep. -/
structure Drained (d₀ d : MoldUdpDecoder) : Prop where
  holding : Holding d
  stored : ∀ e, Buffered d e → Buffered d₀ e
  handed : ∃ msgs, Extends d₀ d msgs
    ∧ d.channel.nextExpectedSeq.toNat = d₀.channel.nextExpectedSeq.toNat + msgs.length

variable {d₀ : MoldUdpDecoder}

theorem Drained.erase (h : Drained d₀ d) (seq : UInt64) : Drained d₀ (d.eraseBuffered seq) := by
  obtain ⟨msgs, hext, hnext⟩ := h.handed
  exact ⟨h.holding.eraseBuffered seq,
    fun e he => h.stored e (buffered_erase h.holding.sound.ok.size seq he),
    msgs, ⟨hext.handed, hext.seqs, hext.stored⟩, hnext⟩

theorem Drained.processBuffered (h : Drained d₀ d) (hcand : d.drainCandidate = some e)
    (hlt : d.channel.nextExpectedSeq < e.endSeq) :
    ∃ msgs, Extends d₀ (d.processBuffered e).2 msgs ∧ ((d.processBuffered e).1.status = .ok →
      e.endSeq.toNat = d₀.channel.nextExpectedSeq.toNat + msgs.length) := by
  obtain ⟨msgs, hext, hnext⟩ := h.handed
  have hw := h.holding.stored e (find_of_drainCandidate hcand).2.1
  obtain ⟨new, hnew, hend⟩ := extends_processBuffered hw hcand hlt
  refine ⟨msgs ++ new, hext.append hnext h.stored hnew, fun hok => ?_⟩
  rw [← hend hok, hnext, List.length_append, Nat.add_assoc]

theorem Drained.apply (h : Drained d₀ d) (hcand : d.drainCandidate = some e)
    (hlt : d.channel.nextExpectedSeq < e.endSeq) (hok : (d.processBuffered e).1.status = .ok) :
    Drained d₀ (((d.processBuffered e).2.eraseBuffered e.seq).setNextExpectedSeq e.endSeq) := by
  obtain ⟨msgs, hext, hnext⟩ := h.processBuffered hcand hlt
  have hbuf : (((d.processBuffered e).2.eraseBuffered e.seq).setNextExpectedSeq
      e.endSeq).channel.gapBuffer = (d.eraseBuffered e.seq).channel.gapBuffer :=
    congrArg (·.erase e.seq) (processBuffered_gapBuffer e)
  have herased := h.erase e.seq
  refine ⟨herased.holding.congr hbuf, fun f hf => herased.stored f ?_,
    msgs, ⟨hext.handed, hext.seqs, hext.stored⟩, hnext hok⟩
  unfold Buffered at hf ⊢
  rwa [hbuf] at hf

theorem drained_refl (h : Holding d) : Drained d d :=
  ⟨h, fun _ he => he, [], .nil d, (Nat.add_zero _).symm⟩

/-! ## Runs -/

theorem sound_drainGapBuffer (h : d.channel.gapBuffer.Sound) :
    d.drainGapBuffer.2.channel.gapBuffer.Sound := by
  have hend := drainGapBuffer_rule (I := fun d => d.channel.gapBuffer.Sound) (d := d)
    (fun d h => h.ok.size) (fun d e h _ _ => h.erase e.seq)
    (fun d e h _ _ _ => by
      change ((d.processBuffered e).2.channel.gapBuffer.erase e.seq).Sound
      rw [processBuffered_gapBuffer]
      exact h.erase e.seq) h
  generalize d.drainGapBuffer = out at hend ⊢
  obtain ⟨result, d'⟩ := out
  generalize result.status = status at hend
  cases hend with
  | clear d' hd _ => exact hd
  | refused d' e hd _ _ _ =>
    change ((d'.processBuffered e).2.channel.gapBuffer.erase e.seq).Sound
    rw [processBuffered_gapBuffer]
    exact hd.erase e.seq

theorem advance_gapBuffer (d : MoldUdpDecoder) (p : PacketView) :
    (d.advance p).channel.gapBuffer = d.channel.gapBuffer := by
  obtain ⟨_, _, _, ha⟩ := advance_eq d p
  rw [ha]

theorem sound_transition (h : d.channel.gapBuffer.Sound) (ht : Transition d p d') :
    d'.channel.gapBuffer.Sound := by
  have hdrain : (d.advance p).drainGapBuffer.2.channel.gapBuffer.Sound :=
    sound_drainGapBuffer (by rwa [advance_gapBuffer])
  cases ht with
  | store => exact h.insert p.toSequenced
  | refuse ho status d' hh hne =>
    change d'.channel.gapBuffer.Sound
    rw [hh.forward.2.1]
    exact h
  | refuseDrain => exact hdrain
  | apply ho hok result hadGap =>
    rcases concludeInOrder_cases (d.advance p).drainGapBuffer.2 result hadGap with
      ⟨hout, _⟩ | ⟨_, _, hout⟩ | ⟨_, _, _, _, _, _, hout⟩
    all_goals
      rw [hout]
      exact (settle_gapBuffer (d.advance p).drainGapBuffer.2).symm ▸ hdrain
  | _ => exact h

theorem sound_run (symbols : StockDirectory) (books : BookManager) (initial : UInt64)
    (packets : List PacketView) :
    ((create symbols books initial).run packets).channel.gapBuffer.Sound := by
  refine run_induction (I := fun d => d.channel.gapBuffer.Sound) (P := fun _ => True)
    (fun d p _ h => ?_) GapBuffer.fresh_sound fun _ _ => trivial
  refine processPacket_induction (I := fun _ d' => d'.channel.gapBuffer.Sound) (fun _ => h) ?_
  rintro b (rfl | rfl) _ d' ht
  · exact sound_transition h ht
  · exact sound_transition ((bindSession_gapBuffer p.data).symm ▸ h) ht

/-- An in-order packet whose own messages are accepted has advanced the decoder. -/
theorem applyOwn_eq_some (ho : InOrder d p) (h : d.applyOwn p p.firstSeq p.msgCount = some d') :
    d' = d.advance p := by
  have hhands := ho.hands
  unfold applyOwn at h
  dsimp only at h hhands
  generalize d.processSequencedPacket p.data p.firstSeq p.msgCount _ p.receiveStartTicks = out
    at h hhands
  by_cases hst : out.1.status ≠ .ok
  · rw [if_pos hst] at h
    cases h
  · rw [if_neg hst] at h
    rw [not_not.1 hst] at hhands
    rw [← Option.some_inj.1 h, hhands.eq_handAll]
    rfl

/-- Then the gap buffer is drained, and the drain decides how the packet ends. -/
theorem applyInOrder_of_applyOwn {packet : PacketView} {firstSeq : UInt64} {msgCount : UInt16}
    (h : d.applyOwn packet firstSeq msgCount = some d') :
    ∃ result hadGap, d.applyInOrder packet firstSeq msgCount
      = if d'.drainGapBuffer.1.status ≠ .ok then
          d'.drainGapBuffer.2.terminalFailure d'.drainGapBuffer.1.status
        else d'.drainGapBuffer.2.concludeInOrder result hadGap := by
  unfold applyOwn at h
  unfold applyInOrder
  dsimp only at h ⊢
  generalize d.processSequencedPacket packet.data firstSeq msgCount _ packet.receiveStartTicks
    = out at h ⊢
  by_cases hst : out.1.status ≠ .ok
  · rw [if_pos hst] at h
    cases h
  · rw [if_neg hst] at h ⊢
    rw [← Option.some_inj.1 h]
    exact ⟨_, _, rfl⟩

theorem inOrder_of_bindSession {data : List UInt8} (ho : InOrder (d.bindSession data) p) :
    InOrder d p := by
  obtain ⟨session, hb⟩ := bindSession_eq d data
  rw [hb] at ho
  exact ⟨ho.data, ho.first, ho.last, ho.pending⟩

/-- The gap buffer is drained where a packet has been applied in order. -/
theorem drainEntry_eq_some (h : d.drainEntry p = some d') :
    d.terminalStatus = .ok ∧ Admitted d p ∧ InOrder (d.bindSession p.data) p
      ∧ (d.bindSession p.data).applyOwn p p.firstSeq p.msgCount = some d' := by
  unfold drainEntry at h
  dsimp only at h
  split_ifs at h with h1 h2
  simp only [not_or] at h1 h2
  obtain ⟨hok, hsize, h0, hend, hsession⟩ := h1
  obtain ⟨hfit, hvalid, hpend, hlast, hfirst⟩ := h2
  have hdata : p.IsData :=
    ⟨Nat.not_lt.1 hsize, h0, hend, endSeq_lt_of_le hfit, not_not.1 hvalid⟩
  have ho : InOrder (d.bindSession p.data) p :=
    ⟨hdata, UInt64.not_lt.1 hfirst, UInt64.not_le.1 hlast, pending_of_not hpend⟩
  exact ⟨not_not.1 hok, fun hseen => by simpa [hseen] using hsession, ho, h⟩

/-- `processPacket` drains the gap buffer from the state `drainEntry` says. -/
theorem processPacket_of_drainEntry (h : d.drainEntry p = some d') :
    ∃ result hadGap, d.processPacket p
      = if d'.drainGapBuffer.1.status ≠ .ok then
          d'.drainGapBuffer.2.terminalFailure d'.drainGapBuffer.1.status
        else d'.drainGapBuffer.2.concludeInOrder result hadGap := by
  obtain ⟨hok, hadmitted, ho, happly⟩ := drainEntry_eq_some h
  rw [processPacket_inOrder (inOrder_of_bindSession ho) hok hadmitted]
  exact applyInOrder_of_applyOwn happly

theorem holding_of_coherent (hsound : d.channel.gapBuffer.Sound)
    (h : Coherent first initial (fun _ _ => True) d) : Holding d := ⟨hsound, h.buffered⟩

/-- What holds wherever the gap buffer may be drained. -/
theorem Reachable.spec {symbols : StockDirectory} {books : BookManager}
    (h : Reachable (create symbols books initial) d) :
    Holding d ∧ Coherent (ItchParser.create symbols books) initial (fun _ _ => True) d
      ∧ (Unbroken d → CaughtUp initial d) := by
  have hreached : ∀ packets, Reached (ItchParser.create symbols books) initial (fun _ _ => True)
      ((create symbols books initial).run packets) := fun packets =>
    (reached_create symbols books initial fun _ _ => True).run fun p _ => each_true p
  cases h with
  | after packets =>
    exact ⟨holding_of_coherent (sound_run symbols books initial packets)
      (hreached packets).coherent, (hreached packets).coherent, (hreached packets).caughtUp⟩
  | draining packets p d' hentry =>
    obtain ⟨hok, -, ho, happly⟩ := drainEntry_eq_some hentry
    obtain rfl := applyOwn_eq_some ho happly
    have hb := (hreached packets).bindSession p.data
    obtain ⟨hco, hcu⟩ := hb.coherent.advance
      (hb.caughtUp (.inl ((terminalStatus_bindSession p.data).trans hok))) ho (each_true p ho.data)
    refine ⟨holding_of_coherent ?_ hco, hco, fun _ => hcu⟩
    rw [advance_gapBuffer, bindSession_gapBuffer]
    exact sound_run symbols books initial packets

/-- What the drain has handed over and left, however it ends. -/
theorem Holding.drained (h : Holding d) :
    ∃ msgs, Extends d d.drainGapBuffer.2 msgs ∧ (d.drainGapBuffer.1.status = .ok →
      d.drainGapBuffer.2.channel.nextExpectedSeq.toNat
        = d.channel.nextExpectedSeq.toNat + msgs.length
      ∧ ∀ e, Buffered d.drainGapBuffer.2 e →
        ¬ e.Contains d.drainGapBuffer.2.channel.nextExpectedSeq.toNat) := by
  have hend := drainGapBuffer_rule (I := Drained d) (d := d) (fun d h => h.holding.sound.ok.size)
    (fun d e h _ _ => h.erase e.seq) (fun d e h hcand hlt hok => h.apply hcand hlt hok)
    (drained_refl h)
  generalize d.drainGapBuffer = out at hend ⊢
  obtain ⟨result, d'⟩ := out
  dsimp only at hend ⊢
  generalize result.status = status at hend ⊢
  cases hend with
  | clear d' hd hcand =>
    obtain ⟨msgs, hext, hnext⟩ := hd.handed
    exact ⟨msgs, hext, fun _ => ⟨hnext, fun e he => hd.holding.not_contains hcand he⟩⟩
  | refused d' e hd hcand hlt hst =>
    obtain ⟨msgs, hext, -⟩ := hd.processBuffered hcand hlt
    exact ⟨msgs, ⟨hext.handed, hext.seqs, hext.stored⟩, fun hok => absurd hok hst⟩

/-- From every state a run comes to, the drain returns, after a round for each packet it drops at
most. No round computes below zero or around the end, or replays a packet from outside of it. Where
the drain ends well nothing left contains the next sequence, and what it has handed over are
messages of buffered packets, each with the sequence after the one before. -/
theorem drain_complete {symbols : StockDirectory} {books : BookManager} {initial : UInt64}
    {d : MoldUdpDecoder} (hd : Reachable (create symbols books initial) d) :
    let out := d.drainGapBuffer
    (∀ e, Buffered d e → e.data.length ≤ SequencedPacket.kMaxPacketSize
        ∧ kHeaderSize + kMinimumFramedItchMessageBytes * e.msgCount.toNat ≤ e.data.length
        ∧ e.msgCount.toNat ≤ kMaxMessagesPerStoredPacket)
      ∧ (∃ n ≤ d.channel.gapBuffer.size, Loop.Returns drainRound ({}, d) n out)
      ∧ (∀ a c, Loop.Heads drainRound ({}, d) (a, c) → InRange c
        ∧ ∀ a' c', drainRound (a, c) = .inr (a', c') → DropsOne c c')
      ∧ (out.1.status = .ok → ∀ e, Buffered out.2 e →
        ¬ e.Contains out.2.channel.nextExpectedSeq.toNat)
      ∧ (∃ msgs, Extends d out.2 msgs ∧ (out.1.status = .ok →
        out.2.channel.nextExpectedSeq.toNat = d.channel.nextExpectedSeq.toNat + msgs.length))
      ∧ (Unbroken d →
        out.2.handed.map (·.1.toNat) = List.range' initial.toNat out.2.handed.length) := by
  intro out
  obtain ⟨hholding, hco, hcu⟩ := hd.spec
  have herase := fun (c : MoldUdpDecoder) (e : SequencedPacket) (h : Drained d c)
    (_ : c.drainCandidate = some e) (_ : e.endSeq ≤ c.channel.nextExpectedSeq) => h.erase e.seq
  have happly := fun (c : MoldUdpDecoder) (e : SequencedPacket) (h : Drained d c)
    (hcand : c.drainCandidate = some e) (hlt : c.channel.nextExpectedSeq < e.endSeq)
    (hok : (c.processBuffered e).1.status = .ok) => h.apply hcand hlt hok
  obtain ⟨msgs, hext, hend⟩ := hholding.drained
  refine ⟨fun e he => hholding.bounded he, ?_, fun a c hheads => ?_, fun hok => (hend hok).2,
    ⟨msgs, hext, fun hok => (hend hok).1⟩, fun hu => (hco.drain (hcu hu)).1.seqs⟩
  · obtain ⟨n, hreturns, _, c, _, _, _, hcount⟩ := drainGapBuffer_returns
      (fun c (h : Drained d c) => h.holding.sound.ok.size) herase happly (drained_refl hholding)
    exact ⟨n, by omega, hreturns⟩
  · have hc := hheads.rule (I := fun s => Drained d s.2 ∧ s.1.status = .ok)
      ⟨drained_refl hholding, rfl⟩ (drainRound_keeps herase happly)
    exact ⟨hc.1.holding.inRange, fun a' c' hround => hc.1.holding.dropsOne hround⟩

/-- A packet waits from the sequence 3 on, and another reaches into it. -/
theorem drainEntry_overlap : ∃ books, BookManager.create ⟨⟨1, 1⟩, ⟨1⟩⟩ 4096 = .ok books
    ∧ (((create .fresh books 1).run [.sentData 3 ([3, 4].map quietStream)]).drainEntry
        (.sentData 1 ([1, 2, 3].map quietStream))).map (fun d => (d.channel.gapBuffer.size,
          d.channel.nextExpectedSeq.toNat, d.drainGapBuffer.2.channel.nextExpectedSeq.toNat))
      = some (1, 4, 5) := by
  refine ⟨_, rfl, ?_⟩
  decide +kernel

/-- Only the tail of the packet that waits is replayed, in one round. -/
theorem drain_complete_overlap : ∃ books, BookManager.create ⟨⟨1, 1⟩, ⟨1⟩⟩ 4096 = .ok books
    ∧ ∃ d, Reachable (create .fresh books 1) d ∧ d.channel.nextExpectedSeq.toNat = 4
      ∧ d.drainGapBuffer.2.channel.nextExpectedSeq.toNat = 5
      ∧ ∃ n ≤ 1, Loop.Returns drainRound ({}, d) n d.drainGapBuffer := by
  obtain ⟨books, hbooks, hentry⟩ := drainEntry_overlap
  obtain ⟨d, hd, hfacts⟩ := Option.map_eq_some_iff.1 hentry
  simp only [Prod.mk.injEq] at hfacts
  obtain ⟨hsize, hnext, hout⟩ := hfacts
  have hreach : Reachable (create .fresh books 1) d := .draining _ _ d hd
  have hreturns := (drain_complete hreach).2.1
  rw [hsize] at hreturns
  exact ⟨books, hbooks, d, hreach, hnext, hout, hreturns⟩

end MoldUdpDecoder

end AstraFeed
