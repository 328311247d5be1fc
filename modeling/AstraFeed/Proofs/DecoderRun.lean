import AstraFeed.Proofs.DecoderHealth

/-!
# Runs of the decoder

Every state of a run is `Reached`: the messages are merged in order, and the channel's fields belong
together.
-/

namespace AstraFeed

open MoldUdpPacketHeader Wire Probe

namespace MoldUdpDecoder

variable {first : ItchParser} {initial : UInt64} {Q : ℕ → List UInt8 → Prop}
variable {d d' : MoldUdpDecoder} {p : PacketView}

/-- What holds in every state of a run. -/
structure Reached (first : ItchParser) (initial : UInt64) (Q : ℕ → List UInt8 → Prop)
    (d : MoldUdpDecoder) : Prop where
  coherent : Coherent first initial Q d
  caughtUp : Unbroken d → CaughtUp initial d
  health : d.terminalStatus = .ok → Health d
  ended : d.terminalStatus = .endOfStream → Ended d
  failed : ¬ Unbroken d → d.channel.status = .invalid

theorem Reached.bindSession (h : Reached first initial Q d) (data : List UInt8) :
    Reached first initial Q (d.bindSession data) := by
  unfold MoldUdpDecoder.bindSession
  split_ifs
  · exact h
  · exact ⟨h.coherent.congr rfl rfl rfl rfl, fun hu => (h.caughtUp hu).congr rfl rfl,
      fun hok => ⟨(h.health hok).not_invalid, (h.health hok).good_iff, (h.health hok).watermark,
        (h.health hok).pending, (h.health hok).pending_open⟩,
      fun he => ⟨(h.ended he).status, (h.ended he).empty, (h.ended he).watermark,
        (h.ended he).phase⟩, h.failed⟩

theorem Reached.transition (h : Reached first initial Q d) (hok : d.terminalStatus = .ok)
    (hq : p.IsData → p.Each Q)
    (ht : Transition d p d') : Reached first initial Q d' := by
  have hcu := h.caughtUp (.inl hok)
  obtain ⟨hc, hu⟩ := coherent_transition h.coherent hcu hq ht
  obtain ⟨he, hf⟩ := ended_transition ht hok h.coherent hcu hq
  exact ⟨hc, hu, health_transition (h.health hok) h.coherent hcu hq ht, he, hf⟩

theorem Reached.step (h : Reached first initial Q d)
    (hq : p.IsData → p.Each Q) :
    Reached first initial Q (d.processPacket p).2 := by
  refine processPacket_induction (I := fun _ d' => Reached first initial Q d') (fun _ => h) ?_
  rintro b (rfl | rfl) hok d' ht
  · exact h.transition hok hq ht
  · exact (h.bindSession p.data).transition hok hq ht

theorem Reached.run (h : Reached first initial Q d) {packets : List PacketView}
    (hq : ∀ p ∈ packets, p.IsData → p.Each Q) : Reached first initial Q (d.run packets) :=
  run_induction (fun _ _ hp h => h.step hp) h hq

theorem reached_create (symbols : StockDirectory) (books : BookManager) (initial : UInt64)
    (Q : ℕ → List UInt8 → Prop) :
    Reached (ItchParser.create symbols books) initial Q (create symbols books initial) where
  coherent :=
    { seqs := rfl
      parser := rfl
      phase := rfl
      messages := fun _ hm => absurd hm List.not_mem_nil
      buffered := fun _ he => absurd he (by rintro ⟨_, _, h⟩; cases h)
      sized := GapBuffer.fresh_ok.size }
  caughtUp := fun _ => rfl
  health := fun _ => health_create symbols books initial
  ended := fun he => (by cases he)
  failed := fun hu => absurd (.inl rfl) hu

/-! ## The merge -/

/-- The parser after messages that are those of a stream. -/
theorem foldl_eq_fold {M : ℕ → List UInt8} {handed : List (UInt64 × List UInt8)} {n : ℕ}
    (hseqs : handed.map (·.1.toNat) = List.range' n handed.length)
    (hM : ∀ m ∈ handed, m.2 = M m.1.toNat) :
    handed.foldl (fun p m => (p.handleMessage m.2).2) first = first.fold M n handed.length := by
  unfold ItchParser.fold
  rw [← hseqs, List.foldl_map]
  clear hseqs
  induction handed generalizing first with
  | nil => rfl
  | cons m handed ih =>
    rw [List.foldl_cons, List.foldl_cons, hM m List.mem_cons_self]
    exact ih fun m hm => hM m (List.mem_cons_of_mem _ hm)

/-- Whatever packets arrive in whatever order, the parser is handed the messages from `initial` on,
each once and in order, as some packet carries them. Where the packets are cut from one stream, the
parser, the directory and the books are what the stream makes of them. -/
theorem merge_in_order (symbols : StockDirectory) (books : BookManager) (initial : UInt64)
    (packets : List PacketView) :
    let d := (create symbols books initial).run packets
    d.handed.map (·.1.toNat) = List.range' initial.toNat d.handed.length
    ∧ (∀ m ∈ d.handed, ∃ p ∈ packets, p.IsData
      ∧ ∃ i, p.messages[i]? = some m.2 ∧ m.1.toNat = p.firstSeq.toNat + i)
    ∧ (d.terminalStatus = .ok → initial ≤ d.channel.nextExpectedSeq
      ∧ d.handed.map (·.1.toNat) = List.range' initial.toNat
        (d.channel.nextExpectedSeq.toNat - initial.toNat))
    ∧ ∀ M : ℕ → List UInt8, (∀ p ∈ packets, p.IsData → p.SliceOf M) → d.terminalStatus = .ok →
      let stream := (ItchParser.create symbols books).fold M initial.toNat
        (d.channel.nextExpectedSeq.toNat - initial.toNat)
      d.parser.channelPhase = stream.channelPhase ∧ d.parser.symbols = stream.symbols
        ∧ d.parser.books = stream.books := by
  intro d
  have hd : Reached (ItchParser.create symbols books) initial (fun seq msg => ∃ p ∈ packets,
      p.IsData ∧ ∃ i, p.messages[i]? = some msg ∧ seq = p.firstSeq.toNat + i) d :=
    (reached_create symbols books initial _).run
      fun p hp hdata i msg hm => ⟨p, hp, hdata, i, hm, rfl⟩
  have hlen : d.terminalStatus = .ok →
      initial.toNat + d.handed.length = d.channel.nextExpectedSeq.toNat :=
    fun ht => hd.caughtUp (.inl ht)
  refine ⟨hd.coherent.seqs, hd.coherent.messages, fun ht => ?_, fun M hM ht => ?_⟩
  · have := hlen ht
    refine ⟨UInt64.le_iff_toNat_le.2 (by omega), ?_⟩
    rw [← this, Nat.add_sub_cancel_left]
    exact hd.coherent.seqs
  · have hMd : Reached (ItchParser.create symbols books) initial (fun seq msg => msg = M seq) d :=
      (reached_create symbols books initial _).run hM
    have hparser : d.parser = (ItchParser.create symbols books).fold M initial.toNat
        (d.channel.nextExpectedSeq.toNat - initial.toNat) := by
      rw [← hlen ht, Nat.add_sub_cancel_left]
      exact hMd.coherent.parser.trans (foldl_eq_fold hMd.coherent.seqs hMd.coherent.messages)
    rw [hparser]
    exact ⟨rfl, rfl, rfl⟩

theorem sliceOf_of_messages_eq {M : ℕ → List UInt8} (h : p.messages
    = (List.range' p.firstSeq.toNat p.messages.length).map M) : p.SliceOf M := by
  intro i msg hi
  have hlt : i < p.messages.length := (List.getElem?_eq_some_iff.1 hi).1
  rw [h, List.getElem?_map, List.getElem?_range' hlt] at hi
  rw [← Option.some_inj.1 hi, Nat.one_mul]

/-- Whatever the overlaps, the eight messages are handled once and in order. -/
theorem merge_in_order_overlapping : ∃ books, BookManager.create ⟨⟨1, 1⟩, ⟨1⟩⟩ 4096 = .ok books
    ∧ let d := (create .fresh books 1).run overlappingPackets
      let stream := (ItchParser.create .fresh books).fold quietStream 1 8
      d.handed.map (·.1.toNat) = List.range' 1 8
      ∧ d.parser.channelPhase = stream.channelPhase ∧ d.parser.symbols = stream.symbols
      ∧ d.parser.books = stream.books := by
  refine ⟨_, rfl, ?_⟩
  obtain ⟨-, -, hends, hstream⟩ := merge_in_order .fresh _ 1 overlappingPackets
  have hslice : ∀ p ∈ overlappingPackets, p.IsData → p.SliceOf quietStream := by
    have hmessages : ∀ p ∈ overlappingPackets,
        p.messages = (List.range' p.firstSeq.toNat p.messages.length).map quietStream := by
      decide +kernel
    exact fun p hp _ => sliceOf_of_messages_eq (hmessages p hp)
  exact ⟨(hends (by decide +kernel)).2, hstream quietStream hslice (by decide +kernel)⟩

/-! ## The channel -/

theorem bindSession_next (data : List UInt8) :
    (d.bindSession data).channel.nextExpectedSeq = d.channel.nextExpectedSeq := by
  unfold MoldUdpDecoder.bindSession
  split_ifs <;> rfl

theorem bindSession_status (data : List UInt8) :
    (d.bindSession data).channel.status = d.channel.status := by
  unfold MoldUdpDecoder.bindSession
  split_ifs <;> rfl

theorem Reached.next_le_step (h : Reached first initial Q d) (hq : p.IsData → p.Each Q) :
    d.channel.nextExpectedSeq ≤ (d.processPacket p).2.channel.nextExpectedSeq := by
  refine processPacket_induction
    (I := fun d d' => d.channel.nextExpectedSeq ≤ d'.channel.nextExpectedSeq)
    (fun _ => UInt64.le_refl _) ?_
  rintro b (rfl | rfl) hok d' ht
  · exact next_le_transition h.coherent (h.caughtUp (.inl hok)) hq ht
  · have hb := h.bindSession p.data
    rw [← bindSession_next p.data]
    exact next_le_transition hb.coherent (hb.caughtUp (.inl hok)) hq ht

theorem Reached.stale_step (h : Reached first initial Q d) (hq : p.IsData → p.Each Q)
    (hst : d.channel.status = .stale ∨ d.channel.status = .invalid) :
    (d.processPacket p).2.channel.status = .stale
      ∨ (d.processPacket p).2.channel.status = .invalid := by
  refine processPacket_induction
    (I := fun _ d' => d'.channel.status = .stale ∨ d'.channel.status = .invalid)
    (fun _ => hst) ?_
  rintro b (rfl | rfl) hok d' ht
  · exact stale_transition (hst.resolve_right (h.health hok).not_invalid) h.coherent
      (h.caughtUp (.inl hok)) hq ht
  · have hb := h.bindSession p.data
    rw [← bindSession_status p.data] at hst
    exact stale_transition (hst.resolve_right (hb.health hok).not_invalid) hb.coherent
      (hb.caughtUp (.inl hok)) hq ht

/-- What holds of the packets of an arbitrary run. -/
theorem each_true (p : PacketView) : p.IsData → p.Each fun _ _ => True :=
  fun _ _ _ _ => trivial

theorem Reached.later (h : Reached first initial (fun _ _ => True) d) (later : List PacketView) :
    d.channel.nextExpectedSeq ≤ (d.run later).channel.nextExpectedSeq
      ∧ (d.channel.status = .stale ∨ d.channel.status = .invalid →
        (d.run later).channel.status = .stale ∨ (d.run later).channel.status = .invalid) := by
  induction later generalizing d with
  | nil => exact ⟨UInt64.le_refl _, id⟩
  | cons p later ih =>
    obtain ⟨hle, hst⟩ := ih (h.step (each_true p))
    exact ⟨UInt64.le_trans (h.next_le_step (each_true p)) hle,
      fun hs => hst (h.stale_step (each_true p) hs)⟩

theorem run_terminal (ht : d.terminalStatus ≠ .ok) (later : List PacketView) :
    d.run later = d := by
  induction later with
  | nil => rfl
  | cons p later ih =>
    change (d.processPacket p).2.run later = d
    rw [processPacket_terminal ht]
    exact ih

/-- In every state of a run the status tells whether anything is missing, watermark and pending end
lie ahead, and the ends of buffered packets do not overflow; from there on the next sequence does
not go back, a stale channel stays stale or gets invalid, and a terminal status is final. -/
theorem channel_health (symbols : StockDirectory) (books : BookManager) (initial : UInt64)
    (packets : List PacketView) :
    let d := (create symbols books initial).run packets
    (d.terminalStatus = .ok → d.channel.status = .good ∨ d.channel.status = .gapDetected
        ∨ d.channel.status = .recovering →
      (d.channel.status = .good
        ↔ d.channel.gapBuffer.empty = true ∧ d.channel.heartbeatNextSeqHighWatermark = 0)
      ∧ (d.channel.status = .good → d.pendingEndSequence = 0))
    ∧ (d.channel.heartbeatNextSeqHighWatermark ≠ 0 → d.channel.status ≠ .stale →
      d.channel.status ≠ .invalid →
      d.channel.nextExpectedSeq < d.channel.heartbeatNextSeqHighWatermark)
    ∧ (d.terminalStatus = .ok → d.pendingEndSequence ≠ 0 →
      d.channel.nextExpectedSeq ≤ d.pendingEndSequence)
    ∧ (∀ e, Buffered d e → e.endSeq.toNat = e.seq.toNat + e.msgCount.toNat)
    ∧ ∀ later, let d' := d.run later
      d.channel.nextExpectedSeq ≤ d'.channel.nextExpectedSeq
      ∧ (d.channel.status = .stale →
        d'.channel.status = .stale ∨ d'.channel.status = .invalid)
      ∧ (d.terminalStatus ≠ .ok →
        d' = d ∧ ∀ p, d'.processPacket p = ({ status := d.terminalStatus }, d)) := by
  intro d
  have h : Reached (ItchParser.create symbols books) initial (fun _ _ => True) d :=
    (reached_create symbols books initial _).run fun p _ => each_true p
  refine ⟨fun hok hst => ?_, fun hwm hs hi => ?_, fun hok => (h.health hok).pending,
    fun e he => (h.coherent.buffered e he).endSeq_toNat, fun later => ?_⟩
  · have hs : d.channel.status ≠ .stale := by
      rcases hst with hst | hst | hst <;> rw [hst] <;> decide
    exact ⟨(h.health hok).good_iff hs, (h.health hok).pending_of_good⟩
  · by_cases hu : Unbroken d
    · rcases hu with hok | he
      · exact (h.health hok).watermark hs hwm
      · exact absurd (h.ended he).watermark hwm
    · exact absurd (h.failed hu) hi
  · obtain ⟨hle, hst⟩ := h.later later
    refine ⟨hle, fun hs => hst (.inl hs), fun ht => ?_⟩
    have hrun := run_terminal ht later
    exact ⟨hrun, fun p => by rw [hrun, processPacket_terminal ht]⟩

end MoldUdpDecoder

end AstraFeed
