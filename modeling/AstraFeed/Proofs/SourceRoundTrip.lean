import AstraFeed.Proofs.InOrderPacket
import AstraFeed.Proofs.ItchMoldUdpSource

/-!
# From the file to the parser

The packets of the source, handed to a decoder in their order, give the parser the records of the
file up to the first it rejects.
-/

namespace AstraFeed

open MoldUdpPacketHeader Wire BigEndian

/-! ## Until a rejection -/

namespace ItchParser

variable {p : ItchParser} {msgs more : List (List UInt8)}

/-- Every message is accepted. -/
def AcceptsAll : ItchParser → List (List UInt8) → Prop
  | _, [] => True
  | p, msg :: msgs => p.Accepts msg ∧ AcceptsAll (p.handleMessage msg).2 msgs

instance decidableAcceptsAll : ∀ (p : ItchParser) (msgs : List (List UInt8)),
    Decidable (p.AcceptsAll msgs)
  | _, [] => .isTrue trivial
  | p, msg :: msgs =>
    have := decidableAcceptsAll (p.handleMessage msg).2 msgs
    inferInstanceAs (Decidable (p.Accepts msg ∧ _))

theorem acceptsAll_append :
    p.AcceptsAll (msgs ++ more) ↔ p.AcceptsAll msgs ∧ (p.feed msgs).AcceptsAll more := by
  induction msgs generalizing p with
  | nil => exact (and_iff_right trivial).symm
  | cons msg msgs ih =>
    rw [List.cons_append, AcceptsAll, AcceptsAll, ih, and_assoc]
    rfl

/-- No message of an accepted list leaves an error. -/
theorem AcceptsAll.lastError_take (h : p.AcceptsAll msgs) {k : ℕ} (hk : k < msgs.length) :
    (p.feed (msgs.take (k + 1))).lastError = none := by
  rw [← List.take_append_drop (k + 1) msgs, List.take_succ_eq_append_getElem hk] at h
  rw [List.take_succ_eq_append_getElem hk, feed_snoc]
  exact (acceptsAll_append.1 (acceptsAll_append.1 h).1).2.1

theorem untilRejected_append (h : p.AcceptsAll msgs) (more : List (List UInt8)) :
    p.untilRejected (msgs ++ more) = msgs ++ (p.feed msgs).untilRejected more := by
  induction msgs generalizing p with
  | nil => rfl
  | cons msg msgs ih =>
    rw [List.cons_append, untilRejected, if_pos h.1, ih h.2]
    rfl

theorem untilRejected_of_not (h : ¬ p.AcceptsAll msgs) :
    p.untilRejected (msgs ++ more) = p.untilRejected msgs := by
  induction msgs generalizing p with
  | nil => exact absurd trivial h
  | cons msg msgs ih =>
    rw [List.cons_append, untilRejected, untilRejected]
    by_cases ha : p.Accepts msg
    · rw [if_pos ha, if_pos ha, ih fun hall => h ⟨ha, hall⟩]
    · rw [if_neg ha, if_neg ha]

theorem untilRejected_of_all (h : p.AcceptsAll msgs) : p.untilRejected msgs = msgs := by
  have := untilRejected_append h []
  rwa [List.append_nil, untilRejected, List.append_nil] at this

end ItchParser

namespace MoldUdpDecoder

variable {d : MoldUdpDecoder} {data : List UInt8} {n offset : ℕ}

/-- The loop hands messages over up to the first that is rejected. -/
theorem processLoop_untilRejected {startSeq seq : UInt64} (processed : UInt64)
    (hv : validateLoop data n offset = .ok) (hs : startSeq ≤ seq) (hfit : seq.toNat + n < 2 ^ 64) :
    (processLoop data startSeq n offset seq processed d).2.2.handed.map Prod.snd
        = d.handed.map Prod.snd ++ d.parser.untilRejected (framedMessages data n offset)
      ∧ ((processLoop data startSeq n offset seq processed d).1 = .ok ↔
        d.parser.AcceptsAll (framedMessages data n offset))
      ∧ ((processLoop data startSeq n offset seq processed d).1 = .ok →
        (processLoop data startSeq n offset seq processed d).2.2.parser
          = d.parser.feed (framedMessages data n offset)) := by
  induction n generalizing offset seq processed d with
  | zero =>
    exact ⟨(List.append_nil _).symm, iff_of_true rfl trivial, fun _ => rfl⟩
  | succ n ih =>
    obtain ⟨h1, h2, h3, _, h5⟩ := validateLoop_succ hv
    have hsized : WellSized ((data.drop (offset + 2)).take (readU16BE data offset).toNat) :=
      framed_wellSized hv List.mem_cons_self
    have hparser : ∀ seq, (d.handMessage seq
        ((data.drop (offset + 2)).take (readU16BE data offset).toNat)).parser
        = (d.parser.handleMessage
          ((data.drop (offset + 2)).take (readU16BE data offset).toNat)).2 := fun seq => by
      show (d.parser.handlePrevalidatedMessage _).2 = _
      rw [handlePrevalidatedMessage_eq hsized]
    rw [framedMessages, processLoop, if_neg (by omega)]
    dsimp only
    rw [if_neg (by omega), if_pos hs]
    generalize (data.drop (offset + 2)).take (readU16BE data offset).toNat = msg at hparser ⊢
    by_cases herr : d.parser.Accepts msg
    · rw [if_neg (by rw [hparser]; exact not_not.2 herr)]
      have hseq := toNat_add_one hfit
      obtain ⟨hhanded, hok, hfeed⟩ := ih (processed + 1) h5 (show startSeq ≤ seq + 1 by
          rw [UInt64.le_iff_toNat_le] at hs ⊢
          omega) (by omega) (d := d.handMessage seq msg)
      rw [hparser] at hhanded hok hfeed
      refine ⟨?_, ?_, fun h => hfeed h⟩
      · rw [hhanded, ItchParser.untilRejected, if_pos herr]
        show (d.handed ++ [(seq, msg)]).map Prod.snd ++ _ = _
        rw [List.map_append, List.append_assoc]
        rfl
      · exact hok.trans ⟨fun h => ⟨herr, h⟩, fun h => h.2⟩
    · rw [if_pos (by rw [hparser]; exact herr)]
      refine ⟨?_, iff_of_false (by simp) fun h => herr h.1, fun h => by cases h⟩
      rw [ItchParser.untilRejected, if_neg herr]
      show (d.handed ++ [(seq, msg)]).map Prod.snd = _
      rw [List.map_append]
      rfl

theorem processSequencedPacket_untilRejected {firstSeq : UInt64} (ticks : UInt64)
    {msgCount : UInt16} (hv : validateSequencedPacket data msgCount = .ok)
    (hfit : firstSeq.toNat + msgCount.toNat < 2 ^ 64) :
    let msgs := framedMessages data msgCount.toNat kHeaderSize
    let out := d.processSequencedPacket data firstSeq msgCount firstSeq ticks
    out.2.handed.map Prod.snd = d.handed.map Prod.snd ++ d.parser.untilRejected msgs
      ∧ (out.1.status = .ok ↔ d.parser.AcceptsAll msgs)
      ∧ (out.1.status = .ok → out.2.parser = d.parser.feed msgs) := by
  have hend : (firstSeq + msgCount.toUInt64).toNat = firstSeq.toNat + msgCount.toNat := by
    rw [UInt64.toNat_add, UInt16.toNat_toUInt64]
    exact Nat.mod_eq_of_lt hfit
  have hloop := processLoop_untilRejected (d := d) 0 hv (UInt64.le_refl firstSeq) hfit
  intro msgs out
  have hout : out.2 = (processLoop data firstSeq msgCount.toNat kHeaderSize firstSeq 0 d).2.2
      ∧ out.1.status = (processLoop data firstSeq msgCount.toNat kHeaderSize firstSeq 0 d).1 := by
    simp only [out]
    unfold processSequencedPacket
    dsimp only
    rw [if_neg]
    · split_ifs with h1 h2
      · exact ⟨rfl, rfl⟩
      · exact ⟨rfl, (not_not.1 h1).symm⟩
      · exact ⟨rfl, (not_not.1 h1).symm⟩
    · rw [UInt64.lt_iff_toNat_lt, UInt64.lt_iff_toNat_lt, hend]
      omega
  rw [hout.1, hout.2]
  exact hloop

/-! ## Packets in order -/

variable {session : List UInt8} {seq : ℕ} {msgs : List (List UInt8)} {p : PacketView}

theorem unparsed_pendingEndSequence : Unparsed fun d => d.pendingEndSequence :=
  ⟨fun _ _ _ => rfl, fun _ _ => rfl⟩

theorem unparsed_session : Unparsed fun d => (d.firstPacketSeen, d.channel.session) :=
  ⟨fun _ _ _ => rfl, fun _ _ => rfl⟩

theorem settle_eq (d : MoldUdpDecoder) : ∃ watermark health, d.settle = { d with
    channel := { d.channel with
      heartbeatNextSeqHighWatermark := watermark
      status := health } } := by
  rcases settle_cases d with ⟨_, hs⟩ | ⟨_, _, hs⟩
  · exact ⟨_, _, hs⟩
  · exact ⟨_, _, hs⟩

/-- Nothing is missing, buffered or pending before the sequence `seq`. -/
structure Ready (session : List UInt8) (seq : ℕ) (d : MoldUdpDecoder) : Prop where
  terminal : d.terminalStatus = .ok
  pending : d.pendingEndSequence = 0
  next : d.channel.nextExpectedSeq.toNat = seq
  buffer : d.channel.gapBuffer = .fresh
  session : d.firstPacketSeen = true → d.channel.session = session

theorem Ready.bindSession (h : Ready session seq d) (hp : IsPacket session seq msgs p) :
    Ready session seq (d.bindSession p.data) ∧ (d.bindSession p.data).handed = d.handed
      ∧ (d.bindSession p.data).parser = d.parser := by
  obtain ⟨bound, hb⟩ := bindSession_eq d p.data
  refine ⟨⟨?_, ?_, ?_, ?_, fun _ => ?_⟩, ?_, ?_⟩
  · rw [hb]
    exact h.terminal
  · rw [hb]
    exact h.pending
  · rw [hb]
    exact h.next
  · rw [hb]
    exact h.buffer
  · unfold MoldUdpDecoder.bindSession
    split
    · rename_i hseen
      exact h.session hseen
    · show p.data.take kSessionSize = session
      rw [hp.data]
      exact List.take_left' hp.session
  · rw [hb]
  · rw [hb]

theorem Ready.inOrder (h : Ready session seq d) (hp : IsPacket session seq msgs p) :
    InOrder d p := by
  have hpos := List.length_pos_iff.2 hp.nonempty
  refine ⟨hp.isData, ?_, ?_, .inl h.pending⟩
  · rw [UInt64.le_iff_toNat_le, hp.firstSeq, h.next]
  · rw [UInt64.lt_iff_toNat_lt, hp.endSeq, h.next]
    omega

/-- The next packet is handed over up to the first message that is rejected. -/
theorem Ready.processPacket (h : Ready session seq d) (hp : IsPacket session seq msgs p) :
    (d.processPacket p).2.handed.map Prod.snd
        = d.handed.map Prod.snd ++ d.parser.untilRejected msgs
      ∧ (d.parser.AcceptsAll msgs → Ready session (seq + msgs.length) (d.processPacket p).2
        ∧ (d.processPacket p).2.parser = d.parser.feed msgs)
      ∧ (¬ d.parser.AcceptsAll msgs → (d.processPacket p).2.terminalStatus ≠ .ok) := by
  have hadmitted : Admitted d p := by
    intro hseen
    refine decide_eq_true ?_
    rw [h.session hseen, hp.data]
    exact (List.take_left' hp.session).symm
  rw [processPacket_inOrder (h.inOrder hp) h.terminal hadmitted]
  obtain ⟨hb, hhanded, hparser⟩ := h.bindSession hp
  rw [← hhanded, ← hparser]
  generalize d.bindSession p.data = d at hb ⊢
  have hfirst : p.firstSeq = d.channel.nextExpectedSeq :=
    UInt64.toNat_inj.1 (hp.firstSeq.trans hb.next.symm)
  have hdata := hp.isData
  have hq := processSequencedPacket_untilRejected (d := d) p.receiveStartTicks hdata.valid
    hdata.endSeq_lt
  dsimp only at hq
  rw [show framedMessages p.data p.msgCount.toNat kHeaderSize = msgs from hp.messages] at hq
  have hrest : ∀ {β : Type} {F : MoldUdpDecoder → β}, Unparsed F → F (d.processSequencedPacket
      p.data p.firstSeq p.msgCount p.firstSeq p.receiveStartTicks).2 = F d :=
    fun hF => hF.processSequencedPacket
  have hstart : (if p.firstSeq < d.channel.nextExpectedSeq then d.channel.nextExpectedSeq
      else p.firstSeq) = p.firstSeq := if_neg (by rw [hfirst]; exact UInt64.lt_irrefl _)
  unfold applyInOrder
  dsimp only
  rw [hstart]
  generalize d.processSequencedPacket p.data p.firstSeq p.msgCount p.firstSeq p.receiveStartTicks
    = out at hq hrest ⊢
  have hbuffer := hrest unparsed_gapBuffer
  have hpending := hrest unparsed_pendingEndSequence
  obtain ⟨hhanded, hok, hfeed⟩ := hq
  by_cases hstatus : out.1.status = .ok
  · rw [if_neg (not_not.2 hstatus)]
    obtain ⟨health, hmoved⟩ : ∃ health, (if out.2.channel.status = .gapDetected then
        out.2.setStatus .recovering else out.2).setNextExpectedSeq
          (p.firstSeq + p.msgCount.toUInt64)
            = (out.2.setStatus health).setNextExpectedSeq p.endSeq := by
      split_ifs
      · exact ⟨_, rfl⟩
      · exact ⟨out.2.channel.status, rfl⟩
    rw [hmoved]
    generalize hd' : (out.2.setStatus health).setNextExpectedSeq p.endSeq = d'
    have hfresh : d'.channel.gapBuffer = .fresh := by
      rw [← hd']
      exact hbuffer.trans hb.buffer
    have hnone : d'.pendingEndSequence = 0 := by
      rw [← hd']
      exact hpending.trans hb.pending
    rw [drainGapBuffer_fresh hfresh, if_neg (not_not.2 rfl), concludeInOrder_of_pending hnone]
    obtain ⟨watermark, health', hsettle⟩ := settle_eq d'
    rw [hsettle, ← hd']
    have hsession := hrest unparsed_session
    obtain ⟨hseen, hbound⟩ := Prod.mk.inj hsession
    refine ⟨hhanded, fun _ => ⟨⟨(hrest unparsed_terminalStatus).trans hb.terminal,
      hpending.trans hb.pending, hp.endSeq, hbuffer.trans hb.buffer,
        fun h => hbound.trans (hb.session (hseen.symm.trans h))⟩,
      hfeed hstatus⟩, fun hn => absurd (hok.1 hstatus) hn⟩
  · rw [if_pos hstatus]
    exact ⟨hhanded, fun ha => absurd (hok.2 ha) hstatus, fun _ => hstatus⟩

end MoldUdpDecoder

/-! ## Packets of the source -/

/-- Packets as the source emits them, that carry `msgs` from the sequence `seq` on. -/
inductive Emitted (session : List UInt8) : ℕ → List PacketView → List (List UInt8) → Prop
  | nil (seq : ℕ) : Emitted session seq [] []
  | cons {seq : ℕ} {p : PacketView} {packets : List PacketView} {msgs rest : List (List UInt8)}
      (hp : IsPacket session seq msgs p)
      (hsize : p.data.length ≤ ItchMoldUdpSource.kMaxPacketBytes)
      (hboundary : ItchMoldUdpSource.BoundaryLast msgs)
      (h : Emitted session (seq + msgs.length) packets rest) :
      Emitted session seq (p :: packets) (msgs ++ rest)

namespace Emitted

variable {session : List UInt8} {seq : ℕ} {packets : List PacketView}
  {msgs : List (List UInt8)} {d : MoldUdpDecoder}

theorem contiguous (h : Emitted session seq packets msgs) : Contiguous seq packets := by
  induction h with
  | nil => trivial
  | cons hp _ _ _ ih =>
    refine ⟨hp.firstSeq, ?_⟩
    rwa [hp.msgCount]

theorem messages (h : Emitted session seq packets msgs) :
    packets.flatMap PacketView.messages = msgs := by
  induction h with
  | nil => rfl
  | cons hp _ _ _ ih => rw [List.flatMap_cons, hp.messages, ih]

theorem packet (h : Emitted session seq packets msgs) : ∀ p ∈ packets, p.IsData
    ∧ p.data.length ≤ ItchMoldUdpSource.kMaxPacketBytes
    ∧ ItchMoldUdpSource.BoundaryLast p.messages := by
  induction h with
  | nil => exact fun p hp => (List.not_mem_nil hp).elim
  | cons hp hsize hboundary _ ih =>
    intro q hq
    rcases List.mem_cons.1 hq with rfl | hq
    · refine ⟨hp.isData, hsize, ?_⟩
      rwa [hp.messages]
    · exact ih q hq

/-- A decoder hands the messages over up to the first that is rejected. -/
theorem handed (h : Emitted session seq packets msgs) (hd : MoldUdpDecoder.Ready session seq d) :
    (d.run packets).handed.map Prod.snd
      = d.handed.map Prod.snd ++ d.parser.untilRejected msgs := by
  induction h generalizing d with
  | nil => exact (List.append_nil _).symm
  | @cons seq p packets msgs rest hp _ _ _ ih =>
    obtain ⟨hhanded, hall, hnot⟩ := hd.processPacket hp
    show ((d.processPacket p).2.run packets).handed.map Prod.snd = _
    by_cases ha : d.parser.AcceptsAll msgs
    · obtain ⟨hready, hparser⟩ := hall ha
      rw [ih hready, hhanded, hparser, ItchParser.untilRejected_append ha,
        ItchParser.untilRejected_of_all ha, List.append_assoc]
    · rw [MoldUdpDecoder.run_terminal (hnot ha), hhanded, ItchParser.untilRejected_of_not ha]

end Emitted

namespace ItchMoldUdpSource

variable {file : BinaryFile} {policy : CompletionPolicy} {session : List UInt8}
  {taken : List (List UInt8)} {s : ItchMoldUdpSource}

theorem At.setMessagesPerPacket (h : At file policy session taken s) (n : UInt16) :
    At file policy session taken (s.setMessagesPerPacket n).2 := by
  unfold ItchMoldUdpSource.setMessagesPerPacket
  split_ifs with h0
  · exact h
  · exact ⟨h.eof, h.completed, h.completionPolicy, h.session, h0, h.records, h.input, h.saw, h.last,
      h.seq⟩

theorem Done.setMessagesPerPacket (h : Done file policy taken s) (n : UInt16) :
    Done file policy taken (s.setMessagesPerPacket n).2 := by
  unfold ItchMoldUdpSource.setMessagesPerPacket
  split_ifs
  · exact h
  · exact ⟨h.eof, h.longest, h.completed⟩

theorem emit_done (h : Done file policy taken s) (calls : List Call) :
    (s.emit calls).1 = [] ∧ Done file policy taken (s.emit calls).2 := by
  induction calls generalizing s with
  | nil => exact ⟨rfl, h⟩
  | cons call calls ih =>
    have hset := h.setMessagesPerPacket call.msgsPerPacket
    rw [emit, next_done hset]
    exact ih hset

/-- Every call that does not end the emission sends a record. -/
theorem emit_spec (h : At file policy session taken s) (hsession : session.length = kSessionSize)
    (calls : List Call) :
    ∃ msgs, Emitted session (1 + taken.length) (s.emit calls).1 msgs
      ∧ (At file policy session (taken ++ msgs) (s.emit calls).2 ∧ calls.length ≤ msgs.length
        ∨ Done file policy (taken ++ msgs) (s.emit calls).2) := by
  induction calls generalizing s taken with
  | nil =>
    refine ⟨[], .nil _, .inl ⟨?_, Nat.le_refl 0⟩⟩
    rwa [List.append_nil]
  | cons call calls ih =>
    rw [emit]
    dsimp only
    rcases next_spec (h.setMessagesPerPacket call.msgsPerPacket) hsession call.ticks with
      ⟨s', hnext, hdone⟩ | ⟨p, s', msgs, hnext, hp, hsize, hcut, hat | hdone⟩
    · rw [hnext]
      obtain ⟨hnil, hlater⟩ := emit_done hdone calls
      dsimp only
      rw [hnil]
      refine ⟨[], .nil _, .inr ?_⟩
      rwa [List.append_nil]
    · rw [hnext]
      obtain ⟨rest, hemitted, hend⟩ := ih hat
      rw [List.length_append, ← Nat.add_assoc] at hemitted
      have hpos := List.length_pos_iff.2 hp.nonempty
      refine ⟨msgs ++ rest, .cons hp hsize (boundaryLast_of_chunk hcut.chunk) hemitted, ?_⟩
      rw [← List.append_assoc]
      refine hend.imp_left fun hat' => ⟨hat'.1, ?_⟩
      rw [List.length_cons, List.length_append]
      have := hat'.2
      omega
    · rw [hnext]
      obtain ⟨hnil, hlater⟩ := emit_done hdone calls
      dsimp only
      rw [hnil]
      refine ⟨msgs, ?_, .inr hlater⟩
      have := Emitted.cons hp hsize (boundaryLast_of_chunk hcut.chunk) (.nil _)
      rwa [List.append_nil] at this

theorem at_create (file : BinaryFile) (policy : CompletionPolicy)
    (hsession : session.length ≤ kSessionSize) {n : UInt16} (hn : n ≠ 0) :
    At file policy (resizeSession session) [] (create file session n policy) := by
  unfold create
  dsimp only
  rw [if_neg (Nat.not_lt.2 hsession), if_neg hn]
  refine ⟨rfl, rfl, rfl, rfl, hn, records_nil, rfl, ?_, ?_, rfl⟩
  · simp
  · refine iff_of_false (by simp) ?_
    rintro ⟨before, msg, heq, -⟩
    exact absurd heq.symm (List.append_ne_nil_of_right_ne_nil _ (List.cons_ne_nil _ _))

theorem length_resizeSession (session : List UInt8) :
    (resizeSession session).length = kSessionSize := by
  unfold resizeSession
  rw [List.length_take, List.length_append, List.length_replicate]
  omega

theorem At.beginsWith (h : At file policy session taken s) : BeginsWith file.bytes taken :=
  ⟨h.records, s.input, h.input.symm⟩

theorem isLongest_unique {bytes : List UInt8} {msgs msgs' : List (List UInt8)}
    (h : IsLongest bytes msgs) (h' : IsLongest bytes msgs') : msgs = msgs' :=
  List.IsPrefix.eq_of_length (h'.2 _ h.1)
    (Nat.le_antisymm (h'.2 _ h.1).length_le (h.2 _ h'.1).length_le)

/-- The emission of a file ends, at its longest records. -/
theorem exists_isLongest (file : BinaryFile) : ∃ records, IsLongest file.bytes records := by
  have hat : At file .requireTerminator (resizeSession []) [] (create file [] 1 .requireTerminator) :=
    at_create file .requireTerminator (by decide) (by decide)
  obtain ⟨msgs, -, hend⟩ := emit_spec hat (length_resizeSession [])
    (List.replicate (file.bytes.length + 1) ⟨1, 0⟩)
  rw [List.length_replicate, List.nil_append] at hend
  rcases hend with ⟨hlater, hle⟩ | hdone
  · have hlen := length_flatMap_framed hlater.records.each
    have hbytes := congrArg List.length hlater.input
    rw [List.length_append] at hbytes
    omega
  · exact ⟨msgs, hdone.longest⟩

/-- Packets of a BinaryFILE, whatever the calls that emit them: each is well-formed, together they
carry the longest records of the file, and a decoder hands those to its parser. -/
theorem binary_file_round_trip (file : BinaryFile) (policy : CompletionPolicy)
    (session : List UInt8) (hsession : session.length ≤ kSessionSize) (msgsPerPacket : UInt16)
    (hcount : msgsPerPacket ≠ 0) :
    ∃ records, IsLongest file.bytes records ∧ ∀ calls : List Call,
      let out := (create file session msgsPerPacket policy).emit calls
      (∀ p ∈ out.1, p.data.length ≤ kMaxPacketBytes ∧ p.msgCount ≠ 0
        ∧ p.msgCount ≠ kEndOfSessionMessageCount
        ∧ MoldUdpDecoder.validateSequencedPacket p.data p.msgCount = .ok
        ∧ ∀ before msg after, p.messages = before ++ msg :: after →
          ItchParser.IsEvent msg 'S' ∨ ItchParser.IsEvent msg 'Q' → after = [])
      ∧ Contiguous 1 out.1
      ∧ out.1.flatMap PacketView.messages <+: records
      ∧ (∀ symbols books, let d := (MoldUdpDecoder.create symbols books 1).run out.1
        d.handed.map (·.1.toNat) = List.range' 1 d.handed.length
          ∧ d.handed.map Prod.snd = (ItchParser.create symbols books).untilRejected
            (out.1.flatMap PacketView.messages))
      ∧ (records.length < calls.length → out.2.eof = true)
      ∧ (out.2.completed = true → out.2.eof = true)
      ∧ (out.2.eof = true → out.1.flatMap PacketView.messages = records
        ∧ (out.2.completed = true ↔ InGrammar policy file.bytes)
        ∧ ∀ later, (out.2.emit later).1 = []) := by
  obtain ⟨records, hlongest⟩ := exists_isLongest file
  refine ⟨records, hlongest, fun calls => ?_⟩
  intro out
  obtain ⟨msgs, hemitted, hend⟩ := emit_spec (at_create file policy hsession hcount)
    (length_resizeSession session) calls
  rw [List.nil_append] at hend
  change Emitted (resizeSession session) 1 out.1 msgs at hemitted
  rw [hemitted.messages]
  refine ⟨fun p hp => ?_, hemitted.contiguous, ?_, fun symbols books => ?_, fun hlt => ?_,
    fun hc => ?_, fun heof => ?_⟩
  · obtain ⟨hdata, hsize, hboundary⟩ := hemitted.packet p hp
    refine ⟨hsize, hdata.msgCount_ne_zero, hdata.msgCount_ne_end, hdata.valid, ?_⟩
    exact fun before msg after heq hevent => hboundary before msg after heq (decide_eq_true hevent)
  · rcases hend with ⟨hat, -⟩ | hdone
    · exact hlongest.2 _ hat.beginsWith
    · rw [isLongest_unique hdone.longest hlongest]
  · have hready : MoldUdpDecoder.Ready (resizeSession session) 1
        (MoldUdpDecoder.create symbols books 1) := ⟨rfl, rfl, rfl, rfl, fun h => nomatch h⟩
    have hreached := (MoldUdpDecoder.reached_create symbols books 1 (fun _ _ => True)).run
      (show ∀ p ∈ out.1, _ from fun p _ hd => MoldUdpDecoder.each_true p hd)
    exact ⟨hreached.coherent.seqs, hemitted.handed hready⟩
  · rcases hend with ⟨hat, hle⟩ | hdone
    · have := (hlongest.2 _ hat.beginsWith).length_le
      omega
    · exact hdone.eof
  · rcases hend with ⟨hat, -⟩ | hdone
    · have := hat.completed
      rw [this] at hc
      cases hc
    · exact hdone.eof
  · rcases hend with ⟨hat, -⟩ | hdone
    · have := hat.eof
      rw [this] at heof
      cases heof
    · exact ⟨isLongest_unique hdone.longest hlongest, hdone.completed, fun later =>
        (emit_done hdone later).1⟩

/-- A start and an end of messages, with the terminator. -/
def shortFile : BinaryFile where
  bytes := framed (systemEvent 'O') ++ framed (systemEvent 'C') ++ [0, 0]
  size_lt := by decide

theorem binary_file_round_trip_short :
    ([] : List UInt8).length ≤ kSessionSize ∧ (1 : UInt16) ≠ 0
      ∧ ∃ records, IsLongest shortFile.bytes records
        ∧ ((create shortFile [] 1 .requireTerminator).emit
          (List.replicate 3 ⟨1, 0⟩)).1.flatMap PacketView.messages = records
        ∧ InGrammar .requireTerminator shortFile.bytes := by
  obtain ⟨records, hlongest, hall⟩ := binary_file_round_trip shortFile .requireTerminator []
    (by decide) 1 (by decide)
  obtain ⟨-, -, -, -, -, -, hend⟩ := hall (List.replicate 3 ⟨1, 0⟩)
  obtain ⟨hmsgs, hcompleted, -⟩ := hend (by decide +kernel)
  exact ⟨by decide, by decide, records, hlongest, hmsgs, hcompleted.mp (by decide +kernel)⟩

end ItchMoldUdpSource

end AstraFeed
