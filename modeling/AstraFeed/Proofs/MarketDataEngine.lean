import AstraFeed.MarketDataEngine
import AstraFeed.Proofs.InOrderPacket

/-!
# The latency count

A result without an error counts the messages its packet had handed over (`Outcome`), and the engine
records it. The result that ends the stream is not recorded: the count is complete exactly when the
last packet is the end-of-session marker itself (`latency_count_iff`).
-/

namespace AstraFeed

open MoldUdpPacketHeader Wire Probe

namespace MoldUdpDecoder

variable {d : MoldUdpDecoder} {p : PacketView}

/-- How many messages were handed over. -/
def messageCount (d : MoldUdpDecoder) : UInt64 := d.handed.length.toUInt64

/-- The result counts the messages handed over. -/
def Sampled (d : MoldUdpDecoder) (out : DecodeResult × MoldUdpDecoder) : Prop :=
  out.2.messageCount = d.messageCount + out.1.latencySampleCount

/-- Every buffered packet has a receive tick. -/
structure Ticked (d : MoldUdpDecoder) : Prop where
  sized : d.channel.gapBuffer.Sized
  ticks : ∀ e, Buffered d e → e.receiveStartTicks ≠ 0

theorem Ticked.congr {d' : MoldUdpDecoder} (h : Ticked d)
    (hbuf : d'.channel.gapBuffer = d.channel.gapBuffer) : Ticked d' := by
  refine ⟨hbuf ▸ h.sized, fun e he => h.ticks e ?_⟩
  unfold Buffered at he ⊢
  rwa [hbuf] at he

theorem Ticked.eraseBuffered (h : Ticked d) (seq : UInt64) : Ticked (d.eraseBuffered seq) := by
  refine ⟨?_, fun e he => h.ticks e (buffered_erase h.sized seq he)⟩
  rcases h.sized.erase_cases seq with ⟨_, herase⟩ | ⟨_, _, hsized, _⟩
  · simp only [MoldUdpDecoder.eraseBuffered]
    rw [herase]
    exact h.sized
  · exact hsized

theorem Ticked.insert (h : Ticked d) {e : SequencedPacket} (he : e.receiveStartTicks ≠ 0)
    {d' : MoldUdpDecoder} (hd' : d'.channel.gapBuffer = (d.channel.gapBuffer.insert e).2) :
    Ticked d' := by
  rcases h.sized.insert_cases e with ⟨_, hout, _⟩ | ⟨b, hout, hb, hhas⟩
  · exact h.congr (hd'.trans (by rw [hout]))
  · rw [hout] at hd'
    refine ⟨hd' ▸ hb, fun f hf => ?_⟩
    unfold Buffered at hf
    rw [hd'] at hf
    rcases (hhas f).1 hf with rfl | hf
    · exact he
    · exact h.ticks f hf

/-! ## The messages of a packet -/

theorem count_cancel {a b n x m : UInt64} (h : a + (n + x) = b + x + m) : a + n = b + m := by
  have hcancel : a + n + x = b + m + x := by
    rw [UInt64.add_assoc, h, UInt64.add_assoc, UInt64.add_assoc, UInt64.add_comm x m]
  exact (UInt64.add_left_inj x).1 hcancel

theorem messageCount_handMessage (seq : UInt64) (msg : List UInt8) :
    (d.handMessage seq msg).messageCount = d.messageCount + 1 := by
  unfold messageCount handMessage
  rw [List.length_append]
  exact UInt64.ofNat_add _ _

theorem processLoop_sampled {data : List UInt8} {n offset : ℕ} {startSeq seq processed : UInt64}
    (hok : (processLoop data startSeq n offset seq processed d).1 = .ok) :
    (processLoop data startSeq n offset seq processed d).2.2.messageCount + processed
      = d.messageCount + (processLoop data startSeq n offset seq processed d).2.1 := by
  induction n generalizing offset seq processed d with
  | zero => rfl
  | succ n ih =>
    rw [processLoop] at hok ⊢
    dsimp only at hok ⊢
    split_ifs at hok ⊢
    · have hcount := ih hok
      rw [messageCount_handMessage] at hcount
      exact count_cancel hcount
    · exact ih hok

theorem processSequencedPacket_sampled {data : List UInt8} {firstSeq startSeq ticks : UInt64}
    {msgCount : UInt16} (hticks : ticks ≠ 0)
    (hok : (d.processSequencedPacket data firstSeq msgCount startSeq ticks).1.status = .ok) :
    Sampled d (d.processSequencedPacket data firstSeq msgCount startSeq ticks) := by
  unfold Sampled
  unfold processSequencedPacket at hok ⊢
  dsimp only at hok ⊢
  split_ifs at hok ⊢ with h1 h2 h3
  · exact absurd hok h2
  · have hloop := processLoop_sampled (not_not.1 h2)
    rwa [UInt64.add_zero] at hloop
  · have hloop := processLoop_sampled (not_not.1 h2)
    have h0 : (processLoop data startSeq msgCount.toNat kHeaderSize firstSeq 0 d).2.1 = 0 := by
      by_contra hne
      exact h3 ⟨hticks, hne⟩
    rwa [UInt64.add_zero, h0] at hloop

theorem drainLoop_sampled {fuel : ℕ} {aggregate : DecodeResult} (h : Ticked d)
    (hok : (drainLoop fuel aggregate d).1.status = .ok) :
    (drainLoop fuel aggregate d).2.messageCount + aggregate.latencySampleCount
        = d.messageCount + (drainLoop fuel aggregate d).1.latencySampleCount
      ∧ Ticked (drainLoop fuel aggregate d).2 := by
  induction fuel generalizing aggregate d with
  | zero => exact ⟨rfl, h⟩
  | succ fuel ih =>
    rw [drainLoop] at hok ⊢
    cases hc : d.drainCandidate with
    | none =>
      rw [hc] at hok
      exact ⟨rfl, h⟩
    | some e =>
      rw [hc] at hok
      dsimp only at hok ⊢
      split_ifs at hok ⊢ with h1 h2
      · exact ih (h.eraseBuffered e.seq) hok
      · exact absurd hok h2
      · have hticks := h.ticks e (find_of_drainCandidate hc).2.1
        have hsampled : Sampled d (d.processBuffered e) :=
          processSequencedPacket_sampled hticks (not_not.1 h2)
        have hticked : Ticked (((d.processBuffered e).2.eraseBuffered e.seq).setNextExpectedSeq
            e.endSeq) :=
          ((h.congr (processBuffered_gapBuffer e)).eraseBuffered e.seq).congr rfl
        obtain ⟨hcount, hdone⟩ := ih hticked hok
        refine ⟨?_, hdone⟩
        change _ = (d.processBuffered e).2.messageCount + _ at hcount
        rw [hsampled] at hcount
        exact count_cancel hcount

theorem drainGapBuffer_sampled (h : Ticked d) (hok : d.drainGapBuffer.1.status = .ok) :
    Sampled d d.drainGapBuffer ∧ Ticked d.drainGapBuffer.2 := by
  obtain ⟨hcount, hticked⟩ := drainLoop_sampled h hok
  exact ⟨(UInt64.add_zero _).symm.trans hcount, hticked⟩

/-! ## The outcome of a packet -/

/-- A packet whose result has no error is counted; any other result is final. -/
inductive Outcome (d : MoldUdpDecoder) (out : DecodeResult × MoldUdpDecoder) : Prop
  | ok (hstatus : out.1.status = .ok) (hsampled : Sampled d out) (hticked : Ticked out.2)
      (hterm : out.2.terminalStatus = d.terminalStatus)
  | stop (hstatus : out.1.status ≠ .ok) (hterm : out.2.terminalStatus = out.1.status)

theorem Outcome.ite {c : Prop} [Decidable c] {a b : DecodeResult × MoldUdpDecoder}
    (ha : c → Outcome d a) (hb : ¬ c → Outcome d b) : Outcome d (if c then a else b) := by
  split
  · exact ha ‹_›
  · exact hb ‹_›

/-- A result without samples for a packet that hands nothing over. -/
theorem outcome_quiet (h : Ticked d) {d' : MoldUdpDecoder} (hadGap : Bool)
    (hhanded : d'.handed = d.handed) (hbuf : d'.channel.gapBuffer = d.channel.gapBuffer)
    (hterm : d'.terminalStatus = d.terminalStatus) :
    Outcome d ({ status := .ok, hadGap := hadGap }, d') := by
  refine .ok rfl ?_ (h.congr hbuf) hterm
  unfold Sampled messageCount
  rw [hhanded]
  exact (UInt64.add_zero _).symm

theorem outcome_terminalFailure {b : MoldUdpDecoder} {status : DecodeStatus}
    (hs : status ≠ .ok) : Outcome d (b.terminalFailure status) := .stop hs rfl

theorem processEndOfSession_outcome (h : Ticked d) (firstSeq : UInt64) :
    Outcome d (d.processEndOfSession firstSeq) := by
  unfold processEndOfSession
  refine .ite (fun _ => outcome_terminalFailure (by decide)) fun _ => .ite (fun _ => ?_) fun _ =>
    .ite (fun _ => outcome_terminalFailure (by decide)) fun _ =>
    .ite (fun _ => outcome_terminalFailure (by decide)) fun _ => .stop (by simp) rfl
  refine .ite (fun _ => outcome_terminalFailure (by decide)) fun _ => ?_
  exact outcome_quiet h true rfl rfl rfl

theorem processHeartbeat_outcome (h : Ticked d) (firstSeq : UInt64) :
    Outcome d (d.processHeartbeat firstSeq) := by
  unfold processHeartbeat
  refine .ite (fun _ => outcome_terminalFailure (by decide)) fun _ => .ite (fun _ => ?_) fun _ =>
    .ite (fun _ => ?_) fun _ => outcome_quiet h false rfl rfl rfl
  · refine outcome_quiet h true ?_ ?_ ?_ <;> split <;> rfl
  · refine outcome_quiet h false ?_ ?_ ?_ <;> split <;> rfl

theorem bufferAhead_outcome (h : Ticked d) (hticks : p.receiveStartTicks ≠ 0) (firstSeq : UInt64)
    (msgCount : UInt16) : Outcome d (d.bufferAhead p firstSeq msgCount) := by
  unfold bufferAhead
  refine .ite (fun _ => outcome_quiet h true rfl rfl rfl) fun _ =>
    .ite (fun _ => outcome_terminalFailure (by decide)) fun _ => ?_
  have hstored : ∀ d' : MoldUdpDecoder, d'.handed = d.handed →
      d'.terminalStatus = d.terminalStatus →
      d'.channel.gapBuffer = (d.channel.gapBuffer.insert
        ⟨firstSeq, p.receiveStartTicks, msgCount, p.data⟩).2 →
      Outcome d ({ status := .ok, hadGap := true }, d') := by
    intro d' hhanded hterm hbuf
    refine .ok rfl ?_ (h.insert (e := ⟨firstSeq, p.receiveStartTicks, msgCount, p.data⟩) hticks hbuf)
      hterm
    unfold Sampled messageCount
    rw [hhanded]
    exact (UInt64.add_zero _).symm
  dsimp only
  split
  · exact outcome_terminalFailure (by decide)
  · exact hstored _ rfl rfl rfl
  · exact hstored _ rfl rfl rfl
  · exact hstored _ rfl rfl rfl

theorem settle_handed (d : MoldUdpDecoder) : d.settle.handed = d.handed := by
  rcases settle_cases d with ⟨_, hs⟩ | ⟨_, _, hs⟩ <;> rw [hs]

theorem resolvePendingEndOfStream_cases (d : MoldUdpDecoder) :
    d.resolvePendingEndOfStream = (.ok, d)
    ∨ d.resolvePendingEndOfStream.1 ≠ .ok ∧ (d.resolvePendingEndOfStream.1 = .endOfStream →
      d.resolvePendingEndOfStream.2.terminalStatus = .endOfStream) := by
  unfold resolvePendingEndOfStream
  dsimp only
  split_ifs
  · exact .inl rfl
  · exact .inr (by simp)
  · exact .inl rfl
  · exact .inr (by simp)
  · exact .inr (by simp)

theorem concludeInOrder_outcome {b : MoldUdpDecoder} (h : Ticked b) {result : DecodeResult}
    (hstatus : result.status = .ok) (hadGap : Bool) (hsampled : Sampled d (result, b))
    (hterm : b.terminalStatus = d.terminalStatus) :
    Outcome d (b.concludeInOrder result hadGap) := by
  unfold concludeInOrder
  dsimp only
  rcases resolvePendingEndOfStream_cases b.settle with hres | ⟨hne, hend⟩
  · rw [hres, if_neg (not_not.2 rfl)]
    refine .ok hstatus ?_ (h.congr (settle_gapBuffer b)) ((settle_terminal b).trans hterm)
    unfold Sampled messageCount at hsampled ⊢
    rw [settle_handed]
    exact hsampled
  · rw [if_pos hne]
    refine .ite (fun heq => ?_) fun _ => outcome_terminalFailure hne
    exact .stop hne ((hend heq).trans heq.symm)

theorem applyInOrder_outcome (h : Ticked d) (hticks : p.receiveStartTicks ≠ 0) (firstSeq : UInt64)
    (msgCount : UInt16) : Outcome d (d.applyInOrder p firstSeq msgCount) := by
  unfold applyInOrder
  dsimp only
  generalize (if firstSeq < d.channel.nextExpectedSeq then d.channel.nextExpectedSeq
    else firstSeq) = startSeq
  have hterm : (d.processSequencedPacket p.data firstSeq msgCount startSeq
      p.receiveStartTicks).2.terminalStatus = d.terminalStatus :=
    unparsed_terminalStatus.processSequencedPacket
  have hbuf : (d.processSequencedPacket p.data firstSeq msgCount startSeq
      p.receiveStartTicks).2.channel.gapBuffer = d.channel.gapBuffer :=
    unparsed_gapBuffer.processSequencedPacket
  refine .ite (fun hne => outcome_terminalFailure hne) fun hok => ?_
  have hsampled := processSequencedPacket_sampled hticks (not_not.1 hok)
  generalize d.processSequencedPacket p.data firstSeq msgCount startSeq p.receiveStartTicks = out
    at hok hsampled hterm hbuf ⊢
  -- the packet is applied: its status and its end do not matter to what is counted
  generalize hb : (if out.2.channel.status = .gapDetected then out.2.setStatus .recovering
    else out.2).setNextExpectedSeq (firstSeq + msgCount.toUInt64) = b
  have hkept : b.handed = out.2.handed ∧ b.channel.gapBuffer = d.channel.gapBuffer
      ∧ b.terminalStatus = d.terminalStatus := by
    rw [← hb]
    split
    · exact ⟨rfl, hbuf, hterm⟩
    · exact ⟨rfl, hbuf, hterm⟩
  obtain ⟨hhanded, hbbuf, hbterm⟩ := hkept
  refine .ite (fun hne => outcome_terminalFailure hne) fun hdrained => ?_
  obtain ⟨hdrain, hticked⟩ := drainGapBuffer_sampled (h.congr hbbuf) (not_not.1 hdrained)
  have hdterm : b.drainGapBuffer.2.terminalStatus = b.terminalStatus :=
    unparsed_terminalStatus.drainLoop (fun _ _ => rfl) (fun _ _ => rfl)
  generalize b.drainGapBuffer = drained at hdrain hticked hdterm
  have hstatus : (mergeLatency out.1 drained.1).status = .ok := not_not.1 hok
  refine concludeInOrder_outcome hticked hstatus _ ?_ (hdterm.trans hbterm)
  have hbcount : b.messageCount = d.messageCount + out.1.latencySampleCount := by
    unfold Sampled messageCount at hsampled
    unfold messageCount
    rw [hhanded, hsampled]
  unfold Sampled at hdrain ⊢
  rw [hbcount, UInt64.add_assoc] at hdrain
  exact hdrain

theorem processData_outcome (h : Ticked d) (hticks : p.receiveStartTicks ≠ 0) (firstSeq : UInt64)
    (msgCount : UInt16) : Outcome d (d.processData p firstSeq msgCount) := by
  unfold processData
  refine .ite (fun _ => outcome_terminalFailure (by decide)) fun _ =>
    .ite (fun hne => outcome_terminalFailure hne) fun _ =>
    .ite (fun _ => outcome_terminalFailure (by decide)) fun _ =>
    .ite (fun _ => outcome_quiet h false rfl rfl rfl) fun _ =>
    .ite (fun _ => bufferAhead_outcome h hticks _ _) fun _ => applyInOrder_outcome h hticks _ _

theorem bindSession_handed (data : List UInt8) : (d.bindSession data).handed = d.handed := by
  unfold bindSession
  split <;> rfl

theorem Outcome.of_bindSession (data : List UInt8) {out : DecodeResult × MoldUdpDecoder}
    (h : Outcome (d.bindSession data) out) : Outcome d out := by
  cases h with
  | ok hstatus hsampled hticked hterm =>
    refine .ok hstatus ?_ hticked (hterm.trans (terminalStatus_bindSession data))
    unfold Sampled messageCount at hsampled ⊢
    rwa [bindSession_handed] at hsampled
  | stop hstatus hterm => exact .stop hstatus hterm

/-- A packet is refused without a trace, or has an outcome. -/
theorem processPacket_outcome (h : Ticked d) (hticks : p.receiveStartTicks ≠ 0) :
    (d.processPacket p).1.status ≠ .ok ∧ (d.processPacket p).2 = d
      ∨ Outcome d (d.processPacket p) := by
  have hb : Ticked (d.bindSession p.data) := h.congr (bindSession_gapBuffer p.data)
  unfold processPacket
  split
  · exact .inl ⟨‹_›, rfl⟩
  split
  · exact .inl ⟨by simp, rfl⟩
  refine .inr (.ite (fun _ => outcome_terminalFailure (by decide)) fun _ =>
    .ite (fun _ => outcome_terminalFailure (by decide)) fun _ => .of_bindSession p.data ?_)
  exact .ite (fun _ => processEndOfSession_outcome hb _) fun _ =>
    .ite (fun _ => processHeartbeat_outcome hb _) fun _ => processData_outcome hb hticks _ _

/-! ## The packet that ends the stream -/

variable {first : ItchParser} {initial : UInt64} {Q : ℕ → List UInt8 → Prop} {d' : MoldUdpDecoder}

/-- The stream ends without a message with the marker, and with one otherwise. -/
theorem end_transition (ht : Transition d p d') (hok : d.terminalStatus = .ok)
    (hc : Coherent first initial Q d) (hcu : CaughtUp initial d) (hq : p.IsData → p.Each Q)
    (hend : d'.terminalStatus = .endOfStream) :
    d'.channel.nextExpectedSeq = d.channel.nextExpectedSeq ↔ p.IsEndOfSession := by
  have hlive : ¬ d.terminalStatus = .endOfStream := by
    rw [hok]
    decide
  cases ht with
  | fail status hs n => exact absurd (.inr hend) (not_unbroken_terminalFailure hs)
  | finish hm => exact iff_of_true rfl hm
  | refuse ho status d' hh hne =>
    rw [show status = .endOfStream from hend] at hh
    cases hh.status_of_ne (by decide)
  | refuseDrain ho hne =>
    obtain ⟨hco, hcau⟩ := hc.advance hcu ho (hq ho.data)
    exact absurd (.inr hend) (not_unbroken_terminalFailure ((hco.drain hcau).2.2.2.2 hne))
  | apply ho hdr result hadGap =>
    obtain ⟨hdrained, _⟩ := hc.drained hcu hq ho hdr
    have hnext : (d.advance p).channel.nextExpectedSeq = p.endSeq := rfl
    have hle := hdrained.forward.next
    rw [hnext] at hle
    refine iff_of_false ?_ fun hm => ho.data.msgCount_ne_end hm.2
    rw [concludeInOrder_next]
    exact fun heq => UInt64.not_lt.2 (heq ▸ hle) ho.last
  | _ => exact absurd hend hlive

theorem Reached.end_step (h : Reached first initial (fun _ _ => True) d)
    (hok : d.terminalStatus = .ok)
    (hend : (d.processPacket p).2.terminalStatus = .endOfStream) :
    (d.processPacket p).2.channel.nextExpectedSeq = d.channel.nextExpectedSeq
      ↔ p.IsEndOfSession := by
  rcases processPacket_transition hok p with ht | ht
  · exact end_transition ht hok h.coherent (h.caughtUp (.inl hok)) (each_true p) hend
  · have hb := h.bindSession p.data
    have hbok := (terminalStatus_bindSession p.data).trans hok
    have hiff := end_transition ht hbok hb.coherent (hb.caughtUp (.inl hbok)) (each_true p) hend
    rwa [bindSession_next] at hiff

end MoldUdpDecoder

/-! ## The engine's count -/

namespace MarketDataEngine

open MoldUdpDecoder

variable {first : ItchParser} {initial : UInt64} {e : MarketDataEngine} {a : Arrival}

/-- The engine has counted every message while the decoder is not terminal. -/
structure Counts (first : ItchParser) (initial : UInt64) (e : MarketDataEngine) : Prop where
  latency : e.config.enableLatencyMetrics = true
  gap : e.config.stopOnSequenceGap = false
  reached : Reached first initial (fun _ _ => True) e.processor
  count : e.processor.terminalStatus = .ok →
    e.latencyRecorder.count = e.processor.messageCount ∧ Ticked e.processor

theorem recordDuration_count (r : LatencyRecorder) (duration samples : UInt64) :
    (r.recordDuration duration samples).count = r.count + samples := by
  unfold LatencyRecorder.recordDuration
  split_ifs with h
  · rw [h, UInt64.add_zero]
  · rfl

theorem handleResult_processor (result : DecodeResult) (duration : UInt64) :
    (e.handleResult result duration).processor = e.processor
      ∧ (e.handleResult result duration).config = e.config := by
  unfold handleResult stop
  split_ifs <;> exact ⟨rfl, rfl⟩

/-- The samples of a result are recorded when it has no error. -/
theorem handleResult_count (hlatency : e.config.enableLatencyMetrics = true)
    (hgap : e.config.stopOnSequenceGap = false) (result : DecodeResult) (duration : UInt64) :
    (e.handleResult result duration).latencyRecorder.count
      = e.latencyRecorder.count + if result.status = .ok then result.latencySampleCount else 0 := by
  unfold handleResult
  by_cases hok : result.status = .ok
  · rw [if_pos hok, if_neg (by rw [hok]; decide), if_neg (not_not.2 hok), if_neg (by simp [hgap])]
    split_ifs with hs
    · exact recordDuration_count _ _ _
    · have h0 : result.latencySampleCount = 0 := by
        by_contra hne
        exact hs ⟨hlatency, hne⟩
      rw [h0, UInt64.add_zero]
  · rw [if_neg hok, UInt64.add_zero]
    split_ifs <;> rfl

/-- What is recorded for a packet is what it handed over. -/
theorem Counts.count_packet (h : Counts first initial e) {p : PacketView}
    (hticks : p.receiveStartTicks ≠ 0)
    (hok : (e.processor.processPacket p).2.terminalStatus = .ok) :
    (e.latencyRecorder.count + if (e.processor.processPacket p).1.status = .ok
        then (e.processor.processPacket p).1.latencySampleCount else 0)
      = (e.processor.processPacket p).2.messageCount
      ∧ Ticked (e.processor.processPacket p).2 := by
  have hlive : e.processor.terminalStatus = .ok := by
    by_contra hne
    rw [processPacket_terminal hne] at hok
    exact hne hok
  obtain ⟨hcount, hticked⟩ := h.count hlive
  rcases processPacket_outcome hticked hticks with ⟨hne, hsame⟩ | hout
  · rw [if_neg hne, hsame, UInt64.add_zero]
    exact ⟨hcount, hticked⟩
  cases hout with
  | ok hstatus hsampled hticked' _ =>
    rw [if_pos hstatus, hcount]
    exact ⟨hsampled.symm, hticked'⟩
  | stop hstatus hterm =>
    rw [hterm] at hok
    exact absurd hok hstatus

theorem Counts.step (h : Counts first initial e) (next : Option Arrival)
    (hticks : ∀ a ∈ next, a.packet.receiveStartTicks ≠ 0) : Counts first initial (e.step next) := by
  unfold MarketDataEngine.step
  split
  · exact h
  cases next with
  | none => exact h
  | some a =>
    dsimp only
    obtain ⟨hproc, hconfig⟩ := handleResult_processor
      (e := { e with processor := (e.processor.processPacket a.packet).2 })
      (e.processor.processPacket a.packet).1 a.duration
    refine ⟨by rw [hconfig]; exact h.latency, by rw [hconfig]; exact h.gap, ?_, ?_⟩
    · rw [hproc]
      exact h.reached.step (each_true a.packet)
    · rw [hproc, handleResult_count (e := { e with
        processor := (e.processor.processPacket a.packet).2 }) h.latency h.gap]
      exact fun hok => h.count_packet (hticks a rfl) hok

theorem Counts.run (h : Counts first initial e) {source : List (Option Arrival)}
    (hticks : ∀ a, some a ∈ source → a.packet.receiveStartTicks ≠ 0) :
    Counts first initial (e.run source) := by
  induction source generalizing e with
  | nil => exact h
  | cons next source ih =>
    refine ih (h.step next fun a ha => hticks a ?_) fun a ha => hticks a (List.mem_cons_of_mem _ ha)
    rw [Option.mem_def.1 ha]
    exact List.mem_cons_self

theorem counts_create (symbols : StockDirectory) (books : BookManager) (initial : UInt64)
    {config : EngineConfig} (hlatency : config.enableLatencyMetrics = true)
    (hgap : config.stopOnSequenceGap = false) :
    Counts (ItchParser.create symbols books) initial
      (create (.create symbols books initial) config) where
  latency := hlatency
  gap := hgap
  reached := reached_create symbols books initial _
  count := fun _ => ⟨rfl, GapBuffer.fresh_ok.size, by rintro _ ⟨_, _, h⟩; cases h⟩

/-! ## The end of the stream -/

theorem run_stopped (h : e.running = false) (source : List (Option Arrival)) :
    e.run source = e := by
  induction source with
  | nil => rfl
  | cons next source ih =>
    have hstep : e.step next = e := if_pos (by rw [h]; rfl)
    unfold run at ih ⊢
    rw [List.foldl_cons, hstep]
    exact ih

/-- The packet that ends the stream stops the engine, and its samples are not recorded. -/
theorem Counts.step_end (h : Counts first initial e) (hticks : a.packet.receiveStartTicks ≠ 0)
    (hlive : e.processor.terminalStatus = .ok)
    (hend : (e.step (some a)).processor.terminalStatus = .endOfStream) :
    e.step (some a) = { e with
      processor := (e.processor.processPacket a.packet).2
      running := false } := by
  have hrunning : e.running = true := by
    by_contra hstopped
    have hstep : e.step (some a) = e := if_pos (by simpa using hstopped)
    rw [hstep, hlive] at hend
    cases hend
  have hstep : e.step (some a) = { e with
      processor := (e.processor.processPacket a.packet).2 }.handleResult
        (e.processor.processPacket a.packet).1 a.duration := if_neg (by rw [hrunning]; decide)
  rw [hstep, (handleResult_processor _ _).1] at hend
  have hstatus : (e.processor.processPacket a.packet).1.status = .endOfStream := by
    rcases processPacket_outcome (h.count hlive).2 hticks with ⟨_, hsame⟩ | hout
    · rw [hsame, hlive] at hend
      cases hend
    cases hout with
    | ok _ _ _ hterm =>
      rw [hterm, hlive] at hend
      cases hend
    | stop _ hterm => exact hterm.symm.trans hend
  rw [hstep]
  unfold handleResult
  rw [if_pos hstatus]
  rfl

theorem run_append (source source' : List (Option Arrival)) :
    e.run (source ++ source') = (e.run source).run source' := List.foldl_append

/-- When the stream ends, every message is counted exactly when the end-of-session marker ended
it: the messages of a packet that ends the stream are not recorded. -/
theorem latency_count_iff (symbols : StockDirectory) (books : BookManager) (initial : UInt64)
    (config : EngineConfig) (hlatency : config.enableLatencyMetrics = true)
    (hgap : config.stopOnSequenceGap = false) (before after : List (Option Arrival)) (a : Arrival)
    (hticks : ∀ b, some b ∈ before ++ some a :: after → b.packet.receiveStartTicks ≠ 0)
    (hlive : ((create (.create symbols books initial) config).run
      before).processor.terminalStatus = .ok)
    (hend : ((create (.create symbols books initial) config).run
      (before ++ [some a])).processor.terminalStatus = .endOfStream) :
    let e := (create (.create symbols books initial) config).run (before ++ some a :: after)
    e.running = false
    ∧ e.processor.terminalStatus = .endOfStream
    ∧ (e.latencyRecorder.count.toNat
        = e.processor.channel.nextExpectedSeq.toNat - initial.toNat
      ↔ a.packet.IsEndOfSession) := by
  intro e
  have hmem : ∀ b, some b ∈ before → some b ∈ before ++ some a :: after :=
    fun b hb => List.mem_append_left _ hb
  have h : Counts (ItchParser.create symbols books) initial
      ((create (.create symbols books initial) config).run before) :=
    (counts_create symbols books initial hlatency hgap).run fun b hb => hticks b (hmem b hb)
  have ha : a.packet.receiveStartTicks ≠ 0 :=
    hticks a (List.mem_append_right _ List.mem_cons_self)
  rw [run_append] at hend
  have he : e = (((create (.create symbols books initial) config).run before).step
      (some a)).run after := run_append before (some a :: after)
  generalize (create (.create symbols books initial) config).run before = e₀ at h hlive hend he
  have hstep := h.step_end ha hlive hend
  rw [hstep, run_stopped rfl] at he
  have hend' : (e₀.processor.processPacket a.packet).2.terminalStatus = .endOfStream := by
    change (e₀.step (some a)).processor.terminalStatus = .endOfStream at hend
    rw [hstep] at hend
    exact hend
  rw [he]
  refine ⟨rfl, hend', ?_⟩
  rw [← h.reached.end_step hlive hend', (h.count hlive).1]
  have hbefore := h.reached.caughtUp (.inl hlive)
  have hafter := (h.reached.step (each_true a.packet)).caughtUp (.inr hend')
  have hle := UInt64.le_iff_toNat_le.1 (h.reached.next_le_step (each_true a.packet))
  have hlt := (e₀.processor.processPacket a.packet).2.channel.nextExpectedSeq.toNat_lt
  have hcount : e₀.processor.messageCount.toNat = e₀.processor.handed.length :=
    Nat.mod_eq_of_lt (by unfold CaughtUp at hbefore; omega)
  unfold CaughtUp at hbefore hafter
  rw [hcount, ← UInt64.toNat_inj]
  change _ = (e₀.processor.processPacket a.packet).2.channel.nextExpectedSeq.toNat - _ ↔ _
  omega

theorem step_processor (hrunning : e.running = true) :
    (e.step (some a)).processor = (e.processor.processPacket a.packet).2 := by
  unfold step
  rw [hrunning]
  exact (handleResult_processor _ _).1

/-- The engine runs on after a packet the decoder has taken in. -/
theorem Counts.step_running (h : Counts first initial e) (hrunning : e.running = true)
    (hticks : a.packet.receiveStartTicks ≠ 0) (hlive : e.processor.terminalStatus = .ok)
    (hok : (e.processor.processPacket a.packet).2.terminalStatus = .ok)
    (hmoved : (e.processor.processPacket a.packet).2 ≠ e.processor) :
    (e.step (some a)).running = true := by
  have hstatus : (e.processor.processPacket a.packet).1.status = .ok := by
    rcases processPacket_outcome (h.count hlive).2 hticks with ⟨_, hsame⟩ | hout
    · exact absurd hsame hmoved
    cases hout with
    | ok hstatus => exact hstatus
    | stop hne hterm => exact absurd (hterm.symm.trans hok) hne
  unfold MarketDataEngine.step
  rw [hrunning]
  unfold handleResult
  dsimp only
  rw [if_neg (by decide), if_neg (by rw [hstatus]; decide), if_neg (not_not.2 hstatus),
    if_neg (by simp [h.gap])]
  split <;> rfl

theorem run_one (next : Option Arrival) : e.run [next] = e.step next := rfl

theorem run_two (next next' : Option Arrival) :
    e.run [next, next'] = (e.step next).step next' := rfl

/-- The marker after a day of System Events: every message is counted. -/
theorem latency_count_iff_day : ∃ books, BookManager.create ⟨⟨1, 1⟩, ⟨1⟩⟩ 4096 = .ok books
    ∧ let e := (create (.create .fresh books 1) {}).run [some ⟨dayPacket, 5⟩, some ⟨dayMarker, 0⟩]
      e.latencyRecorder.count.toNat
        = e.processor.channel.nextExpectedSeq.toNat - (1 : UInt64).toNat := by
  obtain ⟨books, hm⟩ : ∃ books, BookManager.create ⟨⟨1, 1⟩, ⟨1⟩⟩ 4096 = .ok books := ⟨_, rfl⟩
  obtain ⟨hlive, hnext, hend⟩ := day_then_marker hm
  rw [show (MoldUdpDecoder.create .fresh books 1).run [dayPacket]
    = ((MoldUdpDecoder.create .fresh books 1).processPacket dayPacket).2 from
    run_snoc _ [] dayPacket] at hlive hnext hend
  have h : Counts (ItchParser.create .fresh books) 1 (create (.create .fresh books 1) {}) :=
    counts_create .fresh books 1 rfl rfl
  have hticks : ∀ b : Arrival, some b ∈ [some ⟨dayPacket, 5⟩] ++ [some ⟨dayMarker, 0⟩] →
      b.packet.receiveStartTicks ≠ 0 := by
    simp [dayPacket, dayMarker]
  have hiff := latency_count_iff .fresh books 1 {} rfl rfl [some ⟨dayPacket, 5⟩] []
    ⟨dayMarker, 0⟩ hticks
  rw [List.singleton_append] at hiff
  have hproc : (create (.create .fresh books 1) {}).processor = .create .fresh books 1 := rfl
  have hrun : (create (.create .fresh books 1) {}).running = true := rfl
  have hone : (MoldUdpDecoder.create .fresh books 1).channel.nextExpectedSeq = 1 := rfl
  have hok : (MoldUdpDecoder.create .fresh books 1).terminalStatus = .ok := rfl
  refine ⟨books, hm, ?_⟩
  generalize MoldUdpDecoder.create .fresh books 1 = d at *
  generalize create d {} = e at *
  have hday : (e.step (some ⟨dayPacket, 5⟩)).processor = (e.processor.processPacket dayPacket).2 :=
    step_processor hrun
  rw [hproc] at hday
  have hrunning := h.step_running (a := ⟨dayPacket, 5⟩) hrun (by decide) (by rw [hproc]; exact hok)
    (by rw [hproc]; exact hlive) (fun hsame => ?_)
  · have hmarker : ((e.step (some ⟨dayPacket, 5⟩)).step (some ⟨dayMarker, 0⟩)).processor
        = ((e.step (some ⟨dayPacket, 5⟩)).processor.processPacket dayMarker).2 :=
      step_processor hrunning
    rw [hday] at hmarker
    refine ((hiff ?_ ?_).2.2).2 (by decide +kernel)
    · rw [run_one, hday]
      exact hlive
    · rw [run_two, hmarker]
      exact hend
  · rw [hproc] at hsame
    rw [hsame, hone] at hnext
    exact absurd hnext (by decide)

/-- A marker ahead of the day's messages: the stream ends with them, and none is counted. -/
theorem latency_lost : ∃ books, BookManager.create ⟨⟨1, 1⟩, ⟨1⟩⟩ 4096 = .ok books
    ∧ let e := (create (.create .fresh books 1) {}).run [some ⟨dayMarker, 0⟩, some ⟨dayPacket, 5⟩]
      e.processor.terminalStatus = .endOfStream ∧ e.latencyRecorder.count = 0
      ∧ e.processor.channel.nextExpectedSeq = 7 := by
  obtain ⟨books, hm⟩ : ∃ books, BookManager.create ⟨⟨1, 1⟩, ⟨1⟩⟩ 4096 = .ok books := ⟨_, rfl⟩
  obtain ⟨hlive, hend, hnext⟩ := marker_then_day hm
  have h : Counts (ItchParser.create .fresh books) 1
      ((create (.create .fresh books 1) {}).step (some ⟨dayMarker, 0⟩)) := by
    refine (counts_create .fresh books 1 rfl rfl).step _ fun a ha => ?_
    cases ha
    decide
  have hproc : ((create (.create .fresh books 1) {}).step (some ⟨dayMarker, 0⟩)).processor
      = (MoldUdpDecoder.create .fresh books 1).run [dayMarker] := rfl
  have hrunning : ((create (.create .fresh books 1) {}).step (some ⟨dayMarker, 0⟩)).running
      = true := rfl
  have hcount : ((create (.create .fresh books 1) {}).step
      (some ⟨dayMarker, 0⟩)).latencyRecorder.count = 0 := rfl
  refine ⟨books, hm, ?_⟩
  rw [run_two]
  dsimp only
  generalize (create (.create .fresh books 1) {}).step (some ⟨dayMarker, 0⟩) = e at *
  have hday : (e.step (some ⟨dayPacket, 5⟩)).processor = (e.processor.processPacket dayPacket).2 :=
    step_processor hrunning
  rw [hproc] at hday
  have hlast := h.step_end (a := ⟨dayPacket, 5⟩) (by decide) (by rw [hproc]; exact hlive)
    (by rw [hday]; exact hend)
  refine ⟨?_, ?_, ?_⟩
  · rw [hday]
    exact hend
  · rw [hlast]
    exact hcount
  · rw [hday]
    exact hnext

end MarketDataEngine

end AstraFeed
