import AstraFeed.FeedPipeline
import AstraFeed.Lib.Interleaves
import AstraFeed.Proofs.CertifiedDay
import AstraFeed.Proofs.MarketDataEngine
import AstraFeed.Proofs.UdpBatchReceiver

/-!
# The feed behind the pipeline

The engine takes an interleaving of what came in on the lines, so the pipeline refines the feed
(`pipeline_refines`). What is missing on one line may come on the other: the engine stops at the end
of the stream when each datagram came on some line (`either_line_suffices`).
-/

namespace AstraFeed

open MoldUdpPacketHeader Wire ItchMoldUdpSource

/-! ## The status that is reported -/

namespace MoldUdpDecoder

variable {d : MoldUdpDecoder} {p : PacketView}

/-- The result says whether the decoder is terminal. -/
def Reports (out : DecodeResult × MoldUdpDecoder) : Prop := out.2.terminalStatus = out.1.status

theorem Reports.ite {c : Prop} [Decidable c] {a b : DecodeResult × MoldUdpDecoder}
    (ha : c → Reports a) (hb : ¬ c → Reports b) : Reports (if c then a else b) := by
  split
  · exact ha ‹_›
  · exact hb ‹_›

theorem reports_terminalFailure (status : DecodeStatus) : Reports (d.terminalFailure status) := rfl

theorem reports_processEndOfSession (hok : d.terminalStatus = .ok) (firstSeq : UInt64) :
    Reports (d.processEndOfSession firstSeq) := by
  unfold processEndOfSession
  exact .ite (fun _ => rfl) fun _ => .ite (fun _ => .ite (fun _ => rfl) fun _ => hok) fun _ =>
    .ite (fun _ => rfl) fun _ => .ite (fun _ => rfl) fun _ => rfl

theorem reports_processHeartbeat (hok : d.terminalStatus = .ok) (firstSeq : UInt64) :
    Reports (d.processHeartbeat firstSeq) := by
  unfold processHeartbeat
  refine .ite (fun _ => rfl) fun _ => .ite (fun _ => ?_) fun _ => .ite (fun _ => ?_) fun _ => hok
  · unfold Reports
    dsimp only
    split <;> exact hok
  · unfold Reports
    dsimp only
    split <;> exact hok

theorem reports_bufferAhead (hok : d.terminalStatus = .ok) (firstSeq : UInt64)
    (msgCount : UInt16) : Reports (d.bufferAhead p firstSeq msgCount) := by
  unfold bufferAhead
  refine .ite (fun _ => hok) fun _ => .ite (fun _ => rfl) fun _ => ?_
  dsimp only
  split
  · rfl
  · exact hok
  · exact hok
  · exact hok

theorem reports_concludeInOrder (hok : d.terminalStatus = .ok) {result : DecodeResult}
    (hresult : result.status = .ok) (hadGap : Bool) :
    Reports (d.concludeInOrder result hadGap) := by
  unfold concludeInOrder
  dsimp only
  rcases resolvePendingEndOfStream_cases d.settle with hres | ⟨hne, hend⟩
  · rw [hres, if_neg (not_not.2 rfl)]
    exact ((settle_terminal d).trans hok).trans hresult.symm
  · rw [if_pos hne]
    exact .ite (fun heq => (hend heq).trans heq.symm) fun _ => rfl

theorem reports_applyInOrder (hok : d.terminalStatus = .ok) (firstSeq : UInt64)
    (msgCount : UInt16) : Reports (d.applyInOrder p firstSeq msgCount) := by
  unfold applyInOrder
  dsimp only
  generalize (if firstSeq < d.channel.nextExpectedSeq then d.channel.nextExpectedSeq
    else firstSeq) = startSeq
  have hterm : (d.processSequencedPacket p.data firstSeq msgCount startSeq
      p.receiveStartTicks).2.terminalStatus = d.terminalStatus :=
    unparsed_terminalStatus.processSequencedPacket
  generalize d.processSequencedPacket p.data firstSeq msgCount startSeq p.receiveStartTicks = out
    at hterm ⊢
  generalize hb : (if out.2.channel.status = .gapDetected then out.2.setStatus .recovering
    else out.2).setNextExpectedSeq (firstSeq + msgCount.toUInt64) = b
  have hbterm : b.terminalStatus = d.terminalStatus := by
    rw [← hb]
    split <;> exact hterm
  have hdterm : b.drainGapBuffer.2.terminalStatus = b.terminalStatus :=
    unparsed_terminalStatus.drainLoop (fun _ _ => rfl) (fun _ _ => rfl)
  generalize b.drainGapBuffer = drained at hdterm
  refine .ite (fun _ => reports_terminalFailure _) fun hstatus =>
    .ite (fun _ => reports_terminalFailure _) fun _ => ?_
  have hmerged : (mergeLatency out.1 drained.1).status = .ok := not_not.1 hstatus
  exact reports_concludeInOrder (hdterm.trans (hbterm.trans hok)) hmerged _

theorem reports_processData (hok : d.terminalStatus = .ok) (firstSeq : UInt64)
    (msgCount : UInt16) : Reports (d.processData p firstSeq msgCount) := by
  unfold processData
  exact .ite (fun _ => rfl) fun _ => .ite (fun _ => rfl) fun _ => .ite (fun _ => rfl) fun _ =>
    .ite (fun _ => hok) fun _ => .ite (fun _ => reports_bufferAhead hok _ _) fun _ =>
    reports_applyInOrder hok _ _

/-- The status of a packet that has a header is that of the decoder. -/
theorem reports_processPacket (hsize : kHeaderSize ≤ p.data.length) :
    Reports (d.processPacket p) := by
  unfold processPacket
  refine .ite (fun _ => rfl) fun hlive => .ite (fun hsmall => absurd hsize hsmall.not_ge) fun _ => ?_
  have hok : (d.bindSession p.data).terminalStatus = .ok :=
    (terminalStatus_bindSession p.data).trans (not_not.1 hlive)
  exact .ite (fun _ => rfl) fun _ => .ite (fun _ => rfl) fun _ =>
    .ite (fun _ => reports_processEndOfSession hok _) fun _ =>
    .ite (fun _ => reports_processHeartbeat hok _) fun _ => reports_processData hok _ _

end MoldUdpDecoder

/-! ## When the engine stops -/

namespace MarketDataEngine

open MoldUdpDecoder

variable {e : MarketDataEngine}

/-- The engine stops for a decoder that is terminal only, and at the end of the stream. -/
structure Halts (e : MarketDataEngine) : Prop where
  gap : e.config.stopOnSequenceGap = false
  stopped : e.running = false → e.processor.terminalStatus ≠ .ok
  ended : e.processor.terminalStatus = .endOfStream → e.running = false

theorem halts_create (symbols : StockDirectory) (books : BookManager) (initial : UInt64)
    {config : EngineConfig} (hgap : config.stopOnSequenceGap = false) :
    Halts (create (.create symbols books initial) config) :=
  ⟨hgap, fun h => (by cases h), fun h => (by cases h)⟩

theorem handleResult_running (hgap : e.config.stopOnSequenceGap = false) (hrun : e.running = true)
    (result : DecodeResult) (duration : UInt64) :
    ((e.handleResult result duration).running = false → result.status ≠ .ok)
      ∧ (result.status = .endOfStream → (e.handleResult result duration).running = false) := by
  unfold handleResult
  refine ⟨fun hstop hok => ?_, fun hend => by rw [if_pos hend]; rfl⟩
  rw [if_neg (by rw [hok]; decide), if_neg (not_not.2 hok), if_neg (by simp [hgap])] at hstop
  split at hstop <;> exact absurd (hrun.symm.trans hstop) (by decide)

theorem Halts.step (h : Halts e) {next : Option Arrival}
    (hsize : ∀ a ∈ next, kHeaderSize ≤ a.packet.data.length) : Halts (e.step next) := by
  unfold MarketDataEngine.step
  split
  · exact h
  rename_i hrunning
  cases next with
  | none => exact h
  | some a =>
    have hreport : (e.processor.processPacket a.packet).2.terminalStatus
        = (e.processor.processPacket a.packet).1.status := reports_processPacket (hsize a rfl)
    dsimp only
    generalize e.processor.processPacket a.packet = out at hreport
    obtain ⟨hproc, hconfig⟩ := handleResult_processor (e := { e with processor := out.2 }) out.1
      a.duration
    obtain ⟨hstopped, hended⟩ := handleResult_running (e := { e with processor := out.2 }) h.gap
      (by simpa using hrunning) out.1 a.duration
    refine ⟨by rw [hconfig]; exact h.gap, fun hstop => ?_, fun hend => hended ?_⟩
    · rw [hproc, hreport]
      exact hstopped hstop
    · rw [hproc, hreport] at hend
      exact hend

end MarketDataEngine

/-! ## What came in -/

/-- What arrives fits a buffer of the receivers. -/
theorem Arrives.length {session : List UInt8} {packets : List PacketView}
    {taken : List (List UInt8)} {copies : ℕ} {p : PacketView}
    (h : Arrives session packets taken copies p) (hemitted : Emitted session 1 packets taken) :
    kHeaderSize ≤ p.data.length ∧ p.data.length ≤ UdpBatchReceiver.kMaxPacketSize := by
  cases h with
  | data hq heq =>
    obtain ⟨hd, hsize, -⟩ := hemitted.packet _ hq
    rw [heq]
    exact ⟨hd.header, hsize.trans (by decide)⟩
  | heartbeat hb => exact ⟨hb.1.ge, hb.1.le.trans (by decide)⟩
  | endOfSession hm => exact ⟨hm.1.ge, hm.1.le.trans (by decide)⟩

theorem FeedSystem.Linked.length {config : SenderConfig} {file : BinaryFile} {books : BookManager}
    {s : FeedSystem} (h : Linked config file books s) {data : List UInt8}
    (hdata : data ∈ s.sender.wire) :
    kHeaderSize ≤ data.length ∧ data.length ≤ UdpBatchReceiver.kMaxPacketSize := by
  obtain ⟨packets, taken, copies, hs⟩ := h.sender
  exact (hs.wired.arrives (p := ⟨data, 0⟩) hdata).length hs.wired.emitted

/-- A poll for what the lines have. -/
def PipelineEvent.Attends : PipelineEvent → Prop
  | .poll outcome _ _ => ∀ line, (outcome line).Attends
  | _ => False

namespace FeedPipeline

open Function UdpBatchReceiver

variable {config : SenderConfig} {file : BinaryFile} {books : BookManager}
  {engineConfig : EngineConfig} {batchSize : ℕ} {s : FeedPipeline}

/-- The feed behind the pipeline. -/
def feed (s : FeedPipeline) : FeedSystem := ⟨s.sender, s.engine.processor, s.lines.taken⟩

/-- The feed goes the same way. -/
def Refines (config : SenderConfig) (file : BinaryFile) (books : BookManager) (s : FeedPipeline) :
    Prop :=
  ∃ events, (FeedSystem.create config file books).run config events = s.feed

structure Piped (config : SenderConfig) (file : BinaryFile) (books : BookManager)
    (s : FeedPipeline) : Prop where
  refines : Refines config file books s
  accounted : ∃ given, s.lines.Accounted given
  sent : ∀ line, ∀ datagram ∈ s.lines.arrived line,
    datagram.data ∈ s.sender.wire ∧ datagram.fits = true

theorem piped_create (config : SenderConfig) (file : BinaryFile) (books : BookManager)
    (engineConfig : EngineConfig) (batchSize : ℕ) :
    Piped config file books (create config file books engineConfig batchSize) where
  refines := ⟨[], rfl⟩
  accounted := ⟨_, FeedLines.accounted_create batchSize⟩
  sent := fun _ _ h => absurd h List.not_mem_nil

theorem Refines.linked (h : Refines config file books s) :
    FeedSystem.Linked config file books s.feed := by
  obtain ⟨events, heq⟩ := h
  rw [← heq]
  exact FeedSystem.linked_run config file books events

theorem Refines.step (h : Refines config file books s) {s' : FeedPipeline} (event : FeedEvent)
    (hstep : s.feed.step config event = s'.feed) : Refines config file books s' := by
  obtain ⟨events, heq⟩ := h
  refine ⟨events ++ [event], ?_⟩
  rw [FeedSystem.run, List.foldl_append]
  change ((FeedSystem.create config file books).run config events).step config event = _
  rw [heq, hstep]

theorem Piped.choose (h : Piped config file books s) (choice : SenderChoice) :
    Piped config file books (s.step config (.choose choice)) := by
  have hwire : s.sender.wire ⊆ ((s.sender.step config choice).getD s.sender).wire := by
    cases hstep : s.sender.step config choice with
    | none => exact fun _ hm => hm
    | some sender => exact (ItchMoldUdpSender.step_moves hstep).wire.subset
  exact ⟨h.refines.step (.choose choice) rfl, h.accounted,
    fun line d hd => (h.sent line d hd).imp_left fun hm => hwire hm⟩

theorem Piped.arrive (h : Piped config file books s) (line : Line) {data : List UInt8}
    (hdata : data ∈ s.sender.wire) (drops : Option UInt32) :
    Piped config file books (s.arrive line data drops) := by
  have hlength := (h.refines.linked.length hdata).2
  obtain ⟨given, ha⟩ := h.accounted
  refine ⟨h.refines, ⟨given, ha.arrive line _⟩, fun l d hd => ?_⟩
  unfold FeedPipeline.arrive FeedLines.arrive at hd
  dsimp only at hd
  rcases eq_or_ne l line with rfl | hl
  · rw [update_self] at hd
    rcases List.mem_append.1 hd with hd | hd
    · exact h.sent l d hd
    · rw [List.mem_singleton.1 hd]
      exact ⟨hdata, by simp [Datagram.fits, shouldDropDatagram, hlength]⟩
  · rw [update_of_ne hl] at hd
    exact h.sent l d hd

theorem step_processor (hrunning : s.engine.running = true) (next : Option Arrival) :
    (s.engine.step next).processor
      = next.elim s.engine.processor fun a => (s.engine.processor.processPacket a.packet).2 := by
  cases next with
  | none =>
    unfold MarketDataEngine.step
    rw [hrunning]
    rfl
  | some a => exact MarketDataEngine.step_processor hrunning

theorem Piped.poll (h : Piped config file books s) (outcome : Line → RecvOutcome)
    (ticks : Line → UInt64) (duration : UInt64) :
    Piped config file books (s.poll outcome ticks duration) := by
  unfold FeedPipeline.poll
  split
  · exact h
  rename_i hstopped
  have hrunning : s.engine.running = true := by simpa using hstopped
  obtain ⟨given, ha⟩ := h.accounted
  obtain ⟨given', ha'⟩ := ha.next outcome ticks
  have hnext : (s.lines.next outcome ticks).2.taken
      = s.lines.taken ++ (s.lines.next outcome ticks).1.toList := rfl
  have harrived : (s.lines.next outcome ticks).2.arrived = s.lines.arrived := rfl
  refine ⟨?_, ⟨given', ha'⟩, h.sent⟩
  dsimp only
  generalize s.lines.next outcome ticks = out at ha' hnext harrived
  obtain ⟨packet | packet, lines⟩ := out
  · obtain ⟨events, heq⟩ := h.refines
    refine ⟨events, heq.trans ?_⟩
    unfold feed
    dsimp only [Option.map_none]
    rw [step_processor hrunning, hnext, Option.toList_none, List.append_nil]
    rfl
  · -- the packet was sent, so the feed can deliver it
    obtain ⟨line, datagram, hmem, hdata⟩ := ha'.mem_arrived (p := packet)
      (by rw [hnext]; exact List.mem_append_right _ List.mem_cons_self)
    rw [harrived] at hmem
    obtain ⟨index, hindex⟩ := List.mem_iff_getElem?.1 (hdata ▸ (h.sent line datagram hmem).1)
    refine h.refines.step (.deliver index packet.receiveStartTicks) ?_
    unfold FeedSystem.step feed
    dsimp only [Option.map_some]
    rw [hindex, step_processor hrunning, hnext]
    rfl

theorem Piped.step (h : Piped config file books s) (event : PipelineEvent) :
    Piped config file books (s.step config event) := by
  cases event with
  | choose choice => exact h.choose choice
  | arrive line index drops =>
    unfold FeedPipeline.step
    dsimp only
    split
    · exact h.arrive line (List.mem_of_getElem? ‹_›) drops
    · exact h
  | poll outcome ticks duration => exact h.poll outcome ticks duration

theorem Piped.run (h : Piped config file books s) (events : List PipelineEvent) :
    Piped config file books (s.run config events) := by
  induction events generalizing s with
  | nil => exact h
  | cons event events ih => exact ih (h.step event)

theorem piped_run (config : SenderConfig) (file : BinaryFile) (books : BookManager)
    (engineConfig : EngineConfig) (batchSize : ℕ) (events : List PipelineEvent) :
    Piped config file books ((create config file books engineConfig batchSize).run config events) :=
  (piped_create config file books engineConfig batchSize).run events

/-- The sender, the decoder and what it takes go as the feed does. What was taken is an interleaving
of the lines; on each, what came in was taken in its order or waits, and nothing is dropped. -/
theorem pipeline_refines (config : SenderConfig) (file : BinaryFile) (books : BookManager)
    (engineConfig : EngineConfig) (batchSize : ℕ) (events : List PipelineEvent) :
    let s := (create config file books engineConfig batchSize).run config events
    (∃ feedEvents, (FeedSystem.create config file books).run config feedEvents
        = ⟨s.sender, s.engine.processor, s.lines.taken⟩)
      ∧ ∃ given, Interleaves given (s.lines.taken.map (·.data)) ∧ ∀ line,
        let r := s.lines.receiver.receiver line
        (s.lines.arrived line).map (·.data)
            = given line ++ r.waiting ++ (s.lines.queue line).map (·.data)
          ∧ r.truncatedCount = 0 := by
  intro s
  have h : Piped config file books s := piped_run config file books engineConfig batchSize events
  obtain ⟨given, ha⟩ := h.accounted
  exact ⟨h.refines, given, ha.merged, fun line =>
    (ha.lines line).of_fits fun d hd => (h.sent line d hd).2⟩

/-! ## The end of the stream -/

theorem Piped.length_taken (h : Piped config file books s) {p : PacketView}
    (hp : p ∈ s.lines.taken) : kHeaderSize ≤ p.data.length := by
  obtain ⟨given, ha⟩ := h.accounted
  obtain ⟨line, datagram, hmem, hdata⟩ := ha.mem_arrived hp
  exact (h.refines.linked.length (hdata ▸ (h.sent line datagram hmem).1)).1

theorem Piped.halts_poll (h : Piped config file books s) (hs : s.engine.Halts)
    (outcome : Line → RecvOutcome) (ticks : Line → UInt64) (duration : UInt64) :
    (s.poll outcome ticks duration).engine.Halts := by
  have hsize : s.engine.running = true → ∀ p ∈ (s.lines.next outcome ticks).1,
      kHeaderSize ≤ p.data.length := by
    intro hrunning p hp
    refine (h.poll outcome ticks duration).length_taken ?_
    have htaken : (s.poll outcome ticks duration).lines.taken
        = s.lines.taken ++ (s.lines.next outcome ticks).1.toList := by
      unfold FeedPipeline.poll
      rw [hrunning]
      rfl
    rw [htaken, Option.mem_def.1 hp]
    exact List.mem_append_right _ List.mem_cons_self
  unfold FeedPipeline.poll
  split
  · exact hs
  rename_i hstopped
  refine hs.step fun a ha => ?_
  obtain ⟨p, hp, rfl⟩ := Option.map_eq_some_iff.1 ha
  exact hsize (by simpa using hstopped) p hp

theorem Piped.halts_run (h : Piped config file books s) (hs : s.engine.Halts)
    (events : List PipelineEvent) : (s.run config events).engine.Halts := by
  induction events generalizing s with
  | nil => exact hs
  | cons event events ih =>
    refine ih (h.step event) ?_
    cases event with
    | choose choice => exact hs
    | arrive line index drops =>
      unfold FeedPipeline.step
      dsimp only
      split <;> exact hs
    | poll outcome ticks duration => exact h.halts_poll hs outcome ticks duration

/-- What polls leave alone, and what they get done while the engine runs. -/
theorem Piped.attend (h : Piped config file books s) {event : PipelineEvent}
    (hattends : event.Attends) :
    let s' := s.step config event
    s'.sender = s.sender ∧ s'.lines.arrived = s.lines.arrived
      ∧ (s'.engine.running = true → s.engine.running = true ∧ s'.lines.owed = s.lines.owed - 1) := by
  cases event with
  | choose choice => exact hattends.elim
  | arrive line index drops => exact hattends.elim
  | poll outcome ticks duration =>
    obtain ⟨given, ha⟩ := h.accounted
    have hfits : ∀ line, ∀ datagram ∈ s.lines.queue line, datagram.fits = true := by
      intro line datagram hd
      obtain ⟨read, harrived, -⟩ := (ha.lines line).read
      exact (h.sent line datagram (harrived ▸ List.mem_append_right _ hd)).2
    unfold FeedPipeline.step FeedPipeline.poll
    dsimp only
    split
    · rename_i hstopped
      refine ⟨rfl, rfl, fun hrunning => ?_⟩
      rw [hrunning] at hstopped
      cases hstopped
    · rename_i hstopped
      exact ⟨rfl, rfl, fun _ => ⟨by simpa using hstopped, ha.owed_next hattends hfits⟩⟩

theorem Piped.attend_run (h : Piped config file books s) {polls : List PipelineEvent}
    (hattends : ∀ event ∈ polls, event.Attends) :
    let t := s.run config polls
    t.sender = s.sender ∧ t.lines.arrived = s.lines.arrived
      ∧ (t.engine.running = true → s.engine.running = true
        ∧ t.lines.owed = s.lines.owed - polls.length) := by
  induction polls generalizing s with
  | nil => exact ⟨rfl, rfl, fun hrunning => ⟨hrunning, rfl⟩⟩
  | cons event polls ih =>
    obtain ⟨hsender, harrived, howed⟩ := h.attend (hattends event List.mem_cons_self)
    obtain ⟨hsender', harrived', howed'⟩ :=
      ih (h.step event) fun e he => hattends e (List.mem_cons_of_mem _ he)
    refine ⟨hsender'.trans hsender, harrived'.trans harrived, fun hrunning => ?_⟩
    obtain ⟨hmid, hrest⟩ := howed' hrunning
    obtain ⟨hstart, hone⟩ := howed hmid
    refine ⟨hstart, ?_⟩
    change ((s.step config event).run config polls).lines.owed = _
    rw [hrest, hone, List.length_cons]
    omega

/-- In no state up to here is the gap buffer full. -/
def HasRoom (config : SenderConfig) (file : BinaryFile) (books : BookManager)
    (engineConfig : EngineConfig) (batchSize : ℕ) (events : List PipelineEvent) : Prop :=
  ∀ earlier, earlier <+: events →
    ((create config file books engineConfig batchSize).run config
      earlier).engine.processor.channel.gapBuffer.size < GapBuffer.kCapacity

theorem appends_taken (config : SenderConfig) :
    RunLog.Appends (FeedPipeline.step config) (·.lines.taken) := by
  rintro s (_ | ⟨line, index, drops⟩ | ⟨outcome, ticks, duration⟩)
  · exact .inl rfl
  · unfold FeedPipeline.step
    dsimp only
    split <;> exact .inl rfl
  · unfold FeedPipeline.step FeedPipeline.poll
    dsimp only
    split
    · exact .inl rfl
    · unfold FeedLines.next
      dsimp only
      generalize s.lines.receiver.next outcome ticks s.lines.queue = out
      obtain ⟨packet | packet, rest⟩ := out
      · exact .inl (List.append_nil _)
      · exact .inr ⟨packet, rfl⟩

theorem HasRoom.taken {events : List PipelineEvent}
    (h : HasRoom config file books engineConfig batchSize events) {before : List PacketView}
    (hbefore : before
      <+: ((create config file books engineConfig batchSize).run config events).lines.taken) :
    ((MoldUdpDecoder.create .fresh books 1).run before).channel.gapBuffer.size
      < GapBuffer.kCapacity := by
  obtain ⟨earlier, hpre, hlog⟩ := (appends_taken config).exists_earlier rfl hbefore
  have hdecoder :=
    (piped_run config file books engineConfig batchSize earlier).refines.linked.decoder
  change ((create config file books engineConfig batchSize).run config earlier).lines.taken
    = before at hlog
  rw [← hlog]
  exact hdecoder ▸ h earlier hpre

/-- Fewer events than the gap buffer has slots leave it room. -/
theorem hasRoom_of_length_lt {events : List PipelineEvent}
    (h : events.length < GapBuffer.kCapacity) :
    HasRoom config file books engineConfig batchSize events := by
  intro earlier hpre
  have hdecoder :=
    (piped_run config file books engineConfig batchSize earlier).refines.linked.decoder
  have hlen := (appends_taken config).length_le
    (create config file books engineConfig batchSize) earlier
  have hwait := (MoldUdpDecoder.waiting_run .fresh books 1
    ((create config file books engineConfig batchSize).run config earlier).lines.taken).size_le
  change ((create config file books engineConfig batchSize).run config
    earlier).engine.processor = _ at hdecoder
  rw [hdecoder]
  have hzero : (create config file books engineConfig batchSize).lines.taken.length = 0 := rfl
  rw [hzero, Nat.zero_add] at hlen
  exact (hwait.trans hlen).trans_lt (hpre.length_le.trans_lt h)

/-- Where no packet waits, all that came in was taken. -/
theorem Piped.taken_of_owed (h : Piped config file books s) (howed : s.lines.owed = 0) {line : Line}
    {datagram : Datagram} (hd : datagram ∈ s.lines.arrived line) :
    ∃ p ∈ s.lines.taken, p.data = datagram.data := by
  obtain ⟨given, ha⟩ := h.accounted
  obtain ⟨harrived, -⟩ := (ha.lines line).of_fits fun d hd => (h.sent line d hd).2
  have hline : s.lines.owedOn line = 0 := by
    obtain ⟨ha0, hb0⟩ := Nat.add_eq_zero_iff.1 howed
    cases line
    · exact ha0
    · exact hb0
  obtain ⟨hwaiting, hqueue⟩ := Nat.add_eq_zero_iff.1 hline
  rw [List.eq_nil_of_length_eq_zero hwaiting, List.eq_nil_of_length_eq_zero hqueue,
    List.map_nil, List.append_nil, List.append_nil] at harrived
  have hmem : datagram.data ∈ given line := harrived ▸ List.mem_map_of_mem hd
  exact List.mem_map.1 ((ha.merged.sublist line).subset hmem)

/-- Where the parser accepts the records and the gap buffer is never full: once the replay has
finished, cut short by no line and no signal, and each of its datagrams came in on one of the lines,
as many polls as datagrams wait end the stream and stop the engine, with every record handed
over. -/
theorem either_line_suffices (config : SenderConfig) (file : BinaryFile)
    {bookConfig : BookManagerConfig} {systemPageBytes : ℕ}
    (hbooks : BookManager.create bookConfig systemPageBytes = .ok books)
    {records : List (List UInt8)} (hlongest : IsLongest file.bytes records)
    (haccepted : (ItchParser.create .fresh books).AcceptsAll records)
    (hgrammar : InGrammar config.completionPolicy file.bytes)
    (hgap : engineConfig.stopOnSequenceGap = false) (events polls : List PipelineEvent)
    (hattends : ∀ event ∈ polls, event.Attends)
    (hroom : HasRoom config file books engineConfig batchSize (events ++ polls)) :
    let s := (create config file books engineConfig batchSize).run config events
    let t := s.run config polls
    s.sender.stage = .finished → s.sender.transmissionFailed = false →
      s.sender.interrupted = false →
      (∀ data ∈ s.sender.wire, readU16BE data 18 ≠ 0 →
        ∃ line, ∃ datagram ∈ s.lines.arrived line, datagram.data = data) →
      s.lines.owed ≤ polls.length →
      t.engine.running = false ∧ t.engine.processor.terminalStatus = .endOfStream
        ∧ t.engine.processor.handed.map Prod.snd = records := by
  intro s t hend hsent hdone hall howed
  have hs : Piped config file books s := piped_run config file books engineConfig batchSize events
  have ht : Piped config file books t := hs.run polls
  have hhalts : t.engine.Halts :=
    hs.halts_run ((piped_create config file books engineConfig batchSize).halts_run
      (MarketDataEngine.halts_create .fresh books 1 hgap) events) polls
  obtain ⟨hsender, harrived, hattended⟩ := hs.attend_run hattends
  have hrun : (create config file books engineConfig batchSize).run config (events ++ polls) = t :=
    List.foldl_append ..
  have hlinked := ht.refines.linked
  obtain ⟨packets, taken, copies, hsending⟩ := hlinked.sender
  have htaken := hlongest.2 _ hsending.wired.begins
  have hfollows := hlinked.follows hsending hbooks (acceptsAll_of_isPrefix haccepted htaken)
    fun before hbefore => hroom.taken (by rw [hrun]; exact hbefore)
  have hended : t.engine.processor.terminalStatus = .endOfStream := by
    cases hrunning : t.engine.running with
    | false =>
      rcases hfollows with hf | hdone
      · exact absurd hf.recovering.ok (hhalts.stopped hrunning)
      · exact hdone
    | true =>
      -- every packet was taken
      have hzero : t.lines.owed = 0 := by
        have hrest := (hattended hrunning).2
        change t.lines.owed = _ at hrest
        omega
      have hdelivered : FeedSystem.AllDelivered t.feed := by
        intro data hdata hcount
        obtain ⟨line, datagram, hd, rfl⟩ := hall data (hsender ▸ hdata) hcount
        exact ht.taken_of_owed hzero (harrived ▸ hd)
      have hc : copies ≠ 0 := FeedSystem.copies_ne_zero hsending hgrammar
        ((congrArg _ hsender).trans hend) ((congrArg _ hsender).trans hsent)
        ((congrArg _ hsender).trans hdone)
      exact (hlinked.ends hsending hfollows hlongest hdelivered hc).1
  obtain ⟨hcomplete, -, hhanded⟩ := hlinked.complete hsending hended
  exact ⟨hhalts.ended hended, hended, hhanded.trans (isLongest_unique hcomplete hlongest)⟩

/-- The day with an order, half of it on each line. -/
def splitDay : List PipelineEvent :=
  FeedSystem.orderDayReplay.map .choose ++ [5, 3, 1].map (.arrive .a · none)
    ++ [8, 6, 4, 2, 3].map (.arrive .b · none)

def splitDayPolls : List PipelineEvent :=
  List.replicate 8 (.poll (fun _ => .received 1) (fun _ => 7) 5)

theorem either_line_suffices_splitDay : ∃ books,
    BookManager.create ⟨⟨2, 1⟩, ⟨1⟩⟩ 4096 = .ok books
    ∧ (((create FeedSystem.orderDayConfig ItchTraceProfile.orderDayFile books {} 1).run
      FeedSystem.orderDayConfig splitDay).run FeedSystem.orderDayConfig
      splitDayPolls).engine.running = false := by
  obtain ⟨books, hbooks, hend, hsent, hdone, hall, howed⟩ : ∃ books,
      BookManager.create ⟨⟨2, 1⟩, ⟨1⟩⟩ 4096 = .ok books
      ∧ let s := (create FeedSystem.orderDayConfig ItchTraceProfile.orderDayFile books {} 1).run
          FeedSystem.orderDayConfig splitDay
        FeedSystem.isFinished s.sender.stage = true
          ∧ s.sender.transmissionFailed = false ∧ s.sender.interrupted = false
          ∧ (∀ data ∈ s.sender.wire, readU16BE data 18 ≠ 0 →
            (∃ d ∈ s.lines.arrived .a, d.data = data) ∨ ∃ d ∈ s.lines.arrived .b, d.data = data)
          ∧ s.lines.owed ≤ splitDayPolls.length := ⟨_, rfl, by decide +kernel⟩
  have hattends : ∀ event ∈ splitDayPolls, event.Attends := by
    intro event he
    rw [List.eq_of_mem_replicate he]
    exact fun _ => ⟨0, rfl⟩
  have hroom : HasRoom FeedSystem.orderDayConfig ItchTraceProfile.orderDayFile books {} 1
      (splitDay ++ splitDayPolls) := hasRoom_of_length_lt (by decide)
  have hday := either_line_suffices FeedSystem.orderDayConfig ItchTraceProfile.orderDayFile hbooks
    ItchTraceProfile.holds_orderDay.isLongest (FeedSystem.accepts_orderDay hbooks)
    ItchTraceProfile.holds_orderDay.inGrammar rfl splitDay splitDayPolls hattends hroom
  have hlines : ∀ data ∈ ((create FeedSystem.orderDayConfig ItchTraceProfile.orderDayFile books {}
      1).run FeedSystem.orderDayConfig splitDay).sender.wire, readU16BE data 18 ≠ 0 →
      ∃ line, ∃ datagram ∈ ((create FeedSystem.orderDayConfig ItchTraceProfile.orderDayFile books {}
        1).run FeedSystem.orderDayConfig splitDay).lines.arrived line, datagram.data = data := by
    intro data hdata hcount
    rcases hall data hdata hcount with h | h
    · exact ⟨.a, h⟩
    · exact ⟨.b, h⟩
  exact ⟨books, hbooks, (hday (FeedSystem.eq_finished hend) hsent hdone hlines howed).1⟩

end FeedPipeline

end AstraFeed
