import AstraFeed.FeedSystem
import AstraFeed.Proofs.EndOfSession
import AstraFeed.Proofs.ItchMoldUdpSender
import AstraFeed.Proofs.TraceRun

/-!
# What arrives is what the file holds

Whatever the lines do, the decoder hands over records of the file once each and in their order, and
accepts the end of the stream after the last record of a complete file only (`feed_is_safe`).
-/

namespace AstraFeed

open MoldUdpPacketHeader Wire ItchMoldUdpSource

/-! ## What arrives -/

/-- A packet of the records, a heartbeat on the way, or the end of the session. -/
inductive Arrives (session : List UInt8) (packets : List PacketView) (taken : List (List UInt8))
    (copies : ℕ) (p : PacketView) : Prop
  | data {q : PacketView} (hq : q ∈ packets) (heq : p.data = q.data)
  | heartbeat (hb : p.IsHeartbeat) (hs : p.session = session)
    (hle : p.firstSeq.toNat ≤ 1 + taken.length)
  | endOfSession (hm : p.IsEndOfSession) (hs : p.session = session)
    (hseq : p.firstSeq = UInt64.ofNat (1 + taken.length)) (hc : copies ≠ 0)

theorem IsPacket.of_data {session : List UInt8} {seq : ℕ} {msgs : List (List UInt8)}
    {p q : PacketView} (h : IsPacket session seq msgs q) (heq : p.data = q.data) :
    IsPacket session seq msgs p :=
  ⟨heq.trans h.data, h.session, h.seq_lt, h.nonempty, h.count_lt, h.sized⟩

section Arrival

variable {config : SenderConfig} {file : BinaryFile} {packets : List PacketView}
  {taken : List (List UInt8)} {copies : ℕ} {wire : List (List UInt8)} {session : List UInt8}
  {p q : PacketView}

theorem Wired.arrives (h : Wired config file packets taken copies wire) (hp : p.data ∈ wire) :
    Arrives (resizeSession config.session) packets taken copies p := by
  by_cases hbeat : readU16BE p.data 18 = 0
  · obtain ⟨seq, -, hle, heq⟩ := h.heartbeats _ hp hbeat
    refine .heartbeat ⟨?_, hbeat⟩ ?_ ?_
    · rw [heq]
      exact length_makeMoldControlPacket
    · rw [PacketView.session, heq]
      exact session_makeMoldControlPacket
    · rw [PacketView.firstSeq, heq, makeMoldHeartbeatPacket, readU64BE_makeMoldControlPacket]
      exact hle
  · have hmem : p.data ∈ wire.filter (fun data => readU16BE data 18 ≠ 0) := by
      simp [hp, hbeat]
    rw [h.traffic, List.mem_append, List.mem_map, List.mem_replicate] at hmem
    rcases hmem with ⟨q, hq, heq⟩ | ⟨hc, heq⟩
    · exact .data hq heq.symm
    · refine .endOfSession ⟨?_, ?_⟩ ?_ ?_ hc
      · rw [heq]
        exact length_makeMoldControlPacket
      · rw [PacketView.msgCount, heq, makeMoldEndOfSessionPacket, readU16BE_makeMoldControlPacket]
      · rw [PacketView.session, heq]
        exact session_makeMoldControlPacket
      · rw [PacketView.firstSeq, heq, makeMoldEndOfSessionPacket, readU64BE_makeMoldControlPacket]

/-- The message at a sequence. -/
def messageAt (taken : List (List UInt8)) (seq : ℕ) : List UInt8 := taken.getD (seq - 1) []

/-- A message of the records, at its sequence. -/
def IsMessageAt (taken : List (List UInt8)) (seq : ℕ) (msg : List UInt8) : Prop :=
  1 ≤ seq ∧ taken[seq - 1]? = some msg

theorem IsMessageAt.eq {seq : ℕ} {msg : List UInt8} (h : IsMessageAt taken seq msg) :
    msg = messageAt taken seq := by
  unfold messageAt
  rw [List.getD_eq_getElem?_getD, h.2]
  rfl

/-- A packet of the records, with the place of its messages. -/
theorem Arrives.slice (h : Arrives session packets taken copies p)
    (hemitted : Emitted session 1 packets taken) (hd : p.IsData) :
    ∃ before own after, taken = before ++ own ++ after
      ∧ IsPacket session (1 + before.length) own p := by
  cases h with
  | data hq heq =>
    obtain ⟨before, own, after, htaken, hown⟩ := hemitted.slice hq
    exact ⟨before, own, after, htaken, hown.of_data heq⟩
  | heartbeat hb => exact absurd hb.2 hd.msgCount_ne_zero
  | endOfSession hm => exact absurd hm.2 hd.msgCount_ne_end

theorem Arrives.ended (h : Arrives session packets taken copies p)
    (hemitted : Emitted session 1 packets taken) (hm : p.IsEndOfSession) :
    p.firstSeq = UInt64.ofNat (1 + taken.length) ∧ copies ≠ 0 := by
  cases h with
  | data hq heq =>
    obtain ⟨_, _, _, -, hown⟩ := hemitted.slice hq
    exact absurd hm.2 (hown.of_data heq).isData.msgCount_ne_end
  | heartbeat hb => exact absurd (hb.2.symm.trans hm.2) (by decide)
  | endOfSession _ _ hseq hc => exact ⟨hseq, hc⟩

theorem Arrives.each (h : Arrives session packets taken copies p)
    (hemitted : Emitted session 1 packets taken) (hd : p.IsData) : p.Each (IsMessageAt taken) := by
  obtain ⟨before, own, after, htaken, hown⟩ := h.slice hemitted hd
  intro i msg hi
  rw [hown.messages] at hi
  have hlt : i < own.length := (List.getElem?_eq_some_iff.1 hi).1
  refine ⟨by rw [hown.firstSeq]; omega, ?_⟩
  rw [hown.firstSeq, htaken, show 1 + before.length + i - 1 = before.length + i by omega,
    List.append_assoc, List.getElem?_append_right (by omega), Nat.add_sub_cancel_left,
    List.getElem?_append_left hlt, hi]

end Arrival

/-! ## What the decoder makes of it -/

/-- Messages handed over from the first on are the first of the records. -/
theorem map_snd_eq_take {handed : List (UInt64 × List UInt8)} {taken : List (List UInt8)}
    (hseqs : handed.map (·.1.toNat) = List.range' 1 handed.length)
    (hmsgs : ∀ m ∈ handed, IsMessageAt taken m.1.toNat m.2) :
    handed.map Prod.snd = taken.take handed.length := by
  refine List.ext_getElem? fun i => ?_
  rw [List.getElem?_map, List.getElem?_take]
  split_ifs with hi
  swap
  · rw [List.getElem?_eq_none (Nat.le_of_not_lt hi)]
    rfl
  have hseq : handed[i].1.toNat = 1 + i := by
    have hget : (handed.map (·.1.toNat))[i]? = (List.range' 1 handed.length)[i]? := by rw [hseqs]
    rw [List.getElem?_map, List.getElem?_eq_getElem hi, List.getElem?_range' hi, Nat.one_mul]
      at hget
    exact Option.some.inj hget
  obtain ⟨-, hmsg⟩ := hmsgs _ (List.getElem_mem hi)
  rw [hseq, Nat.add_sub_cancel_left] at hmsg
  rw [List.getElem?_eq_getElem hi, hmsg]
  rfl

/-- The end of the stream was announced. -/
theorem MoldUdpDecoder.announced_of_endOfStream {symbols : StockDirectory} {books : BookManager}
    {initial : UInt64} {packets : List PacketView}
    (h : ((create symbols books initial).run packets).terminalStatus = .endOfStream) :
    ∃ m ∈ packets, m.IsEndOfSession
      ∧ m.firstSeq = ((create symbols books initial).run packets).channel.nextExpectedSeq := by
  induction packets using List.reverseRecOn with
  | nil => cases h
  | append_singleton packets p ih =>
    rw [run_snoc] at h ⊢
    by_cases hok : ((create symbols books initial).run packets).terminalStatus = .ok
    · have hreached : Reached (ItchParser.create symbols books) initial (fun _ _ => True)
          ((create symbols books initial).run packets) :=
        (reached_create symbols books initial _).run fun p _ => each_true p
      have hresolved :=
        ((noted_run symbols books initial packets hok).step hreached (each_true p) hok).2 h
      obtain ⟨m, hm, hmark⟩ := hresolved.announced
      exact ⟨m, hm, hmark, hresolved.markers m hm hmark⟩
    · rw [processPacket_terminal hok] at h ⊢
      obtain ⟨m, hm, hmark⟩ := ih h
      exact ⟨m, List.mem_append_left _ hm, hmark⟩

/-! ## Runs of the system -/

namespace FeedSystem

variable {config : SenderConfig} {file : BinaryFile} {books : BookManager} {s : FeedSystem}

/-- What was delivered was sent, and the decoder is what it makes of that. -/
structure Linked (config : SenderConfig) (file : BinaryFile) (books : BookManager) (s : FeedSystem) :
    Prop where
  sender : ItchMoldUdpSender.Replays config file s.sender
  decoder : s.decoder = (MoldUdpDecoder.create .fresh books 1).run s.delivered
  delivered : ∀ p ∈ s.delivered, p.data ∈ s.sender.wire

theorem linked_create (config : SenderConfig) (file : BinaryFile) (books : BookManager) :
    Linked config file books (create config file books) :=
  ⟨ItchMoldUdpSender.replays_create config file, rfl, fun _ h => absurd h List.not_mem_nil⟩

theorem Linked.step (h : Linked config file books s) (event : FeedEvent) :
    Linked config file books (s.step config event) := by
  cases event with
  | choose choice =>
    show Linked config file books { s with sender := (s.sender.step config choice).getD s.sender }
    cases hstep : s.sender.step config choice with
    | none => exact h
    | some sender =>
      have hm := ItchMoldUdpSender.step_moves hstep
      obtain ⟨_, _, _, hsending⟩ := h.sender
      exact ⟨hsending.moves hm, h.decoder, fun p hp => hm.wire.subset (h.delivered p hp)⟩
  | deliver index ticks =>
    unfold FeedSystem.step
    dsimp only
    split
    swap
    · exact h
    rename_i data hdata
    refine ⟨h.sender, ?_, fun p hp => ?_⟩
    · show (s.decoder.processPacket ⟨data, ticks⟩).2 = _
      rw [h.decoder]
      exact (MoldUdpDecoder.run_snoc _ _ _).symm
    · rcases List.mem_append.1 hp with hp | hp
      · exact h.delivered p hp
      · rw [List.mem_singleton.1 hp]
        exact List.mem_of_getElem? hdata

theorem linked_run (config : SenderConfig) (file : BinaryFile) (books : BookManager)
    (events : List FeedEvent) :
    Linked config file books ((create config file books).run config events) := by
  induction events using List.reverseRecOn with
  | nil => exact linked_create config file books
  | append_singleton events event ih =>
    rw [FeedSystem.run, List.foldl_append]
    exact ih.step event

section Safety

variable {packets : List PacketView} {taken : List (List UInt8)} {copies : ℕ}

theorem Linked.arrives (h : Linked config file books s)
    (hs : ItchMoldUdpSender.Sending config file taken packets copies s.sender) :
    ∀ p ∈ s.delivered, Arrives (resizeSession config.session) packets taken copies p :=
  fun p hp => hs.wired.arrives (h.delivered p hp)

/-- The decoder has handed over records of those that were sent. -/
theorem Linked.reached (h : Linked config file books s)
    (hs : ItchMoldUdpSender.Sending config file taken packets copies s.sender) :
    MoldUdpDecoder.Reached (ItchParser.create .fresh books) 1 (IsMessageAt taken) s.decoder := by
  rw [h.decoder]
  exact (MoldUdpDecoder.reached_create .fresh books 1 _).run fun p hp hd =>
    (h.arrives hs p hp).each hs.wired.emitted hd

theorem Linked.handed (h : Linked config file books s)
    (hs : ItchMoldUdpSender.Sending config file taken packets copies s.sender) :
    s.decoder.handed.map Prod.snd = taken.take s.decoder.handed.length :=
  map_snd_eq_take (h.reached hs).coherent.seqs (h.reached hs).coherent.messages

theorem Linked.parser (h : Linked config file books s) :
    s.decoder.parser = (ItchParser.create .fresh books).feed (s.decoder.handed.map Prod.snd) := by
  obtain ⟨_, _, _, hs⟩ := h.sender
  rw [(h.reached hs).coherent.parser, ItchParser.feed, List.foldl_map]

/-- The end of the stream comes after the last record of a complete file. -/
theorem Linked.complete (h : Linked config file books s)
    (hs : ItchMoldUdpSender.Sending config file taken packets copies s.sender)
    (hend : s.decoder.terminalStatus = .endOfStream) :
    IsLongest file.bytes taken ∧ InGrammar config.completionPolicy file.bytes
      ∧ s.decoder.handed.map Prod.snd = taken := by
  have hcaught := (h.reached hs).caughtUp (.inr hend)
  have hfirst := h.decoder ▸ hend
  obtain ⟨m, hm, hmark, hseq⟩ := MoldUdpDecoder.announced_of_endOfStream hfirst
  obtain ⟨hlast, hc⟩ := (h.arrives hs m hm).ended hs.wired.emitted hmark
  obtain ⟨hlongest, hgrammar⟩ := hs.wired.ended hc
  refine ⟨hlongest, hgrammar, ?_⟩
  have hlen : s.decoder.handed.length = taken.length := by
    unfold MoldUdpDecoder.CaughtUp at hcaught
    rw [h.decoder, ← hseq, hlast, toNat_of_beginsWith hs.wired.begins, ← h.decoder] at hcaught
    exact Nat.add_left_cancel hcaught
  rw [h.handed hs, hlen, List.take_length]

end Safety

/-- In every state the messages handed over are the first records of the file, once each and in
their order, and the parser is what they make of it. The end of the stream is accepted after the
last record of a complete file only, with no order live. -/
theorem feed_is_safe (config : SenderConfig) (file : BinaryFile) {bookConfig : BookManagerConfig}
    {systemPageBytes : ℕ} (hbooks : BookManager.create bookConfig systemPageBytes = .ok books)
    (events : List FeedEvent) :
    ∃ records, IsLongest file.bytes records ∧
      let d := ((create config file books).run config events).decoder
      d.handed.map (·.1.toNat) = List.range' 1 d.handed.length
      ∧ d.handed.map Prod.snd <+: records
      ∧ d.parser = (ItchParser.create .fresh books).feed (d.handed.map Prod.snd)
      ∧ (d.terminalStatus = .endOfStream →
        InGrammar config.completionPolicy file.bytes
        ∧ d.handed.map Prod.snd = records
        ∧ d.parser.channelPhase = .endOfMessages
        ∧ ∀ r, d.parser.books.orders.live r = none) := by
  obtain ⟨records, hlongest⟩ := exists_isLongest file
  refine ⟨records, hlongest, ?_⟩
  have h := linked_run config file books events
  generalize (create config file books).run config events = s at h
  intro d
  obtain ⟨packets, taken, copies, hs⟩ := h.sender
  have hreached := h.reached hs
  refine ⟨hreached.coherent.seqs, ?_, h.parser, fun hend => ?_⟩
  · rw [h.handed hs]
    exact (List.take_prefix _ _).trans (hlongest.2 _ hs.wired.begins)
  · obtain ⟨htaken, hgrammar, hall⟩ := h.complete hs hend
    have hphase : s.decoder.parser.channelPhase = .endOfMessages :=
      hreached.coherent.phase.symm.trans (hreached.ended hend).phase
    have hquiet : s.decoder.parser.Quiet := by
      rw [hreached.coherent.parser]
      exact MoldUdpDecoder.quiet_foldl fun h => (by cases h)
    have hsound : s.decoder.parser.Sound := by
      rw [hreached.coherent.parser]
      exact MoldUdpDecoder.sound_foldl (ItchParser.sound_create hbooks .fresh)
    obtain ⟨b, hb⟩ := hsound
    exact ⟨hgrammar, hall.trans (isLongest_unique htaken hlongest), hphase,
      hb.live_eq_none (hquiet hphase)⟩

def orderDayConfig : SenderConfig :=
  { ItchMoldUdpSender.shortConfig with
    msgsPerPacket := 2
    msgsPerPacket_ne_zero := ItchMoldUdpSender.shortConfig.msgsPerPacket_ne_zero }

/-- The day with an order is sent to its end. -/
def orderDayReplay : List SenderChoice :=
  [.transmit ⟨true, true⟩, .proceed]
    ++ (List.replicate 6 [.next 0, .transmit ⟨true, true⟩]).flatten
    ++ [.next 0, .transmit ⟨true, true⟩, .transmit ⟨true, true⟩]

theorem feed_is_safe_twice : ∃ books, BookManager.create ⟨⟨2, 1⟩, ⟨1⟩⟩ 4096 = .ok books
    ∧ ∃ records, IsLongest ItchTraceProfile.orderDayFile.bytes records
      ∧ records.take 2 = ItchTraceProfile.orderDay.take 2 := by
  obtain ⟨books, hbooks, hhanded⟩ : ∃ books, BookManager.create ⟨⟨2, 1⟩, ⟨1⟩⟩ 4096 = .ok books
      ∧ ((create orderDayConfig ItchTraceProfile.orderDayFile books).run orderDayConfig
        (orderDayReplay.map .choose ++ [.deliver 1 0, .deliver 1 0])).decoder.handed.map Prod.snd
        = ItchTraceProfile.orderDay.take 2 := ⟨_, rfl, by decide +kernel⟩
  obtain ⟨records, hlongest, -, hpre, -⟩ := feed_is_safe orderDayConfig
    ItchTraceProfile.orderDayFile hbooks
    (orderDayReplay.map .choose ++ [.deliver 1 0, .deliver 1 0])
  rw [hhanded] at hpre
  exact ⟨books, hbooks, records, hlongest, (List.prefix_iff_eq_take.1 hpre).symm⟩

end FeedSystem

end AstraFeed
