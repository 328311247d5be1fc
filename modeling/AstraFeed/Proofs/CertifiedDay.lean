import AstraFeed.Proofs.FeedRecovery

/-!
# A certified day

A file that the profiler passes is replayed over lines that may lose, repeat and reorder: at any
time the books are those of the profile of what was handed over, and a replay that arrives ends the
day (`certified_day`).
-/

namespace AstraFeed

open MoldUdpPacketHeader Wire ItchMoldUdpSource ItchTraceProfile

/-- Every record is in a packet that is sent. -/
theorem Emitted.carries {session : List UInt8} {first seq : ℕ} {packets : List PacketView}
    {taken : List (List UInt8)} (h : Emitted session first packets taken) (hle : first ≤ seq)
    (hlt : seq < first + taken.length) : ∃ q ∈ packets, q.IsData ∧ q.Carries seq := by
  induction h with
  | nil => exact absurd hle (Nat.not_le.2 hlt)
  | @cons first p packets msgs rest hp _ _ _ ih =>
    by_cases hown : seq < first + msgs.length
    · refine ⟨p, List.mem_cons_self, hp.isData, ?_, ?_⟩
      · rw [hp.firstSeq]
        exact hle
      · rw [hp.firstSeq, hp.msgCount]
        exact hown
    · rw [List.length_append, ← Nat.add_assoc] at hlt
      obtain ⟨q, hq, hcarries⟩ := ih (Nat.le_of_not_lt hown) hlt
      exact ⟨q, List.mem_cons_of_mem _ hq, hcarries⟩

namespace FeedSystem

variable {config : SenderConfig} {file : BinaryFile} {books : BookManager} {s : FeedSystem}
  {packets : List PacketView} {taken : List (List UInt8)} {copies : ℕ}

/-- Every datagram that counts was delivered, maybe more than once. -/
def AllDelivered (s : FeedSystem) : Prop :=
  ∀ data ∈ s.sender.wire, readU16BE data 18 ≠ 0 → ∃ p ∈ s.delivered, p.data = data

/-- The records that were sent have all been delivered. -/
theorem Linked.covered_of_allDelivered
    (hs : ItchMoldUdpSender.Sending config file taken packets copies s.sender)
    (hall : AllDelivered s) {seq : ℕ} (h1 : 1 ≤ seq) (hle : seq ≤ taken.length) :
    Covered s.delivered seq := by
  obtain ⟨q, hq, hd, hcarries⟩ := hs.wired.emitted.carries h1 (by omega)
  have hmem : q.data ∈ s.sender.wire.filter fun data => readU16BE data 18 ≠ 0 := by
    rw [hs.wired.traffic]
    exact List.mem_append_left _ (List.mem_map_of_mem hq)
  obtain ⟨hwire, hcount⟩ := List.mem_filter.1 hmem
  obtain ⟨p, hp, heq⟩ := hall _ hwire (of_decide_eq_true hcount)
  obtain ⟨_, _, _, -, hown⟩ := hs.wired.emitted.slice hq
  refine ⟨p, hp, (hown.of_data heq).isData, ?_⟩
  unfold PacketView.Carries PacketView.firstSeq PacketView.msgCount at hcarries ⊢
  rw [heq]
  exact hcarries

theorem Linked.marked_of_allDelivered
    (hs : ItchMoldUdpSender.Sending config file taken packets copies s.sender)
    (hall : AllDelivered s) (hc : copies ≠ 0) : ∃ m ∈ s.delivered, m.IsEndOfSession := by
  have hmem : makeMoldEndOfSessionPacket config.session (UInt64.ofNat (1 + taken.length))
      ∈ s.sender.wire.filter fun data => readU16BE data 18 ≠ 0 := by
    rw [hs.wired.traffic]
    exact List.mem_append_right _ (List.mem_replicate.2 ⟨hc, rfl⟩)
  obtain ⟨hwire, hcount⟩ := List.mem_filter.1 hmem
  obtain ⟨m, hm, heq⟩ := hall _ hwire (of_decide_eq_true hcount)
  refine ⟨m, hm, ?_, ?_⟩
  · rw [heq]
    exact length_makeMoldControlPacket
  · rw [PacketView.msgCount, heq, makeMoldEndOfSessionPacket, readU16BE_makeMoldControlPacket]

/-- The replay of a file in the grammar is only cut short by a line or by a signal. -/
theorem copies_ne_zero (hs : ItchMoldUdpSender.Sending config file taken packets copies s.sender)
    (hgrammar : InGrammar config.completionPolicy file.bytes)
    (hend : s.sender.stage = .finished) (hsent : s.sender.transmissionFailed = false)
    (hdone : s.sender.interrupted = false) : copies ≠ 0 := by
  have hp := hs.placed
  rw [hend] at hp
  have hcount : s.sender.endOfSessionPacketsSent = config.endOfSessionPacketCount := by
    rcases hp with hf | ⟨hi, -⟩ | ⟨-, hsource, hcount⟩
    · rw [hsent] at hf
      cases hf
    · rw [hdone] at hi
      cases hi
    · exact hcount (hsource.completed.2 hgrammar)
  rw [← (hs.counted hsent).copies, hcount]
  exact fun h0 => config.endOfSessionPacketCount_ne_zero (UInt64.toNat_inj.1 h0)

/-- Once all that was sent is delivered, the stream has ended with the last record. -/
theorem Linked.ends {records : List (List UInt8)} (h : Linked config file books s)
    (hs : ItchMoldUdpSender.Sending config file taken packets copies s.sender)
    (hfollows : MoldUdpDecoder.Follows (ItchParser.create .fresh books) 1
      (UInt64.ofNat (1 + taken.length)) (messageAt taken) (resizeSession config.session) s.delivered
      s.delivered s.decoder)
    (hlongest : IsLongest file.bytes records) (hall : AllDelivered s) (hc : copies ≠ 0) :
    s.decoder.terminalStatus = .endOfStream ∧ s.decoder.handed.map Prod.snd = records := by
  obtain rfl := isLongest_unique (hs.wired.ended hc).1 hlongest
  have hlen : taken.length ≤ s.decoder.handed.length :=
    (h.le_length_iff hs hfollows _).2 fun seq h1 hle => Linked.covered_of_allDelivered hs hall h1 hle
  have heq : s.decoder.handed.map Prod.snd = taken :=
    (h.handed hs).trans (List.take_of_length_le hlen)
  have hcount : s.decoder.handed.length = taken.length := by
    rw [← heq]
    exact (List.length_map _).symm
  exact ⟨(h.endOfStream_iff hs hfollows hlongest).2
    ⟨hcount, Linked.marked_of_allDelivered hs hall hc⟩, heq⟩

/-- At any time the levels and the pages of the books are those of the profile of what was handed
over, which is the beginning of the file. When the sender has finished, cut short by no line and no
signal, and all it sent was delivered, the stream has ended, with the whole file handed over and no
order live. -/
theorem certified_day (allow : Bool) (config : SenderConfig) (file : BinaryFile)
    (hpolicy : config.completionPolicy = completionPolicy allow)
    (hmalformed : (profile allow file).stats.malformedRecords = 0)
    (hclean : (profile allow file).stats.semanticProfileClean = true)
    {bookConfig : BookManagerConfig} {systemPageBytes : ℕ} {books : BookManager}
    (hbooks : BookManager.create bookConfig systemPageBytes = .ok books) :
    ∃ messages, Holds allow file messages
      ∧ (Planned bookConfig messages → ∀ events, HasRoom config file books events →
        let s := (create config file books).run config events
        let handed := s.decoder.handed.map Prod.snd
        handed <+: messages
          ∧ SameBooks (Stats.init.observeAll handed) s.decoder.parser.books.prices
          ∧ (s.sender.stage = .finished → s.sender.transmissionFailed = false →
            s.sender.interrupted = false → AllDelivered s →
            s.decoder.terminalStatus = .endOfStream ∧ handed = messages
              ∧ s.decoder.parser.books.totalLiveOrderCount = 0)) := by
  obtain ⟨messages, hholds, hstats⟩ := holds_of_malformedRecords hmalformed
  refine ⟨messages, hholds, fun hplan events hroom => ?_⟩
  rw [hstats] at hclean hmalformed
  obtain ⟨haccepts, -, htotal, hsim⟩ := day_simulates hbooks hholds.1 hplan hclean hmalformed
  intro s handed
  have h : Linked config file books s := linked_run config file books events
  obtain ⟨packets, taken, copies, hs⟩ := h.sender
  have htaken : taken <+: messages := hholds.isLongest.2 _ hs.wired.begins
  have hfollows := h.follows hs hbooks (acceptsAll_of_isPrefix haccepts htaken)
    fun _ => hroom.delivered
  have hhanded : handed = taken.take s.decoder.handed.length := h.handed hs
  have hpre : handed <+: messages := by
    rw [hhanded]
    exact (List.take_prefix _ _).trans htaken
  have hparser : s.decoder.parser = (ItchParser.create .fresh books).feed handed := h.parser
  refine ⟨hpre, ?_, fun hend hsent hdone hall => ?_⟩
  · rw [hparser]
    exact (hsim handed hpre).sameBooks
  · have hc := copies_ne_zero hs (hpolicy ▸ hholds.inGrammar) hend hsent hdone
    obtain ⟨hended, heq⟩ := h.ends hs hfollows hholds.isLongest hall hc
    refine ⟨hended, heq, ?_⟩
    rw [hparser]
    change (ItchParser.feed _ (s.decoder.handed.map Prod.snd)).books.totalLiveOrderCount = 0
    rw [heq]
    exact htotal

def isFinished : SenderStage → Bool
  | .finished => true
  | _ => false

theorem eq_finished {stage : SenderStage} (h : isFinished stage = true) : stage = .finished := by
  cases stage <;> first | rfl | cases h

theorem certified_day_shuffledDay : ∃ books, BookManager.create ⟨⟨2, 1⟩, ⟨1⟩⟩ 4096 = .ok books
    ∧ ((create orderDayConfig orderDayFile books).run orderDayConfig
      shuffledDay).decoder.terminalStatus = .endOfStream := by
  obtain ⟨books, hbooks, hend, hsent, hdone, hall⟩ : ∃ books,
      BookManager.create ⟨⟨2, 1⟩, ⟨1⟩⟩ 4096 = .ok books
      ∧ let s := (create orderDayConfig orderDayFile books).run orderDayConfig shuffledDay
        isFinished s.sender.stage = true
          ∧ s.sender.transmissionFailed = false ∧ s.sender.interrupted = false
          ∧ ∀ data ∈ s.sender.wire, readU16BE data 18 ≠ 0 → ∃ p ∈ s.delivered, p.data = data :=
    ⟨_, rfl, by decide +kernel⟩
  obtain ⟨messages, hholds, hday⟩ := certified_day false orderDayConfig orderDayFile rfl
    (by decide +kernel) (by decide +kernel) hbooks
  obtain rfl := isLongest_unique hholds.isLongest holds_orderDay.isLongest
  obtain ⟨-, -, hcomplete⟩ := hday planned_orderDay shuffledDay (hasRoom_of_length_lt (by decide))
  exact ⟨books, hbooks, (hcomplete (eq_finished hend) hsent hdone hall).1⟩

end FeedSystem

end AstraFeed
