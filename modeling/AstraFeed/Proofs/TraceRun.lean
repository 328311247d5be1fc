import AstraFeed.Proofs.TraceAgreement
import AstraFeed.Proofs.TraceFile

/-!
# A day that was profiled

The engine accepts every message of a file that the profiler passes, and after each of them its
levels and its pages are those of the profile (`engine_agrees`).
-/

namespace AstraFeed

namespace ItchTraceProfile

open Wire ItchParser BigEndian

variable {config : BookManagerConfig} {systemPageBytes : ℕ} {m : BookManager}
  {messages taken : List (List UInt8)} {s : Stats} {p : ItchParser}

theorem observeAll_snoc (s : Stats) (messages : List (List UInt8)) (msg : List UInt8) :
    s.observeAll (messages ++ [msg]) = (s.observeAll messages).observeMessage msg := by
  unfold Stats.observeAll
  rw [List.foldl_append]
  rfl

/-- What is counted after some of the messages is counted after all of them. -/
theorem grows_of_isPrefix (h : taken <+: messages) :
    Stats.Grows (Stats.init.observeAll taken) (Stats.init.observeAll messages) := by
  obtain ⟨more, rfl⟩ := h
  unfold Stats.observeAll
  rw [List.foldl_append]
  exact Stats.grows_observeAll _ _

theorem Planned.fits (h : Planned config messages) (hpre : taken <+: messages) :
    Fits config (Stats.init.observeAll taken) := by
  have hgrows := grows_of_isPrefix hpre
  exact ⟨UInt64.lt_of_le_of_lt hgrows.maxOrderRef h.slots,
    (Finset.card_le_card hgrows.ever).trans h.pages⟩

/-- The end of messages leaves the orders as they are. -/
theorem live_of_endOfMessages {msg : List UInt8} (hobs : Stats.Observed s msg)
    (hf : (s.observeMessage msg).Faultless) (hC : IsEvent msg 'C') :
    (s.observeMessage msg).live = s.live := by
  have hturns := hobs.turns hC.1 hf
  generalize s.observeMessage msg = s' at hturns ⊢
  cases hturns <;> rfl

/-- The engine accepts what was profiled, and keeps up with the profile. -/
theorem run_simulates (hm : BookManager.create config systemPageBytes = .ok m)
    (hrecords : Records messages) (hplan : Planned config messages)
    (hf : (Stats.init.observeAll messages).Faultless)
    (hlive : ∀ r, (Stats.init.observeAll messages).live r = none) (hpre : taken <+: messages) :
    accepted (.create .fresh m) taken = taken
      ∧ Simulates config (Stats.init.observeAll taken) ((ItchParser.create .fresh m).feed taken) := by
  induction taken using List.reverseRecOn with
  | nil => exact ⟨rfl, simulates_create hm⟩
  | append_singleton taken msg ih =>
    have hbefore : taken <+: messages := (List.prefix_append _ _).trans hpre
    obtain ⟨hacc, hsim⟩ := ih hbefore
    have hlife := lifecycle_run hm taken
    rw [hacc] at hlife
    have hfaultless := (grows_of_isPrefix hpre).faultless hf
    have hbounded := hplan.bounded _ hpre
    have hfits := hplan.fits hpre
    rw [observeAll_snoc] at hfaultless hbounded hfits ⊢
    rw [accepted_snoc, feed_snoc, hacc]
    obtain ⟨more, rfl⟩ := hpre
    rw [List.append_assoc, List.singleton_append] at hrecords
    have hmem : msg ∈ taken ++ msg :: more := by simp
    have hrecord := hrecords.each msg hmem
    have hobs := Stats.observeMessage_spec hrecord.sized.1 hfaultless
    have hlocate : byteAt msg 0 = byte 'S' → readU16BE msg 1 = 0 := fun hS =>
      Profile.readU16BE_eq_zero.2 (hrecord.locate hS)
    have hfirst : ((ItchParser.create .fresh m).feed taken).channelPhase = .waitingStartOfMessages →
        IsEvent msg 'O' := by
      intro hwait
      have hnone : ¬ ∃ x ∈ taken, IsEvent x 'O' := by
        rw [hlife.event_iff (n := 0) rfl, hwait]
        decide
      cases taken with
      | nil => exact hrecords.first msg rfl
      | cons x xs => exact absurd ⟨x, List.mem_cons_self, hrecords.first x rfl⟩ hnone
    have hended : ((ItchParser.create .fresh m).feed taken).channelPhase ≠ .endOfMessages := by
      intro hend
      obtain ⟨x, hx, hC⟩ : ∃ x ∈ taken, IsEvent x 'C' := by
        rw [hlife.event_iff (n := 5) rfl, hend]
        decide
      obtain ⟨before, after, rfl⟩ := List.append_of_mem hx
      have hnil := hrecords.last before x (after ++ msg :: more) (by simp) hC
      exact absurd hnil (List.append_ne_nil_of_right_ne_nil _ (List.cons_ne_nil _ _))
    have hempty : IsEvent msg 'C' → ∀ r, (Stats.init.observeAll taken).live r = none := by
      intro hC r
      have hmore := hrecords.last taken msg more rfl hC
      rw [hmore, List.append_nil, observeAll_snoc, live_of_endOfMessages hobs hfaultless hC] at hlive
      exact hlive r
    obtain ⟨haccepts, hnext⟩ := hsim.step hlife hrecord.sized.1 hlocate hfirst hended
      (hplan.stocks msg (by simp)) hempty hfaultless (hplan.bounded _ hbefore) hbounded hfits
    rw [if_pos haccepts]
    exact ⟨rfl, hnext⟩

/-! ## A clean profile -/

theorem faultless_of_clean (hclean : s.semanticProfileClean = true)
    (hmalformed : s.malformedRecords = 0) : s.Faultless := by
  unfold Stats.semanticProfileClean at hclean
  simp only [Bool.and_eq_true, List.all_eq_true, beq_iff_eq] at hclean
  intro fault
  by_cases hfault : fault = .malformedRecords
  · rw [hfault]
    exact hmalformed
  · refine hclean.1.1.1.1.1 fault ?_
    cases fault <;> simp [Stats.semanticFaults] at hfault ⊢

theorem live_of_clean (hclean : s.semanticProfileClean = true) (r : UInt64) : s.live r = none := by
  unfold Stats.semanticProfileClean at hclean
  simp only [Bool.and_eq_true, List.isEmpty_iff] at hclean
  have hempty : s.liveOrders = ∅ := AList.ext hclean.1.1.2
  unfold Stats.live
  rw [hempty, AList.lookup_empty]
  rfl

theorem Simulates.sameBooks (h : Simulates config s p) : SameBooks s p.books.prices := by
  obtain ⟨times, hbooks⟩ := h.books
  have hlevel : ∀ l side (x : UInt32), IsSide side →
      (p.books.prices.levelOf l (OrderBook.decodeSide side) x.toNat).orderCount.toNat
          = (s.level (levelKey l side x)).orderCount.toNat
        ∧ (p.books.prices.levelOf l (OrderBook.decodeSide side) x.toNat).totalQty.toNat
          = (s.level (levelKey l side x)).totalQty.toNat := by
    intro l side x hside
    obtain ⟨hcount, hqty⟩ := h.ok.levels l side x hside
    have hv : OrderBook.decodeSide side ≠ .invalid := by
      rcases hside with rfl | rfl <;> decide
    rw [hcount, hqty]
    exact hbooks.levelCount hv x.toNat_lt
  exact ⟨fun l side x hside => UInt64.toNat_inj.1 (hlevel l side x hside).2,
    fun l side x hside => UInt32.toNat_inj.1 (hlevel l side x hside).1,
    committedPages_eq_card hbooks.stores.store.arena h.pages⟩

theorem acceptsAll_iff {messages : List (List UInt8)} :
    p.AcceptsAll messages ↔ accepted p messages = messages := by
  induction messages generalizing p with
  | nil => exact iff_of_true trivial rfl
  | cons msg messages ih =>
    rw [AcceptsAll, accepted, ih]
    have hle : ∀ (p : ItchParser) (ms : List (List UInt8)), (accepted p ms).length ≤ ms.length := by
      intro p ms
      induction ms generalizing p with
      | nil => exact Nat.le_refl 0
      | cons m ms ih =>
        rw [accepted]
        split_ifs
        · exact Nat.succ_le_succ (ih _)
        · exact (ih _).trans (Nat.le_succ _)
    split_ifs with hacc
    · simp [hacc]
    · refine iff_of_false (fun h => hacc h.1) fun heq => ?_
      have hlen := hle (p.handleMessage msg).2 messages
      rw [heq, List.length_cons] at hlen
      omega

/-- The whole day that a clean profile is of. -/
theorem day_simulates (hm : BookManager.create config systemPageBytes = .ok m)
    (hrecords : Records messages) (hplan : Planned config messages)
    (hclean : (Stats.init.observeAll messages).semanticProfileClean = true)
    (hmalformed : (Stats.init.observeAll messages).malformedRecords = 0) :
    (ItchParser.create .fresh m).AcceptsAll messages
      ∧ ((ItchParser.create .fresh m).feed messages).channelPhase = .endOfMessages
      ∧ ((ItchParser.create .fresh m).feed messages).books.totalLiveOrderCount = 0
      ∧ ∀ taken, taken <+: messages →
        Simulates config (Stats.init.observeAll taken) ((ItchParser.create .fresh m).feed taken) := by
  have hlive := live_of_clean hclean
  have hrun := fun taken (hpre : taken <+: messages) => run_simulates hm hrecords hplan
    (faultless_of_clean hclean hmalformed) hlive hpre
  obtain ⟨hacc, hsim⟩ := hrun messages (List.prefix_refl _)
  refine ⟨acceptsAll_iff.2 hacc, ?_, ?_, fun taken hpre => (hrun taken hpre).2⟩
  · have hphase := hsim.phase
    unfold Stats.semanticProfileClean at hclean
    simp only [Bool.and_eq_true, beq_iff_eq] at hclean
    rw [hclean.1.1.1.1.2] at hphase
    generalize ((ItchParser.create .fresh m).feed messages).channelPhase = phase at hphase ⊢
    cases phase <;> first | rfl | exact absurd hphase (by decide)
  · obtain ⟨times, hbooks⟩ := hsim.books
    refine UInt64.toNat_inj.1 (hbooks.totalLiveOrderCount.trans ?_)
    exact PointUpdate.total_eq_zero.2 fun r => congrArg _ (hlive r)

/-- The engine and the profiler agree on a file that the profiler passes: every message is accepted,
the day ends without a live order, and after every message the levels and the pages are those of the
profile. -/
theorem engine_agrees (allow : Bool) (file : BinaryFile)
    (hmalformed : (profile allow file).stats.malformedRecords = 0)
    (hclean : (profile allow file).stats.semanticProfileClean = true) :
    ∃ messages, Holds allow file messages
      ∧ (profile allow file).stats = Stats.init.observeAll messages
      ∧ ∀ config systemPageBytes m, BookManager.create config systemPageBytes = .ok m →
        Planned config messages →
        let p := ItchParser.create .fresh m
        p.AcceptsAll messages
        ∧ (p.feed messages).channelPhase = .endOfMessages
        ∧ (p.feed messages).books.totalLiveOrderCount = 0
        ∧ ∀ taken, taken <+: messages →
          SameBooks (Stats.init.observeAll taken) (p.feed taken).books.prices := by
  obtain ⟨messages, hholds, hstats⟩ := holds_of_malformedRecords hmalformed
  refine ⟨messages, hholds, hstats, fun config systemPageBytes m hm hplan => ?_⟩
  rw [hstats] at hclean hmalformed
  obtain ⟨haccepts, hphase, htotal, hsim⟩ := day_simulates hm hholds.1 hplan hclean hmalformed
  exact ⟨haccepts, hphase, htotal, fun taken hpre => (hsim taken hpre).sameBooks⟩

/-! ## A day with an order -/

theorem records_of_dropLast (heach : ∀ msg ∈ messages, IsRecord msg)
    (hfirst : ∀ msg ∈ messages.head?, IsEvent msg 'O')
    (hlast : ∀ msg ∈ messages.dropLast, ¬ IsEvent msg 'C') : Records messages := by
  refine ⟨heach, hfirst, fun before msg after heq hC => ?_⟩
  cases after with
  | nil => rfl
  | cons next after =>
    refine absurd hC (hlast msg ?_)
    rw [heq, List.dropLast_append_cons]
    simp

def directoryMessage : List UInt8 :=
  byte 'R' :: [0, 1] ++ List.replicate 8 0 ++ ['A', 'S', 'T', 'R', 'A', ' ', ' ', ' '].map byte
    ++ List.replicate 20 0

def addMessage : List UInt8 :=
  byte 'A' :: [0, 1] ++ List.replicate 8 0 ++ toBytes 8 1 ++ [byte 'B'] ++ toBytes 4 100
    ++ ['A', 'S', 'T', 'R', 'A', ' ', ' ', ' '].map byte ++ toBytes 4 10000

def deleteMessage : List UInt8 := byte 'D' :: [0, 1] ++ List.replicate 8 0 ++ toBytes 8 1

/-- A day with an order. -/
def orderDay : List (List UInt8) :=
  [systemEvent 'O', directoryMessage, systemEvent 'S', systemEvent 'Q', addMessage, deleteMessage,
    systemEvent 'M', systemEvent 'E', systemEvent 'C']

def orderDayFile : BinaryFile where
  bytes := orderDay.flatMap framed ++ [0, 0]
  size_lt := by decide +kernel

theorem holds_orderDay : Holds false orderDayFile orderDay := by
  refine ⟨records_of_dropLast (fun m hm => ?_) ?_ (by decide), ⟨_, rfl, by decide⟩, .inl rfl⟩
  · have hsized : ∀ m ∈ orderDay, (m ≠ [] ∧ m.length = expectedItchMessageLength (byteAt m 0))
        ∧ (byteAt m 0 = byte 'S' → byteAt m 1 = 0 ∧ byteAt m 2 = 0) := by decide
    exact ⟨(hsized m hm).1, (hsized m hm).2⟩
  · rintro _ ⟨⟩
    decide

theorem planned_orderDay : Planned ⟨⟨2, 1⟩, ⟨1⟩⟩ orderDay := by
  refine ⟨by decide +kernel, fun taken hpre l side x => ?_, by decide +kernel, by decide +kernel⟩
  have hcount : ∀ k ≤ orderDay.length,
      (Stats.init.observeAll (orderDay.take k)).liveOrders.entries.length ≤ 1 := by decide +kernel
  have hlive := hcount _ hpre.length_le
  rw [← List.prefix_iff_eq_take.1 hpre] at hlive
  exact (List.countP_le_length.trans hlive).trans (by decide)

theorem engine_agrees_orderDay : ∃ m, BookManager.create ⟨⟨2, 1⟩, ⟨1⟩⟩ 4096 = .ok m
    ∧ (profile false orderDayFile).passes = true
    ∧ (ItchParser.create .fresh m).AcceptsAll orderDay
    ∧ ((ItchParser.create .fresh m).feed (orderDay.take 5)).books.prices.committedPages.toNat
      = 1 := by
  obtain ⟨m, hm⟩ : ∃ m, BookManager.create ⟨⟨2, 1⟩, ⟨1⟩⟩ 4096 = .ok m := ⟨_, rfl⟩
  obtain ⟨messages, hholds, -, hall⟩ := engine_agrees false orderDayFile (by decide +kernel)
    (by decide +kernel)
  obtain rfl := ItchMoldUdpSource.isLongest_unique hholds.isLongest holds_orderDay.isLongest
  obtain ⟨haccepts, -, -, hsame⟩ := hall _ _ m hm planned_orderDay
  refine ⟨m, hm, by decide +kernel, haccepts, (hsame _ (List.take_prefix 5 _)).pages.trans ?_⟩
  decide +kernel

end ItchTraceProfile

end AstraFeed
