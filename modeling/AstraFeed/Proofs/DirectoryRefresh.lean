import Mathlib.Data.List.DropRight
import Mathlib.Data.List.GetD
import Mathlib.Tactic.Ring
import AstraFeed.DirectoryRefresh
import AstraFeed.Proofs.Framing
import AstraFeed.Proofs.Lifecycle

/-!
# A directory message and its stock

The stock field of an order is compared with the stored ticker filled up with blanks, and the stored
ticker ends at the first NUL character (`wireStockMatches_iff`). The directory message and its
orders therefore agree exactly when the field has no NUL character.
-/

namespace AstraFeed

open Function StockDirectory

namespace ItchParser

open Wire

variable {p q : ItchParser} {msg a m : List UInt8}

/-! ## The stock field -/

/-- The text of a field and what it is filled up with. -/
theorem fixedText_eq (msg : List UInt8) (off : ℕ) : fixedText msg off kStockLen
    = (stockField msg off).rdropWhile fun c => c = byte ' ' ∨ c = 0 := rfl

theorem getD_stockField (msg : List UInt8) (off : ℕ) {i : ℕ} (hi : i < kStockLen) :
    (stockField msg off).getD i 0 = byteAt msg (off + i) := by
  unfold stockField byteAt
  rw [List.getD_eq_getElem?_getD, List.getD_eq_getElem?_getD, List.getElem?_take_of_lt hi,
    List.getElem?_drop]

theorem length_stockField {off : ℕ} (h : off + kStockLen ≤ msg.length) :
    (stockField msg off).length = kStockLen := by
  unfold stockField
  rw [List.length_take, List.length_drop]
  omega

/-- A ticker filled up with blanks. -/
def padded (ticker : List UInt8) : List UInt8 :=
  ticker ++ List.replicate (kStockLen - ticker.length) (byte ' ')

theorem length_padded {t : List UInt8} (h : t.length ≤ kStockLen) :
    (padded t).length = kStockLen := by
  unfold padded
  rw [List.length_append, List.length_replicate]
  omega

theorem getD_padded (t : List UInt8) {i : ℕ} (hi : i < kStockLen) :
    (padded t).getD i 0 = if i < t.length then t.getD i 0 else byte ' ' := by
  unfold padded
  split_ifs with h
  · exact List.getD_append _ _ _ _ h
  · rw [List.getD_append_right _ _ _ _ (by omega), List.getD_eq_getElem?_getD,
      List.getElem?_replicate_of_lt (by omega), Option.getD_some]

theorem wireStockMatches_iff (entry : StockDirectoryEntry) {off : ℕ}
    (h : off + kStockLen ≤ msg.length) :
    wireStockMatches entry msg off = true ↔ stockField msg off = padded (tickerView entry) := by
  have hlen := length_tickerView entry
  have hchars : ∀ i < (tickerView entry).length,
      entry.ticker.chars.getD i 0 = (tickerView entry).getD i 0 := by
    intro i hi
    obtain ⟨rest, hrest⟩ := tickerView_isPrefix entry
    rw [← hrest]
    exact List.getD_append _ _ _ _ hi
  have hbyte : ∀ i < kStockLen, (if i < (tickerView entry).length
      then entry.ticker.chars.getD i 0 else byte ' ') = (padded (tickerView entry)).getD i 0 := by
    intro i hi
    rw [getD_padded _ hi]
    split_ifs with hlt
    · exact hchars i hlt
    · rfl
  unfold wireStockMatches
  simp only [List.all_eq_true, List.mem_range, beq_iff_eq]
  constructor
  · intro hall
    refine List.ext_getElem ((length_stockField h).trans (length_padded hlen).symm) ?_
    intro i hi hi'
    have hlt : i < kStockLen := by rwa [length_stockField h] at hi
    rw [← List.getD_eq_getElem _ 0 hi, ← List.getD_eq_getElem _ 0 hi', getD_stockField _ _ hlt,
      hall i hlt, hbyte i hlt]
  · intro heq i hi
    rw [← getD_stockField _ _ hi, heq, hbyte i hi]

/-- Neither the ticker nor the blanks have a NUL character. -/
theorem zero_notMem_padded (entry : StockDirectoryEntry) :
    (0 : UInt8) ∉ padded (tickerView entry) := by
  unfold padded
  rw [List.mem_append, List.mem_replicate]
  rintro (h | ⟨_, h⟩)
  · exact ne_zero_of_mem_tickerView h rfl
  · exact absurd h (by decide)

/-- Without a NUL character the text is filled up with blanks. -/
theorem stockField_eq_padded {off : ℕ} (h : off + kStockLen ≤ msg.length)
    (h0 : (0 : UInt8) ∉ stockField msg off) :
    stockField msg off = padded (fixedText msg off kStockLen) := by
  have hsplit := List.rdropWhile_append_rtakeWhile (l := stockField msg off)
    (p := fun c => c = byte ' ' ∨ c = 0)
  have hblank : ∀ c ∈ (stockField msg off).rtakeWhile fun c => c = byte ' ' ∨ c = 0,
      c = byte ' ' := by
    intro c hc
    have hall := List.mem_rtakeWhile_imp hc
    rcases of_decide_eq_true hall with hblank | rfl
    · exact hblank
    · exact absurd ((List.rtakeWhile_suffix _ _).mem hc) h0
  have hlen := congrArg List.length hsplit
  rw [List.length_append, length_stockField h] at hlen
  rw [← fixedText_eq] at hsplit hlen
  rw [List.eq_replicate_of_mem hblank] at hsplit
  unfold padded
  rw [← hsplit, Nat.sub_eq_of_eq_add' hlen.symm]

/-- The text of a ticker filled up with blanks. -/
theorem rdropWhile_padded (t : List UInt8) :
    (padded t).rdropWhile (fun c => c = byte ' ' ∨ c = 0)
      = t.rdropWhile fun c => c = byte ' ' ∨ c = 0 := by
  unfold padded
  induction kStockLen - t.length with
  | zero => rw [List.replicate_zero, List.append_nil]
  | succ n ih =>
    rw [List.replicate_succ', ← List.append_assoc, List.rdropWhile_concat_pos _ _ _ (by simp), ih]

/-- An order whose stock field fits a ticker has its text. -/
theorem fixedText_of_padded {off : ℕ} {t : List UInt8}
    (ht : t.rdropWhile (fun c => c = byte ' ' ∨ c = 0) = t)
    (h : stockField msg off = padded t) : fixedText msg off kStockLen = t := by
  rw [fixedText_eq, h, rdropWhile_padded, ht]

/-- What `directoryEntry` stores of a field without NUL characters. -/
theorem tickerView_directoryEntry (l : UInt16) (h0 : (0 : UInt8) ∉ stockField m 11) :
    tickerView (directoryEntry m l) = fixedText m 11 kStockLen := by
  have hpre : fixedText m 11 kStockLen <+: stockField m 11 := List.rdropWhile_prefix _ _
  have hlen : (fixedText m 11 kStockLen).length ≤ 8 :=
    hpre.length_le.trans (List.length_take_le _ _)
  have hne : ∀ c ∈ fixedText m 11 kStockLen, c ≠ 0 := by
    rintro _ hc rfl
    exact h0 (hpre.mem hc)
  unfold tickerView directoryEntry Ticker.ofChars
  dsimp only
  rw [List.take_of_length_le (hlen.trans (by decide)), List.take_append,
    List.take_of_length_le hlen, List.take_replicate, List.takeWhile_append_of_pos]
  · cases min (8 - (fixedText m 11 kStockLen).length) (9 - (fixedText m 11 kStockLen).length) <;>
      simp
  · simpa using hne

/-! ## Reaching a handler -/

/-- A message is refused by a check that does not look at its stock, or dispatched. -/
theorem handleMessage_dispatched (hS : byteAt msg 0 ≠ byte 'S') :
    (∃ e, e ≠ .unregisteredLocate ∧ e ≠ .stockMismatch
      ∧ (p.handleMessage msg).2 = p.cleared.fail e)
    ∨ WellSized msg ∧ Open p msg ∧ (p.handleMessage msg).2
      = (p.cleared.dispatchType msg (byteAt msg 0) (readU16BE msg 1)).2 := by
  unfold handleMessage
  dsimp only
  split_ifs with hnil hzero hlen
  · exact .inl ⟨_, by decide, by decide, rfl⟩
  · exact .inl ⟨_, by decide, by decide, rfl⟩
  · exact .inl ⟨_, by decide, by decide, rfl⟩
  unfold dispatchMessage
  dsimp only
  split_ifs with h1 h2 h3 h4 h5
  · exact .inl ⟨_, by decide, by decide, rfl⟩
  · exact .inl ⟨_, by decide, by decide, rfl⟩
  · exact .inl ⟨_, by decide, by decide, rfl⟩
  · exact .inl ⟨_, by decide, by decide, rfl⟩
  · exact .inl ⟨_, by decide, by decide, rfl⟩
  · have hopen := open_of_checks (p := p.cleared) (fun h => absurd h hS) h1 h3 h4 h5
    exact .inr ⟨⟨hnil, not_not.1 hlen⟩,
      ⟨hopen.timestamp, hopen.first, hopen.not_ended, hopen.late⟩, rfl⟩

theorem dispatchType_directory (hR : byteAt msg 0 = byte 'R') (locate : UInt16) :
    (p.dispatchType msg (byteAt msg 0) locate).2 = p.handleStockDirectory msg := by
  rw [hR]
  rfl

theorem dispatchType_add (hadd : IsType msg ['A', 'F']) (locate : UInt16) :
    (p.dispatchType msg (byteAt msg 0) locate).2 = p.handleAdd msg locate := by
  obtain ⟨c, hc, hbyte⟩ := hadd
  simp only [List.mem_cons, List.not_mem_nil, or_false] at hc
  rcases hc with rfl | rfl <;> rw [hbyte] <;> rfl

/-! ## The registered ticker -/

theorem handleStockDirectory_symbols (msg : List UInt8) (h : p.InStep)
    (hphase : p.channelPhase ≠ .waitingStartOfMessages) :
    (∃ e, p.handleStockDirectory msg = p.fail e)
    ∨ (p.handleStockDirectory msg).lastError = p.lastError
      ∧ (p.symbols.set (readU16BE msg 1) (directoryEntry msg (readU16BE msg 1))).1 = true
      ∧ (p.handleStockDirectory msg).symbols
        = (p.symbols.set (readU16BE msg 1) (directoryEntry msg (readU16BE msg 1))).2 := by
  rcases handleStockDirectory_set (p := p) hphase with he | ⟨l, entry, rfl, rfl, hset, q, hq, hout⟩
  · exact .inl he
  right
  rw [hout]
  by_cases hprep : p.booksPrepared = true
  · have hbooks : BooksFor q.books p.bookLocates := by
      rw [hq]
      exact h.books
    have hl : q.symbols.isRegistered (readU16BE msg 1) = true := by
      rw [hq]
      exact (isRegistered_set_iff hset _).2 (.inl rfl)
    obtain ⟨books, _, hcreate⟩ := createRegisteredBook_books hbooks hl
    rw [if_pos hprep, hcreate, if_pos rfl, hq]
    exact ⟨rfl, hset, rfl⟩
  · rw [if_neg hprep, hq]
    exact ⟨rfl, hset, rfl⟩

/-- Only a directory message that is accepted changes the directory. -/
theorem Effect.symbols_cases {p' : ItchParser} (he : Effect p msg p') (h : p.InStep) :
    p'.symbols = p.symbols
    ∨ IsType msg ['R'] ∧ p'.lastError = p.lastError
      ∧ (p.symbols.set (readU16BE msg 1) (directoryEntry msg (readU16BE msg 1))).1 = true
      ∧ p'.symbols = (p.symbols.set (readU16BE msg 1) (directoryEntry msg (readU16BE msg 1))).2 := by
  cases he with
  | refuse e => exact .inl rfl
  | skip => exact .inl rfl
  | admin =>
    unfold markStartupAdminMessage
    split <;> exact .inl rfl
  | book =>
    unfold applyBook applyBookResult
    split <;> exact .inl rfl
  | event hS => exact .inl (handleSystemEvent_symbols hS)
  | directory hR hphase =>
    rcases handleStockDirectory_symbols msg h hphase with ⟨e, he⟩ | hset
    · rw [he]
      exact .inl rfl
    · exact .inr ⟨⟨_, List.mem_singleton_self _, hR⟩, hset⟩

theorem handleMessage_symbols (h : p.InStep) (msg : List UInt8) :
    (p.handleMessage msg).2.symbols = p.symbols
    ∨ IsType msg ['R'] ∧ p.Accepts msg
      ∧ (p.symbols.set (readU16BE msg 1) (directoryEntry msg (readU16BE msg 1))).1 = true
      ∧ (p.handleMessage msg).2.symbols
        = (p.symbols.set (readU16BE msg 1) (directoryEntry msg (readU16BE msg 1))).2 :=
  (handleMessage_effect p msg).symbols_cases (h.of_eq rfl rfl rfl)

theorem InStep.feed (h : p.InStep) (messages : List (List UInt8)) : (p.feed messages).InStep := by
  induction messages generalizing p with
  | nil => exact h
  | cons msg messages ih => exact ih (h.handleMessage msg)

/-- A registered locate keeps its ticker. -/
theorem InStep.registeredAs_feed (h : p.InStep) {l : UInt16} {t : List UInt8}
    (has : p.symbols.RegisteredAs l t) (messages : List (List UInt8)) :
    (p.feed messages).symbols.RegisteredAs l t := by
  induction messages generalizing p with
  | nil => exact has
  | cons msg messages ih =>
    refine ih (h.handleMessage msg) ?_
    rcases handleMessage_symbols h msg with hs | ⟨_, _, _, hs⟩
    · rw [hs]
      exact has
    · rw [hs]
      exact h.symbols.registeredAs_set has _

/-- What `set` stores for a directory message. -/
def directoryEntryStored (m : List UInt8) : StockDirectoryEntry :=
  canonicalEntry (readU16BE m 1) (directoryEntry m (readU16BE m 1))
    (tickerView (directoryEntry m (readU16BE m 1)))

/-- An entry stays as it is stored until another one is accepted for its locate. -/
theorem InStep.entries_feed (h : p.InStep) {later : List (List UInt8)}
    (hstored : p.symbols.entries (readU16BE m 1) = directoryEntryStored m)
    (hlater : ∀ r ∈ accepted p later, IsType r ['R'] → readU16BE r 1 = readU16BE m 1 → r = m) :
    (p.feed later).symbols.entries (readU16BE m 1) = directoryEntryStored m := by
  induction later generalizing p with
  | nil => exact hstored
  | cons msg later ih =>
    rw [accepted] at hlater
    refine ih (h.handleMessage msg) ?_ fun r hr => hlater r ?_
    · rcases handleMessage_symbols h msg with hs | ⟨hR, hacc, hset, hs⟩
      · rw [hs]
        exact hstored
      rcases set_cases p.symbols (readU16BE msg 1) (directoryEntry msg (readU16BE msg 1)) with
        hno | ⟨_, _, _, hentries⟩
      · rw [hno] at hset
        cases hset
      rw [hs, hentries, update_apply]
      split_ifs with hl
      · rw [if_pos hacc] at hlater
        rw [hlater msg List.mem_cons_self hR hl.symm]
        rfl
      · exact hstored
    · split_ifs
      · exact List.mem_cons_of_mem _ hr
      · exact hr

/-- What is stored at a registered locate is of its ticker, whatever is accepted. -/
theorem InStep.stored_feed (h : p.InStep) {l : UInt16} {t : List UInt8}
    (has : p.symbols.RegisteredAs l t)
    (hstored : ∃ e, tickerView e = t ∧ p.symbols.entries l = canonicalEntry l e t)
    (later : List (List UInt8)) :
    ∃ e, tickerView e = t ∧ (p.feed later).symbols.entries l = canonicalEntry l e t := by
  induction later generalizing p with
  | nil => exact hstored
  | cons msg later ih =>
    refine ih (h.handleMessage msg) (h.registeredAs_feed has [msg]) ?_
    rcases handleMessage_symbols h msg with hs | ⟨_, _, hset, hs⟩
    · rw [hs]
      exact hstored
    rcases set_cases p.symbols (readU16BE msg 1) (directoryEntry msg (readU16BE msg 1)) with
      hno | ⟨_, _, _, hentries⟩
    · rw [hno] at hset
      cases hset
    rw [hs, hentries, update_apply]
    split_ifs with hl
    · subst hl
      -- the directory only takes the ticker the locate has
      have hnew := registeredAs_of_set hset
      have hold : (p.symbols.set (readU16BE msg 1)
          (directoryEntry msg (readU16BE msg 1))).2.RegisteredAs (readU16BE msg 1) t :=
        h.symbols.registeredAs_set has _
      have ht : tickerView (directoryEntry msg (readU16BE msg 1)) = t :=
        (registeredAs_iff.1 hnew).2.symm.trans (registeredAs_iff.1 hold).2
      exact ⟨_, ht, ht ▸ rfl⟩
    · exact hstored

/-- What an accepted directory message leaves behind. -/
structure Registers (p : ItchParser) (m : List UInt8) : Prop where
  inStep : p.InStep
  sized : WellSized m
  timestamp : readU48BE m kTimestampOffset < kNanosecondsPerDay
  stored : ∃ e, tickerView e = tickerView (directoryEntry m (readU16BE m 1))
    ∧ p.symbols.entries (readU16BE m 1)
      = canonicalEntry (readU16BE m 1) e (tickerView (directoryEntry m (readU16BE m 1)))
  registered : p.symbols.RegisteredAs (readU16BE m 1)
    (tickerView (directoryEntry m (readU16BE m 1)))
  admits : p.AdmitsDirectory

theorem admitsDirectory_iff : p.AdmitsDirectory ↔ p.channelPhase ≠ .waitingStartOfMessages
    ∧ p.channelPhase ≠ .postSystemHours ∧ p.channelPhase ≠ .endOfMessages := by
  unfold AdmitsDirectory AdmitsOrders
  cases p.channelPhase <;> decide

/-- An accepted directory message leaves the phase as it was. -/
theorem Accepts.admitsDirectory (hacc : p.Accepts m) (h : p.InStep) (hR : IsType m ['R']) :
    (p.handleMessage m).2.AdmitsDirectory := by
  obtain ⟨hopen, hmove⟩ := hacc.moves h
  have hevent : ∀ code, ¬ IsEvent m code := fun code hcode => hR.disjoint hcode.isType (by decide)
  cases hmove with
  | admin htype => exact (hR.disjoint htype (by decide)).elim
  | event hcode => exact absurd hcode (hevent _)
  | stay _ hphase =>
    rw [admitsDirectory_iff, hphase]
    refine ⟨fun hw => hevent _ (hopen.first hw), fun hp => ?_, hopen.not_ended⟩
    rcases hopen.late hp with htype | hC
    · exact hR.disjoint htype (by decide)
    · exact hevent _ hC

theorem Accepts.registers (hacc : p.Accepts m) (h : p.InStep) (htype : IsType m ['R']) :
    Registers (p.handleMessage m).2 m
      ∧ (p.handleMessage m).2.symbols.entries (readU16BE m 1) = directoryEntryStored m := by
  have hadmits := hacc.admitsDirectory h htype
  obtain ⟨c, hc, hR⟩ := htype
  cases List.mem_singleton.1 hc
  have hS : byteAt m 0 ≠ byte 'S' := by
    rw [hR]
    decide
  have hin := h.handleMessage m
  unfold Accepts at hacc
  rcases handleMessage_dispatched (p := p) hS with ⟨e, _, _, he⟩ | ⟨hsize, hopen, hout⟩
  · rw [he] at hacc
    cases hacc
  rw [dispatchType_directory hR] at hout
  have hphase : p.cleared.channelPhase ≠ .waitingStartOfMessages := fun hw => hS (hopen.first hw).1
  have hcleared : p.cleared.InStep := h.of_eq rfl rfl rfl
  rcases handleStockDirectory_symbols m hcleared hphase with ⟨e, he⟩ | ⟨_, hset, hs⟩
  · rw [hout, he] at hacc
    cases hacc
  rcases set_cases p.cleared.symbols (readU16BE m 1) (directoryEntry m (readU16BE m 1)) with
    hno | ⟨_, _, _, hentries⟩
  · rw [hno] at hset
    cases hset
  have hstored : (p.handleMessage m).2.symbols.entries (readU16BE m 1)
      = directoryEntryStored m := by
    rw [hout, hs, hentries, update_self]
    rfl
  refine ⟨⟨hin, hsize, hopen.timestamp, ⟨_, rfl, hstored⟩, ?_, hadmits⟩, hstored⟩
  rw [hout, hs]
  exact registeredAs_of_set hset

/-! ## The same message again -/

theorem InStep.createRegisteredBook_again (h : p.InStep) {l : UInt16}
    (hprep : p.booksPrepared = true) (hreg : p.symbols.isRegistered l = true) :
    p.createRegisteredBook l = (true, p) := by
  have hvalid := (isRegistered_iff.1 hreg).1
  obtain ⟨b, hb⟩ := h.sound
  have hsome : (p.books.books l).isSome := h.books.isSome_iff.2 ⟨hprep, hreg⟩
  unfold createRegisteredBook
  rw [if_neg (by simp [hvalid, hreg])]
  rcases hb.getOrCreate_cases l with ⟨hno, _⟩ | ⟨_, _, book, _, hout⟩ | ⟨_, _, hnone, _⟩
  · rw [hvalid] at hno
    cases hno
  · rw [hout]
    rfl
  · rw [hnone] at hsome
    cases hsome

/-- A directory message whose stock conflicts with none registers its locate. -/
theorem handleStockDirectory_eq (hphase : p.channelPhase ≠ .waitingStartOfMessages)
    (hnil : fixedText m 11 kStockLen ≠ []) (hvalid : isValidStockLocate (readU16BE m 1) = true)
    (hconflicts : p.tickerConflicts (readU16BE m 1) (fixedText m 11 kStockLen) = false)
    (hfind : p.symbols.locateForTicker (fixedText m 11 kStockLen) = kInvalidStockLocate
      ∨ p.symbols.locateForTicker (fixedText m 11 kStockLen) = readU16BE m 1)
    {d : StockDirectory}
    (hset : p.symbols.set (readU16BE m 1) (directoryEntry m (readU16BE m 1)) = (true, d)) :
    p.handleStockDirectory m = if p.booksPrepared then
        if ({ p with symbols := d }.createRegisteredBook (readU16BE m 1)).1 then
          ({ p with symbols := d }.createRegisteredBook (readU16BE m 1)).2
        else ({ p with symbols := d }.createRegisteredBook (readU16BE m 1)).2.fail
          .unableToPrepareBook
      else { p with symbols := d } := by
  unfold handleStockDirectory
  dsimp only
  rw [if_neg (by simp [hnil, hvalid]), if_neg (by simp [hconflicts]), if_neg, if_neg hphase, hset]
  · rfl
  · rintro ⟨hother, hother'⟩
    exact hfind.elim hother hother'

/-- What is left once `m` was handled again. -/
def refreshed (p : ItchParser) (m : List UInt8) : ItchParser :=
  { p with symbols := p.symbols.stored (readU16BE m 1) (directoryEntry m (readU16BE m 1)) }

theorem Registers.refreshed (h : Registers p m) : (p.refreshed m).InStep := by
  refine ⟨h.inStep.symbols.refresh h.registered, ?_⟩
  have hlocates : (p.refreshed m).bookLocates = p.bookLocates := by
    obtain ⟨hreg, ht⟩ := registeredAs_iff.1 h.registered
    obtain ⟨hvalid, hnil⟩ := isRegistered_iff.1 hreg
    refine Set.ext fun l => and_congr_right fun _ => ?_
    exact (isRegistered_stored hvalid (ht ▸ hnil) l).trans
      (or_iff_right_of_imp fun heq => heq ▸ hreg)
  rw [hlocates]
  exact h.inStep.books

theorem handleStockDirectory_again (h : Registers p m) (h0 : (0 : UInt8) ∉ stockField m 11)
    (hphase : p.channelPhase ≠ .waitingStartOfMessages) :
    p.handleStockDirectory m = p.refreshed m := by
  have hview := tickerView_directoryEntry (readU16BE m 1) h0
  obtain ⟨hreg, ht⟩ := registeredAs_iff.1 h.registered
  obtain ⟨hvalid, hnil⟩ := isRegistered_iff.1 hreg
  have hfind := (h.inStep.symbols.locateForTicker_iff hvalid).2 h.registered
  have hconflicts : p.tickerConflicts (readU16BE m 1) (fixedText m 11 kStockLen) = false := by
    obtain ⟨e, he, hstored⟩ := h.stored
    have hget : p.symbols.get (readU16BE m 1) = some (p.symbols.entries (readU16BE m 1)) :=
      if_pos hreg
    unfold tickerConflicts
    rw [hget, hstored, ← he]
    dsimp only
    rw [cString_canonicalEntry, he, hview]
    simp
  rw [ht, hview] at hnil
  have hset := set_of_registeredAs h.registered
  rw [hview] at hfind
  rw [handleStockDirectory_eq hphase hnil hvalid hconflicts (.inr hfind) hset]
  by_cases hprep : p.booksPrepared = true
  · have hreg' : (p.refreshed m).symbols.isRegistered (readU16BE m 1) = true :=
      (isRegistered_stored hvalid (hview ▸ hnil) _).2 (.inl rfl)
    have hagain := h.refreshed.createRegisteredBook_again hprep hreg'
    unfold refreshed at hagain ⊢
    rw [if_pos hprep, hagain]
    rfl
  · rw [if_neg hprep]
    rfl

theorem Registers.feed (h : Registers p m) (later : List (List UInt8))
    (hadmits : (p.feed later).AdmitsDirectory) : Registers (p.feed later) m :=
  ⟨h.inStep.feed later, h.sized, h.timestamp, h.inStep.stored_feed h.registered h.stored later,
    h.inStep.registeredAs_feed h.registered later, hadmits⟩

theorem Registers.handleMessage_again (h : Registers p m) (hR : byteAt m 0 = byte 'R')
    (h0 : (0 : UInt8) ∉ stockField m 11) : (p.handleMessage m).2 = p.cleared.refreshed m := by
  obtain ⟨hwait, hpost, hended⟩ := admitsDirectory_iff.1 h.admits
  have hS : byteAt m 0 ≠ byte 'S' := by
    rw [hR]
    decide
  have hopen : Open p m :=
    ⟨h.timestamp, fun hw => absurd hw hwait, hended, fun hp => absurd hp hpost⟩
  have hcleared : Registers p.cleared m :=
    ⟨h.inStep.of_eq rfl rfl rfl, h.sized, h.timestamp, h.stored, h.registered, h.admits⟩
  rw [handleMessage_of_open h.sized hopen fun h => absurd h hS, dispatchType_directory hR]
  exact handleStockDirectory_again hcleared h0 hwait

/-! ## Orders of the stock -/

theorem length_of_add (h : WellSized a) (hadd : IsType a ['A', 'F']) :
    kAddStockOffset + kStockLen ≤ a.length := by
  have hlen : ∀ c ∈ ['A', 'F'],
      kAddStockOffset + kStockLen ≤ expectedItchMessageLength (byte c) := by
    decide
  obtain ⟨c, hc, hbyte⟩ := hadd
  rw [h.2, hbyte]
  exact hlen c hc

/-- The stored ticker decides whether an order reaches its book. -/
theorem handleAdd_cases {l : UInt16} {e : StockDirectoryEntry}
    (has : p.symbols.RegisteredAs l (tickerView e))
    (hlen : kAddStockOffset + kStockLen ≤ a.length) :
    stockField a kAddStockOffset ≠ padded (tickerView e) ∧ p.handleAdd a l = p.fail .stockMismatch
    ∨ stockField a kAddStockOffset = padded (tickerView e)
      ∧ ∃ out, p.handleAdd a l = p.applyBook .addOrder out := by
  obtain ⟨entry, hget, hview⟩ := has
  have hiff := wireStockMatches_iff entry hlen
  rw [hview] at hiff
  unfold handleAdd
  rw [hget]
  dsimp only
  by_cases hmatch : wireStockMatches entry a kAddStockOffset = true
  · rw [if_neg (by simp [hmatch])]
    exact .inr ⟨hiff.1 hmatch, _, rfl⟩
  · rw [if_pos (by simp [hmatch])]
    exact .inl ⟨hiff.not.1 hmatch, rfl⟩

/-- An order at a registered locate is refused by a check that does not look at its stock, refused
for its stock, or handed to its book. -/
theorem handleMessage_add {l : UInt16} {e : StockDirectoryEntry}
    (has : p.symbols.RegisteredAs l (tickerView e)) (hadd : AddsAt a l) :
    (∃ e, e ≠ .unregisteredLocate ∧ e ≠ .stockMismatch ∧ (p.handleMessage a).2 = p.cleared.fail e)
    ∨ stockField a kAddStockOffset ≠ padded (tickerView e)
      ∧ (p.handleMessage a).2 = p.cleared.fail .stockMismatch
    ∨ stockField a kAddStockOffset = padded (tickerView e)
      ∧ ∃ out, (p.handleMessage a).2 = p.cleared.applyBook .addOrder out := by
  obtain ⟨htype, rfl⟩ := hadd
  have hS : byteAt a 0 ≠ byte 'S' := by
    intro hS
    exact htype.disjoint ⟨_, List.mem_singleton_self _, hS⟩ (by decide)
  rcases handleMessage_dispatched (p := p) hS with hfail | ⟨hsize, _, hout⟩
  · exact .inl hfail
  · rw [hout, dispatchType_add htype]
    exact .inr (handleAdd_cases (p := p.cleared) has (length_of_add hsize htype))

theorem applyBook_error (p : ItchParser) (operation : BookOperation)
    (out : MutationResult × BookManager) : (p.applyBook operation out).lastError = p.lastError
      ∨ ∃ result, (p.applyBook operation out).lastError
        = some (.bookFailure operation result) := by
  unfold applyBook applyBookResult
  split
  · exact .inl rfl
  · exact .inr ⟨_, rfl⟩

/-- The order of a stock whose field has the bytes of a directory message. -/
def orderOf (m : List UInt8) : List UInt8 :=
  byte 'A' :: byteAt m 1 :: byteAt m 2
    :: (List.replicate 21 0 ++ stockField m 11 ++ List.replicate 4 0)

theorem stockField_orderOf (hlen : (stockField m 11).length = kStockLen) :
    stockField (orderOf m) kAddStockOffset = stockField m 11 := by
  have hdrop : (orderOf m).drop kAddStockOffset = stockField m 11 ++ List.replicate 4 0 := rfl
  rw [stockField, hdrop, ← hlen, List.take_left]

theorem wellSized_orderOf (hlen : (stockField m 11).length = kStockLen) :
    WellSized (orderOf m) := by
  refine ⟨List.cons_ne_nil _ _, ?_⟩
  unfold orderOf
  simp [hlen]
  rfl

/-- A NUL character in the field is met by no stored ticker. -/
theorem Registers.order_refused (h : Registers p m) (hadmits : p.AdmitsOrders)
    (hlen : (stockField m 11).length = kStockLen) (h0 : (0 : UInt8) ∈ stockField m 11) :
    ¬ p.PassesStockIdentity (orderOf m) := by
  have htype : IsType (orderOf m) ['A', 'F'] := ⟨'A', List.mem_cons_self, rfl⟩
  obtain ⟨hwait, hpost, hended⟩ := admitsDirectory_iff.1 (.inr hadmits)
  have hmidnight : readU48BE (orderOf m) kTimestampOffset < kNanosecondsPerDay := by
    have hzero : readU48BE (orderOf m) kTimestampOffset = 0 := by
      simp [readU48BE, readBE, orderOf, byteAt, kTimestampOffset, List.range_succ]
    rw [hzero]
    decide
  have hopen : Open p (orderOf m) :=
    ⟨hmidnight, fun hw => absurd hw hwait, hended, fun hp => absurd hp hpost⟩
  have hsize := wellSized_orderOf hlen
  have hS : byteAt (orderOf m) 0 ≠ byte 'S' := (by decide : byte 'A' ≠ byte 'S')
  have hout : (p.handleMessage (orderOf m)).2 = p.cleared.fail .stockMismatch := by
    rw [handleMessage_of_open hsize hopen fun h => absurd h hS, dispatchType_add htype]
    rcases handleAdd_cases (p := p.cleared) h.registered (length_of_add hsize htype) with
      ⟨_, hmismatch⟩ | ⟨hmatch, _⟩
    · exact hmismatch
    · rw [stockField_orderOf hlen] at hmatch
      rw [hmatch] at h0
      exact absurd h0 (zero_notMem_padded _)
  intro hpass
  exact (hpass .stockMismatch (by rw [hout]; rfl)).2 rfl

/-- Orders are admitted at once, or after System Event S. -/
theorem InStep.exists_admitsOrders (h : p.InStep) (hadmits : p.AdmitsDirectory) :
    ∃ later, (p.feed later).AdmitsOrders := by
  rcases hadmits with hstartup | horders
  swap
  · exact ⟨[], horders⟩
  have hphase : p.channelPhase = .startupDirectorySpin ∨ p.channelPhase = .startupAdminSpin := by
    simpa using hstartup
  have hacc := h.start_accepted hphase
  refine ⟨[systemEvent 'S'], ?_⟩
  have hevent : IsEvent (systemEvent 'S') 'S' := ⟨rfl, rfl⟩
  have hdaily := dailyEvent_of_isEvent (by decide) hevent
  change (p.handleMessage (systemEvent 'S')).2.AdmitsOrders
  cases (hacc.moves h).2 with
  | stay hnone =>
    rw [hdaily] at hnone
    cases hnone
  | admin htype => exact (htype.disjoint hevent.isType (by decide)).elim
  | event _ hdue =>
    have hcount := hdue.count
    unfold AdmitsOrders
    generalize (p.handleMessage (systemEvent 'S')).2.channelPhase = next at hcount
    rcases hphase with hp | hp <;> rw [hp] at hcount <;> cases next <;> revert hcount <;> decide

/-- The law holds when the field has no NUL character. -/
theorem Registers.refreshLaw (h : Registers p m)
    (hentry : p.symbols.entries (readU16BE m 1) = directoryEntryStored m)
    (hR : byteAt m 0 = byte 'R') (h0 : (0 : UInt8) ∉ stockField m 11) : RefreshLaw p m := by
  have hview := tickerView_directoryEntry (readU16BE m 1) h0
  have hlen : 11 + kStockLen ≤ m.length := by
    rw [h.sized.2, hR]
    decide
  have hfield := stockField_eq_padded hlen h0
  have htrim : (fixedText m 11 kStockLen).rdropWhile (fun c => c = byte ' ' ∨ c = 0)
      = fixedText m 11 kStockLen := List.rdropWhile_idempotent _ _
  have hkept := h.inStep.registeredAs_feed h.registered
  constructor
  · intro later q hadmits
    have hagain := (h.feed later hadmits).handleMessage_again hR h0
    unfold Accepts
    rw [hagain]
    exact ⟨rfl, rfl, fun hlater => stored_eq_self (h.inStep.entries_feed hentry hlater)⟩
  · intro later a q _ hadd hsame e he
    rcases handleMessage_add (hkept later) hadd with ⟨e', hlocate, hstock, hout⟩ | ⟨hne, _⟩
      | ⟨_, out, hout⟩
    · rw [hout] at he
      cases he
      exact ⟨hlocate, hstock⟩
    · rw [hview] at hne
      exact absurd (hsame.trans hfield) hne
    · rw [hout] at he
      rcases applyBook_error (p.feed later).cleared .addOrder out with hnone | ⟨result, hfail⟩
      · rw [hnone] at he
        cases he
      · rw [hfail] at he
        cases he
        exact ⟨nofun, nofun⟩
  · intro later a q hadd hdiff
    unfold Accepts
    rcases handleMessage_add (hkept later) hadd with ⟨e', _, _, hout⟩ | ⟨_, hout⟩ | ⟨hmatch, _⟩
    · rw [hout]
      exact ⟨nofun, rfl⟩
    · rw [hout]
      exact ⟨nofun, rfl⟩
    · rw [hview] at hmatch
      exact absurd (fixedText_of_padded htrim hmatch) hdiff

/-- An accepted directory message keeps its promises exactly when its field has no NUL character. -/
theorem Accepts.refreshLaw_iff (hacc : p.Accepts m) (h : p.InStep) (htype : IsType m ['R']) :
    RefreshLaw (p.handleMessage m).2 m ↔ (0 : UInt8) ∉ stockField m 11 := by
  obtain ⟨hreg, hentry⟩ := hacc.registers h htype
  obtain ⟨c, hc, hR⟩ := htype
  cases List.mem_singleton.1 hc
  refine ⟨fun hlaw h0 => ?_, hreg.refreshLaw hentry hR⟩
  have hlen : (stockField m 11).length = kStockLen := by
    refine length_stockField ?_
    rw [hreg.sized.2, hR]
    decide
  obtain ⟨later, horders⟩ := hreg.inStep.exists_admitsOrders hreg.admits
  have hlater : Registers ((p.handleMessage m).2.feed later) m := hreg.feed later (.inr horders)
  have hpass := hlaw.identity later (orderOf m) horders ⟨⟨'A', List.mem_cons_self, rfl⟩, rfl⟩
    (stockField_orderOf hlen)
  exact hlater.order_refused horders hlen h0 hpass

/-- In every run a directory message that is accepted keeps its promises exactly when its stock
field has no NUL character. -/
theorem directory_refresh {config : BookManagerConfig} {systemPageBytes : ℕ} {books : BookManager}
    (hbooks : BookManager.create config systemPageBytes = .ok books)
    (messages : List (List UInt8)) (m : List UInt8) (htype : IsType m ['R']) :
    let p := (ItchParser.create .fresh books).feed messages
    p.Accepts m → (RefreshLaw (p.handleMessage m).2 m ↔ (0 : UInt8) ∉ stockField m 11) := by
  intro p hacc
  exact hacc.refreshLaw_iff ((inStep_create hbooks).feed messages) htype

/-- A directory message of stock locate 1 with the given stock field. -/
def stockDirectory (stock : List Char) : List UInt8 :=
  byte 'R' :: [0, 1] ++ List.replicate 8 0 ++ stock.map byte ++ List.replicate 20 0

/-- A stock that is filled up with blanks, after System Event O. -/
theorem directory_refresh_blanks : ∃ books, BookManager.create ⟨⟨1, 1⟩, ⟨1⟩⟩ 4096 = .ok books
    ∧ let p := (ItchParser.create .fresh books).feed [systemEvent 'O']
      let m := stockDirectory ['Z', 'X', 'Z', 'Z', 'T', ' ', ' ', ' ']
      RefreshLaw (p.handleMessage m).2 m := by
  obtain ⟨books, hbooks⟩ : ∃ books, BookManager.create ⟨⟨1, 1⟩, ⟨1⟩⟩ 4096 = .ok books := ⟨_, rfl⟩
  exact ⟨books, hbooks, (directory_refresh hbooks [systemEvent 'O']
    (stockDirectory ['Z', 'X', 'Z', 'Z', 'T', ' ', ' ', ' ']) ⟨'R', List.mem_cons_self, rfl⟩
    rfl).2 (by decide)⟩

/-- With a NUL character inside the stock field the second message is refused. -/
theorem directory_refresh_nul : ∃ books, BookManager.create ⟨⟨1, 1⟩, ⟨1⟩⟩ 4096 = .ok books
    ∧ let p := (ItchParser.create .fresh books).feed [systemEvent 'O']
      let m := stockDirectory ['Z', '\x00', 'T', ' ', ' ', ' ', ' ', ' ']
      let q := (p.handleMessage m).2
      p.Accepts m ∧ q.AdmitsDirectory
      ∧ (q.handleMessage m).2.lastError = some .conflictingTicker ∧ ¬ RefreshLaw q m := by
  obtain ⟨books, hbooks⟩ : ∃ books, BookManager.create ⟨⟨1, 1⟩, ⟨1⟩⟩ 4096 = .ok books := ⟨_, rfl⟩
  have hin := (inStep_create hbooks).feed [systemEvent 'O']
  have hacc : ((ItchParser.create .fresh books).feed [systemEvent 'O']).Accepts
      (stockDirectory ['Z', '\x00', 'T', ' ', ' ', ' ', ' ', ' ']) := rfl
  refine ⟨books, hbooks, hacc, .inl List.mem_cons_self, rfl, fun hlaw => ?_⟩
  exact (hacc.refreshLaw_iff hin ⟨'R', List.mem_cons_self, rfl⟩).1 hlaw (by decide)

end ItchParser

end AstraFeed
