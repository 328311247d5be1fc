import AstraFeed.FeedRun
import AstraFeed.ParserRun
import AstraFeed.Proofs.BookRun
import AstraFeed.Proofs.StockDirectory

/-!
# What a message does

A message is refused, skipped, or does one of a few things to the state; `handleMessage_cases` says
so once, and what a refusal keeps is read off it.
-/

namespace AstraFeed

open Function

namespace ItchParser

open Wire

variable {p : ItchParser} {msg : List UInt8}

/-- What a message to an open channel does. -/
inductive Effect (p : ItchParser) (msg : List UInt8) : ItchParser → Prop
  | refuse (e : ItchError) : Effect p msg (p.fail e)
  | skip (htype : byteAt msg 0 ≠ byte 'S') (horder : ¬ IsOrderMessage msg) : Effect p msg p.skip
  | admin (htype : IsAdministrative msg) : Effect p msg p.markStartupAdminMessage
  | book (htype : IsOrderMessage msg) (operation : BookOperation) (op : BookOp)
      (hop : ∀ l, op ≠ .getOrCreate l)
      (hspoils : ∀ result, op.spoils result
        ⊆ spoiledBy msg (some (.bookFailure operation result))) :
      Effect p msg (p.applyBook operation (p.books.perform op))
  | directory (htype : byteAt msg 0 = byte 'R')
      (hphase : p.channelPhase ≠ .waitingStartOfMessages) :
      Effect p msg (p.handleStockDirectory msg)
  | event (htype : byteAt msg 0 = byte 'S') : Effect p msg (p.handleSystemEvent msg)

theorem Effect.ite {c : Prop} [Decidable c] {a b : Bool × ItchParser}
    (ha : c → Effect p msg a.2) (hb : ¬ c → Effect p msg b.2) :
    Effect p msg (if c then a else b).2 := by
  split
  · exact ha ‹_›
  · exact hb ‹_›

theorem dispatchType_effect (locate : UInt16)
    (hphase : p.channelPhase = .waitingStartOfMessages → byteAt msg 0 = byte 'S') :
    Effect p msg (p.dispatchType msg (byteAt msg 0) locate).2 := by
  have hnone : ∀ S : Set UInt64, ∅ ⊆ S := Set.empty_subset
  have hadd : IsOrderMessage msg → Effect p msg (p.handleAdd msg locate) := by
    intro htype
    unfold handleAdd
    split
    · exact .refuse _
    · split_ifs
      · exact .refuse _
      · exact .book htype _ (.addOrder _ _ _ _ _ _) (by simp) fun _ => hnone _
  have hexec : IsOrderMessage msg → Effect p msg (p.applyExecution msg locate) :=
    fun htype => .book htype _ (.executeOrder _ _ _ _) (by simp) fun _ => hnone _
  have hexecWithPrice : IsOrderMessage msg →
      Effect p msg (p.handleOrderExecutedWithPrice msg locate) := by
    intro htype
    unfold handleOrderExecutedWithPrice
    split_ifs
    · exact .refuse _
    · exact hexec htype
  have hreplace : byteAt msg 0 = byte 'U' → Effect p msg (p.handleReplace msg locate) := by
    intro hU
    unfold handleReplace
    dsimp only
    split_ifs
    · exact .refuse _
    · refine .book ⟨_, by simp, hU⟩ _ (.replaceOrder _ _ _ _ _ _) (by simp) fun result r hr => ?_
      cases result with
      | orderCountOverflow => exact ⟨hU, hr, rfl⟩
      | _ => exact hr.elim
  unfold dispatchType
  refine .ite (fun h => hadd ⟨_, by simp, h⟩) fun _ => .ite (fun h => hadd ⟨_, by simp, h⟩) fun _ =>
    .ite (fun h => hexec ⟨_, by simp, h⟩) fun _ =>
    .ite (fun h => hexecWithPrice ⟨_, by simp, h⟩) fun _ =>
    .ite (fun h => .book ⟨_, by simp, h⟩ _ (.cancelShares _ _ _ _) (by simp) fun _ => hnone _)
    fun _ =>
    .ite (fun h => .book ⟨_, by simp, h⟩ _ (.deleteOrder _ _ _) (by simp) fun _ => hnone _)
    fun _ => .ite hreplace fun _ => .ite (fun hB => .skip ?_ ?_) fun _ =>
    .ite (fun hR => .directory hR fun hw => ?_) fun _ => .ite (fun hS => .event hS) fun hS =>
    .ite (fun h => .admin ?_) fun _ => .skip hS ?_
  · rw [hB]
    decide
  · rintro ⟨c, hc, h⟩
    rw [hB] at h
    revert c
    decide
  · have hS := hphase hw
    rw [hR] at hS
    exact absurd hS (by decide)
  · rcases h with h | h | h | h | h | h | h | h <;> exact ⟨_, by simp, h⟩
  · rintro ⟨c, hc, h⟩
    simp only [List.mem_cons, List.not_mem_nil, or_false] at hc
    rcases hc with rfl | rfl | rfl | rfl | rfl | rfl | rfl <;> contradiction

/-- The checks a message passes before its type is looked at. -/
structure Open (p : ItchParser) (msg : List UInt8) : Prop where
  timestamp : readU48BE msg kTimestampOffset < kNanosecondsPerDay
  first : p.channelPhase = .waitingStartOfMessages → IsEvent msg 'O'
  not_ended : p.channelPhase ≠ .endOfMessages
  late : p.channelPhase = .postSystemHours → IsType msg ['X', 'D', 'B'] ∨ IsEvent msg 'C'

theorem open_of_checks {code : UInt8}
    (hcode : byteAt msg 0 = byte 'S' → code = byteAt msg kSystemEventCodeOffset)
    (h1 : ¬ kNanosecondsPerDay ≤ readU48BE msg kTimestampOffset)
    (h3 : ¬ (p.channelPhase = .waitingStartOfMessages
      ∧ (byteAt msg 0 ≠ byte 'S' ∨ code ≠ byte 'O')))
    (h4 : ¬ p.channelPhase = .endOfMessages)
    (h5 : ¬ (p.channelPhase = .postSystemHours ∧ byteAt msg 0 ≠ byte 'X' ∧ byteAt msg 0 ≠ byte 'D'
      ∧ byteAt msg 0 ≠ byte 'B' ∧ ¬ (byteAt msg 0 = byte 'S' ∧ code = byte 'C'))) :
    Open p msg := by
  refine ⟨UInt64.not_le.1 h1, fun hw => ?_, h4, fun hp => ?_⟩
  · have hS : byteAt msg 0 = byte 'S' := by
      by_contra hne
      exact h3 ⟨hw, .inl hne⟩
    refine ⟨hS, ?_⟩
    rw [← hcode hS]
    by_contra hne
    exact h3 ⟨hw, .inr hne⟩
  · by_contra hnot
    refine h5 ⟨hp, fun h => hnot (.inl ⟨_, by simp, h⟩), fun h => hnot (.inl ⟨_, by simp, h⟩),
      fun h => hnot (.inl ⟨_, by simp, h⟩), fun ⟨hS, hC⟩ => hnot (.inr ⟨hS, ?_⟩)⟩
    rw [← hcode hS, hC]

/-- A message is refused by one of the checks, or has an effect. -/
theorem dispatchMessage_cases : (∃ e, (p.dispatchMessage msg).2 = p.fail e)
    ∨ Open p msg ∧ Effect p msg (p.dispatchMessage msg).2 := by
  unfold dispatchMessage
  dsimp only
  have hcode : byteAt msg 0 = byte 'S' → (if byteAt msg 0 = byte 'S' then
      byteAt msg kSystemEventCodeOffset else 0) = byteAt msg kSystemEventCodeOffset :=
    fun hS => if_pos hS
  generalize (if byteAt msg 0 = byte 'S' then byteAt msg kSystemEventCodeOffset else 0) = code
    at hcode ⊢
  split_ifs with h1 h2 h3 h4 h5
  · exact .inl ⟨_, rfl⟩
  · exact .inl ⟨_, rfl⟩
  · exact .inl ⟨_, rfl⟩
  · exact .inl ⟨_, rfl⟩
  · exact .inl ⟨_, rfl⟩
  · have hopen := open_of_checks hcode h1 h3 h4 h5
    exact .inr ⟨hopen, dispatchType_effect _ fun hw => (hopen.first hw).1⟩

theorem dispatchMessage_effect : Effect p msg (p.dispatchMessage msg).2 := by
  rcases dispatchMessage_cases (p := p) with ⟨e, he⟩ | ⟨_, heff⟩
  · rw [he]
    exact .refuse e
  · exact heff

theorem handleMessage_cases : (∃ e, (p.handleMessage msg).2 = p.cleared.fail e)
    ∨ Open p msg ∧ Effect p.cleared msg (p.handleMessage msg).2 := by
  unfold handleMessage
  dsimp only
  split_ifs
  · exact .inl ⟨_, rfl⟩
  · exact .inl ⟨_, rfl⟩
  · exact .inl ⟨_, rfl⟩
  · refine dispatchMessage_cases.imp_right fun ⟨hopen, heff⟩ => ⟨?_, heff⟩
    exact ⟨hopen.timestamp, hopen.first, hopen.not_ended, hopen.late⟩

theorem handleMessage_effect (p : ItchParser) (msg : List UInt8) :
    Effect p.cleared msg (p.handleMessage msg).2 := by
  rcases handleMessage_cases (p := p) with ⟨e, he⟩ | ⟨_, heff⟩
  · rw [he]
    exact .refuse e
  · exact heff

theorem handlePrevalidatedMessage_effect :
    Effect p.cleared msg (p.handlePrevalidatedMessage msg).2 := by
  unfold handlePrevalidatedMessage
  split_ifs
  · exact .refuse _
  · exact dispatchMessage_effect

variable {b : BookModel}

/-! ## Creating books -/

/-- The books stand for some model. -/
def Sound (p : ItchParser) : Prop := ∃ b, Refines p.books b

theorem createRegisteredBook_spec (h : p.Sound) {locate : UInt16}
    (hreg : p.symbols.isRegistered locate = true) :
    (p.createRegisteredBook locate).1 = true ∧ ∃ books, (∃ b, Refines books b)
      ∧ (p.createRegisteredBook locate).2 = { p with books := books } := by
  obtain ⟨b, h⟩ := h
  have hv : isValidStockLocate locate = true := by
    unfold StockDirectory.isRegistered at hreg
    exact (Bool.and_eq_true _ _ ▸ hreg).1
  have hstep := (h.perform (.getOrCreate locate)).refines
  have hsome : (p.books.getOrCreate locate).1.isSome = true := by
    rcases h.getOrCreate_cases locate with ⟨hn, _⟩ | ⟨_, _, book, _, hout⟩ | ⟨_, _, _, _, hout⟩
    · rw [hv] at hn
      cases hn
    · rw [hout]
      rfl
    · rw [hout]
      rfl
  unfold createRegisteredBook
  rw [if_neg (by simp [hv, hreg])]
  exact ⟨hsome, _, ⟨_, hstep⟩, rfl⟩

theorem createRegisteredBooks_spec (h : p.Sound) :
    p.createRegisteredBooks.1 = true ∧ ∃ books, (∃ b, Refines books b)
      ∧ p.createRegisteredBooks.2 = { p with books := books } := by
  unfold createRegisteredBooks
  -- by induction on the slots left, from any books
  generalize List.range' 1 (kStockLocateSlots - 1) = slots
  induction slots generalizing p with
  | nil => exact ⟨rfl, p.books, h, rfl⟩
  | cons slot slots ih =>
    rw [List.foldl_cons]
    dsimp only
    by_cases hreg : p.symbols.isRegistered slot.toUInt16 = true
    · obtain ⟨hok, books, hb, hp⟩ := createRegisteredBook_spec h hreg
      rw [if_pos hreg, hok, hp]
      exact ih (p := { p with books := books }) hb
    · rw [if_neg hreg]
      exact ih h

/-- The body of the loop of `createRegisteredBooks`. -/
def prepareSlot (out : Bool × ItchParser) (slot : ℕ) : Bool × ItchParser :=
  if out.2.symbols.isRegistered slot.toUInt16 then
    ((out.2.createRegisteredBook slot.toUInt16).1 && out.1,
      (out.2.createRegisteredBook slot.toUInt16).2)
  else out

theorem prepareSlot_symbols (out : Bool × ItchParser) (slot : ℕ) :
    (prepareSlot out slot).2.symbols = out.2.symbols := by
  unfold prepareSlot createRegisteredBook
  split_ifs <;> rfl

theorem foldl_prepareSlot_symbols (slots : List ℕ) (out : Bool × ItchParser) :
    (slots.foldl prepareSlot out).2.symbols = out.2.symbols := by
  induction slots generalizing out with
  | nil => rfl
  | cons slot slots ih => exact (ih _).trans (prepareSlot_symbols out slot)

theorem createRegisteredBooks_symbols (p : ItchParser) :
    p.createRegisteredBooks.2.symbols = p.symbols := by
  unfold createRegisteredBooks
  generalize List.range' 1 (kStockLocateSlots - 1) = slots
  exact foldl_prepareSlot_symbols slots (true, p)

theorem foldl_prepareSlot_of_unregistered {slots : List ℕ}
    (h : ∀ slot ∈ slots, p.symbols.isRegistered slot.toUInt16 = false) (ok : Bool) :
    slots.foldl prepareSlot (ok, p) = (ok, p) := by
  induction slots with
  | nil => rfl
  | cons slot slots ih =>
    have hslot : prepareSlot (ok, p) slot = (ok, p) :=
      if_neg (by simp [h slot List.mem_cons_self])
    rw [List.foldl_cons, hslot]
    exact ih fun slot hmem => h slot (List.mem_cons_of_mem _ hmem)

/-- The slots past the last registered locate are passed over. -/
theorem createRegisteredBooks_below {n : ℕ} (hn : n < kStockLocateSlots)
    (h : ∀ l, p.symbols.isRegistered l = true → l.toNat ≤ n) :
    p.createRegisteredBooks = (List.range' 1 n).foldl prepareSlot (true, p) := by
  have hslots : List.range' 1 (kStockLocateSlots - 1)
      = List.range' 1 n ++ List.range' (1 + n) (kStockLocateSlots - 1 - n) := by
    rw [List.range'_append_1]
    congr 1
    omega
  have hrest : ∀ slot ∈ List.range' (1 + n) (kStockLocateSlots - 1 - n),
      p.symbols.isRegistered slot.toUInt16 = false := by
    intro slot hslot
    obtain ⟨hlo, hhi⟩ := List.mem_range'_1.1 hslot
    have hlt : slot < 65536 := by
      unfold kStockLocateSlots at *
      omega
    by_contra hreg
    have hle := h _ (by simpa using hreg)
    rw [UInt16.toNat_ofNat_of_lt' hlt] at hle
    omega
  change (List.range' 1 (kStockLocateSlots - 1)).foldl prepareSlot (true, p) = _
  rw [hslots, List.foldl_append]
  have hsymbols := foldl_prepareSlot_symbols (List.range' 1 n) (true, p)
  generalize (List.range' 1 n).foldl prepareSlot (true, p) = out at hsymbols ⊢
  obtain ⟨ok, q⟩ := out
  exact foldl_prepareSlot_of_unregistered (fun slot hslot => hsymbols ▸ hrest slot hslot) ok

/-! ## What is kept -/

theorem booksKept_refl (m : BookManager) (spoiled : Set UInt64) : BooksKept m m spoiled :=
  ⟨fun _ => rfl, fun _ => id, fun _ => .inl, ⟨_, rfl⟩, fun _ => .inl rfl⟩

theorem kept_fail (p : ItchParser) (e : ItchError) (spoiled : Set UInt64) :
    Kept p (p.fail e) spoiled := ⟨rfl, rfl, rfl, booksKept_refl _ _⟩

theorem booksKept_of_ends {m : BookManager} {l : UInt16} {book : OrderBook}
    (hb : m.books l = some book) {op : BookOp} {out : MutationResult × BookContext}
    (hends : Ends b op l ⟨book, m.orders, m.prices⟩ out) (hne : out.1 ≠ .applied) :
    BooksKept m { m with
      orders := out.2.orders
      prices := out.2.prices
      books := update m.books l (some out.2.book) } (op.spoils out.1) := by
  have hbooks : ∀ {n}, out.2.book = { book with allocationFailures := n } →
      ∀ l', update m.books l (some out.2.book) l' = m.books l' ∨ ∃ bk n, m.books l' = some bk
        ∧ update m.books l (some out.2.book) l' = some { bk with allocationFailures := n } := by
    intro n hn l'
    by_cases hl : l' = l
    · subst hl
      exact .inr ⟨book, n, hb, by rw [update_self, hn]⟩
    · exact .inl (update_of_ne hl _ _)
  rcases hends with ⟨e, ⟨rfl, _, n, k, hout⟩, _⟩
    | ⟨_, _, newId, hspoil, ⟨hres, ⟨n, hbk⟩, hpr, _, _, hlive, hused⟩, _⟩ | ⟨_, _, _, ⟨hres, _⟩, _⟩
  · rw [hout] at hbooks ⊢
    exact ⟨fun _ => rfl, fun _ => id, fun _ => .inl, ⟨k, rfl⟩, hbooks rfl⟩
  · refine ⟨hlive, fun r hr => (hused r).2 (.inr hr), fun r hr => ?_, ⟨_, hpr⟩, hbooks hbk⟩
    rcases (hused r).1 hr with rfl | hr
    · rw [hres]
      exact .inr hspoil
    · exact .inl hr
  · exact absurd hres hne

theorem booksKept_routed {m : BookManager} (h : Refines m b) {l : UInt16} {op : BookOp}
    {f : BookContext → MutationResult × BookContext}
    (hends : ∀ book, m.books l = some book →
      Ends b op l ⟨book, m.orders, m.prices⟩ (f ⟨book, m.orders, m.prices⟩))
    (hne : (m.routed l f).1 ≠ .applied) :
    BooksKept m (m.routed l f).2 (op.spoils (m.routed l f).1) := by
  unfold BookManager.routed at hne ⊢
  rw [h.find_eq] at hne ⊢
  cases hb : m.books l with
  | none => exact booksKept_refl _ _
  | some book =>
    rw [hb] at hne
    exact booksKept_of_ends hb (hends book hb) hne

/-- An operation that is not applied changes nothing but counters. -/
theorem booksKept_perform {m : BookManager} (h : Refines m b) (op : BookOp)
    (hne : (m.perform op).1 ≠ .applied) :
    BooksKept m (m.perform op).2 (op.spoils (m.perform op).1) := by
  cases op with
  | getOrCreate l =>
    rcases h.getOrCreate_cases l with ⟨_, hout⟩ | ⟨_, _, book, _, hout⟩ | ⟨_, _, _, _, hout⟩
    · simp only [BookManager.perform, hout]
      exact booksKept_refl _ _
    · simp only [BookManager.perform, hout] at hne
      exact absurd rfl hne
    · simp only [BookManager.perform, hout] at hne
      exact absurd rfl hne
  | addOrder l orderId price qty side timestamp =>
    exact booksKept_routed (f := fun c => c.addOrder orderId price qty side timestamp) h
      (fun book hb => addOrder_model h hb orderId price qty side timestamp) hne
  | executeOrder l orderId qty timestamp =>
    exact booksKept_routed (f := fun c => c.executeOrder orderId qty timestamp) h
      (fun book hb => executeOrder_model h hb orderId qty timestamp) hne
  | cancelShares l orderId qty timestamp =>
    exact booksKept_routed (f := fun c => c.cancelShares orderId qty timestamp) h
      (fun book hb => cancelShares_model h hb orderId qty timestamp) hne
  | deleteOrder l orderId timestamp =>
    exact booksKept_routed (f := fun c => c.deleteOrder orderId timestamp) h
      (fun book hb => deleteOrder_model h hb orderId timestamp) hne
  | replaceOrder l oldId newId newPrice newQty timestamp =>
    exact booksKept_routed (f := fun c => c.replaceOrder oldId newId newPrice newQty timestamp) h
      (fun book hb => replaceOrder_model h hb oldId newId newPrice newQty timestamp) hne

theorem applyBook_kept (h : p.Sound) (hp : p.lastError = none) {operation : BookOperation}
    {op : BookOp} (hspoils : ∀ result, op.spoils result
      ⊆ spoiledBy msg (some (.bookFailure operation result)))
    (herr : (p.applyBook operation (p.books.perform op)).lastError ≠ none) :
    Kept p (p.applyBook operation (p.books.perform op))
      (spoiledBy msg (p.applyBook operation (p.books.perform op)).lastError) := by
  obtain ⟨b, h⟩ := h
  unfold applyBook applyBookResult at herr ⊢
  by_cases hres : (p.books.perform op).1 = .applied
  · rw [if_pos hres] at herr
    exact absurd hp herr
  · rw [if_neg hres]
    have hk := booksKept_perform h op hres
    exact ⟨rfl, rfl, rfl, hk.live, hk.used,
      fun r hr => (hk.used_or r hr).imp_right fun hs => hspoils _ hs, hk.prices, hk.books⟩

/-- A directory message past the start is refused before it changes anything, or registers its
locate and, once the books are prepared, creates its book. -/
theorem handleStockDirectory_set (hphase : p.channelPhase ≠ .waitingStartOfMessages) :
    (∃ e, p.handleStockDirectory msg = p.fail e)
    ∨ ∃ l entry, l = readU16BE msg 1 ∧ entry = directoryEntry msg l
      ∧ (p.symbols.set l entry).1 = true ∧ ∃ q : ItchParser,
      q = { p with symbols := (p.symbols.set l entry).2 }
      ∧ p.handleStockDirectory msg
        = if p.booksPrepared then
            if (q.createRegisteredBook l).1 then (q.createRegisteredBook l).2
            else (q.createRegisteredBook l).2.fail .unableToPrepareBook
          else q := by
  unfold handleStockDirectory
  dsimp only
  by_cases h1 : fixedText msg 11 kStockLen = [] ∨ (!isValidStockLocate (readU16BE msg 1)) = true
  · rw [if_pos h1]
    exact .inl ⟨_, rfl⟩
  rw [if_neg h1]
  by_cases h2 : p.tickerConflicts (readU16BE msg 1) (fixedText msg 11 kStockLen) = true
  · rw [if_pos h2]
    exact .inl ⟨_, rfl⟩
  rw [if_neg h2]
  by_cases h3 : p.symbols.locateForTicker (fixedText msg 11 kStockLen)
      ≠ StockDirectory.kInvalidStockLocate
    ∧ p.symbols.locateForTicker (fixedText msg 11 kStockLen) ≠ readU16BE msg 1
  · rw [if_pos h3]
    exact .inl ⟨_, rfl⟩
  rw [if_neg h3, if_neg hphase]
  rcases StockDirectory.set_cases p.symbols (readU16BE msg 1)
    (directoryEntry msg (readU16BE msg 1)) with hs | ⟨_, _, hset, _⟩
  · rw [hs]
    exact .inl ⟨_, rfl⟩
  · rw [if_neg (by simp [hset])]
    exact .inr ⟨_, _, rfl, rfl, hset, _, rfl, rfl⟩

theorem handleStockDirectory_cases (h : p.Sound)
    (hphase : p.channelPhase ≠ .waitingStartOfMessages) :
    (∃ e, p.handleStockDirectory msg = p.fail e)
    ∨ ∃ symbols books, (∃ b, Refines books b)
      ∧ p.handleStockDirectory msg = { p with symbols := symbols, books := books } := by
  rcases handleStockDirectory_set hphase with he | ⟨l, entry, _, _, hset, q, hq, hout⟩
  · exact .inl he
  · right
    rw [hout, hq]
    by_cases hprep : p.booksPrepared = true
    · obtain ⟨hok, books, hb, hp⟩ := createRegisteredBook_spec (p := { p with
        symbols := (p.symbols.set l entry).2 }) h
        ((StockDirectory.isRegistered_set_iff hset l).2 (.inl rfl))
      rw [if_pos hprep, hok, hp, if_pos rfl]
      exact ⟨_, books, hb, rfl⟩
    · rw [if_neg hprep]
      exact ⟨_, p.books, h, rfl⟩

theorem advancePhase_cases (p : ItchParser) (nextPhase : ChannelPhase) :
    p.advancePhase nextPhase = (false, p.fail .outOfOrderEvent)
    ∨ p.phaseAllowed nextPhase = true
      ∧ p.advancePhase nextPhase = (true, { p with channelPhase := nextPhase }) := by
  unfold advancePhase
  split_ifs with h
  · exact .inl rfl
  · exact .inr ⟨by simpa using h, rfl⟩

/-- The books of the directory, or the report that they could not be prepared. -/
def reported (created : Bool × ItchParser) : ItchParser :=
  if created.1 then created.2 else created.2.fail .unableToPrepareBooks

/-- What a System Event does. -/
inductive Advanced (p : ItchParser) (msg : List UInt8) : ItchParser → Prop
  | refuse (e : ItchError) : Advanced p msg (p.fail e)
  | advance {code : Char} {next : ChannelPhase} (hcode : IsEvent msg code)
      (hnext : (code, next) ∈ [('O', .startupDirectorySpin), ('Q', .marketHours),
        ('M', .postMarketHours), ('E', .postSystemHours)])
      (hallowed : p.phaseAllowed next = true) : Advanced p msg { p with channelPhase := next }
  | start (hcode : IsEvent msg 'S') (hallowed : p.phaseAllowed .systemHours = true)
      {created : Bool × ItchParser}
      (hcreated : created = if p.booksPrepared then (true, { p with channelPhase := .systemHours })
        else { p with channelPhase := .systemHours, booksPrepared := true }.createRegisteredBooks) :
      Advanced p msg (reported created)
  | close (hcode : IsEvent msg 'C') (hlive : p.books.totalLiveOrderCount = 0)
      (hallowed : p.phaseAllowed .endOfMessages = true) :
      Advanced p msg { p with channelPhase := .endOfMessages }
  | emergency (hcode : IsEmergency msg) : Advanced p msg p

theorem advancePhase_advanced {code : Char} {next : ChannelPhase} (hcode : IsEvent msg code)
    (hnext : (code, next) ∈ [('O', .startupDirectorySpin), ('Q', .marketHours),
      ('M', .postMarketHours), ('E', .postSystemHours)]) :
    Advanced p msg (p.advancePhase next).2 := by
  rcases p.advancePhase_cases next with ha | ⟨hallowed, ha⟩ <;> rw [ha]
  · exact .refuse _
  · exact .advance hcode hnext hallowed

theorem handleSystemHoursStart_advanced (hcode : IsEvent msg 'S') :
    Advanced p msg p.handleSystemHoursStart := by
  unfold handleSystemHoursStart
  rcases p.advancePhase_cases .systemHours with ha | ⟨hallowed, ha⟩
  · rw [ha]
    exact .refuse _
  · rw [ha]
    have hstart := Advanced.start (p := p) hcode hallowed rfl
    by_cases hprep : p.booksPrepared = true
    · rw [if_pos hprep] at hstart
      simpa only [reported, hprep, Bool.not_true, Bool.false_eq_true, if_false, if_true] using hstart
    · rw [if_neg hprep] at hstart
      simpa only [reported, hprep, Bool.not_true, Bool.false_eq_true, if_false] using hstart

theorem handleSystemEvent_advanced (htype : byteAt msg 0 = byte 'S') :
    Advanced p msg (p.handleSystemEvent msg) := by
  unfold handleSystemEvent
  dsimp only
  generalize hlive : p.books.totalLiveOrderCount = total
  split
  · exact advancePhase_advanced ⟨htype, ‹_›⟩ (by simp)
  split
  · exact handleSystemHoursStart_advanced ⟨htype, ‹_›⟩
  split
  · exact advancePhase_advanced ⟨htype, ‹_›⟩ (by simp)
  split
  · exact advancePhase_advanced ⟨htype, ‹_›⟩ (by simp)
  split
  · exact advancePhase_advanced ⟨htype, ‹_›⟩ (by simp)
  split
  · rename_i hC
    split
    · exact .refuse _
    · rename_i h0
      rcases p.advancePhase_cases .endOfMessages with ha | ⟨hallowed, ha⟩ <;> rw [ha]
      · exact .refuse _
      · exact .close ⟨htype, hC⟩ (hlive.trans (not_not.1 h0)) hallowed
  split
  · rename_i hcode
    refine .emergency ?_
    rcases hcode with h | h | h
    · exact .inl ⟨htype, h⟩
    · exact .inr (.inl ⟨htype, h⟩)
    · exact .inr (.inr ⟨htype, h⟩)
  · exact .refuse _

/-- The phase advances, or the event is refused. -/
def Advances (p p' : ItchParser) : Prop :=
  (∃ e, p' = p.fail e) ∨ ∃ phase prepared books, (∃ b, Refines books b)
    ∧ p' = { p with channelPhase := phase, booksPrepared := prepared, books := books }

theorem createRegisteredBooks_advances {q : ItchParser} (h : q.Sound) {phase : ChannelPhase}
    {prepared : Bool} (hq : q = { p with channelPhase := phase, booksPrepared := prepared }) :
    Advances p (reported q.createRegisteredBooks) := by
  obtain ⟨hok, books, hb, hp⟩ := createRegisteredBooks_spec h
  unfold reported
  rw [if_pos hok, hp, hq]
  exact .inr ⟨_, _, books, hb, rfl⟩

/-- A system event is refused before it changes anything. -/
theorem handleSystemEvent_advances (h : p.Sound) (htype : byteAt msg 0 = byte 'S') :
    Advances p (p.handleSystemEvent msg) := by
  have hadv := handleSystemEvent_advanced (p := p) htype
  generalize p.handleSystemEvent msg = p' at hadv
  cases hadv with
  | refuse e => exact .inl ⟨e, rfl⟩
  | advance => exact .inr ⟨_, p.booksPrepared, p.books, h, rfl⟩
  | start _ _ hcreated =>
    by_cases hprep : p.booksPrepared = true
    · rw [if_pos hprep] at hcreated
      rw [hcreated]
      exact .inr ⟨_, p.booksPrepared, p.books, h, rfl⟩
    · rw [if_neg hprep] at hcreated
      rw [hcreated]
      exact createRegisteredBooks_advances (p := p) (q := { p with
        channelPhase := .systemHours, booksPrepared := true }) h rfl
  | close => exact .inr ⟨_, p.booksPrepared, p.books, h, rfl⟩
  | emergency => exact .inr ⟨p.channelPhase, p.booksPrepared, p.books, h, rfl⟩

theorem Effect.sound {p' : ItchParser} (he : Effect p msg p') (h : p.Sound) : p'.Sound := by
  cases he with
  | refuse e => exact h
  | skip => exact h
  | admin =>
    unfold markStartupAdminMessage
    split_ifs <;> exact h
  | book htype operation op hop hspoils =>
    obtain ⟨b, h⟩ := h
    unfold applyBook applyBookResult
    split_ifs <;> exact ⟨_, (h.perform op).refines⟩
  | directory htype hphase =>
    rcases handleStockDirectory_cases h hphase with ⟨e, hp⟩ | ⟨_, _, hb, hp⟩
    · rw [hp]
      exact h
    · rw [hp]
      exact hb
  | event htype =>
    rcases handleSystemEvent_advances h htype with ⟨e, hp⟩ | ⟨_, _, _, hb, hp⟩
    · rw [hp]
      exact h
    · rw [hp]
      exact hb

theorem Effect.kept {p' : ItchParser} (he : Effect p msg p') (h : p.Sound)
    (hp : p.lastError = none) (herr : p'.lastError ≠ none) :
    Kept p p' (spoiledBy msg p'.lastError) := by
  cases he with
  | refuse e => exact kept_fail p e _
  | skip => exact absurd hp herr
  | admin =>
    unfold markStartupAdminMessage at herr
    split_ifs at herr <;> exact absurd hp herr
  | book htype operation op hop hspoils => exact applyBook_kept h hp hspoils herr
  | directory htype hphase =>
    rcases handleStockDirectory_cases h hphase with ⟨e, hout⟩ | ⟨_, _, _, hout⟩
    · rw [hout]
      exact kept_fail p e _
    · rw [hout] at herr
      exact absurd hp herr
  | event htype =>
    rcases handleSystemEvent_advances h htype with ⟨e, hout⟩ | ⟨_, _, _, _, hout⟩
    · rw [hout]
      exact kept_fail p e _
    · rw [hout] at herr
      exact absurd hp herr

/-! ## After the last message -/

/-- Once the end of messages is reached no order is live. -/
def Quiet (p : ItchParser) : Prop :=
  p.channelPhase = .endOfMessages → p.books.totalLiveOrderCount = 0

theorem createRegisteredBook_phase (p : ItchParser) (locate : UInt16) :
    (p.createRegisteredBook locate).2.channelPhase = p.channelPhase := by
  unfold createRegisteredBook
  split <;> rfl

theorem createRegisteredBooks_phase (p : ItchParser) :
    p.createRegisteredBooks.2.channelPhase = p.channelPhase := by
  unfold createRegisteredBooks
  refine List.foldlRecOn
    (motive := fun out : Bool × ItchParser => out.2.channelPhase = p.channelPhase) _ _ rfl ?_
  intro out hout slot _
  dsimp only
  split
  · exact (createRegisteredBook_phase out.2 _).trans hout
  · exact hout

theorem handleStockDirectory_phase (p : ItchParser) (msg : List UInt8)
    (h : p.channelPhase ≠ .endOfMessages) :
    (p.handleStockDirectory msg).channelPhase ≠ .endOfMessages := by
  have hspin : (if p.channelPhase = .waitingStartOfMessages then
      { p with channelPhase := .startupDirectorySpin } else p).channelPhase ≠ .endOfMessages := by
    split_ifs
    · exact fun hp => (by cases hp)
    · exact h
  unfold handleStockDirectory
  dsimp only
  generalize (if p.channelPhase = .waitingStartOfMessages then
    { p with channelPhase := .startupDirectorySpin } else p) = q at hspin ⊢
  split_ifs
  · exact h
  · exact h
  · exact h
  · exact hspin
  · rw [createRegisteredBook_phase]
    exact hspin
  · change (createRegisteredBook _ _).2.channelPhase ≠ _
    rw [createRegisteredBook_phase]
    exact hspin
  · exact hspin

theorem reported_phase (created : Bool × ItchParser) :
    (reported created).channelPhase = created.2.channelPhase := by
  unfold reported
  split <;> rfl

/-- The phase System Event S leads to. -/
theorem start_phase {created : Bool × ItchParser}
    (hcreated : created = if p.booksPrepared then (true, { p with channelPhase := .systemHours })
      else { p with channelPhase := .systemHours, booksPrepared := true }.createRegisteredBooks) :
    (reported created).channelPhase = .systemHours := by
  rw [reported_phase, hcreated]
  split
  · rfl
  · exact createRegisteredBooks_phase _

/-- Only System Event C leads to the end of messages, and it needs that no order is live. -/
theorem handleSystemEvent_quiet (h : p.channelPhase ≠ .endOfMessages)
    (htype : byteAt msg 0 = byte 'S') : (p.handleSystemEvent msg).Quiet := by
  have hadv := handleSystemEvent_advanced (p := p) htype
  generalize p.handleSystemEvent msg = p' at hadv
  cases hadv with
  | refuse e => exact fun hp => absurd hp h
  | @advance code next _ hnext _ =>
    intro hp
    change next = .endOfMessages at hp
    simp [hp] at hnext
  | start _ _ hcreated =>
    intro hp
    rw [start_phase hcreated] at hp
    cases hp
  | close _ hlive => exact fun _ => hlive
  | emergency => exact fun hp => absurd hp h

theorem Effect.quiet {p' : ItchParser} (he : Effect p msg p')
    (h : p.channelPhase ≠ .endOfMessages) : p'.Quiet := by
  cases he with
  | refuse e => exact fun hp => absurd hp h
  | skip => exact fun hp => absurd hp h
  | admin =>
    unfold markStartupAdminMessage
    split_ifs
    · exact fun hp => (by cases hp)
    · exact fun hp => absurd hp h
  | book htype operation op hop _ =>
    unfold applyBook applyBookResult
    split_ifs <;> exact fun hp => absurd hp h
  | directory => exact fun hp => absurd hp (handleStockDirectory_phase p msg h)
  | event htype => exact handleSystemEvent_quiet h htype

theorem handleMessage_quiet (h : p.Quiet) (msg : List UInt8) : (p.handleMessage msg).2.Quiet := by
  by_cases hp : p.channelPhase = .endOfMessages
  · rcases handleMessage_cases (p := p) with ⟨e, he⟩ | ⟨hopen, _⟩
    · rw [he]
      exact h
    · exact absurd hp hopen.not_ended
  · exact (handleMessage_effect p msg).quiet hp

/-- System Event O opens the day. -/
theorem handleMessage_start (symbols : StockDirectory) (books : BookManager) :
    ((ItchParser.create symbols books).handleMessage (systemEvent 'O')).2
      = { ItchParser.create symbols books with channelPhase := .startupDirectorySpin } := rfl

/-! ## A start with few stocks -/

theorem handleSystemEvent_symbols (htype : byteAt msg 0 = byte 'S') :
    (p.handleSystemEvent msg).symbols = p.symbols := by
  have hadv := handleSystemEvent_advanced (p := p) htype
  generalize p.handleSystemEvent msg = p' at hadv
  cases hadv with
  | refuse e => rfl
  | advance => rfl
  | start _ _ hcreated =>
    have hsymbols : ∀ created : Bool × ItchParser, created.2.symbols = p.symbols →
        (reported created).symbols = p.symbols := by
      intro created h
      unfold reported
      split_ifs <;> exact h
    refine hsymbols _ ?_
    rw [hcreated]
    split_ifs
    · rfl
    · exact createRegisteredBooks_symbols _
  | close => rfl
  | emergency => rfl

/-- A locate is registered by the directory messages for it. -/
theorem isRegistered_of_handleMessage {l : UInt16}
    (h : (p.handleMessage msg).2.symbols.isRegistered l = true) :
    p.symbols.isRegistered l = true ∨ byteAt msg 0 = byte 'R' ∧ l = readU16BE msg 1 := by
  have heff := handleMessage_effect p msg
  generalize (p.handleMessage msg).2 = p' at heff h
  cases heff with
  | refuse e => exact .inl h
  | skip => exact .inl h
  | admin =>
    unfold markStartupAdminMessage at h
    split_ifs at h <;> exact .inl h
  | book htype operation op =>
    unfold applyBook applyBookResult at h
    split_ifs at h <;> exact .inl h
  | directory htype hphase =>
    rcases handleStockDirectory_set hphase with ⟨e, he⟩ | ⟨l', entry, hl', _, _, q, hq, hout⟩
    · rw [he] at h
      exact .inl h
    · have hsymbols : (p.cleared.handleStockDirectory msg).symbols = q.symbols := by
        rw [hout]
        unfold createRegisteredBook
        split_ifs <;> rfl
      rw [hsymbols, hq] at h
      rcases StockDirectory.isRegistered_of_set h with rfl | hreg
      · exact .inr ⟨htype, hl'⟩
      · exact .inl hreg
  | event htype =>
    rw [handleSystemEvent_symbols htype] at h
    exact .inl h

theorem isRegistered_of_feed {l : UInt16} {messages : List (List UInt8)}
    (h : (p.feed messages).symbols.isRegistered l = true) :
    p.symbols.isRegistered l = true
      ∨ ∃ msg ∈ messages, byteAt msg 0 = byte 'R' ∧ l = readU16BE msg 1 := by
  induction messages generalizing p with
  | nil => exact .inl h
  | cons msg messages ih =>
    rcases ih h with hreg | ⟨r, hr, htype⟩
    · rcases isRegistered_of_handleMessage hreg with hp | htype
      · exact .inl hp
      · exact .inr ⟨msg, List.mem_cons_self, htype⟩
    · exact .inr ⟨r, List.mem_cons_of_mem _ hr, htype⟩

/-- What System Event S leads to when no locate past `n` is registered. -/
def startedBelow (p : ItchParser) (n : ℕ) : ItchParser :=
  reported ((List.range' 1 n).foldl prepareSlot (true, { p.cleared with
    channelPhase := .systemHours
    booksPrepared := true }))

theorem handleMessage_startedBelow (hphase : p.channelPhase = .startupDirectorySpin)
    (hprep : p.booksPrepared = false) {n : ℕ} (hn : n < kStockLocateSlots)
    (h : ∀ l, p.symbols.isRegistered l = true → l.toNat ≤ n) :
    p.handleMessage (systemEvent 'S') = (false, p.startedBelow n) := by
  have hopen : p.cleared.channelPhase = .startupDirectorySpin := hphase
  have hallowed : p.cleared.advancePhase .systemHours
      = (true, { p.cleared with channelPhase := .systemHours }) :=
    if_neg (by simp [phaseAllowed, hopen])
  have hbooks := createRegisteredBooks_below (p := { p.cleared with
    channelPhase := .systemHours
    booksPrepared := true }) hn h
  have hstart : p.cleared.handleSystemHoursStart = p.startedBelow n := by
    unfold handleSystemHoursStart
    dsimp only
    rw [hallowed]
    dsimp only
    rw [if_neg (by simp), if_neg (by simp [cleared, hprep]), hbooks]
    rfl
  have hevent : p.cleared.handleSystemEvent (systemEvent 'S')
      = p.cleared.handleSystemHoursStart := by
    unfold handleSystemEvent
    rw [if_neg (by decide), if_pos (by decide)]
  have hmessage : p.cleared.dispatchMessage (systemEvent 'S')
      = p.cleared.dispatchType (systemEvent 'S') (byte 'S') 0 := by
    unfold dispatchMessage
    rw [hopen]
    exact if_neg (by decide)
  unfold handleMessage
  rw [if_neg (by decide), if_neg (by decide), if_neg (by decide), hmessage, ← hstart, ← hevent]
  unfold dispatchType
  rw [if_neg (by decide), if_neg (by decide), if_neg (by decide), if_neg (by decide),
    if_neg (by decide), if_neg (by decide), if_neg (by decide), if_neg (by decide),
    if_neg (by decide), if_pos rfl]

/-- A day in which the messages before System Event S register no locate past `n`. -/
theorem feed_startedBelow {books : BookManager} {before : List (List UInt8)}
    (hphase : ((create .fresh books).feed before).channelPhase = .startupDirectorySpin)
    (hprep : ((create .fresh books).feed before).booksPrepared = false) {n : ℕ}
    (hn : n < kStockLocateSlots)
    (h : ∀ msg ∈ before, byteAt msg 0 = byte 'R' → (readU16BE msg 1).toNat ≤ n)
    (after : List (List UInt8)) : (create .fresh books).feed (before ++ systemEvent 'S' :: after)
      = (((create .fresh books).feed before).startedBelow n).feed after := by
  have hreg : ∀ l, ((create .fresh books).feed before).symbols.isRegistered l = true →
      l.toNat ≤ n := by
    intro l hl
    rcases isRegistered_of_feed hl with hfresh | ⟨msg, hmsg, htype, rfl⟩
    · exact absurd rfl (StockDirectory.isRegistered_iff.1 hfresh).2
    · exact h msg hmsg htype
  have hstart := handleMessage_startedBelow hphase hprep hn hreg
  unfold feed at hstart ⊢
  rw [List.foldl_append, List.foldl_cons, hstart]

end ItchParser

end AstraFeed
