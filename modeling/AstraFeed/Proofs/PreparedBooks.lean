import AstraFeed.BookDirectoryAudit
import AstraFeed.Proofs.FeedRun

/-!
# The books of the directory

`BooksFor` says which locates have a book. From System Event S on they are the registered ones, so
the audit of the books against the directory is clean (`directory_in_step`).
-/

namespace AstraFeed

open Function

/-! ## The count of prepared books -/

namespace PriceLevelStore

variable (s : PriceLevelStore)

theorem reservePrice_count (l : UInt16) (x : UInt32) :
    (s.reservePrice l x).2.preparedBookCount = s.preparedBookCount := by
  unfold reservePrice
  dsimp only
  split_ifs <;> rfl

theorem commitReservation_count (r : PricePageReservation) :
    (s.commitReservation r).2.preparedBookCount = s.preparedBookCount := by
  unfold commitReservation
  dsimp only
  split_ifs <;> rfl

theorem addValidated_count (a : PriceAddress) (side : OrderSide) (qty : UInt32) :
    (s.addValidated a side qty).preparedBookCount = s.preparedBookCount := by
  unfold addValidated
  dsimp only
  split_ifs <;> rfl

theorem add_count (a : PriceAddress) (side : OrderSide) (qty : UInt32) :
    (s.add a side qty).2.preparedBookCount = s.preparedBookCount := by
  unfold add
  dsimp only
  split_ifs
  · rfl
  · exact s.addValidated_count a side qty

theorem reduceChecked_count (l p : UInt16) (a : PriceAddress) (side : OrderSide)
    (current reduction : UInt32) :
    (s.reduceChecked l p a side current reduction).2.preparedBookCount = s.preparedBookCount := by
  unfold reduceChecked reduceLevel
  dsimp only
  split_ifs <;> rfl

theorem eraseValidated_count (a : PriceAddress) (side : OrderSide) (qty : UInt32)
    (plan : DeactivationPlan) :
    (s.eraseValidated a side qty plan).preparedBookCount = s.preparedBookCount := by
  unfold eraseValidated
  dsimp only
  split_ifs <;> rfl

theorem erase_count (a : PriceAddress) (side : OrderSide) (qty : UInt32) :
    (s.erase a side qty).2.preparedBookCount = s.preparedBookCount := by
  unfold erase
  cases s.validateErase a side qty with
  | error e => rfl
  | ok plan => exact s.eraseValidated_count a side qty plan

theorem count_ite {s : PriceLevelStore} {p : Prop} [Decidable p]
    {a b : MutationResult × PriceLevelStore} (ha : a.2.preparedBookCount = s.preparedBookCount)
    (hb : b.2.preparedBookCount = s.preparedBookCount) :
    (if p then a else b).2.preparedBookCount = s.preparedBookCount := by
  split_ifs
  · exact ha
  · exact hb

theorem move_count (a : PriceAddress) (oldQty : UInt32) (b : PriceAddress) (newQty : UInt32)
    (side : OrderSide) :
    (s.move a oldQty b newQty side).2.preparedBookCount = s.preparedBookCount := by
  unfold move
  refine count_ite rfl ?_
  cases s.owner a.pageHandle with
  | none => rfl
  | some oldOwner =>
    cases s.owner b.pageHandle with
    | none => rfl
    | some newOwner =>
      refine count_ite rfl (count_ite rfl ?_)
      cases s.validateErase a side oldQty with
      | error e => rfl
      | ok plan =>
        refine count_ite (count_ite rfl rfl) (count_ite rfl ?_)
        exact (addValidated_count _ _ _ _).trans (s.eraseValidated_count _ _ _ _)

end PriceLevelStore

section Count

variable {c : BookContext} {n : UInt32}

/-- As many books are prepared as before. -/
def Counted (n : UInt32) (out : MutationResult × BookContext) : Prop :=
  out.2.prices.preparedBookCount = n

theorem counted_ite {p : Prop} [Decidable p] {a b : MutationResult × BookContext}
    (ha : Counted n a) (hb : Counted n b) : Counted n (if p then a else b) := by
  split_ifs
  · exact ha
  · exact hb

/-- The page of a price, reserved and committed. -/
theorem commit_count (s : PriceLevelStore) (l : UInt16) (x : UInt32) :
    (if (s.reservePrice l x).1.requiresCommit then
        (s.reservePrice l x).2.commitReservation (s.reservePrice l x).1
      else (.applied, (s.reservePrice l x).2)).2.preparedBookCount = s.preparedBookCount := by
  have hreserve := s.reservePrice_count l x
  split_ifs
  · exact (PriceLevelStore.commitReservation_count _ _).trans hreserve
  · exact hreserve

theorem addOrder_count (c : BookContext) (orderId price : UInt64) (qty : UInt32) (side : UInt8)
    (timestamp : UInt64) :
    Counted c.prices.preparedBookCount (c.addOrder orderId price qty side timestamp) := by
  have hreserve := c.prices.reservePrice_count c.book.stockLocate price.toUInt32
  have hcommit := commit_count c.prices c.book.stockLocate price.toUInt32
  have hadd := fun a => (PriceLevelStore.add_count _ a (OrderBook.decodeSide side) qty).trans hcommit
  unfold BookContext.addOrder
  refine counted_ite rfl (counted_ite rfl ?_)
  refine counted_ite rfl (counted_ite rfl (counted_ite rfl (counted_ite rfl ?_)))
  refine counted_ite hreserve (counted_ite hcommit (counted_ite (hadd _) (counted_ite ?_ (hadd _))))
  exact (PriceLevelStore.erase_count _ _ _ _).trans (hadd _)

theorem cancelShares_count (c : BookContext) (orderId : UInt64) (qty : UInt32)
    (timestamp : UInt64) :
    Counted c.prices.preparedBookCount (c.cancelShares orderId qty timestamp) := by
  unfold BookContext.cancelShares
  refine counted_ite rfl (counted_ite rfl ?_)
  cases c.orders.findState orderId with
  | none => rfl
  | some slot =>
    refine counted_ite rfl (counted_ite rfl (counted_ite (counted_ite rfl rfl) ?_))
    exact counted_ite (c.prices.reduceChecked_count _ _ _ _ _ _)
      (c.prices.reduceChecked_count _ _ _ _ _ _)

theorem deleteOrder_count (c : BookContext) (orderId timestamp : UInt64) :
    Counted c.prices.preparedBookCount (c.deleteOrder orderId timestamp) := by
  unfold BookContext.deleteOrder
  refine counted_ite rfl ?_
  dsimp only
  split
  · rfl
  · rfl
  · exact counted_ite (c.prices.erase_count _ _ _) (counted_ite (c.prices.erase_count _ _ _)
      (c.prices.erase_count _ _ _))

theorem executeOrder_count (c : BookContext) (orderId : UInt64) (qty : UInt32)
    (timestamp : UInt64) :
    Counted c.prices.preparedBookCount (c.executeOrder orderId qty timestamp) := by
  unfold BookContext.executeOrder
  refine counted_ite rfl (counted_ite rfl ?_)
  cases c.orders.findState orderId with
  | none => rfl
  | some slot =>
    refine counted_ite rfl (counted_ite rfl (counted_ite (counted_ite rfl rfl)
      (counted_ite (counted_ite rfl ?_) ?_)))
    · exact counted_ite (c.prices.erase_count _ _ _) (counted_ite (c.prices.erase_count _ _ _)
        (c.prices.erase_count _ _ _))
    · exact counted_ite (c.prices.reduceChecked_count _ _ _ _ _ _)
        (c.prices.reduceChecked_count _ _ _ _ _ _)

theorem replaceReserved_count (c : BookContext) (slot : OrderSlot) (oldId newId : UInt64)
    (res : OrderSlotReservation) (pr : PricePageReservation) (qty : UInt32) (timestamp : UInt64) :
    Counted c.prices.preparedBookCount
      (c.replaceReserved slot oldId newId res pr qty timestamp) := by
  have hmove := c.prices.move_count
  unfold BookContext.replaceReserved
  refine counted_ite (counted_ite (hmove _ _ _ _ _) (hmove _ _ _ _ _)) (counted_ite rfl ?_)
  refine counted_ite (hmove _ _ _ _ _) (counted_ite ?_ (hmove _ _ _ _ _))
  exact (PriceLevelStore.move_count _ _ _ _ _ _).trans (hmove _ _ _ _ _)

theorem replaceOrder_count (c : BookContext) (oldId newId price : UInt64) (qty : UInt32)
    (timestamp : UInt64) :
    Counted c.prices.preparedBookCount (c.replaceOrder oldId newId price qty timestamp) := by
  have hreserve := c.prices.reservePrice_count c.book.stockLocate price.toUInt32
  have hcommit := commit_count c.prices c.book.stockLocate price.toUInt32
  unfold BookContext.replaceOrder
  refine counted_ite rfl (counted_ite rfl (counted_ite rfl ?_))
  dsimp only
  split
  · rfl
  · rfl
  · refine counted_ite rfl (counted_ite hreserve (counted_ite hcommit ?_))
    exact (replaceReserved_count _ _ _ _ _ _ _ _).trans hcommit

theorem routed_count {m : BookManager} {l : UInt16} {f : BookContext → MutationResult × BookContext}
    (hf : ∀ c, Counted c.prices.preparedBookCount (f c)) :
    (m.routed l f).2.prices.preparedBookCount = m.prices.preparedBookCount := by
  unfold BookManager.routed
  cases m.find l with
  | none => rfl
  | some book => exact hf ⟨book, m.orders, m.prices⟩

/-- Only `getOrCreate` prepares a book. -/
theorem perform_count (m : BookManager) {op : BookOp} (hop : ∀ l, op ≠ .getOrCreate l) :
    (m.perform op).2.prices.preparedBookCount = m.prices.preparedBookCount := by
  cases op with
  | getOrCreate l => exact absurd rfl (hop l)
  | addOrder l orderId price qty side timestamp =>
    exact routed_count fun c => addOrder_count c orderId price qty side timestamp
  | executeOrder l orderId qty timestamp =>
    exact routed_count fun c => executeOrder_count c orderId qty timestamp
  | cancelShares l orderId qty timestamp =>
    exact routed_count fun c => cancelShares_count c orderId qty timestamp
  | deleteOrder l orderId timestamp =>
    exact routed_count fun c => deleteOrder_count c orderId timestamp
  | replaceOrder l oldId newId price qty timestamp =>
    exact routed_count fun c => replaceOrder_count c oldId newId price qty timestamp

end Count

/-! ## Which locates have a book -/

/-- The books are those of the locates in `S`, and as many are prepared. -/
def BooksFor (m : BookManager) (S : Set UInt16) : Prop :=
  ∃ b, Refines m b ∧ b.prepared = S ∧ m.prices.preparedBookCount.toNat = S.ncard

section Books

variable {m : BookManager} {S : Set UInt16} {l : UInt16}

theorem booksFor_create {config : BookManagerConfig} {systemPageBytes : ℕ}
    (h : BookManager.create config systemPageBytes = .ok m) : BooksFor m ∅ := by
  refine ⟨.init, refines_fresh h, rfl, ?_⟩
  obtain ⟨_, _, _, hp, _⟩ := configOk_of_create h
  rw [hp, Set.ncard_empty]
  rfl

theorem after_prepared {b : BookModel} {op : BookOp} (hop : ∀ l, op ≠ .getOrCreate l)
    (result : MutationResult) : (b.after op result).prepared = b.prepared := by
  unfold BookModel.after
  split_ifs
  · cases op with
    | getOrCreate l => exact absurd rfl (hop l)
    | _ => rfl
  · split <;> rfl

theorem BooksFor.perform (h : BooksFor m S) {op : BookOp} (hop : ∀ l, op ≠ .getOrCreate l) :
    BooksFor (m.perform op).2 S := by
  obtain ⟨b, hb, hS, hcount⟩ := h
  refine ⟨_, (hb.perform op).refines, (after_prepared hop _).trans hS, ?_⟩
  rw [perform_count m hop]
  exact hcount

/-- A book at a valid locate: the pages stay, and the book is counted when it is new. -/
structure BookAdded (m : BookManager) (b : BookModel) (l : UInt16)
    (out : Option OrderBook × BookManager) : Prop where
  isSome : out.1.isSome = true
  refines : Refines out.2 { b with prepared := insert l b.prepared }
  config : out.2.config = m.config
  pricesConfig : out.2.prices.config = m.prices.config
  roots : out.2.prices.roots = m.prices.roots
  kept : l ∈ b.prepared → out.2.prices.preparedBookCount = m.prices.preparedBookCount
  counted : l ∉ b.prepared → out.2.prices.preparedBookCount = m.prices.preparedBookCount + 1

theorem Refines.bookAdded {b : BookModel} (h : Refines m b) (hl : isValidStockLocate l = true) :
    BookAdded m b l (m.getOrCreate l) := by
  have hstep := (h.perform (.getOrCreate l)).refines
  rcases h.getOrCreate_cases l with ⟨hv, _⟩ | ⟨_, hmem, book, _, hout⟩ | ⟨_, hmem, _, _, hout⟩
  · rw [hl] at hv
    cases hv
  · rw [hout]
    refine ⟨rfl, ?_, rfl, rfl, rfl, fun _ => rfl, fun hnot => absurd hmem hnot⟩
    rw [Set.insert_eq_of_mem hmem]
    exact h
  · have happ : (m.perform (.getOrCreate l)).1 = .applied := by
      simp only [BookManager.perform, hout]
      rfl
    rw [happ] at hstep
    refine ⟨by rw [hout]; rfl, hstep, ?_, ?_, ?_, fun hyes => absurd hyes hmem, fun _ => ?_⟩ <;>
      rw [hout] <;> rfl

theorem BooksFor.getOrCreate (h : BooksFor m S) (hl : isValidStockLocate l = true) :
    (m.getOrCreate l).1.isSome = true ∧ BooksFor (m.getOrCreate l).2 (insert l S) := by
  obtain ⟨b, hb, rfl, hcount⟩ := h
  have hadded := hb.bookAdded hl
  refine ⟨hadded.isSome, _, hadded.refines, rfl, ?_⟩
  by_cases hmem : l ∈ b.prepared
  · rw [hadded.kept hmem, Set.insert_eq_of_mem hmem]
    exact hcount
  · have hcard := StockDirectory.ncard_locates_le (insert l b.prepared)
    rw [Set.ncard_insert_of_notMem hmem (StockDirectory.finite_locates _)] at hcard ⊢
    rw [hadded.counted hmem, UInt32.toNat_add, hcount, show (1 : UInt32).toNat = 1 from rfl]
    unfold kStockLocateSlots at hcard
    omega

theorem BooksFor.isSome_iff (h : BooksFor m S) : (m.books l).isSome ↔ l ∈ S := by
  obtain ⟨b, hb, rfl, _⟩ := h
  exact (hb.books l).symm

theorem BooksFor.prepared_iff (h : BooksFor m S) : m.prices.isBookPrepared l = true ↔ l ∈ S := by
  obtain ⟨b, hb, rfl, _⟩ := h
  exact (hb.prepared l).symm

theorem BooksFor.identity (h : BooksFor m S) {book : OrderBook} (hb : m.books l = some book) :
    book.stockLocate = l ∧ book.symbolId = l.toUInt32 := by
  obtain ⟨b, href, _⟩ := h
  exact ⟨(href.book l book hb).stockLocate, (href.book l book hb).symbolId⟩

/-! ## The audit -/

/-- A slot whose book belongs to the directory adds at most a materialized book. -/
theorem auditSlot_eq {d : StockDirectory} (h : BooksFor m {l | d.isRegistered l = true})
    (audit : BookDirectoryAudit) (slot : ℕ) :
    m.auditSlot d audit slot = { audit with
      materializedBooks := audit.materializedBooks + (d.isRegistered slot.toUInt16).toNat } := by
  have hsome : (m.books slot.toUInt16).isSome = d.isRegistered slot.toUInt16 :=
    Bool.eq_iff_iff.2 h.isSome_iff
  have hprep : m.prices.isBookPrepared slot.toUInt16 = d.isRegistered slot.toUInt16 :=
    Bool.eq_iff_iff.2 h.prepared_iff
  unfold BookManager.auditSlot
  dsimp only
  rw [hprep, hsome]
  cases hb : m.books slot.toUInt16 with
  | none => cases d.isRegistered slot.toUInt16 <;> rfl
  | some book =>
    obtain ⟨hl, hid⟩ := h.identity hb
    cases d.isRegistered slot.toUInt16 <;> simp [hl, hid]

theorem foldl_auditSlot {d : StockDirectory} (h : BooksFor m {l | d.isRegistered l = true})
    (slots : List ℕ) (audit : BookDirectoryAudit) :
    slots.foldl (m.auditSlot d) audit = { audit with
      materializedBooks := audit.materializedBooks
        + slots.countP fun slot => d.isRegistered slot.toUInt16 } := by
  induction slots generalizing audit with
  | nil => rfl
  | cons slot slots ih =>
    rw [List.foldl_cons, auditSlot_eq h, ih, List.countP_cons]
    cases d.isRegistered slot.toUInt16
    · rfl
    · simp only [Bool.toNat_true, if_true]
      congr 1
      omega

/-- Every registered locate is counted in its slot. -/
theorem countP_registered (d : StockDirectory) :
    (List.range' 1 (kStockLocateSlots - 1)).countP (fun slot => d.isRegistered slot.toUInt16)
      = {l | d.isRegistered l = true}.ncard := by
  have hinj : Set.InjOn UInt16.toNat {l | d.isRegistered l = true} :=
    fun _ _ _ _ h => UInt16.toNat_inj.1 h
  rw [← hinj.ncard_image, List.countP_eq_length_filter,
    ← List.toFinset_card_of_nodup (List.Nodup.filter _ List.nodup_range'), ← Set.ncard_coe_finset]
  congr 1
  ext n
  rw [List.coe_toFinset, Set.mem_ofPred_eq, List.mem_filter, List.mem_range'_1]
  constructor
  · rintro ⟨⟨_, hlt⟩, hreg⟩
    refine ⟨n.toUInt16, hreg, UInt16.toNat_ofNat_of_lt' ?_⟩
    unfold kStockLocateSlots at hlt
    omega
  · rintro ⟨l, hreg, rfl⟩
    have hne := StockDirectory.ne_zero_of_registered hreg
    have hpos : l.toNat ≠ 0 := fun h0 => hne (UInt16.toNat_inj.1 h0)
    have hlt := l.toNat_lt
    refine ⟨⟨by omega, ?_⟩, ?_⟩
    · unfold kStockLocateSlots
      omega
    · rw [Nat.toUInt16, UInt16.ofNat_toNat]
      exact hreg

theorem audit_clean {d : StockDirectory} (h : BooksFor m {l | d.isRegistered l = true})
    (hd : d.Ok) : (m.auditDirectory d).clean = true := by
  have hcount : m.prices.preparedBookCount.toNat = d.size := by
    obtain ⟨_, _, _, hcount⟩ := h
    exact hcount.trans hd.count_registered.symm
  have haudit : m.auditDirectory d
      = ⟨d.size, d.size, m.prices.preparedBookCount, 0, 0, 0, 0⟩ := by
    refine (foldl_auditSlot h _ _).trans ?_
    rw [countP_registered, ← hd.count_registered, Nat.zero_add]
    rfl
  rw [haudit]
  unfold BookDirectoryAudit.clean
  simp [hcount]

end Books

/-! ## The parser -/

namespace ItchParser

open Wire

variable {p : ItchParser} {msg : List UInt8}

/-- The locates with a book: the registered ones, once the books are prepared. -/
def bookLocates (p : ItchParser) : Set UInt16 :=
  {l | p.booksPrepared = true ∧ p.symbols.isRegistered l = true}

/-- The directory is sound, and the books are in step with it. -/
structure InStep (p : ItchParser) : Prop where
  symbols : p.symbols.Ok
  books : BooksFor p.books p.bookLocates

theorem InStep.sound (h : p.InStep) : p.Sound := by
  obtain ⟨b, hb, _⟩ := h.books
  exact ⟨b, hb⟩

theorem inStep_create {config : BookManagerConfig} {systemPageBytes : ℕ} {m : BookManager}
    (h : BookManager.create config systemPageBytes = .ok m) :
    (ItchParser.create .fresh m).InStep := by
  refine ⟨StockDirectory.fresh_ok, ?_⟩
  have hempty : (ItchParser.create .fresh m).bookLocates = ∅ := by
    refine Set.eq_empty_iff_forall_notMem.2 ?_
    rintro l ⟨hprep, _⟩
    cases hprep
  rw [hempty]
  exact booksFor_create h

/-- The parser differs in its phase and its reports. -/
theorem InStep.of_eq {p' : ItchParser} (h : p.InStep) (hs : p'.symbols = p.symbols)
    (hb : p'.books = p.books) (hp : p'.booksPrepared = p.booksPrepared) : p'.InStep := by
  refine ⟨hs ▸ h.symbols, ?_⟩
  have hlocates : p'.bookLocates = p.bookLocates := by
    unfold bookLocates
    rw [hs, hp]
  rw [hb, hlocates]
  exact h.books

theorem InStep.book (h : p.InStep) (operation : BookOperation) {op : BookOp}
    (hop : ∀ l, op ≠ .getOrCreate l) :
    (p.applyBook operation (p.books.perform op)).InStep := by
  unfold applyBook applyBookResult
  split_ifs
  · exact ⟨h.symbols, h.books.perform hop⟩
  · exact ⟨h.symbols, h.books.perform hop⟩

/-- Creating a book at a valid locate keeps `P`, with one locate more. -/
def Creates (P : Set UInt16 → BookManager → Prop) : Prop :=
  ∀ S m l, P S m → isValidStockLocate l = true →
    (m.getOrCreate l).1.isSome = true ∧ P (insert l S) (m.getOrCreate l).2

section Creates

variable {P : Set UInt16 → BookManager → Prop} {S : Set UInt16}

theorem createRegisteredBook_creates (hP : Creates P) (h : P S p.books) {l : UInt16}
    (hreg : p.symbols.isRegistered l = true) :
    ∃ books, P (insert l S) books
      ∧ p.createRegisteredBook l = (true, { p with books := books }) := by
  have hv := (StockDirectory.isRegistered_iff.1 hreg).1
  obtain ⟨hsome, hbooks⟩ := hP S p.books l h hv
  refine ⟨_, hbooks, ?_⟩
  unfold createRegisteredBook
  rw [if_neg (by simp [hv, hreg])]
  exact Prod.ext hsome rfl

theorem prepareSlot_creates (hP : Creates P) (h : P S p.books) (ok : Bool) (slot : ℕ) :
    ∃ books, P (S ∪ {l | p.symbols.isRegistered l = true ∧ l = slot.toUInt16}) books
      ∧ prepareSlot (ok, p) slot = (ok, { p with books := books }) := by
  unfold prepareSlot
  dsimp only
  by_cases hreg : p.symbols.isRegistered slot.toUInt16 = true
  · obtain ⟨books, hbooks, hcreate⟩ := createRegisteredBook_creates hP h hreg
    have hset : S ∪ {l | p.symbols.isRegistered l = true ∧ l = slot.toUInt16}
        = insert slot.toUInt16 S := by
      ext l
      rw [Set.mem_union, Set.mem_insert_iff, Set.mem_ofPred_eq, or_comm]
      refine or_congr_left ⟨fun hl => hl.2, ?_⟩
      rintro rfl
      exact ⟨hreg, rfl⟩
    rw [if_pos hreg, hcreate, hset, Bool.true_and]
    exact ⟨books, hbooks, rfl⟩
  · have hset : S ∪ {l | p.symbols.isRegistered l = true ∧ l = slot.toUInt16} = S := by
      refine Set.union_eq_self_of_subset_right ?_
      rintro l ⟨hl, rfl⟩
      exact absurd hl hreg
    rw [if_neg hreg, hset]
    exact ⟨p.books, h, rfl⟩

/-- A book for each registered locate of the slots. -/
theorem prepareSlots_creates (hP : Creates P) (h : P S p.books) (ok : Bool) (slots : List ℕ) :
    ∃ books, P (S ∪ {l | p.symbols.isRegistered l = true ∧ l ∈ slots.map Nat.toUInt16}) books
      ∧ slots.foldl prepareSlot (ok, p) = (ok, { p with books := books }) := by
  induction slots generalizing p S with
  | nil => exact ⟨p.books, by simpa using h, rfl⟩
  | cons slot slots ih =>
    obtain ⟨books, hbooks, hslot⟩ := prepareSlot_creates hP h ok slot
    obtain ⟨books', hbooks', hslots⟩ := ih (p := { p with books := books }) hbooks
    rw [List.foldl_cons, hslot, hslots]
    refine ⟨books', ?_, rfl⟩
    have hset : S ∪ {l | p.symbols.isRegistered l = true ∧ l = slot.toUInt16}
        ∪ {l | p.symbols.isRegistered l = true ∧ l ∈ slots.map Nat.toUInt16}
        = S ∪ {l | p.symbols.isRegistered l = true ∧ l ∈ (slot :: slots).map Nat.toUInt16} := by
      ext l
      simp only [Set.mem_union, Set.mem_ofPred_eq, List.map_cons, List.mem_cons, or_assoc,
        ← and_or_left]
    rw [← hset]
    exact hbooks'

/-- System Event S prepares the books of the registered locates. -/
theorem createRegisteredBooks_creates (hP : Creates P) (h : P S p.books) :
    ∃ books, P (S ∪ {l | p.symbols.isRegistered l = true}) books
      ∧ p.createRegisteredBooks = (true, { p with books := books }) := by
  obtain ⟨books, hbooks, hp⟩ :=
    prepareSlots_creates hP h true (List.range' 1 (kStockLocateSlots - 1))
  refine ⟨books, ?_, hp⟩
  have hset : {l | p.symbols.isRegistered l = true
      ∧ l ∈ (List.range' 1 (kStockLocateSlots - 1)).map Nat.toUInt16}
      = {l | p.symbols.isRegistered l = true} := by
    ext l
    refine and_iff_left_of_imp fun hreg => ?_
    have hne := StockDirectory.ne_zero_of_registered hreg
    have hpos : l.toNat ≠ 0 := fun h0 => hne (UInt16.toNat_inj.1 h0)
    have hlt := l.toNat_lt
    refine List.mem_map.2 ⟨l.toNat, List.mem_range'_1.2 ⟨by omega, ?_⟩, UInt16.ofNat_toNat⟩
    unfold kStockLocateSlots
    omega
  rwa [hset] at hbooks

end Creates

theorem booksFor_creates : Creates fun S m => BooksFor m S := fun _ _ _ h hl => h.getOrCreate hl

theorem createRegisteredBook_books {S : Set UInt16} (h : BooksFor p.books S) {l : UInt16}
    (hreg : p.symbols.isRegistered l = true) :
    ∃ books, BooksFor books (insert l S)
      ∧ p.createRegisteredBook l = (true, { p with books := books }) :=
  createRegisteredBook_creates booksFor_creates h hreg

theorem createRegisteredBooks_books {S : Set UInt16} (h : BooksFor p.books S) :
    ∃ books, BooksFor books (S ∪ {l | p.symbols.isRegistered l = true})
      ∧ p.createRegisteredBooks = (true, { p with books := books }) :=
  createRegisteredBooks_creates booksFor_creates h

end ItchParser

end AstraFeed
