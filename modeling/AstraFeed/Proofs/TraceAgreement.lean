import AstraFeed.Proofs.BookCapacityProfile
import AstraFeed.Proofs.TraceMessage

/-!
# The engine beside the profiler

A parser simulates stats when its books are those of the maps, its directory that of the profiler,
and its phase the number of daily events seen (`Simulates`). A message that leaves no fault is
accepted and keeps the simulation, as long as the books have room for what was profiled.
-/

namespace AstraFeed

open Function PriceLevelStore

/-! ## Pages -/

section Pages

open ItchTraceProfile

theorem toNat_pairKey (l : UInt16) {p : ℕ} (hp : p < kPricePartCount) :
    (pairKey (l, p)).toNat = kPricePartCount * l.toNat + p := by
  have hl := l.toNat_lt
  have hp' : p.toUInt32.toNat = p :=
    UInt32.toNat_ofNat_of_lt' (hp.trans (by decide : kPricePartCount < 2 ^ 32))
  unfold pairKey
  dsimp only
  rw [UInt32.toNat_or, UInt32.toNat_shiftLeft, UInt16.toNat_toUInt32, hp',
    show (16 : UInt32).toNat % 32 = 16 from rfl,
    Nat.mod_eq_of_lt (by rw [Nat.shiftLeft_eq]; omega)]
  exact BigEndian.shiftLeft_or_of_lt _ hp

theorem pairKey_inj {l l' : UInt16} {p p' : ℕ} (hp : p < kPricePartCount)
    (hp' : p' < kPricePartCount) (h : pairKey (l, p) = pairKey (l', p')) : l = l' ∧ p = p' := by
  have hkey := congrArg UInt32.toNat h
  rw [toNat_pairKey l hp, toNat_pairKey l' hp'] at hkey
  unfold kPricePartCount at hp hp' hkey
  refine ⟨UInt16.toNat_inj.1 ?_, ?_⟩ <;> omega

/-- Every key is that of a pair. -/
theorem exists_pairKey (k : UInt32) : ∃ l p, p < kPricePartCount ∧ pairKey (l, p) = k := by
  have hk := k.toNat_lt
  have hp : k.toNat % kPricePartCount < kPricePartCount := Nat.mod_lt _ (by decide)
  refine ⟨.ofNat (k.toNat / kPricePartCount), _, hp, UInt32.toNat_inj.1 ?_⟩
  rw [toNat_pairKey _ hp, UInt16.toNat_ofNat_of_lt']
  · exact Nat.div_add_mod _ _
  · show k.toNat / kPricePartCount < 2 ^ 16
    unfold kPricePartCount
    omega

/-- The pages with a root are counted by their keys. -/
theorem committedPages_eq_card {s : PriceLevelStore} (h : s.ArenaInv) {keys : Finset UInt32}
    (hkeys : ∀ l p, p < kPricePartCount →
      (s.rootAt l p ≠ kInvalidPricePageHandle ↔ pairKey (l, p) ∈ keys)) :
    s.committedPages.toNat = keys.card := by
  choose locate page hpage hkey using exists_pairKey
  have hinj : Injective fun k => (locate k, page k) := by
    intro k k' heq
    obtain ⟨hl, hp⟩ := Prod.mk.inj heq
    rw [← hkey k, ← hkey k', hl, hp]
  rw [h.committedPages_eq fun l p => ?_, Finset.card_image_of_injective keys hinj]
  rw [Finset.mem_image]
  constructor
  · rintro ⟨k, hk, heq⟩
    obtain ⟨rfl, rfl⟩ := Prod.mk.inj heq
    rw [hkeys _ _ (hpage k), hkey]
    exact ⟨hpage k, hk⟩
  · rintro ⟨hp, hroot⟩
    refine ⟨pairKey (l, p), (hkeys l p hp).1 hroot, ?_⟩
    obtain ⟨hl, hp⟩ := pairKey_inj (hpage _) hp (hkey (pairKey (l, p)))
    rw [hl, hp]

/-- A live order has its page, and its locate a book. -/
theorem Refines.page_of_live {m : BookManager} {b : BookModel} (h : Refines m b) {r : UInt64}
    {o : ModelOrder} (hr : b.live r = some o) : o.locate ∈ b.prepared
      ∧ m.prices.rootAt o.locate (o.price.toNat / kPricePartCount)
        ≠ kInvalidPricePageHandle := by
  have hm := h.stores.matching r
  rw [hr] at hm
  obtain ⟨st, _, hst⟩ := hm.some_right
  obtain ⟨hc, hown, _⟩ := hst.locates.committed h.stores.store.arena
  refine ⟨(h.prepared _).2 ?_, ?_⟩
  · rw [← hown]
    exact h.stores.store.arena.prepared _ hc
  · have hlevel := st.priceLevelIndex.toNat_lt
    have hprice := hst.price
    have hpage : o.price.toNat / kPricePartCount = st.pricePageIndex.toNat := by
      unfold kPricePartCount at hprice ⊢
      omega
    rw [hpage, hst.root]
    exact hst.handle_ne

theorem pagePair_eq {op : BookOp} {l : UInt16} {pg : ℕ} {price : UInt64}
    (hpair : op.pagePair
      = if isValidItchPrice4 price then some (op.stockLocate, price.toNat / kPricePartCount)
        else none) (h : (l, pg) ∈ op.pagePair) :
    pg < kPricePartCount ∧ l = op.stockLocate ∧ pg = price.toNat / kPricePartCount := by
  rw [hpair] at h
  split_ifs at h with hvalid
  · obtain ⟨rfl, rfl⟩ := Prod.mk.inj (Option.some.inj h)
    refine ⟨?_, rfl, rfl⟩
    have hle := UInt64.le_iff_toNat_le.1 (of_decide_eq_true hvalid)
    rw [show kMaxItchPrice4.toUInt64.toNat = 2000000000 from rfl] at hle
    unfold kPricePartCount
    omega
  · cases h

/-- An applied operation has the page of its price. -/
theorem Refines.page_of_pair {m : BookManager} {b : BookModel} {op : BookOp}
    (h : Refines m (b.apply op)) (hadmits : b.Admits op) {l : UInt16} {pg : ℕ}
    (hpair : (l, pg) ∈ op.pagePair) :
    pg < kPricePartCount ∧ m.prices.rootAt l pg ≠ kInvalidPricePageHandle := by
  cases op with
  | getOrCreate | executeOrder | cancelShares | deleteOrder => cases hpair
  | addOrder l orderId price qty side timestamp =>
    obtain ⟨hlt, rfl, rfl⟩ := pagePair_eq rfl hpair
    exact ⟨hlt, (h.page_of_live (update_self orderId _ b.live)).2⟩
  | replaceOrder l oldId newId newPrice newQty timestamp =>
    obtain ⟨hlt, rfl, rfl⟩ := pagePair_eq rfl hpair
    obtain ⟨-, ⟨o, ho, rfl⟩, -⟩ := hadmits
    refine ⟨hlt, (h.page_of_live (r := newId) (o := { o with price := newPrice, qty := newQty })
      ?_).2⟩
    refine (update_self newId _ _).trans ?_
    rw [ho]
    rfl

end Pages

namespace ItchTraceProfile

open Wire ItchParser

/-! ## The simulation -/

/-- A directory message without NUL characters registered the locate on both sides. -/
def Listed (s : Stats) (d : StockDirectory) (l : UInt16) : Prop :=
  ∃ m : List UInt8, 11 + kStockLen ≤ m.length ∧ (0 : UInt8) ∉ stockField m 11
    ∧ s.directory l = ⟨stockField m 11, true⟩
    ∧ s.directoryTickerLocates.lookup (tickerKey m 11) = some l
    ∧ d.tickerAt l = fixedText m 11 kStockLen
    ∧ (d.entries l).ticker.cString = fixedText m 11 kStockLen

/-- The parser is in the state the stats describe. -/
structure Simulates (config : BookManagerConfig) (s : Stats) (p : ItchParser) : Prop where
  books : ∃ times, Refines p.books (s.model p.bookLocates times)
  ok : s.Ok
  managerConfig : p.books.config = config
  pricesConfig : p.books.prices.config = config.prices
  pages : ∀ l pg, pg < kPricePartCount →
    (p.books.prices.rootAt l pg ≠ kInvalidPricePageHandle ↔ pairKey (l, pg) ∈ s.everActivePages)
  listed : ∀ l, p.symbols.isRegistered l = true → Listed s p.symbols l
  unlisted : ∀ l, p.symbols.isRegistered l = false → (s.directory l).seen = false
  phase : s.dailySystemEventsSeen = p.channelPhase.eventCount
  started : s.systemHoursStarted = true ↔ 2 ≤ s.dailySystemEventsSeen
  ended : s.systemHoursEnded = true ↔ s.dailySystemEventsSeen = 5

/-- The configuration has room for what was profiled. -/
structure Fits (config : BookManagerConfig) (s : Stats) : Prop where
  slots : s.maxOrderRef < config.orders.directSlots
  pages : s.everActivePages.card ≤ config.prices.pageCapacity.toNat

variable {config : BookManagerConfig} {s s' : Stats} {p : ItchParser} {msg : List UInt8}

theorem simulates_create {systemPageBytes : ℕ} {m : BookManager}
    (hm : BookManager.create config systemPageBytes = .ok m) :
    Simulates config .init (ItchParser.create .fresh m) := by
  obtain ⟨-, hcfg, -, hp, -⟩ := configOk_of_create hm
  have hempty : (ItchParser.create .fresh m).bookLocates = ∅ :=
    Set.eq_empty_iff_forall_notMem.2 fun l hl => Bool.false_ne_true hl.1
  have hnone : ∀ l, StockDirectory.fresh.isRegistered l = false := by
    intro l
    rw [← Bool.not_eq_true, StockDirectory.isRegistered_iff]
    exact fun h => h.2 rfl
  have hseen : {r | Stats.init.Seen r} = ∅ := by
    refine Set.eq_empty_iff_forall_notMem.2 fun r hr => hr ?_
    unfold Stats.init
    rw [AList.lookup_empty, Option.getD_none]
    exact UInt64.zero_and
  have hlive : Stats.init.live = fun _ => none := by
    funext r
    unfold Stats.live Stats.init
    rw [AList.lookup_empty, Option.map_none]
  refine ⟨⟨fun _ => 0, ?_⟩, ⟨?_, ?_, ?_, ?_⟩, hcfg, congrArg PriceLevelStore.config hp, ?_, ?_, ?_,
    rfl, ?_, ?_⟩
  · have h := refines_fresh hm
    unfold Stats.model
    rw [hempty, hseen, hlive]
    exact h
  · intro r o ho
    unfold Stats.init at ho
    rw [AList.lookup_empty] at ho
    cases ho
  · intro l side x _
    have hlevel : Stats.init.level (levelKey l side x) = ⟨0, 0⟩ := by
      unfold Stats.level Stats.init
      rw [AList.lookup_empty, Option.getD_none]
    rw [hlevel, hlive]
    exact ⟨(PointUpdate.total_eq_zero.2 fun _ => rfl).symm,
      (PointUpdate.total_eq_zero.2 fun _ => rfl).symm⟩
  · exact fun _ _ _ h => absurd h (AList.notMem_empty _)
  · exact fun _ h => absurd h (AList.notMem_empty _)
  · intro l pg _
    have hroot : (ItchParser.create .fresh m).books.prices.rootAt l pg
        = kInvalidPricePageHandle := by
      show m.prices.rootAt l pg = _
      rw [hp]
      rfl
    exact iff_of_false (not_not.2 hroot) (Finset.notMem_empty _)
  · intro l hl
    have hl : StockDirectory.fresh.isRegistered l = true := hl
    rw [hnone] at hl
    cases hl
  · exact fun _ _ => rfl
  · exact iff_of_false Bool.false_ne_true (by decide : ¬ 2 ≤ 0)
  · exact iff_of_false Bool.false_ne_true (by decide : ¬ 0 = 5)

/-! ## Operations -/

theorem not_full {prepared : Set UInt16} {times : UInt16 → UInt64} (hb : s.Bounded) (op : BookOp) :
    ¬ (s.model prepared times).Full op := by
  have hcount : ∀ l side x, (s.model prepared times).levelCount l side x ≠ 2 ^ 32 - 1 := by
    intro l side x heq
    have hle := hb l side x
    rw [Stats.ordersAt_eq] at hle
    have heq : PointUpdate.total (BookModel.countAt l side x) s.live = 2 ^ 32 - 1 := heq
    omega
  cases op with
  | addOrder => exact hcount _ _ _
  | replaceOrder => exact fun ⟨_, _, heq⟩ => hcount _ _ _ heq
  | _ => exact id

/-- An operation by which the stats have changed is applied, and the books keep up with it. -/
theorem Simulates.perform (h : Simulates config s p) {op : BookOp} (happ : Stats.Applies s op s')
    (hframe : Stats.Frame s s') (hfits : Fits config s') (hb : s.Bounded)
    (hl : op.stockLocate ∈ p.bookLocates) (hop : ∀ l, op ≠ .getOrCreate l)
    (hrefs : ∀ r ∈ op.newReference, r ≤ s'.maxOrderRef) :
    (p.books.perform op).1 = .applied
      ∧ Simulates config s' { p with books := (p.books.perform op).2 } := by
  obtain ⟨times, hbooks⟩ := h.books
  have hadmits := happ.admits _ times hl
  have hslots : ∀ r ∈ op.newReference, r < p.books.orders.config.directSlots := by
    intro r hr
    rw [hbooks.ordersConfig, h.managerConfig]
    exact UInt64.lt_of_le_of_lt (hrefs r hr) hfits.slots
  have hcommitted := committedPages_eq_card hbooks.stores.store.arena h.pages
  have hroom : ∀ l pg, (l, pg) ∈ op.pagePair → pg < kPricePartCount →
      p.books.prices.rootAt l pg = kInvalidPricePageHandle →
      p.books.prices.committedPages < p.books.prices.config.pageCapacity := by
    intro l pg hpair hpg hroot
    have hnew : pairKey (l, pg) ∈ s'.everActivePages := by
      rw [happ.ever, Finset.mem_union, Option.mem_toFinset]
      exact .inr (Option.mem_map_of_mem pairKey hpair)
    have hnot : pairKey (l, pg) ∉ s.everActivePages := fun hmem => (h.pages l pg hpg).2 hmem hroot
    have hlt := Finset.card_lt_card (Finset.ssubset_iff_subset_ne.2
      ⟨hframe.ever, fun heq => hnot (heq ▸ hnew)⟩)
    rw [UInt32.lt_iff_toNat_lt, hcommitted, h.pricesConfig]
    exact hlt.trans_le hfits.pages
  have happlied := hbooks.perform_applied hadmits (not_full hb op) hslots hroom
  have hrefines := (hbooks.perform op).refines
  rw [happlied] at hrefines
  have htakes := hbooks.perform_takes op
  have hpage : ∀ l pg, (l, pg) ∈ op.pagePair → pg < kPricePartCount
      ∧ (p.books.perform op).2.prices.rootAt l pg ≠ kInvalidPricePageHandle :=
    fun l pg => hrefines.page_of_pair hadmits
  refine ⟨happlied, ⟨((s.model p.bookLocates times).apply op).lastTimestamp, ?_⟩, happ.ok,
    htakes.config.trans h.managerConfig, htakes.pricesConfig.trans h.pricesConfig,
    fun l pg hpg => ?_, fun l hreg => ?_, fun l hreg => ?_, ?_, ?_, ?_⟩
  · have hmodel : (s.model p.bookLocates times).apply op = s'.model p.bookLocates
        ((s.model p.bookLocates times).apply op).lastTimestamp := by
      have hprep : ((s.model p.bookLocates times).apply op).prepared = p.bookLocates :=
        after_prepared hop .applied
      have hsplit : ∀ b : BookModel, b = ⟨b.live, b.used, b.prepared, b.lastTimestamp⟩ :=
        fun _ => rfl
      rw [hsplit ((s.model p.bookLocates times).apply op), happ.live, happ.used, hprep]
      rfl
    exact hmodel ▸ hrefines
  · rw [happ.ever, Finset.mem_union, Option.mem_toFinset]
    constructor
    · intro hroot
      rcases htakes.roots l pg hpg with hsame | ⟨-, hpair⟩
      · exact .inl ((h.pages l pg hpg).1 (hsame ▸ hroot))
      · exact .inr (Option.mem_map_of_mem pairKey hpair)
    · rintro (hmem | hmem)
      · rcases htakes.roots l pg hpg with hsame | ⟨-, hpair⟩
        · exact fun hroot => (h.pages l pg hpg).2 hmem (hsame.symm.trans hroot)
        · exact (hpage l pg hpair).2
      · obtain ⟨⟨l', pg'⟩, hpair, hkey⟩ := Option.mem_map.1 hmem
        obtain ⟨rfl, rfl⟩ := pairKey_inj (hpage l' pg' hpair).1 hpg hkey
        exact (hpage l' pg' hpair).2
  · obtain ⟨m, hm⟩ := h.listed l hreg
    refine ⟨m, ?_⟩
    rw [hframe.directory, hframe.tickers]
    exact hm
  · rw [hframe.directory]
    exact h.unlisted l hreg
  · rw [hframe.eventsSeen]
    exact h.phase
  · rw [hframe.started, hframe.eventsSeen]
    exact h.started
  · rw [hframe.ended, hframe.eventsSeen]
    exact h.ended

theorem Simulates.cleared (h : Simulates config s p) : Simulates config s p.cleared :=
  ⟨h.books, h.ok, h.managerConfig, h.pricesConfig, h.pages, h.listed, h.unlisted, h.phase, h.started,
    h.ended⟩

theorem Simulates.opens (h : Simulates config s p) (hobs : Stats.Observed s msg)
    (hfirst : p.channelPhase = .waitingStartOfMessages → IsEvent msg 'O')
    (hended : p.channelPhase ≠ .endOfMessages) : Open p msg := by
  refine ⟨hobs.timestamp, hfirst, hended, fun hpost => hobs.late (h.ended.2 ?_)⟩
  rw [h.phase, hpost]
  rfl

/-- What the profiler has seen in the directory is registered. -/
theorem Simulates.registered_of_seen (h : Simulates config s p) {l : UInt16}
    (hseen : (s.directory l).seen = true) : p.symbols.isRegistered l = true := by
  by_contra hno
  rw [h.unlisted l (by simpa using hno)] at hseen
  cases hseen

theorem Simulates.stock_matches (h : Simulates config s p) {l : UInt16}
    (hstock : s.directory l = ⟨stockField msg kAddStockOffset, true⟩)
    (hlen : kAddStockOffset + kStockLen ≤ msg.length) :
    p.symbols.get l = some (p.symbols.entries l)
      ∧ wireStockMatches (p.symbols.entries l) msg kAddStockOffset = true := by
  have hreg := h.registered_of_seen (congrArg DirectoryIdentity.seen hstock)
  obtain ⟨m, hm, h0, hdir, -, hticker, -⟩ := h.listed l hreg
  have hsame : stockField msg kAddStockOffset = stockField m 11 := by
    rw [hstock] at hdir
    exact congrArg DirectoryIdentity.ticker hdir
  refine ⟨if_pos hreg, (wireStockMatches_iff _ hlen).2 ?_⟩
  rw [hsame, stockField_eq_padded hm h0, ← hticker]
  rfl

/-- The handler of a message about orders asks for the operation it stands for. -/
theorem Simulates.dispatch (h : Simulates config s p) (hsize : WellSized msg) {op : BookOp}
    (hasks : Stats.Asks s msg op) :
    ∃ operation, (p.dispatchType msg (byteAt msg 0) (readU16BE msg 1)).2
      = p.applyBook operation (p.books.perform op) := by
  cases hasks with
  | add htype hstock =>
    obtain ⟨hget, hmatch⟩ := h.stock_matches hstock (length_of_add hsize htype)
    refine ⟨.addOrder, ?_⟩
    rw [dispatchType_add htype]
    unfold handleAdd
    rw [hget]
    exact if_neg (by simp [hmatch])
  | execute htype hprice =>
    obtain ⟨c, hc, hbyte⟩ := htype
    rw [hbyte] at hprice ⊢
    simp only [List.mem_cons, List.not_mem_nil, or_false] at hc
    refine ⟨.orderExecution, ?_⟩
    rcases hc with rfl | rfl
    · rfl
    · exact if_neg (by simp [hprice rfl])
  | cancel htype =>
    obtain ⟨c, hc, hbyte⟩ := htype
    cases List.mem_singleton.1 hc
    rw [hbyte]
    exact ⟨.orderCancel, rfl⟩
  | delete htype =>
    obtain ⟨c, hc, hbyte⟩ := htype
    cases List.mem_singleton.1 hc
    rw [hbyte]
    exact ⟨.orderDelete, rfl⟩
  | replace htype hnew =>
    obtain ⟨c, hc, hbyte⟩ := htype
    cases List.mem_singleton.1 hc
    rw [hbyte]
    exact ⟨.orderReplace, if_neg hnew⟩

/-- The locate of an operation has its book. -/
theorem Simulates.book_of_asks (h : Simulates config s p) (hprep : p.booksPrepared = true)
    {op : BookOp} (hasks : Stats.Asks s msg op) (happ : Stats.Applies s op s') :
    op.stockLocate ∈ p.bookLocates := by
  obtain ⟨times, hbooks⟩ := h.books
  have hadmits := happ.admits Set.univ times (Set.mem_univ _)
  have hlive : ∀ {r l}, (∃ o, s.live r = some o ∧ o.locate = l) → l ∈ p.bookLocates := by
    rintro r l ⟨o, ho, rfl⟩
    exact (hbooks.page_of_live ho).1
  cases hasks with
  | add htype hstock => exact ⟨hprep, h.registered_of_seen (congrArg DirectoryIdentity.seen hstock)⟩
  | execute =>
    obtain ⟨-, o, ho, hl, -⟩ := hadmits
    exact hlive ⟨o, ho, hl⟩
  | cancel =>
    obtain ⟨-, o, ho, hl, -⟩ := hadmits
    exact hlive ⟨o, ho, hl⟩
  | delete => exact hlive hadmits.2
  | replace => exact hlive hadmits.2.1

theorem Simulates.order (h : Simulates config s p) (hprepared : p.booksPrepared = true ↔
      2 ≤ p.channelPhase.eventCount) (hobs : Stats.Observed s msg) (hopen : Open p msg)
    (horder : IsOrderMessage msg) (hf : (s.observeMessage msg).Faultless) (hb : s.Bounded)
    (hb' : (s.observeMessage msg).Bounded) (hfits : Fits config (s.observeMessage msg)) :
    p.Accepts msg ∧ Simulates config (s.observeMessage msg) (p.handleMessage msg).2 := by
  obtain ⟨op, hasks, happ, hframe, hrefs⟩ := hobs.performs h.ok horder hf hb'
  have hprep : p.booksPrepared = true := by
    rw [hprepared, ← h.phase]
    exact h.started.1 (hobs.started horder)
  have hop : ∀ l, op ≠ .getOrCreate l := by
    rintro l rfl
    cases hasks
  have hS : byteAt msg 0 = byte 'S' → readU16BE msg 1 = 0 := by
    intro hS
    exact (horder.disjoint ⟨'S', List.mem_singleton_self _, hS⟩ (by decide)).elim
  obtain ⟨operation, hout⟩ := h.cleared.dispatch hobs.sized hasks
  obtain ⟨happlied, hsim⟩ := h.cleared.perform happ hframe hfits hb
    (h.book_of_asks hprep hasks happ) hop hrefs
  have heq : (p.handleMessage msg).2
      = { p.cleared with books := (p.cleared.books.perform op).2 } := by
    rw [handleMessage_of_open hobs.sized hopen hS, hout]
    exact if_pos happlied
  unfold Accepts
  rw [heq]
  exact ⟨rfl, hsim⟩

/-! ## Directory messages -/

/-- The books of `b` at the locates `S`, on the pages of `m₀`. -/
def BooksAt (b : BookModel) (m₀ : BookManager) (S : Set UInt16) (m : BookManager) : Prop :=
  Refines m { b with prepared := S } ∧ m.config = m₀.config
    ∧ m.prices.config = m₀.prices.config ∧ m.prices.roots = m₀.prices.roots

theorem booksAt_creates (b : BookModel) (m₀ : BookManager) : Creates (BooksAt b m₀) := by
  rintro S m l ⟨hb, hconfig, hprices, hroots⟩ hl
  have hadded := hb.bookAdded hl
  exact ⟨hadded.isSome, hadded.refines, hadded.config.trans hconfig,
    hadded.pricesConfig.trans hprices, hadded.roots.trans hroots⟩

theorem tickerKey_congr {m : List UInt8} (h : stockField m 11 = stockField msg 11) :
    tickerKey m 11 = tickerKey msg 11 := by
  have hbyte : ∀ i < 8, byteAt m (11 + i) = byteAt msg (11 + i) := by
    intro i hi
    rw [← getD_stockField m 11 hi, ← getD_stockField msg 11 hi, h]
  unfold tickerKey readU64BE readBE
  refine List.foldl_ext _ _ _ fun v i hi => ?_
  rw [hbyte i (List.mem_range.1 hi)]

theorem fixedText_ne_nil (h : tickerHasIdentity msg 11 = true) :
    fixedText msg 11 kStockLen ≠ [] := by
  obtain ⟨c, hc, hne⟩ := List.any_eq_true.1 h
  have hne : c ≠ byte ' ' ∧ c ≠ 0 := of_decide_eq_true hne
  rw [fixedText_eq, ne_eq, List.rdropWhile_eq_nil_iff]
  intro hall
  exact (of_decide_eq_true (hall c hc)).elim hne.1 hne.2

/-- A repeated directory message changes the maps as a first one does. -/
theorem Simulates.directs (h : Simulates config s p) {l : UInt16}
    (hd : Stats.Directs s l msg s') : ∃ tickers : UnorderedMap UInt64 UInt16, s' = { s with
        directory := update s.directory l ⟨stockField msg 11, true⟩
        directoryTickerLocates := tickers }
      ∧ (∀ l' ∈ s.directoryTickerLocates.lookup (tickerKey msg 11), l' = l)
      ∧ tickers.lookup (tickerKey msg 11) = some l
      ∧ ∀ k ≠ tickerKey msg 11, tickers.lookup k = s.directoryTickerLocates.lookup k := by
  cases hseen : (s.directory l).seen with
  | false =>
    obtain ⟨howner, tickers, heq, hlookup, hother⟩ := hd.fresh hseen
    exact ⟨tickers, heq, howner, hlookup, hother⟩
  | true =>
    obtain ⟨hdir, heq⟩ := hd.same hseen
    obtain ⟨m, -, -, hm, hlookup, -⟩ := h.listed l (h.registered_of_seen hseen)
    have hsame : stockField m 11 = stockField msg 11 := by
      rw [hm] at hdir
      exact congrArg DirectoryIdentity.ticker hdir
    rw [tickerKey_congr hsame] at hlookup
    refine ⟨s.directoryTickerLocates, ?_, fun l' hl' => ?_, hlookup, fun _ _ => rfl⟩
    · rw [heq, ← hdir, update_eq_self]
    · rw [hlookup] at hl'
      exact (Option.some.inj hl').symm

/-- A ticker that the profiler does not report is registered at its locate, if at all. -/
theorem Simulates.registeredAs_unique (h : Simulates config s p) {l : UInt16}
    (hlen : 11 + kStockLen ≤ msg.length) (h0 : (0 : UInt8) ∉ stockField msg 11)
    (howner : ∀ l' ∈ s.directoryTickerLocates.lookup (tickerKey msg 11), l' = l) (l' : UInt16)
    (hreg : p.symbols.RegisteredAs l' (fixedText msg 11 kStockLen)) : l' = l := by
  obtain ⟨hreg, ht⟩ := StockDirectory.registeredAs_iff.1 hreg
  obtain ⟨m, hm, hm0, -, hlookup, hticker, -⟩ := h.listed l' hreg
  rw [hticker] at ht
  have hsame : stockField m 11 = stockField msg 11 := by
    rw [stockField_eq_padded hm hm0, stockField_eq_padded hlen h0, ht]
  rw [tickerKey_congr hsame] at hlookup
  exact howner l' hlookup

/-- The engine's checks of a directory message pass where the profiler reports nothing. -/
theorem Simulates.set_registers (h : Simulates config s p) (hin : p.InStep)
    (hlen : 11 + kStockLen ≤ msg.length) (h0 : (0 : UInt8) ∉ stockField msg 11)
    (hd : Stats.Directs s (readU16BE msg 1) msg s') :
    (p.symbols.set (readU16BE msg 1) (directoryEntry msg (readU16BE msg 1))).1 = true
      ∧ p.tickerConflicts (readU16BE msg 1) (fixedText msg 11 kStockLen) = false
      ∧ (p.symbols.locateForTicker (fixedText msg 11 kStockLen)
          = StockDirectory.kInvalidStockLocate
        ∨ p.symbols.locateForTicker (fixedText msg 11 kStockLen) = readU16BE msg 1) := by
  obtain ⟨-, -, howner, -⟩ := h.directs hd
  have hview := tickerView_directoryEntry (readU16BE msg 1) h0
  have hvalid : isValidStockLocate (readU16BE msg 1) = true := bne_iff_ne.2 hd.locate
  have hunique := h.registeredAs_unique hlen h0 howner
  -- a registered locate has the ticker of the message
  have hticker : p.symbols.isRegistered (readU16BE msg 1) = true →
      p.symbols.tickerAt (readU16BE msg 1) = fixedText msg 11 kStockLen
        ∧ (p.symbols.entries (readU16BE msg 1)).ticker.cString = fixedText msg 11 kStockLen := by
    intro hreg
    obtain ⟨m, hm, hm0, hdir, -, hat, hstring⟩ := h.listed _ hreg
    have hsame : stockField m 11 = stockField msg 11 := by
      have hseen := congrArg DirectoryIdentity.seen hdir
      rw [(hd.same hseen).1] at hdir
      exact (congrArg DirectoryIdentity.ticker hdir).symm
    have htext : fixedText m 11 kStockLen = fixedText msg 11 kStockLen := by
      rw [fixedText_eq, fixedText_eq, hsame]
    exact ⟨hat.trans htext, hstring.trans htext⟩
  refine ⟨?_, ?_, ?_⟩
  · have hregistrable : p.symbols.Registrable (readU16BE msg 1)
        (directoryEntry msg (readU16BE msg 1)) := by
      unfold StockDirectory.Registrable
      rw [hview]
      refine ⟨hvalid, fixedText_ne_nil hd.identity, ?_, fun l' hne hreg => hne (hunique l' hreg)⟩
      cases hreg : p.symbols.isRegistered (readU16BE msg 1) with
      | false => exact .inl rfl
      | true => exact .inr (StockDirectory.registeredAs_iff.2 ⟨hreg, (hticker hreg).1⟩)
    rcases hin.symbols.set_cases (readU16BE msg 1) (directoryEntry msg (readU16BE msg 1)) with
      ⟨hno, -⟩ | ⟨-, -, hset⟩ | ⟨-, -, n, -, -, -, hset⟩
    · exact absurd hregistrable hno
    · rw [hset]
    · rw [hset]
  · unfold tickerConflicts StockDirectory.get
    cases hreg : p.symbols.isRegistered (readU16BE msg 1) with
    | false => rfl
    | true =>
      rw [if_pos rfl]
      simp [(hticker hreg).2]
  · have hfound := hin.symbols.locateForTicker_found (fixedText msg 11 kStockLen)
    generalize p.symbols.locateForTicker (fixedText msg 11 kStockLen) = l' at hfound
    cases hfound with
    | found _ hreg ht => exact .inr (hunique l' (StockDirectory.registeredAs_iff.2 ⟨hreg, ht⟩))
    | missing => exact .inl rfl

/-- The engine registers what the profiler does not report. -/
theorem Simulates.registers (h : Simulates config s p) (hin : p.InStep)
    (hphase : p.channelPhase ≠ .waitingStartOfMessages) (hlen : 11 + kStockLen ≤ msg.length)
    (h0 : (0 : UInt8) ∉ stockField msg 11) (hd : Stats.Directs s (readU16BE msg 1) msg s') :
    ∃ d : StockDirectory, ∃ books, d.entries = update p.symbols.entries (readU16BE msg 1)
        (StockDirectory.canonicalEntry (readU16BE msg 1) (directoryEntry msg (readU16BE msg 1))
          (StockDirectory.tickerView (directoryEntry msg (readU16BE msg 1))))
      ∧ (∀ l, d.isRegistered l = true
        ↔ l = readU16BE msg 1 ∨ p.symbols.isRegistered l = true)
      ∧ p.handleStockDirectory msg = { p with symbols := d, books := books }
      ∧ ∃ times, BooksAt (s.model ∅ times) p.books
        { p with symbols := d, books := books }.bookLocates books := by
  obtain ⟨hok, hconflicts, hfind⟩ := h.set_registers hin hlen h0 hd
  have hvalid : isValidStockLocate (readU16BE msg 1) = true := bne_iff_ne.2 hd.locate
  have hreg := StockDirectory.isRegistered_set_iff hok
  rcases StockDirectory.set_cases p.symbols (readU16BE msg 1)
    (directoryEntry msg (readU16BE msg 1)) with hno | ⟨-, -, -, hentries⟩
  · rw [hno] at hok
    cases hok
  obtain ⟨d, hset⟩ : ∃ d, p.symbols.set (readU16BE msg 1)
      (directoryEntry msg (readU16BE msg 1)) = (true, d) := ⟨_, Prod.ext hok rfl⟩
  have hout := handleStockDirectory_eq hphase (fixedText_ne_nil hd.identity) hvalid hconflicts hfind
    hset
  rw [hset] at hreg hentries
  obtain ⟨times, hbooks⟩ := h.books
  have hat : BooksAt (s.model ∅ times) p.books p.bookLocates p.books := ⟨hbooks, rfl, rfl, rfl⟩
  by_cases hprep : p.booksPrepared = true
  · obtain ⟨books, hbooks', hcreate⟩ := createRegisteredBook_creates (p := { p with symbols := d })
      (booksAt_creates (s.model ∅ times) p.books) hat ((hreg _).2 (.inl rfl))
    rw [if_pos hprep, hcreate, if_pos rfl] at hout
    refine ⟨d, books, hentries, hreg, hout, times, ?_⟩
    have hlocates : { p with symbols := d, books := books }.bookLocates
        = insert (readU16BE msg 1) p.bookLocates := by
      ext l
      unfold bookLocates
      rw [Set.mem_insert_iff, Set.mem_ofPred_eq, Set.mem_ofPred_eq, hreg]
      simp [hprep]
    rw [hlocates]
    exact hbooks'
  · rw [if_neg hprep] at hout
    refine ⟨d, p.books, hentries, hreg, hout, times, ?_⟩
    have hlocates : { p with symbols := d, books := p.books }.bookLocates = p.bookLocates := by
      ext l
      unfold bookLocates
      simp [hprep]
    rw [hlocates]
    exact hat

/-- What the message lists, and what was listed before. -/
theorem Simulates.listed_update (h : Simulates config s p) {l : UInt16} {d : StockDirectory}
    (hlen : 11 + kStockLen ≤ msg.length) (h0 : (0 : UInt8) ∉ stockField msg 11)
    {tickers : UnorderedMap UInt64 UInt16}
    (howner : ∀ l' ∈ s.directoryTickerLocates.lookup (tickerKey msg 11), l' = l)
    (hlookup : tickers.lookup (tickerKey msg 11) = some l)
    (hother : ∀ k ≠ tickerKey msg 11, tickers.lookup k = s.directoryTickerLocates.lookup k)
    (hentries : d.entries = update p.symbols.entries l (StockDirectory.canonicalEntry l
      (directoryEntry msg l) (StockDirectory.tickerView (directoryEntry msg l))))
    (hreg : ∀ l', d.isRegistered l' = true ↔ l' = l ∨ p.symbols.isRegistered l' = true)
    {l' : UInt16} (hl' : d.isRegistered l' = true) : Listed { s with
      directory := update s.directory l ⟨stockField msg 11, true⟩
      directoryTickerLocates := tickers } d l' := by
  have hview := tickerView_directoryEntry l h0
  by_cases heq : l' = l
  · rw [heq]
    refine ⟨msg, hlen, h0, update_self _ _ _, hlookup, ?_, ?_⟩
    · unfold StockDirectory.tickerAt
      rw [hentries, update_self, StockDirectory.tickerView_canonicalEntry, hview]
    · rw [hentries, update_self, StockDirectory.cString_canonicalEntry, hview]
  · obtain ⟨m, hm, hm0, hdir, hkey, hticker, hstring⟩ :=
      h.listed l' (((hreg l').1 hl').resolve_left heq)
    refine ⟨m, hm, hm0, (update_of_ne heq _ _).trans hdir, ?_, ?_, ?_⟩
    · have hne : tickerKey m 11 ≠ tickerKey msg 11 := by
        intro hsame
        rw [hsame] at hkey
        exact heq (howner l' hkey)
      exact (hother _ hne).trans hkey
    · unfold StockDirectory.tickerAt
      rw [hentries, update_of_ne heq]
      exact hticker
    · rw [hentries, update_of_ne heq]
      exact hstring

theorem Simulates.directory (h : Simulates config s p) (hin : p.InStep)
    (hobs : Stats.Observed s msg) (hopen : Open p msg) (hR : byteAt msg 0 = byte 'R')
    (h0 : (0 : UInt8) ∉ stockField msg 11) (hf : (s.observeMessage msg).Faultless) :
    p.Accepts msg ∧ Simulates config (s.observeMessage msg) (p.handleMessage msg).2 := by
  have hd := hobs.directs hR hf
  have hS : byteAt msg 0 ≠ byte 'S' := by
    rw [hR]
    decide
  have hlen : 11 + kStockLen ≤ msg.length := by
    rw [hobs.sized.2, hR]
    decide
  have hphase : p.cleared.channelPhase ≠ .waitingStartOfMessages := fun hw => hS (hopen.first hw).1
  obtain ⟨tickers, heq, howner, hlookup, hother⟩ := h.directs hd
  obtain ⟨d, books, hentries, hreg, hout, times, hbooks, hconfig, hprices, hroots⟩ :=
    h.cleared.registers (hin.of_eq rfl rfl rfl) hphase hlen h0 hd
  have hhandle : (p.handleMessage msg).2 = { p.cleared with symbols := d, books := books } := by
    rw [handleMessage_of_open hobs.sized hopen fun h => absurd h hS, dispatchType_directory hR]
    exact hout
  unfold Accepts
  rw [hhandle, heq]
  refine ⟨rfl, ⟨times, hbooks⟩, ⟨h.ok.side, h.ok.levels, h.ok.pages.level, h.ok.pages.page⟩,
    hconfig.trans h.managerConfig, hprices.trans h.pricesConfig, fun l pg hpg => ?_, fun l hl => ?_,
    fun l hl => ?_, h.phase, h.started, h.ended⟩
  · have hroot : books.prices.rootAt l pg = p.books.prices.rootAt l pg := congrFun hroots _
    rw [hroot]
    exact h.pages l pg hpg
  · exact h.listed_update hlen h0 howner hlookup hother hentries hreg hl
  · have hno := mt (hreg l).2 (by simpa using hl)
    rw [not_or] at hno
    exact (congrArg DirectoryIdentity.seen (update_of_ne hno.1 _ _)).trans
      (h.cleared.unlisted l (by simpa using hno.2))

/-! ## System Events -/

/-- Only the phase and the books change with a System Event that is accepted. -/
theorem Simulates.advanced {p' : ItchParser} (h : Simulates config s p)
    (hadv : Advanced p msg p') (hacc : p'.lastError = none) :
    ∃ phase prepared books, p' = { p with
        channelPhase := phase, booksPrepared := prepared, books := books }
      ∧ ∃ times, BooksAt (s.model ∅ times) p.books p'.bookLocates books := by
  obtain ⟨times, hbooks⟩ := h.books
  have hat : BooksAt (s.model ∅ times) p.books p.bookLocates p.books := ⟨hbooks, rfl, rfl, rfl⟩
  cases hadv with
  | refuse e => cases hacc
  | advance => exact ⟨_, _, _, rfl, times, hat⟩
  | @start _ _ created hcreated =>
    by_cases hprep : p.booksPrepared = true
    · rw [if_pos hprep] at hcreated
      rw [hcreated]
      exact ⟨_, _, _, rfl, times, hat⟩
    · rw [if_neg hprep] at hcreated
      obtain ⟨books, hbooks', hp⟩ := createRegisteredBooks_creates (p := { p with
        channelPhase := .systemHours, booksPrepared := true })
        (booksAt_creates (s.model ∅ times) p.books) hat
      rw [hcreated, hp]
      refine ⟨_, _, books, rfl, times, ?_⟩
      have hnone : p.bookLocates ∪ {l | p.symbols.isRegistered l = true}
          = {l | true = true ∧ p.symbols.isRegistered l = true} := by
        ext l
        simp [bookLocates, hprep]
      rw [hnone] at hbooks'
      exact hbooks'
  | close => exact ⟨_, _, _, rfl, times, hat⟩
  | emergency => exact ⟨_, _, _, rfl, times, hat⟩

theorem eventCount_of_moves {p' : ItchParser} (h : Moves p msg p') : p'.channelPhase.eventCount
    = p.channelPhase.eventCount + (dailyEvent msg).toList.length := by
  cases h with
  | stay hevent hphase => rw [hphase, hevent]; rfl
  | admin htype hphase hphase' =>
    rw [hphase, hphase', dailyEvent_of_isType htype (by decide)]
    rfl
  | event hcode hdue =>
    rw [hdue.count, dailyEvent_of_isEvent hdue.mem hcode]
    rfl

/-- The flags of the profiler say where the day is. -/
theorem flags_of_due {n : ℕ} {c : Char} (hdue : dailyEvents[n]? = some c) {started ended : Bool}
    (hstarted : started = true ↔ 2 ≤ n) (hended : ended = true ↔ n = 5) :
    ((if c = 'S' then true else started) = true ↔ 2 ≤ n + 1)
      ∧ ((if c = 'E' then true else if c = 'C' then false else ended) = true ↔ n + 1 = 5) := by
  rcases n with _ | _ | _ | _ | _ | _ | n <;> cases hdue <;> simp_all

theorem Simulates.systemEvent (h : Simulates config s p) (hin : p.InStep)
    (hobs : Stats.Observed s msg) (hopen : Open p msg) (hS : byteAt msg 0 = byte 'S')
    (hlocate : readU16BE msg 1 = 0) (hlive : IsEvent msg 'C' → ∀ r, s.live r = none)
    (hf : (s.observeMessage msg).Faultless) :
    p.Accepts msg ∧ Simulates config (s.observeMessage msg) (p.handleMessage msg).2 := by
  have hturns := hobs.turns hS hf
  have hhandle : (p.handleMessage msg).2 = p.cleared.handleSystemEvent msg := by
    rw [handleMessage_of_open hobs.sized hopen fun _ => hlocate, dispatchType_systemEvent hS]
  have hadv := handleSystemEvent_advanced (p := p.cleared) hS
  rw [← hhandle] at hadv
  have hcount : p.Accepts msg → (p.handleMessage msg).2.channelPhase.eventCount
      = p.channelPhase.eventCount + (dailyEvent msg).toList.length :=
    fun hacc => eventCount_of_moves (hacc.moves hin).2
  generalize s.observeMessage msg = s' at hturns ⊢
  cases hturns with
  | @daily c hcode hdue =>
    have hevent : IsEvent msg c := ⟨hS, hcode⟩
    rw [h.phase] at hdue
    have hacc : p.Accepts msg := by
      refine hin.accepts_event hobs.sized hopen hlocate hevent hdue fun hC => ?_
      obtain ⟨times, hbooks⟩ := h.books
      have htotal : (s.model p.bookLocates times).totalCount = 0 := by
        refine PointUpdate.total_eq_zero.2 fun r => ?_
        have hnone : (s.model p.bookLocates times).live r = none := hlive (hC ▸ hevent) r
        rw [hnone]
        rfl
      exact UInt64.toNat_inj.1 (hbooks.totalLiveOrderCount.trans htotal)
    have hcount := hcount hacc
    rw [dailyEvent_of_isEvent (List.mem_of_getElem? hdue) hevent] at hcount
    obtain ⟨phase, prepared, books, hout, times, hbooks, hconfig, hprices, hroots⟩ :=
      h.cleared.advanced hadv hacc
    refine ⟨hacc, ?_⟩
    rw [hout] at hcount hbooks ⊢
    rw [← h.phase] at hdue hcount
    obtain ⟨hstarted, hended⟩ := flags_of_due hdue h.started h.ended
    refine ⟨⟨times, hbooks⟩, ⟨h.ok.side, h.ok.levels, h.ok.pages.level, h.ok.pages.page⟩,
      hconfig.trans h.managerConfig, hprices.trans h.pricesConfig, fun l pg hpg => ?_, h.listed,
      h.unlisted, hcount.symm, hstarted, hended⟩
    have hroot : books.prices.rootAt l pg = p.books.prices.rootAt l pg := congrFun hroots _
    rw [hroot]
    exact h.pages l pg hpg
  | emergency hcode =>
    have hout : p.cleared.handleSystemEvent msg = p.cleared := by
      unfold handleSystemEvent
      rcases hcode with hcode | hcode | hcode <;> rw [hcode] <;> rfl
    unfold Accepts
    rw [hhandle, hout]
    exact ⟨rfl, h.cleared⟩

/-! ## A message -/

/-- The other types change at most the phase of the startup. -/
theorem dispatchType_other (p : ItchParser) (l : UInt16) (horder : ¬ IsOrderMessage msg)
    (hR : byteAt msg 0 ≠ byte 'R') (hS : byteAt msg 0 ≠ byte 'S') :
    (p.dispatchType msg (byteAt msg 0) l).2 = p.skip
      ∨ (p.dispatchType msg (byteAt msg 0) l).2 = p.markStartupAdminMessage := by
  have hnot : ∀ c ∈ ['A', 'F', 'E', 'C', 'X', 'D', 'U'], byteAt msg 0 ≠ byte c :=
    fun c hc htype => horder ⟨c, hc, htype⟩
  unfold dispatchType
  dsimp only
  rw [if_neg (hnot 'A' (by simp)), if_neg (hnot 'F' (by simp)), if_neg (hnot 'E' (by simp)),
    if_neg (hnot 'C' (by simp)), if_neg (hnot 'X' (by simp)), if_neg (hnot 'D' (by simp)),
    if_neg (hnot 'U' (by simp)), if_neg hR, if_neg hS]
  split_ifs
  · exact .inl rfl
  · exact .inr rfl
  · exact .inl rfl

theorem Simulates.other (h : Simulates config s p) (hobs : Stats.Observed s msg)
    (hopen : Open p msg) (horder : ¬ IsOrderMessage msg) (hR : byteAt msg 0 ≠ byte 'R')
    (hS : byteAt msg 0 ≠ byte 'S') :
    p.Accepts msg ∧ Simulates config (s.observeMessage msg) (p.handleMessage msg).2 := by
  have hhandle := handleMessage_of_open hobs.sized hopen fun h => absurd h hS
  unfold Accepts
  rw [hobs.ignores horder hR hS, hhandle]
  have hc := h.cleared
  rcases dispatchType_other p.cleared (readU16BE msg 1) horder hR hS with hout | hout <;> rw [hout]
  · exact ⟨rfl, ⟨hc.books, hc.ok, hc.managerConfig, hc.pricesConfig, hc.pages, hc.listed, hc.unlisted,
      hc.phase, hc.started, hc.ended⟩⟩
  · unfold markStartupAdminMessage
    split_ifs with hspin
    · have hphase := hc.phase
      rw [hspin] at hphase
      exact ⟨rfl, ⟨hc.books, hc.ok, hc.managerConfig, hc.pricesConfig, hc.pages, hc.listed,
        hc.unlisted, hphase, hc.started, hc.ended⟩⟩
    · exact ⟨rfl, hc⟩

variable {acc : List (List UInt8)}

/-- A message that leaves no fault is accepted, and the engine keeps up with the profiler. -/
theorem Simulates.step (h : Simulates config s p) (hlife : Lifecycle acc p) (hne : msg ≠ [])
    (hlocate : byteAt msg 0 = byte 'S' → readU16BE msg 1 = 0)
    (hfirst : p.channelPhase = .waitingStartOfMessages → IsEvent msg 'O')
    (hended : p.channelPhase ≠ .endOfMessages)
    (h0 : byteAt msg 0 = byte 'R' → (0 : UInt8) ∉ stockField msg 11)
    (hlive : IsEvent msg 'C' → ∀ r, s.live r = none)
    (hf : (s.observeMessage msg).Faultless) (hb : s.Bounded)
    (hb' : (s.observeMessage msg).Bounded) (hfits : Fits config (s.observeMessage msg)) :
    p.Accepts msg ∧ Simulates config (s.observeMessage msg) (p.handleMessage msg).2 := by
  have hobs := Stats.observeMessage_spec hne hf
  have hopen := h.opens hobs hfirst hended
  by_cases horder : IsOrderMessage msg
  · exact h.order hlife.prepared hobs hopen horder hf hb hb' hfits
  by_cases hR : byteAt msg 0 = byte 'R'
  · exact h.directory hlife.inStep hobs hopen hR (h0 hR) hf
  by_cases hS : byteAt msg 0 = byte 'S'
  · exact h.systemEvent hlife.inStep hobs hopen hS (hlocate hS) hlive hf
  · exact h.other hobs hopen horder hR hS

end ItchTraceProfile

end AstraFeed
