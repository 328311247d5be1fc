import AstraFeed.Proofs.BookCounts
import AstraFeed.Proofs.OrderReplace

/-!
# The manager refines the model

Each operation is refused, or carried out on the stores and the model alike. `Ends` says so for a
book; the manager routes to it.
-/

namespace AstraFeed

open Function PriceLevelStore BookModel OrderBook

/-- An operation on the book of `l` ends as the model says. -/
def Ends (b : BookModel) (op : BookOp) (l : UInt16) (c : BookContext)
    (out : MutationResult × BookContext) : Prop :=
  (∃ e, Refused c e out ∧ b.after op e = b ∧ (¬ b.Admits op ∧ ¬ IsCapacity e
    ∨ b.Admits op ∧ IsCapacity e ∧ (e = .orderCountOverflow → b.Full op)))
  ∨ b.Admits op ∧ b.Full op ∧ (∃ newId ∈ op.spoils .orderCountOverflow, Tombstoned c newId out
    ∧ b.after op .orderCountOverflow = { b with used := insert newId b.used })
  ∨ b.Admits op ∧ ∃ n timestamp, Carried c { c.book with
      liveOrderCount := n
      latestUpdateTimestamp := timestamp } (b.apply op).live (b.apply op).used out
    ∧ n.toNat = (b.apply op).liveCount l
    ∧ (∀ l' ≠ l, (b.apply op).liveCount l' = b.liveCount l')
    ∧ (b.apply op).prepared = b.prepared
    ∧ (b.apply op).lastTimestamp = update b.lastTimestamp l timestamp

/-! ## Counting live orders -/

section Count

variable {live : UInt64 → Option ModelOrder} {l : UInt16} {r : UInt64} {o : ModelOrder}

theorem countIn_of_locate (h : o.locate = l) : countIn l (some o) = 1 := if_pos h

theorem countIn_of_ne {v : Option ModelOrder} (hv : ∀ o ∈ v, o.locate = l) {l' : UInt16}
    (hne : l' ≠ l) : countIn l' v = 0 := by
  cases v with
  | none => rfl
  | some o =>
    refine if_neg fun h => hne ?_
    rw [← h, hv o rfl]

/-- A change of an order of one book does not count in another. -/
theorem total_countIn_of_ne {v : Option ModelOrder} (hold : ∀ o ∈ live r, o.locate = l)
    (hnew : ∀ o ∈ v, o.locate = l) {l' : UInt16} (hne : l' ≠ l) :
    PointUpdate.total (countIn l') (update live r v) = PointUpdate.total (countIn l') live := by
  refine PointUpdate.total_update_of_eq ?_
  rw [countIn_of_ne hold hne, countIn_of_ne hnew hne]

theorem reduced_locate {qty : UInt32} (h : o.locate = l) : ∀ o' ∈ reduced o qty, o'.locate = l := by
  intro o' ho'
  unfold reduced at ho'
  split_ifs at ho'
  · cases ho'
  · obtain rfl := Option.some_inj.1 ho'
    exact h

/-- A count that goes down by one. -/
theorem sub_one_toNat {n : UInt64} {k : ℕ} (h : n.toNat = k + 1) : (n - 1).toNat = k := by
  rw [UInt64.toNat_sub_of_le, h]
  · rfl
  · rw [UInt64.le_iff_toNat_le, h]
    exact Nat.le_add_left 1 k

theorem add_one_toNat {n : UInt64} {k : ℕ} (h : n.toNat + 1 = k) (hk : k < 2 ^ 64) :
    (n + 1).toNat = k := by
  rw [UInt64.toNat_add, show (1 : UInt64).toNat = 1 from rfl, h]
  exact Nat.mod_eq_of_lt hk

end Count

section Ends

variable {m : BookManager} {b : BookModel} {l : UInt16} {book : OrderBook}

theorem Refines.totalCount_lt (hc : ConfigOk m.config) {orders : OrderTable}
    {prices : PriceLevelStore} {live : UInt64 → Option ModelOrder} {used : Set UInt64}
    (ho : orders.config = m.config.orders) (h : StoresOf orders prices live used) :
    PointUpdate.total countAny live < 2 ^ 64 := by
  have hle := h.totalCount_le
  have hd := hc.directSlots
  rw [ho] at hle
  simp only [OrderTable.kFallbackWays] at hle
  omega

theorem Refines.prepared_iff (h : Refines m b) (hb : m.books l = some book) : l ∈ b.prepared :=
  (h.books l).2 (by rw [hb]; rfl)

theorem Refines.isBookPrepared (h : Refines m b) (hb : m.books l = some book) :
    m.prices.isBookPrepared book.stockLocate = true := by
  rw [(h.book l book hb).stockLocate]
  exact (h.prepared l).1 (h.prepared_iff hb)

theorem after_of_ne {op : BookOp} {e : MutationResult} (he : e ≠ .applied)
    (hop : ∀ l oldId newId newPrice newQty timestamp,
      op ≠ .replaceOrder l oldId newId newPrice newQty timestamp) : b.after op e = b := by
  unfold BookModel.after
  rw [if_neg he]
  cases op with
  | replaceOrder => exact absurd rfl (hop _ _ _ _ _ _)
  | _ => rfl

theorem addOrder_model (h : Refines m b) (hb : m.books l = some book) (orderId price : UInt64)
    (qty : UInt32) (side : UInt8) (timestamp : UInt64) :
    Ends b (.addOrder l orderId price qty side timestamp) l ⟨book, m.orders, m.prices⟩
      (BookContext.addOrder ⟨book, m.orders, m.prices⟩ orderId price qty side timestamp) := by
  have hB := h.book l book hb
  obtain rfl := hB.stockLocate
  have hp := h.prepared_iff hb
  have hprep := h.isBookPrepared hb
  have hcount : m.orders.config.fallbackBucketCount ≠ 0 := by
    rw [h.ordersConfig]
    exact h.config.fallbackBucketCount
  have hends := addOrder_ends (c := ⟨book, m.orders, m.prices⟩) h.stores hcount hB.localInvalid
    hprep orderId price qty side timestamp
  dsimp only at hends
  rcases hends with ⟨e, href, hcases⟩ | ⟨hadm, hcar⟩
  · refine .inl ⟨e, href, after_of_ne href.2.1 (by simp), ?_⟩
    rcases hcases with ⟨hn, hcap⟩ | ⟨hadm, hcap, hfull⟩
    · exact .inl ⟨fun ha => hn ha.2, hcap⟩
    · exact .inr ⟨⟨hp, hadm⟩, hcap, hfull⟩
  · have hnone := h.stores.live_of_unused hadm.2.2.2
    have htot := PointUpdate.total_update (countIn book.stockLocate) b.live orderId
      (some ⟨book.stockLocate, decodeSide side, price, qty⟩)
    rw [hnone, countIn_of_locate (o := ⟨book.stockLocate, decodeSide side, price, qty⟩) rfl] at htot
    refine .inr (.inr ⟨⟨hp, hadm⟩, _, timestamp, hcar, ?_, fun l' hl' => ?_, rfl, rfl⟩)
    · have hlt := Refines.totalCount_lt h.config (hcar.2.2.2.2.trans h.ordersConfig) hcar.2.2.1
      refine add_one_toNat ?_ ((liveCount_le _ _).trans_lt hlt)
      rw [hB.liveOrderCount]
      exact htot.symm
    · refine total_countIn_of_ne ?_ ?_ hl'
      · rw [hnone]
        rintro o ⟨⟩
      · rintro o ⟨⟩
        rfl

theorem cancelShares_model (h : Refines m b) (hb : m.books l = some book) (orderId : UInt64)
    (qty : UInt32) (timestamp : UInt64) :
    Ends b (.cancelShares l orderId qty timestamp) l ⟨book, m.orders, m.prices⟩
      (BookContext.cancelShares ⟨book, m.orders, m.prices⟩ orderId qty timestamp) := by
  have hB := h.book l book hb
  obtain rfl := hB.stockLocate
  have hp := h.prepared_iff hb
  have hends := cancelShares_ends (c := ⟨book, m.orders, m.prices⟩) h.stores hB.localInvalid
    orderId qty timestamp
  dsimp only at hends
  rcases hends with ⟨e, href, hn, hcap⟩ | ⟨hadm, hcar⟩
  · exact .inl ⟨e, href, after_of_ne href.2.1 (by simp), .inl ⟨fun ha => hn ha.2, hcap⟩⟩
  · have ⟨o, ho, hl, _, hlt⟩ := hadm
    have hred : reduced o qty = some { o with qty := o.qty - qty } := if_neg (UInt32.ne_of_lt hlt)
    refine .inr (.inr ⟨⟨hp, hadm⟩, book.liveOrderCount, timestamp, hcar, ?_, fun l' hl' => ?_,
      rfl, rfl⟩)
    · rw [hB.liveOrderCount]
      refine (PointUpdate.total_update_of_eq ?_).symm
      rw [ho, Option.bind_some, hred, countIn_of_locate hl]
      exact countIn_of_locate hl
    · refine total_countIn_of_ne ?_ ?_ hl'
      · rw [ho]
        rintro o' ⟨⟩
        exact hl
      · rw [ho, Option.bind_some]
        exact reduced_locate hl

theorem executeOrder_model (h : Refines m b) (hb : m.books l = some book) (orderId : UInt64)
    (qty : UInt32) (timestamp : UInt64) :
    Ends b (.executeOrder l orderId qty timestamp) l ⟨book, m.orders, m.prices⟩
      (BookContext.executeOrder ⟨book, m.orders, m.prices⟩ orderId qty timestamp) := by
  have hB := h.book l book hb
  obtain rfl := hB.stockLocate
  have hp := h.prepared_iff hb
  have hends := executeOrder_ends (c := ⟨book, m.orders, m.prices⟩) h.stores hB.localInvalid
    orderId qty timestamp
  dsimp only at hends
  rcases hends with ⟨e, href, hn, hcap⟩ | ⟨hadm, n, hcar, hn⟩
  · exact .inl ⟨e, href, after_of_ne href.2.1 (by simp), .inl ⟨fun ha => hn ha.2, hcap⟩⟩
  · have ⟨o, ho, hl, _, _⟩ := hadm
    have htot := PointUpdate.total_update (countIn book.stockLocate) b.live orderId (reduced o qty)
    rw [ho, countIn_of_locate hl] at htot
    rw [ho, Option.bind_some] at hn
    refine .inr (.inr ⟨⟨hp, hadm⟩, n, timestamp, hcar, ?_, fun l' hl' => ?_, rfl, rfl⟩)
    · show n.toNat = PointUpdate.total (countIn book.stockLocate)
        (update b.live orderId ((b.live orderId).bind (reduced · qty)))
      rw [ho, Option.bind_some, hn]
      by_cases hnone : reduced o qty = none
      · rw [if_pos hnone]
        rw [hnone] at htot ⊢
        exact sub_one_toNat (hB.liveOrderCount.trans htot.symm)
      · rw [if_neg hnone, hB.liveOrderCount]
        obtain ⟨o', ho'⟩ := Option.ne_none_iff_exists'.1 hnone
        rw [ho', countIn_of_locate (reduced_locate hl o' ho')] at htot
        rw [ho']
        exact (Nat.add_right_cancel htot).symm
    · refine total_countIn_of_ne ?_ ?_ hl'
      · rw [ho]
        rintro o' ⟨⟩
        exact hl
      · rw [ho, Option.bind_some]
        exact reduced_locate hl

theorem deleteOrder_model (h : Refines m b) (hb : m.books l = some book)
    (orderId timestamp : UInt64) :
    Ends b (.deleteOrder l orderId timestamp) l ⟨book, m.orders, m.prices⟩
      (BookContext.deleteOrder ⟨book, m.orders, m.prices⟩ orderId timestamp) := by
  have hB := h.book l book hb
  obtain rfl := hB.stockLocate
  have hp := h.prepared_iff hb
  have hends := deleteOrder_ends (c := ⟨book, m.orders, m.prices⟩) h.stores hB.localInvalid
    orderId timestamp
  dsimp only at hends
  rcases hends with ⟨e, href, hn, hcap⟩ | ⟨hadm, hcar⟩
  · exact .inl ⟨e, href, after_of_ne href.2.1 (by simp), .inl ⟨fun ha => hn ha.2, hcap⟩⟩
  · have ⟨o, ho, hl⟩ := hadm
    have htot := PointUpdate.total_update (countIn book.stockLocate) b.live orderId none
    rw [ho, countIn_of_locate hl] at htot
    refine .inr (.inr ⟨⟨hp, hadm⟩, _, timestamp, hcar, ?_, fun l' hl' => ?_, rfl, rfl⟩)
    · exact sub_one_toNat (hB.liveOrderCount.trans htot.symm)
    · refine total_countIn_of_ne ?_ (by rintro o' ⟨⟩) hl'
      rw [ho]
      rintro o' ⟨⟩
      exact hl

theorem replaceOrder_model (h : Refines m b) (hb : m.books l = some book)
    (oldId newId newPrice : UInt64) (newQty : UInt32) (timestamp : UInt64) :
    Ends b (.replaceOrder l oldId newId newPrice newQty timestamp) l ⟨book, m.orders, m.prices⟩
      (BookContext.replaceOrder ⟨book, m.orders, m.prices⟩ oldId newId newPrice newQty
        timestamp) := by
  have hB := h.book l book hb
  obtain rfl := hB.stockLocate
  have hp := h.prepared_iff hb
  have hprep := h.isBookPrepared hb
  have hcount : m.orders.config.fallbackBucketCount ≠ 0 := by
    rw [h.ordersConfig]
    exact h.config.fallbackBucketCount
  have hends := replaceOrder_ends (c := ⟨book, m.orders, m.prices⟩) h.stores hcount
    hB.localInvalid hprep oldId newId newPrice newQty timestamp
  dsimp only at hends
  rcases hends with ⟨e, href, hcases⟩ | ⟨hadm, hfull, htomb⟩ | ⟨hadm, hcar⟩
  · refine .inl ⟨e, href, ?_, ?_⟩
    · by_cases hov : e = .orderCountOverflow
      · subst hov
        rcases hcases with ⟨_, hcap⟩ | ⟨_, _, hused⟩
        · exact absurd (.inr (.inr rfl)) hcap
        · show { b with used := insert newId b.used } = b
          rw [Set.insert_eq_of_mem (hused rfl).1]
      · unfold BookModel.after
        rw [if_neg href.2.1]
        split
        · exact absurd rfl hov
        · rfl
    · rcases hcases with ⟨hn, hcap⟩ | ⟨hadm, hcap, hfull⟩
      · exact .inl ⟨fun ha => hn ha.2, hcap⟩
      · exact .inr ⟨⟨hp, hadm⟩, hcap, fun he => (hfull he).2⟩
  · exact .inr (.inl ⟨⟨hp, hadm⟩, hfull, newId, rfl, htomb, rfl⟩)
  · have ⟨⟨o, ho, hl⟩, _, _, hid⟩ := hadm
    have hlive : (b.apply (.replaceOrder book.stockLocate oldId newId newPrice newQty timestamp)).live
        = update (update b.live oldId none) newId
          (some { o with price := newPrice, qty := newQty }) := by
      show update (update b.live oldId none) newId ((b.live oldId).map _) = _
      rw [ho, Option.map_some]
    have htot : ∀ l',
        (b.apply (.replaceOrder book.stockLocate oldId newId newPrice newQty timestamp)).liveCount l'
        = b.liveCount l' := by
      intro l'
      have hsame : countIn l' (some { o with price := newPrice, qty := newQty })
          = countIn l' (b.live oldId) := by
        rw [ho]
        rfl
      rw [BookModel.liveCount, hlive]
      rcases hid with rfl | hnew
      · rw [update_idem]
        exact PointUpdate.total_update_of_eq hsame
      · have hne : newId ≠ oldId := by
          rintro rfl
          exact hnew (h.stores.used_of_live ho)
        rw [total_rekey rfl hne (h.stores.live_of_unused hnew)]
        exact PointUpdate.total_update_of_eq hsame
    refine .inr (.inr ⟨⟨hp, hadm⟩, book.liveOrderCount, timestamp, hcar, ?_, fun l' _ => htot l',
      rfl, rfl⟩)
    rw [htot, hB.liveOrderCount]

end Ends

/-! ## The manager -/

section Manager

variable {m : BookManager} {b : BookModel} {l : UInt16} {book : OrderBook}

theorem Refines.find_eq (h : Refines m b) (l : UInt16) : m.find l = m.books l := by
  unfold BookManager.find
  split_ifs with hv
  · cases hb : m.books l with
    | none => rfl
    | some book =>
      have hprep := (h.prepared l).1 (h.prepared_iff hb)
      rw [isValidStockLocate_of_prepared hprep] at hv
      cases hv
  · rfl

/-- The stores differ in counters of failures. -/
theorem StoresOf.counters {orders : OrderTable} {prices : PriceLevelStore}
    {live : UInt64 → Option ModelOrder} {used : Set UInt64} (h : StoresOf orders prices live used)
    (k : UInt64) : StoresOf orders { prices with pageCapacityFailures := k } live used := by
  refine ⟨h.table, h.store.counters k, h.used_iff, fun r => ?_, h.levels⟩
  exact (h.matching r).of_roots fun _ _ _ _ => rfl

/-- The descriptor of another book is untouched. -/
theorem BookOf.of_eq {b' : BookModel} (h : BookOf b l book) (hc : b'.liveCount l = b.liveCount l)
    (ht : b'.lastTimestamp l = b.lastTimestamp l) : BookOf b' l book :=
  ⟨h.symbolId, h.stockLocate, h.localInvalid, h.liveOrderCount.trans hc.symm,
    h.timestamp.trans ht.symm⟩

theorem Refines.put (h : Refines m b) (hb : m.books l = some book) {book' : OrderBook}
    {orders : OrderTable} {prices : PriceLevelStore} {b' : BookModel}
    (horders : orders.config = m.orders.config)
    (hprices : prices.preparedBooks = m.prices.preparedBooks)
    (hstores : StoresOf orders prices b'.live b'.used) (hprep : b'.prepared = b.prepared)
    (hbook : BookOf b' l book') (hcount : ∀ l' ≠ l, b'.liveCount l' = b.liveCount l')
    (htime : ∀ l' ≠ l, b'.lastTimestamp l' = b.lastTimestamp l') :
    Refines { m with
      orders := orders
      prices := prices
      books := update m.books l (some book') } b' := by
  refine ⟨h.config, horders.trans h.ordersConfig, hstores, fun l' => ?_, fun l' => ?_,
    fun l' bk (hbk : update m.books l (some book') l' = some bk) => ?_, fun l' hl' => ?_⟩
  · rw [hprep, h.prepared]
    unfold PriceLevelStore.isBookPrepared
    rw [hprices]
  · rw [hprep, h.books]
    by_cases hl : l' = l
    · subst hl
      simp only [update_self, hb, Option.isSome_some]
    · simp only [update_of_ne hl]
  · by_cases hl : l' = l
    · subst hl
      rw [update_self, Option.some_inj] at hbk
      exact hbk ▸ hbook
    · rw [update_of_ne hl] at hbk
      exact (h.book l' bk hbk).of_eq (hcount l' hl) (htime l' hl)
  · rw [hprep] at hl'
    have hne : l' ≠ l := by
      rintro rfl
      exact hl' (h.prepared_iff hb)
    rw [htime l' hne, h.untouched l' hl']

/-- What holds of a step of the manager beside the model. -/
structure StepOk (m : BookManager) (b : BookModel) (op : BookOp)
    (out : MutationResult × BookManager) : Prop where
  refines : Refines out.2 (b.after op out.1)
  applied_iff : ¬ IsCapacity out.1 → (out.1 = .applied ↔ b.Admits op)
  capacity : IsCapacity out.1 → b.Admits op
  full : out.1 = .orderCountOverflow → b.Full op

theorem Refines.of_ends (h : Refines m b) (hb : m.books l = some book) {op : BookOp}
    {out : MutationResult × BookContext} (hends : Ends b op l ⟨book, m.orders, m.prices⟩ out) :
    StepOk m b op (out.1, { m with
      orders := out.2.orders
      prices := out.2.prices
      books := update m.books l (some out.2.book) }) := by
  have hB := h.book l book hb
  rcases hends with ⟨e, ⟨rfl, hne, n, k, hout⟩, hafter, hcases⟩
    | ⟨hadm, hfull, newId, _, ⟨hres, ⟨n, hbk⟩, hpr, htab, hcfg, hlive, hused⟩, hafter⟩
    | ⟨hadm, n, timestamp, ⟨hres, hbk, hst, hprep, hcfg⟩, hcount, hother, hprepared, htime⟩
  · refine ⟨?_, fun hc => ?_, fun hc => ?_, fun ho => ?_⟩
    · rw [hafter, hout]
      exact h.put hb rfl rfl (h.stores.counters k) rfl
        ⟨hB.symbolId, hB.stockLocate, hB.localInvalid, hB.liveOrderCount, hB.timestamp⟩
        (fun _ _ => rfl) fun _ _ => rfl
    · rcases hcases with ⟨hn, _⟩ | ⟨_, hcap, _⟩
      · exact ⟨fun ha => absurd ha hne, fun ha => absurd ha hn⟩
      · exact absurd hcap hc
    · rcases hcases with ⟨_, hcap⟩ | ⟨hadm, _⟩
      · exact absurd hc hcap
      · exact hadm
    · rcases hcases with ⟨_, hcap⟩ | ⟨_, _, hf⟩
      · exact absurd (.inr (.inr ho)) hcap
      · exact hf ho
  · refine ⟨?_, fun hc => absurd (.inr (.inr hres)) hc, fun _ => hadm, fun _ => hfull⟩
    rw [hres, hafter, hbk, hpr]
    refine h.put hb hcfg rfl ⟨htab, h.stores.store, fun r => ?_, fun r => ?_, h.stores.levels⟩ rfl
      ⟨hB.symbolId, hB.stockLocate, hB.localInvalid, hB.liveOrderCount, hB.timestamp⟩
      (fun _ _ => rfl) fun _ _ => rfl
    · rw [hused, h.stores.used_iff, Set.mem_insert_iff]
    · rw [hlive]
      exact h.stores.matching r
  · have hafter : b.after op .applied = b.apply op := if_pos rfl
    refine ⟨?_, fun _ => iff_of_true hres hadm, fun _ => hadm, fun ho => ?_⟩
    · rw [hres, hafter, hbk]
      refine h.put hb hcfg hprep hst hprepared
        ⟨hB.symbolId, hB.stockLocate, hB.localInvalid, hcount, ?_⟩ hother fun l' hl' => ?_
      · rw [htime, update_self]
      · rw [htime, update_of_ne hl']
    · rw [hres] at ho
      cases ho

theorem Refines.routed (h : Refines m b) {op : BookOp}
    {f : BookContext → MutationResult × BookContext}
    (hprep : b.Admits op → l ∈ b.prepared) (hafter : b.after op .bookNotPrepared = b)
    (hends : ∀ book, m.books l = some book →
      Ends b op l ⟨book, m.orders, m.prices⟩ (f ⟨book, m.orders, m.prices⟩)) :
    StepOk m b op (m.routed l f) := by
  unfold BookManager.routed
  rw [h.find_eq]
  cases hb : m.books l with
  | none =>
    refine ⟨?_, fun _ => ⟨fun ha => ?_, fun ha => ?_⟩, fun hc => ?_, fun ho => ?_⟩
    · rw [hafter]
      exact h
    · cases ha
    · have hs := (h.books l).1 (hprep ha)
      rw [hb] at hs
      cases hs
    · simp [IsCapacity] at hc
    · cases ho
  | some book => exact h.of_ends hb (hends book hb)

/-- No order is live in a book that was never prepared. -/
theorem Refines.liveCount_eq_zero (h : Refines m b) (hl : l ∉ b.prepared) : b.liveCount l = 0 := by
  refine PointUpdate.total_eq_zero.2 fun r => ?_
  cases hr : b.live r with
  | none => rfl
  | some o =>
    refine if_neg fun ho => hl ?_
    have hm := h.stores.matching r
    rw [hr] at hm
    obtain ⟨st, _, hst⟩ := hm.some_right
    obtain ⟨hc, hown, _⟩ := hst.locates.committed h.stores.store.arena
    have hp := h.stores.store.arena.prepared _ hc
    rw [h.prepared, ← ho, ← hown]
    exact hp

/-- A book is prepared and materialised. -/
theorem Refines.create (h : Refines m b) (hv : isValidStockLocate l = true)
 (hl : l ∉ b.prepared) {prices : PriceLevelStore}
    (hprices : prices = { m.prices with
      preparedBooks := update m.prices.preparedBooks l.toNat 1
      preparedBookCount := m.prices.preparedBookCount + 1 }) (hI : prices.StoreInv)
    (capacity : UInt64) :
    Refines { m with
      prices := prices
      books := update m.books l (some (OrderBook.create l prices capacity)) }
      { b with prepared := insert l b.prepared } := by
  have hself : prices.isBookPrepared l = true := by
    rw [hprices]
    simp [PriceLevelStore.isBookPrepared, hv]
  have hother : ∀ l' ≠ l, prices.isBookPrepared l' = m.prices.isBookPrepared l' := by
    intro l' hne
    rw [hprices]
    simp only [PriceLevelStore.isBookPrepared]
    rw [update_of_ne fun he => hne (UInt16.toNat_inj.1 he)]
  refine ⟨h.config, h.ordersConfig, ⟨h.stores.table, hI, h.stores.used_iff, fun r => ?_, ?_⟩,
    fun l' => ?_, fun l' => ?_,
    fun l' bk (hbk : update m.books l (some _) l' = some bk) => ?_, fun l' hl' => ?_⟩
  · refine (h.stores.matching r).of_roots fun _ _ _ _ => ?_
    rw [hprices]
    rfl
  · rw [hprices]
    exact h.stores.levels
  · by_cases hll : l' = l
    · subst hll
      exact iff_of_true (Set.mem_insert _ _) hself
    · rw [Set.mem_insert_iff, or_iff_right hll, h.prepared]
      exact (congrArg (· = true) (hother l' hll)).symm.to_iff
  · by_cases hll : l' = l
    · subst hll
      simp
    · rw [Set.mem_insert_iff, or_iff_right hll, h.books]
      simp only [update_of_ne hll]
  · by_cases hll : l' = l
    · subst hll
      rw [update_self, Option.some_inj] at hbk
      subst hbk
      refine ⟨rfl, rfl, by simp [OrderBook.create, hself], ?_, (h.untouched l' hl).symm⟩
      exact (h.liveCount_eq_zero hl).symm
    · rw [update_of_ne hll] at hbk
      exact (h.book l' bk hbk).of_eq rfl rfl
  · exact h.untouched l' fun hm => hl' (Set.mem_insert_of_mem l hm)

/-- The store with a book prepared. -/
def withBook (s : PriceLevelStore) (l : UInt16) : PriceLevelStore :=
  { s with
    preparedBooks := update s.preparedBooks l.toNat 1
    preparedBookCount := s.preparedBookCount + 1 }

theorem Refines.getOrCreate_cases (h : Refines m b) (l : UInt16) :
    isValidStockLocate l = false ∧ m.getOrCreate l = (none, m)
    ∨ isValidStockLocate l = true ∧ l ∈ b.prepared
      ∧ (∃ book, m.books l = some book ∧ m.getOrCreate l = (some book, m))
    ∨ isValidStockLocate l = true ∧ l ∉ b.prepared ∧ m.books l = none
      ∧ m.prices.prepareBook l = (.applied, withBook m.prices l)
      ∧ m.getOrCreate l = (some (OrderBook.create l (withBook m.prices l)
          m.config.orders.directSlots), { m with
        prices := withBook m.prices l
        books := update m.books l (some (OrderBook.create l (withBook m.prices l)
          m.config.orders.directSlots)) }) := by
  unfold BookManager.getOrCreate
  by_cases hv : isValidStockLocate l = true
  swap
  · rw [if_pos (by simpa using hv)]
    exact .inl ⟨by simpa using hv, rfl⟩
  rw [if_neg (by simp [hv]), h.find_eq]
  cases hb : m.books l with
  | some book => exact .inr (.inl ⟨hv, h.prepared_iff hb, book, rfl, rfl⟩)
  | none =>
    have hn : l ∉ b.prepared := by
      rw [h.books, hb]
      simp
    have h0 : m.prices.preparedBooks l.toNat = 0 := by
      have := (h.prepared l).not.1 hn
      simpa [PriceLevelStore.isBookPrepared, hv] using this
    have hprep : m.prices.prepareBook l = (.applied, withBook m.prices l) := by
      unfold PriceLevelStore.prepareBook
      rw [if_neg (by simp [hv]), if_pos h0]
      rfl
    rw [hprep]
    exact .inr (.inr ⟨hv, hn, rfl, rfl, rfl⟩)

theorem Refines.getOrCreate (h : Refines m b) (l : UInt16) :
    StepOk m b (.getOrCreate l) (m.perform (.getOrCreate l)) := by
  have hnotCap : ∀ {e : MutationResult}, e = .applied ∨ e = .invalidLocate → ¬ IsCapacity e := by
    rintro e (rfl | rfl) <;> simp [IsCapacity]
  rcases h.getOrCreate_cases l with ⟨hv, hout⟩ | ⟨hv, hl, book, hb, hout⟩
    | ⟨hv, hl, _, hprep, hout⟩
  · have hout' : m.perform (.getOrCreate l) = (.invalidLocate, m) := by
      simp only [BookManager.perform, hout]
      rfl
    have hnot : ¬ b.Admits (.getOrCreate l) := fun ha => by
      rw [BookModel.Admits, hv] at ha
      cases ha
    rw [hout']
    exact ⟨h, fun _ => iff_of_false (by simp) hnot, fun hc => absurd hc (hnotCap (.inr rfl)),
      fun ho => by cases ho⟩
  · have hout' : m.perform (.getOrCreate l) = (.applied, m) := by
      simp only [BookManager.perform, hout]
      rfl
    rw [hout']
    refine ⟨?_, fun _ => iff_of_true rfl hv, fun _ => hv, fun ho => by cases ho⟩
    show Refines m { b with prepared := insert l b.prepared }
    rw [Set.insert_eq_of_mem hl]
    exact h
  · have hI := h.stores.store.prepareBook l
    rw [hprep] at hI
    have hout' : m.perform (.getOrCreate l) = (.applied, { m with
        prices := withBook m.prices l
        books := update m.books l (some (OrderBook.create l (withBook m.prices l)
          m.config.orders.directSlots)) }) := by
      simp only [BookManager.perform, hout]
      rfl
    rw [hout']
    exact ⟨h.create hv hl rfl hI _, fun _ => iff_of_true rfl hv, fun _ => hv, fun ho => by cases ho⟩

theorem Refines.perform (h : Refines m b) (op : BookOp) : StepOk m b op (m.perform op) := by
  cases op with
  | getOrCreate l => exact h.getOrCreate l
  | addOrder l orderId price qty side timestamp =>
    refine Refines.routed (f := fun c => c.addOrder orderId price qty side timestamp) h
      (fun ha => ha.1) rfl fun book hb => ?_
    exact addOrder_model h hb orderId price qty side timestamp
  | executeOrder l orderId qty timestamp =>
    refine Refines.routed (f := fun c => c.executeOrder orderId qty timestamp) h
      (fun ha => ha.1) rfl fun book hb => ?_
    exact executeOrder_model h hb orderId qty timestamp
  | cancelShares l orderId qty timestamp =>
    refine Refines.routed (f := fun c => c.cancelShares orderId qty timestamp) h
      (fun ha => ha.1) rfl fun book hb => ?_
    exact cancelShares_model h hb orderId qty timestamp
  | deleteOrder l orderId timestamp =>
    refine Refines.routed (f := fun c => c.deleteOrder orderId timestamp) h
      (fun ha => ha.1) rfl fun book hb => ?_
    exact deleteOrder_model h hb orderId timestamp
  | replaceOrder l oldId newId newPrice newQty timestamp =>
    refine Refines.routed (f := fun c => c.replaceOrder oldId newId newPrice newQty timestamp) h
      (fun ha => ha.1) rfl fun book hb => ?_
    exact replaceOrder_model h hb oldId newId newPrice newQty timestamp

end Manager

end AstraFeed
