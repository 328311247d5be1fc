import AstraFeed.Proofs.OrderBook

/-!
# How a replacement ends

A replacement moves the shares of an order to another price, under its own reference or a new one.
The new reference is committed before the shares are moved, so a move to a full level is rolled
back and leaves the reference used.
-/

namespace AstraFeed

open Function PriceLevelStore BookModel OrderBook

variable {live : UInt64 → Option ModelOrder} {used : Set UInt64} {orders : OrderTable}
  {prices : PriceLevelStore} {oldId newId : UInt64} {o : ModelOrder} {st : OrderState}

/-- An order moved to another reference counts as it would under its own. -/
theorem total_rekey {f : Option ModelOrder → ℕ} (hf : f none = 0) (hne : newId ≠ oldId)
    (hnone : live newId = none) (v : Option ModelOrder) :
    PointUpdate.total f (update (update live oldId none) newId v)
      = PointUpdate.total f (update live oldId v) := by
  have h1 := PointUpdate.total_update f (update live oldId none) newId v
  have h2 := PointUpdate.total_update f live oldId none
  have h3 := PointUpdate.total_update f live oldId v
  rw [update_of_ne hne, hnone, hf] at h1
  rw [hf] at h2
  omega

/-- The shares of a live order move to a price of its book: to a full level they do not. -/
theorem StoresOf.move_ends (h : StoresOf orders prices live used) (ho : live oldId = some o)
    (hst : StateOf prices st o) {p : UInt16} {price : UInt64} {b : PriceAddress}
    (hb : Locates prices o.locate price.toNat p b) {newQty : UInt32} (h0 : newQty ≠ 0) :
    prices.move (addressOf st) o.qty b newQty o.side = (.orderCountOverflow, prices)
      ∧ (prices.levelUnchecked b o.side).orderCount.toNat = 2 ^ 32 - 1
    ∨ ∃ prices', prices.move (addressOf st) o.qty b newQty o.side = (.applied, prices')
      ∧ prices'.StoreInv ∧ prices'.preparedBooks = prices.preparedBooks
      ∧ (∀ l, prices'.rootAt l = prices.rootAt l)
      ∧ LevelsOf prices' (update live oldId (some { o with price := price, qty := newQty })) := by
  have ha := hst.locates
  have hcan := h.canErase ho hst
  obtain ⟨hca, hla, _⟩ := ha.committed h.store.arena
  obtain ⟨hcb, hlb, _⟩ := hb.committed h.store.arena
  obtain ⟨plan, hplan, hmove⟩ := move_of_canErase h.store hcan hcb (hla.trans hlb.symm) h0
  have hle := UInt64.le_iff_toNat_le.1 hcan.le
  rw [UInt32.toNat_toUInt64] at hle
  rw [hmove]
  by_cases hsame : (addressOf st).pageHandle = b.pageHandle ∧ (addressOf st).levelIndex = b.levelIndex
  · -- in place: the level cannot overflow, as it holds no more than its count of full orders
    have hab : addressOf st = b := by
      cases hb' : b
      rw [hb'] at hsame
      exact (PriceAddress.mk.injEq _ _ _ _).symm ▸ hsame
    have hx : o.price.toNat = price.toNat := by
      have hp := ha.committed h.store.arena
      have hp' := hb.committed h.store.arena
      rw [hab] at hp
      rw [← ha.price, ← hb.price, ← hab, ← hp.2.2, ← hp'.2.2]
    have hlevels := h.levels o.locate o.side _ hst.side_ne ha.lt
    rw [ha.levelOf] at hlevels
    have hbound : (prices.levelUnchecked (addressOf st) o.side).totalQty.toNat - o.qty.toNat
        + newQty.toNat < 2 ^ 64 := by
      have hcu := PointUpdate.total_update (countAt o.locate o.side o.price.toNat) live oldId none
      have hqu := PointUpdate.total_update (qtyAt o.locate o.side o.price.toNat) live oldId none
      have hge := total_qtyAt_le o.locate o.side o.price.toNat (update live oldId none)
      obtain ⟨h1, h2⟩ := countAt_of_atLevel hst.atLevel
      rw [ho, h1] at hcu
      rw [ho, h2] at hqu
      simp only [countAt, qtyAt, Nat.add_zero] at hcu hqu
      have hlt := (prices.levelUnchecked (addressOf st) o.side).orderCount.toNat_lt
      have hq := newQty.toNat_lt
      have hmul : (2 ^ 32 - 1) * PointUpdate.total (countAt o.locate o.side o.price.toNat)
          (update live oldId none) ≤ (2 ^ 32 - 1) * (2 ^ 32 - 2) :=
        Nat.mul_le_mul_left _ (by omega)
      omega
    have hsub : ((prices.levelUnchecked (addressOf st) o.side).totalQty - o.qty.toUInt64).toNat
        = (prices.levelUnchecked (addressOf st) o.side).totalQty.toNat - o.qty.toNat := by
      rw [UInt64.toNat_sub_of_le _ _ hcan.le, UInt32.toNat_toUInt64]
    rw [if_pos hsame]
    dsimp only
    rw [if_neg (by rw [hsub]; omega)]
    refine .inr ⟨_, rfl, h.store.setLevel hst.side_ne hca hcan.count hcan.count ?_, rfl,
      fun l => rfl, ?_⟩
    · exact qty_add_ne_zero (by rw [hsub]; exact hbound) h0
    · refine h.levels.update h.store.arena ha (setLevel_onlyAt _ _ hst.side_ne) ?_ ?_ ?_ ?_
      · rw [ho]
        rintro o' ⟨⟩
        exact hst.atLevel
      · rintro o' ⟨⟩
        exact ⟨rfl, rfl, hx.symm⟩
      · rw [levelUnchecked_setLevel hst.side_ne, ho]
        simp [countAt, ModelOrder.AtLevel, hx]
      · rw [levelUnchecked_setLevel hst.side_ne, ho, qty_add_toNat (by rw [hsub]; exact hbound),
          hsub]
        simp only [qtyAt, ModelOrder.AtLevel, hx, and_self, if_true]
        omega
  · rw [if_neg hsame]
    by_cases hfull : (prices.levelUnchecked b o.side).orderCount.toNat = 2 ^ 32 - 1
    · have hval : prices.validateAdd b o.side newQty = .orderCountOverflow := by
        rw [validateAdd_eq h.store hst.side_ne hcb, if_neg h0, if_pos hfull]
      rw [hval, if_pos (by simp)]
      exact .inl ⟨rfl, hfull⟩
    · have hadd : CanAdd prices b o.side newQty :=
        ⟨hst.side_ne, hcb, h0, hfull, h.total_lt hb hst.side_ne hfull newQty⟩
      have hf := eraseValidated_onlyAt (s := prices) (a := addressOf st) o.qty plan hst.side_ne
      have hadd' := hadd.of_onlyAt hf hsame
      have hI1 := h.store.erasePlanned hplan
      have hf' := addValidated_onlyAt (s := prices.eraseValidated (addressOf st) o.side o.qty plan)
        (a := b) newQty hst.side_ne
      have hb' := hb.of_roots fun l q _ _ => congrFun (hf.rootAt l) q
      have hval := (validateAdd_applied_iff h.store).2 hadd
      have hlev := (h.levels_erase ho hst plan).add hI1.arena hb' hadd' (r := oldId) (update_self ..)
      rw [Function.update_idem] at hlev
      rw [if_neg (not_ne_iff.2 hval)]
      exact .inr ⟨_, rfl, hI1.addValidated hadd'.side_ne hadd'.committed hadd'.qty_ne hadd'.count
        hadd'.total, hf'.preparedBooks.trans hf.preparedBooks,
        fun l => (hf'.rootAt l).trans (hf.rootAt l), hlev⟩

/-- An order found before another is placed is found in another slot. -/
theorem StoresOf.holds_place (h : StoresOf orders prices live used) {slot slot' : OrderSlot}
    (hf : orders.findState oldId = some slot)
    (hm : slot' ∈ OrderTable.slotsOf orders.config newId) (hvac : orders.vacant slot' = true)
    (st' : OrderState) :
    (orders.place slot' newId (OrderTable.committed st')).Holds oldId slot
      ∧ (orders.place slot' newId (OrderTable.committed st')).read slot = orders.read slot := by
  have hs := OrderTable.wasSeen_committed st'
  have hh := h.table.used_of_findState hf
  refine ⟨(OrderTable.holds_place hm hs hvac oldId).2 (.inr hh), ?_⟩
  rw [OrderTable.read_place, if_neg]
  rintro rfl
  exact OrderTable.vacant_iff.1 hvac hh.1

/-- A live order goes to another reference and price. -/
theorem StoresOf.rekey (h : StoresOf orders prices live used) {slot slot' : OrderSlot}
    (hf : orders.findState oldId = some slot) (hold : oldId ∈ used) (hnew : newId ∉ used)
    (hm : slot' ∈ OrderTable.slotsOf orders.config newId) (hvac : orders.vacant slot' = true)
    {prices' : PriceLevelStore} (hI : prices'.StoreInv)
    (hroots : ∀ l, prices'.rootAt l = prices.rootAt l) {o' : ModelOrder} {st' : OrderState}
    (hst : StateOf prices st' o') (hlev : LevelsOf prices' (update live oldId (some o'))) :
    StoresOf ((orders.place slot' newId (OrderTable.committed st')).write slot
        OrderTable.tombstone) prices'
      (update (update live oldId none) newId (some o')) (insert newId used) := by
  have hne : newId ≠ oldId := by
    rintro rfl
    exact hnew hold
  have hu : ¬ orders.Used newId := (h.used_iff newId).not.2 hnew
  have hs := OrderTable.wasSeen_committed st'
  have ht : wasSeen OrderTable.tombstone = true := by decide
  have ha : isActive OrderTable.tombstone = false := by decide
  obtain ⟨hh, _⟩ := h.holds_place hf hm hvac st'
  have hroots' : ∀ l q, q < kPricePartCount → prices.rootAt l q ≠ kInvalidPricePageHandle →
      prices'.rootAt l q = prices.rootAt l q := fun l q _ _ => congrFun (hroots l) q
  have htab := h.table.place hm hu hs
  refine ⟨htab.write hh.1 ht, hI, fun x => ?_, fun x => ?_, fun l side x hside hx => ?_⟩
  · rw [Set.mem_insert_iff, ← h.used_iff, ← OrderTable.used_place hm hs hvac]
    exact exists_congr fun s' => OrderTable.holds_write hh.1 ht x
  · rw [htab.live_write hh ht, h.table.live_place hm hu hvac, update_apply, update_apply]
    by_cases hx : x = newId
    · rw [if_pos hx, if_neg (hx ▸ hne), if_pos hx]
      exact StateOf.of_roots
        ⟨hst.qty, hst.qty_ne, hst.locate, hst.side, hst.side_ne, hst.handle_ne, hst.root,
          hst.price⟩ hroots'
    · rw [if_neg hx, if_neg hx]
      split_ifs
      · simp [ha] at *
      · exact trivial
      · exact (h.matching x).of_roots hroots'
  · have hnone := h.live_of_unused hnew
    rw [total_rekey rfl hne hnone, total_rekey rfl hne hnone]
    exact hlev l side x hside hx

/-- A replacement was rolled back: its new reference is used, and no order has changed. -/
def Tombstoned (c : BookContext) (newId : UInt64) (out : MutationResult × BookContext) : Prop :=
  out.1 = .orderCountOverflow ∧ (∃ n, out.2.book = { c.book with allocationFailures := n })
    ∧ out.2.prices = c.prices ∧ out.2.orders.TableInv ∧ out.2.orders.config = c.orders.config
    ∧ (∀ r, out.2.orders.live r = c.orders.live r)
    ∧ ∀ r, out.2.orders.Used r ↔ r = newId ∨ c.orders.Used r

/-- The new reference is committed and erased again. -/
theorem tombstoned_of_rollback {c : BookContext} (h : StoresOf c.orders c.prices live used)
    (hnew : newId ∉ used) {slot : OrderSlot} (hm : slot ∈ OrderTable.slotsOf c.orders.config newId)
    (hvac : c.orders.vacant slot = true) (st' : OrderState) :
    ((c.orders.place slot newId (OrderTable.committed st')).erase newId).1 = .applied
    ∧ Tombstoned c newId (BookContext.reject
      ⟨c.book, ((c.orders.place slot newId (OrderTable.committed st')).erase newId).2, c.prices⟩
      .orderCountOverflow) := by
  have hu : ¬ c.orders.Used newId := (h.used_iff newId).not.2 hnew
  have hs := OrderTable.wasSeen_committed st'
  have ha := OrderTable.isActive_committed st'
  have ht : wasSeen OrderTable.tombstone = true := by decide
  have hta : isActive OrderTable.tombstone = false := by decide
  have htab := h.table.place hm hu hs
  have hfind := h.table.findState_place hm hu hvac hs ha newId
  rw [if_pos rfl] at hfind
  have hh := htab.used_of_findState hfind
  have herase : (c.orders.place slot newId (OrderTable.committed st')).erase newId
      = (.applied, (c.orders.place slot newId (OrderTable.committed st')).write slot
        OrderTable.tombstone) := by
    rw [OrderTable.erase, hfind]
    exact OrderTable.eraseState_of_active (htab.findState_iff.1 hfind).1
  rw [herase]
  obtain ⟨n, hn⟩ := reject_eq (c := ⟨c.book,
    (c.orders.place slot newId (OrderTable.committed st')).write slot OrderTable.tombstone,
    c.prices⟩) (e := .orderCountOverflow) (by simp [Benign])
  rw [hn]
  refine ⟨rfl, rfl, ⟨n, rfl⟩, rfl, htab.write hh.1 ht,
    OrderTable.write_config.trans OrderTable.place_config, fun r => ?_, fun r => ?_⟩
  · show ((c.orders.place slot newId (OrderTable.committed st')).write slot
      OrderTable.tombstone).live r = _
    rw [htab.live_write hh ht, h.table.live_place hm hu hvac]
    by_cases hr : r = newId
    · rw [if_pos hr, if_neg (by simp [hta]), hr, OrderTable.live,
        h.table.findState_eq_none hu, Option.map_none]
    · rw [if_neg hr, if_neg hr]
  · rw [← OrderTable.used_place hm hs hvac]
    exact exists_congr fun s' => OrderTable.holds_write hh.1 ht r

/-- The second half under an unchanged reference, the price acquired. -/
theorem replaceReserved_self {c : BookContext} (h : StoresOf c.orders c.prices live used)
    {slot : OrderSlot} (hf : c.orders.findState oldId = some slot) (ho : live oldId = some o)
    (hst : StateOf c.prices (c.orders.read slot) o)
    {pr : PricePageReservation} {price : UInt64}
    (hloc : Locates c.prices o.locate price.toNat pr.pageIndex pr.address) {newQty : UInt32}
    (h0 : newQty ≠ 0) (res : OrderSlotReservation) (timestamp : UInt64) :
    let out := c.replaceReserved slot oldId oldId res pr newQty timestamp
    Refused c .orderCountOverflow out
      ∧ (c.prices.levelUnchecked pr.address o.side).orderCount.toNat = 2 ^ 32 - 1
    ∨ Carried c { c.book with latestUpdateTimestamp := timestamp }
      (update live oldId (some { o with price := price, qty := newQty })) used out := by
  intro out
  simp only [out, BookContext.replaceReserved, if_true]
  rw [hst.ofUInt8_side, hst.qty]
  rcases h.move_ends ho hst hloc h0 with ⟨hmove, hfull⟩ | ⟨prices', hmove, hI, hprep, hroots, hlev⟩
  · rw [hmove]
    dsimp only
    rw [if_pos (by simp)]
    exact .inl ⟨refused_reject (by simp [Benign]), hfull⟩
  · rw [hmove]
    dsimp only
    rw [if_neg (by simp)]
    refine .inr ⟨rfl, rfl, ?_, hprep, OrderTable.write_config⟩
    have hh := h.table.used_of_findState hf
    have hact := (h.table.findState_iff.1 hf).1
    obtain ⟨ha, hs⟩ := isActive_congr (c.orders.read slot)
      { c.orders.read slot with
        qty := newQty
        pricePageHandle := pr.address.pageHandle
        priceLevelIndex := pr.address.levelIndex
        pricePageIndex := pr.pageIndex } rfl
    rw [hact] at ha
    rw [hh.1] at hs
    refine ⟨h.table.write hh.1 hs, hI, fun x => ?_, fun x => ?_, hlev⟩
    · rw [← h.used_iff]
      exact exists_congr fun s' => OrderTable.holds_write hh.1 hs x
    · rw [h.table.live_write hh hs, update_apply]
      by_cases hx : x = oldId
      · rw [if_pos hx, if_pos hx, if_pos ha]
        exact StateOf.of_roots
          ⟨rfl, h0, hst.locate, hst.side, hst.side_ne, hloc.handle_ne, hloc.root, hloc.price⟩
          fun l q _ _ => congrFun (hroots l) q
      · rw [if_neg hx, if_neg hx]
        exact (h.matching x).of_roots fun l q _ _ => congrFun (hroots l) q

/-- The second half under a new reference, both reservations made. -/
theorem replaceReserved_rekey {c : BookContext} (h : StoresOf c.orders c.prices live used)
    (hcount : c.orders.config.fallbackBucketCount ≠ 0)
    {slot : OrderSlot} (hf : c.orders.findState oldId = some slot) (ho : live oldId = some o)
    (hst : StateOf c.prices (c.orders.read slot) o) (hl : o.locate = c.book.stockLocate)
    {pr : PricePageReservation} {price : UInt64}
    (hloc : Locates c.prices o.locate price.toNat pr.pageIndex pr.address) {newQty : UInt32}
    (h0 : newQty ≠ 0) (hnew : newId ∉ used) {res : OrderSlotReservation}
    (happ : res.result = .applied) (href : res.orderRef = newId)
    (hfits : OrderTable.Fits c.orders.config res)
    (hvac : c.orders.vacant (OrderTable.slotOf res) = true) (timestamp : UInt64) :
    let out := c.replaceReserved slot oldId newId res pr newQty timestamp
    Tombstoned c newId out
      ∧ (c.prices.levelUnchecked pr.address o.side).orderCount.toNat = 2 ^ 32 - 1
    ∨ Carried c { c.book with latestUpdateTimestamp := timestamp }
      (update (update live oldId none) newId (some { o with price := price, qty := newQty }))
      (insert newId used) out := by
  intro out
  have hold := h.used_of_live ho
  have hne : newId ≠ oldId := fun he => hnew (he ▸ hold)
  have hm := hfits.slot_mem
  rw [href] at hm
  simp only [out, BookContext.replaceReserved]
  rw [if_neg hne, OrderTable.commit_of_fits hcount happ hfits hvac, href]
  dsimp only
  rw [if_neg (by simp), hst.ofUInt8_side, hst.qty]
  rcases h.move_ends ho hst hloc h0 with ⟨hmove, hfull⟩ | ⟨prices', hmove, hI, hprep, hroots, hlev⟩
  · obtain ⟨herase, htomb⟩ := tombstoned_of_rollback h hnew hm hvac
      { qty := newQty
        pricePageHandle := pr.address.pageHandle
        priceLevelIndex := pr.address.levelIndex
        locate := c.book.stockLocate
        side := o.side.toUInt8
        flags := 0
        pricePageIndex := pr.pageIndex }
    rw [hmove]
    dsimp only
    rw [if_pos (by simp), if_pos herase]
    exact .inl ⟨htomb, hfull⟩
  · rw [hmove]
    dsimp only
    rw [if_neg (by simp)]
    obtain ⟨hh, hread⟩ := h.holds_place hf hm hvac
      { qty := newQty
        pricePageHandle := pr.address.pageHandle
        priceLevelIndex := pr.address.levelIndex
        locate := c.book.stockLocate
        side := o.side.toUInt8
        flags := 0
        pricePageIndex := pr.pageIndex }
    have hact := (h.table.findState_iff.1 hf).1
    rw [← hread] at hact
    rw [OrderTable.eraseState_of_active hact]
    dsimp only
    rw [if_neg (by simp)]
    refine .inr ⟨rfl, rfl, ?_, hprep, OrderTable.write_config.trans OrderTable.place_config⟩
    exact h.rekey hf hold hnew hm hvac hI hroots
      ⟨rfl, h0, hl.symm, rfl, hst.side_ne, hloc.handle_ne, hloc.root, hloc.price⟩ hlev

/-- A level that is full was there before its page was acquired. -/
theorem store_eq_of_full {prices' : PriceLevelStore} {b : PriceAddress} {side : OrderSide}
    (hside : side ≠ .invalid)
    (hfresh : prices' = prices ∨ ∀ side, side ≠ .invalid → 
      (prices'.levelUnchecked b side).orderCount = 0)
    (hfull : (prices'.levelUnchecked b side).orderCount.toNat = 2 ^ 32 - 1) : prices' = prices := by
  rcases hfresh with hs | hz
  · exact hs
  · rw [hz side hside] at hfull
    cases hfull

/-- A full level has as many live orders as it can count. -/
theorem StoresOf.full (h : StoresOf orders prices live used) {l p : UInt16} {x : ℕ}
    {b : PriceAddress} {side : OrderSide} (hside : side ≠ .invalid) (hloc : Locates prices l x p b)
    (hfull : (prices.levelUnchecked b side).orderCount.toNat = 2 ^ 32 - 1) :
    PointUpdate.total (countAt l side x) live = 2 ^ 32 - 1 := by
  have hlev := (h.levels l side x hside hloc.lt).1
  rw [hloc.levelOf, hfull] at hlev
  exact hlev.symm

theorem replaceOrder_ends {c : BookContext} (h : StoresOf c.orders c.prices live used)
    (hcount : c.orders.config.fallbackBucketCount ≠ 0) (hinv : c.book.localInvalid = false)
    (hprep : c.prices.isBookPrepared c.book.stockLocate = true) (oldId newId newPrice : UInt64)
    (newQty : UInt32) (timestamp : UInt64) :
    let admits := (∃ o, live oldId = some o ∧ o.locate = c.book.stockLocate) ∧ 0 < newQty
      ∧ isValidItchPrice4 newPrice = true ∧ (newId = oldId ∨ newId ∉ used)
    let full := ∃ o, live oldId = some o ∧ PointUpdate.total
      (countAt c.book.stockLocate o.side newPrice.toNat) live = 2 ^ 32 - 1
    let out := c.replaceOrder oldId newId newPrice newQty timestamp
    (∃ e, Refused c e out ∧ (¬ admits ∧ ¬ IsCapacity e
      ∨ admits ∧ IsCapacity e ∧ (e = .orderCountOverflow → newId ∈ used ∧ full)))
    ∨ admits ∧ full ∧ Tombstoned c newId out
    ∨ admits ∧ Carried c { c.book with latestUpdateTimestamp := timestamp }
      (update (update live oldId none) newId
        ((live oldId).map fun o => { o with price := newPrice, qty := newQty }))
      (insert newId used) out := by
  intro admits full out
  have hpos : 0 < newQty ↔ newQty ≠ 0 := UInt32.pos_iff_ne_zero
  simp only [out]
  unfold BookContext.replaceOrder
  rw [if_neg (by simp [hinv])]
  by_cases h1 : newQty = 0
  · rw [if_pos h1]
    exact .inl ⟨_, refused_reject (by simp [Benign]),
      .inl ⟨fun ha => hpos.1 ha.2.1 h1, by simp [IsCapacity]⟩⟩
  rw [if_neg h1]
  by_cases h2 : isValidItchPrice4 newPrice = true
  swap
  · rw [if_pos (by simpa using h2)]
    exact .inl ⟨_, refused_reject (by simp [Benign]),
      .inl ⟨fun ha => h2 ha.2.2.1, by simp [IsCapacity]⟩⟩
  rw [if_neg (by simpa using h2)]
  dsimp only
  rw [stateError_eq h]
  cases hf : c.orders.findState oldId with
  | none =>
    have hnone := h.not_found hf
    rw [hnone]
    refine .inl ⟨_, refused_reject (by simp [Benign]), .inl ⟨?_, by simp [IsCapacity]⟩⟩
    rintro ⟨⟨o, ho, _⟩, _⟩
    rw [hnone] at ho
    cases ho
  | some slot =>
    obtain ⟨o, ho, hst⟩ := h.found hf
    rw [ho]
    dsimp only
    by_cases hl : o.locate = c.book.stockLocate
    swap
    · rw [if_neg hl]
      refine .inl ⟨_, refused_reject (by simp [Benign]), .inl ⟨?_, by simp [IsCapacity]⟩⟩
      rintro ⟨⟨o', ho', hl'⟩, _⟩
      rw [ho, Option.some_inj] at ho'
      exact hl (ho' ▸ hl')
    rw [if_pos hl]
    dsimp only
    have hadm : admits ↔ newId = oldId ∨ newId ∉ used :=
      ⟨fun ha => ha.2.2.2, fun hn => ⟨⟨o, ho, hl⟩, hpos.2 h1, h2, hn⟩⟩
    have hprice := decodeSide_toNat h2
    have hacq := acquire_cases h.store hprep newPrice.toUInt32
    rw [hprice] at hacq
    by_cases hid : newId = oldId
    · subst hid
      have ha : admits := hadm.2 (.inl rfl)
      have hold := h.used_of_live ho
      simp only [ne_eq, not_true_eq_false, if_false, false_and]
      rw [Function.update_idem, Set.insert_eq_of_mem hold, Option.map_some]
      generalize c.prices.reservePrice c.book.stockLocate newPrice.toUInt32 = q at hacq ⊢
      obtain ⟨pr, ps⟩ := q
      dsimp only at hacq ⊢
      rcases hacq with ⟨hres, k, rfl⟩ | ⟨hvalid, rfl, s', hcommit, hI', hg, hloc, hfresh⟩
      · rw [if_pos (by simp [PricePageReservation.valid, hres]), hres]
        exact .inl ⟨_, refused_reject_prices (by simp [Benign]) k,
          .inr ⟨ha, by simp [IsCapacity], by simp⟩⟩
      rw [if_neg (by simp [hvalid]), hcommit]
      dsimp only
      rw [if_neg (by simp)]
      have h' := h.grows hI' hg
      rw [← hl] at hloc
      rcases replaceReserved_self (c := ⟨c.book, c.orders, s'⟩) h' hf ho
        (hst.of_roots hg.rootAt) hloc h1 OrderSlotReservation.init timestamp with
        ⟨hr, hfull⟩ | ⟨hr1, hr2, hr3, hr4, hr5⟩
      · obtain rfl := store_eq_of_full hst.side_ne hfresh hfull
        refine .inl ⟨_, hr, .inr ⟨ha, by simp [IsCapacity], fun _ => ⟨hold, ?_⟩⟩⟩
        exact ⟨o, ho, h'.full hst.side_ne (hl ▸ hloc) hfull⟩
      · exact .inr (.inr ⟨ha, hr1, hr2, hr3, hr4.trans hg.preparedBooks, hr5⟩)
    · have hu := h.used_iff newId
      rw [if_pos hid]
      rcases h.table.reserve_cases newId with ⟨hused, hd⟩ | ⟨hused, happ, href, hfits, hfirst⟩
        | ⟨hused, hcap, _⟩
      · rw [if_pos ⟨hid, by simp [OrderSlotReservation.valid, hd]⟩, hd]
        refine .inl ⟨_, refused_reject (by simp [Benign]), .inl ⟨?_, by simp [IsCapacity]⟩⟩
        rw [hadm]
        exact not_or.2 ⟨hid, not_not.2 (hu.1 hused)⟩
      swap
      · rw [if_pos ⟨hid, by simp [OrderSlotReservation.valid, hcap]⟩, hcap]
        exact .inl ⟨_, refused_reject (by simp [Benign]),
          .inr ⟨hadm.2 (.inr (hu.not.1 hused)), by simp [IsCapacity], by simp⟩⟩
      have hnew := hu.not.1 hused
      have ha : admits := hadm.2 (.inr hnew)
      rw [if_neg (by simp [OrderSlotReservation.valid, happ]), Option.map_some]
      generalize c.prices.reservePrice c.book.stockLocate newPrice.toUInt32 = q at hacq ⊢
      obtain ⟨pr, ps⟩ := q
      dsimp only at hacq ⊢
      rcases hacq with ⟨hres, k, rfl⟩ | ⟨hvalid, rfl, s', hcommit, hI', hg, hloc, hfresh⟩
      · rw [if_pos (by simp [PricePageReservation.valid, hres]), hres]
        exact .inl ⟨_, refused_reject_prices (by simp [Benign]) k,
          .inr ⟨ha, by simp [IsCapacity], by simp⟩⟩
      rw [if_neg (by simp [hvalid]), hcommit]
      dsimp only
      rw [if_neg (by simp)]
      have h' := h.grows hI' hg
      rw [← hl] at hloc
      rcases replaceReserved_rekey (c := ⟨c.book, c.orders, s'⟩) h' hcount hf ho
        (hst.of_roots hg.rootAt) hl hloc h1 hnew happ href hfits (List.find?_some hfirst)
        timestamp with ⟨hr, hfull⟩ | ⟨hr1, hr2, hr3, hr4, hr5⟩
      · obtain rfl := store_eq_of_full hst.side_ne hfresh hfull
        exact .inr (.inl ⟨ha, ⟨o, ho, h'.full hst.side_ne (hl ▸ hloc) hfull⟩, hr⟩)
      · exact .inr (.inr ⟨ha, hr1, hr2, hr3, hr4.trans hg.preparedBooks, hr5⟩)

end AstraFeed
