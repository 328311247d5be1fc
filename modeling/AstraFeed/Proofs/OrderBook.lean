import AstraFeed.Proofs.BookModel

/-!
# How an operation on a book ends

Under the refinement every operation either is refused and leaves the stores and the book as they
were, or is applied and carries the model's order changes out; the results that stand for a damaged
book are never returned.
-/

namespace AstraFeed

open Function PriceLevelStore BookModel OrderBook

/-- A result that does not mark the book as damaged. -/
def Benign (e : MutationResult) : Prop :=
  e ≠ .applied ∧ e ≠ .quantityOverflow ∧ e ≠ .quantityUnderflow ∧ e ≠ .invalidPricePage
    ∧ e ≠ .missingPriceLevel ∧ e ≠ .staleReservation ∧ e ≠ .invariantViolation ∧ e ≠ .bookInvalid

/-- Only counters of failures differ. -/
def SameBut (c c' : BookContext) : Prop :=
  ∃ n k, c' = ⟨{ c.book with allocationFailures := n }, c.orders,
    { c.prices with pageCapacityFailures := k }⟩

/-- The operation was refused with `e`, and only counters of failures differ. -/
def Refused (c : BookContext) (e : MutationResult) (out : MutationResult × BookContext) : Prop :=
  out.1 = e ∧ e ≠ .applied ∧ SameBut c out.2

/-- The operation was applied: the descriptor is `book`, and the stores stand for the orders. -/
def Carried (c : BookContext) (book : OrderBook) (live : UInt64 → Option ModelOrder)
    (used : Set UInt64) (out : MutationResult × BookContext) : Prop :=
  out.1 = .applied ∧ out.2.book = book ∧ StoresOf out.2.orders out.2.prices live used
    ∧ out.2.prices.preparedBooks = c.prices.preparedBooks ∧ out.2.orders.config = c.orders.config

section Refusals

variable {c : BookContext} {e : MutationResult}

theorem reject_eq (he : Benign e) :
    ∃ n, c.reject e = (e, { c with book := { c.book with allocationFailures := n } }) := by
  obtain ⟨_, h2, h3, h4, h5, h6, h7, h8⟩ := he
  unfold BookContext.reject
  simp only [h2, h3, h4, h5, h6, h7, h8, or_self, if_false]
  exact ⟨_, rfl⟩

theorem refused_reject (he : Benign e) : Refused c e (c.reject e) := by
  obtain ⟨n, hn⟩ := reject_eq (c := c) he
  rw [hn]
  exact ⟨rfl, he.1, n, c.prices.pageCapacityFailures, rfl⟩

theorem refused_reject_prices (he : Benign e) (k : UInt64) :
    Refused c e (BookContext.reject
      { c with prices := { c.prices with pageCapacityFailures := k } } e) := by
  obtain ⟨n, hn⟩ := reject_eq
    (c := { c with prices := { c.prices with pageCapacityFailures := k } }) he
  rw [hn]
  exact ⟨rfl, he.1, n, k, rfl⟩

end Refusals

section Found

variable {orders : OrderTable} {prices : PriceLevelStore} {live : UInt64 → Option ModelOrder}
  {used : Set UInt64} {r : UInt64} {slot : OrderSlot}

theorem StoresOf.found (h : StoresOf orders prices live used)
    (hf : orders.findState r = some slot) :
    ∃ o, live r = some o ∧ StateOf prices (orders.read slot) o := by
  have hm := h.matching r
  rw [OrderTable.live, hf, Option.map_some] at hm
  exact hm.some_left

theorem StoresOf.not_found (h : StoresOf orders prices live used)
    (hf : orders.findState r = none) : live r = none := by
  have hm := h.matching r
  rw [OrderTable.live, hf, Option.map_none] at hm
  exact hm.none_left

theorem StoresOf.live_of_unused (h : StoresOf orders prices live used) (hr : r ∉ used) :
    live r = none :=
  h.not_found (h.table.findState_eq_none ((h.used_iff r).not.2 hr))

theorem StoresOf.used_of_live (h : StoresOf orders prices live used) {o : ModelOrder}
    (hr : live r = some o) : r ∈ used := by
  by_contra hn
  rw [h.live_of_unused hn] at hr
  cases hr

end Found

/-! ## Adding -/

section Add

variable {c : BookContext} {live : UInt64 → Option ModelOrder} {used : Set UInt64}

theorem decodeSide_toNat {price : UInt64} (h : isValidItchPrice4 price = true) :
    price.toUInt32.toNat = price.toNat := by
  simp only [isValidItchPrice4, decide_eq_true_eq, UInt64.le_iff_toNat_le] at h
  rw [UInt64.toNat_toUInt32]
  have : kMaxItchPrice4.toUInt64.toNat = 2000000000 := rfl
  omega

theorem StoresOf.grows {orders : OrderTable} {prices prices' : PriceLevelStore}
    (h : StoresOf orders prices live used) (hI : prices'.StoreInv) (hg : Grows prices prices') :
    StoresOf orders prices' live used :=
  ⟨h.table, hI, h.used_iff, fun r => (h.matching r).of_roots hg.rootAt, h.levels.grows hg⟩

theorem LevelsOf.add {prices : PriceLevelStore} (h : LevelsOf prices live) (hI : prices.ArenaInv)
    {l p : UInt16} {side : OrderSide} {price : UInt64} {a : PriceAddress}
    (hloc : Locates prices l price.toNat p a) {qty : UInt32} (hadd : CanAdd prices a side qty)
    {r : UInt64} (hnone : live r = none) :
    LevelsOf (prices.addValidated a side qty)
      (Function.update live r (some ⟨l, side, price, qty⟩)) := by
  have hf := addValidated_onlyAt (s := prices) (a := a) qty hadd.side_ne
  rw [(hloc.committed hI).2.1] at hf
  refine h.update hI hloc hf (by rw [hnone]; simp) ?_ ?_ ?_
  · rintro o ⟨⟩
    exact ⟨rfl, rfl, rfl⟩
  · have hlt := (prices.levelUnchecked a side).orderCount.toNat_lt
    have := hadd.count
    rw [levelUnchecked_addValidated qty hadd.side_ne, hnone, UInt32.toNat_add,
      show (1 : UInt32).toNat = 1 from rfl]
    simp only [countAt, ModelOrder.AtLevel, and_self, if_true]
    omega
  · rw [levelUnchecked_addValidated qty hadd.side_ne, hnone, qty_add_toNat hadd.total]
    simp [qtyAt, ModelOrder.AtLevel]

/-- A new order at a level with room for it. -/
theorem StoresOf.place {orders : OrderTable} {prices : PriceLevelStore}
    (h : StoresOf orders prices live used) {r : UInt64} (hr : r ∉ used) {slot : OrderSlot}
    (hm : slot ∈ OrderTable.slotsOf orders.config r) (hvac : orders.vacant slot = true)
    {l p : UInt16} {side : OrderSide} {price : UInt64} {a : PriceAddress}
    (hloc : Locates prices l price.toNat p a) {qty : UInt32}
    (hadd : CanAdd prices a side qty) {st : OrderState}
    (hst : StateOf prices st ⟨l, side, price, qty⟩) :
    StoresOf (orders.place slot r (OrderTable.committed st)) (prices.addValidated a side qty)
      (update live r (some ⟨l, side, price, qty⟩)) (insert r used) := by
  have hu : ¬ orders.Used r := (h.used_iff r).not.2 hr
  have hs := OrderTable.wasSeen_committed st
  have hnone := h.live_of_unused hr
  obtain ⟨_, hlo, _⟩ := hloc.committed h.store.arena
  have hf := addValidated_onlyAt (s := prices) (a := a) qty hadd.side_ne
  rw [hlo] at hf
  have hroots : ∀ l q, q < kPricePartCount → prices.rootAt l q ≠ kInvalidPricePageHandle →
      (prices.addValidated a side qty).rootAt l q = prices.rootAt l q :=
    fun l q _ _ => congrFun (hf.rootAt l) q
  refine ⟨h.table.place hm hu hs, h.store.addValidated hadd.side_ne hadd.committed hadd.qty_ne
    hadd.count hadd.total, fun x => ?_, fun x => ?_, ?_⟩
  · rw [OrderTable.used_place hm hs hvac, h.used_iff, Set.mem_insert_iff]
  · rw [h.table.live_place hm hu hvac, update_apply]
    split_ifs
    · exact StateOf.of_roots
        ⟨hst.qty, hst.qty_ne, hst.locate, hst.side, hst.side_ne, hst.handle_ne, hst.root,
          hst.price⟩ hroots
    · exact (h.matching x).of_roots hroots
  · exact h.levels.add h.store.arena hloc hadd hnone

theorem addOrder_ends (h : StoresOf c.orders c.prices live used)
    (hcount : c.orders.config.fallbackBucketCount ≠ 0) (hinv : c.book.localInvalid = false)
    (hprep : c.prices.isBookPrepared c.book.stockLocate = true) (orderId price : UInt64)
    (qty : UInt32) (side : UInt8) (timestamp : UInt64) :
    let admits := decodeSide side ≠ .invalid ∧ 0 < qty ∧ isValidItchPrice4 price = true
      ∧ orderId ∉ used
    let out := c.addOrder orderId price qty side timestamp
    (∃ e, Refused c e out ∧ (¬ admits ∧ ¬ IsCapacity e
      ∨ admits ∧ IsCapacity e ∧ (e = .orderCountOverflow → PointUpdate.total
        (countAt c.book.stockLocate (decodeSide side) price.toNat) live = 2 ^ 32 - 1)))
    ∨ admits ∧ Carried c { c.book with
        liveOrderCount := c.book.liveOrderCount + 1
        latestUpdateTimestamp := timestamp }
      (update live orderId (some ⟨c.book.stockLocate, decodeSide side, price, qty⟩))
      (insert orderId used) out := by
  intro admits out
  have hpos : 0 < qty ↔ qty ≠ 0 := UInt32.pos_iff_ne_zero
  simp only [out]
  unfold BookContext.addOrder
  rw [if_neg (by simp [hinv]), if_neg (by simp [hprep])]
  dsimp only
  by_cases h1 : decodeSide side = .invalid
  · rw [if_pos h1]
    exact .inl ⟨_, refused_reject (by simp [Benign]), .inl ⟨fun ha => ha.1 h1, by simp [IsCapacity]⟩⟩
  rw [if_neg h1]
  by_cases h2 : qty = 0
  · rw [if_pos h2]
    exact .inl ⟨_, refused_reject (by simp [Benign]),
      .inl ⟨fun ha => hpos.1 ha.2.1 h2, by simp [IsCapacity]⟩⟩
  rw [if_neg h2]
  by_cases h3 : isValidItchPrice4 price = true
  swap
  · rw [if_pos (by simpa using h3)]
    exact .inl ⟨_, refused_reject (by simp [Benign]),
      .inl ⟨fun ha => h3 ha.2.2.1, by simp [IsCapacity]⟩⟩
  rw [if_neg (by simpa using h3)]
  rcases h.table.reserve_cases orderId with ⟨hu, hd⟩ | ⟨hu, happ, href, hfits, hfirst⟩
    | ⟨hu, hcap, _⟩
  · rw [if_pos (by simp [OrderSlotReservation.valid, hd]), hd]
    exact .inl ⟨_, refused_reject (by simp [Benign]),
      .inl ⟨fun ha => ha.2.2.2 ((h.used_iff orderId).1 hu), by simp [IsCapacity]⟩⟩
  swap
  · have ha : admits := ⟨h1, hpos.2 h2, h3, (h.used_iff orderId).not.1 hu⟩
    rw [if_pos (by simp [OrderSlotReservation.valid, hcap]), hcap]
    exact .inl ⟨_, refused_reject (by simp [Benign]),
      .inr ⟨ha, by simp [IsCapacity], by simp⟩⟩
  have ha : admits := ⟨h1, hpos.2 h2, h3, (h.used_iff orderId).not.1 hu⟩
  rw [if_neg (by simp [OrderSlotReservation.valid, happ])]
  have hprice := decodeSide_toNat h3
  have hacq := acquire_cases h.store hprep price.toUInt32
  rw [hprice] at hacq
  generalize c.prices.reservePrice c.book.stockLocate price.toUInt32 = q at hacq ⊢
  obtain ⟨pr, ps⟩ := q
  dsimp only at hacq ⊢
  rcases hacq with ⟨hres, k, rfl⟩ | ⟨hvalid, rfl, s', hcommit, hI', hg, hloc, hnew⟩
  · rw [if_pos (by simp [PricePageReservation.valid, hres]), hres]
    exact .inl ⟨_, refused_reject_prices (by simp [Benign]) k,
      .inr ⟨ha, by simp [IsCapacity], by simp⟩⟩
  rw [if_neg (by simp [hvalid]), hcommit]
  dsimp only
  rw [if_neg (by simp)]
  have h' := h.grows hI' hg
  have hcom := (hloc.committed hI'.arena).1
  by_cases hfull : (s'.levelUnchecked pr.address (decodeSide side)).orderCount.toNat = 2 ^ 32 - 1
  · -- the page was there before, since its level is not empty
    have hs' : s' = c.prices := by
      rcases hnew with hs | hz
      · exact hs
      · rw [hz _ h1] at hfull
        cases hfull
    have hadd : s'.add pr.address (decodeSide side) qty = (.orderCountOverflow, s') := by
      unfold PriceLevelStore.add
      dsimp only
      rw [validateAdd_eq hI' h1 hcom, if_neg h2, if_pos hfull, if_pos (by simp)]
    rw [hadd]
    dsimp only
    rw [if_pos (by simp), hs']
    refine .inl ⟨_, refused_reject (by simp [Benign]), .inr ⟨ha, by simp [IsCapacity], fun _ => ?_⟩⟩
    have hlev := (h'.levels c.book.stockLocate (decodeSide side) _ h1 hloc.lt).1
    rw [hloc.levelOf, hfull] at hlev
    exact hlev.symm
  · have hcan : CanAdd s' pr.address (decodeSide side) qty :=
      ⟨h1, hcom, h2, hfull, h'.total_lt hloc h1 hfull qty⟩
    have hvac : c.orders.vacant (OrderTable.slotOf (c.orders.reserve orderId)) = true :=
      List.find?_some hfirst
    rw [add_of_canAdd hI' hcan]
    dsimp only
    rw [if_neg (by simp), OrderTable.commit_of_fits hcount happ hfits hvac, href]
    dsimp only
    rw [if_neg (by simp)]
    have hm := hfits.slot_mem
    rw [href] at hm
    refine .inr ⟨ha, rfl, rfl, h'.place ha.2.2.2 hm hvac hloc hcan ?_, ?_,
      OrderTable.place_config⟩
    · exact ⟨rfl, h2, rfl, rfl, h1, hloc.handle_ne, hloc.root, hloc.price⟩
    · exact (addValidated_onlyAt qty h1).preparedBooks.trans hg.preparedBooks

end Add

/-! ## Taking shares off an order -/

section Reduce

variable {c : BookContext} {live : UInt64 → Option ModelOrder} {used : Set UInt64}

theorem isActive_congr (st st' : OrderState) (h : st'.flags = st.flags) :
    isActive st' = isActive st ∧ wasSeen st' = wasSeen st := by
  simp only [isActive, wasSeen, h, and_self]

variable {orders : OrderTable} {prices : PriceLevelStore} {r : UInt64} {slot : OrderSlot}
  {o : ModelOrder}

/-- A live order keeps some of its shares. -/
theorem StoresOf.reduce (h : StoresOf orders prices live used)
    (hf : orders.findState r = some slot) (ho : live r = some o)
    (hst : StateOf prices (orders.read slot) o) {qty : UInt32} (hlt : qty < o.qty) :
    StoresOf (orders.write slot { orders.read slot with qty := o.qty - qty })
      (prices.setLevel (addressOf (orders.read slot)) o.side
        { prices.levelUnchecked (addressOf (orders.read slot)) o.side with
          totalQty := (prices.levelUnchecked (addressOf (orders.read slot)) o.side).totalQty
            - qty.toUInt64 })
      (update live r (some { o with qty := o.qty - qty })) used := by
  have hh := h.table.used_of_findState hf
  have hact := (h.table.findState_iff.1 hf).1
  have hcan := h.canErase ho hst
  have hloc := hst.locates
  have hlt' : qty.toNat < o.qty.toNat := UInt32.lt_iff_toNat_lt.1 hlt
  have hsub : (o.qty - qty).toNat = o.qty.toNat - qty.toNat :=
    UInt32.toNat_sub_of_le _ _ (UInt32.le_of_lt hlt)
  have hne : o.qty - qty ≠ 0 := by
    rw [qty_ne_zero, hsub]
    omega
  have hle := UInt64.le_iff_toNat_le.1 hcan.le
  rw [UInt32.toNat_toUInt64] at hle
  have htot : ((prices.levelUnchecked (addressOf (orders.read slot)) o.side).totalQty
      - qty.toUInt64).toNat
      = (prices.levelUnchecked (addressOf (orders.read slot)) o.side).totalQty.toNat
        - qty.toNat := by
    rw [UInt64.toNat_sub_of_le, UInt32.toNat_toUInt64]
    rw [UInt64.le_iff_toNat_le, UInt32.toNat_toUInt64]
    omega
  obtain ⟨ha, hs⟩ := isActive_congr (orders.read slot)
    { orders.read slot with qty := o.qty - qty } rfl
  rw [hact] at ha
  rw [hh.1] at hs
  obtain ⟨hcom, _, _⟩ := hloc.committed h.store.arena
  refine ⟨h.table.write hh.1 hs, h.store.setLevel hst.side_ne hcom hcan.count hcan.count ?_,
    fun x => ?_, fun x => ?_, ?_⟩
  · intro h0
    rw [← UInt64.toNat_inj, htot, show (0 : UInt64).toNat = 0 from rfl] at h0
    omega
  · rw [← h.used_iff]
    exact exists_congr fun s' => OrderTable.holds_write hh.1 hs x
  · rw [h.table.live_write hh hs, update_apply]
    by_cases hx : x = r
    · rw [if_pos hx, if_pos hx, if_pos ha]
      exact ⟨rfl, hne, hst.locate, hst.side, hst.side_ne, hst.handle_ne, hst.root, hst.price⟩
    · rw [if_neg hx, if_neg hx]
      exact (h.matching x).of_roots fun _ _ _ _ => rfl
  · refine h.levels.update h.store.arena hloc (setLevel_onlyAt _ _ hst.side_ne) ?_ ?_ ?_ ?_
    · rw [ho]
      rintro o' ⟨⟩
      exact hst.atLevel
    · rintro o' ⟨⟩
      exact ⟨rfl, rfl, rfl⟩
    · rw [levelUnchecked_setLevel hst.side_ne, ho]
      simp [countAt, ModelOrder.AtLevel]
    · rw [levelUnchecked_setLevel hst.side_ne, ho]
      simp only [qtyAt, ModelOrder.AtLevel, and_self, if_true, htot, hsub]
      omega

theorem StoresOf.levels_erase (h : StoresOf orders prices live used) (ho : live r = some o)
    {st : OrderState} (hst : StateOf prices st o) (plan : DeactivationPlan) :
    LevelsOf (prices.eraseValidated (addressOf st) o.side o.qty plan) (update live r none) := by
  have hcan := h.canErase ho hst
  have hloc := hst.locates
  have honly := eraseValidated_onlyAt (s := prices) (a := addressOf st) o.qty plan hst.side_ne
  rw [(hloc.committed h.store.arena).2.1] at honly
  refine h.levels.update h.store.arena hloc honly ?_ (by rintro o' ⟨⟩) ?_ ?_
  · rw [ho]
    rintro o' ⟨⟩
    exact hst.atLevel
  · have hpos := qty_ne_zero.1 hcan.count
    have hle : 1 ≤ (prices.levelUnchecked (addressOf st) o.side).orderCount := by
      rw [UInt32.le_iff_toNat_le]
      exact hpos
    rw [levelUnchecked_eraseValidated o.qty plan hst.side_ne, ho, UInt32.toNat_sub_of_le _ _ hle,
      show (1 : UInt32).toNat = 1 from rfl]
    simp only [countAt, ModelOrder.AtLevel, and_self, if_true]
    omega
  · have hle := UInt64.le_iff_toNat_le.1 hcan.le
    rw [UInt32.toNat_toUInt64] at hle
    rw [levelUnchecked_eraseValidated o.qty plan hst.side_ne, ho,
      UInt64.toNat_sub_of_le _ _ hcan.le, UInt32.toNat_toUInt64]
    simp only [qtyAt, ModelOrder.AtLevel, and_self, if_true]
    omega

/-- A live order goes. -/
theorem StoresOf.remove (h : StoresOf orders prices live used)
    (hf : orders.findState r = some slot) (ho : live r = some o)
    (hst : StateOf prices (orders.read slot) o) {plan : DeactivationPlan}
    (hplan : prices.validateErase (addressOf (orders.read slot)) o.side o.qty = .ok plan) :
    StoresOf (orders.write slot OrderTable.tombstone)
      (prices.eraseValidated (addressOf (orders.read slot)) o.side o.qty plan)
      (update live r none) used := by
  have hh := h.table.used_of_findState hf
  have hs : wasSeen OrderTable.tombstone = true := by decide
  have ha : isActive OrderTable.tombstone = false := by decide
  have hcan := h.canErase ho hst
  have hloc := hst.locates
  obtain ⟨hcom, hlo, _⟩ := hloc.committed h.store.arena
  have honly := eraseValidated_onlyAt (s := prices) (a := addressOf (orders.read slot)) o.qty plan
    hst.side_ne
  rw [hlo] at honly
  refine ⟨h.table.write hh.1 hs, h.store.erasePlanned hplan, fun x => ?_, fun x => ?_, ?_⟩
  · rw [← h.used_iff]
    exact exists_congr fun s' => OrderTable.holds_write hh.1 hs x
  · rw [h.table.live_write hh hs, update_apply]
    by_cases hx : x = r
    · rw [if_pos hx, if_pos hx, if_neg (by simp [ha])]
      trivial
    · rw [if_neg hx, if_neg hx]
      exact (h.matching x).of_roots fun l q _ _ => congrFun (honly.rootAt l) q
  · exact h.levels_erase ho hst plan

end Reduce

section Shares

variable {c : BookContext} {live : UInt64 → Option ModelOrder} {used : Set UInt64}

/-- The state of a live order of the book passes the book's own checks. -/
theorem StateOf.checks {prices : PriceLevelStore} {st : OrderState} {o : ModelOrder}
    (h : StateOf prices st o) : ¬ (OrderSide.ofUInt8 st.side = .invalid ∨ st.qty = 0
      ∨ (!(addressOf st).valid) = true) := by
  rw [h.ofUInt8_side, h.qty]
  simp only [not_or, Bool.not_eq_true', Bool.not_eq_false, PriceAddress.valid, bne_iff_ne]
  exact ⟨h.side_ne, h.qty_ne, h.handle_ne⟩

/-- Part of an order goes, by a cancel or an execution. -/
theorem reduce_carried (h : StoresOf c.orders c.prices live used) {orderId : UInt64}
    {slot : OrderSlot} (hf : c.orders.findState orderId = some slot) {o : ModelOrder}
    (ho : live orderId = some o) (hst : StateOf c.prices (c.orders.read slot) o)
    (hl : o.locate = c.book.stockLocate) {qty : UInt32} (h0 : qty ≠ 0) (hlt : qty < o.qty)
    (timestamp : UInt64) :
    let st := c.orders.read slot
    let q := c.prices.reduceChecked c.book.stockLocate st.pricePageIndex (addressOf st)
      (OrderSide.ofUInt8 st.side) st.qty qty
    q.1 = .applied ∧ Carried c { c.book with latestUpdateTimestamp := timestamp }
      (update live orderId (reduced o qty)) used
      (.applied, ⟨{ c.book with latestUpdateTimestamp := timestamp },
        c.orders.write slot { st with qty := st.qty - qty }, q.2⟩) := by
  intro st q
  have hred := reduceChecked_of_canErase h.store (hl ▸ hst.locates) (h.canErase ho hst) h0 hlt
  have hq : q = c.prices.reduceChecked c.book.stockLocate st.pricePageIndex (addressOf st) o.side
      o.qty qty := by
    simp only [q, st, hst.ofUInt8_side, hst.qty]
  have hne : reduced o qty = some { o with qty := o.qty - qty } :=
    if_neg (UInt32.ne_of_lt hlt)
  rw [hq, hred]
  refine ⟨rfl, rfl, rfl, ?_, rfl, OrderTable.write_config⟩
  rw [hne]
  simp only [st]
  rw [hst.qty]
  exact h.reduce hf ho hst hlt

/-- An order goes, by a delete or an execution of all of it. -/
theorem remove_carried (h : StoresOf c.orders c.prices live used) {orderId : UInt64}
    {slot : OrderSlot} (hf : c.orders.findState orderId = some slot) {o : ModelOrder}
    (ho : live orderId = some o) (hst : StateOf c.prices (c.orders.read slot) o)
    (timestamp : UInt64) :
    let st := c.orders.read slot
    let q := c.prices.erase (addressOf st) (OrderSide.ofUInt8 st.side) st.qty
    let t := c.orders.eraseState (some slot)
    let book := { c.book with
      liveOrderCount := c.book.liveOrderCount - 1
      latestUpdateTimestamp := timestamp }
    q.1 = .applied ∧ t.1 = .applied
      ∧ Carried c book (update live orderId none) used (.applied, ⟨book, t.2, q.2⟩) := by
  intro st q t book
  obtain ⟨plan, hplan, herase⟩ := erase_of_canErase h.store (h.canErase ho hst)
  have hq : q = c.prices.erase (addressOf st) o.side o.qty := by
    simp only [q, st, hst.ofUInt8_side, hst.qty]
  have ht : t = (.applied, c.orders.write slot OrderTable.tombstone) :=
    OrderTable.eraseState_of_active (h.table.findState_iff.1 hf).1
  rw [hq, herase, ht]
  refine ⟨rfl, rfl, rfl, rfl, h.remove hf ho hst hplan, ?_, OrderTable.write_config⟩
  exact (eraseValidated_onlyAt o.qty plan hst.side_ne).preparedBooks

theorem cancelShares_ends (h : StoresOf c.orders c.prices live used)
    (hinv : c.book.localInvalid = false) (orderId : UInt64) (qty : UInt32) (timestamp : UInt64) :
    let admits := ∃ o, live orderId = some o ∧ o.locate = c.book.stockLocate ∧ 0 < qty
      ∧ qty < o.qty
    let out := c.cancelShares orderId qty timestamp
    (∃ e, Refused c e out ∧ ¬ admits ∧ ¬ IsCapacity e)
    ∨ admits ∧ Carried c { c.book with latestUpdateTimestamp := timestamp }
      (update live orderId ((live orderId).bind (reduced · qty))) used out := by
  intro admits out
  have hpos : 0 < qty ↔ qty ≠ 0 := UInt32.pos_iff_ne_zero
  simp only [out]
  unfold BookContext.cancelShares
  rw [if_neg (by simp [hinv])]
  by_cases h0 : qty = 0
  · rw [if_pos h0]
    refine .inl ⟨_, refused_reject (by simp [Benign]), ?_, by simp [IsCapacity]⟩
    rintro ⟨o, _, _, hq, _⟩
    exact hpos.1 hq h0
  rw [if_neg h0]
  cases hf : c.orders.findState orderId with
  | none =>
    refine .inl ⟨_, refused_reject (by simp [Benign]), ?_, by simp [IsCapacity]⟩
    rintro ⟨o, ho, _⟩
    rw [h.not_found hf] at ho
    cases ho
  | some slot =>
    obtain ⟨o, ho, hst⟩ := h.found hf
    have hadm : admits ↔ o.locate = c.book.stockLocate ∧ qty < o.qty := by
      simp only [admits, ho, Option.some_inj, exists_eq_left', hpos, ne_eq, h0, not_false_eq_true,
        true_and]
    dsimp only
    by_cases hl : o.locate = c.book.stockLocate
    swap
    · rw [if_pos (by rwa [hst.locate])]
      exact .inl ⟨_, refused_reject (by simp [Benign]), fun ha => hl (hadm.1 ha).1,
        by simp [IsCapacity]⟩
    rw [if_neg (by rw [hst.locate]; exact not_not.2 hl), if_neg hst.checks]
    by_cases hle : (c.orders.read slot).qty ≤ qty
    · rw [if_pos hle, if_neg (by simp [(hl ▸ hst.locates).ownsAddress h.store.arena])]
      refine .inl ⟨_, refused_reject (by simp [Benign]), fun ha => ?_, by simp [IsCapacity]⟩
      rw [hst.qty] at hle
      exact absurd (hadm.1 ha).2 (UInt32.not_lt.2 hle)
    · have hlt : qty < o.qty := by rwa [hst.qty, UInt32.not_le] at hle
      obtain ⟨hres, hcar⟩ := reduce_carried h hf ho hst hl h0 hlt timestamp
      rw [if_neg hle, if_neg (by simp [hres])]
      refine .inr ⟨hadm.2 ⟨hl, hlt⟩, ?_⟩
      rw [ho, Option.bind_some]
      exact hcar

theorem executeOrder_ends (h : StoresOf c.orders c.prices live used)
    (hinv : c.book.localInvalid = false) (orderId : UInt64) (qty : UInt32) (timestamp : UInt64) :
    let admits := ∃ o, live orderId = some o ∧ o.locate = c.book.stockLocate ∧ 0 < qty
      ∧ qty ≤ o.qty
    let out := c.executeOrder orderId qty timestamp
    (∃ e, Refused c e out ∧ ¬ admits ∧ ¬ IsCapacity e)
    ∨ admits ∧ ∃ n, Carried c { c.book with
        liveOrderCount := n
        latestUpdateTimestamp := timestamp }
      (update live orderId ((live orderId).bind (reduced · qty))) used out
      ∧ n = if (live orderId).bind (reduced · qty) = none then c.book.liveOrderCount - 1
        else c.book.liveOrderCount := by
  intro admits out
  have hpos : 0 < qty ↔ qty ≠ 0 := UInt32.pos_iff_ne_zero
  simp only [out]
  unfold BookContext.executeOrder
  rw [if_neg (by simp [hinv])]
  by_cases h0 : qty = 0
  · rw [if_pos h0]
    refine .inl ⟨_, refused_reject (by simp [Benign]), ?_, by simp [IsCapacity]⟩
    rintro ⟨o, _, _, hq, _⟩
    exact hpos.1 hq h0
  rw [if_neg h0]
  cases hf : c.orders.findState orderId with
  | none =>
    refine .inl ⟨_, refused_reject (by simp [Benign]), ?_, by simp [IsCapacity]⟩
    rintro ⟨o, ho, _⟩
    rw [h.not_found hf] at ho
    cases ho
  | some slot =>
    obtain ⟨o, ho, hst⟩ := h.found hf
    have hadm : admits ↔ o.locate = c.book.stockLocate ∧ qty ≤ o.qty := by
      simp only [admits, ho, Option.some_inj, exists_eq_left', hpos, ne_eq, h0, not_false_eq_true,
        true_and]
    dsimp only
    by_cases hl : o.locate = c.book.stockLocate
    swap
    · rw [if_pos (by rwa [hst.locate])]
      exact .inl ⟨_, refused_reject (by simp [Benign]), fun ha => hl (hadm.1 ha).1,
        by simp [IsCapacity]⟩
    have howns := (hl ▸ hst.locates).ownsAddress h.store.arena
    rw [if_neg (by rw [hst.locate]; exact not_not.2 hl), if_neg hst.checks]
    by_cases hgt : (c.orders.read slot).qty < qty
    · rw [if_pos hgt, if_neg (by simp [howns])]
      refine .inl ⟨_, refused_reject (by simp [Benign]), fun ha => ?_, by simp [IsCapacity]⟩
      rw [hst.qty] at hgt
      exact absurd (hadm.1 ha).2 (UInt32.not_le.2 hgt)
    have hle : qty ≤ o.qty := by rwa [hst.qty, UInt32.not_lt] at hgt
    rw [if_neg hgt, ho, Option.bind_some]
    by_cases heq : qty = o.qty
    · obtain ⟨hres, htab, hcar⟩ := remove_carried h hf ho hst timestamp
      have hnone : reduced o qty = none := if_pos heq
      rw [if_pos (by rw [hst.qty]; exact heq), if_neg (by simp [howns]), if_neg (by simp [hres]),
        if_neg (by simp [htab]), hnone, if_pos rfl]
      exact .inr ⟨hadm.2 ⟨hl, hle⟩, _, hcar, rfl⟩
    · have hlt : qty < o.qty := UInt32.lt_of_le_of_ne hle heq
      have hsome : reduced o qty ≠ none := by simp [reduced, heq]
      obtain ⟨hres, hcar⟩ := reduce_carried h hf ho hst hl h0 hlt timestamp
      rw [if_neg (by rw [hst.qty]; exact heq), if_neg (by simp [hres]), if_neg hsome]
      exact .inr ⟨hadm.2 ⟨hl, hle⟩, _, hcar, rfl⟩

/-- What `validateState` says of a looked-up order. -/
theorem stateError_eq (h : StoresOf c.orders c.prices live used) {r : UInt64} :
    c.stateError (c.orders.findState r) =
      match live r with
      | none => some .orderNotFound
      | some o => if o.locate = c.book.stockLocate then none else some .locateMismatch := by
  cases hf : c.orders.findState r with
  | none =>
    rw [h.not_found hf]
    rfl
  | some slot =>
    obtain ⟨o, ho, hst⟩ := h.found hf
    have hchecks : ¬ (OrderSide.ofUInt8 (c.orders.read slot).side = .invalid
        ∨ (c.orders.read slot).qty = 0
        ∨ (c.orders.read slot).pricePageHandle = kInvalidPricePageHandle) := by
      rw [hst.ofUInt8_side, hst.qty]
      exact not_or.2 ⟨hst.side_ne, not_or.2 ⟨hst.qty_ne, hst.handle_ne⟩⟩
    rw [ho]
    simp only [BookContext.stateError, hst.locate]
    by_cases hl : o.locate = c.book.stockLocate
    · rw [if_neg (not_not.2 hl), if_neg hchecks,
        if_neg (by simp [(hl ▸ hst.locates).ownsAddress h.store.arena]), if_pos hl]
    · rw [if_pos hl, if_neg hl]

theorem deleteOrder_ends (h : StoresOf c.orders c.prices live used)
    (hinv : c.book.localInvalid = false) (orderId timestamp : UInt64) :
    let admits := ∃ o, live orderId = some o ∧ o.locate = c.book.stockLocate
    let out := c.deleteOrder orderId timestamp
    (∃ e, Refused c e out ∧ ¬ admits ∧ ¬ IsCapacity e)
    ∨ admits ∧ Carried c { c.book with
        liveOrderCount := c.book.liveOrderCount - 1
        latestUpdateTimestamp := timestamp } (update live orderId none) used out := by
  intro admits out
  simp only [out]
  unfold BookContext.deleteOrder
  rw [if_neg (by simp [hinv])]
  dsimp only
  rw [stateError_eq h]
  cases hf : c.orders.findState orderId with
  | none =>
    have hnone := h.not_found hf
    rw [hnone]
    refine .inl ⟨_, refused_reject (by simp [Benign]), ?_, by simp [IsCapacity]⟩
    rintro ⟨o, ho, _⟩
    rw [hnone] at ho
    cases ho
  | some slot =>
    obtain ⟨o, ho, hst⟩ := h.found hf
    have hadm : admits ↔ o.locate = c.book.stockLocate := by
      simp only [admits, ho, Option.some_inj, exists_eq_left']
    rw [ho]
    dsimp only
    by_cases hl : o.locate = c.book.stockLocate
    swap
    · rw [if_neg hl]
      exact .inl ⟨_, refused_reject (by simp [Benign]), fun ha => hl (hadm.1 ha),
        by simp [IsCapacity]⟩
    rw [if_pos hl]
    obtain ⟨hres, htab, hcar⟩ := remove_carried h hf ho hst timestamp
    dsimp only
    rw [if_neg (by simp [hres]), if_neg (by simp [htab])]
    exact .inr ⟨hadm.2 hl, hcar⟩

end Shares

end AstraFeed
