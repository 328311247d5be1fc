import Mathlib.Order.Interval.Finset.Nat
import Mathlib.Tactic.Ring
import AstraFeed.Proofs.BookManager
import AstraFeed.Proofs.StoreRead

/-!
# Runs of the manager

A fresh manager refines the empty model, and every operation keeps the refinement. What a book
publishes and the total of live orders follow from it in every state of a run.
-/

namespace AstraFeed

open Function PriceLevelStore BookModel OrderBook

/-! ## Reading a book -/

section Shows

variable {m : BookManager} {b : BookModel} {l : UInt16} {side : OrderSide}

theorem Refines.levelCount (h : Refines m b) (hv : side ≠ .invalid) {x : ℕ} (hx : x < 2 ^ 32) :
    (m.prices.levelOf l side x).orderCount.toNat = b.levelCount l side x
      ∧ (m.prices.levelOf l side x).totalQty.toNat = b.levelQty l side x :=
  h.stores.levels l side x hv hx

/-- The prices of the live orders of a side are the occupied prices of its book. -/
theorem Refines.prices_eq (h : Refines m b) (hv : side ≠ .invalid) :
    b.prices l side = m.prices.occupiedPrices l side := by
  ext x
  rw [mem_occupiedPrices]
  by_cases hx : x < 2 ^ 32
  · rw [and_iff_right hx, qty_ne_zero, (h.levelCount hv hx).1]
    exact Iff.rfl
  · -- no live order has a price this high
    refine iff_of_false (fun hpos => ?_) fun hm => hx hm.1
    refine Nat.ne_of_gt hpos (PointUpdate.total_eq_zero.2 fun r => ?_)
    cases hr : b.live r with
    | none => rfl
    | some o =>
      have hm := h.stores.matching r
      rw [hr] at hm
      obtain ⟨st, _, hst⟩ := hm.some_right
      refine if_neg ?_
      rintro ⟨_, _, hp⟩
      exact hx (hp ▸ hst.locates.lt)

theorem Refines.topIs (h : Refines m b) (hp : l ∈ b.prepared) (hv : side ≠ .invalid) :
    let v := m.prices.view (m.prices.best l side) side
    TopIs b l side v.valid (if v.valid then v.rawPrice.toUInt64 else 0)
      (if v.valid then v.totalQty else 0) := by
  intro v
  have hprep := (h.prepared l).1 hp
  rcases best_spec h.stores.store hprep hv with ⟨hempty, hbest⟩ | ⟨x, hx, hbest⟩
  · have hview : v = .none := by
      simp only [v, hbest, PriceLevelStore.view]
      rfl
    rw [hview]
    exact ⟨(h.prices_eq hv).trans hempty, rfl, rfl⟩
  · have hview := view_spec h.stores.store hv hx.mem
    obtain ⟨hlt, _⟩ := mem_occupiedPrices.1 hx.mem
    have hraw : x.toUInt32.toUInt64.toNat = x := by
      rw [UInt32.toNat_toUInt64, toUInt32_toNat hlt]
    simp only [v, hbest, hview, if_true, TopIs]
    rw [hraw, h.prices_eq hv]
    exact ⟨hx, (h.levelCount hv hlt).2⟩

theorem Refines.ladderIs (h : Refines m b) {book : OrderBook} (hb : m.books l = some book)
    (hv : side ≠ .invalid) :
    LadderIs b l side (BookContext.sideUpdate ⟨book, m.orders, m.prices⟩ side) := by
  have hprep := (h.prepared l).1 (h.prepared_iff hb)
  obtain ⟨xs, htop, hmem, hcount, htake⟩ := topTen_spec h.stores.store hprep hv
    (List.replicate 10 PriceLevelView.none)
  refine ⟨xs, ?_, ?_⟩
  · rw [h.prices_eq hv]
    exact htop
  · unfold BookContext.sideUpdate
    dsimp only
    rw [(h.book l book hb).stockLocate, hcount, htake, List.map_map, List.forall₂_map_right_iff,
      List.forall₂_same]
    intro x hx
    obtain ⟨hlt, _⟩ := mem_occupiedPrices.1 (hmem x hx)
    refine ⟨?_, (h.levelCount hv hlt).2, (h.levelCount hv hlt).1⟩
    show x.toUInt32.toUInt64.toNat = x
    rw [UInt32.toNat_toUInt64, toUInt32_toNat hlt]

theorem Refines.getOrderBook_eq (h : Refines m b) (l : UInt16) :
    m.getOrderBook l = (m.books l).map fun book => ⟨book, m.orders, m.prices⟩ := by
  unfold BookManager.getOrderBook
  rw [h.find_eq]

theorem Refines.shows (h : Refines m b) {c : BookContext} (hc : m.getOrderBook l = some c) :
    Shows b l c := by
  rw [h.getOrderBook_eq, Option.map_eq_some_iff] at hc
  obtain ⟨book, hb, rfl⟩ := hc
  have hB := h.book l book hb
  have hp := h.prepared_iff hb
  have hbid := h.topIs hp (show OrderSide.buy ≠ .invalid by simp)
  have hask := h.topIs hp (show OrderSide.sell ≠ .invalid by simp)
  refine ⟨hB.liveOrderCount, ⟨hB.timestamp, hB.timestamp⟩, ⟨hB.symbolId, hB.symbolId⟩, ?_, ?_,
    h.ladderIs hb (by simp), h.ladderIs hb (by simp)⟩
  · simp only [BookContext.getTopOfBook, hB.stockLocate]
    exact hbid
  · simp only [BookContext.getTopOfBook, hB.stockLocate]
    exact hask

end Shows

/-! ## The total of live orders -/

section Total

variable {m : BookManager} {b : BookModel}

/-- The live orders of the book of a slot. -/
def slotCount (m : BookManager) (slot : ℕ) : ℕ :=
  match m.books slot.toUInt16 with
  | none => 0
  | some book => book.liveOrderCount.toNat

theorem foldl_total (slots : List ℕ) (total : UInt64) :
    (slots.foldl (fun total slot =>
      match m.books slot.toUInt16 with
      | none => total
      | some book => total + book.liveOrderCount) total).toNat
    = (total.toNat + (slots.map (slotCount m)).sum) % 2 ^ 64 := by
  induction slots generalizing total with
  | nil => simp [Nat.mod_eq_of_lt total.toNat_lt]
  | cons slot slots ih =>
    rw [List.foldl_cons, ih, List.map_cons, List.sum_cons, slotCount]
    cases m.books slot.toUInt16 with
    | none => rw [Nat.zero_add]
    | some book =>
      dsimp only
      rw [UInt64.toNat_add]
      omega

theorem Refines.slotCount_eq (h : Refines m b) (slot : ℕ) :
    slotCount m slot = b.liveCount slot.toUInt16 := by
  unfold slotCount
  cases hb : m.books slot.toUInt16 with
  | none =>
    refine (h.liveCount_eq_zero ?_).symm
    rw [h.books, hb]
    simp
  | some book => exact (h.book _ book hb).liveOrderCount

/-- Every live order is counted in one slot. -/
theorem Refines.sum_countIn (h : Refines m b) (r : UInt64) :
    ∑ slot ∈ Finset.Ico 1 kStockLocateSlots, countIn slot.toUInt16 (b.live r)
      = countAny (b.live r) := by
  cases hr : b.live r with
  | none => exact Finset.sum_eq_zero fun _ _ => rfl
  | some o =>
    have hm := h.stores.matching r
    rw [hr] at hm
    obtain ⟨st, _, hst⟩ := hm.some_right
    obtain ⟨hc, hown, _⟩ := hst.locates.committed h.stores.store.arena
    have hvalid := isValidStockLocate_of_prepared (h.stores.store.arena.prepared _ hc)
    have hpos : 0 < o.locate.toNat := by
      have hne : o.locate ≠ 0 := by
        rw [← hown]
        exact bne_iff_ne.1 hvalid
      rw [Nat.pos_iff_ne_zero]
      exact fun h0 => hne (UInt16.toNat_inj.1 h0)
    have hmem : o.locate.toNat ∈ Finset.Ico 1 kStockLocateSlots :=
      Finset.mem_Ico.2 ⟨hpos, o.locate.toNat_lt⟩
    have hif : ∀ slot ∈ Finset.Ico 1 kStockLocateSlots,
        countIn slot.toUInt16 (some o) = if slot = o.locate.toNat then 1 else 0 := by
      intro slot hslot
      have hlt : slot < 2 ^ 16 := (Finset.mem_Ico.1 hslot).2
      have hiff : o.locate = slot.toUInt16 ↔ slot = o.locate.toNat := by
        rw [← UInt16.toNat_inj, UInt16.toNat_ofNat_of_lt' hlt, eq_comm]
      simp only [countIn, hiff]
    rw [Finset.sum_congr rfl hif, Finset.sum_ite_eq', if_pos hmem]
    rfl

theorem Refines.totalLiveOrderCount (h : Refines m b) :
    m.totalLiveOrderCount.toNat = b.totalCount := by
  have hsum : ((List.range' 1 (kStockLocateSlots - 1)).map (slotCount m)).sum = b.totalCount := by
    rw [← List.sum_toFinset _ List.nodup_range', List.toFinset_range'_1]
    calc ∑ slot ∈ Finset.Ico 1 (1 + (kStockLocateSlots - 1)), slotCount m slot
        = ∑ slot ∈ Finset.Ico 1 kStockLocateSlots, ∑ r, countIn slot.toUInt16 (b.live r) :=
          Finset.sum_congr rfl fun slot _ => h.slotCount_eq slot
      _ = ∑ r, ∑ slot ∈ Finset.Ico 1 kStockLocateSlots, countIn slot.toUInt16 (b.live r) :=
          Finset.sum_comm
      _ = b.totalCount := Finset.sum_congr rfl fun r _ => h.sum_countIn r
  have hlt : b.totalCount < 2 ^ 64 := Refines.totalCount_lt h.config h.ordersConfig h.stores
  refine (foldl_total (List.range' 1 (kStockLocateSlots - 1)) 0).trans ?_
  rw [hsum, show (0 : UInt64).toNat = 0 from rfl, Nat.zero_add]
  exact Nat.mod_eq_of_lt hlt

/-- With a count of zero no reference is live. -/
theorem Refines.live_eq_none (h : Refines m b)
    (h0 : m.totalLiveOrderCount = 0) (r : UInt64) : m.orders.live r = none := by
  have hcount : PointUpdate.total BookModel.countAny b.live = 0 := by
    have := h.totalLiveOrderCount
    rw [h0] at this
    exact this.symm
  have hnone := PointUpdate.total_eq_zero.1 hcount r
  have hmatch := h.stores.matching r
  cases hlive : b.live r with
  | some o =>
    rw [hlive] at hnone
    cases hnone
  | none =>
    rw [hlive] at hmatch
    cases horders : m.orders.live r with
    | none => rfl
    | some st =>
      rw [horders] at hmatch
      exact hmatch.elim

theorem Refines.agrees (h : Refines m b) : Agrees m b where
  lookup := h.stores.matching
  used := h.stores.used_iff
  levels := h.stores.levels
  prepared := fun l => by
    rw [h.getOrderBook_eq, Option.isSome_map]
    exact h.books l
  shows := fun _ _ hc => h.shows hc
  totalLiveOrderCount := h.totalLiveOrderCount

end Total

/-! ## Runs -/

theorem refines_fresh {config : BookManagerConfig} {systemPageBytes : ℕ} {m : BookManager}
    (h : BookManager.create config systemPageBytes = .ok m) : Refines m BookModel.init := by
  obtain ⟨hconfig, hcfg, ho, hp, hb⟩ := configOk_of_create h
  have hlevel : ∀ l side x, m.prices.levelOf l side x = ⟨0, 0⟩ := by
    intro l side x
    rw [hp]
    unfold PriceLevelStore.levelOf PriceLevelStore.levelAt
    split_ifs <;> rfl
  have hnone : ∀ l, ¬ m.prices.isBookPrepared l = true := by
    intro l
    rw [hp]
    simp [PriceLevelStore.isBookPrepared, PriceLevelStore.fresh]
  refine ⟨hcfg ▸ hconfig, by rw [ho, hcfg]; rfl, ⟨?_, ?_, fun r => ?_, fun r => ?_, ?_⟩,
    fun l => ?_, fun l => ?_, fun l book hbk => ?_, fun l _ => rfl⟩
  · rw [ho]
    exact OrderTable.fresh_inv config.orders
  · rw [hp]
    exact PriceLevelStore.fresh_inv config.prices
  · rw [ho]
    exact iff_of_false (OrderTable.fresh_not_used config.orders r) (Set.notMem_empty r)
  · have hf := (OrderTable.fresh_inv config.orders).findState_eq_none
      (OrderTable.fresh_not_used config.orders r)
    rw [ho, OrderTable.live, hf]
    exact trivial
  · intro l side x _ _
    rw [hlevel]
    exact ⟨(PointUpdate.total_eq_zero.2 fun _ => rfl).symm,
      (PointUpdate.total_eq_zero.2 fun _ => rfl).symm⟩
  · exact iff_of_false (Set.notMem_empty l) (hnone l)
  · rw [hb]
    exact iff_of_false (Set.notMem_empty l) (by simp)
  · rw [hb] at hbk
    cases hbk

theorem BookRun.refines_step {r : BookRun} (h : Refines r.manager r.model) (op : BookOp) :
    Refines (r.step op).manager (r.step op).model := (h.perform op).refines

theorem BookRun.refines_run {r : BookRun} (h : Refines r.manager r.model) (ops : List BookOp) :
    Refines (r.run ops).manager (r.run ops).model := by
  induction ops generalizing r with
  | nil => exact h
  | cons op ops ih => exact ih (BookRun.refines_step h op)

/-- In every run of a manager, what it returns and what it shows are what the model says. -/
theorem BookRun.run_agrees {config : BookManagerConfig} {systemPageBytes : ℕ} {m : BookManager}
    (hm : BookManager.create config systemPageBytes = .ok m) (ops : List BookOp) :
    let r := BookRun.run ⟨m, .init⟩ ops
    Agrees r.manager r.model ∧ ∀ op,
      let result := (r.manager.perform op).1
      (¬ IsCapacity result → (result = .applied ↔ r.model.Admits op))
        ∧ (IsCapacity result → r.model.Admits op)
        ∧ (result = .orderCountOverflow → r.model.Full op) := by
  intro r
  have h := BookRun.refines_run (r := ⟨m, .init⟩) (refines_fresh hm) ops
  refine ⟨h.agrees, fun op => ?_⟩
  have hstep := h.perform op
  exact ⟨hstep.applied_iff, hstep.capacity, hstep.full⟩

/-- A manager of one direct slot, one bucket and one page agrees with the model. -/
theorem BookRun.run_agrees_smallest :
    ∃ m, BookManager.create ⟨⟨1, 1⟩, ⟨1⟩⟩ 4096 = .ok m
      ∧ Agrees (BookRun.run ⟨m, .init⟩ [.getOrCreate 1, .addOrder 1 0 100 10 66 7]).manager
        (BookRun.run ⟨m, .init⟩ [.getOrCreate 1, .addOrder 1 0 100 10 66 7]).model := by
  obtain ⟨m, hm⟩ : ∃ m, BookManager.create ⟨⟨1, 1⟩, ⟨1⟩⟩ 4096 = .ok m := ⟨_, rfl⟩
  exact ⟨m, hm, (BookRun.run_agrees hm _).1⟩

end AstraFeed
