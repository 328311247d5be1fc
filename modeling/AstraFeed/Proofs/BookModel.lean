import AstraFeed.BookRefinement
import AstraFeed.Proofs.StoreLevels
import AstraFeed.Proofs.OrderTable

/-!
# Changing one order

The stores stand for a model in which one order has changed when the table holds the new state of
its reference and its level has changed by the difference. The bounds the checks of the price store
need come from the model: an order has a share at least and fewer than `2 ^ 32`.
-/

namespace AstraFeed

open Function PriceLevelStore BookModel

variable {orders : OrderTable} {prices prices' : PriceLevelStore}
  {live : UInt64 → Option ModelOrder} {used : Set UInt64}

/-! ## Measures -/

section Measures

variable {l : UInt16} {side : OrderSide} {x : ℕ}

theorem countAt_of_atLevel {o : ModelOrder} (h : o.AtLevel l side x) :
    countAt l side x (some o) = 1 ∧ qtyAt l side x (some o) = o.qty.toNat :=
  ⟨if_pos h, if_pos h⟩

/-- An order at another level does not count. -/
theorem countAt_of_other {l' : UInt16} {sd : OrderSide} {y : ℕ} {v : Option ModelOrder}
    (hv : ∀ o ∈ v, o.AtLevel l side x) (hne : ¬ (l' = l ∧ sd = side ∧ y = x)) :
    countAt l' sd y v = 0 ∧ qtyAt l' sd y v = 0 := by
  cases v with
  | none => exact ⟨rfl, rfl⟩
  | some o =>
    have ho := hv o rfl
    have hno : ¬ o.AtLevel l' sd y := by
      rintro ⟨h1, h2, h3⟩
      exact hne ⟨h1.symm.trans ho.1, h2.symm.trans ho.2.1, h3.symm.trans ho.2.2⟩
    exact ⟨if_neg hno, if_neg hno⟩

theorem total_qtyAt_le (l : UInt16) (side : OrderSide) (x : ℕ) (live : UInt64 → Option ModelOrder) :
    PointUpdate.total (qtyAt l side x) live
      ≤ (2 ^ 32 - 1) * PointUpdate.total (countAt l side x) live := by
  rw [← PointUpdate.total_const_mul]
  refine PointUpdate.total_le_total fun r => ?_
  cases live r with
  | none => exact Nat.zero_le _
  | some o =>
    have := o.qty.toNat_lt
    simp only [qtyAt, countAt]
    split_ifs <;> omega

theorem total_countAt_le (l : UInt16) (side : OrderSide) (x : ℕ)
    (hpos : ∀ r, ∀ o ∈ live r, o.qty ≠ 0) :
    PointUpdate.total (countAt l side x) live ≤ PointUpdate.total (qtyAt l side x) live := by
  refine PointUpdate.total_le_total fun r => ?_
  cases h : live r with
  | none => exact Nat.zero_le _
  | some o =>
    have := qty_ne_zero.1 (hpos r o h)
    simp only [qtyAt, countAt]
    split_ifs <;> omega

end Measures

/-! ## Levels -/

/-- One level changes as one order does. -/
theorem LevelsOf.update {l p : UInt16} {side : OrderSide} {x : ℕ} {a : PriceAddress}
    (h : LevelsOf prices live) (hI : prices.ArenaInv) (ha : Locates prices l x p a)
    (hf : OnlyAt prices prices' a l side) {r : UInt64} {v : Option ModelOrder}
    (hold : ∀ o ∈ live r, o.AtLevel l side x) (hnew : ∀ o ∈ v, o.AtLevel l side x)
    (hcount : (prices'.levelUnchecked a side).orderCount.toNat + countAt l side x (live r)
      = (prices.levelUnchecked a side).orderCount.toNat + countAt l side x v)
    (hqty : (prices'.levelUnchecked a side).totalQty.toNat + qtyAt l side x (live r)
      = (prices.levelUnchecked a side).totalQty.toNat + qtyAt l side x v) :
    LevelsOf prices' (update live r v) := by
  intro l' sd y hv hy
  by_cases hne : l' = l ∧ sd = side ∧ y = x
  · obtain ⟨rfl, rfl, rfl⟩ := hne
    have ha' : Locates prices' l' y p a :=
      ha.of_roots fun l q _ _ => congrFun (hf.rootAt l) q
    obtain ⟨h1, h2⟩ := h l' sd y hv hy
    rw [ha.levelOf] at h1 h2
    rw [ha'.levelOf]
    have hc := PointUpdate.total_update (countAt l' sd y) live r v
    have hq := PointUpdate.total_update (qtyAt l' sd y) live r v
    omega
  · rw [hf.levelOf hI ha hv hy hne]
    obtain ⟨ho1, ho2⟩ := countAt_of_other hold hne
    obtain ⟨hn1, hn2⟩ := countAt_of_other hnew hne
    rw [PointUpdate.total_update_of_eq (hn1.trans ho1.symm),
      PointUpdate.total_update_of_eq (hn2.trans ho2.symm)]
    exact h l' sd y hv hy

theorem LevelsOf.grows (h : LevelsOf prices live) (hg : Grows prices prices') :
    LevelsOf prices' live := by
  intro l side x hv hx
  rw [hg.levelOf l side x hv hx]
  exact h l side x hv hx

/-! ## States -/

theorem StateOf.of_roots {st : OrderState} {o : ModelOrder} (h : StateOf prices st o)
    (hroot : ∀ l q, q < kPricePartCount → prices.rootAt l q ≠ kInvalidPricePageHandle →
      prices'.rootAt l q = prices.rootAt l q) : StateOf prices' st o := by
  refine { h with root := ?_ }
  rw [hroot _ _ st.pricePageIndex.toNat_lt (by rw [h.root]; exact h.handle_ne), h.root]

theorem Matches.of_roots {w : Option OrderState} {v : Option ModelOrder} (h : Matches prices w v)
    (hroot : ∀ l q, q < kPricePartCount → prices.rootAt l q ≠ kInvalidPricePageHandle →
      prices'.rootAt l q = prices.rootAt l q) : Matches prices' w v := by
  cases w with
  | none =>
    cases v with
    | none => trivial
    | some o => exact h
  | some st =>
    cases v with
    | none => exact h
    | some o => exact StateOf.of_roots h hroot

theorem Matches.some_right {w : Option OrderState} {o : ModelOrder}
    (h : Matches prices w (some o)) : ∃ st, w = some st ∧ StateOf prices st o := by
  cases w with
  | none => exact h.elim
  | some st => exact ⟨st, rfl, h⟩

theorem Matches.some_left {st : OrderState} {v : Option ModelOrder}
    (h : Matches prices (some st) v) : ∃ o, v = some o ∧ StateOf prices st o := by
  cases v with
  | none => exact h.elim
  | some o => exact ⟨o, rfl, h⟩

theorem Matches.none_left {v : Option ModelOrder} (h : Matches prices none v) : v = none := by
  cases v with
  | none => rfl
  | some o => exact h.elim

theorem StateOf.locates {st : OrderState} {o : ModelOrder} (h : StateOf prices st o) :
    Locates prices o.locate o.price.toNat st.pricePageIndex (OrderBook.addressOf st) :=
  ⟨h.handle_ne, h.root, h.price⟩

theorem StateOf.atLevel {st : OrderState} {o : ModelOrder} (_ : StateOf prices st o) :
    o.AtLevel o.locate o.side o.price.toNat := ⟨rfl, rfl, rfl⟩

theorem ofUInt8_toUInt8 (side : OrderSide) : OrderSide.ofUInt8 side.toUInt8 = side := by
  cases side <;> rfl

theorem StateOf.ofUInt8_side {st : OrderState} {o : ModelOrder} (h : StateOf prices st o) :
    OrderSide.ofUInt8 st.side = o.side := by rw [h.side, ofUInt8_toUInt8]

/-! ## What the price store's checks need -/

section Checks

variable {r : UInt64} {o : ModelOrder} {st : OrderState}

theorem StoresOf.qty_ne (h : StoresOf orders prices live used) (r : UInt64) :
    ∀ o ∈ live r, o.qty ≠ 0 := by
  intro o ho
  have hm := h.matching r
  rw [Option.mem_def.1 ho] at hm
  obtain ⟨st, _, hst⟩ := hm.some_right
  exact hst.qty_ne

/-- The level of a live order holds it, and any other order there has shares. -/
theorem StoresOf.canErase (h : StoresOf orders prices live used) (ho : live r = some o)
    (hst : StateOf prices st o) :
    CanErase prices (OrderBook.addressOf st) o.side o.qty := by
  have hl := hst.locates
  obtain ⟨hc, hq⟩ := h.levels o.locate o.side _ hst.side_ne hl.lt
  rw [hl.levelOf] at hc hq
  -- the totals of the others, the order taken out
  have hpos' : ∀ r', ∀ o' ∈ update live r none r', o'.qty ≠ 0 := by
    intro r' o' ho'
    by_cases hr : r' = r
    · rw [hr, update_self] at ho'
      cases ho'
    · rw [update_of_ne hr] at ho'
      exact h.qty_ne r' o' ho'
  have hcu := PointUpdate.total_update (countAt o.locate o.side o.price.toNat) live r none
  have hqu := PointUpdate.total_update (qtyAt o.locate o.side o.price.toNat) live r none
  have hle := total_countAt_le o.locate o.side o.price.toNat hpos'
  have hge := total_qtyAt_le o.locate o.side o.price.toNat (update live r none)
  obtain ⟨h1, h2⟩ := countAt_of_atLevel hst.atLevel
  rw [ho, h1] at hcu
  rw [ho, h2] at hqu
  simp only [countAt, qtyAt, Nat.add_zero] at hcu hqu
  refine ⟨hst.side_ne, (hl.committed h.store.arena).1, hst.qty_ne, ?_, ?_, ?_⟩
  · intro h0
    rw [h0, show (0 : UInt32).toNat = 0 from rfl] at hc
    omega
  · rw [UInt64.le_iff_toNat_le, UInt32.toNat_toUInt64]
    omega
  · rw [← UInt32.toNat_inj, ← UInt64.toNat_inj, UInt32.toNat_toUInt64, hc, hq,
      show (1 : UInt32).toNat = 1 from rfl]
    constructor
    · intro hone
      have : PointUpdate.total (countAt o.locate o.side o.price.toNat) (update live r none) = 0 := by
        omega
      rw [this] at hge
      omega
    · intro heq
      omega

/-- A level with fewer than `2 ^ 32 - 1` orders has room for the shares of one more. -/
theorem StoresOf.total_lt (h : StoresOf orders prices live used) {l p : UInt16}
    {side : OrderSide} {x : ℕ} {a : PriceAddress} (hl : Locates prices l x p a)
    (hv : side ≠ .invalid)
    (hn : (prices.levelUnchecked a side).orderCount.toNat ≠ 2 ^ 32 - 1) (qty : UInt32) :
    (prices.levelUnchecked a side).totalQty.toNat + qty.toNat < 2 ^ 64 := by
  obtain ⟨hc, hq⟩ := h.levels l side x hv hl.lt
  rw [hl.levelOf] at hc hq
  have hle := total_qtyAt_le l side x live
  rw [← hc, ← hq] at hle
  have hlt := (prices.levelUnchecked a side).orderCount.toNat_lt
  have hqty := qty.toNat_lt
  have hmul : (2 ^ 32 - 1) * (prices.levelUnchecked a side).orderCount.toNat
      ≤ (2 ^ 32 - 1) * (2 ^ 32 - 2) := Nat.mul_le_mul_left _ (by omega)
  omega

end Checks

end AstraFeed
