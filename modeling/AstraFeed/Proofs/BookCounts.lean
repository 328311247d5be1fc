import AstraFeed.Proofs.OrderTable
import AstraFeed.BookRefinement

/-!
# How many orders there can be

A reference is live in a slot of its own, and a planned table has fewer slots than a 64-bit count
can hold, so the counts of live orders never wrap.
-/

namespace AstraFeed

open Function BookModel OrderTable

section Slots

variable {t : OrderTable} {orderRef : UInt64} {slot : OrderSlot}

/-- The slots of a table in one row: the direct ones, then the ways of every bucket. -/
def OrderTable.rank (config : OrderTableConfig) : OrderSlot → ℕ
  | .direct index => index
  | .fallback bucket way => config.directSlots.toNat + kFallbackWays * bucket + way

theorem slot_bound (h : slot ∈ slotsOf t.config orderRef) :
    (∃ i < t.config.directSlots.toNat, slot = .direct i)
      ∨ ∃ b < 2 ^ 32, ∃ w < kFallbackWays, slot = .fallback b w := by
  unfold slotsOf at h
  split_ifs at h with hd
  · exact .inl ⟨_, UInt64.lt_iff_toNat_lt.1 hd, List.mem_singleton.1 h⟩
  · obtain ⟨⟨path, bucket, way⟩, hp, rfl⟩ := List.mem_map.1 h
    exact .inr ⟨_, bucket.toNat_lt, _, (mem_fallbackProbes.1 hp).1, rfl⟩

theorem rank_lt (h : slot ∈ slotsOf t.config orderRef) :
    rank t.config slot < t.config.directSlots.toNat + kFallbackWays * 2 ^ 32 := by
  rcases slot_bound h with ⟨i, hi, rfl⟩ | ⟨b, hb, w, hw, rfl⟩
  · exact Nat.lt_add_right _ hi
  · simp only [rank, kFallbackWays] at *
    omega

theorem rank_injective {orderRef' : UInt64} {slot' : OrderSlot}
    (h : slot ∈ slotsOf t.config orderRef) (h' : slot' ∈ slotsOf t.config orderRef')
    (he : rank t.config slot = rank t.config slot') : slot = slot' := by
  rcases slot_bound h with ⟨i, hi, rfl⟩ | ⟨b, hb, w, hw, rfl⟩ <;>
    rcases slot_bound h' with ⟨j, hj, rfl⟩ | ⟨c, hc, v, hv, rfl⟩ <;>
    simp only [rank, kFallbackWays] at *
  · rw [he]
  · omega
  · omega
  · have hb : b = c := by omega
    have hw : w = v := by omega
    rw [hb, hw]

end Slots

section Live

variable {orders : OrderTable} {prices : PriceLevelStore} {live : UInt64 → Option ModelOrder}
  {used : Set UInt64}

theorem StoresOf.isSome_findState (h : StoresOf orders prices live used) {r : UInt64}
    (hr : live r ≠ none) : ∃ slot, orders.findState r = some slot := by
  have hm := h.matching r
  cases hf : orders.findState r with
  | some slot => exact ⟨slot, rfl⟩
  | none =>
    rw [OrderTable.live, hf] at hm
    cases hl : live r with
    | none => exact absurd hl hr
    | some o =>
      rw [hl] at hm
      exact hm.elim

/-- No more orders are live than the table has slots. -/
theorem StoresOf.totalCount_le (h : StoresOf orders prices live used) :
    PointUpdate.total countAny live
      ≤ orders.config.directSlots.toNat + kFallbackWays * 2 ^ 32 := by
  classical
  let S := Finset.univ.filter fun r => live r ≠ none
  have hcount : ∀ r, countAny (live r) = if live r ≠ none then 1 else 0 := by
    intro r
    cases live r <;> rfl
  have htotal : PointUpdate.total countAny live = S.card := by
    rw [PointUpdate.total, Finset.card_filter]
    exact Finset.sum_congr rfl fun r _ => hcount r
  let place := fun r => rank orders.config ((orders.findState r).getD (.direct 0))
  have hplace : ∀ r ∈ S, ∃ slot, orders.findState r = some slot
      ∧ slot ∈ slotsOf orders.config r ∧ place r = rank orders.config slot := by
    intro r hr
    obtain ⟨slot, hs⟩ := h.isSome_findState (Finset.mem_filter.1 hr).2
    refine ⟨slot, hs, h.table.mem_slotsOf (h.table.used_of_findState hs), ?_⟩
    simp only [place, hs, Option.getD_some]
  rw [htotal, ← Finset.card_range (orders.config.directSlots.toNat + kFallbackWays * 2 ^ 32)]
  refine Finset.card_le_card_of_injOn place (fun r hr => ?_) fun r hr r' hr' he => ?_
  · obtain ⟨slot, _, hm, hp⟩ := hplace r hr
    rw [Finset.coe_range, Set.mem_Iio, hp]
    exact rank_lt hm
  · obtain ⟨slot, hs, hm, hp⟩ := hplace r hr
    obtain ⟨slot', hs', hm', hp'⟩ := hplace r' hr'
    rw [hp, hp'] at he
    obtain rfl := rank_injective hm hm' he
    exact UInt64.toNat_inj.1
      ((h.table.findState_iff.1 hs).2.symm.trans (h.table.findState_iff.1 hs').2)

theorem liveCount_le (l : UInt16) (live : UInt64 → Option ModelOrder) :
    PointUpdate.total (countIn l) live ≤ PointUpdate.total countAny live := by
  refine PointUpdate.total_le_total fun r => ?_
  cases live r with
  | none => exact le_rfl
  | some o =>
    simp only [countIn, countAny]
    split_ifs <;> omega

end Live

/-! ## What constructing a manager has checked -/

theorem bind_eq_ok {α β : Type} {x : Except String α} {f : α → Except String β} {b : β} :
    x >>= f = .ok b ↔ ∃ a, x = .ok a ∧ f a = .ok b := by
  cases x with
  | error e =>
    constructor
    · rintro ⟨⟩
    · rintro ⟨a, ⟨⟩, _⟩
  | ok a =>
    constructor
    · intro h
      exact ⟨a, rfl, h⟩
    · rintro ⟨a', ⟨⟩, h⟩
      exact h

theorem checkedMultiply_ok {a b n : ℕ} (h : BookStorage.checkedMultiply a b = .ok n) :
    a * b < 2 ^ 64 := by
  unfold BookStorage.checkedMultiply at h
  split_ifs at h with hov
  rcases Nat.eq_zero_or_pos a with rfl | ha
  · omega
  · have hle : b ≤ BookStorage.sizeMax / a := by
      by_contra hlt
      exact hov ⟨by omega, by omega⟩
    have hmul := (Nat.le_div_iff_mul_le ha).1 hle
    rw [Nat.mul_comm a b]
    unfold BookStorage.sizeMax at hmul
    omega

theorem validateConfig_ok {config : BookManagerConfig}
    (h : BookStorage.validateConfig config = .ok ()) :
    config.orders.fallbackBucketCount ≠ 0 := by
  unfold BookStorage.validateConfig at h
  split_ifs at h with h1 h2
  exact fun h0 => h2 (.inl h0)

theorem configOk_of_create {config : BookManagerConfig} {systemPageBytes : ℕ} {m : BookManager}
    (h : BookManager.create config systemPageBytes = .ok m) :
    ConfigOk config ∧ m.config = config ∧ m.orders = .fresh config.orders
      ∧ m.prices = .fresh config.prices ∧ m.books = fun _ => none := by
  obtain ⟨fp, hfp, hm⟩ := bind_eq_ok.1 h
  obtain rfl := Except.ok.inj hm
  obtain ⟨⟨⟩, hvalid, hfp⟩ := bind_eq_ok.1 hfp
  refine ⟨⟨?_, validateConfig_ok hvalid⟩, rfl, rfl, rfl, rfl⟩
  dsimp only at hfp
  split at hfp
  · cases hfp
  · obtain ⟨_, hdirect, _⟩ := bind_eq_ok.1 hfp
    obtain ⟨_, hbytes, _⟩ := bind_eq_ok.1 hdirect
    exact checkedMultiply_ok hbytes

end AstraFeed
