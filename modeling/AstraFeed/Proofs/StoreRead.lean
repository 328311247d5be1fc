import AstraFeed.Proofs.StoreLevels

/-!
# Reading a side of a book

The cached best, the walk to the next worse level and the levels `topTen` fills are those of the
occupied prices.
-/

namespace AstraFeed

section Prices

variable {side : OrderSide} {occ : ℕ → Finset ℕ} {p i q n : ℕ}

theorem isBest_iff {S : Set ℕ} {b : ℕ} : IsBest side S b
    ↔ b ∈ S ∧ ∀ y ∈ S, y = b ∨ if side = .buy then y < b else b < y := by
  unfold IsBest
  split_ifs
  · refine and_congr_right fun _ => forall₂_congr fun y _ => ?_
    rw [le_iff_eq_or_lt]
  · refine and_congr_right fun _ => forall₂_congr fun y _ => ?_
    rw [le_iff_eq_or_lt, eq_comm]

/-- Prices are ordered by their page, and within a page by their level. -/
theorem worse_join (hn : n < kPricePartCount) (hi : i < kPricePartCount) :
    (if side = .buy then q * kPricePartCount + n < p * kPricePartCount + i
      else p * kPricePartCount + i < q * kPricePartCount + n)
    ↔ (if side = .buy then q < p else p < q)
      ∨ q = p ∧ if side = .buy then n < i else i < n := by
  simp only [kPricePartCount] at *
  split_ifs <;> omega

theorem mem_worseThan_pricesOf (hsub : ∀ q, occ q ⊆ Finset.range kPricePartCount)
    (hi : i < kPricePartCount) {y : ℕ} :
    y ∈ worseThan side (pricesOf occ) (p * kPricePartCount + i)
      ↔ ∃ q < kPricePartCount, ∃ n ∈ occ q, y = q * kPricePartCount + n
        ∧ ((if side = .buy then q < p else p < q)
          ∨ q = p ∧ if side = .buy then n < i else i < n) := by
  constructor
  · rintro ⟨⟨q, hq, n, hn, rfl⟩, hw⟩
    exact ⟨q, hq, n, hn, rfl, (worse_join (Finset.mem_range.1 (hsub q hn)) hi).1 hw⟩
  · rintro ⟨q, hq, n, hn, rfl, hw⟩
    exact ⟨⟨q, hq, n, hn, rfl⟩, (worse_join (Finset.mem_range.1 (hsub q hn)) hi).2 hw⟩

theorem mem_worse {S : Finset ℕ} {x : ℕ} :
    x ∈ worse side S i ↔ x ∈ S ∧ if side = .buy then x < i else i < x := Finset.mem_filter

/-- The next worse price is in the same page when that page has a worse level. -/
theorem next_in_page (hsub : ∀ q, occ q ⊆ Finset.range kPricePartCount)
    (hp : p < kPricePartCount) (hi : i < kPricePartCount)
    (hn : IsBest side (worse side (occ p) i) n) :
    IsBest side (worseThan side (pricesOf occ) (p * kPricePartCount + i))
      (p * kPricePartCount + n) := by
  rw [isBest_iff] at hn ⊢
  obtain ⟨hmem, hbest⟩ := hn
  rw [Finset.mem_coe, mem_worse] at hmem
  have hnlt := Finset.mem_range.1 (hsub p hmem.1)
  refine ⟨(mem_worseThan_pricesOf hsub hi).2 ⟨p, hp, n, hmem.1, rfl, .inr ⟨rfl, hmem.2⟩⟩, ?_⟩
  intro y hy
  obtain ⟨q, _, k, hk, rfl, hw⟩ := (mem_worseThan_pricesOf hsub hi).1 hy
  have hklt := Finset.mem_range.1 (hsub q hk)
  rw [worse_join hklt hnlt]
  rcases hw with hw | ⟨rfl, hw⟩
  · exact .inr (.inl hw)
  · rcases hbest k (Finset.mem_coe.2 (mem_worse.2 ⟨hk, hw⟩)) with rfl | hb
    · exact .inl rfl
    · exact .inr (.inr ⟨rfl, hb⟩)

/-- Else it is the best of the next worse page. -/
theorem next_page (hsub : ∀ q, occ q ⊆ Finset.range kPricePartCount) {pages : Finset ℕ}
    (hpages : ∀ q, q ∈ pages ↔ q < kPricePartCount ∧ (occ q).Nonempty)
    (hi : i < kPricePartCount) (hlast : worse side (occ p) i = ∅)
    (hq : IsBest side (worse side pages p) q) (hn : IsBest side (occ q) n) :
    IsBest side (worseThan side (pricesOf occ) (p * kPricePartCount + i))
      (q * kPricePartCount + n) := by
  rw [isBest_iff] at hq hn ⊢
  obtain ⟨hqmem, hqbest⟩ := hq
  obtain ⟨hnmem, hnbest⟩ := hn
  rw [Finset.mem_coe, mem_worse, hpages] at hqmem
  have hnlt := Finset.mem_range.1 (hsub q hnmem)
  refine ⟨(mem_worseThan_pricesOf hsub hi).2 ⟨q, hqmem.1.1, n, hnmem, rfl, .inl hqmem.2⟩, ?_⟩
  intro y hy
  obtain ⟨r, hr, k, hk, rfl, hw⟩ := (mem_worseThan_pricesOf hsub hi).1 hy
  rw [worse_join (Finset.mem_range.1 (hsub r hk)) hnlt]
  rcases hw with hw | ⟨rfl, hw⟩
  · rcases hqbest r (Finset.mem_coe.2 (mem_worse.2 ⟨(hpages r).2 ⟨hr, k, hk⟩, hw⟩)) with rfl | hb
    · rcases hnbest k hk with rfl | hb
      · exact .inl rfl
      · exact .inr (.inr ⟨rfl, hb⟩)
    · exact .inr (.inl hb)
  · have : k ∈ worse side (occ r) i := mem_worse.2 ⟨hk, hw⟩
    rw [hlast] at this
    exact absurd this (Finset.notMem_empty k)

theorem no_next (hsub : ∀ q, occ q ⊆ Finset.range kPricePartCount) {pages : Finset ℕ}
    (hpages : ∀ q, q ∈ pages ↔ q < kPricePartCount ∧ (occ q).Nonempty)
    (hi : i < kPricePartCount) (hlast : worse side (occ p) i = ∅)
    (hnone : worse side pages p = ∅) :
    worseThan side (pricesOf occ) (p * kPricePartCount + i) = ∅ := by
  rw [Set.eq_empty_iff_forall_notMem]
  intro y hy
  obtain ⟨q, hq, n, hn, rfl, hw | ⟨rfl, hw⟩⟩ := (mem_worseThan_pricesOf hsub hi).1 hy
  · have : q ∈ worse side pages p := mem_worse.2 ⟨(hpages q).2 ⟨hq, n, hn⟩, hw⟩
    rw [hnone] at this
    exact Finset.notMem_empty q this
  · have : n ∈ worse side (occ q) i := mem_worse.2 ⟨hn, hw⟩
    rw [hlast] at this
    exact Finset.notMem_empty n this

/-- The next worse level of a page, whose bitmap stands only for two levels or more. -/
theorem PageOk.next_level {occ : Finset ℕ} {summary : PageSideSummary}
    {bitmap : PriceBitmapStorage} (h : PageOk side occ summary bitmap) {i : UInt16}
    (hi : i.toNat ∈ occ) :
    let next := if 1 < summary.activeLevels then PriceLevelStore.nextWorseIndex side bitmap i
      else PriceBitmap.kInvalid
    next = PriceBitmap.kInvalid ∧ worse side occ i.toNat = ∅
      ∨ next ≠ PriceBitmap.kInvalid ∧ next ∈ occ
        ∧ IsBest side (worse side occ i.toNat) next := by
  intro next
  by_cases hlt : 1 < summary.activeLevels
  · have hcard : 2 ≤ occ.card := h.one_lt_activeLevels.1 hlt
    have hmem : PriceBitmap.members bitmap = occ := by rw [h.members, if_pos hcard]
    have hspec := nextWorseIndex_spec side i h.consistent
    have hne := kInvalid_notMem bitmap
    rw [hmem] at hspec hne
    simp only [next, if_pos hlt]
    rcases hspec with hs | ⟨hm, hb⟩
    · exact .inl hs
    · exact .inr ⟨fun he => hne (he ▸ hm), hm, hb⟩
  · have hcard : occ.card = 1 := by
      have h1 := h.one_lt_activeLevels.not.1 hlt
      have h2 := Finset.card_pos.2 ⟨_, hi⟩
      omega
    obtain ⟨j, rfl⟩ := Finset.card_eq_one.1 hcard
    rw [Finset.mem_singleton] at hi
    refine .inl ⟨if_neg hlt, ?_⟩
    rw [Finset.eq_empty_iff_forall_notMem]
    intro y hy
    obtain ⟨hy, hw⟩ := mem_worse.1 hy
    rw [Finset.mem_singleton.1 hy, hi] at hw
    split_ifs at hw <;> omega

end Prices

namespace PriceLevelStore

variable {s : PriceLevelStore} {l : UInt16} {side : OrderSide} {x : ℕ}

/-- The occupied prices of a side of a book. -/
def occupiedPrices (s : PriceLevelStore) (l : UInt16) (side : OrderSide) : Set ℕ :=
  pricesOf (s.bookLevels l side)

/-- The cursor at a price. -/
def cursorAt (s : PriceLevelStore) (l : UInt16) (x : ℕ) : PriceLevelCursor :=
  ⟨s.rootAt l (x / kPricePartCount), x.toUInt32, l, true⟩

/-- The cursor is at the best price of `S`, or invalid when it has none. -/
def CursorOf (s : PriceLevelStore) (l : UInt16) (side : OrderSide) (S : Set ℕ)
    (cursor : PriceLevelCursor) : Prop :=
  S = ∅ ∧ cursor = .none ∨ ∃ x, IsBest side S x ∧ cursor = s.cursorAt l x

theorem lt_of_mem (hx : x ∈ s.occupiedPrices l side) :
    x < 2 ^ 32 ∧ x / kPricePartCount < kPricePartCount
      ∧ x % kPricePartCount ∈ s.bookLevels l side (x / kPricePartCount) := by
  obtain ⟨p, hp, i, hi, rfl⟩ := hx
  have hilt := Finset.mem_range.1 (occupied_subset s _ side hi)
  have hdiv : (p * kPricePartCount + i) / kPricePartCount = p := by
    simp only [kPricePartCount] at *
    omega
  have hmod : (p * kPricePartCount + i) % kPricePartCount = i := by
    simp only [kPricePartCount] at *
    omega
  rw [hdiv, hmod]
  refine ⟨?_, hp, hi⟩
  simp only [kPricePartCount] at *
  omega

theorem mem_occupiedPrices : x ∈ s.occupiedPrices l side
    ↔ x < 2 ^ 32 ∧ (s.levelOf l side x).orderCount ≠ 0 := by
  constructor
  · intro hx
    obtain ⟨hlt, _, hm⟩ := lt_of_mem hx
    exact ⟨hlt, (mem_occupied.1 hm).2⟩
  · rintro ⟨hlt, h0⟩
    have hp : x / kPricePartCount < kPricePartCount := by
      simp only [kPricePartCount]
      omega
    have hm : x % kPricePartCount ∈ s.bookLevels l side (x / kPricePartCount) :=
      mem_occupied.2 ⟨Nat.mod_lt _ (by decide), h0⟩
    exact ⟨_, hp, _, hm, (Nat.div_add_mod' x kPricePartCount).symm⟩

theorem best_spec (hI : s.StoreInv) (hprep : s.isBookPrepared l = true) (hv : side ≠ .invalid) :
    s.CursorOf l side (s.occupiedPrices l side) (s.best l side) := by
  have hb := hI.book l side hv
  unfold best
  rw [if_neg (by simp [hprep, validSide_iff.2 hv])]
  dsimp only
  rcases Set.eq_empty_or_nonempty (s.occupiedPrices l side) with he | hne
  · rw [if_pos (.inl (hb.activePages_eq_zero.2 he))]
    exact .inl ⟨he, rfl⟩
  · obtain ⟨hbest, hh⟩ := hb.best_some hne
    obtain ⟨_, hp, hm⟩ := lt_of_mem hbest.mem
    have hroot := hI.root_ne hv _ ⟨_, hm⟩
    rw [if_neg (not_or.2 ⟨hb.activePages_eq_zero.not.2 hne.ne_empty, by rw [hh]; exact hroot⟩)]
    refine .inr ⟨_, hbest, ?_⟩
    rw [cursorAt, ← hh]
    simp

theorem toUInt32_toNat {n : ℕ} (h : n < 2 ^ 32) : (Nat.toUInt32 n).toNat = n :=
  UInt32.toNat_ofNat_of_lt' h

/-- The address of an occupied price is in place. -/
theorem locates_of_mem (hI : s.StoreInv) (hv : side ≠ .invalid)
    (hx : x ∈ s.occupiedPrices l side) :
    Locates s l x (splitPrice x.toUInt32).pageIndex
      ⟨s.rootAt l (x / kPricePartCount), (splitPrice x.toUInt32).levelIndex⟩ := by
  obtain ⟨hlt, hp, hm⟩ := lt_of_mem hx
  have hpage := splitPrice_pageIndex x.toUInt32
  have hlevel := splitPrice_levelIndex x.toUInt32
  rw [toUInt32_toNat hlt] at hpage hlevel
  refine ⟨hI.root_ne hv _ ⟨_, hm⟩, by rw [hpage], ?_⟩
  rw [hpage, hlevel]
  exact Nat.div_add_mod' x kPricePartCount

/-- A cursor is at the price its parts join to. -/
theorem cursorAt_join {p i : UInt16} : s.cursorAt l (p.toNat * kPricePartCount + i.toNat)
    = ⟨s.rootAt l p.toNat, joinPrice p i, l, true⟩ := by
  have hp := p.toNat_lt
  have hi := i.toNat_lt
  have hdiv : (p.toNat * kPricePartCount + i.toNat) / kPricePartCount = p.toNat := by
    simp only [kPricePartCount] at *
    omega
  have hjoin : (p.toNat * kPricePartCount + i.toNat).toUInt32 = joinPrice p i := by
    rw [← UInt32.toNat_inj, joinPrice_toNat, toUInt32_toNat]
    simp only [kPricePartCount] at *
    omega
  rw [cursorAt, hdiv, hjoin]

theorem nextWorse_spec (hI : s.StoreInv) (hprep : s.isBookPrepared l = true)
    (hv : side ≠ .invalid) (hx : x ∈ s.occupiedPrices l side) :
    s.CursorOf l side (worseThan side (s.occupiedPrices l side) x)
      (s.nextWorse l side (s.cursorAt l x)) := by
  obtain ⟨hlt, hp, hm⟩ := lt_of_mem hx
  have hloc := locates_of_mem hI hv hx
  have hpage := hloc.div
  have hlevel := hloc.mod
  have hcm := hloc.committed hI.arena
  have hsub : ∀ q, s.bookLevels l side q ⊆ Finset.range kPricePartCount :=
    fun q => occupied_subset s _ side
  have hok := hI.page (s.rootAt l (x / kPricePartCount)) side hv
  have hbook := hI.book l side hv
  have hmatch : s.rootHandleMatches l (splitPrice x.toUInt32).pageIndex
      (s.rootAt l (x / kPricePartCount)) = true :=
    (rootHandleMatches_iff hI.arena).2 ⟨hloc.handle_ne, hloc.root⟩
  have hxeq : x = (splitPrice x.toUInt32).pageIndex.toNat * kPricePartCount
      + (splitPrice x.toUInt32).levelIndex.toNat := hloc.price.symm
  have hi := (splitPrice x.toUInt32).levelIndex.toNat_lt
  have hilt : (splitPrice x.toUInt32).levelIndex.toNat < kPricePartCount := hi
  rw [hpage, hlevel] at hm
  rw [hpage] at hok hmatch hp
  unfold nextWorse
  rw [if_neg (by simp [cursorAt, hprep, validSide_iff.2 hv])]
  simp only [cursorAt, hpage, hmatch, Bool.not_true, Bool.false_eq_true, if_false]
  generalize (splitPrice x.toUInt32).pageIndex = p at *
  generalize (splitPrice x.toUInt32).levelIndex = i at *
  rw [hxeq, occupiedPrices]
  rcases hok.next_level hm with ⟨hnone, hlast⟩ | ⟨hne, hn, hbest⟩
  · rw [hnone, if_neg (by simp)]
    rcases nextWorseIndex_spec side p hbook.consistent with ⟨hnone', hpages⟩ | ⟨hq, hbest⟩
    · rw [hnone', if_pos rfl]
      exact .inl ⟨no_next hsub hbook.members hilt hlast hpages, rfl⟩
    · have hqne : nextWorseIndex side (s.bookBitmap l side) p ≠ PriceBitmap.kInvalid :=
        fun he => kInvalid_notMem _ (he ▸ hq)
      obtain ⟨hqlt, hqocc⟩ := (hbook.members _).1 hq
      rw [if_neg hqne]
      generalize nextWorseIndex side (s.bookBitmap l side) p = q at *
      have hh := hI.pageHandle_eq hv hqlt hqocc
      have hokq := hI.page (s.rootAt l q) side hv
      have hqbest := hokq.best hqocc
      have hblt := Finset.mem_range.1 (hsub q hqbest.mem)
      rw [hh, if_neg (hI.root_ne hv q hqocc), if_neg]
      · refine .inr ⟨_, next_page hsub hbook.members hilt hlast hbest hqbest, ?_⟩
        have hcur := cursorAt_join (s := s) (l := l) (p := q.toUInt16)
          (i := (s.pageSummary (s.rootAt l q) side).bestLevelIndex.toUInt16)
        rw [toUInt16_toNat hqlt, level_toNat hblt] at hcur
        exact hcur.symm
      · exact not_or.2 ⟨hokq.activeLevels_eq_zero.not.2 hqocc.ne_empty, not_le.2 hblt⟩
  · have hnlt := Finset.mem_range.1 (hsub _ hn)
    rw [if_pos hne]
    generalize (if 1 < (s.pageSummary (s.rootAt l p.toNat) side).activeLevels then
      nextWorseIndex side (s.pageBitmap (s.rootAt l p.toNat) side) i else PriceBitmap.kInvalid)
      = n at *
    refine .inr ⟨_, next_in_page hsub hp hilt hbest, ?_⟩
    have hcur := cursorAt_join (s := s) (l := l) (p := p) (i := n.toUInt16)
    rw [toUInt16_toNat hnlt] at hcur
    exact hcur.symm

/-- The record of an occupied price is what its view shows. -/
theorem view_spec (hI : s.StoreInv) (hv : side ≠ .invalid) (hx : x ∈ s.occupiedPrices l side) :
    s.view (s.cursorAt l x) side
      = ⟨x.toUInt32, (s.levelOf l side x).totalQty, (s.levelOf l side x).orderCount, true⟩ := by
  have hloc := locates_of_mem hI hv hx
  have howns := hloc.ownsAddress hI.arena
  have h0 := (mem_occupiedPrices.1 hx).2
  have hvalid : s.validateAddress
      ⟨s.rootAt l (x / kPricePartCount), (splitPrice x.toUInt32).levelIndex⟩ side = .applied :=
    validateAddress_applied_iff.2 ⟨hv, (hloc.committed hI.arena).1⟩
  rw [hloc.levelOf] at h0 ⊢
  unfold view
  rw [if_neg (by simp [cursorAt])]
  simp only [cursorAt, howns, Bool.not_true, Bool.false_eq_true, if_false, resolveLevel, hvalid,
    ne_eq, not_true_eq_false, h0]

/-- What `topTen` writes for an occupied price. -/
def viewAt (s : PriceLevelStore) (l : UInt16) (side : OrderSide) (x : ℕ) : PriceLevelView :=
  ⟨x.toUInt32, (s.levelOf l side x).totalQty, (s.levelOf l side x).orderCount, true⟩

theorem take_set_succ {α : Type*} {output : List α} {count : ℕ} (h : count < output.length)
    (v : α) : (output.set count v).take (count + 1) = output.take count ++ [v] := by
  rw [List.take_add_one, List.take_set, List.getElem?_set_self h,
    List.set_eq_of_length_le (List.length_take_le _ _)]
  rfl

/-- The walk fills the best prices of what is left, `S`. -/
theorem topTenLoop_spec (hI : s.StoreInv) (hprep : s.isBookPrepared l = true)
    (hv : side ≠ .invalid) (n : ℕ) (S : Set ℕ) (cursor : PriceLevelCursor) (count : ℕ)
    (output : List PriceLevelView) (hcursor : s.CursorOf l side S cursor)
    (hS : S ⊆ s.occupiedPrices l side)
    (hclosed : ∀ x ∈ S, worseThan side (s.occupiedPrices l side) x ⊆ S)
    (hlen : count + n ≤ output.length) :
    ∃ xs, IsTop side S n xs ∧ (∀ x ∈ xs, x ∈ s.occupiedPrices l side)
      ∧ (s.topTenLoop l side n cursor count output).1 = count + xs.length
      ∧ (s.topTenLoop l side n cursor count output).2.take (count + xs.length)
        = output.take count ++ xs.map (s.viewAt l side) := by
  -- by induction on the slots left, `S` being what the cursor has not passed
  induction n generalizing S cursor count output with
  | zero => exact ⟨[], .zero S, by simp, rfl, by simp [topTenLoop]⟩
  | succ n ih =>
    rcases hcursor with ⟨rfl, rfl⟩ | ⟨x, hbest, rfl⟩
    · exact ⟨[], .empty _, by simp, rfl, by simp [topTenLoop, PriceLevelCursor.none]⟩
    have hx := hS hbest.mem
    have hview := view_spec hI hv hx
    have hrest : worseThan side S x = worseThan side (s.occupiedPrices l side) x := by
      ext y
      exact ⟨fun hy => ⟨hS hy.1, hy.2⟩, fun hy => ⟨hclosed x hbest.mem hy, hy.2⟩⟩
    have hset := take_set_succ (show count < output.length by omega) (s.viewAt l side x)
    unfold topTenLoop
    rw [if_neg (by simp [cursorAt]), hview]
    dsimp only
    rw [if_neg (by simp)]
    by_cases hn : n = 0
    · subst hn
      rw [if_pos rfl]
      refine ⟨[x], .cons hbest (.zero _), ?_, rfl, hset⟩
      intro y hy
      rwa [List.mem_singleton.1 hy]
    · have hclosed' : ∀ y ∈ worseThan side S x,
          worseThan side (s.occupiedPrices l side) y ⊆ worseThan side S x := by
        intro y hy z hz
        rw [hrest]
        refine ⟨hz.1, ?_⟩
        have h1 := hy.2
        have h2 := hz.2
        split_ifs at * <;> omega
      obtain ⟨xs, htop, hmem, hcount, htake⟩ := ih (worseThan side S x)
        (s.nextWorse l side (s.cursorAt l x)) (count + 1) (output.set count (s.viewAt l side x))
        (hrest ▸ nextWorse_spec hI hprep hv hx) (fun y hy => hS hy.1) hclosed'
        (by rw [List.length_set]; omega)
      rw [if_neg hn]
      refine ⟨x :: xs, .cons hbest htop, ?_, ?_, ?_⟩
      · intro y hy
        rcases List.mem_cons.1 hy with rfl | hy
        · exact hx
        · exact hmem y hy
      · rw [List.length_cons]
        exact hcount.trans (by omega)
      · rw [List.length_cons, List.map_cons, List.append_cons, ← hset]
        have hc : count + (xs.length + 1) = count + 1 + xs.length := by omega
        rw [hc]
        exact htake

theorem topTen_spec (hI : s.StoreInv) (hprep : s.isBookPrepared l = true) (hv : side ≠ .invalid)
    (output : List PriceLevelView) :
    ∃ xs, IsTop side (s.occupiedPrices l side) (min output.length kTopLevelCount) xs
      ∧ (∀ x ∈ xs, x ∈ s.occupiedPrices l side)
      ∧ (s.topTen l side output).1 = xs.length
      ∧ (s.topTen l side output).2.take xs.length = xs.map (s.viewAt l side) := by
  have h := topTenLoop_spec hI hprep hv (min output.length kTopLevelCount) _ _ 0 output
    (best_spec hI hprep hv) subset_rfl (fun x _ y hy => hy.1)
    (by rw [Nat.zero_add]; exact Nat.min_le_left _ _)
  simp only [Nat.zero_add, List.take_zero, List.nil_append] at h
  exact h

end PriceLevelStore

end AstraFeed
