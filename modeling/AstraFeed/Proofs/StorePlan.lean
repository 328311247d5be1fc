import AstraFeed.Proofs.StoreMutation

/-!
# Validating the removal of a level

Under the invariant the checks of `validateDeactivation` all pass for an occupied level, and the
plan it returns says what removing the level changes.
-/

namespace AstraFeed

open Function
open PriceBitmap (kInvalid)

/-! ## The best price of a book -/

section BestPrice

variable {side : OrderSide} {occ : ℕ → Finset ℕ} {p n : ℕ}

theorem mem_pricesOf (hp : p < kPricePartCount) (hn : n ∈ occ p) :
    p * kPricePartCount + n ∈ pricesOf occ := ⟨p, hp, n, hn, rfl⟩

/-- The best price is in the best page. -/
theorem IsBest.page {pages : Set ℕ} (h : IsBest side (pricesOf occ) (p * kPricePartCount + n))
    (hpages : ∀ q ∈ pages, q < kPricePartCount ∧ (occ q).Nonempty) (hp : p ∈ pages)
    (hn : n < kPricePartCount) (hsub : ∀ q, occ q ⊆ Finset.range kPricePartCount) :
    IsBest side pages p := by
  have hlt : ∀ q ∈ pages, ∃ j < kPricePartCount, q * kPricePartCount + j ∈ pricesOf occ := by
    intro q hq
    obtain ⟨hqK, j, hj⟩ := hpages q hq
    exact ⟨j, Finset.mem_range.1 (hsub q hj), mem_pricesOf hqK hj⟩
  unfold IsBest at h ⊢
  simp only [kPricePartCount] at hlt hn h
  split_ifs at h ⊢
  · refine ⟨hp, fun q hq => ?_⟩
    obtain ⟨j, _, hx⟩ := hlt q hq
    have := h.2 hx
    omega
  · refine ⟨hp, fun q hq => ?_⟩
    obtain ⟨j, _, hx⟩ := hlt q hq
    have := h.2 hx
    omega

/-- The best price is the best level of its page. -/
theorem IsBest.level (h : IsBest side (pricesOf occ) (p * kPricePartCount + n))
    (hp : p < kPricePartCount) (hn : n ∈ occ p) : IsBest side (occ p) n := by
  unfold IsBest at h ⊢
  split_ifs at h ⊢
  · refine ⟨hn, fun j hj => ?_⟩
    have := h.2 (mem_pricesOf hp hj)
    omega
  · refine ⟨hn, fun j hj => ?_⟩
    have := h.2 (mem_pricesOf hp hj)
    omega

/-- The best level of the best page is the best price. -/
theorem isBest_pricesOf {pages : Set ℕ} (hpage : IsBest side pages p)
    (hpages : ∀ q < kPricePartCount, (occ q).Nonempty → q ∈ pages) (hp : p < kPricePartCount)
    (hsub : ∀ q, occ q ⊆ Finset.range kPricePartCount) (hlevel : IsBest side (occ p) n) :
    IsBest side (pricesOf occ) (p * kPricePartCount + n) := by
  have hn := Finset.mem_range.1 (hsub p hlevel.mem)
  have hmem : p * kPricePartCount + n ∈ pricesOf occ := mem_pricesOf hp hlevel.mem
  unfold IsBest at hpage hlevel ⊢
  split_ifs at hpage hlevel ⊢
  · refine ⟨hmem, ?_⟩
    rintro x ⟨q, hq, j, hj, rfl⟩
    have hj' := Finset.mem_range.1 (hsub q hj)
    have hle := hpage.2 (hpages q hq ⟨j, hj⟩)
    rcases hle.eq_or_lt with rfl | hlt
    · have := hlevel.2 hj
      omega
    · simp only [kPricePartCount] at hj' ⊢
      omega
  · refine ⟨hmem, ?_⟩
    rintro x ⟨q, hq, j, hj, rfl⟩
    have hle := hpage.2 (hpages q hq ⟨j, hj⟩)
    rcases hle.eq_or_lt with rfl | hlt
    · have := hlevel.2 hj
      omega
    · simp only [kPricePartCount] at hn ⊢
      omega

end BestPrice

section BookBest

variable {side : OrderSide} {occ : ℕ → Finset ℕ} {root : ℕ → UInt32} {summary : BookSideSummary}
  {bitmap : PriceBitmapStorage} {p i : UInt16} {n : ℕ}

theorem BookOk.isBest_of_best (h : BookOk side occ root summary bitmap)
    (hi : i.toNat ∈ occ p.toNat) (hB : summary.bestRawPrice = joinPrice p i) :
    IsBest side (pricesOf occ) (p.toNat * kPricePartCount + i.toNat) := by
  rw [← joinPrice_toNat, ← hB]
  exact (h.best_some ⟨_, mem_pricesOf p.toNat_lt hi⟩).1

theorem BookOk.pages_best (h : BookOk side occ root summary bitmap)
    (hsub : ∀ q, occ q ⊆ Finset.range kPricePartCount) (hi : i.toNat ∈ occ p.toNat)
    (hB : summary.bestRawPrice = joinPrice p i) :
    IsBest side (PriceBitmap.members bitmap : Set ℕ) p.toNat :=
  (h.isBest_of_best hi hB).page (fun q hq => (h.members q).1 hq)
    ((h.members _).2 ⟨p.toNat_lt, _, hi⟩) i.toNat_lt hsub

/-- Without the best level, the next of its page is the best. -/
theorem BookOk.next_in_page (h : BookOk side occ root summary bitmap)
    (hsub : ∀ q, occ q ⊆ Finset.range kPricePartCount) (hi : i.toNat ∈ occ p.toNat)
    (hB : summary.bestRawPrice = joinPrice p i)
    (hn : IsBest side ((occ p.toNat).erase i.toNat) n) :
    IsBest side (pricesOf occ \ {(joinPrice p i).toNat}) (p.toNat * kPricePartCount + n) := by
  rw [← pricesOf_erase hsub]
  refine isBest_pricesOf (h.pages_best hsub hi hB) (fun q hq hne => ?_) p.toNat_lt (fun q => ?_) ?_
  · by_cases hqp : q = p.toNat
    · exact hqp ▸ (h.members _).2 ⟨p.toNat_lt, _, hi⟩
    · rw [update_of_ne hqp] at hne
      exact (h.members q).2 ⟨hq, hne⟩
  · by_cases hqp : q = p.toNat
    · rw [hqp, update_self]
      exact (Finset.erase_subset _ _).trans (hsub _)
    · rw [update_of_ne hqp]
      exact hsub q
  · rwa [update_self]

/-- Without the last level of its page, the best level of the next page is the best. -/
theorem BookOk.next_page (h : BookOk side occ root summary bitmap)
    (hsub : ∀ q, occ q ⊆ Finset.range kPricePartCount) (hone : occ p.toNat = {i.toNat}) {q : ℕ}
    (hq : IsBest side ((PriceBitmap.members bitmap).erase p.toNat : Finset ℕ) q)
    (hn : IsBest side (occ q) n) :
    IsBest side (pricesOf occ \ {(joinPrice p i).toNat}) (q * kPricePartCount + n) := by
  have hqm := Finset.mem_erase.1 hq.mem
  rw [← pricesOf_erase hsub, hone, Finset.erase_singleton]
  refine isBest_pricesOf hq (fun r hr hne => ?_) ((h.members q).1 hqm.2).1 (fun r => ?_) ?_
  · by_cases hrp : r = p.toNat
    · rw [hrp, update_self] at hne
      exact absurd hne (by simp)
    · rw [update_of_ne hrp] at hne
      exact Finset.mem_erase.2 ⟨hrp, (h.members r).2 ⟨hr, hne⟩⟩
  · by_cases hrp : r = p.toNat
    · rw [hrp, update_self]
      exact Finset.empty_subset _
    · rw [update_of_ne hrp]
      exact hsub r
  · rwa [update_of_ne hqm.1]

theorem BookOk.only_price (h : BookOk side occ root summary bitmap)
    (hone : occ p.toNat = {i.toNat}) (hpages : (PriceBitmap.members bitmap).card = 1) :
    pricesOf occ = {(joinPrice p i).toNat} := by
  obtain ⟨r, hr⟩ := Finset.card_eq_one.1 hpages
  have hmem : ∀ q < kPricePartCount, (occ q).Nonempty → q = r := by
    intro q hq hne
    have := (h.members q).2 ⟨hq, hne⟩
    rwa [hr, Finset.mem_singleton] at this
  have hpr := hmem _ p.toNat_lt (by rw [hone]; exact Finset.singleton_nonempty _)
  rw [joinPrice_toNat]
  ext x
  constructor
  · rintro ⟨q, hq, j, hj, rfl⟩
    have hqp := (hmem q hq ⟨j, hj⟩).trans hpr.symm
    rw [hqp, hone, Finset.mem_singleton] at hj
    rw [hqp, hj]
    rfl
  · rintro rfl
    exact mem_pricesOf p.toNat_lt (by rw [hone]; exact Finset.mem_singleton_self _)

theorem BookPlan.of_next {plan : DeactivationPlan}
    (hE : plan.pageBecomesEmpty = true ↔ (occ p.toNat).card = 1)
    (hB : summary.bestRawPrice = joinPrice p i) (hC : plan.bookBestChanges = true)
    (hn : IsBest side (pricesOf occ \ {(joinPrice p i).toNat}) plan.nextBookRawPrice.toNat)
    (hh : plan.nextBookPageHandle = root (plan.nextBookRawPrice.toNat / kPricePartCount)) :
    BookPlan side occ root summary p i plan where
  empty := hE
  best := iff_of_true hC hB
  next_none := fun _ h0 => absurd hn.mem (by rw [h0]; exact id)
  next_some := fun _ _ => ⟨hn, hh⟩

end BookBest

namespace PriceLevelStore

variable {s : PriceLevelStore} {a : PriceAddress} {side : OrderSide}

theorem owner_eq_some {h : UInt32} {o : PageOwner} :
    s.owner h = some o ↔ s.Committed h ∧ s.pageOwners h.toNat = o := by
  unfold owner Committed
  rw [← UInt32.not_lt]
  split_ifs with h0
  · exact iff_of_false (by simp) fun hx => h0.elim hx.1.1 hx.1.2
  · rw [Option.some_inj, and_iff_right (not_or.1 h0)]

theorem owner_of_committed {h : UInt32} (hc : s.Committed h) :
    s.owner h = some (s.pageOwners h.toNat) := owner_eq_some.2 ⟨hc, rfl⟩

theorem isValidStockLocate_of_prepared {l : UInt16} (h : s.isBookPrepared l = true) :
    isValidStockLocate l = true := by
  unfold isBookPrepared at h
  exact (Bool.and_eq_true_iff.1 h).1

theorem rootHandleMatches_iff (hI : s.ArenaInv) {l p : UInt16} {h : UInt32} :
    s.rootHandleMatches l p h = true ↔ h ≠ kInvalidPricePageHandle ∧ s.rootAt l p.toNat = h := by
  by_cases hc : s.Committed h
  · have hown := (hI.committed_iff h).2 hc
    simp only [rootHandleMatches, owner_of_committed hc, Bool.and_eq_true, bne_iff_ne, beq_iff_eq]
    rw [and_iff_right hc.1, hI.root_iff l p.toNat h p.toNat_lt hc.1, and_iff_right hc,
      and_iff_right hown, UInt16.toNat_inj]
  · have hnone : s.owner h = none :=
      Option.eq_none_iff_forall_ne_some.2 fun o ho => hc (owner_eq_some.1 ho).1
    simp only [rootHandleMatches, hnone, Bool.false_eq_true, false_iff]
    rintro ⟨h0, hr⟩
    exact hc ((hI.root_iff l p.toNat h p.toNat_lt h0).1 hr).1

/-- A page that holds a level is committed, and owned by the page of the book it is reached by. -/
theorem StoreInv.occupied_page (hI : s.StoreInv) (hv : side ≠ .invalid) {l : UInt16} {q : ℕ}
    (hq : q < kPricePartCount) (hne : (s.bookLevels l side q).Nonempty) :
    s.Committed (s.rootAt l q) ∧ (s.pageOwners (s.rootAt l q).toNat).stockLocate = l
      ∧ (s.pageOwners (s.rootAt l q).toNat).pageIndex.toNat = q :=
  (hI.arena.root_iff l q _ hq (hI.root_ne hv q hne)).1 rfl

theorem toUInt16_toNat {n : ℕ} (h : n < kPricePartCount) : (Nat.toUInt16 n).toNat = n :=
  UInt16.toNat_ofNat_of_lt' h

theorem level_toNat {x : UInt32} (h : x.toNat < kPricePartCount) :
    x.toUInt16.toNat = x.toNat := by
  rw [UInt32.toNat_toUInt16]
  exact Nat.mod_eq_of_lt h

/-- An occupied level has orders and quantity. -/
theorem StoreInv.level_ne_zero (hI : s.StoreInv) (hv : side ≠ .invalid) {h : UInt32} {i : UInt16}
    (hm : i.toNat ∈ s.occupied h side) :
    ¬ ((s.levelUnchecked ⟨h, i⟩ side).orderCount = 0
      ∨ (s.levelUnchecked ⟨h, i⟩ side).totalQty = 0) := by
  have h0 := (mem_occupied.1 hm).2
  exact not_or.2 ⟨h0, (hI.level_iff h side _ hv).not.1 h0⟩

theorem toUInt32_eq_iff {i : UInt16} {x : UInt32} : x = i.toUInt32 ↔ x.toNat = i.toNat := by
  rw [← UInt32.toNat_inj, UInt16.toNat_toUInt32]

/-! ## The plan -/

theorem planPage_spec (hI : s.StoreInv) (hv : side ≠ .invalid)
    (h0 : (s.levelUnchecked a side).orderCount ≠ 0) :
    ∃ plan, s.planPage a side = .ok plan
      ∧ PagePlan side (s.occupied a.pageHandle side) (s.pageSummary a.pageHandle side)
        a.levelIndex plan
      ∧ plan.bookBestChanges = false ∧ plan.nextBookPageHandle = kInvalidPricePageHandle := by
  have hpage := hI.page a.pageHandle side hv
  have hsub := occupied_subset s a.pageHandle side
  have hmem : a.levelIndex.toNat ∈ s.occupied a.pageHandle side := mem_occupied_level.2 h0
  have hpos : 0 < (s.occupied a.pageHandle side).card := Finset.card_pos.2 ⟨_, hmem⟩
  have hbest := hpage.best ⟨_, hmem⟩
  unfold planPage
  by_cases h1 : (s.occupied a.pageHandle side).card = 1
  · have hrem : (s.pageSummary a.pageHandle side).bestLevelIndex = a.levelIndex.toUInt32 := by
      rw [hpage.best_of_singleton h1, Finset.mem_singleton] at hmem
      exact toUInt32_eq_iff.2 hmem.symm
    simp only [hpage.activeLevels_eq_one.2 h1, if_true, beq_iff_eq.2 hrem, Bool.not_true,
      Bool.false_eq_true, if_false]
    refine ⟨_, rfl, ⟨?_, ?_, ?_⟩, rfl, rfl⟩
    · exact iff_of_true rfl h1
    · exact iff_of_false (by simp [DeactivationPlan.init]) fun hx => hx.1 h1
    · simp [DeactivationPlan.init]
  · have hmembers : PriceBitmap.members (s.pageBitmap a.pageHandle side)
        = s.occupied a.pageHandle side := by
      rw [hpage.members, if_pos (by omega)]
    have htest : ∀ i ∈ s.occupied a.pageHandle side,
        PriceBitmap.test (s.pageBitmap a.pageHandle side) i = true := by
      intro i hi
      rw [← hmembers] at hi
      exact (PriceBitmap.mem_members.1 hi).2
    have hnonempty : PriceBitmap.empty (s.pageBitmap a.pageHandle side) = false := by
      rw [← Bool.not_eq_true, PriceBitmap.empty_iff hpage.consistent, hmembers]
      exact Finset.nonempty_iff_ne_empty.1 ⟨_, hmem⟩
    simp only [if_neg (hpage.activeLevels_eq_one.not.2 h1), hnonempty, htest _ hmem,
      htest _ hbest.mem, Bool.not_true, Bool.false_eq_true, or_self, if_false]
    by_cases hrem : (s.pageSummary a.pageHandle side).bestLevelIndex = a.levelIndex.toUInt32
    · have hrem' := toUInt32_eq_iff.1 hrem
      have hworse := worse_best (hrem' ▸ hbest)
      have hne : (s.occupied a.pageHandle side).erase a.levelIndex.toNat ≠ ∅ := by
        rw [ne_eq, ← Finset.card_eq_zero, Finset.card_erase_of_mem hmem]
        omega
      rcases nextWorseIndex_spec side a.levelIndex hpage.consistent with ⟨_, hw⟩ | ⟨hm, hb⟩
      · rw [hmembers, hworse] at hw
        exact absurd hw hne
      · rw [hmembers] at hm
        rw [hmembers, hworse] at hb
        have hlt := Finset.mem_range.1 (hsub hm)
        have hinv : nextWorseIndex side (s.pageBitmap a.pageHandle side) a.levelIndex
            ≠ kInvalid := by
          intro hx
          rw [hx] at hlt
          simp [kInvalid, kPricePartCount] at hlt
        simp only [beq_iff_eq.2 hrem, if_true, if_neg hinv]
        rw [if_neg (hI.level_ne_zero hv (by rwa [toUInt16_toNat hlt]))]
        refine ⟨_, rfl, ⟨?_, ?_, ?_⟩, rfl, rfl⟩
        · exact iff_of_false (by simp [DeactivationPlan.init]) h1
        · exact iff_of_true rfl ⟨h1, hrem'⟩
        · exact fun _ => ⟨hlt, hb⟩
    · simp only [beq_eq_false_iff_ne.2 hrem, Bool.false_eq_true, if_false]
      refine ⟨_, rfl, ⟨?_, ?_, ?_⟩, rfl, rfl⟩
      · exact iff_of_false (by simp [DeactivationPlan.init]) h1
      · exact iff_of_false (by simp [DeactivationPlan.init]) fun hx => hrem (toUInt32_eq_iff.2 hx.2)
      · simp [DeactivationPlan.init]

theorem StoreInv.pageHandle_eq (hI : s.StoreInv) (hv : side ≠ .invalid) {l : UInt16} {q : ℕ}
    (hq : q < kPricePartCount) (hne : (s.bookLevels l side q).Nonempty) :
    s.pageHandle l q.toUInt16 = s.rootAt l q := by
  obtain ⟨hc, hl, hp⟩ := hI.occupied_page hv hq hne
  have hvalid := isValidStockLocate_of_prepared (hI.arena.prepared _ hc)
  rw [hl] at hvalid
  have hroot : s.roots (priceRootIndex l q.toUInt16) = s.rootAt l q := by
    rw [priceRootIndex_eq, toUInt16_toNat hq, rootAt]
  unfold pageHandle
  simp only [hvalid, Bool.not_true, Bool.false_eq_true, if_false, hroot]
  rw [if_pos]
  rw [rootHandleMatches_iff hI.arena, toUInt16_toNat hq]
  exact ⟨hc.1, rfl⟩

theorem planBook_spec (hI : s.StoreInv) (hv : side ≠ .invalid) (hc : s.Committed a.pageHandle)
    (h0 : (s.levelUnchecked a side).orderCount ≠ 0) {plan : DeactivationPlan}
    (hp : PagePlan side (s.occupied a.pageHandle side) (s.pageSummary a.pageHandle side)
      a.levelIndex plan)
    (hbc : plan.bookBestChanges = false)
    (hnp : plan.nextBookPageHandle = kInvalidPricePageHandle) :
    ∃ plan', s.planBook a side (s.ownerOf a) plan = .ok plan' ∧ SoundPlan s a side plan' := by
  set o := s.ownerOf a with ho
  have hbook := hI.book o.stockLocate side hv
  have hbl : s.bookLevels o.stockLocate side o.pageIndex.toNat = s.occupied a.pageHandle side :=
    hI.arena.bookLevels_ownerOf hc side
  have hroot : s.rootAt o.stockLocate o.pageIndex.toNat = a.pageHandle :=
    hI.arena.rootAt_ownerOf hc
  have hsub : ∀ q, s.bookLevels o.stockLocate side q ⊆ Finset.range kPricePartCount :=
    fun q => occupied_subset _ _ _
  have hmem : a.levelIndex.toNat ∈ s.bookLevels o.stockLocate side o.pageIndex.toNat :=
    hbl ▸ mem_occupied_level.2 h0
  have hempty := hp.empty
  rw [← hbl] at hempty
  have hone : plan.pageBecomesEmpty = true →
      s.bookLevels o.stockLocate side o.pageIndex.toNat = {a.levelIndex.toNat} := by
    intro hE
    obtain ⟨x, hx⟩ := Finset.card_eq_one.1 (hempty.1 hE)
    rw [hx, Finset.mem_singleton] at hmem
    rw [hx, hmem]
  have hactive : (s.bookSummary o.stockLocate side).activePages = 1
      ↔ (PriceBitmap.members (s.bookBitmap o.stockLocate side)).card = 1 := by
    rw [← UInt32.toNat_inj, hbook.activePages]
    rfl
  unfold planBook
  by_cases hB : (s.bookSummary o.stockLocate side).bestRawPrice
      = joinPrice o.pageIndex a.levelIndex
  · have hraw := hbook.isBest_of_best hmem hB
    have hhandle : (s.bookSummary o.stockLocate side).bestPageHandle = a.pageHandle := by
      have hx := (hbook.best_some ⟨_, mem_pricesOf o.pageIndex.toNat_lt hmem⟩).2
      rwa [hB, ← splitPrice_pageIndex, splitPrice_joinPrice_pageIndex, hroot] at hx
    have hlevel := hraw.level o.pageIndex.toNat_lt hmem
    rw [hbl] at hlevel
    have hrem' := ((hI.page a.pageHandle side hv).best ⟨_, mem_occupied_level.2 h0⟩).unique hlevel
    have hrem : ((s.pageSummary a.pageHandle side).bestLevelIndex == a.levelIndex.toUInt32)
        = true := beq_iff_eq.2 (toUInt32_eq_iff.2 hrem')
    simp only [hB, if_true, hhandle, ne_eq, not_true_eq_false, hrem, Bool.not_true,
      Bool.false_eq_true, or_self, if_false]
    by_cases hE : plan.pageBecomesEmpty = true
    · have hpages := hbook.pages_best hsub hmem hB
      have hspec := nextWorseIndex_spec side o.pageIndex hbook.consistent
      rw [worse_best hpages] at hspec
      have hpm : o.pageIndex.toNat ∈ PriceBitmap.members (s.bookBitmap o.stockLocate side) :=
        hpages.mem
      rw [if_neg (by simpa using hE)]
      by_cases h1 : (s.bookSummary o.stockLocate side).activePages = 1
      · have hlast : (PriceBitmap.members (s.bookBitmap o.stockLocate side)).erase
            o.pageIndex.toNat = ∅ := by
          rw [← Finset.card_eq_zero, Finset.card_erase_of_mem hpm, hactive.1 h1]
        have hinv : nextWorseIndex side (s.bookBitmap o.stockLocate side) o.pageIndex
            = kInvalid := by
          rcases hspec with ⟨hx, _⟩ | ⟨_, hx⟩
          · exact hx
          · have := hx.mem
            simp [hlast] at this
        have hprices := hbook.only_price (hone hE) (hactive.1 h1)
        rw [if_pos h1, if_pos hinv]
        refine ⟨_, rfl, ⟨⟨hp.empty, hp.best, hp.next⟩, ⟨hempty, ?_, ?_, ?_⟩⟩⟩
        · exact iff_of_true rfl hB
        · exact fun _ _ => hnp
        · intro _ hx
          rw [hprices, Set.sdiff_self] at hx
          exact absurd hx Set.not_nonempty_empty
      · have hmore : (PriceBitmap.members (s.bookBitmap o.stockLocate side)).erase
            o.pageIndex.toNat ≠ ∅ := by
          have hpos := Finset.card_pos.2 ⟨_, hpm⟩
          rw [hactive] at h1
          rw [ne_eq, ← Finset.card_eq_zero, Finset.card_erase_of_mem hpm]
          omega
        rcases hspec with ⟨_, hx⟩ | ⟨hqm, hq⟩
        · exact absurd hx hmore
        set q := nextWorseIndex side (s.bookBitmap o.stockLocate side) o.pageIndex
        obtain ⟨hqK, hqne⟩ := (hbook.members q).1 hqm
        have hinv : q ≠ kInvalid := fun hx => kInvalid_notMem _ (hx ▸ hqm)
        have hph := hI.pageHandle_eq hv hqK hqne
        have hnpage := hI.page (s.rootAt o.stockLocate q) side hv
        have hnbest := hnpage.best hqne
        have hnK := Finset.mem_range.1 (occupied_subset _ _ _ hnbest.mem)
        rw [if_neg h1, if_neg hinv, hph, if_neg (hI.root_ne hv q hqne), if_neg]
        · rw [if_neg (hI.level_ne_zero hv (by rw [level_toNat hnK]; exact hnbest.mem))]
          refine ⟨_, rfl, ⟨⟨hp.empty, hp.best, hp.next⟩, BookPlan.of_next hempty hB rfl ?_ ?_⟩⟩
          · have := hbook.next_page hsub (hone hE) hq hnbest
            rwa [← level_toNat hnK, ← toUInt16_toNat hqK, ← joinPrice_toNat, toUInt16_toNat hqK] at this
          · rw [← splitPrice_pageIndex, splitPrice_joinPrice_pageIndex, toUInt16_toNat hqK]
        · rw [hnpage.activeLevels_eq_zero, not_or]
          exact ⟨hqne.ne_empty, not_le.2 hnK⟩
    · have hcard : (s.occupied a.pageHandle side).card ≠ 1 := fun h1 => hE (hp.empty.2 h1)
      have hC := hp.best.2 ⟨hcard, hrem'⟩
      obtain ⟨hnlt, hnext⟩ := hp.next hC
      rw [← hbl] at hnext
      rw [if_pos (by simpa using hE), if_neg (by simpa using hC)]
      refine ⟨_, rfl, ⟨⟨?_, ?_, ?_⟩, BookPlan.of_next ?_ hB rfl ?_ ?_⟩⟩
      · exact hp.empty
      · exact hp.best
      · exact hp.next
      · exact hempty
      · have := hbook.next_in_page hsub hmem hB hnext
        rwa [← toUInt16_toNat hnlt, ← joinPrice_toNat] at this
      · rw [← splitPrice_pageIndex, splitPrice_joinPrice_pageIndex, hroot]
  · rw [if_neg hB, if_neg]
    · refine ⟨_, rfl, hp, ⟨hempty, ?_, ?_, ?_⟩⟩
      · rw [hbc]
        exact iff_of_false (by simp) hB
      · simp [hbc]
      · simp [hbc]
    · -- were the level the book's only one, it would be the best
      rintro ⟨hE, h1⟩
      have hprices := hbook.only_price (hone hE) (hactive.1 h1)
      have hx := (hbook.best_some ⟨_, mem_pricesOf o.pageIndex.toNat_lt hmem⟩).1.mem
      rw [hprices, Set.mem_singleton_iff, UInt32.toNat_inj] at hx
      exact hB hx

/-! ## The checks -/

/-- The cached best price of a side that holds a level: its page is committed to the book, and the
level is the best of its page. -/
theorem StoreInv.cached_best (hI : s.StoreInv) (hv : side ≠ .invalid) {l : UInt16}
    (hne : (pricesOf (s.bookLevels l side)).Nonempty) {b : BookSideSummary}
    (hb : s.bookSummary l side = b) :
    s.Committed b.bestPageHandle
      ∧ (s.pageOwners b.bestPageHandle.toNat).stockLocate = l
      ∧ (s.pageOwners b.bestPageHandle.toNat).pageIndex = (splitPrice b.bestRawPrice).pageIndex
      ∧ IsBest side (s.occupied b.bestPageHandle side)
        (splitPrice b.bestRawPrice).levelIndex.toNat := by
  have hbook := hI.book l side hv
  rw [hb] at hbook
  obtain ⟨hbest, hhandle⟩ := hbook.best_some hne
  obtain ⟨hpK, hmem⟩ := hbook.best_page (fun q => occupied_subset _ _ _) hne
  rw [← splitPrice_pageIndex] at hhandle hpK hmem
  rw [← splitPrice_levelIndex] at hmem
  obtain ⟨hc, hl, hp⟩ := hI.occupied_page hv hpK ⟨_, hmem⟩
  rw [← hhandle] at hc hl hp
  refine ⟨hc, hl, UInt16.toNat_inj.1 hp, ?_⟩
  have hraw : b.bestRawPrice.toNat = (splitPrice b.bestRawPrice).pageIndex.toNat * kPricePartCount
      + (splitPrice b.bestRawPrice).levelIndex.toNat := by
    rw [splitPrice_pageIndex, splitPrice_levelIndex]
    exact (Nat.div_add_mod' _ _).symm
  rw [hraw] at hbest
  have hlevel := hbest.level hpK hmem
  unfold bookLevels at hlevel
  rwa [← hhandle] at hlevel

theorem validateDeactivation_spec (hI : s.StoreInv) (hv : side ≠ .invalid)
    (hc : s.Committed a.pageHandle) (h0 : (s.levelUnchecked a side).orderCount ≠ 0) :
    ∃ plan, s.validateDeactivation a side = .ok plan ∧ SoundPlan s a side plan := by
  have hbook := hI.book (s.ownerOf a).stockLocate side hv
  have hpage := hI.page a.pageHandle side hv
  have hocc : a.levelIndex.toNat ∈ s.occupied a.pageHandle side := mem_occupied_level.2 h0
  have hmem : a.levelIndex.toNat
      ∈ s.bookLevels (s.ownerOf a).stockLocate side (s.ownerOf a).pageIndex.toNat := by
    rwa [hI.arena.bookLevels_ownerOf hc]
  have hne : (pricesOf (s.bookLevels (s.ownerOf a).stockLocate side)).Nonempty :=
    ⟨_, mem_pricesOf (s.ownerOf a).pageIndex.toNat_lt hmem⟩
  have hpm := (hbook.members _).2 ⟨(s.ownerOf a).pageIndex.toNat_lt, _, hmem⟩
  obtain ⟨hcc, hcl, hcp, hcb⟩ := hI.cached_best hv hne rfl
  have hcpage := hI.page (s.bookSummary (s.ownerOf a).stockLocate side).bestPageHandle side hv
  have hcommitted : ¬ ((s.pageOwners a.pageHandle.toNat).committed = 0
      ∨ (!isValidStockLocate (s.pageOwners a.pageHandle.toNat).stockLocate) = true) := by
    rw [not_or, Bool.not_eq_true, Bool.not_eq_false']
    exact ⟨(hI.arena.committed_iff _).2 hc,
      isValidStockLocate_of_prepared (hI.arena.prepared _ hc)⟩
  have hsummaries : ¬ ((s.pageSummary a.pageHandle side).activeLevels = 0
      ∨ kPricePartCount < (s.pageSummary a.pageHandle side).activeLevels.toNat
      ∨ kPricePartCount ≤ (s.pageSummary a.pageHandle side).bestLevelIndex.toNat
      ∨ (s.bookSummary (s.ownerOf a).stockLocate side).activePages = 0
      ∨ kPricePartCount < (s.bookSummary (s.ownerOf a).stockLocate side).activePages.toNat
      ∨ (s.bookSummary (s.ownerOf a).stockLocate side).bestPageHandle = kInvalidPricePageHandle
      ∨ (!PriceBitmap.test (s.bookBitmap (s.ownerOf a).stockLocate side)
        (s.ownerOf a).pageIndex.toNat) = true) := by
    rw [hpage.activeLevels_eq_zero, hpage.activeLevels, hbook.activePages_eq_zero,
      hbook.activePages, (PriceBitmap.mem_members.1 hpm).2]
    simp only [not_or, not_lt, not_le, Bool.not_true, Bool.false_eq_true, not_false_eq_true,
      and_true]
    exact ⟨Finset.ne_empty_of_mem hocc, card_le_of_subset (occupied_subset _ _ _),
      Finset.mem_range.1 (occupied_subset _ _ _ (hpage.best ⟨_, hocc⟩).mem), hne.ne_empty,
      BookOk.members_card_le _, hcc.1⟩
  have hcached : ¬ ((s.pageOwners
        (s.bookSummary (s.ownerOf a).stockLocate side).bestPageHandle.toNat).committed = 0
      ∨ (s.pageOwners (s.bookSummary (s.ownerOf a).stockLocate side).bestPageHandle.toNat).stockLocate
        ≠ (s.ownerOf a).stockLocate
      ∨ (s.pageOwners (s.bookSummary (s.ownerOf a).stockLocate side).bestPageHandle.toNat).pageIndex
        ≠ (splitPrice (s.bookSummary (s.ownerOf a).stockLocate side).bestRawPrice).pageIndex) := by
    rw [hcl, hcp, not_or]
    exact ⟨(hI.arena.committed_iff _).2 hcc, by simp⟩
  have hcachedPage : ¬ ((s.pageSummary (s.bookSummary (s.ownerOf a).stockLocate side).bestPageHandle
        side).activeLevels = 0
      ∨ (s.pageSummary (s.bookSummary (s.ownerOf a).stockLocate side).bestPageHandle
        side).bestLevelIndex
        ≠ (splitPrice (s.bookSummary (s.ownerOf a).stockLocate side).bestRawPrice).levelIndex.toUInt32)
      := by
    rw [hcpage.activeLevels_eq_zero, not_or, not_ne_iff, toUInt32_eq_iff]
    exact ⟨Finset.ne_empty_of_mem hcb.mem, (hcpage.best ⟨_, hcb.mem⟩).unique hcb⟩
  obtain ⟨plan, hplan, hpp, hbc, hnp⟩ := planPage_spec hI hv h0
  obtain ⟨plan', hplan', hsound⟩ := planBook_spec hI hv hc h0 hpp hbc hnp
  refine ⟨plan', ?_, hsound⟩
  unfold validateDeactivation
  rw [owner_of_committed hc]
  dsimp only
  rw [if_neg hcommitted]
  erw [if_neg hsummaries, owner_of_committed hcc]
  dsimp only
  erw [if_neg hcached, if_neg hcachedPage, if_neg (hI.level_ne_zero hv hcb.mem)]
  rw [hplan]
  exact hplan'

end PriceLevelStore

end AstraFeed
