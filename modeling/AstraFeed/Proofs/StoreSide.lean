import AstraFeed.StoreInvariant
import AstraFeed.Proofs.PriceBitmap

/-!
# Summaries and bitmaps as a level fills or empties

What `activateLevel` and `deactivateLevel` do to one page's side keeps `PageOk`, and what they do to
one book's side keeps `BookOk`, whatever the rest of the store holds.
-/

namespace AstraFeed

open PriceBitmap (kInvalid)

/-! ## Prices -/

theorem joinPrice_toNat (p i : UInt16) :
    (joinPrice p i).toNat = p.toNat * kPricePartCount + i.toNat := by
  have hp := p.toNat_lt
  have hi := i.toNat_lt
  simp only [joinPrice, UInt32.toNat_or, UInt32.toNat_shiftLeft, UInt16.toNat_toUInt32,
    kPricePartCount]
  rw [show (16 : UInt32).toNat % 32 = 16 from rfl, Nat.shiftLeft_eq, Nat.mod_eq_of_lt (by omega),
    Nat.mul_comm, ← Nat.two_pow_add_eq_or_of_lt (i := 16) (by omega)]

theorem splitPrice_pageIndex (x : UInt32) :
    (splitPrice x).pageIndex.toNat = x.toNat / kPricePartCount := by
  have hx := x.toNat_lt
  simp only [splitPrice, UInt32.toNat_toUInt16, UInt32.toNat_shiftRight, kPricePartCount]
  rw [show (16 : UInt32).toNat % 32 = 16 from rfl, Nat.shiftRight_eq_div_pow]
  omega

theorem splitPrice_levelIndex (x : UInt32) :
    (splitPrice x).levelIndex.toNat = x.toNat % kPricePartCount := by
  simp only [splitPrice, UInt32.toNat_toUInt16, UInt32.toNat_and, kPricePartCount]
  rw [show (0xffff : UInt32).toNat = 2 ^ 16 - 1 from rfl, Nat.and_two_pow_sub_one_eq_mod]
  omega

theorem splitPrice_joinPrice_pageIndex (p i : UInt16) :
    (splitPrice (joinPrice p i)).pageIndex.toNat = p.toNat := by
  have hi := i.toNat_lt
  rw [splitPrice_pageIndex, joinPrice_toNat]
  simp only [kPricePartCount]
  omega

theorem priceRootIndex_eq (l p : UInt16) :
    priceRootIndex l p = l.toNat * kPricePartCount + p.toNat := by
  have hp := p.toNat_lt
  simp only [priceRootIndex, kPricePartCount]
  rw [Nat.shiftLeft_eq, Nat.mul_comm, ← Nat.two_pow_add_eq_or_of_lt (i := 16) (by omega)]

/-! ## Best -/

theorem IsBest.mem {side : OrderSide} {S : Set ℕ} {b : ℕ} (h : IsBest side S b) : b ∈ S := by
  unfold IsBest at h
  split_ifs at h
  · exact h.1
  · exact h.1

theorem IsBest.unique {side : OrderSide} {S : Set ℕ} {b c : ℕ} (h : IsBest side S b)
    (h' : IsBest side S c) : b = c := by
  unfold IsBest at h h'
  split_ifs at h h'
  · exact h.unique h'
  · exact h.unique h'

theorem isBest_singleton (side : OrderSide) (b : ℕ) : IsBest side {b} b := by
  unfold IsBest
  split_ifs
  · exact isGreatest_singleton
  · exact isLeast_singleton

theorem better_iff (side : OrderSide) (a b : UInt32) :
    PriceLevelStore.better side a b = true
      ↔ if side = .buy then b.toNat < a.toNat else a.toNat < b.toNat := by
  unfold PriceLevelStore.better
  split_ifs <;> simp [UInt32.lt_iff_toNat_lt]

/-- A new element is the best when it is better than the best, else the best stays. -/
theorem IsBest.insert {side : OrderSide} {S : Set ℕ} {a b : UInt32}
    (h : IsBest side S b.toNat) : IsBest side (insert a.toNat S)
      (if PriceLevelStore.better side a b then a else b).toNat := by
  have hb := better_iff side a b
  unfold IsBest at h ⊢
  split_ifs at h hb ⊢ with h1 h2 h2
  · refine ⟨.inl rfl, ?_⟩
    rintro x (rfl | hx)
    · exact le_rfl
    · exact (h.2 hx).trans (hb.1 h2).le
  · refine ⟨.inr h.1, ?_⟩
    rintro x (rfl | hx)
    · exact not_lt.1 fun hlt => h2 (hb.2 hlt)
    · exact h.2 hx
  · refine ⟨.inl rfl, ?_⟩
    rintro x (rfl | hx)
    · exact le_rfl
    · exact (hb.1 h2).le.trans (h.2 hx)
  · refine ⟨.inr h.1, ?_⟩
    rintro x (rfl | hx)
    · exact not_lt.1 fun hlt => h2 (hb.2 hlt)
    · exact h.2 hx

/-- Taking out an element that is not the best leaves the best. -/
theorem IsBest.diff {side : OrderSide} {S : Set ℕ} {b i : ℕ} (h : IsBest side S b) (hi : i ≠ b) :
    IsBest side (S \ {i}) b := by
  unfold IsBest at h ⊢
  split_ifs at h ⊢
  · exact ⟨⟨h.1, fun hb => hi hb.symm⟩, fun x hx => h.2 hx.1⟩
  · exact ⟨⟨h.1, fun hb => hi hb.symm⟩, fun x hx => h.2 hx.1⟩

/-- The members strictly worse than `index`. -/
def worse (side : OrderSide) (S : Finset ℕ) (index : ℕ) : Finset ℕ :=
  S.filter fun x => if side = .buy then x < index else index < x

theorem kInvalid_notMem (bitmap : PriceBitmapStorage) : kInvalid ∉ PriceBitmap.members bitmap := by
  intro h
  have := (PriceBitmap.mem_members.1 h).1
  simp [PriceBitmap.kNumBits, kInvalid] at this

/-- The search for the next worse index finds the best of the members strictly worse than it. -/
theorem nextWorseIndex_spec (side : OrderSide) {bitmap : PriceBitmapStorage} (index : UInt16)
    (hc : PriceBitmap.Consistent bitmap) :
    PriceLevelStore.nextWorseIndex side bitmap index = kInvalid
        ∧ worse side (PriceBitmap.members bitmap) index.toNat = ∅
      ∨ PriceLevelStore.nextWorseIndex side bitmap index ∈ PriceBitmap.members bitmap
        ∧ IsBest side (worse side (PriceBitmap.members bitmap) index.toNat)
          (PriceLevelStore.nextWorseIndex side bitmap index) := by
  have hidx := index.toNat_lt
  have hz : index ≠ 0 ↔ index.toNat ≠ 0 := by rw [← UInt16.toNat_inj.ne]; rfl
  unfold PriceLevelStore.nextWorseIndex worse IsBest
  split_ifs with h1 h2 h2
  · rw [hz] at h2
    rcases PriceBitmap.findHighestAtOrBelow_spec hc (index.toNat - 1) with ⟨hr, hn⟩ | ⟨hm, hle, hx⟩
    · refine .inl ⟨hr, ?_⟩
      simp only [Finset.filter_eq_empty_iff]
      intro x hx
      have := hn x hx
      omega
    · refine .inr ⟨hm, ?_, ?_⟩
      · simp only [Finset.mem_coe, Finset.mem_filter]
        exact ⟨hm, by omega⟩
      · intro x hxm
        simp only [Finset.mem_coe, Finset.mem_filter] at hxm
        exact hx x hxm.1 (by omega)
  · refine .inl ⟨rfl, ?_⟩
    simp only [hz, not_not] at h2
    simp only [Finset.filter_eq_empty_iff]
    intro x _
    omega
  · rcases PriceBitmap.findLowestAtOrAbove_spec hc (index.toNat + 1) with ⟨hr, hn⟩ | ⟨hm, hle, hx⟩
    · refine .inl ⟨hr, ?_⟩
      simp only [Finset.filter_eq_empty_iff]
      intro x hx
      have := hn x hx
      omega
    · refine .inr ⟨hm, ?_, ?_⟩
      · simp only [Finset.mem_coe, Finset.mem_filter]
        exact ⟨hm, by omega⟩
      · intro x hxm
        simp only [Finset.mem_coe, Finset.mem_filter] at hxm
        exact hx x hxm.1 (by omega)
  · refine .inl ⟨rfl, ?_⟩
    simp only [Finset.filter_eq_empty_iff]
    intro x hx
    have := (PriceBitmap.mem_members.1 hx).1
    simp only [PriceBitmap.kNumBits] at this
    omega

/-- What is strictly worse than the best is everything else. -/
theorem worse_best {side : OrderSide} {S : Finset ℕ} {b : ℕ} (h : IsBest side S b) :
    worse side S b = S.erase b := by
  unfold IsBest at h
  ext x
  simp only [worse, Finset.mem_filter, Finset.mem_erase]
  constructor
  · rintro ⟨hx, hlt⟩
    refine ⟨?_, hx⟩
    rintro rfl
    split_ifs at hlt <;> omega
  · rintro ⟨hne, hx⟩
    refine ⟨hx, ?_⟩
    split_ifs at h ⊢
    · exact lt_of_le_of_ne (h.2 hx) hne
    · exact lt_of_le_of_ne (h.2 hx) hne.symm

/-! ## A page's side -/

section Page

variable {side : OrderSide} {occ : Finset ℕ} {summary : PageSideSummary}
  {bitmap : PriceBitmapStorage} {i : UInt16}

theorem card_le_of_subset (hsub : occ ⊆ Finset.range kPricePartCount) :
    occ.card ≤ kPricePartCount := by
  simpa using Finset.card_le_card hsub

theorem PageOk.activeLevels_eq_zero (h : PageOk side occ summary bitmap) :
    summary.activeLevels = 0 ↔ occ = ∅ := by
  rw [← UInt32.toNat_inj, h.activeLevels, ← Finset.card_eq_zero]
  rfl

theorem PageOk.activeLevels_eq_one (h : PageOk side occ summary bitmap) :
    summary.activeLevels = 1 ↔ occ.card = 1 := by
  rw [← UInt32.toNat_inj, h.activeLevels]
  rfl

theorem PageOk.one_lt_activeLevels (h : PageOk side occ summary bitmap) :
    1 < summary.activeLevels ↔ 1 < occ.card := by
  rw [UInt32.lt_iff_toNat_lt, h.activeLevels]
  rfl

theorem PageOk.best_of_singleton (h : PageOk side occ summary bitmap) (hcard : occ.card = 1) :
    occ = {summary.bestLevelIndex.toNat} := by
  obtain ⟨a, rfl⟩ := Finset.card_eq_one.1 hcard
  have := (h.best ⟨a, by simp⟩).mem
  simp only [Finset.coe_singleton, Set.mem_singleton_iff] at this
  rw [this]

theorem PageOk.activate (h : PageOk side occ summary bitmap)
    (hsub : occ ⊆ Finset.range kPricePartCount) (hi : i.toNat ∉ occ) :
    PageOk side (insert i.toNat occ)
      { activeLevels := summary.activeLevels + 1
        bestLevelIndex :=
          if summary.activeLevels == 0
              || PriceLevelStore.better side i.toUInt32 summary.bestLevelIndex then i.toUInt32
          else summary.bestLevelIndex }
      (if summary.activeLevels = 1 then
        PriceBitmap.set (PriceBitmap.set bitmap summary.bestLevelIndex.toNat) i.toNat
      else if 1 < summary.activeLevels then PriceBitmap.set bitmap i.toNat
      else bitmap) := by
  have hcard := card_le_of_subset hsub
  have hi16 : i.toNat < PriceBitmap.kNumBits := i.toNat_lt
  have hins := Finset.card_insert_of_notMem hi
  simp only [kPricePartCount] at hcard
  constructor
  · rw [hins, UInt32.toNat_add, h.activeLevels]
    have : (1 : UInt32).toNat = 1 := rfl
    omega
  · split_ifs
    · exact PriceBitmap.consistent_set _ (PriceBitmap.consistent_set _ h.consistent)
    · exact PriceBitmap.consistent_set _ h.consistent
    · exact h.consistent
  · simp only [h.activeLevels_eq_one, h.one_lt_activeLevels, hins]
    rcases Nat.lt_trichotomy occ.card 1 with h1 | h1 | h1
    · rw [if_neg (by omega), if_neg (by omega), h.members, if_neg (by omega), if_neg (by omega)]
    · have hb := h.best_of_singleton h1
      have hbest : summary.bestLevelIndex.toNat < PriceBitmap.kNumBits := by
        have := hsub (hb ▸ Finset.mem_singleton_self _)
        simpa [kPricePartCount, PriceBitmap.kNumBits] using this
      rw [if_pos h1, if_pos (by omega), PriceBitmap.members_set hi16,
        PriceBitmap.members_set hbest, h.members, if_neg (by omega)]
      rw [hb]
      rfl
    · rw [if_neg (by omega), if_pos h1, if_pos (by omega), PriceBitmap.members_set hi16, h.members,
        if_pos (by omega)]
  · intro _
    have hcast : i.toUInt32.toNat = i.toNat := UInt16.toNat_toUInt32 i
    rcases Finset.eq_empty_or_nonempty occ with hocc | hocc
    · have h0 := h.activeLevels_eq_zero.2 hocc
      simp only [h0, beq_self_eq_true, Bool.true_or, if_true, hocc, hcast]
      simpa using isBest_singleton side i.toNat
    · have h0 : summary.activeLevels ≠ 0 := fun h0 => hocc.ne_empty (h.activeLevels_eq_zero.1 h0)
      have hb := (h.best hocc).insert (a := i.toUInt32)
      rw [hcast] at hb
      simpa [h0] using hb

/-- The page's part of a sound deactivation plan for level `i`. -/
structure PagePlan (side : OrderSide) (occ : Finset ℕ) (summary : PageSideSummary) (i : UInt16)
    (plan : DeactivationPlan) : Prop where
  empty : plan.pageBecomesEmpty = true ↔ occ.card = 1
  best : plan.pageBestChanges = true ↔ occ.card ≠ 1 ∧ summary.bestLevelIndex.toNat = i.toNat
  next : plan.pageBestChanges = true → plan.nextLevelIndex < kPricePartCount
    ∧ IsBest side (occ.erase i.toNat) plan.nextLevelIndex

theorem PageOk.deactivate {plan : DeactivationPlan} (h : PageOk side occ summary bitmap)
    (hsub : occ ⊆ Finset.range kPricePartCount) (hi : i.toNat ∈ occ)
    (hp : PagePlan side occ summary i plan) :
    let activeLevels' := if plan.pageBecomesEmpty then 0 else summary.activeLevels - 1
    let bestLevelIndex' :=
      if plan.pageBecomesEmpty then 0
      else if plan.pageBestChanges then plan.nextLevelIndex.toUInt32
      else summary.bestLevelIndex
    PageOk side (occ.erase i.toNat) ⟨bestLevelIndex', activeLevels'⟩
      (if plan.pageBecomesEmpty then bitmap
      else if activeLevels' = 1 then
        PriceBitmap.reset (PriceBitmap.reset bitmap i.toNat) bestLevelIndex'.toNat
      else PriceBitmap.reset bitmap i.toNat) := by
  have hcard := card_le_of_subset hsub
  have hpos : 0 < occ.card := Finset.card_pos.2 ⟨_, hi⟩
  have hers := Finset.card_erase_of_mem hi
  have hnext : ∀ n < kPricePartCount, (Nat.toUInt32 n).toNat = n := by
    intro n hn
    simp only [kPricePartCount] at hn
    exact UInt32.toNat_ofNat_of_lt' (by simp only [UInt32.size]; omega)
  simp only [kPricePartCount] at hcard
  intro activeLevels' bestLevelIndex'
  by_cases hE : plan.pageBecomesEmpty = true
  · have h1 := hp.empty.1 hE
    have hocc : occ.erase i.toNat = ∅ := Finset.card_eq_zero.1 (by omega)
    simp only [activeLevels', bestLevelIndex', hE, if_true, hocc]
    refine ⟨rfl, h.consistent, ?_, fun hne => absurd hne (by simp)⟩
    rw [h.members, if_neg (by omega)]
    simp
  · have h1 : occ.card ≠ 1 := fun h1 => hE (hp.empty.2 h1)
    have hact : activeLevels'.toNat = occ.card - 1 := by
      simp only [activeLevels', if_neg hE]
      rw [UInt32.toNat_sub_of_le _ _ (by rw [UInt32.le_iff_toNat_le, h.activeLevels]; exact hpos),
        h.activeLevels]
      rfl
    have hbest : IsBest side (occ.erase i.toNat) bestLevelIndex'.toNat := by
      simp only [bestLevelIndex', if_neg hE]
      split_ifs with hB
      · obtain ⟨hlt, hb⟩ := hp.next hB
        rwa [hnext _ hlt]
      · have hne : summary.bestLevelIndex.toNat ≠ i.toNat := fun he => hB (hp.best.2 ⟨h1, he⟩)
        rw [Finset.coe_erase]
        exact (h.best ⟨_, hi⟩).diff hne.symm
    simp only [if_neg hE]
    refine ⟨by rw [hers, hact], ?_, ?_, fun _ => hbest⟩
    · split_ifs
      · exact PriceBitmap.consistent_reset _ (PriceBitmap.consistent_reset _ h.consistent)
      · exact PriceBitmap.consistent_reset _ h.consistent
    · have hone : activeLevels' = 1 ↔ occ.card = 2 := by
        rw [← UInt32.toNat_inj, hact, show (1 : UInt32).toNat = 1 from rfl]
        omega
      rw [hers]
      by_cases h2 : occ.card = 2
      · rw [if_pos (hone.2 h2), PriceBitmap.members_reset, PriceBitmap.members_reset, h.members,
          if_pos (by omega), if_neg (by omega)]
        obtain ⟨a, ha⟩ := Finset.card_eq_one.1 (show (occ.erase i.toNat).card = 1 by omega)
        have := hbest.mem
        rw [ha] at this ⊢
        simp only [Finset.coe_singleton, Set.mem_singleton_iff] at this
        simp [this]
      · rw [if_neg (hone.not.2 h2), PriceBitmap.members_reset, h.members, if_pos (by omega),
          if_pos (by omega)]

end Page

/-! ## A book's side -/

section Book

open Function

variable {side : OrderSide} {occ : ℕ → Finset ℕ} {root : ℕ → UInt32} {summary : BookSideSummary}
  {bitmap : PriceBitmapStorage} {p i : UInt16} {handle : UInt32}

theorem pricesOf_insert : pricesOf (update occ p.toNat (insert i.toNat (occ p.toNat)))
    = insert (joinPrice p i).toNat (pricesOf occ) := by
  rw [joinPrice_toNat]
  ext x
  constructor
  · rintro ⟨q, hq, j, hj, rfl⟩
    by_cases hqp : q = p.toNat
    · subst hqp
      rw [update_self, Finset.mem_insert] at hj
      rcases hj with rfl | hj
      · exact .inl rfl
      · exact .inr ⟨_, hq, j, hj, rfl⟩
    · rw [update_of_ne hqp] at hj
      exact .inr ⟨q, hq, j, hj, rfl⟩
  · rintro (rfl | ⟨q, hq, j, hj, rfl⟩)
    · exact ⟨_, p.toNat_lt, _, by rw [update_self]; exact Finset.mem_insert_self _ _, rfl⟩
    · refine ⟨q, hq, j, ?_, rfl⟩
      by_cases hqp : q = p.toNat
      · subst hqp
        rw [update_self]
        exact Finset.mem_insert_of_mem hj
      · rwa [update_of_ne hqp]

theorem pricesOf_erase (hsub : ∀ q, occ q ⊆ Finset.range kPricePartCount) :
    pricesOf (update occ p.toNat ((occ p.toNat).erase i.toNat))
      = pricesOf occ \ {(joinPrice p i).toNat} := by
  have hi := i.toNat_lt
  rw [joinPrice_toNat]
  ext x
  constructor
  · rintro ⟨q, hq, j, hj, rfl⟩
    by_cases hqp : q = p.toNat
    · subst hqp
      rw [update_self, Finset.mem_erase] at hj
      refine ⟨⟨_, hq, j, hj.2, rfl⟩, fun heq => hj.1 ?_⟩
      simp only [Set.mem_singleton_iff] at heq
      omega
    · rw [update_of_ne hqp] at hj
      refine ⟨⟨q, hq, j, hj, rfl⟩, fun heq => hqp ?_⟩
      have hj' := Finset.mem_range.1 (hsub q hj)
      simp only [Set.mem_singleton_iff, kPricePartCount] at heq hj'
      omega
  · rintro ⟨⟨q, hq, j, hj, rfl⟩, hne⟩
    refine ⟨q, hq, j, ?_, rfl⟩
    by_cases hqp : q = p.toNat
    · subst hqp
      rw [update_self, Finset.mem_erase]
      refine ⟨?_, hj⟩
      rintro rfl
      exact hne rfl
    · rwa [update_of_ne hqp]

theorem pricesOf_nonempty : (pricesOf occ).Nonempty ↔ ∃ q < kPricePartCount, (occ q).Nonempty := by
  constructor
  · rintro ⟨x, q, hq, j, hj, rfl⟩
    exact ⟨q, hq, j, hj⟩
  · rintro ⟨q, hq, j, hj⟩
    exact ⟨_, q, hq, j, hj, rfl⟩

theorem BookOk.members_card_le (bitmap : PriceBitmapStorage) :
    (PriceBitmap.members bitmap).card ≤ kPricePartCount := by
  refine (Finset.card_le_card (Finset.filter_subset _ _)).trans ?_
  simp [PriceBitmap.kNumBits, kPricePartCount]

theorem BookOk.activePages_eq_zero (h : BookOk side occ root summary bitmap) :
    summary.activePages = 0 ↔ pricesOf occ = ∅ := by
  rw [← UInt32.toNat_inj, h.activePages, show (0 : UInt32).toNat = 0 from rfl,
    Finset.card_eq_zero, ← Set.not_nonempty_iff_eq_empty, pricesOf_nonempty,
    Finset.eq_empty_iff_forall_notMem]
  simp only [h.members]
  push Not
  exact ⟨fun hx q hq => hx q hq, fun hx q hq => hx q hq⟩

/-- The occupied page of the cached best price has the cached handle. -/
theorem BookOk.best_page (h : BookOk side occ root summary bitmap)
    (hsub : ∀ q, occ q ⊆ Finset.range kPricePartCount) (hne : (pricesOf occ).Nonempty) :
    summary.bestRawPrice.toNat / kPricePartCount < kPricePartCount
      ∧ summary.bestRawPrice.toNat % kPricePartCount
        ∈ occ (summary.bestRawPrice.toNat / kPricePartCount) := by
  obtain ⟨q, hq, j, hj, hx⟩ := (h.best_some hne).1.mem
  have hj' := Finset.mem_range.1 (hsub q hj)
  rw [hx]
  simp only [kPricePartCount] at *
  rw [show (q * 65536 + j) / 65536 = q by omega, show (q * 65536 + j) % 65536 = j by omega]
  exact ⟨hq, hj⟩

/-- Only the pages a price can have matter to a book, and only the roots of occupied ones. -/
theorem BookOk.congr {occ' : ℕ → Finset ℕ} {root' : ℕ → UInt32}
    (h : BookOk side occ root summary bitmap)
    (hsub : ∀ q, occ q ⊆ Finset.range kPricePartCount)
    (heq : ∀ q < kPricePartCount, occ q = occ' q)
    (hroot : ∀ q < kPricePartCount, (occ q).Nonempty → root q = root' q) :
    BookOk side occ' root' summary bitmap := by
  have hprices : pricesOf occ' = pricesOf occ := by
    ext x
    constructor
    · rintro ⟨q, hq, j, hj, rfl⟩
      exact ⟨q, hq, j, heq q hq ▸ hj, rfl⟩
    · rintro ⟨q, hq, j, hj, rfl⟩
      exact ⟨q, hq, j, heq q hq ▸ hj, rfl⟩
  refine ⟨h.consistent, fun p => ?_, h.activePages, ?_, ?_⟩
  · rw [h.members]
    exact and_congr_right fun hp => by rw [heq p hp]
  · rw [hprices]
    exact h.best_none
  · rw [hprices]
    intro hne
    obtain ⟨hlt, hmem⟩ := h.best_page hsub hne
    rw [← hroot _ hlt ⟨_, hmem⟩]
    exact h.best_some hne

theorem BookOk.activate (h : BookOk side occ root summary bitmap)
    (hsub : ∀ q, occ q ⊆ Finset.range kPricePartCount)
    (hroot : ∀ q, (occ q).Nonempty → root q ≠ kInvalidPricePageHandle)
    (hp : root p.toNat = handle) {pageWasEmpty : Bool}
    (he : pageWasEmpty = true ↔ occ p.toNat = ∅) :
    let activePages' := if pageWasEmpty then summary.activePages + 1 else summary.activePages
    BookOk side (update occ p.toNat (insert i.toNat (occ p.toNat))) root
      (if summary.activePages == 0 || summary.bestPageHandle == kInvalidPricePageHandle
          || PriceLevelStore.better side (joinPrice p i) summary.bestRawPrice then
        ⟨joinPrice p i, handle, activePages'⟩
      else { summary with activePages := activePages' })
      (if pageWasEmpty then PriceBitmap.set bitmap p.toNat else bitmap) := by
  have hp16 : p.toNat < PriceBitmap.kNumBits := p.toNat_lt
  have hi16 := i.toNat_lt
  intro activePages'
  have hmem : PriceBitmap.members (if pageWasEmpty then PriceBitmap.set bitmap p.toNat else bitmap)
      = insert p.toNat (PriceBitmap.members bitmap) := by
    split_ifs with hE
    · exact PriceBitmap.members_set hp16
    · have hne : (occ p.toNat).Nonempty := Finset.nonempty_iff_ne_empty.2 fun h0 => hE (he.2 h0)
      exact (Finset.insert_eq_of_mem ((h.members _).2 ⟨hp16, hne⟩)).symm
  have hact : activePages'.toNat = (insert p.toNat (PriceBitmap.members bitmap)).card := by
    simp only [activePages']
    split_ifs with hE
    · have hnot : p.toNat ∉ PriceBitmap.members bitmap := fun hm =>
        ((h.members _).1 hm).2.ne_empty (he.1 hE)
      have hle := BookOk.members_card_le (PriceBitmap.set bitmap p.toNat)
      rw [PriceBitmap.members_set hp16, Finset.card_insert_of_notMem hnot] at hle
      rw [Finset.card_insert_of_notMem hnot, UInt32.toNat_add, h.activePages,
        show (1 : UInt32).toNat = 1 from rfl]
      simp only [kPricePartCount] at hle
      omega
    · rw [← hmem, if_neg hE, h.activePages]
  have hjoin : (joinPrice p i).toNat / kPricePartCount = p.toNat := by
    rw [← splitPrice_pageIndex, splitPrice_joinPrice_pageIndex]
  refine ⟨?_, fun q => ?_, ?_, fun h0 => ?_, fun _ => ?_⟩
  · split_ifs
    · exact PriceBitmap.consistent_set _ h.consistent
    · exact h.consistent
  · rw [hmem, Finset.mem_insert, h.members]
    by_cases hq : q = p.toNat
    · subst hq
      simp only [update_self, true_or, true_iff]
      exact ⟨hp16, Finset.insert_nonempty _ _⟩
    · simp [hq]
  · rw [hmem, ← hact]
    split_ifs <;> rfl
  · rw [pricesOf_insert] at h0
    exact absurd h0 (Set.insert_nonempty _ _).ne_empty
  · rw [pricesOf_insert]
    rcases Set.eq_empty_or_nonempty (pricesOf occ) with h0 | hne
    · have : summary.activePages = 0 := h.activePages_eq_zero.2 h0
      simp only [this, beq_self_eq_true, Bool.true_or, if_true, h0]
      refine ⟨by simpa using isBest_singleton side _, ?_⟩
      rw [hjoin, hp]
    · have hb := h.best_some hne
      have h1 : summary.activePages ≠ 0 := fun h1 => hne.ne_empty (h.activePages_eq_zero.1 h1)
      have h2 : summary.bestPageHandle ≠ kInvalidPricePageHandle := by
        rw [hb.2]
        exact hroot _ ⟨_, (h.best_page hsub hne).2⟩
      have h3 := hb.1.insert (a := joinPrice p i)
      simp only [beq_eq_false_iff_ne.2 h1, beq_eq_false_iff_ne.2 h2, Bool.false_or]
      split_ifs at h3 ⊢
      · exact ⟨h3, by rw [hjoin, hp]⟩
      · exact ⟨h3, hb.2⟩

/-- The book's part of a sound deactivation plan for level `i` of page `p`. -/
structure BookPlan (side : OrderSide) (occ : ℕ → Finset ℕ) (root : ℕ → UInt32)
    (summary : BookSideSummary) (p i : UInt16) (plan : DeactivationPlan) : Prop where
  empty : plan.pageBecomesEmpty = true ↔ (occ p.toNat).card = 1
  best : plan.bookBestChanges = true ↔ summary.bestRawPrice = joinPrice p i
  next_none : plan.bookBestChanges = true → pricesOf occ \ {(joinPrice p i).toNat} = ∅ →
    plan.nextBookPageHandle = kInvalidPricePageHandle
  next_some : plan.bookBestChanges = true → (pricesOf occ \ {(joinPrice p i).toNat}).Nonempty →
    IsBest side (pricesOf occ \ {(joinPrice p i).toNat}) plan.nextBookRawPrice.toNat
      ∧ plan.nextBookPageHandle = root (plan.nextBookRawPrice.toNat / kPricePartCount)

theorem BookOk.deactivate {plan : DeactivationPlan} (h : BookOk side occ root summary bitmap)
    (hsub : ∀ q, occ q ⊆ Finset.range kPricePartCount) (hi : i.toNat ∈ occ p.toNat)
    (hp : BookPlan side occ root summary p i plan) :
    let activePages' :=
      if plan.pageBecomesEmpty then summary.activePages - 1 else summary.activePages
    BookOk side (update occ p.toNat ((occ p.toNat).erase i.toNat)) root
      (if plan.bookBestChanges then
        ⟨plan.nextBookRawPrice, plan.nextBookPageHandle, activePages'⟩
      else { summary with activePages := activePages' })
      (if plan.pageBecomesEmpty then PriceBitmap.reset bitmap p.toNat else bitmap) := by
  have hp16 : p.toNat < kPricePartCount := p.toNat_lt
  have hpm : p.toNat ∈ PriceBitmap.members bitmap := (h.members _).2 ⟨hp16, _, hi⟩
  have hers := Finset.card_erase_of_mem hi
  intro activePages'
  have hempty : (occ p.toNat).erase i.toNat = ∅ ↔ plan.pageBecomesEmpty = true := by
    rw [hp.empty, ← Finset.card_eq_zero, hers]
    have : 0 < (occ p.toNat).card := Finset.card_pos.2 ⟨_, hi⟩
    omega
  have hmem : ∀ q, q ∈ PriceBitmap.members (if plan.pageBecomesEmpty then
      PriceBitmap.reset bitmap p.toNat else bitmap) ↔ q < kPricePartCount
        ∧ (update occ p.toNat ((occ p.toNat).erase i.toNat) q).Nonempty := by
    intro q
    by_cases hq : q = p.toNat
    · subst hq
      rw [update_self, Finset.nonempty_iff_ne_empty, ne_eq, hempty]
      split_ifs with hE
      · simp [PriceBitmap.members_reset, hE]
      · simp [hpm, hp16, hE]
    · rw [update_of_ne hq, ← h.members]
      split_ifs
      · simp [PriceBitmap.members_reset, hq]
      · rfl
  refine ⟨?_, hmem, ?_, fun h0 => ?_, fun hne => ?_⟩
  · split_ifs
    · exact PriceBitmap.consistent_reset _ h.consistent
    · exact h.consistent
  · have hpos : 0 < (PriceBitmap.members bitmap).card := Finset.card_pos.2 ⟨_, hpm⟩
    have hact : activePages'.toNat = (PriceBitmap.members (if plan.pageBecomesEmpty then
        PriceBitmap.reset bitmap p.toNat else bitmap)).card := by
      simp only [activePages']
      split_ifs
      · rw [PriceBitmap.members_reset, Finset.card_erase_of_mem hpm, UInt32.toNat_sub_of_le,
          h.activePages]
        · rfl
        · rw [UInt32.le_iff_toNat_le, h.activePages]
          exact hpos
      · exact h.activePages
    rw [← hact]
    split_ifs <;> rfl
  · rw [pricesOf_erase hsub] at h0
    split_ifs with hB
    · exact hp.next_none hB h0
    · -- the best is still there, so the side is not empty
      exfalso
      have hne : (pricesOf occ).Nonempty := pricesOf_nonempty.2 ⟨_, hp16, _, hi⟩
      have hb := (h.best_some hne).1.diff (i := (joinPrice p i).toNat) fun heq =>
        hB (hp.best.2 (UInt32.toNat_inj.1 heq.symm))
      rw [h0] at hb
      exact hb.mem
  · rw [pricesOf_erase hsub] at hne ⊢
    split_ifs with hB
    · exact hp.next_some hB hne
    · have hb := h.best_some (hne.mono Set.sdiff_subset)
      exact ⟨hb.1.diff fun heq => hB (hp.best.2 (UInt32.toNat_inj.1 heq.symm)), hb.2⟩

end Book

end AstraFeed
