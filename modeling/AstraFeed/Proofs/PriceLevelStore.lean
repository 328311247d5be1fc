import AstraFeed.Proofs.StorePlan

/-!
# The operations of the price store

What each operation's checks let through, and that each operation keeps the invariant.
-/

namespace AstraFeed

namespace PriceLevelStore

open Function

variable {s : PriceLevelStore} {a : PriceAddress} {side : OrderSide}

/-! ## Validation -/

theorem validSide_iff : validSide side = true ↔ side ≠ .invalid := by
  cases side <;> simp [validSide]

theorem committed_iff_valid : s.Committed a.pageHandle
    ↔ ¬ ((!a.valid) = true ∨ s.committedPages < a.pageHandle) := by
  unfold Committed PriceAddress.valid
  simp only [bne_iff_ne, Bool.not_eq_true', not_or, Bool.not_eq_false]
  exact and_congr_right fun _ => UInt32.not_lt.symm

theorem validateAddress_applied_iff :
    s.validateAddress a side = .applied ↔ side ≠ .invalid ∧ s.Committed a.pageHandle := by
  rw [← validSide_iff, committed_iff_valid]
  unfold validateAddress
  split_ifs <;> simp_all

theorem card_lt_of_notMem {S : Finset ℕ} (hsub : S ⊆ Finset.range kPricePartCount) {i : ℕ}
    (hi : i < kPricePartCount) (hn : i ∉ S) : S.card < kPricePartCount := by
  have hss : S ⊂ Finset.range kPricePartCount :=
    Finset.ssubset_iff_of_subset hsub |>.2 ⟨i, Finset.mem_range.2 hi, hn⟩
  simpa using Finset.card_lt_card hss

theorem validateActivation_applied (hI : s.StoreInv) (hv : side ≠ .invalid)
    (hc : s.Committed a.pageHandle) (h0 : (s.levelUnchecked a side).orderCount = 0) :
    s.validateActivation a side = .applied := by
  have hpage := hI.page a.pageHandle side hv
  have hbook := hI.book (s.ownerOf a).stockLocate side hv
  have hsub := occupied_subset s a.pageHandle side
  have hcommitted := (hI.arena.committed_iff _).2 hc
  have hvalid := isValidStockLocate_of_prepared (hI.arena.prepared _ hc)
  unfold validateActivation
  rw [owner_of_committed hc]
  dsimp only
  rw [if_neg (by simp [hcommitted, hvalid]), if_neg]
  rintro (h | ⟨hne, h⟩ | ⟨he, h⟩)
  · rw [hpage.activeLevels] at h
    exact absurd h (not_le.2 (card_lt_of_notMem hsub a.levelIndex.toNat_lt
      fun hm => mem_occupied_level.1 hm h0))
  · have hb := hpage.best (Finset.nonempty_iff_ne_empty.2 (hpage.activeLevels_eq_zero.not.1 hne))
    exact absurd h (not_le.2 (Finset.mem_range.1 (hsub hb.mem)))
  · rw [hpage.activeLevels_eq_zero, ← hI.arena.bookLevels_ownerOf hc] at he
    have hlt := card_lt_of_notMem
      (S := PriceBitmap.members (s.bookBitmap (s.ownerOf a).stockLocate side))
      (fun q hq => Finset.mem_range.2 ((hbook.members q).1 hq).1)
      (s.ownerOf a).pageIndex.toNat_lt fun hm => ((hbook.members _).1 hm).2.ne_empty he
    rw [← hbook.activePages] at hlt
    exact absurd h (not_le.2 hlt)

/-- The checks of an addition at a committed page: the two overflows are all that is left. -/
theorem validateAdd_eq (hI : s.StoreInv) (hv : side ≠ .invalid) (hc : s.Committed a.pageHandle)
    (qty : UInt32) :
    s.validateAdd a side qty =
      if qty = 0 then .invalidQuantity
      else if (s.levelUnchecked a side).orderCount.toNat = 2 ^ 32 - 1 then .orderCountOverflow
      else if 2 ^ 64 - 1 - qty.toNat < (s.levelUnchecked a side).totalQty.toNat then
        .quantityOverflow
      else .applied := by
  have hlevel : (s.levelUnchecked a side).orderCount = 0
      ↔ (s.levelUnchecked a side).totalQty = 0 := hI.level_iff _ side _ hv
  have hbeq : (((s.levelUnchecked a side).orderCount == 0)
      != ((s.levelUnchecked a side).totalQty == 0)) = false := by
    rw [bne_eq_false_iff_eq, Bool.eq_iff_iff, beq_iff_eq, beq_iff_eq]
    exact hlevel
  unfold validateAdd
  rw [validateAddress_applied_iff.2 ⟨hv, hc⟩]
  simp only [ne_eq, not_true_eq_false, if_false, hbeq, Bool.false_eq_true]
  split_ifs with h1 h2 h3 h4
  · rfl
  · rfl
  · rfl
  · exact validateActivation_applied hI hv hc h4
  · rfl

/-- What has passed the checks of an addition. -/
structure CanAdd (s : PriceLevelStore) (a : PriceAddress) (side : OrderSide) (qty : UInt32) :
    Prop where
  side_ne : side ≠ .invalid
  committed : s.Committed a.pageHandle
  qty_ne : qty ≠ 0
  count : (s.levelUnchecked a side).orderCount.toNat ≠ 2 ^ 32 - 1
  total : (s.levelUnchecked a side).totalQty.toNat + qty.toNat < 2 ^ 64

theorem validateAdd_applied_iff (hI : s.StoreInv) {qty : UInt32} :
    s.validateAdd a side qty = .applied ↔ CanAdd s a side qty := by
  have hq := qty.toNat_lt
  by_cases haddr : side ≠ .invalid ∧ s.Committed a.pageHandle
  · rw [validateAdd_eq hI haddr.1 haddr.2]
    constructor
    · intro h
      split_ifs at h with h1 h2 h3
      exact ⟨haddr.1, haddr.2, h1, h2, by omega⟩
    · intro h
      have := h.total
      rw [if_neg h.qty_ne, if_neg h.count, if_neg (by omega)]
  · constructor
    · intro h
      unfold validateAdd at h
      rw [← validateAddress_applied_iff] at haddr
      simp only [ne_eq, haddr, not_false_eq_true, if_true] at h
    · exact fun h => absurd ⟨h.side_ne, h.committed⟩ haddr

/-- What has passed the checks of a removal. -/
structure CanErase (s : PriceLevelStore) (a : PriceAddress) (side : OrderSide) (qty : UInt32) :
    Prop where
  side_ne : side ≠ .invalid
  committed : s.Committed a.pageHandle
  qty_ne : qty ≠ 0
  count : (s.levelUnchecked a side).orderCount ≠ 0
  le : qty.toUInt64 ≤ (s.levelUnchecked a side).totalQty
  one : (s.levelUnchecked a side).orderCount = 1 ↔
    (s.levelUnchecked a side).totalQty = qty.toUInt64

theorem one_lt_iff {n : UInt32} : 1 < n ↔ n ≠ 0 ∧ n ≠ 1 := by
  rw [UInt32.lt_iff_toNat_lt, ne_eq, ne_eq, ← UInt32.toNat_inj, ← UInt32.toNat_inj,
    show (1 : UInt32).toNat = 1 from rfl, show (0 : UInt32).toNat = 0 from rfl]
  omega

theorem validateErase_ok {qty : UInt32} (hI : s.StoreInv) {plan : DeactivationPlan}
    (h : s.validateErase a side qty = .ok plan) : CanErase s a side qty
      ∧ ((s.levelUnchecked a side).orderCount = 1 → SoundPlan s a side plan) := by
  unfold validateErase at h
  dsimp only at h
  split_ifs at h with h1 h2 h3 h4 h5 h6 h7
  · obtain ⟨hv, hc⟩ := validateAddress_applied_iff.1 (not_ne_iff.1 h1)
    push Not at h3 h5
    refine ⟨⟨hv, hc, h2, h3.1, UInt64.not_lt.1 h4, ?_⟩, fun _ => ?_⟩
    · exact ⟨h5, fun _ => h7⟩
    · obtain ⟨plan', hplan, hsound⟩ := validateDeactivation_spec hI hv hc h3.1
      rw [hplan] at h
      cases h
      exact hsound
  · obtain ⟨hv, hc⟩ := validateAddress_applied_iff.1 (not_ne_iff.1 h1)
    push Not at h3 h5
    refine ⟨⟨hv, hc, h2, h3.1, UInt64.not_lt.1 h4, ?_⟩, fun h8 => absurd h8 h7⟩
    exact iff_of_false h7 fun ht => h6 ⟨one_lt_iff.2 ⟨h3.1, h7⟩, ht⟩

theorem validateErase_of_canErase {qty : UInt32} (hI : s.StoreInv)
    (h : CanErase s a side qty) : ∃ plan, s.validateErase a side qty = .ok plan := by
  have hqty : (s.levelUnchecked a side).totalQty ≠ 0 :=
    (hI.level_iff _ side _ h.side_ne).not.1 h.count
  unfold validateErase
  rw [validateAddress_applied_iff.2 ⟨h.side_ne, h.committed⟩]
  simp only [ne_eq, not_true_eq_false, if_false, if_neg h.qty_ne, h.count, hqty, or_self]
  rw [if_neg (UInt64.not_lt.2 h.le), if_neg (fun hx => hx.2 (h.one.1 hx.1)),
    if_neg (fun hx => (one_lt_iff.1 hx.1).2 (h.one.2 hx.2))]
  split_ifs with h1
  · obtain ⟨plan, hplan, _⟩ := validateDeactivation_spec hI h.side_ne h.committed h.count
    exact ⟨plan, hplan⟩
  · exact ⟨_, rfl⟩

/-! ## Orders at a level -/

theorem StoreInv.add (hI : s.StoreInv) (a : PriceAddress) (side : OrderSide) (qty : UInt32) :
    (s.add a side qty).2.StoreInv := by
  unfold PriceLevelStore.add
  dsimp only
  split_ifs with h
  · exact hI
  · have hadd := (validateAdd_applied_iff hI).1 (not_ne_iff.1 h)
    exact hI.addValidated hadd.side_ne hadd.committed hadd.qty_ne hadd.count hadd.total

theorem StoreInv.erasePlanned (hI : s.StoreInv) {qty : UInt32} {plan : DeactivationPlan}
    (h : s.validateErase a side qty = .ok plan) : (s.eraseValidated a side qty plan).StoreInv := by
  obtain ⟨hcan, hsound⟩ := validateErase_ok hI h
  exact hI.eraseValidated hcan.side_ne hcan.committed hcan.count
    (fun h1 => ⟨hcan.one.1 h1, hsound h1⟩) fun h1 ht => h1 (hcan.one.2 ht)

theorem StoreInv.erase (hI : s.StoreInv) (a : PriceAddress) (side : OrderSide) (qty : UInt32) :
    (s.erase a side qty).2.StoreInv := by
  unfold PriceLevelStore.erase
  split
  · exact hI
  · next plan h => exact hI.erasePlanned h

theorem StoreInv.reduceLevel (hI : s.StoreInv) (hv : side ≠ .invalid)
    (hc : s.Committed a.pageHandle) (current reduction : UInt32) :
    (s.reduceLevel a side current reduction).2.StoreInv := by
  unfold PriceLevelStore.reduceLevel
  dsimp only
  split_ifs with h1 h2 h3 h4 h5 h6 h7
  all_goals try exact hI
  push Not at h3
  refine hI.setLevel hv hc h3.1 h3.1 fun hx => ?_
  have heq := (UInt64.sub_left_inj _).1 (hx.trans (UInt64.sub_self _).symm)
  exact h7 (UInt64.le_of_eq heq)

theorem StoreInv.reduce (hI : s.StoreInv) (a : PriceAddress) (side : OrderSide)
    (current reduction : UInt32) : (s.reduce a side current reduction).2.StoreInv := by
  unfold PriceLevelStore.reduce
  dsimp only
  split_ifs with h
  · exact hI
  · obtain ⟨hv, hc⟩ := validateAddress_applied_iff.1 (not_ne_iff.1 h)
    exact hI.reduceLevel hv hc current reduction

theorem StoreInv.reduceChecked (hI : s.StoreInv) (l p : UInt16) (a : PriceAddress)
    (side : OrderSide) (current reduction : UInt32) :
    (s.reduceChecked l p a side current reduction).2.StoreInv := by
  unfold PriceLevelStore.reduceChecked
  dsimp only
  split_ifs with h1 h2 h3
  all_goals try exact hI
  obtain ⟨hv, hc⟩ := validateAddress_applied_iff.1 (not_ne_iff.1 h2)
  exact hI.reduceLevel hv hc current reduction

/-- A mutation elsewhere leaves what has been validated for an addition. -/
theorem CanAdd.of_onlyAt {s' : PriceLevelStore} {b : PriceAddress} {l : UInt16} {qty : UInt32}
    (h : CanAdd s b side qty) (hf : OnlyAt s s' a l side)
    (hne : ¬ (a.pageHandle = b.pageHandle ∧ a.levelIndex = b.levelIndex)) :
    CanAdd s' b side qty := by
  have hlevel : s'.levelUnchecked b side = s.levelUnchecked b side :=
    hf.levelAt b.pageHandle side b.levelIndex.toNat h.side_ne
      fun hx => hne ⟨hx.1.symm, UInt16.toNat_inj.1 hx.2.2.symm⟩
  refine ⟨h.side_ne, hf.committed.2 h.committed, h.qty_ne, ?_, ?_⟩
  · rw [hlevel]
    exact h.count
  · rw [hlevel]
    exact h.total

theorem StoreInv.move (hI : s.StoreInv) (a : PriceAddress) (oldQty : UInt32) (b : PriceAddress)
    (newQty : UInt32) (side : OrderSide) : (s.move a oldQty b newQty side).2.StoreInv := by
  unfold PriceLevelStore.move
  by_cases h1 : newQty = 0
  · rw [if_pos h1]
    exact hI
  rw [if_neg h1]
  split
  · split
    · exact hI
    split
    · exact hI
    split
    · exact hI
    · next plan hplan =>
      obtain ⟨hcan, _⟩ := validateErase_ok hI hplan
      dsimp only
      split_ifs with h4 h5 h6
      · exact hI
      · -- in place: the level keeps its count, and the new quantity is not zero
        refine hI.setLevel hcan.side_ne hcan.committed hcan.count hcan.count ?_
        have := newQty.toNat_lt
        exact qty_add_ne_zero (by omega) h1
      · exact hI
      · have hadd := ((validateAdd_applied_iff hI).1 (not_ne_iff.1 h6)).of_onlyAt
          (eraseValidated_onlyAt oldQty plan hcan.side_ne) h4
        exact (hI.erasePlanned hplan).addValidated hadd.side_ne hadd.committed hadd.qty_ne
          hadd.count hadd.total
  · exact hI

/-! ## The arena -/

theorem StoreInv.prepareBook (hI : s.StoreInv) (l : UInt16) : (s.prepareBook l).2.StoreInv := by
  unfold PriceLevelStore.prepareBook
  split_ifs
  · exact hI
  · refine ⟨⟨hI.arena.committed_le, hI.arena.committed_iff, fun h hc => ?_, hI.arena.root_iff⟩,
      hI.level_iff, hI.uncommitted, hI.page, hI.book⟩
    have hp := hI.arena.prepared h hc
    simp only [isBookPrepared, Bool.and_eq_true, bne_iff_ne, update_apply] at hp ⊢
    refine ⟨hp.1, ?_⟩
    split_ifs
    · exact (by decide : (1 : UInt8) ≠ 0)
    · exact hp.2
  · exact hI

/-- The count of capacity failures is diagnostic. -/
theorem StoreInv.counters (hI : s.StoreInv) (k : UInt64) :
    StoreInv { s with pageCapacityFailures := k } :=
  ⟨⟨hI.arena.committed_le, hI.arena.committed_iff, hI.arena.prepared, hI.arena.root_iff⟩,
    hI.level_iff, hI.uncommitted, hI.page, hI.book⟩

theorem StoreInv.reservePrice (hI : s.StoreInv) (l : UInt16) (x : UInt32) :
    (s.reservePrice l x).2.StoreInv := by
  unfold PriceLevelStore.reservePrice
  dsimp only
  split_ifs
  all_goals try exact hI
  exact hI.counters _

/-- What a commit does when it is applied: nothing for a page that is there, and otherwise it gives
the next handle to the page. -/
theorem commitReservation_cases (s : PriceLevelStore) (r : PricePageReservation) :
    (∃ e, e ≠ .applied ∧ s.commitReservation r = (e, s))
      ∨ s.commitReservation r = (.applied, s) ∧ r.requiresCommit = false
        ∧ r.address.pageHandle ≠ kInvalidPricePageHandle
        ∧ s.isBookPrepared r.stockLocate = true
        ∧ s.rootAt r.stockLocate r.pageIndex.toNat = r.address.pageHandle
      ∨ s.commitReservation r = (.applied, { s with
          pageOwners := update s.pageOwners r.address.pageHandle.toNat
            ⟨r.stockLocate, r.pageIndex, 1⟩
          committedPages := r.address.pageHandle
          roots := update s.roots (priceRootIndex r.stockLocate r.pageIndex)
            r.address.pageHandle })
        ∧ s.isBookPrepared r.stockLocate = true
        ∧ s.rootAt r.stockLocate r.pageIndex.toNat = kInvalidPricePageHandle
        ∧ r.address.pageHandle = s.committedPages + 1
        ∧ r.address.pageHandle ≠ kInvalidPricePageHandle
        ∧ r.address.pageHandle ≤ s.config.pageCapacity := by
  unfold commitReservation
  dsimp only
  rw [priceRootIndex_eq]
  split_ifs with h1 h2 h3 h4 h5 h6 h7 h8
  · exact .inl ⟨_, h1, rfl⟩
  · exact .inl ⟨_, by simp, rfl⟩
  · exact .inl ⟨_, by simp, rfl⟩
  · exact .inl ⟨_, by simp, rfl⟩
  · refine .inr (.inl ⟨rfl, by simpa using h5, ?_, by simpa using h4, h6⟩)
    simpa [PriceAddress.valid] using h2
  · exact .inl ⟨_, by simp, rfl⟩
  · exact .inl ⟨_, by simp, rfl⟩
  · exact .inl ⟨_, by simp, rfl⟩
  · push Not at h7
    refine .inr (.inr ⟨rfl, by simpa using h4, h7.1, h7.2.2.1, ?_, UInt32.not_lt.1 ?_⟩)
    · simpa [PriceAddress.valid] using h2
    · simpa using h7.2.2.2

/-- The store after a page is committed to `(l, p)` under the handle `h`. -/
def withPage (s : PriceLevelStore) (l p : UInt16) (h : UInt32) : PriceLevelStore :=
  { s with
    pageOwners := update s.pageOwners h.toNat ⟨l, p, 1⟩
    committedPages := h
    roots := update s.roots (priceRootIndex l p) h }

section WithPage

variable {l p : UInt16} {h : UInt32}

theorem rootAt_withPage (l' : UInt16) {q : ℕ} (hq : q < kPricePartCount) :
    (s.withPage l p h).rootAt l' q = if l' = l ∧ q = p.toNat then h else s.rootAt l' q := by
  have hp : p.toNat < kPricePartCount := p.toNat_lt
  have hiff : l'.toNat * kPricePartCount + q = priceRootIndex l p ↔ l' = l ∧ q = p.toNat := by
    rw [priceRootIndex_eq, ← UInt16.toNat_inj]
    simp only [kPricePartCount] at hq hp ⊢
    omega
  simp only [rootAt, withPage, update_apply, hiff]

theorem committed_withPage (hh : h = s.committedPages + 1) (h0 : h ≠ kInvalidPricePageHandle)
    (x : UInt32) : (s.withPage l p h).Committed x ↔ s.Committed x ∨ x = h := by
  unfold Committed withPage
  simp only [kInvalidPricePageHandle, ne_eq, ← UInt32.toNat_inj, UInt32.le_iff_toNat_le] at h0 ⊢
  rw [hh, UInt32.toNat_add, show (1 : UInt32).toNat = 1 from rfl,
    show (0 : UInt32).toNat = 0 from rfl] at *
  have := s.committedPages.toNat_lt
  omega

theorem pageOwners_withPage (x : UInt32) : (s.withPage l p h).pageOwners x.toNat
    = if x = h then ⟨l, p, 1⟩ else s.pageOwners x.toNat := by
  simp only [withPage, update_apply, UInt32.toNat_inj]

theorem not_committed_next (hh : h = s.committedPages + 1) : ¬ s.Committed h := by
  unfold Committed
  simp only [kInvalidPricePageHandle, ne_eq, ← UInt32.toNat_inj, UInt32.le_iff_toNat_le]
  rw [hh, UInt32.toNat_add, show (1 : UInt32).toNat = 1 from rfl,
    show (0 : UInt32).toNat = 0 from rfl] at *
  have := s.committedPages.toNat_lt
  omega

theorem ArenaInv.withPage (hI : s.ArenaInv) (hprep : s.isBookPrepared l = true)
    (hroot : s.rootAt l p.toNat = kInvalidPricePageHandle) (hh : h = s.committedPages + 1)
    (h0 : h ≠ kInvalidPricePageHandle) (hcap : h ≤ s.config.pageCapacity) :
    (s.withPage l p h).ArenaInv where
  committed_le := hcap
  committed_iff := fun x => by
    rw [pageOwners_withPage, committed_withPage hh h0]
    split_ifs with hx
    · exact iff_of_true (by simp) (.inr hx)
    · rw [hI.committed_iff, or_iff_left hx]
  prepared := fun x hx => by
    rw [pageOwners_withPage]
    split_ifs with hxh
    · exact hprep
    · exact hI.prepared x (((committed_withPage hh h0 x).1 hx).resolve_right hxh)
  root_iff := fun l' q x hq hx => by
    rw [rootAt_withPage l' hq, pageOwners_withPage, committed_withPage hh h0]
    by_cases hxh : x = h
    · subst hxh
      have hno : s.rootAt l' q ≠ x := fun hr =>
        not_committed_next hh ((hI.root_iff l' q x hq hx).1 hr).1
      simp only [or_true, if_true, true_and]
      split_ifs with hlq
      · exact iff_of_true rfl ⟨hlq.1.symm, hlq.2.symm⟩
      · exact iff_of_false hno fun hy => hlq ⟨hy.1.symm, hy.2.symm⟩
    · simp only [hxh, or_false, if_false]
      split_ifs with hlq
      · obtain ⟨rfl, rfl⟩ := hlq
        rw [← hI.root_iff l' p.toNat x hq hx, hroot]
        exact iff_of_false (fun hy => hxh hy.symm) fun hy => hx hy.symm
      · exact hI.root_iff l' q x hq hx

theorem StoreInv.withPage (hI : s.StoreInv) (hprep : s.isBookPrepared l = true)
    (hroot : s.rootAt l p.toNat = kInvalidPricePageHandle) (hh : h = s.committedPages + 1)
    (h0 : h ≠ kInvalidPricePageHandle) (hcap : h ≤ s.config.pageCapacity) :
    (s.withPage l p h).StoreInv where
  arena := hI.arena.withPage hprep hroot hh h0 hcap
  level_iff := hI.level_iff
  uncommitted := fun x side hv hx =>
    hI.uncommitted x side hv fun hc => hx ((committed_withPage hh h0 x).2 (.inl hc))
  page := hI.page
  book := fun l' side hv => by
    refine (hI.book l' side hv).congr (fun q => occupied_subset _ _ _) (fun q hq => ?_)
      fun q hq hne => ?_
    · unfold bookLevels
      rw [rootAt_withPage l' hq]
      split_ifs with hlq
      · -- neither the missing page nor the new one holds a level
        rw [hlq.1, hlq.2, hroot, hI.uncommitted _ side hv fun hc => hc.1 rfl]
        exact (hI.uncommitted h side hv (not_committed_next hh)).symm
      · rfl
    · rw [rootAt_withPage l' hq, if_neg]
      rintro ⟨rfl, rfl⟩
      exact hI.root_ne hv _ hne hroot

end WithPage

theorem StoreInv.commitReservation (hI : s.StoreInv) (r : PricePageReservation) :
    (s.commitReservation r).2.StoreInv := by
  rcases commitReservation_cases s r with ⟨e, _, he⟩ | ⟨he, _⟩ | ⟨he, hprep, hroot, hh, h0, hcap⟩
  · rw [he]
    exact hI
  · rw [he]
    exact hI
  · rw [he]
    exact hI.withPage hprep hroot hh h0 hcap

theorem fresh_inv (config : PriceLevelStoreConfig) : (fresh config).StoreInv := by
  have hocc : ∀ h side, (fresh config).occupied h side = ∅ := by
    intro h side
    ext i
    cases side <;> simp [occupied, levelAt, fresh]
  have hprices : ∀ l side, pricesOf ((fresh config).bookLevels l side) = ∅ := by
    intro l side
    rw [← Set.not_nonempty_iff_eq_empty, pricesOf_nonempty]
    rintro ⟨q, _, hq⟩
    exact hq.ne_empty (hocc _ _)
  have hnot : ∀ h, ¬ (fresh config).Committed h := by
    rintro h ⟨h0, hle⟩
    exact h0 (UInt32.le_zero_iff.1 hle)
  refine ⟨⟨UInt32.zero_le, fun h => iff_of_false (by simp [fresh]) (hnot h),
    fun h hc => absurd hc (hnot h), fun l p h _ h0 => ?_⟩, fun h side i _ => ?_,
    fun h side _ _ => hocc h side, fun h side _ => ?_, fun l side _ => ?_⟩
  · exact iff_of_false (fun hr => h0 hr.symm) fun hx => hnot h hx.1
  · cases side <;> simp [levelAt, fresh]
  · rw [hocc]
    exact ⟨rfl, PriceBitmap.consistent_zero, PriceBitmap.members_zero, by simp⟩
  · refine ⟨PriceBitmap.consistent_zero, fun p => ?_, ?_, fun _ => rfl, ?_⟩
    · rw [show (fresh config).bookBitmap l side = PriceBitmap.zero from rfl,
        PriceBitmap.members_zero]
      exact iff_of_false (Finset.notMem_empty p) fun hx => hx.2.ne_empty (hocc _ _)
    · rw [show (fresh config).bookBitmap l side = PriceBitmap.zero from rfl,
        PriceBitmap.members_zero]
      rfl
    · rw [hprices]
      exact fun hx => absurd hx Set.not_nonempty_empty

end PriceLevelStore

end AstraFeed
