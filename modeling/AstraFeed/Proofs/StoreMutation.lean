import AstraFeed.Proofs.StoreFrame

/-!
# A level gains, keeps and loses orders

Each of the mutations of a level keeps the store's invariant, and is local to the level: what
`addValidated` and `eraseValidated` do when their arguments have been validated.
-/

namespace AstraFeed

namespace PriceLevelStore

open Function

variable {s : PriceLevelStore} {a : PriceAddress} {side : OrderSide}

/-- The owner of the page an address is in. -/
def ownerOf (s : PriceLevelStore) (a : PriceAddress) : PageOwner := s.pageOwners a.pageHandle.toNat

theorem ArenaInv.rootAt_ownerOf (hI : s.ArenaInv) (hc : s.Committed a.pageHandle) :
    s.rootAt (s.ownerOf a).stockLocate (s.ownerOf a).pageIndex.toNat = a.pageHandle :=
  (hI.root_owner hc rfl (s.ownerOf a).pageIndex.toNat_lt).2 rfl

theorem ArenaInv.bookLevels_ownerOf (hI : s.ArenaInv) (hc : s.Committed a.pageHandle)
    (side : OrderSide) :
    s.bookLevels (s.ownerOf a).stockLocate side (s.ownerOf a).pageIndex.toNat
      = s.occupied a.pageHandle side := by
  unfold bookLevels
  rw [hI.rootAt_ownerOf hc]

theorem levelUnchecked_setLevel {v : PriceLevelState} (hv : side ≠ .invalid) :
    (s.setLevel a side v).levelUnchecked a side = v :=
  (levelAt_setLevel v hv hv).trans (if_pos ⟨rfl, rfl, rfl⟩)

/-- An occupied level keeps the invariant as long as it stays occupied. -/
theorem StoreInv.setLevel (hI : s.StoreInv) (hv : side ≠ .invalid)
    (hc : s.Committed a.pageHandle) {v : PriceLevelState}
    (h0 : (s.levelUnchecked a side).orderCount ≠ 0) (hn : v.orderCount ≠ 0) (hq : v.totalQty ≠ 0) :
    (s.setLevel a side v).StoreInv := by
  have hf := setLevel_onlyAt (s := s) (a := a) v (s.ownerOf a).stockLocate hv
  have hocc : (s.setLevel a side v).occupied a.pageHandle side = s.occupied a.pageHandle side := by
    rw [hf.occupied_insert hv (by rwa [levelUnchecked_setLevel hv])]
    exact Finset.insert_eq_of_mem (mem_occupied_level.2 h0)
  refine hI.of_onlyAt hf hv hc rfl ?_ ?_ ?_
  · rw [levelUnchecked_setLevel hv]
    exact iff_of_false hn hq
  · rw [hocc]
    exact hI.page a.pageHandle side hv
  · rw [hocc]
    rw [← hI.arena.bookLevels_ownerOf hc, ownerOf, update_eq_self]
    exact hI.book (s.ownerOf a).stockLocate side hv

theorem addValidated_onlyAt (qty : UInt32) (hv : side ≠ .invalid) :
    OnlyAt s (s.addValidated a side qty) a (s.ownerOf a).stockLocate side := by
  unfold addValidated
  dsimp only
  split_ifs
  · exact OnlyAt.trans (setSide_onlyAt hv) (setLevel_onlyAt _ _ hv)
  · exact setLevel_onlyAt _ _ hv

theorem levelUnchecked_addValidated (qty : UInt32) (hv : side ≠ .invalid) :
    (s.addValidated a side qty).levelUnchecked a side
      = ⟨(s.levelUnchecked a side).totalQty + qty.toUInt64,
        (s.levelUnchecked a side).orderCount + 1⟩ := by
  unfold addValidated
  exact levelUnchecked_setLevel hv

theorem count_succ_ne_zero {n : UInt32} (h : n.toNat ≠ 2 ^ 32 - 1) : n + 1 ≠ 0 := by
  have := n.toNat_lt
  rw [ne_eq, ← UInt32.toNat_inj, UInt32.toNat_add, show (1 : UInt32).toNat = 1 from rfl,
    show (0 : UInt32).toNat = 0 from rfl]
  omega

theorem qty_add_toNat {t : UInt64} {q : UInt32} (h : t.toNat + q.toNat < 2 ^ 64) :
    (t + q.toUInt64).toNat = t.toNat + q.toNat := by
  rw [UInt64.toNat_add, UInt32.toNat_toUInt64, Nat.mod_eq_of_lt h]

theorem qty_ne_zero {q : UInt32} : q ≠ 0 ↔ 0 < q.toNat := by
  rw [ne_eq, ← UInt32.toNat_inj, show (0 : UInt32).toNat = 0 from rfl]
  omega

theorem qty_add_ne_zero {t : UInt64} {q : UInt32} (h : t.toNat + q.toNat < 2 ^ 64) (hq : q ≠ 0) :
    t + q.toUInt64 ≠ 0 := by
  rw [qty_ne_zero] at hq
  rw [ne_eq, ← UInt64.toNat_inj, qty_add_toNat h, show (0 : UInt64).toNat = 0 from rfl]
  omega

theorem StoreInv.addValidated (hI : s.StoreInv) (hv : side ≠ .invalid)
    (hc : s.Committed a.pageHandle) {qty : UInt32} (hq : qty ≠ 0)
    (hn : (s.levelUnchecked a side).orderCount.toNat ≠ 2 ^ 32 - 1)
    (ht : (s.levelUnchecked a side).totalQty.toNat + qty.toNat < 2 ^ 64) :
    (s.addValidated a side qty).StoreInv := by
  have hn' := count_succ_ne_zero hn
  have ht' := qty_add_ne_zero ht hq
  by_cases h0 : (s.levelUnchecked a side).orderCount = 0
  · have hf := addValidated_onlyAt (s := s) (a := a) qty hv
    have hlev := levelUnchecked_addValidated (s := s) (a := a) qty hv
    have hocc := hf.occupied_insert hv (by rw [hlev]; exact hn')
    have hmem : a.levelIndex.toNat ∉ s.occupied a.pageHandle side :=
      fun hm => mem_occupied_level.1 hm h0
    have hpage := hI.page a.pageHandle side hv
    have hbl := hI.arena.bookLevels_ownerOf hc side
    refine hI.of_onlyAt hf hv hc rfl ?_ ?_ ?_
    · rw [hlev]
      exact iff_of_false hn' ht'
    · rw [hocc]
      convert hpage.activate (occupied_subset _ _ _) hmem using 1
      · unfold PriceLevelStore.addValidated
        simp only [if_pos h0]
        exact setPageSummary_self (s := s) hv
      · unfold PriceLevelStore.addValidated
        simp only [if_pos h0]
        exact setPageBitmap_self (s := s) hv
    · rw [hocc]
      have hempty : ((s.pageSummary a.pageHandle side).activeLevels == 0) = true
          ↔ s.bookLevels (s.ownerOf a).stockLocate side (s.ownerOf a).pageIndex.toNat = ∅ := by
        rw [beq_iff_eq, hpage.activeLevels_eq_zero, hbl]
      have hb := (hI.book (s.ownerOf a).stockLocate side hv).activate
        (i := a.levelIndex) (fun q => occupied_subset _ _ _) (hI.root_ne hv)
        (hI.arena.rootAt_ownerOf hc) hempty
      rw [hbl] at hb
      convert hb using 1
      · unfold PriceLevelStore.addValidated
        simp only [if_pos h0]
        exact setBookSummary_self (s := s) hv
      · unfold PriceLevelStore.addValidated
        simp only [if_pos h0]
        exact setBookBitmap_self (s := s) hv
  · unfold PriceLevelStore.addValidated
    simp only [if_neg h0]
    exact hI.setLevel hv hc h0 hn' ht'

/-! ## Losing an order -/

/-- What `validateDeactivation` computes of the last level at `a`. -/
structure SoundPlan (s : PriceLevelStore) (a : PriceAddress) (side : OrderSide)
    (plan : DeactivationPlan) : Prop where
  page : PagePlan side (s.occupied a.pageHandle side) (s.pageSummary a.pageHandle side)
    a.levelIndex plan
  book : BookPlan side (s.bookLevels (s.ownerOf a).stockLocate side)
    (s.rootAt (s.ownerOf a).stockLocate) (s.bookSummary (s.ownerOf a).stockLocate side)
    (s.ownerOf a).pageIndex a.levelIndex plan

theorem eraseValidated_onlyAt (qty : UInt32) (plan : DeactivationPlan) (hv : side ≠ .invalid) :
    OnlyAt s (s.eraseValidated a side qty plan) a (s.ownerOf a).stockLocate side := by
  unfold eraseValidated
  dsimp only
  split_ifs
  · exact OnlyAt.trans (setLevel_onlyAt _ _ hv) (setSide_onlyAt hv)
  · exact setLevel_onlyAt _ _ hv

theorem levelUnchecked_eraseValidated (qty : UInt32) (plan : DeactivationPlan)
    (hv : side ≠ .invalid) : (s.eraseValidated a side qty plan).levelUnchecked a side
      = ⟨(s.levelUnchecked a side).totalQty - qty.toUInt64,
        (s.levelUnchecked a side).orderCount - 1⟩ := by
  unfold eraseValidated
  dsimp only
  split_ifs
  · exact levelUnchecked_setLevel (s := s) hv
  · exact levelUnchecked_setLevel (s := s) hv

theorem StoreInv.eraseValidated (hI : s.StoreInv) (hv : side ≠ .invalid)
    (hc : s.Committed a.pageHandle) {qty : UInt32} {plan : DeactivationPlan}
    (h0 : (s.levelUnchecked a side).orderCount ≠ 0)
    (h1 : (s.levelUnchecked a side).orderCount = 1 →
      (s.levelUnchecked a side).totalQty = qty.toUInt64 ∧ SoundPlan s a side plan)
    (h2 : (s.levelUnchecked a side).orderCount ≠ 1 →
      (s.levelUnchecked a side).totalQty ≠ qty.toUInt64) :
    (s.eraseValidated a side qty plan).StoreInv := by
  by_cases hone : (s.levelUnchecked a side).orderCount = 1
  · obtain ⟨hqty, hplan⟩ := h1 hone
    have hf := eraseValidated_onlyAt (s := s) (a := a) qty plan hv
    have hlev := levelUnchecked_eraseValidated (s := s) (a := a) qty plan hv
    rw [hone, hqty, UInt64.sub_self] at hlev
    have hocc := hf.occupied_erase hv (by rw [hlev]; rfl)
    have hmem : a.levelIndex.toNat ∈ s.occupied a.pageHandle side := mem_occupied_level.2 h0
    have hpage := hI.page a.pageHandle side hv
    have hbl := hI.arena.bookLevels_ownerOf hc side
    refine hI.of_onlyAt hf hv hc rfl ?_ ?_ ?_
    · rw [hlev]
      exact iff_of_true rfl rfl
    · rw [hocc]
      convert hpage.deactivate (occupied_subset _ _ _) hmem hplan.page using 1
      · unfold PriceLevelStore.eraseValidated
        simp only [if_pos hone]
        exact setPageSummary_self (s := s) hv
      · unfold PriceLevelStore.eraseValidated
        simp only [if_pos hone]
        exact setPageBitmap_self (s := s) hv
    · rw [hocc]
      have hb := (hI.book (s.ownerOf a).stockLocate side hv).deactivate
        (fun q => occupied_subset _ _ _) (by rwa [hbl]) hplan.book
      rw [hbl] at hb
      convert hb using 1
      · unfold PriceLevelStore.eraseValidated
        simp only [if_pos hone]
        exact setBookSummary_self (s := s) hv
      · unfold PriceLevelStore.eraseValidated
        simp only [if_pos hone]
        exact setBookBitmap_self (s := s) hv
  · unfold PriceLevelStore.eraseValidated
    simp only [if_neg hone]
    refine hI.setLevel hv hc h0 ?_ ?_
    · exact fun h => hone ((UInt32.sub_left_inj _).1 (h.trans (UInt32.sub_self _).symm))
    · exact fun h => h2 hone ((UInt64.sub_left_inj _).1 (h.trans (UInt64.sub_self _).symm))

end PriceLevelStore

end AstraFeed
