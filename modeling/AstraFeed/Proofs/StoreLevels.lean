import AstraFeed.Proofs.PriceLevelStore

/-!
# The price store as levels

What the operations do to the level of a locate at a price, and when they are applied.
-/

namespace AstraFeed

namespace PriceLevelStore

open Function

variable {s s' : PriceLevelStore} {a : PriceAddress} {side : OrderSide} {l : UInt16}

/-- The address is the place of price `x` of a locate. -/
structure Locates (s : PriceLevelStore) (l : UInt16) (x : ℕ) (p : UInt16) (a : PriceAddress) :
    Prop where
  handle_ne : a.pageHandle ≠ kInvalidPricePageHandle
  root : s.rootAt l p.toNat = a.pageHandle
  price : p.toNat * kPricePartCount + a.levelIndex.toNat = x

section Locates

variable {x : ℕ} {p : UInt16}

theorem Locates.committed (hI : s.ArenaInv) (h : Locates s l x p a) :
    s.Committed a.pageHandle ∧ (s.ownerOf a).stockLocate = l ∧ (s.ownerOf a).pageIndex = p := by
  obtain ⟨hc, hl, hp⟩ := (hI.root_iff l p.toNat _ p.toNat_lt h.handle_ne).1 h.root
  exact ⟨hc, hl, UInt16.toNat_inj.1 hp⟩

theorem Locates.lt (h : Locates s l x p a) : x < 2 ^ 32 := by
  have := p.toNat_lt
  have := a.levelIndex.toNat_lt
  rw [← h.price, kPricePartCount]
  omega

theorem Locates.div (h : Locates s l x p a) : x / kPricePartCount = p.toNat := by
  have := a.levelIndex.toNat_lt
  rw [← h.price, kPricePartCount]
  omega

theorem Locates.mod (h : Locates s l x p a) : x % kPricePartCount = a.levelIndex.toNat := by
  have := a.levelIndex.toNat_lt
  rw [← h.price, kPricePartCount]
  omega

theorem Locates.levelOf (h : Locates s l x p a) (side : OrderSide) :
    s.levelOf l side x = s.levelUnchecked a side := by
  unfold PriceLevelStore.levelOf
  rw [h.div, h.mod, h.root]
  rfl

theorem Locates.ownsAddress (hI : s.ArenaInv) (h : Locates s l x p a) :
    s.ownsAddress l p a = true := by
  obtain ⟨hc, hl, _⟩ := h.committed hI
  have hprep := hI.prepared _ hc
  rw [show (s.pageOwners a.pageHandle.toNat).stockLocate = l from hl] at hprep
  unfold PriceLevelStore.ownsAddress
  rw [isValidStockLocate_of_prepared hprep, Bool.true_and, rootHandleMatches_iff hI]
  exact ⟨h.handle_ne, h.root⟩

theorem Locates.of_roots (h : Locates s l x p a)
    (hroot : ∀ l q, q < kPricePartCount → s.rootAt l q ≠ kInvalidPricePageHandle →
      s'.rootAt l q = s.rootAt l q) : Locates s' l x p a := by
  refine ⟨h.handle_ne, ?_, h.price⟩
  rw [hroot l _ p.toNat_lt (by rw [h.root]; exact h.handle_ne), h.root]

/-- A mutation at one level leaves the other levels. -/
theorem OnlyAt.levelOf (hf : OnlyAt s s' a l side) (hI : s.ArenaInv) (h : Locates s l x p a)
    {l' : UInt16} {sd : OrderSide} {y : ℕ} (hv : sd ≠ .invalid) (hy : y < 2 ^ 32)
    (hne : ¬ (l' = l ∧ sd = side ∧ y = x)) : s'.levelOf l' sd y = s.levelOf l' sd y := by
  obtain ⟨hc, hl, hp⟩ := h.committed hI
  unfold PriceLevelStore.levelOf
  rw [hf.rootAt]
  refine hf.levelAt _ sd _ hv ?_
  rintro ⟨hroot, rfl, hmod⟩
  have hq : y / kPricePartCount < kPricePartCount := by
    simp only [kPricePartCount]
    omega
  obtain ⟨_, hl', hp'⟩ := (hI.root_iff l' _ _ hq h.handle_ne).1 hroot
  refine hne ⟨hl'.symm.trans hl, rfl, ?_⟩
  rw [← h.price, ← hmod, ← hp]
  exact ((congrArg (· * kPricePartCount + y % kPricePartCount) hp').trans
    (Nat.div_add_mod' y kPricePartCount)).symm

end Locates

/-! ## Results -/

theorem add_of_canAdd (hI : s.StoreInv) {qty : UInt32} (h : CanAdd s a side qty) :
    s.add a side qty = (.applied, s.addValidated a side qty) := by
  unfold add
  dsimp only
  rw [if_neg (not_ne_iff.2 ((validateAdd_applied_iff hI).2 h))]

theorem erase_of_canErase (hI : s.StoreInv) {qty : UInt32} (h : CanErase s a side qty) :
    ∃ plan, s.validateErase a side qty = .ok plan
      ∧ s.erase a side qty = (.applied, s.eraseValidated a side qty plan) := by
  obtain ⟨plan, hplan⟩ := validateErase_of_canErase hI h
  refine ⟨plan, hplan, ?_⟩
  unfold erase
  rw [hplan]

/-- Part of an order of `current` shares can be taken from the level. -/
theorem reduceLevel_of_canErase (hI : s.StoreInv) {current reduction : UInt32}
    (h : CanErase s a side current) (h0 : reduction ≠ 0) (hlt : reduction < current) :
    s.reduceLevel a side current reduction = (.applied, s.setLevel a side
      { s.levelUnchecked a side with
        totalQty := (s.levelUnchecked a side).totalQty - reduction.toUInt64 }) := by
  have hqty : (s.levelUnchecked a side).totalQty ≠ 0 :=
    (hI.level_iff _ side _ h.side_ne).not.1 h.count
  have hlt' : reduction.toNat < current.toNat := UInt32.lt_iff_toNat_lt.1 hlt
  have hle := UInt64.le_iff_toNat_le.1 h.le
  rw [UInt32.toNat_toUInt64] at hle
  unfold reduceLevel
  rw [if_neg (not_or.2 ⟨h.qty_ne, h0⟩), if_neg (UInt32.not_le.2 hlt)]
  dsimp only
  rw [if_neg (not_or.2 ⟨h.count, hqty⟩), if_neg (UInt64.not_lt.2 h.le),
    if_neg (fun hx => hx.2 (h.one.1 hx.1)),
    if_neg (fun hx => (one_lt_iff.1 hx.1).2 (h.one.2 hx.2)), if_neg]
  rw [UInt64.not_le, UInt64.lt_iff_toNat_lt, UInt32.toNat_toUInt64]
  omega

theorem reduceChecked_of_canErase (hI : s.StoreInv) {x : ℕ} {p : UInt16} {current reduction : UInt32}
    (hl : Locates s l x p a) (h : CanErase s a side current) (h0 : reduction ≠ 0)
    (hlt : reduction < current) :
    s.reduceChecked l p a side current reduction = (.applied, s.setLevel a side
      { s.levelUnchecked a side with
        totalQty := (s.levelUnchecked a side).totalQty - reduction.toUInt64 }) := by
  obtain ⟨hc, hlo, hpo⟩ := hl.committed hI.arena
  have hvalid := isValidStockLocate_of_prepared (hI.arena.prepared _ hc)
  rw [show (s.pageOwners a.pageHandle.toNat).stockLocate = l from hlo] at hvalid
  unfold reduceChecked
  rw [if_neg (by simp [hvalid])]
  dsimp only
  rw [if_neg (not_ne_iff.2 (validateAddress_applied_iff.2 ⟨h.side_ne, hc⟩)), if_neg]
  · exact reduceLevel_of_canErase hI h h0 hlt
  · simp only [not_or, not_not, ne_eq]
    exact ⟨(hI.arena.committed_iff _).2 hc, hlo, hpo⟩

/-- Moving an order within its book, to another level or at its own. -/
theorem move_of_canErase (hI : s.StoreInv) {b : PriceAddress} {oldQty newQty : UInt32}
    (h : CanErase s a side oldQty) (hb : s.Committed b.pageHandle)
    (hsame : (s.ownerOf a).stockLocate = (s.ownerOf b).stockLocate) (h0 : newQty ≠ 0) :
    ∃ plan, s.validateErase a side oldQty = .ok plan
      ∧ s.move a oldQty b newQty side =
        if a.pageHandle = b.pageHandle ∧ a.levelIndex = b.levelIndex then
          let level := s.levelUnchecked a side
          let withoutOld := level.totalQty - oldQty.toUInt64
          if 2 ^ 64 - 1 - newQty.toNat < withoutOld.toNat then (.quantityOverflow, s)
          else (.applied, s.setLevel a side
            { level with totalQty := withoutOld + newQty.toUInt64 })
        else if s.validateAdd b side newQty ≠ .applied then (s.validateAdd b side newQty, s)
        else (.applied, (s.eraseValidated a side oldQty plan).addValidated b side newQty) := by
  obtain ⟨plan, hplan⟩ := validateErase_of_canErase hI h
  refine ⟨plan, hplan, ?_⟩
  have hsame' : ¬ (s.pageOwners a.pageHandle.toNat).stockLocate
      ≠ (s.pageOwners b.pageHandle.toNat).stockLocate := not_not.2 hsame
  unfold move
  rw [if_neg h0, owner_of_committed h.committed, owner_of_committed hb]
  dsimp only
  rw [if_neg, if_neg hsame', hplan]
  rw [not_or]
  exact ⟨(hI.arena.committed_iff _).2 h.committed, (hI.arena.committed_iff _).2 hb⟩

/-! ## Getting a page -/

/-- `s'` has the levels of `s` and every page it had. -/
structure Grows (s s' : PriceLevelStore) : Prop where
  config : s'.config = s.config
  preparedBooks : s'.preparedBooks = s.preparedBooks
  rootAt : ∀ l q, q < kPricePartCount → s.rootAt l q ≠ kInvalidPricePageHandle →
    s'.rootAt l q = s.rootAt l q
  levelOf : ∀ l side x, side ≠ .invalid → x < 2 ^ 32 → s'.levelOf l side x = s.levelOf l side x

theorem Grows.refl (s : PriceLevelStore) : Grows s s :=
  ⟨rfl, rfl, fun _ _ _ _ => rfl, fun _ _ _ _ _ => rfl⟩

theorem level_of_uncommitted (hI : s.StoreInv) {h : UInt32} (hn : ¬ s.Committed h)
    (hv : side ≠ .invalid) {i : ℕ} (hi : i < kPricePartCount) : s.levelAt h side i = ⟨0, 0⟩ := by
  have hcount : (s.levelAt h side i).orderCount = 0 := by
    by_contra hne
    have hm : i ∈ s.occupied h side := mem_occupied.2 ⟨hi, hne⟩
    rw [hI.uncommitted h side hv hn] at hm
    exact Finset.notMem_empty i hm
  have hqty := (hI.level_iff h side i hv).1 hcount
  cases hlevel : s.levelAt h side i with
  | mk totalQty orderCount =>
    rw [hlevel] at hcount hqty
    rw [show totalQty = 0 from hqty, show orderCount = 0 from hcount]

theorem withPage_grows (hI : s.StoreInv) {p : UInt16} {h : UInt32}
    (hroot : s.rootAt l p.toNat = kInvalidPricePageHandle) (hh : h = s.committedPages + 1) :
    Grows s (s.withPage l p h) where
  config := rfl
  preparedBooks := rfl
  rootAt := fun l' q hq hne => by
    rw [rootAt_withPage l' hq, if_neg]
    rintro ⟨rfl, rfl⟩
    exact hne hroot
  levelOf := fun l' side x hv hx => by
    have hq : x / kPricePartCount < kPricePartCount := by
      simp only [kPricePartCount]
      omega
    have hi : x % kPricePartCount < kPricePartCount := Nat.mod_lt _ (by decide)
    unfold PriceLevelStore.levelOf
    rw [rootAt_withPage l' hq]
    split_ifs with hlq
    · -- the page was missing, and the new one is empty
      have hnew : (s.withPage l p h).levelAt h side (x % kPricePartCount)
          = s.levelAt h side (x % kPricePartCount) := rfl
      rw [hnew, hlq.1, hlq.2, hroot, level_of_uncommitted hI (not_committed_next hh) hv hi,
        level_of_uncommitted hI (fun hc => hc.1 rfl) hv hi]
    · rfl

/-- What asking for the page of a price gives: an address of the price, its page committed if it
was missing, or the arena is full. -/
theorem acquire_cases (hI : s.StoreInv) (hprep : s.isBookPrepared l = true) (x : UInt32) :
    (s.reservePrice l x).1.result = .pricePageCapacityExceeded
      ∧ (∃ k, (s.reservePrice l x).2 = { s with pageCapacityFailures := k })
    ∨ (s.reservePrice l x).1.valid = true ∧ (s.reservePrice l x).2 = s
      ∧ ∃ s', (if (s.reservePrice l x).1.requiresCommit = true then
            s.commitReservation (s.reservePrice l x).1 else (.applied, s)) = (.applied, s')
        ∧ s'.StoreInv ∧ Grows s s'
        ∧ Locates s' l x.toNat (s.reservePrice l x).1.pageIndex (s.reservePrice l x).1.address
        ∧ (s' = s ∨ ∀ side, side ≠ .invalid →
          (s'.levelUnchecked (s.reservePrice l x).1.address side).orderCount = 0) := by
  have hvalid := isValidStockLocate_of_prepared hprep
  have hprice : (splitPrice x).pageIndex.toNat * kPricePartCount
      + (splitPrice x).levelIndex.toNat = x.toNat := by
    rw [splitPrice_pageIndex, splitPrice_levelIndex]
    exact Nat.div_add_mod' _ _
  have hroots : s.roots (priceRootIndex l (splitPrice x).pageIndex)
      = s.rootAt l (splitPrice x).pageIndex.toNat := by
    rw [priceRootIndex_eq, rootAt]
  unfold reservePrice
  simp only [hvalid, hprep, Bool.not_true, Bool.false_eq_true, if_false, hroots]
  by_cases h0 : s.rootAt l (splitPrice x).pageIndex.toNat = kInvalidPricePageHandle
  · rw [if_neg (not_not.2 h0)]
    by_cases hcap : s.config.pageCapacity ≤ s.committedPages
    · rw [if_pos hcap]
      exact .inl ⟨rfl, _, rfl⟩
    · have hlt := UInt32.lt_iff_toNat_lt.1 (UInt32.not_le.1 hcap)
      have hnext : (s.committedPages + 1).toNat = s.committedPages.toNat + 1 := by
        have := s.config.pageCapacity.toNat_lt
        rw [UInt32.toNat_add, show (1 : UInt32).toNat = 1 from rfl]
        omega
      have hne : s.committedPages + 1 ≠ kInvalidPricePageHandle := by
        rw [ne_eq, ← UInt32.toNat_inj, hnext]
        exact Nat.succ_ne_zero _
      have hle : s.committedPages + 1 ≤ s.config.pageCapacity := by
        rw [UInt32.le_iff_toNat_le, hnext]
        exact hlt
      have howner : (s.pageOwners (s.committedPages + 1).toNat).committed = 0 := by
        by_contra hx
        exact not_committed_next rfl ((hI.arena.committed_iff _).1 hx)
      rw [if_neg hcap]
      refine .inr ⟨by simp [PricePageReservation.valid, PriceAddress.valid, hne], rfl,
        s.withPage l (splitPrice x).pageIndex (s.committedPages + 1), ?_,
        hI.withPage hprep h0 rfl hne hle, withPage_grows hI h0 rfl, ⟨hne, ?_, hprice⟩,
        .inr fun side hv => ?_⟩
      · simp only [if_true]
        unfold commitReservation
        simp only [ne_eq, not_true_eq_false, if_false, PriceAddress.valid, Bool.not_true,
          Bool.false_eq_true, hvalid, hprep, hroots, h0, howner]
        rw [if_neg (by simp [hne]), if_neg (by simpa using hle)]
        rfl
      · rw [rootAt_withPage l (splitPrice x).pageIndex.toNat_lt, if_pos ⟨rfl, rfl⟩]
      · have := level_of_uncommitted hI (not_committed_next rfl) hv
          (i := (splitPrice x).levelIndex.toNat) (splitPrice x).levelIndex.toNat_lt
        exact congrArg PriceLevelState.orderCount this
  · have hm : s.rootHandleMatches l (splitPrice x).pageIndex
        (s.rootAt l (splitPrice x).pageIndex.toNat) = true :=
      (rootHandleMatches_iff hI.arena).2 ⟨h0, rfl⟩
    rw [if_pos h0, if_neg (by simp [hm])]
    refine .inr ⟨by simp [PricePageReservation.valid, PriceAddress.valid, h0], rfl, s, rfl, hI,
      .refl s, ⟨h0, rfl, hprice⟩, .inl rfl⟩

end PriceLevelStore

end AstraFeed
