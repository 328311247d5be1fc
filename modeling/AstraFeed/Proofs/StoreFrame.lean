import AstraFeed.Proofs.StoreSide

/-!
# What a mutation of one level leaves alone

`OnlyAt` is the frame of a mutation of one level: the arena stays as it was, and of the levels,
summaries and bitmaps only those of the level, its page and its book on that side change. The
invariant of the whole store then follows from that of the one page and the one book.
-/

namespace AstraFeed

namespace PriceLevelStore

open Function

variable {s s' s'' : PriceLevelStore} {a : PriceAddress} {l : UInt16} {side : OrderSide}

theorem sideIndex_inj {sd : OrderSide} (hv : side ≠ .invalid) (hv' : sd ≠ .invalid) :
    sideIndex sd = sideIndex side ↔ sd = side := by
  cases side <;> cases sd <;> simp_all [sideIndex]

theorem sideIndex_lt (side : OrderSide) : sideIndex side < 2 := by
  unfold sideIndex
  split_ifs <;> omega

theorem pageSideIndex_inj {h h' : UInt32} {sd : OrderSide} (hv : side ≠ .invalid)
    (hv' : sd ≠ .invalid) : pageSideIndex h' sd = pageSideIndex h side ↔ h' = h ∧ sd = side := by
  rw [← sideIndex_inj hv hv', ← UInt32.toNat_inj]
  have := sideIndex_lt sd
  have := sideIndex_lt side
  unfold pageSideIndex
  omega

theorem bookSideIndex_inj {l' : UInt16} {sd : OrderSide} (hv : side ≠ .invalid)
    (hv' : sd ≠ .invalid) : bookSideIndex l' sd = bookSideIndex l side ↔ l' = l ∧ sd = side := by
  rw [← sideIndex_inj hv hv', ← UInt16.toNat_inj]
  have := sideIndex_lt sd
  have := sideIndex_lt side
  unfold bookSideIndex
  omega

/-! ## Reading what was written -/

section Written

variable {h h' : UInt32} {l' : UInt16} {sd : OrderSide} {i : ℕ}

theorem levelAt_eq : s.levelAt a.pageHandle side a.levelIndex.toNat = s.levelUnchecked a side :=
  rfl

theorem levelAt_setLevel (v : PriceLevelState) (hv : side ≠ .invalid) (hv' : sd ≠ .invalid) :
    (s.setLevel a side v).levelAt h sd i
      = if h = a.pageHandle ∧ sd = side ∧ i = a.levelIndex.toNat then v
        else s.levelAt h sd i := by
  have hslot : (h - 1).toNat = (a.pageHandle - 1).toNat ↔ h = a.pageHandle := by
    rw [UInt32.toNat_inj, UInt32.sub_left_inj]
  unfold levelAt setLevel
  by_cases hh : h = a.pageHandle
  · subst hh
    cases side <;> cases sd <;> simp_all [update_apply]
  · have hne := hslot.not.2 hh
    simp [hh, update_of_ne hne]

theorem pageSummary_setPageSummary (v : PageSideSummary) (hv : side ≠ .invalid)
    (hv' : sd ≠ .invalid) : (s.setPageSummary h side v).pageSummary h' sd
      = if h' = h ∧ sd = side then v else s.pageSummary h' sd := by
  unfold pageSummary setPageSummary
  by_cases hh : h' = h
  · subst hh
    simp only [update_self, update_apply, sideIndex_inj hv hv', true_and]
  · have hne := UInt32.toNat_inj.not.2 hh
    simp [hh, update_of_ne hne]

theorem pageBitmap_setPageBitmap (v : PriceBitmapStorage) (hv : side ≠ .invalid)
    (hv' : sd ≠ .invalid) : (s.setPageBitmap h side v).pageBitmap h' sd
      = if h' = h ∧ sd = side then v else s.pageBitmap h' sd := by
  simp only [pageBitmap, setPageBitmap, update_apply, pageSideIndex_inj hv hv']

theorem bookSummary_setBookSummary (v : BookSideSummary) (hv : side ≠ .invalid)
    (hv' : sd ≠ .invalid) : (s.setBookSummary l side v).bookSummary l' sd
      = if l' = l ∧ sd = side then v else s.bookSummary l' sd := by
  unfold bookSummary setBookSummary
  by_cases hh : l' = l
  · subst hh
    simp only [update_self, update_apply, sideIndex_inj hv hv', true_and]
  · have hne := UInt16.toNat_inj.not.2 hh
    simp [hh, update_of_ne hne]

theorem bookBitmap_setBookBitmap (v : PriceBitmapStorage) (hv : side ≠ .invalid)
    (hv' : sd ≠ .invalid) : (s.setBookBitmap l side v).bookBitmap l' sd
      = if l' = l ∧ sd = side then v else s.bookBitmap l' sd := by
  simp only [bookBitmap, setBookBitmap, update_apply, bookSideIndex_inj hv hv']

end Written

/-! ## The frame -/

/-- `s'` is `s` but for the level at `a` on `side` and what summarizes it in its page and in the
book of `l`. -/
structure OnlyAt (s s' : PriceLevelStore) (a : PriceAddress) (l : UInt16) (side : OrderSide) :
    Prop where
  config : s'.config = s.config
  roots : s'.roots = s.roots
  preparedBooks : s'.preparedBooks = s.preparedBooks
  pageOwners : s'.pageOwners = s.pageOwners
  committedPages : s'.committedPages = s.committedPages
  levelAt : ∀ h sd i, sd ≠ .invalid →
    ¬ (h = a.pageHandle ∧ sd = side ∧ i = a.levelIndex.toNat) →
    s'.levelAt h sd i = s.levelAt h sd i
  pageSummary : ∀ h sd, sd ≠ .invalid → ¬ (h = a.pageHandle ∧ sd = side) →
    s'.pageSummary h sd = s.pageSummary h sd
  pageBitmap : ∀ h sd, sd ≠ .invalid → ¬ (h = a.pageHandle ∧ sd = side) →
    s'.pageBitmap h sd = s.pageBitmap h sd
  bookSummary : ∀ l' sd, sd ≠ .invalid → ¬ (l' = l ∧ sd = side) →
    s'.bookSummary l' sd = s.bookSummary l' sd
  bookBitmap : ∀ l' sd, sd ≠ .invalid → ¬ (l' = l ∧ sd = side) →
    s'.bookBitmap l' sd = s.bookBitmap l' sd

theorem OnlyAt.trans (h : OnlyAt s s' a l side) (h' : OnlyAt s' s'' a l side) :
    OnlyAt s s'' a l side where
  config := h'.config.trans h.config
  roots := h'.roots.trans h.roots
  preparedBooks := h'.preparedBooks.trans h.preparedBooks
  pageOwners := h'.pageOwners.trans h.pageOwners
  committedPages := h'.committedPages.trans h.committedPages
  levelAt := fun p sd i hv hn => (h'.levelAt p sd i hv hn).trans (h.levelAt p sd i hv hn)
  pageSummary := fun p sd hv hn => (h'.pageSummary p sd hv hn).trans (h.pageSummary p sd hv hn)
  pageBitmap := fun p sd hv hn => (h'.pageBitmap p sd hv hn).trans (h.pageBitmap p sd hv hn)
  bookSummary := fun p sd hv hn => (h'.bookSummary p sd hv hn).trans (h.bookSummary p sd hv hn)
  bookBitmap := fun p sd hv hn => (h'.bookBitmap p sd hv hn).trans (h.bookBitmap p sd hv hn)

theorem setLevel_onlyAt (v : PriceLevelState) (l : UInt16) (hv : side ≠ .invalid) :
    OnlyAt s (s.setLevel a side v) a l side where
  config := rfl
  roots := rfl
  preparedBooks := rfl
  pageOwners := rfl
  committedPages := rfl
  levelAt := fun h sd i hv' hn => by rw [levelAt_setLevel v hv hv', if_neg hn]
  pageSummary := fun _ _ _ _ => rfl
  pageBitmap := fun _ _ _ _ => rfl
  bookSummary := fun _ _ _ _ => rfl
  bookBitmap := fun _ _ _ _ => rfl

/-- Writing a page's and a book's summary and bitmap, as both `activateLevel` and
`deactivateLevel` end. -/
def setSide (s : PriceLevelStore) (h : UInt32) (l : UInt16) (side : OrderSide)
    (pageBitmap : PriceBitmapStorage) (pageSummary : PageSideSummary)
    (bookBitmap : PriceBitmapStorage) (bookSummary : BookSideSummary) : PriceLevelStore :=
  (((s.setPageBitmap h side pageBitmap).setPageSummary h side pageSummary).setBookBitmap l side
    bookBitmap).setBookSummary l side bookSummary

theorem setSide_onlyAt {pb : PriceBitmapStorage} {ps : PageSideSummary} {bb : PriceBitmapStorage}
    {bs : BookSideSummary} (hv : side ≠ .invalid) :
    OnlyAt s (s.setSide a.pageHandle l side pb ps bb bs) a l side where
  config := rfl
  roots := rfl
  preparedBooks := rfl
  pageOwners := rfl
  committedPages := rfl
  levelAt := fun _ _ _ _ _ => rfl
  pageSummary := fun _ _ hv' hn =>
    (pageSummary_setPageSummary (s := s) ps hv hv').trans (if_neg hn)
  pageBitmap := fun _ _ hv' hn => (pageBitmap_setPageBitmap (s := s) pb hv hv').trans (if_neg hn)
  bookSummary := fun _ _ hv' hn =>
    (bookSummary_setBookSummary (s := s) bs hv hv').trans (if_neg hn)
  bookBitmap := fun _ _ hv' hn => (bookBitmap_setBookBitmap (s := s) bb hv hv').trans (if_neg hn)

section Self

variable {h : UInt32}

theorem setPageSummary_self {v : PageSideSummary} (hv : side ≠ .invalid) :
    (s.setPageSummary h side v).pageSummary h side = v :=
  (pageSummary_setPageSummary v hv hv).trans (if_pos ⟨rfl, rfl⟩)

theorem setPageBitmap_self {v : PriceBitmapStorage} (hv : side ≠ .invalid) :
    (s.setPageBitmap h side v).pageBitmap h side = v :=
  (pageBitmap_setPageBitmap v hv hv).trans (if_pos ⟨rfl, rfl⟩)

theorem setBookSummary_self {v : BookSideSummary} (hv : side ≠ .invalid) :
    (s.setBookSummary l side v).bookSummary l side = v :=
  (bookSummary_setBookSummary v hv hv).trans (if_pos ⟨rfl, rfl⟩)

theorem setBookBitmap_self {v : PriceBitmapStorage} (hv : side ≠ .invalid) :
    (s.setBookBitmap l side v).bookBitmap l side = v :=
  (bookBitmap_setBookBitmap v hv hv).trans (if_pos ⟨rfl, rfl⟩)

end Self

/-! ## From one page and one book to the store -/

section Inv

variable {h : UInt32} {sd : OrderSide} {o : PageOwner}

theorem mem_occupied {i : ℕ} :
    i ∈ s.occupied h side ↔ i < kPricePartCount ∧ (s.levelAt h side i).orderCount ≠ 0 := by
  simp [occupied]

theorem mem_occupied_level :
    a.levelIndex.toNat ∈ s.occupied a.pageHandle side ↔ (s.levelUnchecked a side).orderCount ≠ 0 :=
  mem_occupied.trans (and_iff_right a.levelIndex.toNat_lt)

theorem occupied_subset (s : PriceLevelStore) (h : UInt32) (side : OrderSide) :
    s.occupied h side ⊆ Finset.range kPricePartCount := Finset.filter_subset _ _

theorem OnlyAt.occupied (hf : OnlyAt s s' a l side) (hv : sd ≠ .invalid)
    (hn : ¬ (h = a.pageHandle ∧ sd = side)) : s'.occupied h sd = s.occupied h sd := by
  ext i
  rw [mem_occupied, mem_occupied, hf.levelAt h sd i hv fun hx => hn ⟨hx.1, hx.2.1⟩]

theorem OnlyAt.occupied_insert (hf : OnlyAt s s' a l side) (hv : side ≠ .invalid)
    (hne : (s'.levelUnchecked a side).orderCount ≠ 0) : s'.occupied a.pageHandle side
      = insert a.levelIndex.toNat (s.occupied a.pageHandle side) := by
  ext i
  by_cases hi : i = a.levelIndex.toNat
  · subst hi
    simp only [Finset.mem_insert_self, iff_true]
    exact mem_occupied_level.2 hne
  · rw [Finset.mem_insert, mem_occupied, mem_occupied,
      hf.levelAt _ side i hv fun hx => hi hx.2.2, or_iff_right hi]

theorem OnlyAt.occupied_erase (hf : OnlyAt s s' a l side) (hv : side ≠ .invalid)
    (h0 : (s'.levelUnchecked a side).orderCount = 0) : s'.occupied a.pageHandle side
      = (s.occupied a.pageHandle side).erase a.levelIndex.toNat := by
  ext i
  by_cases hi : i = a.levelIndex.toNat
  · subst hi
    simp only [Finset.mem_erase, ne_eq, not_true_eq_false, false_and, iff_false]
    exact fun hm => mem_occupied_level.1 hm h0
  · rw [Finset.mem_erase, mem_occupied, mem_occupied,
      hf.levelAt _ side i hv fun hx => hi hx.2.2, and_iff_right hi]

theorem OnlyAt.committed (hf : OnlyAt s s' a l side) : s'.Committed h ↔ s.Committed h := by
  unfold Committed
  rw [hf.committedPages]

theorem OnlyAt.rootAt (hf : OnlyAt s s' a l side) (l' : UInt16) : s'.rootAt l' = s.rootAt l' := by
  funext p
  unfold PriceLevelStore.rootAt
  rw [hf.roots]

theorem OnlyAt.arenaInv (hf : OnlyAt s s' a l side) (hI : s.ArenaInv) : s'.ArenaInv where
  committed_le := by
    rw [hf.committedPages, hf.config]
    exact hI.committed_le
  committed_iff := fun h => by
    rw [hf.pageOwners, hf.committed]
    exact hI.committed_iff h
  prepared := fun h hc => by
    simp only [isBookPrepared, hf.pageOwners, hf.preparedBooks]
    exact hI.prepared h (hf.committed.1 hc)
  root_iff := fun l' p h hp hne => by
    rw [hf.rootAt, hf.pageOwners, hf.committed]
    exact hI.root_iff l' p h hp hne

/-- The root table maps an owner's page, and no other page of its book, to the owned handle. -/
theorem ArenaInv.root_owner (hI : s.ArenaInv) (hc : s.Committed h)
    (ho : s.pageOwners h.toNat = o) {q : ℕ} (hq : q < kPricePartCount) :
    s.rootAt o.stockLocate q = h ↔ q = o.pageIndex.toNat := by
  rw [hI.root_iff _ _ _ hq hc.1, ho]
  exact ⟨fun hx => hx.2.2.symm, fun hx => ⟨hc, rfl, hx.symm⟩⟩

/-- The roots of other books do not lead to an owned handle. -/
theorem ArenaInv.root_other (hI : s.ArenaInv) (hc : s.Committed h)
    (ho : s.pageOwners h.toNat = o) {q : ℕ} (hq : q < kPricePartCount) (hl : l ≠ o.stockLocate) :
    s.rootAt l q ≠ h := by
  rw [ne_eq, hI.root_iff _ _ _ hq hc.1, ho]
  exact fun hx => hl hx.2.1.symm

theorem OnlyAt.bookLevels (hf : OnlyAt s s' a o.stockLocate side) (hI : s.ArenaInv)
    (hv : side ≠ .invalid) (hc : s.Committed a.pageHandle)
    (ho : s.pageOwners a.pageHandle.toNat = o) {q : ℕ} (hq : q < kPricePartCount) :
    s'.bookLevels o.stockLocate side q = update (s.bookLevels o.stockLocate side)
      o.pageIndex.toNat (s'.occupied a.pageHandle side) q := by
  have hroot := hI.root_owner hc ho hq
  unfold PriceLevelStore.bookLevels
  rw [hf.rootAt]
  by_cases hp : q = o.pageIndex.toNat
  · rw [hroot.2 hp, hp, update_self]
  · rw [update_of_ne hp, hf.occupied hv fun hx => hp (hroot.1 hx.1)]

theorem OnlyAt.bookLevels_other (hf : OnlyAt s s' a o.stockLocate side) (hI : s.ArenaInv)
    (hv : sd ≠ .invalid) (hc : s.Committed a.pageHandle)
    (ho : s.pageOwners a.pageHandle.toNat = o) (hn : ¬ (l = o.stockLocate ∧ sd = side)) {q : ℕ}
    (hq : q < kPricePartCount) : s'.bookLevels l sd q = s.bookLevels l sd q := by
  unfold PriceLevelStore.bookLevels
  rw [hf.rootAt]
  refine hf.occupied hv ?_
  rintro ⟨hr, rfl⟩
  exact hI.root_other hc ho hq (fun hl => hn ⟨hl, rfl⟩) hr

theorem StoreInv.of_onlyAt (hI : s.StoreInv) (hf : OnlyAt s s' a o.stockLocate side)
    (hv : side ≠ .invalid) (hc : s.Committed a.pageHandle)
    (ho : s.pageOwners a.pageHandle.toNat = o)
    (hl : (s'.levelUnchecked a side).orderCount = 0 ↔ (s'.levelUnchecked a side).totalQty = 0)
    (hp : PageOk side (s'.occupied a.pageHandle side) (s'.pageSummary a.pageHandle side)
      (s'.pageBitmap a.pageHandle side))
    (hb : BookOk side (update (s.bookLevels o.stockLocate side) o.pageIndex.toNat
      (s'.occupied a.pageHandle side)) (s.rootAt o.stockLocate)
      (s'.bookSummary o.stockLocate side) (s'.bookBitmap o.stockLocate side)) :
    s'.StoreInv where
  arena := hf.arenaInv hI.arena
  level_iff := fun h sd i hsd => by
    by_cases hx : h = a.pageHandle ∧ sd = side ∧ i = a.levelIndex.toNat
    · obtain ⟨rfl, rfl, rfl⟩ := hx
      exact hl
    · rw [hf.levelAt h sd i hsd hx]
      exact hI.level_iff h sd i hsd
  uncommitted := fun h sd hsd hn => by
    rw [hf.committed] at hn
    rw [hf.occupied hsd]
    · exact hI.uncommitted h sd hsd hn
    · rintro ⟨rfl, -⟩
      exact hn hc
  page := fun h sd hsd => by
    by_cases hx : h = a.pageHandle ∧ sd = side
    · obtain ⟨rfl, rfl⟩ := hx
      exact hp
    · rw [hf.occupied hsd hx, hf.pageSummary h sd hsd hx, hf.pageBitmap h sd hsd hx]
      exact hI.page h sd hsd
  book := fun l sd hsd => by
    rw [hf.rootAt]
    by_cases hx : l = o.stockLocate ∧ sd = side
    · obtain ⟨rfl, rfl⟩ := hx
      refine hb.congr (fun q => ?_) (fun q hq => (hf.bookLevels hI.arena hv hc ho hq).symm)
        fun _ _ _ => rfl
      by_cases hq : q = o.pageIndex.toNat
      · rw [hq, update_self]
        exact occupied_subset _ _ _
      · rw [update_of_ne hq]
        exact occupied_subset _ _ _
    · rw [hf.bookSummary l sd hsd hx, hf.bookBitmap l sd hsd hx]
      exact (hI.book l sd hsd).congr (fun q => occupied_subset _ _ _)
        (fun q hq => (hf.bookLevels_other hI.arena hsd hc ho hx hq).symm) fun _ _ _ => rfl

/-- An occupied page of a book has a committed handle. -/
theorem StoreInv.root_ne (hI : s.StoreInv) (hv : side ≠ .invalid) (q : ℕ)
    (hq : (s.bookLevels l side q).Nonempty) : s.rootAt l q ≠ kInvalidPricePageHandle := by
  intro h0
  have hne := hI.uncommitted (s.rootAt l q) side hv fun hc => hc.1 h0
  exact hq.ne_empty hne

end Inv

end PriceLevelStore

end AstraFeed
