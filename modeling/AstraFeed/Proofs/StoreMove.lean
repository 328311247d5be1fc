import AstraFeed.Proofs.StoreLevels
import AstraFeed.Proofs.StoreRead
import AstraFeed.Proofs.StoreRun

/-!
# A move is a removal and an addition

The invariant leaves a mutation of one level no choice above the level: two stores that satisfy it
and differ in one page and one book only have the same summaries and bitmaps once they have the
same occupied levels (`StoreInv.eq_setLevel`). So a move within one level, which writes its quantity
only, ends where removing the order and adding it again end.
-/

namespace AstraFeed

/-! ## The levels determine the rest -/

section Canonical

variable {side : OrderSide}

/-- The summary of an occupied page. -/
theorem PageOk.summary_eq {occ : Finset ℕ} {ps ps' : PageSideSummary}
    {pb pb' : PriceBitmapStorage} (h : PageOk side occ ps pb) (h' : PageOk side occ ps' pb')
    (hne : occ.Nonempty) : ps' = ps := by
  have hbest := (h'.best hne).unique (h.best hne)
  have hactive := h'.activeLevels.trans h.activeLevels.symm
  cases ps
  cases ps'
  simp only [UInt32.toNat_inj] at hbest hactive
  rw [hbest, hactive]

theorem PageOk.bitmap_eq {occ : Finset ℕ} {ps ps' : PageSideSummary}
    {pb pb' : PriceBitmapStorage} (h : PageOk side occ ps pb) (h' : PageOk side occ ps' pb')
    (hb : PriceBitmap.SameBeyond pb pb') : pb' = pb :=
  PriceBitmap.eq_of_members h.consistent h'.consistent hb (h'.members.trans h.members.symm)

theorem BookOk.bitmap_eq {occ : ℕ → Finset ℕ} {root : ℕ → UInt32} {bs bs' : BookSideSummary}
    {bb bb' : PriceBitmapStorage} (h : BookOk side occ root bs bb)
    (h' : BookOk side occ root bs' bb') (hb : PriceBitmap.SameBeyond bb bb') : bb' = bb := by
  refine PriceBitmap.eq_of_members h.consistent h'.consistent hb ?_
  ext p
  rw [h.members, h'.members]

/-- The summary of an occupied book. -/
theorem BookOk.summary_eq {occ : ℕ → Finset ℕ} {root : ℕ → UInt32} {bs bs' : BookSideSummary}
    {bb bb' : PriceBitmapStorage} (h : BookOk side occ root bs bb)
    (h' : BookOk side occ root bs' bb') (hb : bb' = bb) (hne : (pricesOf occ).Nonempty) :
    bs' = bs := by
  obtain ⟨hbest, hpage⟩ := h.best_some hne
  obtain ⟨hbest', hpage'⟩ := h'.best_some hne
  have hraw := hbest'.unique hbest
  have hactive := h'.activePages.trans (hb ▸ h.activePages.symm)
  rw [hraw, ← hpage] at hpage'
  cases bs
  cases bs'
  simp only [UInt32.toNat_inj] at hraw hactive hpage'
  rw [hraw, hactive, hpage']

end Canonical

namespace PriceLevelStore

open Function
open PriceBitmap (SameBeyond sameBeyond_set sameBeyond_reset)

variable {s s' s'' : PriceLevelStore} {a b : PriceAddress} {l : UInt16} {side : OrderSide}

/-! ## Writing one level and its side -/

section Side

variable {pb pb' bb bb' : PriceBitmapStorage} {ps ps' : PageSideSummary} {bs bs' : BookSideSummary}

theorem setLevel_setLevel (v w : PriceLevelState) :
    (s.setLevel a side v).setLevel a side w = s.setLevel a side w := by
  unfold setLevel
  by_cases hs : side = .buy <;> simp [hs]

theorem setSide_setSide : (s.setSide a.pageHandle l side pb ps bb bs).setSide a.pageHandle l side
    pb' ps' bb' bs' = s.setSide a.pageHandle l side pb' ps' bb' bs' := by
  simp [setSide, setPageBitmap, setPageSummary, setBookBitmap, setBookSummary]

theorem setSide_self : s.setSide a.pageHandle l side (s.pageBitmap a.pageHandle side)
    (s.pageSummary a.pageHandle side) (s.bookBitmap l side) (s.bookSummary l side) = s := by
  simp [setSide, setPageBitmap, setPageSummary, setBookBitmap, setBookSummary, pageBitmap,
    pageSummary, bookBitmap, bookSummary]

/-- `s'` is `s` with a new record of the level at `a` and new summaries and bitmaps of its side,
whose words past the arrays are the old ones. -/
def Rewrites (s s' : PriceLevelStore) (a : PriceAddress) (l : UInt16) (side : OrderSide) : Prop :=
  ∃ v pb ps bb bs, s' = (s.setLevel a side v).setSide a.pageHandle l side pb ps bb bs
    ∧ SameBeyond (s.pageBitmap a.pageHandle side) pb ∧ SameBeyond (s.bookBitmap l side) bb

theorem Rewrites.trans (hv : side ≠ .invalid) (h : Rewrites s s' a l side)
    (h' : Rewrites s' s'' a l side) : Rewrites s s'' a l side := by
  obtain ⟨v, pb, ps, bb, bs, rfl, hpb, hbb⟩ := h
  obtain ⟨w, pb', ps', bb', bs', rfl, hpb', hbb'⟩ := h'
  refine ⟨w, pb', ps', bb', bs', ?_, hpb.trans ?_, hbb.trans ?_⟩
  · calc ((((s.setLevel a side v).setSide a.pageHandle l side pb ps bb bs).setLevel a side
          w).setSide a.pageHandle l side pb' ps' bb' bs')
        = ((((s.setLevel a side v).setLevel a side w).setSide a.pageHandle l side pb ps bb
            bs).setSide a.pageHandle l side pb' ps' bb' bs') := rfl
      _ = (s.setLevel a side w).setSide a.pageHandle l side pb' ps' bb' bs' := by
          rw [setSide_setSide, setLevel_setLevel]
  · have hself := setPageBitmap_self (s := s.setLevel a side v) (h := a.pageHandle) (v := pb) hv
    exact hself ▸ hpb'
  · have hself := setBookBitmap_self (s := s.setLevel a side v) (l := l) (v := bb) hv
    exact hself ▸ hbb'

theorem rewrites_setLevel (v : PriceLevelState) : Rewrites s (s.setLevel a side v) a l side :=
  ⟨v, _, _, _, _, setSide_self.symm, .refl _, .refl _⟩

/-- What was rewritten is read back. -/
theorem Rewrites.eq (hv : side ≠ .invalid) (h : Rewrites s s' a l side) :
    s' = (s.setLevel a side (s'.levelUnchecked a side)).setSide a.pageHandle l side
        (s'.pageBitmap a.pageHandle side) (s'.pageSummary a.pageHandle side) (s'.bookBitmap l side)
        (s'.bookSummary l side)
      ∧ SameBeyond (s.pageBitmap a.pageHandle side) (s'.pageBitmap a.pageHandle side)
      ∧ SameBeyond (s.bookBitmap l side) (s'.bookBitmap l side) := by
  obtain ⟨v, pb, ps, bb, bs, rfl, hpb, hbb⟩ := h
  set t := s.setLevel a side v with ht
  have hlevel : (t.setSide a.pageHandle l side pb ps bb bs).levelUnchecked a side = v :=
    levelUnchecked_setLevel hv
  have hpb' : (t.setSide a.pageHandle l side pb ps bb bs).pageBitmap a.pageHandle side = pb :=
    setPageBitmap_self (s := t) hv
  have hps' : (t.setSide a.pageHandle l side pb ps bb bs).pageSummary a.pageHandle side = ps :=
    setPageSummary_self (s := t) hv
  have hbb' : (t.setSide a.pageHandle l side pb ps bb bs).bookBitmap l side = bb :=
    setBookBitmap_self (s := t) hv
  have hbs' : (t.setSide a.pageHandle l side pb ps bb bs).bookSummary l side = bs :=
    setBookSummary_self (s := t) hv
  rw [hlevel, hpb', hps', hbb', hbs', ← ht]
  exact ⟨rfl, hpb, hbb⟩

end Side

/-! ## The mutations of a level are rewrites -/

/-- The cached best level of an occupied page is a level. -/
theorem StoreInv.bestLevelIndex_lt (hI : s.StoreInv) (hv : side ≠ .invalid) {h : UInt32}
    (hne : (s.occupied h side).Nonempty) :
    (s.pageSummary h side).bestLevelIndex.toNat < PriceBitmap.kNumBits :=
  Finset.mem_range.1 (occupied_subset s h side ((hI.page h side hv).best hne).mem)

theorem addValidated_rewrites (hI : s.StoreInv) (hv : side ≠ .invalid) (qty : UInt32) :
    Rewrites s (s.addValidated a side qty) a (s.ownerOf a).stockLocate side := by
  unfold addValidated
  dsimp only
  split_ifs with h0
  · refine ⟨_, _, _, _, _, rfl, ?_, ?_⟩
    · split_ifs with h1 h2
      · have hcard := (hI.page a.pageHandle side hv).activeLevels_eq_one.1 h1
        have hbest := hI.bestLevelIndex_lt hv (Finset.card_pos.1 (hcard ▸ Nat.one_pos))
        exact (sameBeyond_set hbest).trans (sameBeyond_set a.levelIndex.toNat_lt)
      · exact sameBeyond_set a.levelIndex.toNat_lt
      · exact .refl _
    · split_ifs
      · exact sameBeyond_set (s.ownerOf a).pageIndex.toNat_lt
      · exact .refl _
  · exact rewrites_setLevel _

/-- A page's bitmap loses a bit, and the last one with it. -/
theorem sameBeyond_collapse {bitmap : PriceBitmapStorage} {p q : Prop} [Decidable p] [Decidable q]
    {i n : ℕ} (hi : i < PriceBitmap.kNumBits) (hn : n < PriceBitmap.kNumBits) :
    SameBeyond bitmap (if p then bitmap else if q then
      PriceBitmap.reset (PriceBitmap.reset bitmap i) n else PriceBitmap.reset bitmap i) := by
  split_ifs
  · exact .refl _
  · exact (sameBeyond_reset hi).trans (sameBeyond_reset hn)
  · exact sameBeyond_reset hi

theorem eraseValidated_rewrites (hI : s.StoreInv) (hv : side ≠ .invalid) {qty : UInt32}
    {plan : DeactivationPlan} (h0 : (s.levelUnchecked a side).orderCount ≠ 0)
    (hplan : (s.levelUnchecked a side).orderCount = 1 → SoundPlan s a side plan) :
    Rewrites s (s.eraseValidated a side qty plan) a (s.ownerOf a).stockLocate side := by
  unfold eraseValidated
  dsimp only
  split_ifs with h1
  · refine ⟨_, _, _, _, _, rfl, ?_, ?_⟩
    · have hbest : (if plan.pageBecomesEmpty then 0 else if plan.pageBestChanges then
          plan.nextLevelIndex.toUInt32 else (s.pageSummary a.pageHandle side).bestLevelIndex).toNat
          < PriceBitmap.kNumBits := by
        split_ifs with he hc
        · decide
        · have hnext := ((hplan h1).page.next hc).1
          rwa [toUInt32_toNat (by simp only [kPricePartCount] at hnext; omega)]
        · exact hI.bestLevelIndex_lt hv ⟨_, mem_occupied_level.2 h0⟩
      exact sameBeyond_collapse a.levelIndex.toNat_lt hbest
    · split_ifs
      · exact sameBeyond_reset (s.ownerOf a).pageIndex.toNat_lt
      · exact .refl _
  · exact rewrites_setLevel _

/-! ## A level that stays occupied -/

/-- Rewriting an occupied level that stays occupied writes its record only. -/
theorem StoreInv.eq_setLevel (hI : s.StoreInv) (hI' : s'.StoreInv) (hv : side ≠ .invalid)
    (hc : s.Committed a.pageHandle) (hw : Rewrites s s' a (s.ownerOf a).stockLocate side)
    (h0 : (s.levelUnchecked a side).orderCount ≠ 0)
    (h0' : (s'.levelUnchecked a side).orderCount ≠ 0) :
    s' = s.setLevel a side (s'.levelUnchecked a side) := by
  obtain ⟨heq, hpb, hbb⟩ := hw.eq hv
  have hf : OnlyAt s s' a (s.ownerOf a).stockLocate side := by
    rw [heq]
    exact (setLevel_onlyAt _ _ hv).trans (setSide_onlyAt hv)
  have hmem : a.levelIndex.toNat ∈ s.occupied a.pageHandle side := mem_occupied_level.2 h0
  have hocc : s'.occupied a.pageHandle side = s.occupied a.pageHandle side := by
    rw [hf.occupied_insert hv h0']
    exact Finset.insert_eq_of_mem hmem
  have hbl : ∀ q < kPricePartCount, s'.bookLevels (s.ownerOf a).stockLocate side q
      = s.bookLevels (s.ownerOf a).stockLocate side q := by
    intro q hq
    rw [hf.bookLevels hI.arena hv hc rfl hq, hocc, ← hI.arena.bookLevels_ownerOf hc, ownerOf,
      update_eq_self]
  have hpage := hI.page a.pageHandle side hv
  have hpage' := hI'.page a.pageHandle side hv
  rw [hocc] at hpage'
  have hbook := hI.book (s.ownerOf a).stockLocate side hv
  have hbook' : BookOk side (s.bookLevels (s.ownerOf a).stockLocate side)
      (s.rootAt (s.ownerOf a).stockLocate) (s'.bookSummary (s.ownerOf a).stockLocate side)
      (s'.bookBitmap (s.ownerOf a).stockLocate side) := by
    have h := hI'.book (s.ownerOf a).stockLocate side hv
    rw [hf.rootAt] at h
    exact h.congr (fun q => occupied_subset _ _ _) hbl fun _ _ _ => rfl
  have hne : (pricesOf (s.bookLevels (s.ownerOf a).stockLocate side)).Nonempty := by
    have hp : (s.ownerOf a).pageIndex.toNat < kPricePartCount := UInt16.toNat_lt _
    exact ⟨_, mem_pricesOf hp (by rwa [hI.arena.bookLevels_ownerOf hc])⟩
  have hbits := hbook.bitmap_eq hbook' hbb
  rw [hpage.bitmap_eq hpage' hpb, hpage.summary_eq hpage' ⟨_, hmem⟩, hbits,
    hbook.summary_eq hbook' hbits hne] at heq
  exact heq.trans (setSide_self (s := s.setLevel a side _))

/-! ## A removal and an addition -/

theorem validateErase_error_ne (hI : s.StoreInv) {qty : UInt32} {e : MutationResult}
    (h : s.validateErase a side qty = .error e) : e ≠ .applied := by
  unfold validateErase at h
  dsimp only at h
  split_ifs at h with h1 h2 h3 h4 h5 h6 h7
  · exact Except.error.inj h ▸ h1
  · exact Except.error.inj h ▸ nofun
  · exact Except.error.inj h ▸ nofun
  · exact Except.error.inj h ▸ nofun
  · exact Except.error.inj h ▸ nofun
  · exact Except.error.inj h ▸ nofun
  · obtain ⟨hv, hc⟩ := validateAddress_applied_iff.1 (not_ne_iff.1 h1)
    obtain ⟨plan, hplan, _⟩ := validateDeactivation_spec hI hv hc (not_or.1 h3).1
    rw [hplan] at h
    exact nomatch h

theorem erase_applied_iff (hI : s.StoreInv) {qty : UInt32} :
    (s.erase a side qty).1 = .applied ↔ CanErase s a side qty := by
  constructor
  · intro h
    unfold erase at h
    split at h
    · next e he => exact absurd h (validateErase_error_ne hI he)
    · next plan hplan => exact (validateErase_ok hI hplan).1
  · intro h
    obtain ⟨plan, _, herase⟩ := erase_of_canErase hI h
    rw [herase]

theorem add_applied_iff (hI : s.StoreInv) (a : PriceAddress) (side : OrderSide) (qty : UInt32) :
    (s.add a side qty).1 = .applied ↔ CanAdd s a side qty := by
  rw [← validateAdd_applied_iff hI]
  unfold add
  dsimp only
  split_ifs with h
  · exact Iff.rfl
  · exact iff_of_true rfl (not_ne_iff.1 h)

/-- A mutation that is not applied leaves the store as it was. -/
def KeepsUnlessApplied (s : PriceLevelStore) (r : MutationResult × PriceLevelStore) : Prop :=
  r.1 ≠ .applied → r.2 = s

theorem keeps_refused (e : MutationResult) : KeepsUnlessApplied s (e, s) := fun _ => rfl

theorem keeps_applied (s' : PriceLevelStore) : KeepsUnlessApplied s (.applied, s') :=
  fun h => absurd rfl h

theorem keeps_ite {p : Prop} [Decidable p] {r r' : MutationResult × PriceLevelStore}
    (h : KeepsUnlessApplied s r) (h' : KeepsUnlessApplied s r') :
    KeepsUnlessApplied s (if p then r else r') := by
  split_ifs
  · exact h
  · exact h'

theorem move_keeps (oldQty newQty : UInt32) :
    KeepsUnlessApplied s (s.move a oldQty b newQty side) := by
  unfold move
  refine keeps_ite (keeps_refused _) ?_
  split
  · refine keeps_ite (keeps_refused _) (keeps_ite (keeps_refused _) ?_)
    split
    · exact keeps_refused _
    · exact keeps_ite (keeps_ite (keeps_refused _) (keeps_applied _))
        (keeps_ite (keeps_refused _) (keeps_applied _))
  · exact keeps_refused _

theorem canErase_of_move (hI : s.StoreInv) {oldQty newQty : UInt32}
    (h : (s.move a oldQty b newQty side).1 = .applied) :
    newQty ≠ 0 ∧ CanErase s a side oldQty := by
  unfold move at h
  by_cases h0 : newQty = 0
  · rw [if_pos h0] at h
    exact nomatch h
  rw [if_neg h0] at h
  refine ⟨h0, ?_⟩
  cases he : s.validateErase a side oldQty with
  | ok plan => exact (validateErase_ok hI he).1
  | error e =>
    simp only [he] at h
    split at h
    · split_ifs at h
      exact absurd h (validateErase_error_ne hI he)
    · exact nomatch h

theorem canAdd_iff_of_onlyAt (qty : UInt32) (hf : OnlyAt s s' a l side) (hv : side ≠ .invalid)
    (hne : ¬ (a.pageHandle = b.pageHandle ∧ a.levelIndex = b.levelIndex)) :
    CanAdd s' b side qty ↔ CanAdd s b side qty := by
  refine ⟨fun h => ?_, fun h => h.of_onlyAt hf hne⟩
  have hlevel : s'.levelUnchecked b side = s.levelUnchecked b side :=
    hf.levelAt b.pageHandle side b.levelIndex.toNat hv
      fun hx => hne ⟨hx.1.symm, UInt16.toNat_inj.1 hx.2.2.symm⟩
  exact ⟨h.side_ne, hf.committed.1 h.committed, h.qty_ne, hlevel ▸ h.count, hlevel ▸ h.total⟩

theorem count_pred_succ {n : UInt32} : n - 1 + 1 = n := UInt32.sub_add_cancel n 1

theorem count_pred_ne_max {n : UInt32} (h : n ≠ 0) : (n - 1).toNat ≠ 2 ^ 32 - 1 := by
  intro hx
  apply h
  rw [← count_pred_succ (n := n), ← UInt32.toNat_inj, UInt32.toNat_add, hx]
  rfl

/-- Removing an order from a level and adding one there writes the level's quantity only. -/
theorem addValidated_eraseValidated (hI : s.StoreInv) {oldQty newQty : UInt32}
    {plan : DeactivationPlan} (hplan : s.validateErase a side oldQty = .ok plan)
    (hadd : CanAdd (s.eraseValidated a side oldQty plan) a side newQty) :
    (s.eraseValidated a side oldQty plan).addValidated a side newQty
      = s.setLevel a side { s.levelUnchecked a side with
        totalQty := (s.levelUnchecked a side).totalQty - oldQty.toUInt64 + newQty.toUInt64 } := by
  obtain ⟨hcan, hsound⟩ := validateErase_ok hI hplan
  have hv := hcan.side_ne
  have hI' := hI.erasePlanned hplan
  have hI'' := hI'.addValidated hv hadd.committed hadd.qty_ne hadd.count hadd.total
  have hf := eraseValidated_onlyAt (s := s) (a := a) oldQty plan hv
  have howner : (s.eraseValidated a side oldQty plan).ownerOf a = s.ownerOf a := by
    unfold ownerOf
    rw [hf.pageOwners]
  have hw := (eraseValidated_rewrites hI hv hcan.count hsound).trans hv
    (howner ▸ addValidated_rewrites hI' hv newQty)
  have hlevel := levelUnchecked_addValidated (s := s.eraseValidated a side oldQty plan) (a := a)
    newQty hv
  rw [levelUnchecked_eraseValidated oldQty plan hv] at hlevel
  simp only [count_pred_succ] at hlevel
  have h0 : (((s.eraseValidated a side oldQty plan).addValidated a side newQty).levelUnchecked a
      side).orderCount ≠ 0 := by
    rw [hlevel]
    exact hcan.count
  rw [hI.eq_setLevel hI'' hv hcan.committed hw hcan.count h0, hlevel]

/-- Moving an order between two levels of one book is applied exactly when removing it and then
adding it at the new level both are, and then leaves the store that the two leave; otherwise it
leaves the store as it was. -/
theorem move_eq_erase_add (hI : s.StoreInv) (a b : PriceAddress) (oldQty newQty : UInt32)
    (side : OrderSide) (ha : s.Committed a.pageHandle) (hb : s.Committed b.pageHandle)
    (hsame : (s.ownerOf a).stockLocate = (s.ownerOf b).stockLocate) :
    let removed := s.erase a side oldQty
    let added := removed.2.add b side newQty
    let moved := s.move a oldQty b newQty side
    (moved.1 = .applied ↔ removed.1 = .applied ∧ added.1 = .applied)
      ∧ (moved.1 = .applied → moved.2 = added.2)
      ∧ (moved.1 ≠ .applied → moved.2 = s) := by
  intro removed added moved
  rw [← and_assoc]
  refine ⟨?_, move_keeps oldQty newQty⟩
  by_cases hcan : newQty ≠ 0 ∧ CanErase s a side oldQty
  · obtain ⟨h0, hcan⟩ := hcan
    obtain ⟨plan, hplan, hmoved⟩ := move_of_canErase hI hcan hb hsame h0
    have hremoved : removed = (.applied, s.eraseValidated a side oldQty plan) := by
      simp only [removed, erase, hplan]
    have hI' := hI.erasePlanned hplan
    have hf := eraseValidated_onlyAt (s := s) (a := a) oldQty plan hcan.side_ne
    have hadded : added = (s.eraseValidated a side oldQty plan).add b side newQty := by
      simp only [added, hremoved]
    have hiff := add_applied_iff hI' b side newQty
    rw [show moved = _ from hmoved, hadded, hremoved, hiff, and_iff_right rfl]
    by_cases hab : a.pageHandle = b.pageHandle ∧ a.levelIndex = b.levelIndex
    · -- within one level: what is added back is all that the move checks
      obtain rfl : a = b := by
        cases a
        cases b
        simpa using hab
      have hlevel := levelUnchecked_eraseValidated (s := s) (a := a) oldQty plan hcan.side_ne
      rw [if_pos hab]
      dsimp only
      split_ifs with hq
      · refine ⟨iff_of_false nofun fun h => ?_, nofun⟩
        have := h.total
        rw [hlevel] at this
        dsimp only at this
        omega
      · have hadd : CanAdd (s.eraseValidated a side oldQty plan) a side newQty := by
          refine ⟨hcan.side_ne, hf.committed.2 ha, h0, ?_, ?_⟩
          · rw [hlevel]
            exact count_pred_ne_max hcan.count
          · rw [hlevel]
            have := newQty.toNat_lt
            dsimp only
            omega
        refine ⟨iff_of_true rfl hadd, fun _ => ?_⟩
        rw [add_of_canAdd hI' hadd]
        exact (addValidated_eraseValidated hI hplan hadd).symm
    · -- between two levels: the removal leaves the new level's checks as they were
      have hcanAdd := canAdd_iff_of_onlyAt newQty hf hcan.side_ne hab
      rw [if_neg hab, hcanAdd, ← validateAdd_applied_iff hI]
      split_ifs with hadd
      · exact ⟨Iff.rfl, fun h => absurd h hadd⟩
      · refine ⟨iff_of_true rfl (not_ne_iff.1 hadd), fun _ => ?_⟩
        rw [add_of_canAdd hI' (hcanAdd.2 ((validateAdd_applied_iff hI).1 (not_ne_iff.1 hadd)))]
  · have hmoved : moved.1 ≠ .applied := fun h => hcan (canErase_of_move hI h)
    refine ⟨iff_of_false hmoved ?_, fun h => absurd h hmoved⟩
    rintro ⟨hr, ha⟩
    have hI' : removed.2.StoreInv := hI.erase a side oldQty
    exact hcan ⟨((add_applied_iff hI' _ _ _).1 ha).qty_ne, (erase_applied_iff hI).1 hr⟩

/-- The only order of a book moves to another page of it. -/
theorem move_eq_erase_add_last :
    let s := (fresh ⟨2⟩).run [.prepareBook 1,
      .commitReservation ⟨.applied, ⟨1, 7⟩, 1, 0, 0, true⟩,
      .commitReservation ⟨.applied, ⟨2, 9⟩, 1, 3, 1, true⟩, .add ⟨1, 7⟩ .sell 10]
    (s.move ⟨1, 7⟩ 10 ⟨2, 9⟩ 4 .sell).1 = .applied
      ∧ (s.move ⟨1, 7⟩ 10 ⟨2, 9⟩ 4 .sell).2 = ((s.erase ⟨1, 7⟩ .sell 10).2.add ⟨2, 9⟩ .sell 4).2 := by
  intro s
  have happlied : (s.move ⟨1, 7⟩ 10 ⟨2, 9⟩ 4 .sell).1 = .applied := by decide +kernel
  exact ⟨happlied, (move_eq_erase_add (storeInv_of_run ⟨2⟩ _) ⟨1, 7⟩ ⟨2, 9⟩ 10 4 .sell
    ⟨by decide, by decide +kernel⟩ ⟨by decide, by decide +kernel⟩ (by decide +kernel)).2.1 happlied⟩

end PriceLevelStore

end AstraFeed
