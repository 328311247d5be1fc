import Mathlib.Data.Nat.Bitwise
import Mathlib.Tactic.Ring
import AstraFeed.Lib.BigEndian
import AstraFeed.Proofs.BookModel
import AstraFeed.TraceAgreement

/-!
# A profile without faults

A function of the profiler that leaves no fault took the way without one, from stats without a
fault. Each lemma here reads that way backwards: what the arguments were like, and what became of
the maps.
-/

namespace AstraFeed

namespace ItchTraceProfile

open Function Wire ItchParser

/-! ## Keys -/

section Keys

variable {l l' : UInt16} {side side' : UInt8} {x x' : UInt32}

theorem toNat_sideBit_lt (side : UInt8) : (sideBit side).toNat < 2 := by
  unfold sideBit
  split_ifs <;> decide

theorem toNat_levelKey (l : UInt16) (side : UInt8) (x : UInt32) : (levelKey l side x).toNat
    = 2 ^ 33 * l.toNat + (2 ^ 32 * (sideBit side).toNat + x.toNat) := by
  have hl := l.toNat_lt
  have hside := toNat_sideBit_lt side
  have hx := x.toNat_lt
  unfold levelKey
  rw [UInt64.toNat_or, UInt64.toNat_or, UInt64.toNat_shiftLeft, UInt64.toNat_shiftLeft,
    UInt16.toNat_toUInt64, UInt32.toNat_toUInt64]
  rw [show (33 : UInt64).toNat % 64 = 33 from rfl, show (32 : UInt64).toNat % 64 = 32 from rfl,
    Nat.mod_eq_of_lt (by rw [Nat.shiftLeft_eq]; omega),
    Nat.mod_eq_of_lt (by rw [Nat.shiftLeft_eq]; omega), Nat.or_assoc,
    BigEndian.shiftLeft_or_of_lt _ hx, BigEndian.shiftLeft_or_of_lt _ (by omega)]

theorem sideBit_inj (h : IsSide side) (h' : IsSide side') :
    sideBit side = sideBit side' ↔ side = side' := by
  rcases h with rfl | rfl <;> rcases h' with rfl | rfl <;> decide

theorem levelKey_eq (h : levelKey l side x = levelKey l' side' x') :
    l = l' ∧ sideBit side = sideBit side' ∧ x = x' := by
  have hkey := congrArg UInt64.toNat h
  rw [toNat_levelKey, toNat_levelKey] at hkey
  have hside := toNat_sideBit_lt side
  have hside' := toNat_sideBit_lt side'
  have hx := x.toNat_lt
  have hx' := x'.toNat_lt
  refine ⟨UInt16.toNat_inj.1 ?_, UInt64.toNat_inj.1 ?_, UInt32.toNat_inj.1 ?_⟩ <;> omega

theorem decodeSide_inj (h : IsSide side) (h' : IsSide side') :
    OrderBook.decodeSide side = OrderBook.decodeSide side' ↔ side = side' := by
  rcases h with rfl | rfl <;> rcases h' with rfl | rfl <;> decide

theorem decodeSide_ne_invalid : OrderBook.decodeSide side ≠ .invalid ↔ IsSide side := by
  unfold OrderBook.decodeSide IsSide
  have hB : byte 'B' = 66 := rfl
  have hS : byte 'S' = 83 := rfl
  rw [hB, hS]
  split_ifs with h1 h2
  · exact iff_of_true (by decide) (.inl h1)
  · exact iff_of_true (by decide) (.inr h2)
  · exact iff_of_false (by decide) (not_or.2 ⟨h1, h2⟩)

end Keys

namespace Stats

variable {s s' : Stats} {l : UInt16} {r r' : UInt64} {x qty : UInt32} {side : UInt8}
  {o : OrderState}

/-! ## Faults -/

theorem not_faultless_bump (s : Stats) (fault : Fault) : ¬ (s.bump fault).Faultless := by
  intro h
  have hone := h fault
  unfold bump at hone
  dsimp only at hone
  rw [update_self] at hone
  omega

theorem countIf_faultless {fault : Fault} {condition : Bool}
    (h : (s.countIf fault condition).Faultless) :
    condition = false ∧ s.countIf fault condition = s := by
  unfold countIf at h ⊢
  cases condition
  · exact ⟨rfl, rfl⟩
  · exact absurd h (not_faultless_bump _ _)

theorem ite_faultless {c : Prop} [Decidable c] {fault : Fault} {t : Stats}
    (h : (if c then s.bump fault else t).Faultless) :
    ¬ c ∧ (if c then s.bump fault else t) = t := by
  split_ifs at h ⊢ with hc
  · exact absurd h (not_faultless_bump _ _)
  · exact ⟨hc, rfl⟩

/-! ## What the books have nothing to do with -/

section Frame

variable {t : Stats}

theorem Grows.trans (h : Grows s s') (h' : Grows s' t) : Grows s t :=
  ⟨fun fault => (h.faults fault).trans (h'.faults fault), h.ever.trans h'.ever,
    UInt64.le_trans h.maxOrderRef h'.maxOrderRef⟩

theorem Grows.faultless (h : Grows s s') (hf : s'.Faultless) : s.Faultless :=
  fun fault => Nat.le_zero.1 ((h.faults fault).trans_eq (hf fault))

theorem Reads.trans (h : Reads s s') (h' : Reads s' t) : Reads s t :=
  ⟨h.toGrows.trans h'.toGrows, h'.malformed.trans h.malformed⟩

theorem Frame.trans (h : Frame s s') (h' : Frame s' t) : Frame s t :=
  ⟨h.toReads.trans h'.toReads, h'.directory.trans h.directory, h'.tickers.trans h.tickers,
    h'.eventsSeen.trans h.eventsSeen, h'.started.trans h.started, h'.ended.trans h.ended⟩

/-- The maps of the orders and the levels. -/
theorem frame_maps (s : Stats) (liveOrders : UnorderedMap UInt64 OrderState)
    (seen : UnorderedMap UInt64 SeenOrderReferencePage)
    (levels : UnorderedMap UInt64 LevelState) (counts : UnorderedMap UInt32 UInt32)
    (activeLevelCount activePageCount : UInt64) : Frame s { s with
      liveOrders := liveOrders
      seenOrderReferencePages := seen
      activeLevels := levels
      activePageLevelCounts := counts
      activeLevelCount := activeLevelCount
      activePageCount := activePageCount } :=
  ⟨⟨⟨fun _ => le_rfl, Finset.Subset.refl _, UInt64.le_refl _⟩, rfl⟩, rfl, rfl, rfl, rfl, rfl⟩

theorem frame_refl (s : Stats) : Frame s s := frame_maps s _ _ _ _ _ _

theorem grows_bump (s : Stats) (fault : Fault) : Grows s (s.bump fault) := by
  refine ⟨fun fault' => ?_, Finset.Subset.refl _, UInt64.le_refl _⟩
  unfold bump
  dsimp only
  rw [update_apply]
  split_ifs with h
  · rw [h]
    exact Nat.le_succ _
  · exact le_rfl

theorem frame_bump (s : Stats) {fault : Fault} (h : fault ≠ .malformedRecords) :
    Frame s (s.bump fault) :=
  ⟨⟨grows_bump s fault, update_of_ne h.symm _ _⟩, rfl, rfl, rfl, rfl, rfl⟩

theorem frame_ite {c : Prop} [Decidable c] {a b : Stats} (ha : Frame s a) (hb : Frame s b) :
    Frame s (if c then a else b) := by
  split_ifs
  · exact ha
  · exact hb

theorem frame_out {c : Prop} [Decidable c] {a b : Bool × Stats} (ha : Frame s a.2)
    (hb : Frame s b.2) : Frame s (if c then a else b).2 := by
  split_ifs
  · exact ha
  · exact hb

theorem frame_checkLocate (s : Stats) (l : UInt16) (o : OrderState) : Frame s (s.checkLocate l o) :=
  frame_ite (frame_bump _ (by decide)) (frame_refl _)

theorem frame_claimDayUniqueOrderRef (s : Stats) (r : UInt64) :
    Frame s (s.claimDayUniqueOrderRef r).2 :=
  frame_out ((frame_maps s _ _ _ _ _ _).trans (frame_bump _ (by decide))) (frame_maps s _ _ _ _ _ _)

theorem frame_addToLevel (s : Stats) (o : OrderState) : Frame s (s.addToLevel o) := by
  have hpage : Frame s (s.addLevelToPage o) := by
    unfold addLevelToPage
    dsimp only
    split
    · exact frame_maps s _ _ _ _ _ _
    · exact ⟨⟨⟨fun _ => le_rfl, Finset.subset_insert _ _, UInt64.le_refl _⟩, rfl⟩, rfl, rfl, rfl, rfl,
        rfl⟩
  have hstats := frame_ite
    (c := s.activeLevels.lookup (levelKey o.locate o.side o.price) = none) hpage (frame_refl s)
  exact hstats.trans (frame_maps _ _ _ _ _ _ _)

theorem frame_removeFromLevel (s : Stats) (o : OrderState) (qty : UInt32) (removeOrder : Bool) :
    Frame s (s.removeFromLevel o qty removeOrder).2 := by
  have hpage : ∀ s : Stats, Frame s (s.removeLevelFromPage o).2 := by
    intro s
    unfold removeLevelFromPage
    dsimp only
    split
    · exact frame_bump _ (by decide)
    · exact frame_out (frame_bump _ (by decide)) (frame_out (frame_maps s _ _ _ _ _ _)
        (frame_maps s _ _ _ _ _ _))
  have hput : ∀ key level, Frame s (s.putLevel key level) :=
    fun _ _ => frame_maps s _ _ _ _ _ _
  unfold removeFromLevel
  dsimp only
  split
  · exact frame_bump _ (by decide)
  · refine frame_out (frame_bump _ (by decide)) (frame_out ?_ (frame_out ?_ (frame_out ?_ ?_)))
    · exact frame_out ((hput _ _).trans (frame_bump _ (by decide))) (hput _ _)
    · exact frame_out ((hput _ _).trans (frame_bump _ (by decide))) (hput _ _)
    · exact (hput _ _).trans (frame_bump _ (by decide))
    · exact (frame_maps s _ _ _ _ _ _).trans (hpage _)

theorem frame_addLiveOrder (s : Stats) (r : UInt64) (o : OrderState) :
    Frame s (s.addLiveOrder r o) := by
  exact frame_ite (frame_bump _ (by decide)) ((frame_maps s _ _ _ _ _ _).trans (frame_addToLevel _ o))

theorem frame_removeLiveOrder (s : Stats) (r : UInt64) (o : OrderState) :
    Frame s (s.removeLiveOrder r o).2 := by
  have hlevel := frame_removeFromLevel s o o.qty true
  exact frame_out hlevel (hlevel.trans (frame_maps _ _ _ _ _ _ _))

theorem frame_reduceLiveOrder (s : Stats) (r : UInt64) (o : OrderState) (qty : UInt32) :
    Frame s (s.reduceLiveOrder r o qty) := by
  have hlevel := frame_removeFromLevel s o qty false
  exact frame_ite hlevel (hlevel.trans (frame_maps _ _ _ _ _ _ _))

theorem frame_profileAdd (s : Stats) (l : UInt16) (r : UInt64) (x qty : UInt32) (side : UInt8) :
    Frame s (s.profileAdd l r x qty side) := by
  have hclaim := frame_claimDayUniqueOrderRef s r
  refine frame_ite hclaim (frame_ite ?_ (frame_ite ?_ ?_))
  · exact hclaim.trans (frame_bump _ (by decide))
  · exact hclaim.trans (frame_bump _ (by decide))
  · exact hclaim.trans (frame_addLiveOrder _ _ _)

theorem frame_profileCancel (s : Stats) (l : UInt16) (r : UInt64) (qty : UInt32) :
    Frame s (s.profileCancel l r qty) := by
  unfold profileCancel
  split
  · exact frame_bump _ (by decide)
  · rename_i o _
    have hcheck := frame_checkLocate s l o
    refine frame_ite (hcheck.trans (frame_bump _ (by decide)))
      (frame_ite (hcheck.trans (frame_bump _ (by decide))) ?_)
    exact hcheck.trans (frame_reduceLiveOrder _ _ _ _)

theorem frame_profileDelete (s : Stats) (l : UInt16) (r : UInt64) :
    Frame s (s.profileDelete l r) := by
  unfold profileDelete
  split
  · exact frame_bump _ (by decide)
  · exact (frame_checkLocate s l _).trans (frame_removeLiveOrder _ _ _)

theorem frame_profileExecution (s : Stats) (l : UInt16) (r : UInt64) (qty : UInt32) :
    Frame s (s.profileExecution l r qty) := by
  unfold profileExecution
  split
  · exact frame_bump _ (by decide)
  · rename_i o _
    have hcheck := frame_checkLocate s l o
    refine frame_ite (hcheck.trans (frame_bump _ (by decide)))
      (frame_ite (hcheck.trans (frame_bump _ (by decide))) (frame_ite ?_ ?_))
    · exact hcheck.trans (frame_removeLiveOrder _ _ _)
    · exact hcheck.trans (frame_reduceLiveOrder _ _ _ _)

theorem frame_profileReplace (s : Stats) (l : UInt16) (r r' : UInt64) (x qty : UInt32) :
    Frame s (s.profileReplace l r r' x qty) := by
  have hclaim := frame_claimDayUniqueOrderRef s r'
  refine frame_ite (frame_bump _ (by decide)) (frame_ite hclaim ?_)
  split
  · exact hclaim.trans (frame_bump _ (by decide))
  · rename_i o _
    have hcheck := hclaim.trans (frame_checkLocate _ l o)
    have hremove := hcheck.trans (frame_removeLiveOrder _ r o)
    refine frame_ite (hcheck.trans (frame_bump _ (by decide)))
      (frame_ite (hcheck.trans (frame_bump _ (by decide))) (frame_ite hremove ?_))
    exact hremove.trans (frame_addLiveOrder _ _ _)

end Frame

/-! ## Seen references -/

theorem toNat_oneShift {i : UInt64} (hi : i.toNat < 64) :
    ((1 : UInt64) <<< i).toNat = 2 ^ i.toNat := by
  rw [UInt64.toNat_shiftLeft, Nat.mod_eq_of_lt hi, show (1 : UInt64).toNat = 1 from rfl,
    Nat.one_shiftLeft]
  exact Nat.mod_eq_of_lt (Nat.pow_lt_pow_right (by decide) hi)

theorem land_oneShift_ne_zero (w : UInt64) {i : UInt64} (hi : i.toNat < 64) :
    w &&& (1 : UInt64) <<< i ≠ 0 ↔ w.toNat.testBit i.toNat = true := by
  rw [ne_eq, ← UInt64.toNat_inj, UInt64.toNat_and, toNat_oneShift hi, Nat.and_two_pow]
  cases w.toNat.testBit i.toNat <;> simp

/-- A word with one more bit set. -/
theorem land_or_oneShift_ne_zero (w : UInt64) {i j : UInt64} (hi : i.toNat < 64)
    (hj : j.toNat < 64) : (w ||| (1 : UInt64) <<< i) &&& (1 : UInt64) <<< j ≠ 0
      ↔ j = i ∨ w &&& (1 : UInt64) <<< j ≠ 0 := by
  rw [land_oneShift_ne_zero _ hj, land_oneShift_ne_zero _ hj, UInt64.toNat_or, toNat_oneShift hi,
    Nat.testBit_or, Nat.testBit_two_pow, Bool.or_eq_true, decide_eq_true_eq, or_comm,
    ← UInt64.toNat_inj, eq_comm]

theorem bitIndex_lt (r : UInt64) : (r.toUInt16 &&& 63).toUInt64.toNat < 64 := by
  rw [UInt16.toNat_toUInt64, UInt16.toNat_and]
  exact Nat.lt_succ_of_le Nat.and_le_right

/-- A reference is known from its page, its word and its bit. -/
theorem ref_eq_iff (r r' : UInt64) : r' = r ↔ r' >>> 16 = r >>> 16
    ∧ (r'.toUInt16 >>> 6).toNat = (r.toUInt16 >>> 6).toNat
    ∧ (r'.toUInt16 &&& 63).toUInt64 = (r.toUInt16 &&& 63).toUInt64 := by
  have hpage : ∀ r : UInt64, (r >>> 16).toNat = r.toNat / 2 ^ 16 := fun r => by
    rw [UInt64.toNat_shiftRight, Nat.shiftRight_eq_div_pow]
    rfl
  have hword : ∀ r : UInt64, (r.toUInt16 >>> 6).toNat = r.toNat % 2 ^ 16 / 2 ^ 6 := fun r => by
    rw [UInt16.toNat_shiftRight, Nat.shiftRight_eq_div_pow, UInt64.toNat_toUInt16]
    rfl
  have hbit : ∀ r : UInt64, (r.toUInt16 &&& 63).toUInt64.toNat = r.toNat % 2 ^ 16 % 2 ^ 6 :=
    fun r => by
      rw [UInt16.toNat_toUInt64, UInt16.toNat_and, UInt64.toNat_toUInt16]
      exact Nat.and_two_pow_sub_one_eq_mod _ 6
  rw [← UInt64.toNat_inj, ← UInt64.toNat_inj, ← UInt64.toNat_inj, hpage, hpage, hword, hword, hbit,
    hbit]
  omega

theorem claimDayUniqueOrderRef_spec (h : (s.claimDayUniqueOrderRef r).2.Faultless) :
    (s.claimDayUniqueOrderRef r).1 = true ∧ s.Faultless ∧ ¬ s.Seen r
      ∧ (∀ r', (s.claimDayUniqueOrderRef r).2.Seen r' ↔ r' = r ∨ s.Seen r')
      ∧ ∃ pages, (s.claimDayUniqueOrderRef r).2 = { s with seenOrderReferencePages := pages } := by
  unfold claimDayUniqueOrderRef at h ⊢
  dsimp only at h ⊢
  split_ifs at h ⊢ with hseen
  · exact absurd h (not_faultless_bump _ _)
  refine ⟨rfl, h, hseen, fun r' => ?_, _, rfl⟩
  unfold Seen
  by_cases hpage : r' >>> 16 = r >>> 16
  · rw [hpage, AList.lookup_insert, Option.getD_some]
    dsimp only
    by_cases hword : (r'.toUInt16 >>> 6).toNat = (r.toUInt16 >>> 6).toNat
    · rw [hword, update_self, land_or_oneShift_ne_zero _ (bitIndex_lt r) (bitIndex_lt r'),
        ref_eq_iff r r']
      simp only [hpage, hword, true_and]
    · rw [update_of_ne hword, ref_eq_iff r r']
      simp only [hword, false_and, and_false, false_or]
  · rw [AList.lookup_insert_ne hpage, ref_eq_iff r r']
    simp only [hpage, false_and, false_or]

/-! ## Levels and pages -/

theorem level_of_lookup {key : UInt64} {level : LevelState}
    (h : s.activeLevels.lookup key = some level) : s.level key = level := by
  rw [Stats.level, h, Option.getD_some]

theorem level_insert (key : UInt64) (level : LevelState) :
    ({ s with activeLevels := s.activeLevels.insert key level } : Stats).level
      = update s.level key level := by
  funext key'
  unfold Stats.level
  by_cases h : key' = key
  · rw [h, AList.lookup_insert, update_self, Option.getD_some]
  · rw [AList.lookup_insert_ne h, update_of_ne h]

theorem level_erase (key : UInt64) :
    ({ s with activeLevels := s.activeLevels.erase key } : Stats).level
      = update s.level key ⟨0, 0⟩ := by
  funext key'
  unfold Stats.level
  by_cases h : key' = key
  · rw [h, AList.lookup_erase, update_self, Option.getD_none]
  · rw [AList.lookup_erase_ne h, update_of_ne h]

/-- What an order adds to its level and to the pages. -/
structure Added (s : Stats) (o : OrderState) (s' : Stats) : Prop where
  live : s'.liveOrders = s.liveOrders
  seen : s'.seenOrderReferencePages = s.seenOrderReferencePages
  level : s'.level = update s.level (levelKey o.locate o.side o.price)
    ⟨(s.level (levelKey o.locate o.side o.price)).totalQty + o.qty.toUInt64,
      (s.level (levelKey o.locate o.side o.price)).orderCount + 1⟩
  ever : s'.everActivePages = insert (pageKey o.locate o.price) s.everActivePages
  pages : s'.PagesOk

theorem PagesOk.addLevelToPage (h : s.PagesOk) (o : OrderState) :
    ∃ levels pages counts, s.addLevelToPage o = { s with
        activeLevelCount := levels
        activePageCount := pages
        activePageLevelCounts := counts
        everActivePages := insert (pageKey o.locate o.price) s.everActivePages }
      ∧ ∀ k ∈ counts, k ∈ insert (pageKey o.locate o.price) s.everActivePages := by
  have hmem : ∀ count : UInt32,
      ∀ k ∈ s.activePageLevelCounts.insert (pageKey o.locate o.price) count,
        k ∈ insert (pageKey o.locate o.price) s.everActivePages := by
    intro count k hk
    rcases (AList.mem_insert _).1 hk with rfl | hk
    · exact Finset.mem_insert_self _ _
    · exact Finset.mem_insert_of_mem (h.page k hk)
  unfold Stats.addLevelToPage
  dsimp only
  split
  · rename_i count hcount
    have hpage : pageKey o.locate o.price ∈ s.everActivePages :=
      h.page _ (AList.lookup_isSome.1 (by rw [hcount]; rfl))
    rw [Finset.insert_eq_of_mem hpage] at hmem ⊢
    exact ⟨_, _, _, rfl, hmem _⟩
  · exact ⟨_, _, _, rfl, hmem _⟩

theorem PagesOk.addToLevel (h : s.PagesOk) (o : OrderState) : Added s o (s.addToLevel o) := by
  have hmem : ∀ levels : UnorderedMap UInt64 LevelState, ∀ state,
      levels = s.activeLevels.insert (levelKey o.locate o.side o.price) state →
      ∀ l side x, levelKey l side x ∈ levels →
        pageKey l x ∈ insert (pageKey o.locate o.price) s.everActivePages := by
    rintro _ state rfl l side x hkey
    rcases (AList.mem_insert _).1 hkey with heq | hkey
    · obtain ⟨rfl, -, rfl⟩ := levelKey_eq heq
      exact Finset.mem_insert_self _ _
    · exact Finset.mem_insert_of_mem (h.level l side x hkey)
  unfold Stats.addToLevel
  dsimp only
  split_ifs with hnone
  · obtain ⟨levels, pages, counts, hadd, hcounts⟩ := h.addLevelToPage o
    rw [hadd]
    exact ⟨rfl, rfl, level_insert _ _, rfl, hmem _ _ rfl, hcounts⟩
  · have hkey : levelKey o.locate o.side o.price ∈ s.activeLevels :=
      AList.lookup_isSome.1 (Option.isSome_iff_ne_none.2 hnone)
    have hever := Finset.insert_eq_of_mem (h.level _ _ _ hkey)
    refine ⟨rfl, rfl, level_insert _ _, hever.symm, fun l side x hl => ?_, h.page⟩
    exact hever ▸ hmem _ _ rfl l side x hl

/-- What a level loses: shares, and an order when `removeOrder` holds. -/
structure Removed (s : Stats) (o : OrderState) (qty : UInt32) (removeOrder : Bool) (s' : Stats) :
    Prop where
  faultless : s.Faultless
  live : s'.liveOrders = s.liveOrders
  seen : s'.seenOrderReferencePages = s.seenOrderReferencePages
  enough : qty.toUInt64 ≤ (s.level (levelKey o.locate o.side o.price)).totalQty
  count_ne : (s.level (levelKey o.locate o.side o.price)).orderCount ≠ 0
  level : s'.level = update s.level (levelKey o.locate o.side o.price)
    ⟨(s.level (levelKey o.locate o.side o.price)).totalQty - qty.toUInt64,
      (s.level (levelKey o.locate o.side o.price)).orderCount - if removeOrder then 1 else 0⟩
  ever : s'.everActivePages = s.everActivePages
  levels : ∀ key ∈ s'.activeLevels, key ∈ s.activeLevels
  counts : ∀ k ∈ s'.activePageLevelCounts, k ∈ s.activePageLevelCounts

theorem removeLevelFromPage_spec (h : (s.removeLevelFromPage o).2.Faultless) :
    (s.removeLevelFromPage o).1 = true ∧ ∃ pages counts, (s.removeLevelFromPage o).2 = { s with
        activePageCount := pages
        activePageLevelCounts := counts }
      ∧ ∀ k ∈ counts, k ∈ s.activePageLevelCounts := by
  unfold removeLevelFromPage at h ⊢
  dsimp only at h ⊢
  split at h
  · exact absurd h (not_faultless_bump _ _)
  rename_i count hcount
  have hpage : pageKey o.locate o.price ∈ s.activePageLevelCounts :=
    AList.lookup_isSome.1 (by rw [hcount]; rfl)
  split_ifs at h ⊢
  · exact absurd h (not_faultless_bump _ _)
  · exact ⟨rfl, _, _, rfl, fun k hk => (AList.mem_erase.1 hk).2⟩
  · refine ⟨rfl, s.activePageCount, _, rfl, fun k hk => ?_⟩
    rcases (AList.mem_insert _).1 hk with rfl | hk
    · exact hpage
    · exact hk

/-- A level that stays. -/
theorem removed_putLevel (removeOrder : Bool) {level : LevelState} (h : s.Faultless)
    (hlevel : s.activeLevels.lookup (levelKey o.locate o.side o.price) = some level)
    (henough : ¬ (level.totalQty < qty.toUInt64 ∨ level.orderCount = 0)) :
    Removed s o qty removeOrder (s.putLevel (levelKey o.locate o.side o.price)
      ⟨level.totalQty - qty.toUInt64, level.orderCount - if removeOrder then 1 else 0⟩) := by
  have hkey : levelKey o.locate o.side o.price ∈ s.activeLevels :=
    AList.lookup_isSome.1 (by rw [hlevel]; rfl)
  have hstate := level_of_lookup hlevel
  rw [not_or, UInt64.not_lt] at henough
  refine ⟨h, rfl, rfl, ?_, ?_, ?_, rfl, fun key hmem => ?_, fun _ => id⟩
  · rw [hstate]
    exact henough.1
  · rw [hstate]
    exact henough.2
  · rw [hstate]
    exact level_insert _ _
  · rcases (AList.mem_insert _).1 hmem with rfl | hmem
    · exact hkey
    · exact hmem

theorem removeFromLevel_spec {removeOrder : Bool}
    (h : (s.removeFromLevel o qty removeOrder).2.Faultless) :
    (s.removeFromLevel o qty removeOrder).1 = true
      ∧ Removed s o qty removeOrder (s.removeFromLevel o qty removeOrder).2 := by
  unfold removeFromLevel at h ⊢
  dsimp only at h ⊢
  split at h
  · exact absurd h (not_faultless_bump _ _)
  rename_i level hlevel
  split_ifs at h ⊢ with hshort hkeep hempty hcount hempty hrest
  · exact absurd h (not_faultless_bump _ _)
  · exact absurd h (not_faultless_bump _ _)
  · obtain rfl : removeOrder = false := by simpa using hkeep
    have hput := removed_putLevel false (show s.Faultless from h) hlevel hshort
    rw [show level.orderCount - (if false = true then 1 else 0) = level.orderCount from
      UInt32.sub_zero _] at hput
    exact ⟨rfl, hput⟩
  · exact absurd h (not_faultless_bump _ _)
  · obtain rfl : removeOrder = true := by simpa using hkeep
    exact ⟨rfl, removed_putLevel true (show s.Faultless from h) hlevel hshort⟩
  · exact absurd h (not_faultless_bump _ _)
  · obtain rfl : removeOrder = true := by simpa using hkeep
    obtain ⟨hok, pages, counts, hout, hcounts⟩ := removeLevelFromPage_spec h
    rw [hout] at h ⊢
    have hput := removed_putLevel true (show s.Faultless from h) hlevel hshort
    rw [not_not] at hcount hrest
    refine ⟨hok, hput.faultless, rfl, rfl, hput.enough, hput.count_ne, ?_, rfl, fun key hmem => ?_,
      hcounts⟩
    · -- an empty level is as good as none
      rw [if_pos rfl] at hput
      refine (level_erase (levelKey o.locate o.side o.price)).trans ?_
      rw [hput.level, update_idem, level_of_lookup hlevel, if_pos rfl, hcount, hrest]
    · exact hput.levels key (AList.mem_erase.1 hmem).2

/-! ## Live orders -/

theorem model_atLevel (o : OrderState) :
    o.model.AtLevel o.locate (OrderBook.decodeSide o.side) o.price.toNat :=
  ⟨rfl, rfl, UInt32.toNat_toUInt64 _⟩

theorem ordersAt_eq (s : Stats) (l : UInt16) (side : OrderSide) (x : ℕ) :
    s.ordersAt l side x = PointUpdate.total (BookModel.countAt l side x) s.live :=
  (AssocTotal.total_lookup s.liveOrders
    (f := fun v => BookModel.countAt l side x (v.map OrderState.model))
    (p := fun o => o.model.AtLevel l side x) rfl fun _ => rfl).symm

theorem live_of_lookup (h : s.liveOrders.lookup r = some o) : s.live r = some o.model := by
  rw [live, h, Option.map_some]

theorem live_insert (s : Stats) (r : UInt64) (o : OrderState) :
    ({ s with liveOrders := s.liveOrders.insert r o } : Stats).live
      = update s.live r (some o.model) := by
  funext r'
  unfold Stats.live
  by_cases h : r' = r
  · rw [h, AList.lookup_insert, update_self, Option.map_some]
  · rw [AList.lookup_insert_ne h, update_of_ne h]

theorem live_erase (s : Stats) (r : UInt64) :
    ({ s with liveOrders := s.liveOrders.erase r } : Stats).live = update s.live r none := by
  funext r'
  unfold Stats.live
  by_cases h : r' = r
  · rw [h, AList.lookup_erase, update_self, Option.map_none]
  · rw [AList.lookup_erase_ne h, update_of_ne h]

/-- One level changes as one order does. -/
theorem LevelsFor.update {f : UInt64 → LevelState} {live : UInt64 → Option ModelOrder}
    (h : LevelsFor f live) (ho : IsSide o.side) {v : Option ModelOrder} {level : LevelState}
    (hold : ∀ m ∈ live r, m.AtLevel o.locate (OrderBook.decodeSide o.side) o.price.toNat)
    (hnew : ∀ m ∈ v, m.AtLevel o.locate (OrderBook.decodeSide o.side) o.price.toNat)
    (hcount : level.orderCount.toNat
        + BookModel.countAt o.locate (OrderBook.decodeSide o.side) o.price.toNat (live r)
      = (f (levelKey o.locate o.side o.price)).orderCount.toNat
        + BookModel.countAt o.locate (OrderBook.decodeSide o.side) o.price.toNat v)
    (hqty : level.totalQty.toNat
        + BookModel.qtyAt o.locate (OrderBook.decodeSide o.side) o.price.toNat (live r)
      = (f (levelKey o.locate o.side o.price)).totalQty.toNat
        + BookModel.qtyAt o.locate (OrderBook.decodeSide o.side) o.price.toNat v) :
    LevelsFor (update f (levelKey o.locate o.side o.price) level) (update live r v) := by
  intro l side x hside
  by_cases hkey : levelKey l side x = levelKey o.locate o.side o.price
  · obtain ⟨rfl, hbit, rfl⟩ := levelKey_eq hkey
    obtain rfl := (sideBit_inj hside ho).1 hbit
    obtain ⟨h1, h2⟩ := h o.locate o.side o.price ho
    have hc := PointUpdate.total_update
      (BookModel.countAt o.locate (OrderBook.decodeSide o.side) o.price.toNat) live r v
    have hq := PointUpdate.total_update
      (BookModel.qtyAt o.locate (OrderBook.decodeSide o.side) o.price.toNat) live r v
    rw [update_self]
    omega
  · have hne : ¬ (l = o.locate ∧ OrderBook.decodeSide side = OrderBook.decodeSide o.side
        ∧ x.toNat = o.price.toNat) := by
      rintro ⟨rfl, hs, hx⟩
      obtain rfl := (decodeSide_inj hside ho).1 hs
      obtain rfl := UInt32.toNat_inj.1 hx
      exact hkey rfl
    obtain ⟨ho1, ho2⟩ := countAt_of_other hold hne
    obtain ⟨hn1, hn2⟩ := countAt_of_other hnew hne
    rw [update_of_ne hkey, PointUpdate.total_update_of_eq (hn1.trans ho1.symm),
      PointUpdate.total_update_of_eq (hn2.trans ho2.symm)]
    exact h l side x hside

/-- What a new order does to the maps. -/
structure Adds (s : Stats) (r : UInt64) (o : OrderState) (s' : Stats) : Prop where
  faultless : s.Faultless
  fresh : s.liveOrders.lookup r = none
  live : s'.live = Function.update s.live r (some o.model)
  seen : s'.seenOrderReferencePages = s.seenOrderReferencePages
  ever : s'.everActivePages = insert (pageKey o.locate o.price) s.everActivePages
  ok : s'.Ok

theorem Ok.addLiveOrder (h : s.Ok) (hside : IsSide o.side) (hf : (s.addLiveOrder r o).Faultless)
    (hb : (s.addLiveOrder r o).Bounded) : Adds s r o (s.addLiveOrder r o) := by
  have hs := (frame_addLiveOrder s r o).faultless hf
  unfold Stats.addLiveOrder at hf hb ⊢
  split_ifs at hf hb ⊢ with hlive
  · exact absurd hf (not_faultless_bump _ _)
  have hnone : s.liveOrders.lookup r = none := not_not.1 hlive
  have hpages : ({ s with liveOrders := s.liveOrders.insert r o } : Stats).PagesOk :=
    ⟨h.pages.level, h.pages.page⟩
  have hadd := hpages.addToLevel o
  generalize ({ s with liveOrders := s.liveOrders.insert r o } : Stats).addToLevel o = t
    at hadd hf hb ⊢
  have ht : t.live = Function.update s.live r (some o.model) := by
    rw [← live_insert]
    unfold Stats.live
    rw [hadd.live]
  refine ⟨hs, hnone, ht, hadd.seen, hadd.ever, fun r' o' ho' => ?_, ?_, hadd.pages⟩
  · rw [hadd.live] at ho'
    by_cases hr : r' = r
    · rw [hr, AList.lookup_insert] at ho'
      exact Option.some.inj ho' ▸ hside
    · rw [AList.lookup_insert_ne hr] at ho'
      exact h.side r' o' ho'
  · -- the counts do not wrap, as the level has few enough orders with the new one
    have hlive' : s.live r = none := by rw [Stats.live, hnone, Option.map_none]
    obtain ⟨hcount, hqty⟩ := countAt_of_atLevel (model_atLevel o)
    obtain ⟨h1, h2⟩ := h.levels o.locate o.side o.price hside
    have hfew := hb o.locate (OrderBook.decodeSide o.side) o.price.toNat
    rw [ordersAt_eq, ht] at hfew
    have htotal := total_qtyAt_le o.locate (OrderBook.decodeSide o.side) o.price.toNat
      (Function.update s.live r (some o.model))
    have hc := PointUpdate.total_update
      (BookModel.countAt o.locate (OrderBook.decodeSide o.side) o.price.toNat) s.live r
      (some o.model)
    have hq := PointUpdate.total_update
      (BookModel.qtyAt o.locate (OrderBook.decodeSide o.side) o.price.toNat) s.live r
      (some o.model)
    rw [hlive', hcount] at hc
    rw [hlive', hqty] at hq
    have hc0 : BookModel.countAt o.locate (OrderBook.decodeSide o.side) o.price.toNat none = 0 := rfl
    have hq0 : BookModel.qtyAt o.locate (OrderBook.decodeSide o.side) o.price.toNat none = 0 := rfl
    rw [ht, hadd.level]
    refine h.levels.update hside ?_ ?_ ?_ ?_
    · rw [hlive']
      rintro m ⟨⟩
    · rintro m ⟨⟩
      exact model_atLevel o
    · rw [hlive', hcount, hc0, UInt32.toNat_add, show (1 : UInt32).toNat = 1 from rfl]
      refine congrArg (· + 0) (Nat.mod_eq_of_lt (?_ : _ + 1 < 2 ^ 32))
      show (s.level (levelKey o.locate o.side o.price)).orderCount.toNat + 1 < 2 ^ 32
      omega
    · rw [hlive', hqty, hq0, UInt64.toNat_add, UInt32.toNat_toUInt64]
      refine congrArg (· + 0) (Nat.mod_eq_of_lt ?_)
      show (s.level (levelKey o.locate o.side o.price)).totalQty.toNat + o.model.qty.toNat < 2 ^ 64
      have hmul : (2 ^ 32 - 1) * PointUpdate.total
          (BookModel.countAt o.locate (OrderBook.decodeSide o.side) o.price.toNat)
          (Function.update s.live r (some o.model)) ≤ (2 ^ 32 - 1) * (2 ^ 32 - 2) :=
        Nat.mul_le_mul_left _ hfew
      omega

/-- What a loss of shares does to the maps. -/
structure Reduces (s : Stats) (r : UInt64) (o : OrderState) (qty : UInt32) (s' : Stats) :
    Prop where
  faultless : s.Faultless
  live : s'.live = Function.update s.live r (BookModel.reduced o.model qty)
  seen : s'.seenOrderReferencePages = s.seenOrderReferencePages
  ever : s'.everActivePages = s.everActivePages
  ok : s'.Ok

/-- A level that loses what an order of it loses. -/
theorem Ok.levels_removed (h : s.Ok) (hlive : s.liveOrders.lookup r = some o)
    {removeOrder : Bool} {t : Stats} (hr : Removed s o qty removeOrder t) (hle : qty ≤ o.qty)
    (hiff : removeOrder = true ↔ qty = o.qty) :
    LevelsFor t.level (Function.update s.live r (BookModel.reduced o.model qty)) := by
  have hside := h.side r o hlive
  obtain ⟨hcount, hqty⟩ := countAt_of_atLevel (model_atLevel o)
  have henough := UInt64.le_iff_toNat_le.1 hr.enough
  rw [UInt32.toNat_toUInt64] at henough
  have hcount_ne := PriceLevelStore.qty_ne_zero.1 hr.count_ne
  have htotal : ((s.level (levelKey o.locate o.side o.price)).totalQty - qty.toUInt64).toNat
      = (s.level (levelKey o.locate o.side o.price)).totalQty.toNat - qty.toNat := by
    rw [UInt64.toNat_sub_of_le _ _ hr.enough, UInt32.toNat_toUInt64]
  have hqty' : o.model.qty = o.qty := rfl
  have hle' := UInt32.le_iff_toNat_le.1 hle
  have hold : ∀ m ∈ s.live r,
      m.AtLevel o.locate (OrderBook.decodeSide o.side) o.price.toNat := by
    rw [live_of_lookup hlive]
    rintro m ⟨⟩
    exact model_atLevel o
  rw [hr.level]
  unfold BookModel.reduced
  split_ifs with hremove heq heq
  · have hone : (1 : UInt32) ≤ (s.level (levelKey o.locate o.side o.price)).orderCount :=
      UInt32.le_iff_toNat_le.2 hcount_ne
    refine h.levels.update hside hold (by rintro m ⟨⟩) ?_ ?_
    · rw [live_of_lookup hlive, hcount, UInt32.toNat_sub_of_le _ _ hone]
      exact Nat.sub_add_cancel hcount_ne
    · rw [live_of_lookup hlive, hqty, htotal, ← heq]
      exact Nat.sub_add_cancel henough
  · exact absurd (hiff.1 hremove) heq
  · exact absurd (hiff.2 heq) hremove
  · refine h.levels.update hside hold (by rintro m ⟨⟩; exact model_atLevel o) ?_ ?_
    · rw [live_of_lookup hlive, UInt32.sub_zero, hcount]
      exact congrArg _ (countAt_of_atLevel (model_atLevel o)).1.symm
    · have hnew : BookModel.qtyAt o.locate (OrderBook.decodeSide o.side) o.price.toNat
          (some { o.model with qty := o.model.qty - qty }) = o.qty.toNat - qty.toNat := by
        rw [← UInt32.toNat_sub_of_le _ _ hle]
        exact if_pos (model_atLevel o)
      rw [live_of_lookup hlive, hqty, htotal, hnew, hqty']
      omega

theorem Removed.pages {removeOrder : Bool} {t : Stats} (hr : Removed s o qty removeOrder t)
    (h : s.PagesOk) : t.PagesOk := by
  refine ⟨fun l side x hkey => ?_, fun k hk => ?_⟩
  · rw [hr.ever]
    exact h.level l side x (hr.levels _ hkey)
  · rw [hr.ever]
    exact h.page k (hr.counts k hk)

theorem Ok.removeLiveOrder (h : s.Ok) (hlive : s.liveOrders.lookup r = some o)
    (hf : (s.removeLiveOrder r o).2.Faultless) :
    (s.removeLiveOrder r o).1 = true ∧ Reduces s r o o.qty (s.removeLiveOrder r o).2 := by
  unfold Stats.removeLiveOrder at hf ⊢
  dsimp only at hf ⊢
  have hspec : (s.removeFromLevel o o.qty true).2.Faultless := by
    split_ifs at hf with hok
    · exact hf
    · exact hf
  obtain ⟨hok, hr⟩ := removeFromLevel_spec hspec
  have hlevels := h.levels_removed hlive hr (UInt32.le_refl _) (iff_of_true rfl rfl)
  generalize s.removeFromLevel o o.qty true = out at hok hr hlevels
  have hlive' : ({ out.2 with liveOrders := out.2.liveOrders.erase r } : Stats).live
      = Function.update s.live r (BookModel.reduced o.model o.qty) := by
    rw [hr.live]
    exact (live_erase s r).trans (congrArg _ (if_pos rfl).symm)
  rw [if_neg (by rw [hok]; decide)]
  refine ⟨rfl, hr.faultless, hlive', hr.seen, hr.ever, fun r' o' ho' => ?_, ?_,
    (hr.pages h.pages).level, (hr.pages h.pages).page⟩
  · dsimp only at ho'
    rw [hr.live] at ho'
    by_cases hr' : r' = r
    · rw [hr', AList.lookup_erase] at ho'
      cases ho'
    · rw [AList.lookup_erase_ne hr'] at ho'
      exact h.side r' o' ho'
  · rw [hlive']
    exact hlevels

theorem Ok.reduceLiveOrder (h : s.Ok) (hlive : s.liveOrders.lookup r = some o) (hlt : qty < o.qty)
    (hf : (s.reduceLiveOrder r o qty).Faultless) :
    Reduces s r o qty (s.reduceLiveOrder r o qty) := by
  have hne : qty ≠ o.qty := UInt32.ne_of_lt hlt
  unfold Stats.reduceLiveOrder at hf ⊢
  dsimp only at hf ⊢
  have hspec : (s.removeFromLevel o qty false).2.Faultless := by
    split_ifs at hf with hok
    · exact hf
    · exact hf
  obtain ⟨hok, hr⟩ := removeFromLevel_spec hspec
  have hlevels := h.levels_removed hlive hr (UInt32.le_of_lt hlt) (iff_of_false (by decide) hne)
  generalize s.removeFromLevel o qty false = out at hok hr hlevels
  have hlive' : ({ out.2 with
      liveOrders := out.2.liveOrders.insert r { o with qty := o.qty - qty } } : Stats).live
      = Function.update s.live r (BookModel.reduced o.model qty) := by
    rw [hr.live]
    exact (live_insert s r _).trans (congrArg _ (if_neg hne).symm)
  rw [if_neg (by rw [hok]; decide)]
  refine ⟨hr.faultless, hlive', hr.seen, hr.ever, fun r' o' ho' => ?_, ?_,
    (hr.pages h.pages).level, (hr.pages h.pages).page⟩
  · dsimp only at ho'
    rw [hr.live] at ho'
    by_cases hr' : r' = r
    · rw [hr', AList.lookup_insert] at ho'
      obtain rfl := Option.some.inj ho'
      exact h.side r o hlive
    · rw [AList.lookup_insert_ne hr'] at ho'
      exact h.side r' o' ho'
  · rw [hlive']
    exact hlevels

/-! ## Operations -/

section Operations

variable {times : UInt64} {r' : UInt64}

theorem pairKey_eq (l : UInt16) (x : UInt32) :
    pairKey (l, x.toUInt64.toNat / kPricePartCount) = pageKey l x := by
  have hpage : (x.toUInt64.toNat / kPricePartCount).toUInt32 = x >>> 16 := by
    refine UInt32.toNat_inj.1 ?_
    have hx := x.toNat_lt
    rw [UInt32.toNat_toUInt64, UInt32.toNat_shiftRight, Nat.shiftRight_eq_div_pow, Nat.toUInt32,
      UInt32.toNat_ofNat_of_lt' (by unfold kPricePartCount; show _ < 2 ^ 32; omega)]
    rfl
  rw [pairKey, hpage]
  rfl

theorem Ok.bump (h : s.Ok) (fault : Fault) : (s.bump fault).Ok :=
  ⟨h.side, h.levels, h.pages.level, h.pages.page⟩

theorem Ok.checkLocate (h : s.Ok) (l : UInt16) (o : OrderState) : (s.checkLocate l o).Ok := by
  unfold Stats.checkLocate countIf
  split_ifs
  · exact h.bump _
  · exact h

theorem Ok.claimDayUniqueOrderRef (h : s.Ok) (r : UInt64) : (s.claimDayUniqueOrderRef r).2.Ok := by
  unfold Stats.claimDayUniqueOrderRef
  dsimp only
  split_ifs <;> exact ⟨h.side, h.levels, h.pages.level, h.pages.page⟩

theorem seen_of_pages (h : s'.seenOrderReferencePages = s.seenOrderReferencePages) (r : UInt64) :
    s'.Seen r ↔ s.Seen r := by
  unfold Seen
  rw [h]

/-- A price in range has its page. -/
theorem ever_of_insert (hx : isValidItchPrice4 x.toUInt64 = true)
    (h : s'.everActivePages = insert (pageKey l x) s.everActivePages) {pair : Option (UInt16 × ℕ)}
    (hpair : pair = if isValidItchPrice4 x.toUInt64 then
      some (l, x.toUInt64.toNat / kPricePartCount) else none) :
    s'.everActivePages = s.everActivePages ∪ (pair.map pairKey).toFinset := by
  rw [hpair, if_pos hx, Option.map_some, pairKey_eq, h, Finset.insert_eq, Finset.union_comm]
  rfl

theorem lt_of_ne_zero (h : ¬ qty = 0) : 0 < qty := by
  rw [UInt32.lt_iff_toNat_lt]
  exact PriceLevelStore.qty_ne_zero.1 h

theorem applies_profileAdd (h : s.Ok) (hx : isValidItchPrice4 x.toUInt64 = true) (times : UInt64)
    (hf : (s.profileAdd l r x qty side).Faultless) (hb : (s.profileAdd l r x qty side).Bounded) :
    Applies s (.addOrder l r x.toUInt64 qty side times) (s.profileAdd l r x qty side) := by
  have hclaimed := h.claimDayUniqueOrderRef r
  have hspec := claimDayUniqueOrderRef_spec (s := s) (r := r)
  unfold profileAdd at hf hb ⊢
  dsimp only at hf hb ⊢
  generalize s.claimDayUniqueOrderRef r = out at hclaimed hspec hf hb ⊢
  by_cases hc : (!out.1) = true
  · rw [if_pos hc] at hf
    rw [(hspec hf).1] at hc
    cases hc
  rw [if_neg hc] at hf hb ⊢
  obtain ⟨hqty, heq⟩ := ite_faultless hf
  rw [heq] at hf hb ⊢
  obtain ⟨hside, heq⟩ := ite_faultless hf
  rw [heq] at hf hb ⊢
  have hside : IsSide side := by
    unfold IsSide
    by_contra hno
    rw [not_or] at hno
    exact hside hno
  have hadd := hclaimed.addLiveOrder (o := ⟨x, qty, l, side⟩) hside hf hb
  obtain ⟨-, hfaultless, hseen, hused, pages, hpages⟩ := hspec hadd.faultless
  have hlive : out.2.live = s.live := by rw [hpages]; rfl
  have hever : out.2.everActivePages = s.everActivePages := by rw [hpages]
  refine ⟨hfaultless, fun prepared lastTimestamp hl => ?_, fun _ _ => ?_, fun _ _ => ?_, ?_,
    hadd.ok⟩
  · exact ⟨hl, decodeSide_ne_invalid.2 hside, lt_of_ne_zero hqty, hx, hseen⟩
  · rw [hadd.live, hlive]
    rfl
  · ext r'
    show r' ∈ insert r {r | s.Seen r} ↔ _
    rw [Set.mem_ofPred_eq, seen_of_pages hadd.seen, hused]
    rfl
  · refine ever_of_insert hx ?_ rfl
    rw [hadd.ever, hever]

theorem checkLocate_liveOrders (s : Stats) (l : UInt16) (o : OrderState) :
    (s.checkLocate l o).liveOrders = s.liveOrders := by
  unfold checkLocate countIf
  split_ifs <;> rfl

theorem checkLocate_faultless (h : (s.checkLocate l o).Faultless) :
    o.locate = l ∧ s.checkLocate l o = s := by
  obtain ⟨hl, heq⟩ := countIf_faultless h
  exact ⟨(not_not.1 (of_decide_eq_false hl)).symm, heq⟩

/-- A loss of shares is what the operation does to the live orders. -/
theorem Reduces.applies (hr : Reduces s r o qty s') {op : BookOp}
    (hadm : ∀ prepared times, op.stockLocate ∈ prepared → (s.model prepared times).Admits op)
    (hlive : ∀ prepared times, ((s.model prepared times).apply op).live
      = Function.update s.live r (BookModel.reduced o.model qty))
    (hused : ∀ prepared times, ((s.model prepared times).apply op).used = {r | s.Seen r})
    (hpair : op.pagePair = none) : Applies s op s' := by
  refine ⟨hr.faultless, hadm, fun p t => ?_, fun p t => ?_, ?_, hr.ok⟩
  · rw [hlive, hr.live]
  · rw [hused]
    exact Set.ext fun r' => (seen_of_pages hr.seen r').symm
  · rw [hr.ever, hpair]
    exact (Finset.union_empty _).symm

theorem applies_profileCancel (h : s.Ok) (times : UInt64)
    (hf : (s.profileCancel l r qty).Faultless) :
    Applies s (.cancelShares l r qty times) (s.profileCancel l r qty) := by
  unfold profileCancel at hf ⊢
  split at hf
  · exact absurd hf (not_faultless_bump _ _)
  rename_i o hlive
  dsimp only at hf ⊢
  obtain ⟨hqty, heq⟩ := ite_faultless hf
  rw [heq] at hf ⊢
  obtain ⟨hlt, heq⟩ := ite_faultless hf
  rw [heq] at hf ⊢
  have hlt := UInt32.not_le.1 hlt
  have hr := (h.checkLocate l o).reduceLiveOrder
    ((congrArg (AList.lookup r) (checkLocate_liveOrders s l o)).trans hlive) hlt hf
  obtain ⟨rfl, hcheck⟩ := checkLocate_faultless hr.faultless
  rw [hcheck] at hr ⊢
  have hsome := live_of_lookup hlive
  refine hr.applies (fun p t hp => ?_) (fun p t => ?_) (fun _ _ => rfl) rfl
  · exact ⟨hp, o.model, hsome, rfl, lt_of_ne_zero hqty, hlt⟩
  · show Function.update s.live r ((s.live r).bind _) = _
    rw [hsome, Option.bind_some]

theorem applies_profileDelete (h : s.Ok) (times : UInt64) (hf : (s.profileDelete l r).Faultless) :
    Applies s (.deleteOrder l r times) (s.profileDelete l r) := by
  unfold profileDelete at hf ⊢
  split at hf
  · exact absurd hf (not_faultless_bump _ _)
  rename_i o hlive
  have hr := ((h.checkLocate l o).removeLiveOrder
    ((congrArg (AList.lookup r) (checkLocate_liveOrders s l o)).trans hlive) hf).2
  obtain ⟨rfl, hcheck⟩ := checkLocate_faultless hr.faultless
  rw [hcheck] at hr ⊢
  refine hr.applies (fun p t hp => ?_) (fun p t => ?_) (fun _ _ => rfl) rfl
  · exact ⟨hp, o.model, live_of_lookup hlive, rfl⟩
  · show Function.update s.live r none = Function.update s.live r (BookModel.reduced o.model o.qty)
    unfold BookModel.reduced
    rw [if_pos (by rfl)]

theorem applies_profileExecution (h : s.Ok) (times : UInt64)
    (hf : (s.profileExecution l r qty).Faultless) :
    Applies s (.executeOrder l r qty times) (s.profileExecution l r qty) := by
  unfold profileExecution at hf ⊢
  split at hf
  · exact absurd hf (not_faultless_bump _ _)
  rename_i o hlive
  dsimp only at hf ⊢
  obtain ⟨hqty, heq⟩ := ite_faultless hf
  rw [heq] at hf ⊢
  obtain ⟨hle, heq⟩ := ite_faultless hf
  rw [heq] at hf ⊢
  have hle := UInt32.not_lt.1 hle
  have hlive' := (congrArg (AList.lookup r) (checkLocate_liveOrders s l o)).trans hlive
  have hr : Reduces (s.checkLocate l o) r o qty
      (if qty = o.qty then ((s.checkLocate l o).removeLiveOrder r o).2
        else (s.checkLocate l o).reduceLiveOrder r o qty) := by
    split_ifs at hf ⊢ with hall
    · rw [hall]
      exact ((h.checkLocate l o).removeLiveOrder hlive' hf).2
    · refine (h.checkLocate l o).reduceLiveOrder hlive' ?_ hf
      exact UInt32.lt_of_le_of_ne hle hall
  obtain ⟨rfl, hcheck⟩ := checkLocate_faultless hr.faultless
  rw [hcheck] at hr ⊢
  have hsome := live_of_lookup hlive
  refine hr.applies (fun p t hp => ?_) (fun p t => ?_) (fun _ _ => rfl) rfl
  · exact ⟨hp, o.model, hsome, rfl, lt_of_ne_zero hqty, hle⟩
  · show Function.update s.live r ((s.live r).bind _) = _
    rw [hsome, Option.bind_some]

theorem applies_profileReplace (h : s.Ok) (hx : isValidItchPrice4 x.toUInt64 = true)
    (times : UInt64) (hf : (s.profileReplace l r r' x qty).Faultless)
    (hb : (s.profileReplace l r r' x qty).Bounded) :
    r' ≠ r ∧ Applies s (.replaceOrder l r r' x.toUInt64 qty times)
      (s.profileReplace l r r' x qty) := by
  have hclaimed := h.claimDayUniqueOrderRef r'
  have hspec := claimDayUniqueOrderRef_spec (s := s) (r := r')
  unfold profileReplace at hf hb ⊢
  dsimp only at hf hb ⊢
  obtain ⟨hne, heq⟩ := ite_faultless hf
  rw [heq] at hf hb ⊢
  generalize s.claimDayUniqueOrderRef r' = out at hclaimed hspec hf hb ⊢
  by_cases hc : (!out.1) = true
  · rw [if_pos hc] at hf
    rw [(hspec hf).1] at hc
    cases hc
  rw [if_neg hc] at hf hb ⊢
  rcases hlive : out.2.liveOrders.lookup r with _ | o
  · rw [hlive] at hf
    exact absurd hf (not_faultless_bump _ _)
  rw [hlive] at hf hb
  dsimp only at hf hb ⊢
  obtain ⟨hqty, heq⟩ := ite_faultless hf
  rw [heq] at hf hb ⊢
  obtain ⟨hfresh, heq⟩ := ite_faultless hf
  rw [heq] at hf hb ⊢
  have hlive' := (congrArg (AList.lookup r) (checkLocate_liveOrders out.2 l o)).trans hlive
  have hremove := (hclaimed.checkLocate l o).removeLiveOrder hlive'
  generalize (out.2.checkLocate l o).removeLiveOrder r o = rest at hremove hf hb ⊢
  by_cases hc : (!rest.1) = true
  · rw [if_pos hc] at hf
    rw [(hremove hf).1] at hc
    cases hc
  rw [if_neg hc] at hf hb ⊢
  -- backwards over the new order, the old one and the claim of its reference
  obtain ⟨hremoved, hreduces⟩ := hremove ((frame_addLiveOrder _ _ _).faultless hf)
  have hadd := hreduces.ok.addLiveOrder (o := ⟨x, qty, o.locate, o.side⟩)
    (hclaimed.side r o hlive) hf hb
  obtain ⟨rfl, hcheck⟩ := checkLocate_faultless hreduces.faultless
  rw [hcheck] at hreduces
  obtain ⟨-, hfaultless, hseen, hused, pages, hpages⟩ := hspec hreduces.faultless
  have hlive : s.live r = some o.model := by
    rw [← live_of_lookup hlive, hpages]
    rfl
  have hever : out.2.everActivePages = s.everActivePages := by rw [hpages]
  refine ⟨Ne.symm hne, hfaultless, fun prepared lastTimestamp hl => ?_, fun _ _ => ?_,
    fun _ _ => ?_, ?_, hadd.ok⟩
  · exact ⟨hl, ⟨o.model, hlive, rfl⟩, lt_of_ne_zero hqty, hx, .inr hseen⟩
  · rw [hadd.live, hreduces.live, show out.2.live = s.live by rw [hpages]; rfl]
    show Function.update (Function.update s.live r none) r' ((s.live r).map _) = _
    rw [hlive]
    unfold BookModel.reduced
    rw [if_pos (by rfl)]
    rfl
  · ext r''
    show r'' ∈ insert r' {r | s.Seen r} ↔ _
    rw [Set.mem_ofPred_eq, seen_of_pages hadd.seen, seen_of_pages hreduces.seen, hused]
    rfl
  · refine ever_of_insert hx ?_ rfl
    rw [hadd.ever, hreduces.ever, hever]

end Operations

end Stats

end ItchTraceProfile

end AstraFeed
