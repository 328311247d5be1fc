import Mathlib.Data.Finset.Sort
import Mathlib.Data.Set.Finite.Basic
import Mathlib.Tactic.Ring
import AstraFeed.Proofs.StoreRead
import AstraFeed.Proofs.StoreRun

/-!
# The depth of a side

The walk from the best level to the next worse enumerates the occupied prices, the best first, and
`topTen` writes the beginning of that enumeration.
-/

namespace AstraFeed

/-- The first price is strictly better than the second. -/
def Better (side : OrderSide) (x y : ℕ) : Prop := if side = .buy then y < x else x < y

section Enumeration

variable {side : OrderSide} {S : Set ℕ} {x y z : ℕ} {xs ys : List ℕ}

theorem Better.trans (h : Better side x y) (h' : Better side y z) : Better side x z := by
  unfold Better at *
  split_ifs at * <;> omega

theorem Better.not_refl : ¬ Better side x x := by
  unfold Better
  split_ifs <;> omega

/-- The prices are those of `S`, each once, the best first. -/
structure Enumerates (side : OrderSide) (S : Set ℕ) (xs : List ℕ) : Prop where
  mem : ∀ x, x ∈ xs ↔ x ∈ S
  sorted : xs.Pairwise (Better side)

theorem exists_enumerates (side : OrderSide) (hS : S.Finite) : ∃ xs, Enumerates side S xs := by
  by_cases hs : side = .buy
  · refine ⟨hS.toFinset.sort (· ≥ ·), fun x => by simp, ?_⟩
    refine (Finset.sortedGT_sort _).pairwise.imp fun h => ?_
    rw [Better, if_pos hs]
    exact h
  · refine ⟨hS.toFinset.sort (· ≤ ·), fun x => by simp, ?_⟩
    refine (Finset.sortedLT_sort _).pairwise.imp fun h => ?_
    rw [Better, if_neg hs]
    exact h

theorem Enumerates.isBest (h : Enumerates side S (x :: xs)) : IsBest side S x := by
  rw [isBest_iff]
  refine ⟨(h.mem x).1 List.mem_cons_self, fun y hy => ?_⟩
  rcases List.mem_cons.1 ((h.mem y).2 hy) with rfl | hmem
  · exact .inl rfl
  · exact .inr (List.rel_of_pairwise_cons h.sorted hmem)

theorem Enumerates.tail (h : Enumerates side S (x :: xs)) :
    Enumerates side (worseThan side S x) xs := by
  refine ⟨fun y => ⟨fun hy => ?_, fun hy => ?_⟩, h.sorted.tail⟩
  · exact ⟨(h.mem y).1 (List.mem_cons_of_mem x hy), List.rel_of_pairwise_cons h.sorted hy⟩
  · rcases List.mem_cons.1 ((h.mem y).2 hy.1) with rfl | hmem
    · exact absurd hy.2 Better.not_refl
    · exact hmem

theorem isBest_unique (h : IsBest side S x) (h' : IsBest side S y) : x = y := by
  unfold IsBest at h h'
  split_ifs at h h'
  · exact h.unique h'
  · exact h.unique h'

/-- The best prices are the beginning of the enumeration. -/
theorem IsTop.eq_take {n : ℕ} (h : IsTop side S n ys) (he : Enumerates side S xs) :
    ys = xs.take n := by
  induction h generalizing xs with
  | zero S => rfl
  | empty n =>
    have hnil : xs = [] := List.eq_nil_iff_forall_not_mem.2 fun x hx => (he.mem x).1 hx
    rw [hnil, List.take_nil]
  | @cons S n x ys best rest ih =>
    cases xs with
    | nil => exact absurd ((he.mem x).2 best.mem) List.not_mem_nil
    | cons y xs =>
      obtain rfl := isBest_unique best he.isBest
      rw [List.take_succ_cons, ih he.tail]

end Enumeration

namespace PriceLevelStore

variable {s : PriceLevelStore} {l : UInt16} {side : OrderSide}

theorem finite_occupiedPrices (s : PriceLevelStore) (l : UInt16) (side : OrderSide) :
    (s.occupiedPrices l side).Finite :=
  (Set.finite_lt_nat (2 ^ 32)).subset fun _ hx => (lt_of_mem hx).1

/-- From a cursor at the best of `S`, the walk goes through `S`. -/
theorem walk_enumerates (hI : s.StoreInv) (hprep : s.isBookPrepared l = true)
    (hv : side ≠ .invalid) {xs : List ℕ} {S : Set ℕ} (he : Enumerates side S xs)
    (hS : S ⊆ s.occupiedPrices l side)
    (hclosed : ∀ x ∈ S, worseThan side (s.occupiedPrices l side) x ⊆ S) {j : ℕ}
    (hcursor : s.CursorOf l side S (s.depthCursor l side j)) :
    (∀ k x, xs[k]? = some x → s.depthCursor l side (j + k) = s.cursorAt l x)
      ∧ s.depthCursor l side (j + xs.length) = .none := by
  induction xs generalizing S j with
  | nil =>
    rcases hcursor with ⟨_, hnone⟩ | ⟨x, hbest, _⟩
    · exact ⟨fun k x hk => by simp at hk, hnone⟩
    · exact absurd ((he.mem x).2 hbest.mem) List.not_mem_nil
  | cons x xs ih =>
    obtain ⟨y, hbest, hat⟩ : ∃ y, IsBest side S y ∧ s.depthCursor l side j = s.cursorAt l y := by
      rcases hcursor with ⟨hempty, _⟩ | hsome
      · have hx := he.isBest.mem
        rw [hempty] at hx
        exact hx.elim
      · exact hsome
    obtain rfl := isBest_unique he.isBest hbest
    have hx := hS hbest.mem
    have hrest : worseThan side S x = worseThan side (s.occupiedPrices l side) x := by
      ext y
      exact ⟨fun hy => ⟨hS hy.1, hy.2⟩, fun hy => ⟨hclosed x hbest.mem hy, hy.2⟩⟩
    have hnext := nextWorse_spec hI hprep hv hx
    rw [← hat, ← hrest] at hnext
    have hclosed' : ∀ y ∈ worseThan side S x,
        worseThan side (s.occupiedPrices l side) y ⊆ worseThan side S x := by
      intro y hy z hz
      rw [hrest]
      exact ⟨hz.1, Better.trans hy.2 hz.2⟩
    obtain ⟨hwalk, hend⟩ := ih he.tail (fun y hy => hS hy.1) hclosed' (j := j + 1) hnext
    refine ⟨fun k z hk => ?_, ?_⟩
    · cases k with
      | zero =>
        rw [List.getElem?_cons_zero, Option.some_inj] at hk
        rw [← hk, Nat.add_zero]
        exact hat
      | succ k =>
        rw [show j + (k + 1) = j + 1 + k by omega]
        exact hwalk k z (by simpa using hk)
    · rw [List.length_cons, show j + (xs.length + 1) = j + 1 + xs.length by omega]
      exact hend

/-- Past an invalid cursor there are only invalid ones. -/
theorem depthCursor_invalid {k : ℕ} (h : s.depthCursor l side k = .none) (n : ℕ) :
    s.depthCursor l side (k + n) = .none := by
  induction n with
  | zero => exact h
  | succ n ih =>
    show s.nextWorse l side (s.depthCursor l side (k + n)) = .none
    rw [ih]
    rfl

/-- `topTenLoop` writes only the slots it counts. -/
theorem topTenLoop_rest (n : ℕ) (cursor : PriceLevelCursor) (count : ℕ)
    (output : List PriceLevelView) :
    count ≤ (s.topTenLoop l side n cursor count output).1
      ∧ (s.topTenLoop l side n cursor count output).2.drop
          (s.topTenLoop l side n cursor count output).1
        = output.drop (s.topTenLoop l side n cursor count output).1 := by
  induction n generalizing cursor count output with
  | zero => exact ⟨le_rfl, rfl⟩
  | succ n ih =>
    unfold topTenLoop
    dsimp only
    by_cases hcursor : (!cursor.valid) = true
    · rw [if_pos hcursor]
      exact ⟨le_rfl, rfl⟩
    rw [if_neg hcursor]
    by_cases hview : (!(s.view cursor side).valid) = true
    · rw [if_pos hview]
      exact ⟨le_rfl, rfl⟩
    rw [if_neg hview]
    by_cases hn : n = 0
    · rw [if_pos hn]
      exact ⟨Nat.le_succ _, by rw [List.drop_set_of_lt (Nat.lt_succ_self _)]⟩
    · rw [if_neg hn]
      obtain ⟨hle, hdrop⟩ := ih (s.nextWorse l side cursor) (count + 1)
        (output.set count (s.view cursor side))
      refine ⟨by omega, hdrop.trans ?_⟩
      rw [List.drop_set_of_lt (by omega)]

theorem topTen_eq (hI : s.StoreInv) (hprep : s.isBookPrepared l = true) (hv : side ≠ .invalid)
    {xs : List ℕ} (he : Enumerates side (s.occupiedPrices l side) xs)
    (output : List PriceLevelView) :
    let n := min kTopLevelCount (min output.length xs.length)
    s.topTen l side output = (n, (xs.take n).map (s.viewAt l side) ++ output.drop n) := by
  intro n
  obtain ⟨ys, htop, _, hcount, htake⟩ := topTen_spec hI hprep hv output
  have hys : ys = xs.take n := by
    rw [htop.eq_take he, ← List.take_length (l := xs), List.take_take, List.take_length]
    congr 1
    omega
  have hlen : ys.length = n := by
    rw [hys, List.length_take]
    omega
  obtain ⟨_, hrest⟩ := topTenLoop_rest (s := s) (l := l)
    (min output.length kTopLevelCount) (s.best l side) 0 output
  change (s.topTen l side output).2.drop (s.topTen l side output).1
    = output.drop (s.topTen l side output).1 at hrest
  rw [hcount, hlen] at hrest
  rw [hlen, hys] at htake
  refine Prod.ext (hcount.trans hlen) ?_
  rw [← List.take_append_drop n (s.topTen l side output).2, htake, hrest]

/-- In every store operations lead to, the walk from the best level visits each occupied level of a
prepared side once, the best first, with its shares and orders, and then ends; and `topTen` writes
the beginning of that walk. -/
theorem depth_traversal (config : PriceLevelStoreConfig) (ops : List StoreOp) (l : UInt16)
    (side : OrderSide) (hprep : ((fresh config).run ops).isBookPrepared l = true)
    (hv : side ≠ .invalid) :
    let s := (fresh config).run ops
    ∃ xs : List ℕ,
      (∀ x, x ∈ xs ↔ x < 2 ^ 32 ∧ (s.levelOf l side x).orderCount ≠ 0)
      ∧ (if side = .buy then xs.Pairwise (· > ·) else xs.Pairwise (· < ·))
      ∧ (∀ k x, xs[k]? = some x → (s.depthCursor l side k).valid = true
        ∧ (s.depthCursor l side k).rawPrice.toNat = x
        ∧ s.view (s.depthCursor l side k) side
          = ⟨x.toUInt32, (s.levelOf l side x).totalQty, (s.levelOf l side x).orderCount, true⟩)
      ∧ (∀ k, xs.length ≤ k → (s.depthCursor l side k).valid = false)
      ∧ ∀ output,
        let n := min 10 (min output.length xs.length)
        s.topTen l side output
          = (n, (List.range n).map (fun k => s.view (s.depthCursor l side k) side)
            ++ output.drop n) := by
  intro s
  have hI : s.StoreInv := storeInv_of_run config ops
  obtain ⟨xs, he⟩ := exists_enumerates side (finite_occupiedPrices s l side)
  obtain ⟨hwalk, hend⟩ := walk_enumerates hI hprep hv he subset_rfl (fun x _ y hy => hy.1) (j := 0)
    (best_spec hI hprep hv)
  have hview : ∀ k x, xs[k]? = some x → s.view (s.depthCursor l side k) side
      = s.viewAt l side x := by
    intro k x hk
    have hat := hwalk k x hk
    rw [Nat.zero_add] at hat
    rw [hat]
    exact view_spec hI hv ((he.mem x).1 (List.mem_of_getElem? hk))
  refine ⟨xs, fun x => (he.mem x).trans mem_occupiedPrices, ?_, fun k x hk => ?_, fun k hk => ?_,
    fun output => ?_⟩
  · split_ifs with hs
    · exact he.sorted.imp fun h => by rwa [Better, if_pos hs] at h
    · exact he.sorted.imp fun h => by rwa [Better, if_neg hs] at h
  · have hlt := (lt_of_mem ((he.mem x).1 (List.mem_of_getElem? hk))).1
    have hat := hwalk k x hk
    rw [Nat.zero_add] at hat
    refine ⟨by rw [hat]; rfl, ?_, hview k x hk⟩
    rw [hat]
    exact toUInt32_toNat hlt
  · rw [Nat.zero_add] at hend
    have hinv := depthCursor_invalid hend (k - xs.length)
    rw [Nat.add_sub_cancel' hk] at hinv
    rw [hinv]
    rfl
  · intro n
    refine (topTen_eq hI hprep hv he output).trans (congrArg (fun vs => (n, vs ++ _)) ?_)
    refine List.ext_getElem? fun k => ?_
    change ((xs.take n).map (s.viewAt l side))[k]? = _
    rw [List.getElem?_map, List.getElem?_map, List.getElem?_take]
    by_cases hk : k < n
    · obtain ⟨x, hx⟩ : ∃ x, xs[k]? = some x := ⟨_, List.getElem?_eq_getElem (by omega)⟩
      rw [if_pos hk, hx, List.getElem?_range hk, Option.map_some, Option.map_some, hview k x hx]
    · rw [if_neg hk, List.getElem?_eq_none (by rw [List.length_range]; omega), Option.map_none,
        Option.map_none]

/-! ## Three levels on two pages -/

/-- Four buy orders: two levels on the page of the lowest prices, and one on the next page. -/
def twoPages : List StoreOp :=
  [.prepareBook 1, .commitReservation ⟨.applied, ⟨1, 100⟩, 1, 0, 0, true⟩, .add ⟨1, 100⟩ .buy 10,
    .add ⟨1, 500⟩ .buy 5, .commitReservation ⟨.applied, ⟨2, 7⟩, 1, 1, 1, true⟩,
    .add ⟨2, 7⟩ .buy 3, .add ⟨2, 7⟩ .buy 4]

theorem rootAt_twoPages (p : ℕ) : ((fresh ⟨2⟩).run twoPages).rootAt 1 p
    = if p = 1 then 2 else if p = 0 then 1 else kInvalidPricePageHandle := by
  have hroots : ((fresh ⟨2⟩).run twoPages).roots
      = Function.update (Function.update (fun _ => kInvalidPricePageHandle) 65536 1) 65537 2 := rfl
  unfold rootAt
  rw [hroots, Function.update_apply, Function.update_apply]
  refine if_congr ?_ rfl (if_congr ?_ rfl rfl)
  all_goals
    simp only [UInt16.reduceToNat, kPricePartCount]
    omega

theorem levelAt_twoPages_first (i : ℕ) : ((fresh ⟨2⟩).run twoPages).levelAt 1 .buy i
    = if i = 500 then ⟨5, 1⟩ else if i = 100 then ⟨10, 1⟩ else ⟨0, 0⟩ := by
  have hlevels : ((fresh ⟨2⟩).run twoPages).levelAt 1 .buy
      = Function.update (Function.update (fun _ => ⟨0, 0⟩) 100 ⟨10, 1⟩) 500 ⟨5, 1⟩ := rfl
  rw [hlevels, Function.update_apply, Function.update_apply]

theorem levelAt_twoPages_second (i : ℕ) : ((fresh ⟨2⟩).run twoPages).levelAt 2 .buy i
    = if i = 7 then ⟨7, 2⟩ else ⟨0, 0⟩ := by
  have hlevels : ((fresh ⟨2⟩).run twoPages).levelAt 2 .buy
      = Function.update (Function.update (fun _ => ⟨0, 0⟩) 7 ⟨3, 1⟩) 7 ⟨7, 2⟩ := rfl
  rw [hlevels, Function.update_idem, Function.update_apply]

theorem occupied_twoPages (x : ℕ) :
    (((fresh ⟨2⟩).run twoPages).levelOf 1 .buy x).orderCount ≠ 0 ↔ x ∈ [65543, 500, 100] := by
  have hnone : ∀ i, ((fresh ⟨2⟩).run twoPages).levelAt kInvalidPricePageHandle .buy i = ⟨0, 0⟩ :=
    fun _ => rfl
  have hx := Nat.div_add_mod x kPricePartCount
  have hi : x % kPricePartCount < kPricePartCount := Nat.mod_lt _ (by decide)
  unfold levelOf
  rw [rootAt_twoPages]
  generalize x / kPricePartCount = p at hx
  generalize x % kPricePartCount = i at hx hi
  unfold kPricePartCount at hx hi
  simp only [List.mem_cons, List.not_mem_nil, or_false]
  split_ifs with h1 h0
  · rw [levelAt_twoPages_second]
    split_ifs
    · exact iff_of_true (by decide) (by omega)
    · exact iff_of_false (by decide) (by omega)
  · rw [levelAt_twoPages_first]
    split_ifs
    · exact iff_of_true (by decide) (by omega)
    · exact iff_of_true (by decide) (by omega)
    · exact iff_of_false (by decide) (by omega)
  · rw [hnone]
    exact iff_of_false (by decide) (by omega)

/-- The walk over three levels on two pages: the higher page is read first, the walk ends after
the third level, and `topTen` writes the three. -/
theorem depth_traversal_twoPages :
    let s := (fresh ⟨2⟩).run twoPages
    s.isBookPrepared 1 = true
    ∧ s.view (s.depthCursor 1 .buy 0) .buy = ⟨65543, 7, 2, true⟩
    ∧ s.view (s.depthCursor 1 .buy 1) .buy = ⟨500, 5, 1, true⟩
    ∧ s.view (s.depthCursor 1 .buy 2) .buy = ⟨100, 10, 1, true⟩
    ∧ (∀ k, 3 ≤ k → (s.depthCursor 1 .buy k).valid = false)
    ∧ ∀ output, 3 ≤ output.length → s.topTen 1 .buy output
      = (3, [⟨65543, 7, 2, true⟩, ⟨500, 5, 1, true⟩, ⟨100, 10, 1, true⟩] ++ output.drop 3) := by
  intro s
  have hprep : s.isBookPrepared 1 = true := rfl
  obtain ⟨xs, hmem, hsorted, hwalk, hend, htop⟩ := depth_traversal ⟨2⟩ twoPages 1 .buy hprep
    (by decide)
  have hxs : xs = [65543, 500, 100] := by
    have hthree : [65543, 500, 100].Pairwise (· > ·) := by decide
    have hiff : ∀ x, x ∈ xs ↔ x ∈ [65543, 500, 100] := fun x =>
      (hmem x).trans ((and_congr_right fun _ => occupied_twoPages x).trans
        (and_iff_right_of_imp fun hx => by revert x; decide))
    rw [if_pos rfl] at hsorted
    exact List.Perm.eq_of_pairwise (fun x y _ _ hxy hyx => absurd hxy (Nat.lt_asymm hyx)) hsorted
      hthree ((List.perm_ext_iff_of_nodup (hsorted.imp Nat.ne_of_gt)
        (hthree.imp Nat.ne_of_gt)).2 hiff)
  subst hxs
  have h0 : s.view (s.depthCursor 1 .buy 0) .buy = ⟨65543, 7, 2, true⟩ :=
    (hwalk 0 _ rfl).2.2.trans (by decide +kernel)
  have h1 : s.view (s.depthCursor 1 .buy 1) .buy = ⟨500, 5, 1, true⟩ :=
    (hwalk 1 _ rfl).2.2.trans (by decide +kernel)
  have h2 : s.view (s.depthCursor 1 .buy 2) .buy = ⟨100, 10, 1, true⟩ :=
    (hwalk 2 _ rfl).2.2.trans (by decide +kernel)
  refine ⟨hprep, h0, h1, h2, hend, fun output hlen => ?_⟩
  have hn : min 10 (min output.length [65543, 500, 100].length) = 3 := by
    rw [List.length_cons, List.length_cons, List.length_singleton]
    omega
  have hviews : (List.range 3).map (fun k => s.view (s.depthCursor 1 .buy k) .buy)
      = [⟨65543, 7, 2, true⟩, ⟨500, 5, 1, true⟩, ⟨100, 10, 1, true⟩] := by
    simp only [List.range_succ, List.range_zero, List.nil_append, List.cons_append, List.map_cons,
      List.map_nil, h0, h1, h2]
  have htopTen := htop output
  rw [hn] at htopTen
  rw [htopTen, hviews]

end PriceLevelStore

end AstraFeed
