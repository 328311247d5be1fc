import AstraFeed.Lib.RoundUp
import AstraFeed.MappedArray

/-!
# The storage estimate

The words of the estimate never wrap: it is the estimate on unbounded numbers
(`estimate_toNat`). Its sizes are those `MappedArray` computes for the arenas, and it fails exactly
when one of them, or a sum, does not fit (`footprint_agrees`).
-/

namespace AstraFeed

open RoundUp

namespace SizeT

theorem toNat_sizeMax_sub (x : UInt64) :
    (MappedArray.sizeMax - x).toNat = BookStorage.sizeMax - x.toNat := by
  have hx := x.toNat_lt
  refine UInt64.toNat_sub_of_le _ _ (UInt64.le_iff_toNat_le.2 ?_)
  show x.toNat ≤ 2 ^ 64 - 1
  omega

theorem toNat_sizeMax_div (x : UInt64) :
    (MappedArray.sizeMax / x).toNat = BookStorage.sizeMax / x.toNat := UInt64.toNat_div _ _

theorem isPowerOfTwo_toNat (x : UInt64) :
    MappedArray.isPowerOfTwo x = BookStorage.isPowerOfTwo x.toNat := by
  unfold MappedArray.isPowerOfTwo BookStorage.isPowerOfTwo
  by_cases h0 : x = 0
  · rw [h0]
    rfl
  · have hpos : 0 < x.toNat := by
      rw [Nat.pos_iff_ne_zero]
      exact fun h => h0 (UInt64.toNat_inj.1 h)
    have hiff : x &&& (x - 1) = 0 ↔ x.toNat &&& (x.toNat - 1) = 0 := by
      rw [← UInt64.toNat_inj, UInt64.toNat_and, toNat_sub_one hpos]
      rfl
    rw [Bool.eq_iff_iff]
    simp only [Bool.and_eq_true, bne_iff_ne, beq_iff_eq, hiff]
    exact and_congr_left fun _ => iff_of_true h0 hpos.ne'

theorem isPowerOfTwo_iff {n : ℕ} : BookStorage.isPowerOfTwo n = true ↔ n.isPowerOfTwo := by
  rw [← Nat.ne_zero_and_sub_one_eq_zero_iff_isPowerOfTwo]
  simp [BookStorage.isPowerOfTwo]

/-- A check that fails with the same text on both sides. -/
theorem map_check {α β : Type*} {f : α → β} {c c' : Prop} [Decidable c] [Decidable c']
    {e : String} {x : Except String α} {y : Except String β} (h : c ↔ c')
    (hxy : ¬ c' → x.map f = y) :
    (if c then .error e else x).map f = if c' then .error e else y := by
  by_cases hc : c'
  · rw [if_pos hc, if_pos (h.2 hc)]
    rfl
  · rw [if_neg hc, if_neg fun hc' => hc (h.1 hc')]
    exact hxy hc

theorem checkedAdd_toNat (lhs rhs : UInt64) :
    (checkedAdd lhs rhs).map UInt64.toNat = BookStorage.checkedAdd lhs.toNat rhs.toNat := by
  refine map_check ?_ fun h => ?_
  · rw [UInt64.lt_iff_toNat_lt, toNat_sizeMax_sub]
  · refine congrArg Except.ok ((UInt64.toNat_add _ _).trans (Nat.mod_eq_of_lt ?_))
    unfold BookStorage.sizeMax at h
    have := rhs.toNat_lt
    omega

theorem checkedMultiply_toNat (lhs rhs : UInt64) :
    (checkedMultiply lhs rhs).map UInt64.toNat
      = BookStorage.checkedMultiply lhs.toNat rhs.toNat := by
  refine map_check (and_congr (not_congr UInt64.toNat_inj.symm) ?_) fun h => ?_
  · rw [UInt64.lt_iff_toNat_lt, toNat_sizeMax_div]
  · refine congrArg Except.ok ((UInt64.toNat_mul _ _).trans (Nat.mod_eq_of_lt ?_))
    rcases Nat.eq_zero_or_pos lhs.toNat with h0 | hpos
    · rw [h0, Nat.zero_mul]
      decide
    · have hle : rhs.toNat ≤ BookStorage.sizeMax / lhs.toNat :=
        Nat.not_lt.1 fun hlt => h ⟨hpos.ne', hlt⟩
      have hmul := (Nat.le_div_iff_mul_le hpos).1 hle
      rw [Nat.mul_comm] at hmul
      unfold BookStorage.sizeMax at hmul
      omega

/-- The alignment both sides normalise to. -/
theorem toNat_alignment (requested element page : UInt64) :
    (let alignment := if requested = 0 then page else requested
      let alignment := if alignment < page then page else alignment
      if alignment < element then element else alignment).toNat
      = max (max (if requested.toNat = 0 then page.toNat else requested.toNat) page.toNat)
        element.toNat := by
  have hmax : ∀ a b : UInt64, (if a < b then b else a).toNat = max a.toNat b.toNat := by
    intro a b
    split
    · rename_i h
      rw [Nat.max_eq_right (UInt64.lt_iff_toNat_lt.1 h).le]
    · rename_i h
      rw [Nat.max_eq_left (UInt64.le_iff_toNat_le.1 (UInt64.not_lt.1 h))]
  have hzero : (requested = 0) = (requested.toNat = 0) := propext UInt64.toNat_inj.symm
  dsimp only
  rw [hmax, hmax, apply_ite UInt64.toNat]
  simp only [hzero]

theorem bind_of_map {α β γ : Type} {f : α → β} {x : Except String α} {y : Except String β}
    {k : α → Except String γ} {l : β → Except String γ} (hx : x.map f = y)
    (hk : ∀ a, k a = l (f a)) : x >>= k = y >>= l := by
  subst hx
  cases x with
  | error e => rfl
  | ok a => exact hk a

theorem map_bind {α β γ δ : Type} {f : α → β} {g : γ → δ} {x : Except String α}
    {y : Except String β} {k : α → Except String γ} {l : β → Except String δ} (hx : x.map f = y)
    (hk : ∀ a, x = .ok a → (k a).map g = l (f a)) : (x >>= k).map g = y >>= l := by
  subst hx
  cases x with
  | error e => rfl
  | ok a => exact hk a rfl

theorem mappedBytes_toNat (count elementBytes elementAlignment requested page : UInt64) :
    (mappedBytes count elementBytes elementAlignment requested page).map UInt64.toNat
      = BookStorage.mappedBytes count.toNat elementBytes.toNat elementAlignment.toNat
        requested.toNat page.toNat := by
  refine map_bind (checkedMultiply_toNat count elementBytes) fun logical _ => ?_
  have halign := toNat_alignment requested elementAlignment page
  dsimp only at halign ⊢
  generalize (if (if (if requested = 0 then page else requested) < page then page
    else if requested = 0 then page else requested) < elementAlignment then elementAlignment
    else if (if requested = 0 then page else requested) < page then page
    else if requested = 0 then page else requested) = alignment at halign ⊢
  rw [← halign]
  refine map_check (or_congr ?_ ?_) fun hpow => ?_
  · rw [isPowerOfTwo_toNat]
  · rw [ne_eq, ← UInt64.toNat_inj, UInt64.toNat_mod]
    rfl
  have hp : alignment.toNat.isPowerOfTwo :=
    isPowerOfTwo_iff.1 (by simpa using fun h => hpow (.inl h))
  have hpos : 0 < alignment.toNat := Nat.pos_of_isPowerOfTwo hp
  have hzero : logical.toNat = 0 ↔ logical = 0 :=
    ⟨fun h => UInt64.toNat_inj.1 h, fun h => by rw [h]; rfl⟩
  by_cases h0 : logical = 0
  · rw [if_pos h0, if_pos (hzero.2 h0)]
    rfl
  rw [if_neg h0, if_neg (mt hzero.1 h0)]
  refine map_check ?_ fun hround => ?_
  · rw [UInt64.lt_iff_toNat_lt, toNat_sizeMax_sub, toNat_sub_one hpos]
  have hfit : logical.toNat + (alignment.toNat - 1) < 2 ^ 64 := by
    have := alignment.toNat_lt
    unfold BookStorage.sizeMax at hround
    omega
  have hrounded : ((logical + alignment - 1) &&& ~~~(alignment - 1)).toNat
      = (logical.toNat + alignment.toNat - 1) / alignment.toNat * alignment.toNat :=
    toNat_roundUp hp hfit
  refine map_check ?_ fun _ => congrArg Except.ok hrounded
  rw [UInt64.lt_iff_toNat_lt, toNat_sizeMax_sub, hrounded]

theorem foldlM_toNat (words : List UInt64) (total : UInt64) :
    (words.foldlM checkedAdd total).map UInt64.toNat
      = (words.map UInt64.toNat).foldlM BookStorage.checkedAdd total.toNat := by
  induction words generalizing total with
  | nil => rfl
  | cons word words ih =>
    rw [List.map_cons, List.foldlM_cons, List.foldlM_cons]
    exact map_bind (checkedAdd_toNat total word) fun sum _ => ih sum

/-- No word of the estimate wraps. -/
theorem estimate_toNat (config : BookManagerConfig) (page : UInt64) :
    estimateBookStorageFootprint config page
      = BookStorage.estimateBookStorageFootprint config page.toNat := by
  unfold estimateBookStorageFootprint BookStorage.estimateBookStorageFootprint
  cases BookStorage.validateConfig config with
  | error e => rfl
  | ok u =>
    have hcapacity : config.prices.pageCapacity.toUInt64.toNat = config.prices.pageCapacity.toNat :=
      UInt32.toNat_toUInt64 _
    simp only [isPowerOfTwo_toNat]
    have hfallback : config.orders.fallbackBucketCount.toUInt64.toNat
        = config.orders.fallbackBucketCount.toNat := UInt32.toNat_toUInt64 _
    rw [← hcapacity, ← hfallback]
    refine congrArg₂ _ rfl (funext fun _ => ?_)
    by_cases hpow : (!BookStorage.isPowerOfTwo page.toNat) = true
    · rw [if_pos hpow, if_pos hpow]
      rfl
    rw [if_neg hpow, if_neg hpow]
    refine bind_of_map (mappedBytes_toNat _ _ _ _ _) fun orderDirect => ?_
    refine bind_of_map (mappedBytes_toNat _ _ _ _ _) fun orderFallback => ?_
    refine bind_of_map (mappedBytes_toNat _ _ _ _ _) fun priceRoots => ?_
    refine bind_of_map (mappedBytes_toNat _ _ _ _ _) fun pricePreparedBooks => ?_
    refine bind_of_map (mappedBytes_toNat _ _ _ _ _) fun pricePages => ?_
    refine bind_of_map (checkedAdd_toNat _ _) fun pageMetadataSlots => ?_
    refine bind_of_map (mappedBytes_toNat _ _ _ _ _) fun pricePageOwners => ?_
    refine bind_of_map (mappedBytes_toNat _ _ _ _ _) fun pricePageSummaries => ?_
    refine bind_of_map (checkedMultiply_toNat _ _) fun pageBitmaps => ?_
    refine bind_of_map (mappedBytes_toNat _ _ _ _ _) fun pricePageOccupancy => ?_
    refine bind_of_map (mappedBytes_toNat _ _ _ _ _) fun priceBookSummaries => ?_
    refine bind_of_map (checkedMultiply_toNat _ _) fun bookBitmaps => ?_
    refine bind_of_map (mappedBytes_toNat _ _ _ _ _) fun priceBookOccupancy => ?_
    refine bind_of_map (foldlM_toNat _ _) fun mappedArrayBytes => ?_
    refine bind_of_map (checkedMultiply_toNat _ _) fun descriptorSlotBytes => ?_
    refine bind_of_map (mappedBytes_toNat _ _ _ _ _) fun descriptorMappedBytes => ?_
    exact bind_of_map (checkedAdd_toNat _ _) fun plannedStorageBytes => rfl

end SizeT

/-! ## The sizes without a limit -/

namespace ArenaSpec

variable {spec : ArenaSpec} {page m : ℕ}

/-- The alignments are powers of two, and there is something to map. -/
structure Proper (spec : ArenaSpec) : Prop where
  requested : spec.requestedAlignment.toNat.isPowerOfTwo
  element : spec.elementAlignment.toNat.isPowerOfTwo
  bytes : spec.elementBytes ≠ 0
  logical : spec.logicalBytes ≠ 0

theorem Proper.alignment_eq (h : spec.Proper) :
    spec.alignment page
      = max (max spec.requestedAlignment.toNat page) spec.elementAlignment.toNat := by
  unfold alignment
  rw [if_neg]
  intro h0
  have hpos := Nat.pos_of_isPowerOfTwo h.requested
  rw [h0] at hpos
  exact absurd hpos (by decide)

theorem Proper.alignment_isPowerOfTwo (h : spec.Proper) (hpage : page.isPowerOfTwo) :
    (spec.alignment page).isPowerOfTwo := by
  rw [h.alignment_eq]
  exact isPowerOfTwo_max (isPowerOfTwo_max h.requested hpage) h.element

theorem Proper.page_dvd (h : spec.Proper) (hpage : page.isPowerOfTwo) :
    page ∣ spec.alignment page := by
  refine dvd_of_isPowerOfTwo hpage (h.alignment_isPowerOfTwo hpage) ?_
  rw [h.alignment_eq]
  exact (Nat.le_max_right _ _).trans (Nat.le_max_left _ _)

theorem logical_le_mapped (h : spec.Proper) (hpage : page.isPowerOfTwo) :
    spec.logicalBytes ≤ spec.mappedBytes page :=
  le_roundUp (Nat.pos_of_isPowerOfTwo (h.alignment_isPowerOfTwo hpage))

theorem alignment_dvd_mapped (spec : ArenaSpec) (page : ℕ) :
    spec.alignment page ∣ spec.mappedBytes page := dvd_roundUp _ _

end ArenaSpec

namespace BookStorage

variable {spec : ArenaSpec} {page m : ℕ}

theorem checkedMultiply_eq_ok {a b r : ℕ} :
    checkedMultiply a b = .ok r ↔ a * b < 2 ^ 64 ∧ r = a * b := by
  have hiff : (a ≠ 0 ∧ sizeMax / a < b) ↔ ¬ a * b < 2 ^ 64 := by
    rcases Nat.eq_zero_or_pos a with rfl | hpos
    · simp
    · rw [Nat.div_lt_iff_lt_mul hpos, Nat.mul_comm b a]
      unfold sizeMax
      omega
  unfold checkedMultiply
  by_cases h : a * b < 2 ^ 64
  · rw [if_neg fun hc => hiff.1 hc h, Except.ok.injEq, eq_comm, and_iff_right h]
  · rw [if_pos (hiff.2 h)]
    exact iff_of_false (fun hok => nomatch hok) fun hr => h hr.1

theorem bind_eq_ok {α β : Type} {x : Except String α} {k : α → Except String β} {c : β} :
    x >>= k = .ok c ↔ ∃ a, x = .ok a ∧ k a = .ok c := by
  constructor
  · intro h
    cases x with
    | error e => exact nomatch h
    | ok a => exact ⟨a, rfl, h⟩
  · rintro ⟨a, rfl, h⟩
    exact h

theorem exists_bind {α β : Type} {x : Except String α} {k : α → Except String β} {a : α}
    (hx : x = .ok a) (h : ∃ c, k a = .ok c) : ∃ c, x >>= k = .ok c := by
  obtain ⟨c, hc⟩ := h
  exact ⟨c, bind_eq_ok.2 ⟨a, hx, hc⟩⟩

/-- The size of an arena, where it fits. -/
theorem mappedBytes_eq_ok (h : spec.Proper) (hpage : page.isPowerOfTwo) :
    mappedBytes spec.count.toNat spec.elementBytes.toNat spec.elementAlignment.toNat
      spec.requestedAlignment.toNat page = .ok m ↔ spec.Fits page ∧ m = spec.mappedBytes page := by
  have halign : max (max (if spec.requestedAlignment.toNat = 0 then page
      else spec.requestedAlignment.toNat) page) spec.elementAlignment.toNat
      = spec.alignment page := by
    rw [h.alignment_eq, if_neg (Nat.pos_of_isPowerOfTwo h.requested).ne']
  have hpow := h.alignment_isPowerOfTwo hpage
  have hpos := Nat.pos_of_isPowerOfTwo hpow
  have hle := ArenaSpec.logical_le_mapped h hpage
  have hcheck : ¬ ((!isPowerOfTwo (spec.alignment page)) = true
      ∨ spec.alignment page % page ≠ 0) := by
    rw [SizeT.isPowerOfTwo_iff.2 hpow, Nat.mod_eq_zero_of_dvd (h.page_dvd hpage)]
    simp
  unfold mappedBytes
  dsimp only
  rw [halign, bind_eq_ok]
  have hrounded : (spec.logicalBytes + spec.alignment page - 1) / spec.alignment page
      * spec.alignment page = spec.mappedBytes page := rfl
  have hmul : ∀ r, checkedMultiply spec.count.toNat spec.elementBytes.toNat = .ok r ↔
      spec.logicalBytes < 2 ^ 64 ∧ r = spec.logicalBytes := fun r => checkedMultiply_eq_ok
  constructor
  · rintro ⟨r, hr, hm⟩
    obtain ⟨hfit, rfl⟩ := (hmul r).1 hr
    rw [if_neg hcheck, if_neg h.logical, hrounded] at hm
    split_ifs at hm with h1 h2
    unfold sizeMax at h2
    exact ⟨⟨hfit, fun _ => by omega⟩, (Except.ok.inj hm).symm⟩
  · rintro ⟨hfits, rfl⟩
    have hsum := hfits.2 h.logical
    refine ⟨_, (hmul _).2 ⟨hfits.1, rfl⟩, ?_⟩
    rw [if_neg hcheck, if_neg h.logical, hrounded, if_neg, if_neg]
    · unfold sizeMax
      omega
    · unfold sizeMax
      omega

/-! ## The arenas -/

theorem validateConfig_eq_ok {config : BookManagerConfig} (h : validateConfig config = .ok ()) :
    config.orders.directSlots ≠ 0 ∧ config.orders.fallbackBucketCount ≠ 0
      ∧ config.prices.pageCapacity ≠ 0 := by
  unfold validateConfig at h
  split_ifs at h with hslots hbuckets hpages
  exact ⟨hslots, fun h0 => hbuckets (.inl h0), fun h0 => hpages (.inl h0)⟩

theorem toUInt64_ne_zero {n : UInt32} (h : n ≠ 0) : n.toUInt64 ≠ 0 := by
  intro h0
  refine h (UInt32.toNat_inj.1 ?_)
  rw [← UInt32.toNat_toUInt64 n, h0]
  rfl

theorem toNat_pageSlots (n : UInt32) : (n.toUInt64 + 1).toNat = n.toNat + 1 := by
  have := n.toNat_lt
  rw [UInt64.toNat_add, UInt32.toNat_toUInt64]
  exact Nat.mod_eq_of_lt (show n.toNat + 1 < 2 ^ 64 by omega)

theorem toNat_pageBitmaps (n : UInt32) :
    ((n.toUInt64 + 1) * SizeT.kSideCount).toNat = (n.toNat + 1) * 2 := by
  have := n.toNat_lt
  rw [UInt64.toNat_mul, toNat_pageSlots]
  exact Nat.mod_eq_of_lt (show (n.toNat + 1) * 2 < 2 ^ 64 by omega)

theorem proper_mk {count bytes : UInt64} (element requested : ℕ) (hcount : count ≠ 0)
    (hbytes : bytes ≠ 0) (he : element < 64) (hr : requested < 64) :
    ArenaSpec.Proper ⟨count, bytes, .ofNat (2 ^ element), .ofNat (2 ^ requested)⟩ := by
  have hlt : ∀ k < 64, (UInt64.ofNat (2 ^ k)).toNat = 2 ^ k := fun k hk =>
    UInt64.toNat_ofNat_of_lt (Nat.pow_lt_pow_right (by decide) hk)
  have hne : ∀ x : UInt64, x ≠ 0 → x.toNat ≠ 0 := fun x hx h0 => hx (UInt64.toNat_inj.1 h0)
  exact ⟨⟨_, hlt _ hr⟩, ⟨_, hlt _ he⟩, hbytes,
    Nat.mul_ne_zero (hne _ hcount) (hne _ hbytes)⟩

theorem descriptorArena_proper : descriptorArena.Proper :=
  proper_mk 3 21 (by decide) (by decide) (by decide) (by decide)

/-- Every array of an accepted configuration has something to map. -/
theorem arenas_proper {config : BookManagerConfig} (h : validateConfig config = .ok ()) :
    ∀ spec ∈ arenas config, spec.Proper := by
  obtain ⟨hslots, hbuckets, hpages⟩ := validateConfig_eq_ok h
  have hmeta : config.prices.pageCapacity.toUInt64 + 1 ≠ 0 := by
    intro h0
    have := toNat_pageSlots config.prices.pageCapacity
    rw [h0] at this
    exact absurd this (by simp)
  have hbitmaps : (config.prices.pageCapacity.toUInt64 + 1) * SizeT.kSideCount ≠ 0 := by
    intro h0
    have := toNat_pageBitmaps config.prices.pageCapacity
    rw [h0] at this
    exact absurd this (by simp)
  intro spec hspec
  simp only [arenas, OrderTable.arenas, PriceLevelStore.arenas, List.cons_append, List.nil_append,
    List.mem_cons, List.not_mem_nil, or_false] at hspec
  rcases hspec with rfl | rfl | rfl | rfl | rfl | rfl | rfl | rfl | rfl | rfl
  · exact proper_mk 4 21 hslots (by decide) (by decide) (by decide)
  · exact proper_mk 6 21 (toUInt64_ne_zero hbuckets) (by decide)
      (by decide) (by decide)
  · exact proper_mk 2 21 (by decide) (by decide) (by decide)
      (by decide)
  · exact proper_mk 0 21 (by decide) (by decide) (by decide)
      (by decide)
  · exact proper_mk 6 21 (toUInt64_ne_zero hpages) (by decide)
      (by decide) (by decide)
  · exact proper_mk 2 21 hmeta (by decide) (by decide) (by decide)
  · exact proper_mk 4 21 hmeta (by decide) (by decide) (by decide)
  · exact proper_mk 6 21 hbitmaps (by decide) (by decide) (by decide)
  · exact proper_mk 5 21 (by decide) (by decide) (by decide)
      (by decide)
  · exact proper_mk 6 21 (by decide) (by decide) (by decide)
      (by decide)

/-! ## The estimate -/

variable {config : BookManagerConfig} {pageSize w : UInt64}

theorem mappedBytes_spec (h : spec.Proper) (hpage : pageSize.toNat.isPowerOfTwo) :
    SizeT.mappedBytes spec.count spec.elementBytes spec.elementAlignment spec.requestedAlignment
      pageSize = .ok w
      ↔ spec.Fits pageSize.toNat ∧ w.toNat = spec.mappedBytes pageSize.toNat := by
  rw [← mappedBytes_eq_ok h hpage, ← SizeT.mappedBytes_toNat]
  cases SizeT.mappedBytes spec.count spec.elementBytes spec.elementAlignment
    spec.requestedAlignment pageSize with
  | error e => exact iff_of_false (fun h => nomatch h) fun h => nomatch h
  | ok v =>
    show Except.ok v = Except.ok w ↔ Except.ok v.toNat = Except.ok w.toNat
    rw [Except.ok.injEq, Except.ok.injEq, UInt64.toNat_inj]

theorem checkedAdd_spec {a b r : UInt64} :
    SizeT.checkedAdd a b = .ok r ↔ a.toNat + b.toNat < 2 ^ 64 ∧ r = a + b := by
  have hb := b.toNat_lt
  unfold SizeT.checkedAdd
  by_cases h : a.toNat + b.toNat < 2 ^ 64
  · rw [if_neg, Except.ok.injEq, eq_comm, and_iff_right h]
    rw [UInt64.lt_iff_toNat_lt, SizeT.toNat_sizeMax_sub, sizeMax]
    omega
  · rw [if_pos]
    · exact iff_of_false (fun hok => nomatch hok) fun hr => h hr.1
    · rw [UInt64.lt_iff_toNat_lt, SizeT.toNat_sizeMax_sub, sizeMax]
      omega

theorem foldlM_spec (words : List UInt64) (total r : UInt64) :
    words.foldlM SizeT.checkedAdd total = .ok r
      ↔ total.toNat + (words.map UInt64.toNat).sum < 2 ^ 64
        ∧ r.toNat = total.toNat + (words.map UInt64.toNat).sum := by
  induction words generalizing total with
  | nil =>
    have := total.toNat_lt
    show Except.ok total = Except.ok r ↔ _
    rw [Except.ok.injEq, List.map_nil, List.sum_nil, Nat.add_zero, UInt64.toNat_inj, eq_comm]
    exact (and_iff_right this).symm
  | cons word words ih =>
    rw [List.foldlM_cons, bind_eq_ok, List.map_cons, List.sum_cons, ← Nat.add_assoc]
    constructor
    · rintro ⟨sum, hsum, hr⟩
      obtain ⟨hlt, rfl⟩ := checkedAdd_spec.1 hsum
      rw [ih, UInt64.toNat_add, Nat.mod_eq_of_lt hlt] at hr
      exact hr
    · intro hr
      have hlt : total.toNat + word.toNat < 2 ^ 64 := by omega
      refine ⟨total + word, checkedAdd_spec.2 ⟨hlt, rfl⟩, (ih _).2 ?_⟩
      rw [UInt64.toNat_add, Nat.mod_eq_of_lt hlt]
      exact hr

theorem checkedMultiply_const {a b r : UInt64} (h : SizeT.checkedMultiply a b = .ok r) :
    r = a * b := by
  unfold SizeT.checkedMultiply at h
  split_ifs at h
  exact (Except.ok.inj h).symm

theorem checkedMultiply_spec {a b : UInt64} (h : a.toNat * b.toNat < 2 ^ 64) :
    SizeT.checkedMultiply a b = .ok (a * b) := by
  have hnat := checkedMultiply_eq_ok.2 ⟨h, rfl⟩
  rw [← SizeT.checkedMultiply_toNat] at hnat
  cases hr : SizeT.checkedMultiply a b with
  | error e =>
    rw [hr] at hnat
    exact nomatch hnat
  | ok r => rw [checkedMultiply_const hr]

theorem page_check (hpage : pageSize.toNat.isPowerOfTwo) :
    ¬ (!MappedArray.isPowerOfTwo pageSize) = true := by
  rw [SizeT.isPowerOfTwo_toNat, SizeT.isPowerOfTwo_iff.2 hpage]
  decide

/-- What an estimate that succeeds says. -/
theorem estimate_ok {fp : BookStorageFootprint} (hpage : pageSize.toNat.isPowerOfTwo)
    (h : SizeT.estimateBookStorageFootprint config pageSize = .ok fp) :
    validateConfig config = .ok ()
      ∧ (∀ spec ∈ arenas config ++ [descriptorArena], spec.Fits pageSize.toNat)
      ∧ arenaBytes fp = (arenas config).map (fun spec => spec.mappedBytes pageSize.toNat)
      ∧ fp.mappedArrayBytes = (arenaBytes fp).sum
      ∧ fp.descriptorMappedBytes = descriptorArena.mappedBytes pageSize.toNat
      ∧ fp.plannedStorageBytes = fp.mappedArrayBytes + fp.descriptorMappedBytes
      ∧ fp.plannedStorageBytes < 2 ^ 64 := by
  unfold SizeT.estimateBookStorageFootprint at h
  obtain ⟨⟨⟩, hvalid, h⟩ := bind_eq_ok.1 h
  have hproper := arenas_proper hvalid
  simp only [arenas, OrderTable.arenas, PriceLevelStore.arenas, List.cons_append, List.nil_append,
    List.forall_mem_cons] at hproper
  obtain ⟨p1, p2, p3, p4, p5, p6, p7, p8, p9, p10, -⟩ := hproper
  rw [if_neg (page_check hpage)] at h
  obtain ⟨w1, h1, h⟩ := bind_eq_ok.1 h
  obtain ⟨w2, h2, h⟩ := bind_eq_ok.1 h
  obtain ⟨w3, h3, h⟩ := bind_eq_ok.1 h
  obtain ⟨w4, h4, h⟩ := bind_eq_ok.1 h
  obtain ⟨w5, h5, h⟩ := bind_eq_ok.1 h
  obtain ⟨slots, hslots, h⟩ := bind_eq_ok.1 h
  obtain ⟨-, rfl⟩ := checkedAdd_spec.1 hslots
  obtain ⟨w6, h6, h⟩ := bind_eq_ok.1 h
  obtain ⟨w7, h7, h⟩ := bind_eq_ok.1 h
  obtain ⟨bitmaps, hbitmaps, h⟩ := bind_eq_ok.1 h
  obtain rfl := checkedMultiply_const hbitmaps
  obtain ⟨w8, h8, h⟩ := bind_eq_ok.1 h
  obtain ⟨w9, h9, h⟩ := bind_eq_ok.1 h
  obtain ⟨bookBitmaps, hbookBitmaps, h⟩ := bind_eq_ok.1 h
  obtain rfl := checkedMultiply_const hbookBitmaps
  obtain ⟨w10, h10, h⟩ := bind_eq_ok.1 h
  obtain ⟨total, htotal, h⟩ := bind_eq_ok.1 h
  obtain ⟨slotBytes, -, h⟩ := bind_eq_ok.1 h
  obtain ⟨descriptors, hdescriptors, h⟩ := bind_eq_ok.1 h
  obtain ⟨planned, hplanned, h⟩ := bind_eq_ok.1 h
  obtain rfl := Except.ok.inj h
  obtain ⟨f1, h1⟩ := (mappedBytes_spec p1 hpage).1 h1
  obtain ⟨f2, h2⟩ := (mappedBytes_spec p2 hpage).1 h2
  obtain ⟨f3, h3⟩ := (mappedBytes_spec p3 hpage).1 h3
  obtain ⟨f4, h4⟩ := (mappedBytes_spec p4 hpage).1 h4
  obtain ⟨f5, h5⟩ := (mappedBytes_spec p5 hpage).1 h5
  obtain ⟨f6, h6⟩ := (mappedBytes_spec p6 hpage).1 h6
  obtain ⟨f7, h7⟩ := (mappedBytes_spec p7 hpage).1 h7
  obtain ⟨f8, h8⟩ := (mappedBytes_spec p8 hpage).1 h8
  obtain ⟨f9, h9⟩ := (mappedBytes_spec p9 hpage).1 h9
  obtain ⟨f10, h10⟩ := (mappedBytes_spec p10 hpage).1 h10
  obtain ⟨fd, hd⟩ := (mappedBytes_spec descriptorArena_proper hpage).1 hdescriptors
  refine ⟨hvalid, ?_, ?_, ?_, hd, ?_, planned.toNat_lt⟩
  · simp only [arenas, OrderTable.arenas, PriceLevelStore.arenas, List.cons_append,
      List.nil_append, List.forall_mem_cons]
    exact ⟨f1, f2, f3, f4, f5, f6, f7, f8, f9, f10, fd, fun _ hn => nomatch hn⟩
  · show [w1.toNat, w2.toNat, w3.toNat, w4.toNat, w5.toNat, w6.toNat, w7.toNat, w8.toNat,
      w9.toNat, w10.toNat] = _
    rw [h1, h2, h3, h4, h5, h6, h7, h8, h9, h10]
    rfl
  · exact ((foldlM_spec _ _ _).1 htotal).2
  · obtain ⟨hlt, rfl⟩ := checkedAdd_spec.1 hplanned
    exact (UInt64.toNat_add _ _).trans (Nat.mod_eq_of_lt hlt)

/-- Where every size and every sum fits, the estimate succeeds. -/
theorem estimate_of_fits (hpage : pageSize.toNat.isPowerOfTwo)
    (hvalid : validateConfig config = .ok ())
    (hfits : ∀ spec ∈ arenas config ++ [descriptorArena], spec.Fits pageSize.toNat)
    (hsum : ((arenas config ++ [descriptorArena]).map
      fun spec => spec.mappedBytes pageSize.toNat).sum < 2 ^ 64) :
    ∃ fp, SizeT.estimateBookStorageFootprint config pageSize = .ok fp := by
  have hproper := arenas_proper hvalid
  simp only [arenas, OrderTable.arenas, PriceLevelStore.arenas, List.cons_append, List.nil_append,
    List.forall_mem_cons] at hproper hfits
  have hword : ∀ {spec : ArenaSpec}, spec.Proper → spec.Fits pageSize.toNat → ∃ w,
      SizeT.mappedBytes spec.count spec.elementBytes spec.elementAlignment
        spec.requestedAlignment pageSize = .ok w ∧ w.toNat = spec.mappedBytes pageSize.toNat := by
    intro spec hp hf
    have hlt : spec.mappedBytes pageSize.toNat < 2 ^ 64 := by
      have := hf.2 hp.logical
      omega
    have hw := UInt64.toNat_ofNat_of_lt hlt
    exact ⟨_, (mappedBytes_spec hp hpage).2 ⟨hf, hw⟩, hw⟩
  obtain ⟨p1, p2, p3, p4, p5, p6, p7, p8, p9, p10, -⟩ := hproper
  obtain ⟨f1, f2, f3, f4, f5, f6, f7, f8, f9, f10, fd, -⟩ := hfits
  obtain ⟨w1, h1, e1⟩ := hword p1 f1
  obtain ⟨w2, h2, e2⟩ := hword p2 f2
  obtain ⟨w3, h3, e3⟩ := hword p3 f3
  obtain ⟨w4, h4, e4⟩ := hword p4 f4
  obtain ⟨w5, h5, e5⟩ := hword p5 f5
  obtain ⟨w6, h6, e6⟩ := hword p6 f6
  obtain ⟨w7, h7, e7⟩ := hword p7 f7
  obtain ⟨w8, h8, e8⟩ := hword p8 f8
  obtain ⟨w9, h9, e9⟩ := hword p9 f9
  obtain ⟨w10, h10, e10⟩ := hword p10 f10
  obtain ⟨wd, hd, ed⟩ := hword descriptorArena_proper fd
  have hcapacity := config.prices.pageCapacity.toNat_lt
  have hslots : SizeT.checkedAdd config.prices.pageCapacity.toUInt64 1
      = .ok (config.prices.pageCapacity.toUInt64 + 1) := by
    refine checkedAdd_spec.2 ⟨?_, rfl⟩
    rw [UInt32.toNat_toUInt64]
    show config.prices.pageCapacity.toNat + 1 < 2 ^ 64
    omega
  have hbitmaps : SizeT.checkedMultiply (config.prices.pageCapacity.toUInt64 + 1)
      SizeT.kSideCount = .ok ((config.prices.pageCapacity.toUInt64 + 1) * SizeT.kSideCount) := by
    refine checkedMultiply_spec ?_
    rw [toNat_pageSlots]
    show (config.prices.pageCapacity.toNat + 1) * 2 < 2 ^ 64
    omega
  generalize hrest : ([w2, w3, w4, w5, w6, w7, w8, w9, w10].map UInt64.toNat).sum = rest
  have hwords : (arenas config).map (fun spec => spec.mappedBytes pageSize.toNat)
      = [w1, w2, w3, w4, w5, w6, w7, w8, w9, w10].map UInt64.toNat := by
    show _ = [w1.toNat, w2.toNat, w3.toNat, w4.toNat, w5.toNat, w6.toNat, w7.toNat, w8.toNat,
      w9.toNat, w10.toNat]
    rw [e1, e2, e3, e4, e5, e6, e7, e8, e9, e10]
    rfl
  have hsum' : w1.toNat + rest + wd.toNat < 2 ^ 64 := by
    rw [List.map_append, List.sum_append, hwords, List.map_cons, List.sum_cons, hrest,
      List.map_singleton, List.sum_singleton, ← ed] at hsum
    exact hsum
  have htotal : w1.toNat + rest < 2 ^ 64 := Nat.lt_of_le_of_lt (Nat.le_add_right _ _) hsum'
  obtain ⟨total, heq⟩ : ∃ total : UInt64, total.toNat = w1.toNat + rest :=
    ⟨_, UInt64.toNat_ofNat_of_lt htotal⟩
  have hplanned : total.toNat + wd.toNat < 2 ^ 64 := by rwa [heq]
  refine exists_bind hvalid ?_
  rw [if_neg (page_check hpage)]
  refine exists_bind h1 (exists_bind h2 (exists_bind h3 (exists_bind h4 (exists_bind h5 ?_))))
  refine exists_bind hslots (exists_bind h6 (exists_bind h7 ?_))
  refine exists_bind hbitmaps (exists_bind h8 (exists_bind h9 ?_))
  refine exists_bind (checkedMultiply_spec (by decide)) (exists_bind h10 ?_)
  refine exists_bind ((foldlM_spec _ w1 total).2 ⟨hrest ▸ htotal, hrest ▸ heq⟩) ?_
  refine exists_bind (checkedMultiply_spec (by decide)) (exists_bind hd ?_)
  exact exists_bind (checkedAdd_spec.2 ⟨hplanned, rfl⟩) ⟨_, rfl⟩

end BookStorage

/-! ## The mappings -/

namespace ArenaSpec

open MappedArray (checkedBytes normalizeAlignment)

variable {spec : ArenaSpec} {pageSize : UInt64}

theorem checkedBytes_spec (h : spec.Proper) (hfit : spec.logicalBytes < 2 ^ 64) :
    checkedBytes spec.count spec.elementBytes = .ok (spec.count * spec.elementBytes)
      ∧ (spec.count * spec.elementBytes).toNat = spec.logicalBytes := by
  have hpos : 0 < spec.elementBytes.toNat :=
    Nat.pos_of_ne_zero fun h0 => h.bytes (UInt64.toNat_inj.1 h0)
  refine ⟨if_neg ?_, (UInt64.toNat_mul _ _).trans (Nat.mod_eq_of_lt hfit)⟩
  rw [UInt64.lt_iff_toNat_lt, SizeT.toNat_sizeMax_div, Nat.div_lt_iff_lt_mul hpos,
    BookStorage.sizeMax]
  unfold logicalBytes at hfit
  omega

theorem normalizeAlignment_spec (h : spec.Proper) (hpage : pageSize.toNat.isPowerOfTwo) :
    ∃ alignment : UInt64, normalizeAlignment spec.requestedAlignment spec.elementAlignment pageSize
      = .ok alignment ∧ alignment.toNat = spec.alignment pageSize.toNat := by
  have halign := SizeT.toNat_alignment spec.requestedAlignment spec.elementAlignment pageSize
  rw [if_neg (Nat.pos_of_isPowerOfTwo h.requested).ne', ← h.alignment_eq] at halign
  refine ⟨_, if_neg ?_, halign⟩
  dsimp only at halign ⊢
  rw [SizeT.isPowerOfTwo_toNat, halign,
    SizeT.isPowerOfTwo_iff.2 (h.alignment_isPowerOfTwo hpage), ne_eq, ← UInt64.toNat_inj,
    UInt64.toNat_mod, halign, Nat.mod_eq_zero_of_dvd (h.page_dvd hpage)]
  simp

/-- An arena that fits is mapped to its size. -/
theorem mapsTo (h : spec.Proper) (hpage : pageSize.toNat.isPowerOfTwo)
    (hfits : spec.Fits pageSize.toNat) : spec.MapsTo pageSize (spec.mappedBytes pageSize.toNat) := by
  obtain ⟨hbytes, hlogical⟩ := checkedBytes_spec h hfits.1
  obtain ⟨alignment, hok, halign⟩ := normalizeAlignment_spec h hpage
  have hpow := h.alignment_isPowerOfTwo hpage
  have hpos := Nat.pos_of_isPowerOfTwo hpow
  have hle := logical_le_mapped h hpage
  have hrequest := hfits.2 h.logical
  have hlt := alignment.toNat_lt
  have hne : ¬ spec.count * spec.elementBytes = 0 := by
    intro h0
    rw [h0] at hlogical
    exact h.logical hlogical.symm
  have hrounded : ((spec.count * spec.elementBytes + alignment - 1) &&& ~~~(alignment - 1)).toNat
      = spec.mappedBytes pageSize.toNat := by
    rw [toNat_roundUp (by rwa [halign]), hlogical, halign]
    · rfl
    · rw [hlogical, halign]
      omega
  generalize hround : (spec.count * spec.elementBytes + alignment - 1) &&& ~~~(alignment - 1)
    = rounded at hrounded
  have hroundUp : MappedArray.roundUp (spec.count * spec.elementBytes) alignment = .ok rounded := by
    rw [← hround]
    refine if_neg ?_
    rw [UInt64.lt_iff_toNat_lt, SizeT.toNat_sizeMax_sub, toNat_sub_one (halign ▸ hpos), hlogical,
      halign, BookStorage.sizeMax]
    omega
  have hcheck : ¬ MappedArray.sizeMax - alignment < rounded := by
    rw [UInt64.lt_iff_toNat_lt, SizeT.toNat_sizeMax_sub, hrounded, halign, BookStorage.sizeMax]
    omega
  refine ⟨⟨spec.count, spec.count * spec.elementBytes, alignment, rounded, rounded + alignment⟩, ?_,
    hlogical, halign, hrounded, ?_, hle, ?_⟩
  · refine BookStorage.bind_eq_ok.2 ⟨_, hbytes, BookStorage.bind_eq_ok.2 ⟨_, hok, ?_⟩⟩
    rw [if_neg hne]
    refine BookStorage.bind_eq_ok.2 ⟨_, hroundUp, ?_⟩
    rw [if_neg hcheck]
  · rw [UInt64.toNat_add, Nat.mod_eq_of_lt, hrounded]
    rwa [hrounded, halign]
  · rw [halign]
    exact alignment_dvd_mapped spec _

end ArenaSpec

namespace BookStorage

/-- The estimate agrees with the mappings: where it succeeds, each of its sizes is what
`MappedArray` maps for the arena, and its sums are exact; it fails exactly when the configuration is
rejected or a product, a rounding or a sum does not fit. It is the footprint the manager keeps. -/
theorem footprint_agrees (config : BookManagerConfig) (pageSize : UInt64)
    (hpage : pageSize.toNat.isPowerOfTwo) :
    (∀ fp, SizeT.estimateBookStorageFootprint config pageSize = .ok fp →
      List.Forall₂ (fun spec bytes => spec.MapsTo pageSize bytes) (arenas config) (arenaBytes fp)
        ∧ fp.mappedArrayBytes = (arenaBytes fp).sum
        ∧ descriptorArena.MapsTo pageSize fp.descriptorMappedBytes
        ∧ fp.plannedStorageBytes = fp.mappedArrayBytes + fp.descriptorMappedBytes
        ∧ fp.plannedStorageBytes < 2 ^ 64)
    ∧ ((∃ e, SizeT.estimateBookStorageFootprint config pageSize = .error e)
      ↔ (∃ e, validateConfig config = .error e)
        ∨ (∃ spec ∈ arenas config ++ [descriptorArena], ¬ spec.Fits pageSize.toNat)
        ∨ 2 ^ 64 ≤ ((arenas config ++ [descriptorArena]).map
          fun spec => spec.mappedBytes pageSize.toNat).sum)
    ∧ ∀ books, BookManager.create config pageSize.toNat = .ok books →
      SizeT.estimateBookStorageFootprint config pageSize = .ok books.storageFootprint := by
  refine ⟨fun fp hok => ?_, ⟨?_, ?_⟩, fun books hbooks => ?_⟩
  · obtain ⟨hvalid, hfits, hbytes, hsum, hdescriptor, hplanned, hlt⟩ := estimate_ok hpage hok
    refine ⟨?_, hsum, ?_, hplanned, hlt⟩
    · rw [hbytes, List.forall₂_map_right_iff, List.forall₂_same]
      intro spec hspec
      exact ArenaSpec.mapsTo (arenas_proper hvalid spec hspec) hpage
        (hfits spec (List.mem_append_left _ hspec))
    · rw [hdescriptor]
      exact ArenaSpec.mapsTo descriptorArena_proper hpage
        (hfits _ (List.mem_append_right _ (List.mem_singleton_self _)))
  · rintro ⟨e, herror⟩
    by_contra hno
    simp only [not_or, not_exists, not_and, not_not, not_le] at hno
    obtain ⟨hvalid, hfits, hsum⟩ := hno
    have hvalid' : validateConfig config = .ok () := by
      cases hres : validateConfig config with
      | error e => exact absurd hres (hvalid e)
      | ok u => rfl
    obtain ⟨fp, hok⟩ := estimate_of_fits hpage hvalid' hfits hsum
    rw [herror] at hok
    exact nomatch hok
  · intro hcase
    cases hres : SizeT.estimateBookStorageFootprint config pageSize with
    | error e => exact ⟨e, rfl⟩
    | ok fp =>
      obtain ⟨hvalid, hfits, hbytes, hsum, hdescriptor, hplanned, hlt⟩ := estimate_ok hpage hres
      exfalso
      rcases hcase with ⟨e, he⟩ | ⟨spec, hspec, hnot⟩ | hle
      · rw [hvalid] at he
        exact nomatch he
      · exact hnot (hfits spec hspec)
      · rw [List.map_append, List.sum_append, ← hbytes, ← hsum, List.map_singleton,
          List.sum_singleton, ← hdescriptor, ← hplanned] at hle
        omega
  · rw [SizeT.estimate_toNat]
    unfold BookManager.create at hbooks
    cases hfp : estimateBookStorageFootprint config pageSize.toNat with
    | error e =>
      rw [hfp] at hbooks
      cases hbooks
    | ok fp =>
      rw [hfp] at hbooks
      cases hbooks
      rfl

/-- The smallest configuration, on pages of 4096 bytes. -/
theorem footprint_agrees_smallest :
    ∃ fp, SizeT.estimateBookStorageFootprint ⟨⟨1, 1⟩, ⟨1⟩⟩ 4096 = .ok fp
      ∧ List.Forall₂ (fun spec bytes => ArenaSpec.MapsTo spec 4096 bytes)
        (arenas ⟨⟨1, 1⟩, ⟨1⟩⟩) (arenaBytes fp) := by
  have hpage : (4096 : UInt64).toNat.isPowerOfTwo := ⟨12, rfl⟩
  have hok : (SizeT.estimateBookStorageFootprint ⟨⟨1, 1⟩, ⟨1⟩⟩ 4096).isOk = true := by
    decide +kernel
  cases hfp : SizeT.estimateBookStorageFootprint ⟨⟨1, 1⟩, ⟨1⟩⟩ 4096 with
  | error e =>
    rw [hfp] at hok
    exact nomatch hok
  | ok fp => exact ⟨fp, rfl, ((footprint_agrees _ _ hpage).1 fp hfp).1⟩

end BookStorage

end AstraFeed
