import AstraFeed.BookCapacityProfile
import AstraFeed.Proofs.ItchParser
import AstraFeed.Proofs.PageUse

/-!
# What an accepted capacity profile promises

A page is taken only by an operation that is applied, and never given back, so the committed pages
are at most the pairs touched. As long as a run keeps to the profile and its reserve, neither the
direct slots nor the pages run out (`capacity_admission`).
-/

namespace AstraFeed

open BookContext OrderBook PriceLevelStore

/-! ## What a step takes -/

/-- What an operation of a manager may find exhausted, and which roots it may set. -/
structure Takes (m : BookManager) (op : BookOp) (out : MutationResult × BookManager) : Prop where
  table : out.1 = .orderTableCapacityExceeded →
    ∃ r ∈ op.newReference, m.orders.config.directSlots ≤ r
  arena : out.1 = .pricePageCapacityExceeded → ∃ l p, (l, p) ∈ op.pagePair ∧ p < kPricePartCount
    ∧ m.prices.rootAt l p = kInvalidPricePageHandle
    ∧ m.prices.config.pageCapacity ≤ m.prices.committedPages
  config : out.2.config = m.config
  pricesConfig : out.2.prices.config = m.prices.config
  roots : ∀ l p, p < kPricePartCount → out.2.prices.rootAt l p = m.prices.rootAt l p
    ∨ out.1 = .applied ∧ (l, p) ∈ op.pagePair

section Step

variable {m : BookManager} {b : BookModel} {l : UInt16} {op : BookOp}
  {f : BookContext → MutationResult × BookContext}

theorem takes_same {e : MutationResult} (he : ¬ IsExhausted e) : Takes m op (e, m) :=
  ⟨fun h => absurd (.inl h) he, fun h => absurd (.inr h) he, rfl, rfl, fun _ _ _ => .inl rfl⟩

theorem takes_of_nothing (hf : ∀ c, UsesNothing c (f c)) : Takes m op (m.routed l f) := by
  unfold BookManager.routed
  cases m.find l with
  | none => exact takes_same (by simp [IsExhausted])
  | some book =>
    have hu := hf ⟨book, m.orders, m.prices⟩
    refine ⟨fun h => (hu.table h).elim, fun h => (hu.arena h).elim, rfl, hu.pages.config,
      fun l p _ => .inl ?_⟩
    exact hu.pages.roots _ (by simp)

theorem rootIndex_inj {l l' : UInt16} {p q : ℕ} (hp : p < kPricePartCount)
    (hq : q < kPricePartCount)
    (h : l.toNat * kPricePartCount + p = l'.toNat * kPricePartCount + q) : l = l' ∧ p = q := by
  unfold kPricePartCount at *
  refine ⟨UInt16.toNat_inj.1 ?_, ?_⟩ <;> omega

/-- An add or a replace at a price in range. -/
theorem takes_of_uses (h : Refines m b) {r price : UInt64} (hr : r ∈ op.newReference)
    (hpair : op.pagePair
      = if isValidItchPrice4 price then some (l, price.toNat / kPricePartCount) else none)
    (hvalid : b.Admits op → isValidItchPrice4 price = true) (hout : m.perform op = m.routed l f)
    (hf : ∀ c, Uses (c.orders.config.directSlots ≤ r)
      (c.prices.roots (priceRootIndex c.book.stockLocate (splitPrice price.toUInt32).pageIndex)
          = kInvalidPricePageHandle ∧ c.prices.config.pageCapacity ≤ c.prices.committedPages)
      c.prices (some (priceRootIndex c.book.stockLocate (splitPrice price.toUInt32).pageIndex))
      (f c)) :
    Takes m op (m.perform op) := by
  have hstep := h.perform op
  have hkept := ItchParser.booksKept_perform h op
  rw [hout] at hstep hkept ⊢
  unfold BookManager.routed at hstep hkept ⊢
  rw [h.find_eq] at hstep hkept ⊢
  cases hb : m.books l with
  | none => exact takes_same (by simp [IsExhausted])
  | some book =>
    rw [hb] at hstep hkept
    dsimp only at hstep hkept ⊢
    have hu := hf ⟨book, m.orders, m.prices⟩
    have hl : book.stockLocate = l := (h.book l book hb).stockLocate
    dsimp only at hu
    rw [hl, priceRootIndex_eq, splitPrice_pageIndex] at hu
    have hpage : isValidItchPrice4 price = true →
        (l, price.toUInt32.toNat / kPricePartCount) ∈ op.pagePair := by
      intro hv
      rw [hpair, if_pos hv, decodeSide_toNat hv]
      rfl
    have hlt : price.toUInt32.toNat / kPricePartCount < kPricePartCount := by
      have := price.toUInt32.toNat_lt
      unfold kPricePartCount
      omega
    refine ⟨fun ht => ⟨r, hr, hu.table ht⟩, fun ha => ?_, rfl, hu.pages.config,
      fun l' p hp => ?_⟩
    · exact ⟨l, _, hpage (hvalid (hstep.capacity (.inr (.inl ha)))), hlt, hu.arena ha⟩
    · by_cases happ : (f ⟨book, m.orders, m.prices⟩).1 = .applied
      · by_cases heq : l'.toNat * kPricePartCount + p
          = l.toNat * kPricePartCount + price.toUInt32.toNat / kPricePartCount
        · obtain ⟨rfl, rfl⟩ := rootIndex_inj hp hlt heq
          have hadm := (hstep.applied_iff (by simp [IsCapacity, happ])).1 happ
          exact .inr ⟨happ, hpage (hvalid hadm)⟩
        · exact .inl (hu.pages.roots _ fun hs => heq (Option.some.inj hs))
      · obtain ⟨n, hn⟩ := (hkept happ).prices
        left
        dsimp only at hn ⊢
        rw [hn]
        rfl

theorem Refines.perform_takes (h : Refines m b) (op : BookOp) : Takes m op (m.perform op) := by
  cases op with
  | getOrCreate l =>
    rcases h.getOrCreate_cases l with ⟨_, hout⟩ | ⟨_, _, book, _, hout⟩ | ⟨_, _, _, _, hout⟩
    · simp only [BookManager.perform, hout]
      exact takes_same (by simp [IsExhausted])
    · simp only [BookManager.perform, hout]
      exact takes_same (by simp [IsExhausted])
    · simp only [BookManager.perform, hout]
      exact ⟨by simp, by simp, rfl, rfl, fun _ _ _ => .inl rfl⟩
  | addOrder l orderId price qty side timestamp =>
    exact takes_of_uses (l := l) h rfl rfl (fun ha => ha.2.2.2.1) rfl
      fun c => addOrder_uses orderId price qty side timestamp
  | executeOrder l orderId qty timestamp =>
    exact takes_of_nothing fun c => executeOrder_uses orderId qty timestamp
  | cancelShares l orderId qty timestamp =>
    exact takes_of_nothing fun c => cancelShares_uses orderId qty timestamp
  | deleteOrder l orderId timestamp =>
    exact takes_of_nothing fun c => deleteOrder_uses orderId timestamp
  | replaceOrder l oldId newId newPrice newQty timestamp =>
    exact takes_of_uses (l := l) h rfl rfl (fun ha => ha.2.2.2.1) rfl
      fun c => replaceOrder_uses oldId newId newPrice newQty timestamp

/-- An admitted operation is applied where nothing is full. -/
theorem Refines.perform_applied (h : Refines m b) (hadmits : b.Admits op) (hfull : ¬ b.Full op)
    (hslots : ∀ r ∈ op.newReference, r < m.orders.config.directSlots)
    (hpages : ∀ l p, (l, p) ∈ op.pagePair → p < kPricePartCount →
      m.prices.rootAt l p = kInvalidPricePageHandle →
      m.prices.committedPages < m.prices.config.pageCapacity) :
    (m.perform op).1 = .applied := by
  have hstep := h.perform op
  have htakes := h.perform_takes op
  by_contra hne
  have hcapacity : IsCapacity (m.perform op).1 := by
    by_contra hno
    exact hne ((hstep.applied_iff hno).2 hadmits)
  rcases hcapacity with htable | harena | hcount
  · obtain ⟨r, hr, hle⟩ := htakes.table htable
    exact absurd (hslots r hr) (UInt64.not_lt.2 hle)
  · obtain ⟨l, p, hpair, hp, hroot, hle⟩ := htakes.arena harena
    exact absurd (hpages l p hpair hp hroot) (UInt32.not_lt.2 hle)
  · exact hfull (hstep.full hcount)

end Step

/-- The committed pages are those the roots lead to. -/
theorem PriceLevelStore.ArenaInv.committedPages_eq {s : PriceLevelStore} (h : s.ArenaInv)
    {pairs : Finset (UInt16 × ℕ)} (hpairs : ∀ l p, (l, p) ∈ pairs ↔ p < kPricePartCount
      ∧ s.rootAt l p ≠ kInvalidPricePageHandle) : s.committedPages.toNat = pairs.card := by
  have hcommitted : ∀ n ∈ Finset.Icc 1 s.committedPages.toNat,
      ∃ handle : UInt32, handle.toNat = n ∧ s.Committed handle := by
    intro n hn
    rw [Finset.mem_Icc] at hn
    have hlt : n < 2 ^ 32 := by
      have := s.committedPages.toNat_lt
      omega
    have hn' : (UInt32.ofNat n).toNat = n := UInt32.toNat_ofNat_of_lt hlt
    refine ⟨.ofNat n, hn', fun h0 => ?_, UInt32.le_iff_toNat_le.2 (hn'.trans_le hn.2)⟩
    rw [h0] at hn'
    exact absurd hn.1 (hn' ▸ by decide)
  have howner : ∀ handle, s.Committed handle → s.rootAt (s.pageOwners handle.toNat).stockLocate
      (s.pageOwners handle.toNat).pageIndex.toNat = handle :=
    fun handle hc => (h.root_iff _ _ _ (UInt16.toNat_lt _) hc.1).2 ⟨hc, rfl, rfl⟩
  have hcard : (Finset.Icc 1 s.committedPages.toNat).card = pairs.card := by
    refine Finset.card_bij
      (fun n _ => ((s.pageOwners n).stockLocate, (s.pageOwners n).pageIndex.toNat)) ?_ ?_ ?_
    · intro n hn
      obtain ⟨handle, rfl, hc⟩ := hcommitted n hn
      rw [hpairs, howner handle hc]
      exact ⟨UInt16.toNat_lt _, hc.1⟩
    · intro n hn k hk heq
      obtain ⟨handle, rfl, hc⟩ := hcommitted n hn
      obtain ⟨handle', rfl, hc'⟩ := hcommitted k hk
      obtain ⟨hl, hp⟩ := Prod.mk.inj heq
      rw [← howner handle hc, ← howner handle' hc', hl, hp]
    · rintro ⟨l, p⟩ hpair
      obtain ⟨hp, hne⟩ := (hpairs l p).1 hpair
      obtain ⟨hc, hl, hindex⟩ := (h.root_iff l p _ hp hne).1 rfl
      refine ⟨(s.rootAt l p).toNat, Finset.mem_Icc.2 ⟨?_, UInt32.le_iff_toNat_le.1 hc.2⟩, ?_⟩
      · rw [Nat.one_le_iff_ne_zero]
        exact fun h0 => hc.1 (UInt32.toNat_inj.1 h0)
      · rw [hl, hindex]
  rwa [Nat.card_Icc, Nat.add_sub_cancel] at hcard

/-! ## What a run takes -/

section Run

variable {config : BookManagerConfig} {m : BookManager} {b : BookModel}
  {touched : List (UInt16 × ℕ)}

/-- A manager of a configuration whose pages all belong to pairs touched. -/
structure Touched (config : BookManagerConfig) (m : BookManager)
    (touched : List (UInt16 × ℕ)) : Prop where
  managerConfig : m.config = config
  pricesConfig : m.prices.config = config.prices
  roots : ∀ l p, p < kPricePartCount → m.prices.rootAt l p ≠ kInvalidPricePageHandle →
    (l, p) ∈ touched

theorem Touched.step (ht : Touched config m touched) (h : Refines m b) (op : BookOp) :
    Touched config (m.perform op).2 (touched
      ++ if (m.perform op).1 = .applied then op.pagePair.toList else []) := by
  have htakes := h.perform_takes op
  refine ⟨htakes.config.trans ht.managerConfig, htakes.pricesConfig.trans ht.pricesConfig,
    fun l p hp hne => ?_⟩
  rw [List.mem_append]
  rcases htakes.roots l p hp with hold | ⟨happ, hpair⟩
  · rw [hold] at hne
    exact .inl (ht.roots l p hp hne)
  · rw [if_pos happ]
    exact .inr (Option.mem_toList.2 hpair)

theorem Touched.run (ht : Touched config m touched) (h : Refines m b) (ops : List BookOp) :
    Touched config (m.run ops) (touched ++ m.touchedPages ops)
      ∧ ∃ b', Refines (m.run ops) b' := by
  induction ops generalizing m b touched with
  | nil =>
    rw [BookManager.touchedPages, List.append_nil]
    exact ⟨ht, b, h⟩
  | cons op ops ih =>
    rw [BookManager.touchedPages, ← List.append_assoc]
    exact ih (ht.step h op) (h.perform op).refines

theorem touched_fresh {systemPageBytes : ℕ}
    (h : BookManager.create config systemPageBytes = .ok m) : Touched config m [] := by
  obtain ⟨-, hcfg, -, hp, -⟩ := configOk_of_create h
  refine ⟨hcfg, congrArg PriceLevelStore.config hp, fun l p _ hne => absurd ?_ hne⟩
  rw [hp]
  rfl

/-- The committed pages and one without a root are distinct pairs. -/
theorem Touched.committed_lt (ht : Touched config m touched) (hI : m.prices.ArenaInv)
    {l : UInt16} {p : ℕ} (hroot : m.prices.rootAt l p = kInvalidPricePageHandle) :
    m.prices.committedPages.toNat < (touched ++ [(l, p)]).toFinset.card := by
  have hmem : (l, p) ∈ (touched ++ [(l, p)]).toFinset := by simp
  have hsub : touched.toFinset.filter (fun pair => pair.2 < kPricePartCount
      ∧ m.prices.rootAt pair.1 pair.2 ≠ kInvalidPricePageHandle)
      ⊆ (touched ++ [(l, p)]).toFinset.erase (l, p) := by
    rintro ⟨l', p'⟩ hpair
    obtain ⟨htouched, -, hne⟩ := Finset.mem_filter.1 hpair
    rw [Finset.mem_erase, List.toFinset_append]
    refine ⟨?_, Finset.mem_union_left _ htouched⟩
    rintro ⟨⟩
    exact hne hroot
  have hle := Finset.card_le_card hsub
  rw [← hI.committedPages_eq fun l' p' => ?_, Finset.card_erase_of_mem hmem] at hle
  · have := Finset.card_pos.2 ⟨_, hmem⟩
    omega
  · rw [Finset.mem_filter, List.mem_toFinset]
    exact and_iff_right_of_imp fun h => ht.roots l' p' h.1 h.2

end Run

/-! ## The validation -/

namespace BookCapacityProfile

variable {profile : BookCapacityProfile}

theorem toNat_firstFree {slots max : UInt64} (h : max < slots) :
    (max + 1).toNat = max.toNat + 1 ∧ (slots - (max + 1)).toNat = slots.toNat - (max.toNat + 1) := by
  have hlt := UInt64.lt_iff_toNat_lt.1 h
  have hslots := slots.toNat_lt
  have hone : (max + 1).toNat = max.toNat + 1 := by
    rw [UInt64.toNat_add]
    exact Nat.mod_eq_of_lt (show max.toNat + 1 < 2 ^ 64 by omega)
  refine ⟨hone, ?_⟩
  rw [UInt64.toNat_sub_of_le _ _ (UInt64.le_iff_toNat_le.2 (hone.trans_le hlt)), hone]

/-- No sum and no difference of the validation wraps, whatever the profile. -/
theorem validateExact_eq (profile : BookCapacityProfile) :
    validateExact profile = some ((validateBookCapacityProfile profile).map
      fun v => (v.directOrderReferenceSlots.toNat, v.pricePages.toNat)) := by
  unfold validateExact validateBookCapacityProfile
  cases validateFields profile with
  | error e => rfl
  | ok u =>
    dsimp only
    by_cases h1 : profile.config.orders.directSlots ≤ profile.evidence.profiledMaxOrderReference
    · rw [if_pos (UInt64.le_iff_toNat_le.1 h1)]
      show _ = some (Except.map _ (if _ then _ else _))
      rw [if_pos h1]
      rfl
    have hlt := UInt64.lt_iff_toNat_lt.1 (UInt64.not_le.1 h1)
    have hslots := profile.config.orders.directSlots.toNat_lt
    obtain ⟨hone, hfree⟩ := toNat_firstFree (UInt64.not_le.1 h1)
    have hadd : exactAdd profile.evidence.profiledMaxOrderReference.toNat 1
        = some (profile.evidence.profiledMaxOrderReference.toNat + 1) := if_pos (by omega)
    have hsub : exactSub profile.config.orders.directSlots.toNat
        (profile.evidence.profiledMaxOrderReference.toNat + 1)
        = some (profile.config.orders.directSlots
          - (profile.evidence.profiledMaxOrderReference + 1)).toNat := by
      rw [hfree]
      exact if_pos hlt
    rw [if_neg (Nat.not_le.2 hlt), hadd]
    show (exactSub _ _ >>= _) = some (Except.map _ (if _ then _ else _))
    rw [hsub, if_neg h1]
    show (if _ then _ else _) = some (Except.map _ (if _ then _ else _))
    by_cases h2 : profile.config.orders.directSlots
        - (profile.evidence.profiledMaxOrderReference + 1)
        < profile.minimumHeadroom.directOrderReferenceSlots
    · rw [if_pos h2, if_pos (UInt64.lt_iff_toNat_lt.1 h2)]
      rfl
    rw [if_neg h2, if_neg (mt UInt64.lt_iff_toNat_lt.2 h2)]
    by_cases h3 : profile.config.prices.pageCapacity ≤ profile.evidence.profiledUniquePricePages
    · rw [if_pos h3, if_pos (UInt32.le_iff_toNat_le.1 h3)]
      rfl
    have hpages := (UInt32.lt_iff_toNat_lt.1 (UInt32.not_le.1 h3)).le
    have hsub : exactSub profile.config.prices.pageCapacity.toNat
        profile.evidence.profiledUniquePricePages.toNat
        = some (profile.config.prices.pageCapacity
          - profile.evidence.profiledUniquePricePages).toNat := by
      rw [UInt32.toNat_sub_of_le _ _ (UInt32.le_iff_toNat_le.2 hpages)]
      exact if_pos hpages
    rw [if_neg h3, if_neg (mt UInt32.le_iff_toNat_le.2 h3), hsub]
    show (if _ then _ else _) = some (Except.map _ (if _ then _ else _))
    by_cases h4 : profile.config.prices.pageCapacity - profile.evidence.profiledUniquePricePages
        < profile.minimumHeadroom.pricePages
    · rw [if_pos h4, if_pos (UInt32.lt_iff_toNat_lt.1 h4)]
      rfl
    · rw [if_neg h4, if_neg (mt UInt32.lt_iff_toNat_lt.2 h4)]
      rfl

/-- The profiled maximum and its reserve lie in the direct slots, the profiled pages and their
reserve in the arena. -/
theorem validate_ok {v : BookCapacityHeadroom} (h : validateBookCapacityProfile profile = .ok v) :
    profile.evidence.profiledMaxOrderReference.toNat
        + profile.minimumHeadroom.directOrderReferenceSlots.toNat
        < profile.config.orders.directSlots.toNat
      ∧ profile.evidence.profiledUniquePricePages.toNat + profile.minimumHeadroom.pricePages.toNat
        ≤ profile.config.prices.pageCapacity.toNat := by
  unfold validateBookCapacityProfile at h
  obtain ⟨u, -, h⟩ := bind_eq_ok.1 h
  dsimp only at h
  split_ifs at h with h1 h2 h3 h4
  obtain ⟨hone, hfree⟩ := toNat_firstFree (UInt64.not_le.1 h1)
  have hmax := UInt64.lt_iff_toNat_lt.1 (UInt64.not_le.1 h1)
  have hdirect := UInt64.le_iff_toNat_le.1 (UInt64.not_lt.1 h2)
  have hpages := (UInt32.lt_iff_toNat_lt.1 (UInt32.not_le.1 h3)).le
  have hprices := UInt32.le_iff_toNat_le.1 (UInt32.not_lt.1 h4)
  rw [UInt32.toNat_sub_of_le _ _ (UInt32.le_iff_toNat_le.2 hpages)] at hprices
  exact ⟨by omega, by omega⟩

end BookCapacityProfile

/-! ## Admission -/

/-- An accepted profile admits: its validation computes without wrapping, and a run whose new
references and touched pages keep to the profile and its reserve meets no full table and no full
arena. -/
theorem capacity_admission (profile : BookCapacityProfile) :
    profile.validateExact = some (profile.validateBookCapacityProfile.map
      fun v => (v.directOrderReferenceSlots.toNat, v.pricePages.toNat))
    ∧ ∀ v systemPageBytes m (ops : List BookOp) op,
      profile.validateBookCapacityProfile = .ok v →
      BookManager.create profile.config systemPageBytes = .ok m →
      (∀ o ∈ ops ++ [op], ∀ r ∈ o.newReference,
        r.toNat ≤ profile.evidence.profiledMaxOrderReference.toNat
          + profile.minimumHeadroom.directOrderReferenceSlots.toNat) →
      (m.touchedPages ops ++ op.pagePair.toList).toFinset.card
        ≤ profile.evidence.profiledUniquePricePages.toNat
          + profile.minimumHeadroom.pricePages.toNat →
      ((m.run ops).perform op).1 ≠ .orderTableCapacityExceeded
        ∧ ((m.run ops).perform op).1 ≠ .pricePageCapacityExceeded := by
  refine ⟨BookCapacityProfile.validateExact_eq profile, ?_⟩
  intro v systemPageBytes m ops op hok hm hrefs hpages
  obtain ⟨hslots, hcapacity⟩ := BookCapacityProfile.validate_ok hok
  obtain ⟨ht, b, h⟩ := (touched_fresh hm).run (refines_fresh hm) ops
  have htakes := h.perform_takes op
  refine ⟨fun hfull => ?_, fun hfull => ?_⟩
  · obtain ⟨r, hr, hle⟩ := htakes.table hfull
    rw [h.ordersConfig, ht.managerConfig, UInt64.le_iff_toNat_le] at hle
    have := hrefs op (List.mem_append_right _ (List.mem_singleton_self op)) r hr
    omega
  · obtain ⟨l, p, hpair, -, hroot, hle⟩ := htakes.arena hfull
    have hlt := ht.committed_lt h.stores.store.arena hroot
    rw [ht.pricesConfig, UInt32.le_iff_toNat_le] at hle
    rw [List.nil_append] at hlt
    have hlist : op.pagePair.toList = [(l, p)] := by
      rw [Option.mem_def.1 hpair]
      rfl
    rw [hlist] at hpages
    omega

/-- Two pages and three direct slots. -/
def smallProfile : BookCapacityProfile :=
  ⟨[byte 'd'], List.replicate 64 (byte '0'), ⟨⟨3, 1⟩, ⟨2⟩⟩, ⟨1, 1⟩, ⟨1, 1⟩⟩

/-- An order at the last reference of the profile. -/
theorem capacity_admission_small : ∃ m,
    BookManager.create smallProfile.config 4096 = .ok m
      ∧ ((m.run [.getOrCreate 1]).perform (.addOrder 1 2 100 5 66 0)).1
        ≠ .orderTableCapacityExceeded := by
  obtain ⟨m, hm⟩ : ∃ m, BookManager.create smallProfile.config 4096 = .ok m := ⟨_, rfl⟩
  have hok : smallProfile.validateBookCapacityProfile = .ok ⟨1, 1⟩ := by rfl
  refine ⟨m, hm, ((capacity_admission smallProfile).2 _ _ m [.getOrCreate 1]
    (.addOrder 1 2 100 5 66 0) hok hm ?_ ?_).1⟩
  · intro o ho r hr
    simp only [List.cons_append, List.nil_append, List.mem_cons, List.not_mem_nil, or_false] at ho
    rcases ho with rfl | rfl
    · cases hr
    · obtain rfl := Option.some.inj hr
      decide
  · rw [BookManager.touchedPages, BookManager.touchedPages]
    simp only [BookOp.pagePair, Option.toList_none, ite_self, List.append_nil, List.nil_append]
    decide

end AstraFeed
