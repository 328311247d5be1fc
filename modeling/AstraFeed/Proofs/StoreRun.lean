import AstraFeed.StoreRun
import AstraFeed.Proofs.PriceLevelStore

/-!
# Runs of the price store

Every run keeps the representation invariant. In a run of the arena's caller the reservations it
holds can be committed in any order: pages are given out once, and an address that was committed
keeps decoding to the price it was asked for.
-/

namespace AstraFeed

namespace PriceLevelStore

variable {s : PriceLevelStore} {l : UInt16} {x : UInt32}

theorem StoreInv.step (hI : s.StoreInv) (op : StoreOp) : (s.step op).StoreInv := by
  cases op with
  | prepareBook l => exact hI.prepareBook l
  | reservePrice l x => exact hI.reservePrice l x
  | commitReservation r => exact hI.commitReservation r
  | add a side qty => exact hI.add a side qty
  | reduce a side current reduction => exact hI.reduce a side current reduction
  | reduceChecked l p a side current reduction =>
    exact hI.reduceChecked l p a side current reduction
  | erase a side qty => exact hI.erase a side qty
  | move a oldQty b newQty side => exact hI.move a oldQty b newQty side

theorem StoreInv.run (hI : s.StoreInv) (ops : List StoreOp) : (s.run ops).StoreInv := by
  induction ops generalizing s with
  | nil => exact hI
  | cons op ops ih => exact ih (hI.step op)

/-- After any operations on a fresh store, every summary, bitmap and cached best is what the
occupied levels say. -/
theorem storeInv_of_run (config : PriceLevelStoreConfig) (ops : List StoreOp) :
    ((fresh config).run ops).StoreInv := (fresh_inv config).run ops

/-! ## Later stores -/

/-- Pages committed in `s` are still committed in `s'`, to the same owners, and books stay prepared;
where no page was committed since, no root has changed. -/
structure Extends (s s' : PriceLevelStore) : Prop where
  config : s'.config = s.config
  committedPages : s.committedPages ≤ s'.committedPages
  pageOwners : ∀ h, s.Committed h → s'.pageOwners h.toNat = s.pageOwners h.toNat
  prepared : ∀ l, s.isBookPrepared l = true → s'.isBookPrepared l = true
  roots : s'.committedPages = s.committedPages → s'.roots = s.roots

theorem Extends.refl (s : PriceLevelStore) : Extends s s :=
  ⟨rfl, UInt32.le_refl _, fun _ _ => rfl, fun _ h => h, fun _ => rfl⟩

theorem Extends.committed {s' : PriceLevelStore} (h : Extends s s') {x : UInt32}
    (hx : s.Committed x) : s'.Committed x := ⟨hx.1, UInt32.le_trans hx.2 h.committedPages⟩

theorem Extends.trans {s' s'' : PriceLevelStore} (h : Extends s s') (h' : Extends s' s'') :
    Extends s s'' where
  config := h'.config.trans h.config
  committedPages := UInt32.le_trans h.committedPages h'.committedPages
  pageOwners := fun x hx => (h'.pageOwners x (h.committed hx)).trans (h.pageOwners x hx)
  prepared := fun l hl => h'.prepared l (h.prepared l hl)
  roots := fun heq => by
    -- nothing was committed on the way either
    have hmid : s'.committedPages = s.committedPages :=
      UInt32.le_antisymm (heq ▸ h'.committedPages) h.committedPages
    exact (h'.roots (heq.trans hmid.symm)).trans (h.roots hmid)

theorem prepareBook_extends (s : PriceLevelStore) (l : UInt16) :
    Extends s (s.prepareBook l).2 := by
  unfold prepareBook
  split_ifs
  · exact .refl s
  · refine ⟨rfl, UInt32.le_refl _, fun _ _ => rfl, fun l' hl' => ?_, fun _ => rfl⟩
    simp only [isBookPrepared, Bool.and_eq_true, bne_iff_ne, Function.update_apply] at hl' ⊢
    refine ⟨hl'.1, ?_⟩
    split_ifs
    · decide
    · exact hl'.2
  · exact .refl s

theorem reservePrice_extends (s : PriceLevelStore) (l : UInt16) (x : UInt32) :
    Extends s (s.reservePrice l x).2 := by
  unfold reservePrice
  dsimp only
  split_ifs
  all_goals try exact .refl s
  exact ⟨rfl, UInt32.le_refl _, fun _ _ => rfl, fun _ h => h, fun _ => rfl⟩

theorem withPage_extends {l p : UInt16} {h : UInt32} (hh : h = s.committedPages + 1)
    (h0 : h ≠ kInvalidPricePageHandle) : Extends s (s.withPage l p h) where
  config := rfl
  committedPages := by
    simp only [kInvalidPricePageHandle, ne_eq, ← UInt32.toNat_inj] at h0
    rw [UInt32.le_iff_toNat_le, withPage, hh]
    rw [hh, UInt32.toNat_add, show (1 : UInt32).toNat = 1 from rfl,
      show (0 : UInt32).toNat = 0 from rfl] at h0
    rw [UInt32.toNat_add, show (1 : UInt32).toNat = 1 from rfl]
    have := s.committedPages.toNat_lt
    omega
  pageOwners := fun x hx => by
    rw [pageOwners_withPage, if_neg]
    rintro rfl
    exact not_committed_next hh hx
  prepared := fun _ hl => hl
  roots := fun heq => absurd ⟨h0, heq ▸ UInt32.le_refl _⟩ (not_committed_next hh)

theorem commitReservation_extends (s : PriceLevelStore) (r : PricePageReservation) :
    Extends s (s.commitReservation r).2 := by
  rcases commitReservation_cases s r with ⟨e, _, he⟩ | ⟨he, _⟩ | ⟨he, _, _, hh, h0, _⟩
  · rw [he]
    exact .refl s
  · rw [he]
    exact .refl s
  · rw [he]
    exact withPage_extends hh h0

theorem Decodes.extends {s' : PriceLevelStore} (h : Extends s s') {l : UInt16} {x : UInt32}
    {a : PriceAddress} (hd : s.Decodes l x a) : s'.Decodes l x a := by
  obtain ⟨o, ho, hc, hl, hp⟩ := hd
  obtain ⟨hcom, hown⟩ := owner_eq_some.1 ho
  refine ⟨o, owner_eq_some.2 ⟨h.committed hcom, ?_⟩, hc, hl, hp⟩
  rw [h.pageOwners _ hcom, hown]

theorem joinPrice_splitPrice (x : UInt32) :
    joinPrice (splitPrice x).pageIndex (splitPrice x).levelIndex = x := by
  rw [← UInt32.toNat_inj, joinPrice_toNat, splitPrice_pageIndex, splitPrice_levelIndex]
  exact Nat.div_add_mod' _ _

/-- What a reservation for `x` says: where the price is to be, and if no commit is needed that its
page is there. -/
structure Reserves (s : PriceLevelStore) (l : UInt16) (x : UInt32) (r : PricePageReservation) :
    Prop where
  stockLocate : r.stockLocate = l
  pageIndex : r.pageIndex = (splitPrice x).pageIndex
  levelIndex : r.address.levelIndex = (splitPrice x).levelIndex
  decodes : r.requiresCommit = false → s.Decodes l x r.address

theorem Reserves.extends {s' : PriceLevelStore} {l : UInt16} {x : UInt32}
    {r : PricePageReservation} (h : Reserves s l x r) (he : Extends s s') : Reserves s' l x r :=
  ⟨h.stockLocate, h.pageIndex, h.levelIndex, fun hr => (h.decodes hr).extends he⟩

/-- The owner the root table leads to. -/
theorem ArenaInv.decodes (hI : s.ArenaInv) {l : UInt16} {x : UInt32} {a : PriceAddress}
    (h0 : a.pageHandle ≠ kInvalidPricePageHandle)
    (hroot : s.rootAt l (splitPrice x).pageIndex.toNat = a.pageHandle)
    (hlevel : a.levelIndex = (splitPrice x).levelIndex) : s.Decodes l x a := by
  obtain ⟨hc, hl, hp⟩ := (hI.root_iff l _ _ (splitPrice x).pageIndex.toNat_lt h0).1 hroot
  refine ⟨_, owner_of_committed hc, (hI.committed_iff _).2 hc, hl, ?_⟩
  rw [UInt16.toNat_inj.1 hp, hlevel, joinPrice_splitPrice]

theorem reservePrice_reserves (hI : s.ArenaInv) (l : UInt16) (x : UInt32)
    (happ : (s.reservePrice l x).1.result = .applied) : Reserves s l x (s.reservePrice l x).1 := by
  unfold reservePrice at happ ⊢
  dsimp only at happ ⊢
  split_ifs at happ ⊢ with h1 h2 h3 h4 h5
  all_goals try cases happ
  · refine ⟨rfl, rfl, rfl, fun _ => hI.decodes h3 ?_ rfl⟩
    rw [rootAt, ← priceRootIndex_eq]
  · refine ⟨rfl, rfl, rfl, fun hr => ?_⟩
    cases hr

/-- A committed reservation decodes to what it was asked for. -/
theorem Reserves.commit (hI : s.ArenaInv) {l : UInt16} {x : UInt32} {r : PricePageReservation}
    (h : Reserves s l x r) (happ : (s.commitReservation r).1 = .applied) :
    (s.commitReservation r).2.Decodes l x r.address := by
  rcases commitReservation_cases s r with ⟨e, hne, he⟩ | ⟨he, hr, _⟩
    | ⟨he, hprep, hroot, hh, h0, hcap⟩
  · rw [he] at happ
    exact absurd happ hne
  · rw [he]
    exact h.decodes hr
  · rw [he]
    refine (hI.withPage hprep hroot hh h0 hcap).decodes h0 ?_ h.levelIndex
    rw [rootAt_withPage l (splitPrice x).pageIndex.toNat_lt,
      if_pos ⟨h.stockLocate.symm, by rw [h.pageIndex]⟩]

theorem commitReservation_eq_self {r : PricePageReservation}
    (h : (s.commitReservation r).1 ≠ .applied) : (s.commitReservation r).2 = s := by
  rcases commitReservation_cases s r with ⟨e, _, he⟩ | ⟨he, _⟩ | ⟨he, _⟩
  · rw [he]
  · rw [he]
  · rw [he] at h
    exact absurd rfl h

/-- As long as no page was committed since the reservation, the next page can be. -/
structure Current (s : PriceLevelStore) (r : PricePageReservation) : Prop where
  expected : r.expectedCommittedPages ≤ s.committedPages
  prepared : s.isBookPrepared r.stockLocate = true
  handle : r.address.pageHandle = r.expectedCommittedPages + 1
  room : r.expectedCommittedPages < s.config.pageCapacity
  root : r.expectedCommittedPages = s.committedPages →
    s.roots (priceRootIndex r.stockLocate r.pageIndex) = kInvalidPricePageHandle

theorem Current.extends {s' : PriceLevelStore} {r : PricePageReservation} (h : Current s r)
    (he : Extends s s') : Current s' r where
  expected := UInt32.le_trans h.expected he.committedPages
  prepared := he.prepared _ h.prepared
  handle := h.handle
  room := he.config ▸ h.room
  root := fun heq => by
    have hsame : s'.committedPages = s.committedPages :=
      UInt32.le_antisymm (heq ▸ h.expected) he.committedPages
    rw [he.roots hsame]
    exact h.root (heq.trans hsame)

theorem reservePrice_current (happ : (s.reservePrice l x).1.result = .applied)
    (hcommit : (s.reservePrice l x).1.requiresCommit = true) :
    Current s (s.reservePrice l x).1 := by
  unfold reservePrice at happ hcommit ⊢
  dsimp only at happ hcommit ⊢
  split_ifs at happ hcommit ⊢ with hvalid hprep hroot hmatch hfull
  all_goals try cases happ
  all_goals try cases hcommit
  · exact ⟨UInt32.le_refl _, by simpa using hprep, rfl, UInt32.not_le.1 hfull,
      fun _ => not_not.1 hroot⟩

/-- The next page is committed to the reservation that asked for it last. -/
theorem Current.commit (hI : s.ArenaInv) {r : PricePageReservation} (h : Current s r)
    (happ : r.result = .applied) (hcommit : r.requiresCommit = true)
    (heq : r.expectedCommittedPages = s.committedPages) :
    (s.commitReservation r).1 = .applied := by
  have hhandle : r.address.pageHandle = s.committedPages + 1 := heq ▸ h.handle
  have hroom : s.committedPages < s.config.pageCapacity := heq ▸ h.room
  have hnext : r.address.pageHandle.toNat = s.committedPages.toNat + 1 := by
    have hlt := UInt32.lt_iff_toNat_lt.1 hroom
    have hmax := s.config.pageCapacity.toNat_lt
    rw [hhandle, UInt32.toNat_add, show (1 : UInt32).toNat = 1 from rfl]
    omega
  have hne : r.address.pageHandle ≠ kInvalidPricePageHandle := by
    intro h0
    rw [h0] at hnext
    exact absurd hnext.symm (Nat.succ_ne_zero _)
  have hle : ¬ s.config.pageCapacity < r.address.pageHandle := by
    rw [UInt32.lt_iff_toNat_lt, hnext]
    have hlt := UInt32.lt_iff_toNat_lt.1 hroom
    omega
  have hfree : ¬ (s.pageOwners r.address.pageHandle.toNat).committed ≠ 0 := fun hc =>
    not_committed_next hhandle ((hI.committed_iff _).1 hc)
  unfold commitReservation
  dsimp only
  rw [if_neg (not_not.2 happ), if_neg (by simpa [PriceAddress.valid] using hne),
    if_neg (by simp [isValidStockLocate_of_prepared h.prepared]), if_neg (by simp [h.prepared]),
    if_neg (by simp [hcommit]), if_neg, if_neg hfree]
  exact fun hno => hno.elim (fun hroot => hroot (h.root heq)) fun hno => hno.elim
    (fun hexp => hexp heq.symm) fun hno => hno.elim (fun hx => hx hhandle) hle

/-- A reservation that found its page is committed. -/
theorem Reserves.commit_found (hI : s.ArenaInv) {r : PricePageReservation} (h : Reserves s l x r)
    (happ : r.result = .applied) (hcommit : r.requiresCommit = false) :
    (s.commitReservation r).1 = .applied := by
  obtain ⟨o, ho, -, hl, hx⟩ := h.decodes hcommit
  obtain ⟨hc, hown⟩ := owner_eq_some.1 ho
  have hpage : o.pageIndex = r.pageIndex := by
    have hsplit := splitPrice_joinPrice_pageIndex o.pageIndex r.address.levelIndex
    rw [hx, ← h.pageIndex] at hsplit
    exact UInt16.toNat_inj.1 hsplit.symm
  have hroot : s.roots (priceRootIndex r.stockLocate r.pageIndex) = r.address.pageHandle := by
    rw [priceRootIndex_eq]
    refine (hI.root_iff _ _ _ r.pageIndex.toNat_lt hc.1).2 ⟨hc, ?_, ?_⟩
    · rw [hown, hl, h.stockLocate]
    · rw [hown, hpage]
  have hprep : s.isBookPrepared r.stockLocate = true := by
    have hp := hI.prepared _ hc
    rw [hown, hl] at hp
    rw [h.stockLocate]
    exact hp
  unfold commitReservation
  dsimp only
  rw [if_neg (not_not.2 happ), if_neg (by simpa [PriceAddress.valid] using hc.1),
    if_neg (by simp [isValidStockLocate_of_prepared hprep]), if_neg (by simp [hprep]),
    if_pos (by simp [hcommit]), if_pos hroot]

end PriceLevelStore

/-! ## The arena's caller -/

namespace ArenaState

open PriceLevelStore

variable {st : ArenaState}

structure Inv (st : ArenaState) : Prop where
  store : st.store.StoreInv
  issued : ∀ i ∈ st.issued, i.reservation.result = .applied →
    Reserves st.store i.stockLocate i.rawPrice i.reservation
      ∧ (i.reservation.requiresCommit = true → Current st.store i.reservation)

theorem Inv.kept (h : st.Inv) {s : PriceLevelStore} (hext : Extends st.store s) {i : IssuedPrice}
    (hi : i ∈ st.issued) (happ : i.reservation.result = .applied) :
    Reserves s i.stockLocate i.rawPrice i.reservation
      ∧ (i.reservation.requiresCommit = true → Current s i.reservation) :=
  ⟨(h.issued i hi happ).1.extends hext, fun hr => ((h.issued i hi happ).2 hr).extends hext⟩

theorem start_inv (config : PriceLevelStoreConfig) : (start config).Inv :=
  ⟨fresh_inv config, by simp [start]⟩

theorem step_extends (st : ArenaState) (op : ArenaOp) : Extends st.store (st.step op).store := by
  cases op with
  | prepareBook l => exact prepareBook_extends _ l
  | reservePrice l x => exact reservePrice_extends _ l x
  | commitReservation i =>
    simp only [step]
    split
    · exact .refl _
    · exact commitReservation_extends _ _

theorem Inv.step (h : st.Inv) (op : ArenaOp) : (st.step op).Inv := by
  have hext := step_extends st op
  cases op with
  | prepareBook l => exact ⟨h.store.prepareBook l, fun i hi happ => h.kept hext hi happ⟩
  | reservePrice l x =>
    refine ⟨h.store.reservePrice l x, fun i hi happ => ?_⟩
    rcases List.mem_append.1 hi with hi | hi
    · exact h.kept hext hi happ
    · rw [List.mem_singleton.1 hi] at happ ⊢
      exact ⟨(reservePrice_reserves h.store.arena l x happ).extends hext,
        fun hr => (reservePrice_current happ hr).extends hext⟩
  | commitReservation i =>
    simp only [ArenaState.step] at hext ⊢
    split
    · exact h
    · next issued hi =>
      rw [hi] at hext
      exact ⟨h.store.commitReservation _, fun j hj happ => h.kept hext hj happ⟩

theorem Inv.run (h : st.Inv) (ops : List ArenaOp) : (st.run ops).Inv := by
  induction ops generalizing st with
  | nil => exact h
  | cons op ops ih => exact ih (h.step op)

theorem run_extends (st : ArenaState) (ops : List ArenaOp) :
    Extends st.store (st.run ops).store := by
  induction ops generalizing st with
  | nil => exact .refl _
  | cons op ops ih => exact (step_extends st op).trans (ih (st.step op))

/-- Pages are given out in order and once, whatever reservations are committed and when; one that
needs no page, or asked for the page that is next, is committed. -/
theorem arena_bijection (config : PriceLevelStoreConfig) (ops : List ArenaOp) :
    let st := (start config).run ops
    (∀ h : UInt32, (st.store.pageOwners h.toNat).committed ≠ 0
        ↔ 1 ≤ h ∧ h ≤ st.store.committedPages)
    ∧ st.store.committedPages ≤ config.pageCapacity
    ∧ (∀ (l p : UInt16) (h : UInt32), h ≠ kInvalidPricePageHandle →
        (st.store.roots (priceRootIndex l p) = h ↔ h ≤ st.store.committedPages
          ∧ (st.store.pageOwners h.toNat).stockLocate = l
          ∧ (st.store.pageOwners h.toNat).pageIndex = p))
    ∧ (∀ later, st.store.committedPages ≤ (st.run later).store.committedPages
        ∧ ∀ h : UInt32, 1 ≤ h → h ≤ st.store.committedPages →
          (st.run later).store.pageOwners h.toNat = st.store.pageOwners h.toNat)
    ∧ (∀ i ∈ st.issued, i.reservation.result = .applied →
        i.reservation.requiresCommit = false →
        st.store.Decodes i.stockLocate i.rawPrice i.reservation.address)
    ∧ (∀ i ∈ st.issued, (st.store.commitReservation i.reservation).1 = .applied →
        ∀ later, ({ st with store := (st.store.commitReservation i.reservation).2 }.run
          later).store.Decodes i.stockLocate i.rawPrice i.reservation.address)
    ∧ (∀ i ∈ st.issued, i.reservation.result = .applied →
        (i.reservation.requiresCommit = true →
          i.reservation.expectedCommittedPages = st.store.committedPages) →
        (st.store.commitReservation i.reservation).1 = .applied)
    ∧ ∀ r, (st.store.commitReservation r).1 ≠ .applied →
        (st.store.commitReservation r).2 = st.store := by
  intro st
  have hI : st.Inv := (start_inv config).run ops
  have harena := hI.store.arena
  have hone : ∀ h : UInt32, 1 ≤ h ↔ h ≠ kInvalidPricePageHandle := by
    intro h
    rw [kInvalidPricePageHandle, UInt32.le_iff_toNat_le, ne_eq, ← UInt32.toNat_inj,
      show (1 : UInt32).toNat = 1 from rfl, show (0 : UInt32).toNat = 0 from rfl]
    omega
  refine ⟨fun h => ?_, ?_, fun l p h h0 => ?_, fun later => ?_, fun i hi happ hr => ?_,
    fun i hi happ later => ?_, fun i hi happ hnext => ?_, fun r hr => commitReservation_eq_self hr⟩
  · rw [hone]
    exact harena.committed_iff h
  · have hcfg : st.store.config = config := (run_extends (start config) ops).config
    rw [← hcfg]
    exact harena.committed_le
  · rw [priceRootIndex_eq]
    refine (harena.root_iff l p.toNat h p.toNat_lt h0).trans ?_
    rw [UInt16.toNat_inj]
    exact ⟨fun hx => ⟨hx.1.2, hx.2⟩, fun hx => ⟨⟨h0, hx.1⟩, hx.2⟩⟩
  · have hext := run_extends st later
    exact ⟨hext.committedPages, fun h h1 hle => hext.pageOwners h ⟨(hone h).1 h1, hle⟩⟩
  · exact (hI.issued i hi happ).1.decodes hr
  · have hres : i.reservation.result = .applied := by
      by_contra hne
      unfold PriceLevelStore.commitReservation at happ
      rw [if_pos hne] at happ
      exact hne happ
    exact ((hI.issued i hi hres).1.commit harena happ).extends (run_extends _ later)
  · obtain ⟨hreserves, hcurrent⟩ := hI.issued i hi happ
    cases hr : i.reservation.requiresCommit with
    | false => exact hreserves.commit_found harena happ hr
    | true => exact (hcurrent hr).commit harena happ hr (hnext hr)

end ArenaState

end AstraFeed
