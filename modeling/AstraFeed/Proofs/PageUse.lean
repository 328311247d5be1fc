import AstraFeed.Proofs.InternalFailures

/-!
# Which operations take pages and slots

Only an add or a replace can find the table or the arena exhausted, and then for its new reference
or for the page of its price; and only the root of that page can change.
-/

namespace AstraFeed

open BookContext OrderBook

/-- The results for a full table and a full arena. -/
def IsExhausted (e : MutationResult) : Prop :=
  e = .orderTableCapacityExceeded ∨ e = .pricePageCapacityExceeded

/-- The pages of `s'` are those of `s`. -/
structure SamePages (s s' : PriceLevelStore) : Prop where
  config : s'.config = s.config
  roots : s'.roots = s.roots

/-- The pages of `s'` are those of `s`, but for the one of root `i`. -/
structure PagesBut (s : PriceLevelStore) (i : Option ℕ) (s' : PriceLevelStore) : Prop where
  config : s'.config = s.config
  roots : ∀ j, some j ≠ i → s'.roots j = s.roots j

theorem SamePages.but {s s' : PriceLevelStore} (h : SamePages s s') (i : Option ℕ) :
    PagesBut s i s' := ⟨h.config, fun j _ => by rw [h.roots]⟩

theorem PagesBut.trans {s s' s'' : PriceLevelStore} {i : Option ℕ} (h : PagesBut s i s')
    (h' : PagesBut s' i s'') : PagesBut s i s'' :=
  ⟨h'.config.trans h.config, fun j hj => (h'.roots j hj).trans (h.roots j hj)⟩

/-- A mutation of levels: it never finds anything exhausted, and takes no page. -/
def TakesNoPage (s : PriceLevelStore) (out : MutationResult × PriceLevelStore) : Prop :=
  ¬ IsExhausted out.1 ∧ SamePages s out.2

namespace PriceLevelStore

section Levels

variable {s s' : PriceLevelStore} {a b : PriceAddress} {side : OrderSide} {qty : UInt32}

theorem validateAddress_exhausted : ¬ IsExhausted (s.validateAddress a side) := by
  unfold validateAddress
  split_ifs <;> simp [IsExhausted]

theorem validateActivation_exhausted : ¬ IsExhausted (s.validateActivation a side) := by
  unfold validateActivation
  split
  · simp [IsExhausted]
  · dsimp only
    split_ifs <;> simp [IsExhausted]

theorem validateAdd_exhausted : ¬ IsExhausted (s.validateAdd a side qty) := by
  unfold validateAdd
  dsimp only
  split_ifs
  · exact validateAddress_exhausted
  · simp [IsExhausted]
  · simp [IsExhausted]
  · simp [IsExhausted]
  · simp [IsExhausted]
  · exact validateActivation_exhausted
  · simp [IsExhausted]

/-- A plan fails as an invariant violation only. -/
def OnlyViolates (x : Except MutationResult DeactivationPlan) : Prop :=
  ∀ e, x = .error e → e = .invariantViolation

theorem onlyViolates_error : OnlyViolates (.error .invariantViolation) := fun _ h =>
  (Except.error.inj h).symm

theorem onlyViolates_ok (plan : DeactivationPlan) : OnlyViolates (.ok plan) := fun _ h => nomatch h

theorem onlyViolates_ite {p : Prop} [Decidable p] {x y : Except MutationResult DeactivationPlan}
    (hx : OnlyViolates x) (hy : OnlyViolates y) : OnlyViolates (if p then x else y) := by
  split_ifs
  · exact hx
  · exact hy

theorem planPage_violates : OnlyViolates (s.planPage a side) := by
  unfold planPage
  refine onlyViolates_ite (onlyViolates_ite onlyViolates_error (onlyViolates_ok _)) ?_
  refine onlyViolates_ite onlyViolates_error (onlyViolates_ite ?_ (onlyViolates_ok _))
  exact onlyViolates_ite onlyViolates_error
    (onlyViolates_ite onlyViolates_error (onlyViolates_ok _))

theorem planBook_violates (o : PageOwner) (plan : DeactivationPlan) :
    OnlyViolates (s.planBook a side o plan) := by
  unfold planBook
  refine onlyViolates_ite (onlyViolates_ite onlyViolates_error (onlyViolates_ite ?_ ?_))
    (onlyViolates_ite onlyViolates_error (onlyViolates_ok _))
  · exact onlyViolates_ite onlyViolates_error (onlyViolates_ok _)
  · refine onlyViolates_ite (onlyViolates_ite (onlyViolates_ok _) onlyViolates_error) ?_
    refine onlyViolates_ite onlyViolates_error (onlyViolates_ite onlyViolates_error ?_)
    exact onlyViolates_ite onlyViolates_error
      (onlyViolates_ite onlyViolates_error (onlyViolates_ok _))

theorem validateDeactivation_violates : OnlyViolates (s.validateDeactivation a side) := by
  unfold validateDeactivation
  cases s.owner a.pageHandle with
  | none => exact onlyViolates_error
  | some pageOwner =>
    refine onlyViolates_ite onlyViolates_error (onlyViolates_ite onlyViolates_error ?_)
    dsimp only
    cases s.owner (s.bookSummary pageOwner.stockLocate side).bestPageHandle with
    | none => exact onlyViolates_error
    | some cachedOwner =>
      refine onlyViolates_ite onlyViolates_error (onlyViolates_ite onlyViolates_error
        (onlyViolates_ite onlyViolates_error ?_))
      cases hp : s.planPage a side with
      | error e =>
        intro e' he
        obtain rfl := Except.error.inj he
        exact planPage_violates e hp
      | ok plan => exact planBook_violates pageOwner plan

theorem validateErase_exhausted {e : MutationResult} (h : s.validateErase a side qty = .error e) :
    ¬ IsExhausted e := by
  unfold validateErase at h
  dsimp only at h
  split_ifs at h
  · obtain rfl := Except.error.inj h
    exact validateAddress_exhausted
  · obtain rfl := Except.error.inj h
    simp [IsExhausted]
  · obtain rfl := Except.error.inj h
    simp [IsExhausted]
  · obtain rfl := Except.error.inj h
    simp [IsExhausted]
  · obtain rfl := Except.error.inj h
    simp [IsExhausted]
  · obtain rfl := Except.error.inj h
    simp [IsExhausted]
  · rw [validateDeactivation_violates e h]
    simp [IsExhausted]

theorem samePages_addValidated (s : PriceLevelStore) (a : PriceAddress) (side : OrderSide)
    (qty : UInt32) : SamePages s (s.addValidated a side qty) := by
  unfold addValidated
  dsimp only
  split_ifs
  · exact ⟨rfl, rfl⟩
  · exact ⟨rfl, rfl⟩

theorem samePages_eraseValidated (s : PriceLevelStore) (a : PriceAddress) (side : OrderSide)
    (qty : UInt32) (plan : DeactivationPlan) :
    SamePages s (s.eraseValidated a side qty plan) := by
  unfold eraseValidated
  dsimp only
  split_ifs
  · exact ⟨rfl, rfl⟩
  · exact ⟨rfl, rfl⟩

theorem takesNoPage_self {e : MutationResult} (he : ¬ IsExhausted e) : TakesNoPage s (e, s) :=
  ⟨he, rfl, rfl⟩

theorem takesNoPage_applied (h : SamePages s s') : TakesNoPage s (.applied, s') :=
  ⟨by simp [IsExhausted], h⟩

theorem takesNoPage_ite {p : Prop} [Decidable p] {x y : MutationResult × PriceLevelStore}
    (hx : TakesNoPage s x) (hy : TakesNoPage s y) : TakesNoPage s (if p then x else y) := by
  split_ifs
  · exact hx
  · exact hy

theorem add_takesNoPage : TakesNoPage s (s.add a side qty) :=
  takesNoPage_ite (takesNoPage_self validateAdd_exhausted)
    (takesNoPage_applied (samePages_addValidated _ _ _ _))

theorem erase_takesNoPage : TakesNoPage s (s.erase a side qty) := by
  unfold erase
  cases h : s.validateErase a side qty with
  | error e => exact takesNoPage_self (validateErase_exhausted h)
  | ok plan => exact takesNoPage_applied (samePages_eraseValidated _ _ _ _ _)

theorem reduceLevel_takesNoPage {current reduction : UInt32} :
    TakesNoPage s (s.reduceLevel a side current reduction) := by
  have hself : ∀ e, ¬ IsExhausted e → TakesNoPage s (e, s) := fun e he => takesNoPage_self he
  unfold reduceLevel
  refine takesNoPage_ite (hself _ (by simp [IsExhausted]))
    (takesNoPage_ite (hself _ (by simp [IsExhausted])) ?_)
  refine takesNoPage_ite (hself _ (by simp [IsExhausted]))
    (takesNoPage_ite (hself _ (by simp [IsExhausted])) ?_)
  refine takesNoPage_ite (hself _ (by simp [IsExhausted]))
    (takesNoPage_ite (hself _ (by simp [IsExhausted])) ?_)
  exact takesNoPage_ite (hself _ (by simp [IsExhausted])) (takesNoPage_applied ⟨rfl, rfl⟩)

theorem reduceChecked_takesNoPage {l p : UInt16} {current reduction : UInt32} :
    TakesNoPage s (s.reduceChecked l p a side current reduction) := by
  unfold reduceChecked
  refine takesNoPage_ite (takesNoPage_self (by simp [IsExhausted])) ?_
  refine takesNoPage_ite (takesNoPage_self validateAddress_exhausted) ?_
  exact takesNoPage_ite (takesNoPage_self (by simp [IsExhausted])) reduceLevel_takesNoPage

theorem move_takesNoPage {oldQty newQty : UInt32} :
    TakesNoPage s (s.move a oldQty b newQty side) := by
  unfold move
  refine takesNoPage_ite (takesNoPage_self (by simp [IsExhausted])) ?_
  cases s.owner a.pageHandle with
  | none => exact takesNoPage_self (by simp [IsExhausted])
  | some oldOwner =>
    cases s.owner b.pageHandle with
    | none => exact takesNoPage_self (by simp [IsExhausted])
    | some newOwner =>
      refine takesNoPage_ite (takesNoPage_self (by simp [IsExhausted]))
        (takesNoPage_ite (takesNoPage_self (by simp [IsExhausted])) ?_)
      cases h : s.validateErase a side oldQty with
      | error e => exact takesNoPage_self (validateErase_exhausted h)
      | ok plan =>
        refine takesNoPage_ite ?_ ?_
        · exact takesNoPage_ite (takesNoPage_self (by simp [IsExhausted]))
            (takesNoPage_applied ⟨rfl, rfl⟩)
        · have herase := samePages_eraseValidated s a side oldQty plan
          have hadd := samePages_addValidated (s.eraseValidated a side oldQty plan) b side newQty
          exact takesNoPage_ite (takesNoPage_self validateAdd_exhausted)
            (takesNoPage_applied ⟨hadd.config.trans herase.config, hadd.roots.trans herase.roots⟩)

end Levels

/-! ## Pages -/

variable {s : PriceLevelStore} {l : UInt16} {x : UInt32}

/-- Reserving takes no page, and finds the arena full only where the price has none. -/
theorem reservePrice_uses :
    (s.reservePrice l x).1.result ≠ .orderTableCapacityExceeded
      ∧ ((s.reservePrice l x).1.result = .pricePageCapacityExceeded →
        s.roots (priceRootIndex l (splitPrice x).pageIndex) = kInvalidPricePageHandle
          ∧ s.config.pageCapacity ≤ s.committedPages)
      ∧ SamePages s (s.reservePrice l x).2
      ∧ ((s.reservePrice l x).1.valid = true → (s.reservePrice l x).1.stockLocate = l
        ∧ (s.reservePrice l x).1.pageIndex = (splitPrice x).pageIndex) := by
  unfold reservePrice
  dsimp only
  split_ifs with h1 h2 h3 h4 h5
  · exact ⟨by simp, by simp, ⟨rfl, rfl⟩, by simp [PricePageReservation.valid]⟩
  · exact ⟨by simp, by simp, ⟨rfl, rfl⟩, by simp [PricePageReservation.valid]⟩
  · exact ⟨by simp, by simp, ⟨rfl, rfl⟩, by simp [PricePageReservation.valid]⟩
  · exact ⟨by simp, by simp, ⟨rfl, rfl⟩, fun _ => ⟨rfl, rfl⟩⟩
  · exact ⟨by simp, fun _ => ⟨not_not.1 h3, h5⟩, ⟨rfl, rfl⟩, by simp [PricePageReservation.valid]⟩
  · exact ⟨by simp, by simp, ⟨rfl, rfl⟩, fun _ => ⟨rfl, rfl⟩⟩

theorem commitReservation_uses {r : PricePageReservation} (hr : r.valid = true) :
    ¬ IsExhausted (s.commitReservation r).1
      ∧ PagesBut s (some (priceRootIndex r.stockLocate r.pageIndex)) (s.commitReservation r).2 := by
  have happ : r.result = .applied := by
    simp only [PricePageReservation.valid, Bool.and_eq_true, beq_iff_eq] at hr
    exact hr.1
  unfold commitReservation
  dsimp only
  rw [if_neg (not_not.2 happ)]
  split_ifs
  all_goals refine ⟨by simp [IsExhausted], rfl, fun i hi => ?_⟩
  all_goals first | rfl | exact Function.update_of_ne (fun h => hi (congrArg some h)) _ _

theorem acquire_uses {r : PricePageReservation} (hr : r.valid = true) :
    ¬ IsExhausted (if r.requiresCommit then s.commitReservation r else (.applied, s)).1
      ∧ PagesBut s (some (priceRootIndex r.stockLocate r.pageIndex))
        (if r.requiresCommit then s.commitReservation r else (.applied, s)).2 := by
  split_ifs
  · exact commitReservation_uses hr
  · exact ⟨by simp [IsExhausted], rfl, fun _ _ => rfl⟩

end PriceLevelStore

/-! ## Operations -/

/-- What an operation on `c` may use: its reference when `table` holds, the page of root `i`, and
that only when `arena` does. -/
structure Uses (table arena : Prop) (s : PriceLevelStore) (i : Option ℕ)
    (out : MutationResult × BookContext) : Prop where
  table : out.1 = .orderTableCapacityExceeded → table
  arena : out.1 = .pricePageCapacityExceeded → arena
  pages : PagesBut s i out.2.prices

namespace OrderTable

variable {t : OrderTable} {orderRef : UInt64}

theorem reserveScan_result (probes : List (LookupPath × UInt32 × UInt8))
    (r : OrderSlotReservation) :
    (t.reserveScan orderRef probes r).result = .duplicateOrderRef
      ∨ (t.reserveScan orderRef probes r).result = .applied
      ∨ (t.reserveScan orderRef probes r).result = r.result := by
  induction probes generalizing r with
  | nil => exact .inr (.inr rfl)
  | cons p ps ih =>
    unfold reserveScan
    split_ifs
    · exact .inl rfl
    · exact ih r
    · rcases ih ⟨.applied, p.1, orderRef, p.2.1, p.2.2⟩ with h | h | h
      · exact .inl h
      · exact .inr (.inl h)
      · exact .inr (.inl h)
    · exact ih r

/-- Only a reference outside the direct slots can find the table full. -/
theorem reserve_uses : (t.reserve orderRef).result ≠ .pricePageCapacityExceeded
    ∧ ((t.reserve orderRef).result = .orderTableCapacityExceeded →
      t.config.directSlots ≤ orderRef) := by
  unfold reserve
  split_ifs with hd hs
  · exact ⟨by simp, by simp⟩
  · exact ⟨by simp, by simp⟩
  · refine ⟨?_, fun _ => UInt64.not_lt.1 hd⟩
    rcases t.reserveScan_result (fallbackProbes t.config orderRef)
      ⟨.orderTableCapacityExceeded, .none, orderRef, 0, 0⟩ with h | h | h
    all_goals
      rw [h]
      simp

end OrderTable

section Operations

variable {table arena : Prop} {s : PriceLevelStore} {i : Option ℕ} {c : BookContext}
  {e : MutationResult}

theorem uses_of_not {out : MutationResult × BookContext} (he : ¬ IsExhausted out.1)
    (hp : PagesBut s i out.2.prices) : Uses table arena s i out :=
  ⟨fun h => absurd (.inl h) he, fun h => absurd (.inr h) he, hp⟩

theorem uses_reject (he : ¬ IsExhausted e) (hp : PagesBut s i c.prices) :
    Uses table arena s i (c.reject e) := uses_of_not he hp

theorem uses_applied (hp : PagesBut s i c.prices) : Uses table arena s i (.applied, c) :=
  uses_of_not (by simp [IsExhausted]) hp

theorem uses_ite {p : Prop} [Decidable p] {x y : MutationResult × BookContext}
    (hx : p → Uses table arena s i x) (hy : ¬ p → Uses table arena s i y) :
    Uses table arena s i (if p then x else y) := by
  split_ifs with h
  · exact hx h
  · exact hy h

theorem isExhausted_of_internal (h : IsInternal e) : ¬ IsExhausted e := by
  rintro (rfl | rfl) <;> simp [IsInternal] at h

theorem pagesBut_self (s : PriceLevelStore) (i : Option ℕ) : PagesBut s i s :=
  ⟨rfl, fun _ _ => rfl⟩

/-- An operation that takes neither a reference nor a page. -/
def UsesNothing (c : BookContext) (out : MutationResult × BookContext) : Prop :=
  Uses False False c.prices none out

theorem addOrder_uses (orderId price : UInt64) (qty : UInt32) (side : UInt8)
    (timestamp : UInt64) :
    Uses (c.orders.config.directSlots ≤ orderId)
      (c.prices.roots (priceRootIndex c.book.stockLocate (splitPrice price.toUInt32).pageIndex)
          = kInvalidPricePageHandle ∧ c.prices.config.pageCapacity ≤ c.prices.committedPages)
      c.prices (some (priceRootIndex c.book.stockLocate (splitPrice price.toUInt32).pageIndex))
      (c.addOrder orderId price qty side timestamp) := by
  have hself := pagesBut_self c.prices
    (some (priceRootIndex c.book.stockLocate (splitPrice price.toUInt32).pageIndex))
  obtain ⟨hr1, hr2⟩ := OrderTable.reserve_uses (t := c.orders)
  obtain ⟨hp1, hp2, hp3, hp4⟩ := PriceLevelStore.reservePrice_uses (s := c.prices)
    (l := c.book.stockLocate) (x := price.toUInt32)
  unfold addOrder
  refine uses_ite (fun _ => uses_of_not (by simp [IsExhausted]) hself) fun _ => ?_
  refine uses_ite (fun _ => uses_reject (by simp [IsExhausted]) hself) fun _ => ?_
  refine uses_ite (fun _ => uses_reject (by simp [IsExhausted]) hself) fun _ => ?_
  refine uses_ite (fun _ => uses_reject (by simp [IsExhausted]) hself) fun _ => ?_
  refine uses_ite (fun _ => uses_reject (by simp [IsExhausted]) hself) fun _ => ?_
  refine uses_ite (fun _ => ⟨hr2, fun h => absurd h hr1, hself⟩) fun hv => ?_
  generalize c.prices.reservePrice c.book.stockLocate price.toUInt32 = q at hp1 hp2 hp3 hp4 ⊢
  obtain ⟨pr, ps⟩ := q
  dsimp only at hp1 hp2 hp3 hp4 ⊢
  refine uses_ite (fun _ => ⟨fun h => absurd h hp1, hp2, hp3.but _⟩) fun hpv => ?_
  have hpv' : pr.valid = true := by simpa using hpv
  obtain ⟨hl, hx⟩ := hp4 hpv'
  obtain ⟨ha1, ha2⟩ := PriceLevelStore.acquire_uses (s := ps) hpv'
  rw [hl, hx] at ha2
  have ha := (hp3.but _).trans ha2
  generalize (if pr.requiresCommit then ps.commitReservation pr else (.applied, ps)) = q at ha1 ha ⊢
  obtain ⟨commit, ps'⟩ := q
  dsimp only at ha1 ha ⊢
  refine uses_ite (fun _ => uses_reject ha1 ha) fun _ => ?_
  obtain ⟨hadd, hsame⟩ : TakesNoPage ps' (ps'.add pr.address (decodeSide side) qty) :=
    PriceLevelStore.add_takesNoPage
  generalize ps'.add pr.address (decodeSide side) qty = q at hadd hsame ⊢
  obtain ⟨level, ps''⟩ := q
  dsimp only at hadd hsame ⊢
  have hpages := ha.trans (hsame.but _)
  refine uses_ite (fun _ => uses_reject hadd hpages) fun _ => ?_
  refine uses_ite (fun hne => ?_) fun _ => uses_applied hpages
  have hcommit := commit_internal (by simpa using hv) hne
  exact uses_of_not (isExhausted_of_internal (internal_reject hcommit _))
    (hpages.trans (PriceLevelStore.erase_takesNoPage.2.but _))

theorem stateError_exhausted {state : Option OrderSlot} (h : c.stateError state = some e) :
    ¬ IsExhausted e := by
  unfold stateError at h
  cases state with
  | none =>
    obtain rfl := Option.some.inj h
    simp [IsExhausted]
  | some slot =>
    dsimp only at h
    split_ifs at h
    all_goals
      obtain rfl := Option.some.inj h
      simp [IsExhausted]

theorem cancelShares_uses (orderId : UInt64) (qty : UInt32) (timestamp : UInt64) :
    UsesNothing c (c.cancelShares orderId qty timestamp) := by
  have hself := pagesBut_self c.prices none
  unfold UsesNothing cancelShares
  refine uses_ite (fun _ => uses_of_not (by simp [IsExhausted]) hself) fun _ => ?_
  refine uses_ite (fun _ => uses_reject (by simp [IsExhausted]) hself) fun _ => ?_
  cases c.orders.findState orderId with
  | none => exact uses_reject (by simp [IsExhausted]) hself
  | some slot =>
    refine uses_ite (fun _ => uses_reject (by simp [IsExhausted]) hself) fun _ => ?_
    refine uses_ite (fun _ => uses_reject (by simp [IsExhausted]) hself) fun _ => ?_
    refine uses_ite (fun _ => ?_) fun _ => ?_
    · exact uses_ite (fun _ => uses_reject (by simp [IsExhausted]) hself)
        fun _ => uses_reject (by simp [IsExhausted]) hself
    · have hreduce : TakesNoPage c.prices (c.prices.reduceChecked c.book.stockLocate
          (c.orders.read slot).pricePageIndex (addressOf (c.orders.read slot))
          (OrderSide.ofUInt8 (c.orders.read slot).side) (c.orders.read slot).qty qty) :=
        PriceLevelStore.reduceChecked_takesNoPage
      exact uses_ite (fun _ => uses_reject hreduce.1 (hreduce.2.but _))
        fun _ => uses_applied (hreduce.2.but _)

/-- The end of a delete or of an execution of all shares. -/
theorem remove_uses {slot : OrderSlot} {address : PriceAddress} {side : OrderSide} {qty : UInt32}
    (book : OrderBook) :
    UsesNothing c
      (if (c.prices.erase address side qty).1 ≠ .applied then
        ({ c with prices := (c.prices.erase address side qty).2 } : BookContext).reject
          (c.prices.erase address side qty).1
      else if (c.orders.eraseState (some slot)).1 ≠ .applied then
        ({ c with
          prices := (c.prices.erase address side qty).2
          orders := (c.orders.eraseState (some slot)).2 } : BookContext).reject .invariantViolation
      else (.applied, ⟨book, (c.orders.eraseState (some slot)).2,
        (c.prices.erase address side qty).2⟩)) := by
  have herase : TakesNoPage c.prices (c.prices.erase address side qty) :=
    PriceLevelStore.erase_takesNoPage
  refine uses_ite (fun _ => uses_reject herase.1 (herase.2.but _)) fun _ => ?_
  exact uses_ite (fun _ => uses_reject (by simp [IsExhausted]) (herase.2.but _))
    fun _ => uses_applied (herase.2.but _)

theorem deleteOrder_uses (orderId timestamp : UInt64) :
    UsesNothing c (c.deleteOrder orderId timestamp) := by
  have hself := pagesBut_self c.prices none
  unfold deleteOrder
  refine uses_ite (fun _ => uses_of_not (by simp [IsExhausted]) hself) fun _ => ?_
  dsimp only
  split
  · rename_i e _ he
    exact uses_reject (stateError_exhausted he) hself
  · exact uses_reject (by simp [IsExhausted]) hself
  · exact remove_uses _

theorem executeOrder_uses (orderId : UInt64) (qty : UInt32) (timestamp : UInt64) :
    UsesNothing c (c.executeOrder orderId qty timestamp) := by
  have hself := pagesBut_self c.prices none
  unfold executeOrder
  refine uses_ite (fun _ => uses_of_not (by simp [IsExhausted]) hself) fun _ => ?_
  refine uses_ite (fun _ => uses_reject (by simp [IsExhausted]) hself) fun _ => ?_
  cases c.orders.findState orderId with
  | none => exact uses_reject (by simp [IsExhausted]) hself
  | some slot =>
    refine uses_ite (fun _ => uses_reject (by simp [IsExhausted]) hself) fun _ => ?_
    refine uses_ite (fun _ => uses_reject (by simp [IsExhausted]) hself) fun _ => ?_
    refine uses_ite (fun _ => ?_) fun _ => uses_ite (fun _ => ?_) fun _ => ?_
    · exact uses_ite (fun _ => uses_reject (by simp [IsExhausted]) hself)
        fun _ => uses_reject (by simp [IsExhausted]) hself
    · exact uses_ite (fun _ => uses_reject (by simp [IsExhausted]) hself) fun _ => remove_uses _
    · have hreduce : TakesNoPage c.prices (c.prices.reduceChecked c.book.stockLocate
          (c.orders.read slot).pricePageIndex (addressOf (c.orders.read slot))
          (OrderSide.ofUInt8 (c.orders.read slot).side) (c.orders.read slot).qty qty) :=
        PriceLevelStore.reduceChecked_takesNoPage
      exact uses_ite (fun _ => uses_reject hreduce.1 (hreduce.2.but _))
        fun _ => uses_applied (hreduce.2.but _)

theorem replaceReserved_uses {slot : OrderSlot} {oldId newId : UInt64}
    {res : OrderSlotReservation} {pr : PricePageReservation} {qty : UInt32} {timestamp : UInt64}
    (hpages : PagesBut s i c.prices) (hres : newId ≠ oldId → res.valid = true) :
    Uses table arena s i (c.replaceReserved slot oldId newId res pr qty timestamp) := by
  have hmove : TakesNoPage c.prices (c.prices.move (addressOf (c.orders.read slot))
      (c.orders.read slot).qty pr.address qty (OrderSide.ofUInt8 (c.orders.read slot).side)) :=
    PriceLevelStore.move_takesNoPage
  unfold replaceReserved
  dsimp only
  generalize c.prices.move (addressOf (c.orders.read slot)) (c.orders.read slot).qty pr.address qty
    (OrderSide.ofUInt8 (c.orders.read slot).side) = q at hmove ⊢
  obtain ⟨moved, ps⟩ := q
  have hps := hpages.trans (hmove.2.but _)
  refine uses_ite (fun _ => ?_) fun hid => ?_
  · exact uses_ite (fun _ => uses_reject hmove.1 hps) fun _ => uses_applied hps
  · refine uses_ite (fun hne => ?_) fun _ => uses_ite (fun _ => ?_) fun _ => uses_ite (fun _ => ?_)
      fun _ => uses_applied hps
    · exact uses_reject (isExhausted_of_internal (commit_internal (hres hid) hne)) hpages
    · refine uses_reject ?_ hps
      split_ifs
      · exact hmove.1
      · simp [IsExhausted]
    · exact uses_reject (by simp [IsExhausted])
        (hps.trans (PriceLevelStore.move_takesNoPage.2.but _))

theorem replaceOrder_uses (oldId newId price : UInt64) (qty : UInt32) (timestamp : UInt64) :
    Uses (c.orders.config.directSlots ≤ newId)
      (c.prices.roots (priceRootIndex c.book.stockLocate (splitPrice price.toUInt32).pageIndex)
          = kInvalidPricePageHandle ∧ c.prices.config.pageCapacity ≤ c.prices.committedPages)
      c.prices (some (priceRootIndex c.book.stockLocate (splitPrice price.toUInt32).pageIndex))
      (c.replaceOrder oldId newId price qty timestamp) := by
  have hself := pagesBut_self c.prices
    (some (priceRootIndex c.book.stockLocate (splitPrice price.toUInt32).pageIndex))
  obtain ⟨hr1, hr2⟩ := OrderTable.reserve_uses (t := c.orders)
  obtain ⟨hp1, hp2, hp3, hp4⟩ := PriceLevelStore.reservePrice_uses (s := c.prices)
    (l := c.book.stockLocate) (x := price.toUInt32)
  unfold replaceOrder
  refine uses_ite (fun _ => uses_of_not (by simp [IsExhausted]) hself) fun _ => ?_
  refine uses_ite (fun _ => uses_reject (by simp [IsExhausted]) hself) fun _ => ?_
  refine uses_ite (fun _ => uses_reject (by simp [IsExhausted]) hself) fun _ => ?_
  dsimp only
  split
  · rename_i e _ he
    exact uses_reject (stateError_exhausted he) hself
  · exact uses_reject (by simp [IsExhausted]) hself
  · refine uses_ite (fun h => ?_) fun hv => ?_
    · rw [if_pos h.1]
      exact ⟨hr2, fun h => absurd h hr1, hself⟩
    generalize c.prices.reservePrice c.book.stockLocate price.toUInt32 = q at hp1 hp2 hp3 hp4 ⊢
    obtain ⟨pr, ps⟩ := q
    dsimp only at hp1 hp2 hp3 hp4 ⊢
    refine uses_ite (fun _ => ⟨fun h => absurd h hp1, hp2, hp3.but _⟩) fun hpv => ?_
    have hpv' : pr.valid = true := by simpa using hpv
    obtain ⟨hl, hx⟩ := hp4 hpv'
    obtain ⟨ha1, ha2⟩ := PriceLevelStore.acquire_uses (s := ps) hpv'
    rw [hl, hx] at ha2
    have ha := (hp3.but _).trans ha2
    generalize (if pr.requiresCommit then ps.commitReservation pr else (.applied, ps)) = q
      at ha1 ha ⊢
    obtain ⟨commit, ps'⟩ := q
    dsimp only at ha1 ha ⊢
    refine uses_ite (fun _ => uses_reject ha1 ha) fun _ => ?_
    refine replaceReserved_uses ha fun hid => ?_
    simpa [hid] using hv

end Operations

end AstraFeed
