import AstraFeed.Proofs.BookRun
import AstraFeed.Rollback

/-!
# The internal failures

An operation that returns an internal failure leaves its book marked as invalid. No run does that,
so no run meets an internal failure, and the branches that only end in one are dead.
-/

namespace AstraFeed

open BookContext OrderBook

/-- An internal failure marks the book. -/
def Flags (out : MutationResult × BookContext) : Prop :=
  IsInternal out.1 → out.2.book.localInvalid = true

section Flags

variable {c : BookContext}

theorem flags_reject (c : BookContext) (e : MutationResult) : Flags (c.reject e) := by
  intro h
  unfold BookContext.reject
  exact if_pos h

theorem flags_of_not {out : MutationResult × BookContext} (h : ¬ IsInternal out.1) : Flags out :=
  fun hi => absurd hi h

theorem flags_applied (c : BookContext) : Flags (.applied, c) :=
  flags_of_not (by simp [IsInternal])

theorem flags_ite {p : Prop} [Decidable p] {a b : MutationResult × BookContext}
    (ha : p → Flags a) (hb : ¬ p → Flags b) : Flags (if p then a else b) := by
  split_ifs with h
  · exact ha h
  · exact hb h

theorem addOrder_flags (orderId price : UInt64) (qty : UInt32) (side : UInt8)
    (timestamp : UInt64) : Flags (c.addOrder orderId price qty side timestamp) := by
  unfold addOrder
  refine flags_ite (fun h _ => h) fun _ => flags_ite (fun _ => flags_reject _ _) fun _ => ?_
  refine flags_ite (fun _ => flags_reject _ _) fun _ => flags_ite (fun _ => flags_reject _ _)
    fun _ => flags_ite (fun _ => flags_reject _ _) fun _ => flags_ite (fun _ => flags_reject _ _)
    fun _ => ?_
  refine flags_ite (fun _ => flags_reject _ _) fun _ => flags_ite (fun _ => flags_reject _ _)
    fun _ => flags_ite (fun _ => flags_reject _ _) fun _ => flags_ite (fun _ => flags_reject _ _)
    fun _ => flags_applied _

theorem cancelShares_flags (orderId : UInt64) (qty : UInt32) (timestamp : UInt64) :
    Flags (c.cancelShares orderId qty timestamp) := by
  unfold cancelShares
  refine flags_ite (fun h _ => h) fun _ => flags_ite (fun _ => flags_reject _ _) fun _ => ?_
  cases c.orders.findState orderId with
  | none => exact flags_reject _ _
  | some slot =>
    refine flags_ite (fun _ => flags_reject _ _) fun _ => flags_ite (fun _ => flags_reject _ _)
      fun _ => flags_ite (fun _ => ?_) fun _ => flags_ite (fun _ => flags_reject _ _)
      fun _ => flags_applied _
    exact flags_ite (fun _ => flags_reject _ _) fun _ => flags_reject _ _

theorem deleteOrder_flags (orderId timestamp : UInt64) :
    Flags (c.deleteOrder orderId timestamp) := by
  unfold deleteOrder
  refine flags_ite (fun h _ => h) fun _ => ?_
  dsimp only
  split
  · exact flags_reject _ _
  · exact flags_reject _ _
  · exact flags_ite (fun _ => flags_reject _ _) fun _ => flags_ite (fun _ => flags_reject _ _)
      fun _ => flags_applied _

theorem executeOrder_flags (orderId : UInt64) (qty : UInt32) (timestamp : UInt64) :
    Flags (c.executeOrder orderId qty timestamp) := by
  unfold executeOrder
  refine flags_ite (fun h _ => h) fun _ => flags_ite (fun _ => flags_reject _ _) fun _ => ?_
  cases c.orders.findState orderId with
  | none => exact flags_reject _ _
  | some slot =>
    refine flags_ite (fun _ => flags_reject _ _) fun _ => flags_ite (fun _ => flags_reject _ _)
      fun _ => flags_ite (fun _ => ?_) fun _ => flags_ite (fun _ => ?_) fun _ => ?_
    · exact flags_ite (fun _ => flags_reject _ _) fun _ => flags_reject _ _
    · exact flags_ite (fun _ => flags_reject _ _) fun _ => flags_ite (fun _ => flags_reject _ _)
        fun _ => flags_ite (fun _ => flags_reject _ _) fun _ => flags_applied _
    · exact flags_ite (fun _ => flags_reject _ _) fun _ => flags_applied _

theorem replaceReserved_flags (slot : OrderSlot) (oldId newId : UInt64)
    (res : OrderSlotReservation) (pr : PricePageReservation) (qty : UInt32) (timestamp : UInt64) :
    Flags (c.replaceReserved slot oldId newId res pr qty timestamp) := by
  unfold replaceReserved
  refine flags_ite (fun _ => ?_) fun _ => ?_
  · exact flags_ite (fun _ => flags_reject _ _) fun _ => flags_applied _
  · exact flags_ite (fun _ => flags_reject _ _) fun _ => flags_ite (fun _ => flags_reject _ _)
      fun _ => flags_ite (fun _ => flags_reject _ _) fun _ => flags_applied _

theorem replaceOrder_flags (oldId newId price : UInt64) (qty : UInt32) (timestamp : UInt64) :
    Flags (c.replaceOrder oldId newId price qty timestamp) := by
  unfold replaceOrder
  refine flags_ite (fun h _ => h) fun _ => flags_ite (fun _ => flags_reject _ _)
    fun _ => flags_ite (fun _ => flags_reject _ _) fun _ => ?_
  dsimp only
  split
  · exact flags_reject _ _
  · exact flags_reject _ _
  · refine flags_ite (fun _ => flags_reject _ _) fun _ => flags_ite (fun _ => flags_reject _ _)
      fun _ => flags_ite (fun _ => flags_reject _ _) fun _ => replaceReserved_flags _ _ _ _ _ _ _

end Flags

/-! ## Dead branches -/

section Dead

variable {c : BookContext}

/-- The outcomes are the same, unless the second is an internal failure. -/
def SameUnless (out out' : MutationResult × BookContext) : Prop := ¬ IsInternal out'.1 → out = out'

theorem same_refl (out : MutationResult × BookContext) : SameUnless out out := fun _ => rfl

theorem same_of_internal {out out' : MutationResult × BookContext} (h : IsInternal out'.1) :
    SameUnless out out' := fun hn => absurd h hn

theorem same_ite {p : Prop} [Decidable p] {a a' b b' : MutationResult × BookContext}
    (ha : p → SameUnless a a') (hb : ¬ p → SameUnless b b') :
    SameUnless (if p then a else b) (if p then a' else b') := by
  split_ifs with h
  · exact ha h
  · exact hb h

/-- A table refuses a reservation it made only as a stale one. -/
theorem commit_internal {t : OrderTable} {res : OrderSlotReservation} {st : OrderState}
    (hv : res.valid = true) (hne : (t.commit res st).1 ≠ .applied) :
    IsInternal (t.commit res st).1 := by
  have hvalid : ¬ (!res.valid) = true := by simp [hv]
  unfold OrderTable.commit at hne ⊢
  rw [if_neg hvalid] at hne ⊢
  dsimp only at hne ⊢
  split_ifs at hne ⊢
  all_goals first | exact absurd rfl hne | simp [IsInternal]

theorem internal_reject {e : MutationResult} (he : IsInternal e) (p : Prop) [Decidable p] :
    IsInternal (c.reject (if p then e else .invariantViolation)).1 := by
  change IsInternal (if p then e else .invariantViolation)
  split_ifs
  · exact he
  · simp [IsInternal]

theorem addOrderWith_same (rollback : Branch) (orderId price : UInt64) (qty : UInt32)
    (side : UInt8) (timestamp : UInt64) :
    SameUnless (c.addOrderWith rollback orderId price qty side timestamp)
      (c.addOrder orderId price qty side timestamp) := by
  unfold addOrderWith addOrder
  refine same_ite (fun _ => same_refl _) fun _ => same_ite (fun _ => same_refl _) fun _ => ?_
  refine same_ite (fun _ => same_refl _) fun _ => same_ite (fun _ => same_refl _)
    fun _ => same_ite (fun _ => same_refl _) fun _ => same_ite (fun _ => same_refl _)
    fun hv => ?_
  refine same_ite (fun _ => same_refl _) fun _ => same_ite (fun _ => same_refl _)
    fun _ => same_ite (fun _ => same_refl _) fun _ => same_ite (fun hne => ?_)
    fun _ => same_refl _
  exact same_of_internal (internal_reject (commit_internal (by simpa using hv) hne) _)

theorem replaceReservedWith_same (rollback : Branch) (slot : OrderSlot) (oldId newId : UInt64)
    (res : OrderSlotReservation) (pr : PricePageReservation) (qty : UInt32) (timestamp : UInt64) :
    SameUnless (c.replaceReservedWith rollback slot oldId newId res pr qty timestamp)
      (c.replaceReserved slot oldId newId res pr qty timestamp) := by
  unfold replaceReservedWith replaceReserved
  refine same_ite (fun _ => same_refl _) fun _ => same_ite (fun _ => same_refl _)
    fun _ => same_ite (fun _ => same_refl _) fun _ => same_ite (fun _ => ?_) fun _ => same_refl _
  exact same_of_internal (by simp [reject, IsInternal])

theorem replaceOrderWith_same (rollback : Branch) (oldId newId price : UInt64) (qty : UInt32)
    (timestamp : UInt64) :
    SameUnless (c.replaceOrderWith rollback oldId newId price qty timestamp)
      (c.replaceOrder oldId newId price qty timestamp) := by
  unfold replaceOrderWith replaceOrder
  refine same_ite (fun _ => same_refl _) fun _ => same_ite (fun _ => same_refl _)
    fun _ => same_ite (fun _ => same_refl _) fun _ => ?_
  dsimp only
  generalize c.stateError (c.orders.findState oldId) = error
  cases error with
  | some e => exact same_refl _
  | none =>
    cases c.orders.findState oldId with
    | none => exact same_refl _
    | some slot =>
      exact same_ite (fun _ => same_refl _) fun _ => same_ite (fun _ => same_refl _)
        fun _ => same_ite (fun _ => same_refl _) fun _ => replaceReservedWith_same _ _ _ _ _ _ _ _

end Dead

/-! ## Runs -/

section Run

variable {m : BookManager} {b : BookModel} {l : UInt16}

/-- A routed operation that flags its book does not fail internally, if no book is flagged. -/
theorem routed_not_internal {f : BookContext → MutationResult × BookContext}
    (hf : ∀ c, Flags (f c))
    (hb : ∀ l' book, (m.routed l f).2.books l' = some book → book.localInvalid = false) :
    ¬ IsInternal (m.routed l f).1 := by
  intro hi
  unfold BookManager.routed at hb hi
  cases hfind : m.find l with
  | none =>
    rw [hfind] at hi
    simp [IsInternal] at hi
  | some book =>
    rw [hfind] at hb hi
    have hflag := hf ⟨book, m.orders, m.prices⟩ hi
    rw [hb l _ (Function.update_self ..)] at hflag
    cases hflag

theorem Refines.perform_not_internal (h : Refines m b) (op : BookOp) :
    ¬ IsInternal (m.perform op).1 := by
  have hbooks : ∀ l book, (m.perform op).2.books l = some book → book.localInvalid = false :=
    fun l book hb => ((h.perform op).refines.book l book hb).localInvalid
  cases op with
  | getOrCreate l =>
    show ¬ IsInternal (if (m.getOrCreate l).1.isSome then _ else _)
    split_ifs <;> simp [IsInternal]
  | addOrder l orderId price qty side timestamp =>
    exact routed_not_internal (fun _ => addOrder_flags orderId price qty side timestamp) hbooks
  | executeOrder l orderId qty timestamp =>
    exact routed_not_internal (fun _ => executeOrder_flags orderId qty timestamp) hbooks
  | cancelShares l orderId qty timestamp =>
    exact routed_not_internal (fun _ => cancelShares_flags orderId qty timestamp) hbooks
  | deleteOrder l orderId timestamp =>
    exact routed_not_internal (fun _ => deleteOrder_flags orderId timestamp) hbooks
  | replaceOrder l oldId newId newPrice newQty timestamp =>
    exact routed_not_internal (fun _ => replaceOrder_flags oldId newId newPrice newQty timestamp)
      hbooks

/-- The result of an operation on a book is that of the manager. -/
theorem routed_of_getOrderBook {f : BookContext → MutationResult × BookContext} {c : BookContext}
    (hc : m.getOrderBook l = some c) : (m.routed l f).1 = (f c).1 := by
  obtain ⟨book, hb, rfl⟩ := Option.map_eq_some_iff.1 hc
  unfold BookManager.routed
  rw [hb]

theorem run_manager (r : BookRun) (ops : List BookOp) : (r.run ops).manager = r.manager.run ops := by
  induction ops generalizing r with
  | nil => rfl
  | cons op ops ih => exact ih (r.step op)

theorem Refines.resting (h : Refines m b) (l : UInt16) (side : OrderSide) (x : ℕ) (r : UInt64) :
    BookManager.restingCount l side x (m.orders.live r) = BookModel.countAt l side x (b.live r)
      ∧ BookManager.restingQty l side x (m.orders.live r)
        = BookModel.qtyAt l side x (b.live r) := by
  have hm := h.stores.matching r
  cases hr : b.live r with
  | none =>
    rw [hr] at hm
    cases ho : m.orders.live r with
    | none => exact ⟨rfl, rfl⟩
    | some st =>
      rw [ho] at hm
      exact hm.elim
  | some o =>
    rw [hr] at hm
    obtain ⟨st, hst, hs⟩ := hm.some_right
    rw [hst]
    simp only [BookManager.restingCount, BookManager.restingQty, BookModel.countAt,
      BookModel.qtyAt, ModelOrder.AtLevel, hs.locate, hs.ofUInt8_side, hs.price, hs.qty]
    exact ⟨if_congr Iff.rfl rfl rfl, if_congr Iff.rfl rfl rfl⟩

/-- No run of a manager meets an internal failure or marks a book as invalid; the shares and the
orders of a level are counted without overflow; and the rollback branches are dead. -/
theorem internal_failures_unreachable {config : BookManagerConfig} {systemPageBytes : ℕ}
    {m : BookManager} (hm : BookManager.create config systemPageBytes = .ok m)
    (ops : List BookOp) :
    let m' := m.run ops
    (∀ op, ¬ IsInternal (m'.perform op).1)
    ∧ (∀ l book, m'.books l = some book → book.localInvalid = false)
    ∧ (∀ l side x, side ≠ .invalid → x < 2 ^ 32 →
      (m'.prices.levelOf l side x).orderCount.toNat
          = PointUpdate.total (BookManager.restingCount l side x) m'.orders.live
        ∧ (m'.prices.levelOf l side x).totalQty.toNat
          = PointUpdate.total (BookManager.restingQty l side x) m'.orders.live)
    ∧ ∀ l c, m'.getOrderBook l = some c → ∀ rollback : Branch,
      (∀ orderId price qty side timestamp,
        c.addOrderWith rollback orderId price qty side timestamp
          = c.addOrder orderId price qty side timestamp)
      ∧ ∀ oldId newId newPrice newQty timestamp,
        c.replaceOrderWith rollback oldId newId newPrice newQty timestamp
          = c.replaceOrder oldId newId newPrice newQty timestamp := by
  intro m'
  have h : Refines m' (BookRun.run ⟨m, .init⟩ ops).model := by
    have hr := BookRun.refines_run (r := ⟨m, .init⟩) (refines_fresh hm) ops
    rwa [run_manager] at hr
  refine ⟨h.perform_not_internal, fun l book hb => (h.book l book hb).localInvalid,
    fun l side x hv hx => ?_, fun l c hc rollback => ⟨?_, ?_⟩⟩
  · obtain ⟨hcount, hqty⟩ := h.stores.levels l side x hv hx
    rw [hcount, hqty]
    exact ⟨Finset.sum_congr rfl fun r _ => (h.resting l side x r).1.symm,
      Finset.sum_congr rfl fun r _ => (h.resting l side x r).2.symm⟩
  · intro orderId price qty side timestamp
    refine addOrderWith_same rollback orderId price qty side timestamp ?_
    rw [← routed_of_getOrderBook (f := fun c => c.addOrder orderId price qty side timestamp) hc]
    exact h.perform_not_internal (.addOrder l orderId price qty side timestamp)
  · intro oldId newId newPrice newQty timestamp
    refine replaceOrderWith_same rollback oldId newId newPrice newQty timestamp ?_
    rw [← routed_of_getOrderBook
      (f := fun c => c.replaceOrder oldId newId newPrice newQty timestamp) hc]
    exact h.perform_not_internal (.replaceOrder l oldId newId newPrice newQty timestamp)

/-- An order added to a manager of one direct slot, one bucket and one page. -/
theorem internal_failures_unreachable_smallest : ∃ m,
    BookManager.create ⟨⟨1, 1⟩, ⟨1⟩⟩ 4096 = .ok m
      ∧ ∀ op, ¬ IsInternal ((m.run [.getOrCreate 1, .addOrder 1 0 100 10 66 7]).perform op).1 := by
  obtain ⟨m, hm⟩ : ∃ m, BookManager.create ⟨⟨1, 1⟩, ⟨1⟩⟩ 4096 = .ok m := ⟨_, rfl⟩
  exact ⟨m, hm, (internal_failures_unreachable hm _).1⟩

end Run

end AstraFeed
