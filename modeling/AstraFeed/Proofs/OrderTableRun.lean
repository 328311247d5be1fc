import AstraFeed.OrderTableRun
import AstraFeed.Proofs.OrderTable

/-!
# The order table is a day-unique map

Whatever reservations are outstanding, those of one reference whose slot is still vacant all name
its first vacant slot, so at most one of them can be committed.
-/

namespace AstraFeed

namespace OrderTable

variable {t t' : OrderTable} {orderRef : UInt64} {slot : OrderSlot}

/-- While the slot of a reservation is vacant, its reference is unused and the slot is the first
vacant one the reference has. -/
def Awaits (t : OrderTable) (r : OrderSlotReservation) : Prop :=
  t.vacant (slotOf r) = true → ¬ t.Used r.orderRef
    ∧ (slotsOf t.config r.orderRef).find? t.vacant = some (slotOf r)

theorem TableInv.reserve_awaits (hI : t.TableInv) (orderRef : UInt64)
    (happ : (t.reserve orderRef).result = .applied) : t.Awaits (t.reserve orderRef) := by
  rcases hI.reserve_cases orderRef with ⟨_, hd⟩ | ⟨hu, _, href, _, hf⟩ | ⟨_, hc, _⟩
  · rw [hd] at happ
    cases happ
  · rw [Awaits, href]
    exact fun _ => ⟨hu, hf⟩
  · rw [hc] at happ
    cases happ

/-- The first vacant slot stays the first as others fill. -/
theorem find?_vacant_mono {slots : List OrderSlot} (h : slots.find? t.vacant = some slot)
    (hmono : ∀ s, t'.vacant s = true → t.vacant s = true) (hv : t'.vacant slot = true) :
    slots.find? t'.vacant = some slot := by
  induction slots with
  | nil => cases h
  | cons s slots ih =>
    by_cases hs : t.vacant s = true
    · rw [List.find?_cons_of_pos hs, Option.some_inj] at h
      rw [h, List.find?_cons_of_pos hv]
    · rw [List.find?_cons_of_neg hs] at h
      rw [List.find?_cons_of_neg fun hx => hs (hmono s hx)]
      exact ih h

theorem Awaits.place (hm : slot ∈ slotsOf t.config orderRef) (hv : t.vacant slot = true)
    {state : OrderState} (hs : wasSeen state = true)
    (hfirst : (slotsOf t.config orderRef).find? t.vacant = some slot)
    {r : OrderSlotReservation} (h : t.Awaits r) : (t.place slot orderRef state).Awaits r := by
  have hmono : ∀ s, (t.place slot orderRef state).vacant s = true →
      s ≠ slot ∧ t.vacant s = true := by
    intro s hx
    rw [vacant_iff, read_place] at hx
    split_ifs at hx with he
    · exact absurd hs hx
    · exact ⟨he, vacant_iff.2 hx⟩
  intro hvac
  obtain ⟨hne, hvac'⟩ := hmono _ hvac
  obtain ⟨hu, hf⟩ := h hvac'
  have href : r.orderRef ≠ orderRef := by
    intro he
    rw [he, hfirst, Option.some_inj] at hf
    exact hne hf.symm
  refine ⟨?_, ?_⟩
  · rw [used_place hm hs hv]
    exact not_or.2 ⟨href, hu⟩
  · rw [place_config]
    exact find?_vacant_mono hf (fun s hx => (hmono s hx).2) hvac

theorem Awaits.write (hseen : wasSeen (t.read slot) = true) {state : OrderState}
    (hs : wasSeen state = true) {r : OrderSlotReservation} (h : t.Awaits r) :
    (t.write slot state).Awaits r := by
  have hvac : (t.write slot state).vacant = t.vacant := by
    funext s
    rw [vacant, vacant, wasSeen_write hseen hs]
  unfold Awaits Used
  simp only [hvac, holds_write hseen hs, write_config]
  exact h

/-! ## Lookups of others -/

/-- A lookup depends only on the slots that are active for its reference. -/
theorem find_congr (hcfg : t'.config = t.config)
    (h : ∀ slot, t'.activeFor orderRef slot = t.activeFor orderRef slot) :
    t'.find orderRef = t.find orderRef := by
  have hp : t'.holdsActive orderRef = t.holdsActive orderRef := by
    funext p
    rw [holdsActive_eq, holdsActive_eq, h]
  have hd : isActive (t'.direct orderRef.toNat) = isActive (t.direct orderRef.toNat) := by
    have := h (.direct orderRef.toNat)
    simpa [activeFor, read, refAt] using this
  unfold find
  rw [hcfg, hp, hd]

theorem TableInv.find_place (hI : t.TableInv) (hm : slot ∈ slotsOf t.config orderRef)
    (hv : t.vacant slot = true) (state : OrderState) {r : UInt64} (hr : r ≠ orderRef) :
    (t.place slot orderRef state).find r = t.find r := by
  refine find_congr place_config fun s => ?_
  rw [Bool.eq_iff_iff, activeFor_iff, activeFor_iff, read_place, refAt_place hm]
  split_ifs with hs
  · refine iff_of_false (fun hx => hr (UInt64.toNat_inj.1 hx.2).symm) fun hx => ?_
    exact vacant_iff.1 hv (hs ▸ hI.active_seen s hx.1)
  · rfl

theorem find_write (hh : t.Holds orderRef slot) (state : OrderState) {r : UInt64}
    (hr : r ≠ orderRef) : (t.write slot state).find r = t.find r := by
  refine find_congr write_config fun s => ?_
  rw [Bool.eq_iff_iff, activeFor_iff, activeFor_iff, read_write, refAt_write]
  split_ifs with hs
  · have hne : t.refAt s ≠ r.toNat := by
      rw [hs, hh.2]
      exact fun hx => hr (UInt64.toNat_inj.1 hx).symm
    exact iff_of_false (fun hx => hne hx.2) fun hx => hne hx.2
  · rfl

end OrderTable

/-! ## The caller -/

namespace TableState

open OrderTable Function

variable {st : TableState}

structure Inv (st : TableState) : Prop where
  table : st.table.TableInv
  live : ∀ orderRef, st.table.live orderRef = st.live orderRef
  used : ∀ orderRef, st.table.Used orderRef ↔ orderRef ∈ st.used
  issued : ∀ r ∈ st.issued, r.result = .applied → st.table.Awaits r
  lookups : ∀ l ∈ st.lookups, (l.2.result = .applied → l.2.state.isSome)
    ∧ ∀ slot, l.2.state = some slot → st.table.Holds l.1 slot

theorem start_inv (config : OrderTableConfig) : (start config).Inv := by
  have hI := OrderTable.fresh_inv config
  have hu := fresh_not_used config
  refine ⟨hI, fun orderRef => ?_, fun orderRef => iff_of_false (hu orderRef) id, ?_, ?_⟩
  · simp only [start, OrderTable.live, hI.findState_eq_none (hu orderRef), Option.map_none]
  · simp [start]
  · simp [start]

theorem Inv.commit (h : st.Inv) {r : OrderSlotReservation} (hr : r ∈ st.issued)
    (state : OrderState) : (st.commit r state).Inv := by
  rcases commit_cases st.table r state with ⟨e, hne, he⟩ | ⟨happ, hfits, hv, he⟩
  · unfold TableState.commit
    rw [he]
    simp only [if_neg hne]
    exact h
  · obtain ⟨hu, hf⟩ := h.issued r hr happ hv
    have hm := hfits.slot_mem
    have hs := wasSeen_committed state
    unfold TableState.commit
    rw [he]
    simp only [if_true]
    refine ⟨h.table.place hm hu hs, fun x => ?_, fun x => ?_, fun x hx hxa => ?_, fun l hl => ?_⟩
    · dsimp only
      rw [h.table.live_place hm hu hv, update_apply, h.live]
    · dsimp only
      rw [used_place hm hs hv, h.used, Set.mem_insert_iff]
    · exact (h.issued x hx hxa).place hm hv hs hf
    · refine ⟨(h.lookups l hl).1, fun slot hslot => ?_⟩
      exact (holds_place hm hs hv _).2 (.inr ((h.lookups l hl).2 slot hslot))

theorem Inv.erased (h : st.Inv) {orderRef : UInt64} {slot : Option OrderSlot}
    (hslot : ∀ s, slot = some s → st.table.Holds orderRef s) :
    (st.erased orderRef (st.table.eraseState slot)).Inv := by
  unfold TableState.erased
  rcases eraseState_cases st.table slot with ⟨he, _⟩ | ⟨s, rfl, _, he⟩
  · rw [he]
    exact h
  · have hh := hslot s rfl
    have hs : wasSeen tombstone = true := by decide
    have ha : isActive tombstone = false := by decide
    rw [he]
    simp only [if_true]
    refine ⟨h.table.write hh.1 hs, fun x => ?_, fun x => ?_, fun x hx hxa => ?_, fun l hl => ?_⟩
    · dsimp only
      simp only [h.table.live_write hh hs, update_apply, h.live, ha, Bool.false_eq_true, if_false]
    · dsimp only
      rw [← h.used]
      exact exists_congr fun s' => holds_write hh.1 hs x
    · exact (h.issued x hx hxa).write hh.1 hs
    · refine ⟨(h.lookups l hl).1, fun slot hslot => ?_⟩
      exact (holds_write hh.1 hs _).2 ((h.lookups l hl).2 slot hslot)

theorem eraseLookup_eq {l : UInt64 × OrderLookup} (hl : l.2.result = .applied → l.2.state.isSome) :
    st.erased l.1 (st.table.eraseLookup l.2) = st.erased l.1 (st.table.eraseState l.2.state)
      ∨ st.erased l.1 (st.table.eraseLookup l.2) = st := by
  unfold eraseLookup
  split_ifs with hf
  · exact .inl rfl
  · refine .inr (if_neg fun happ => hf ?_)
    simp only [OrderLookup.found, hl happ, Bool.and_true, beq_iff_eq]
    exact happ

theorem Inv.step (h : st.Inv) (op : TableOp) : (st.step op).Inv := by
  cases op with
  | reserve orderRef =>
    refine ⟨h.table, h.live, h.used, fun r hr happ => ?_, h.lookups⟩
    rcases List.mem_append.1 hr with hr | hr
    · exact h.issued r hr happ
    · rw [List.mem_singleton.1 hr] at happ ⊢
      exact h.table.reserve_awaits orderRef happ
  | commit i state =>
    simp only [TableState.step]
    split
    · exact h
    · next r hr => exact h.commit (List.mem_of_getElem? hr) state
  | find orderRef =>
    refine ⟨h.table, h.live, h.used, h.issued, fun l hl => ?_⟩
    rcases List.mem_append.1 hl with hl | hl
    · exact h.lookups l hl
    · rw [List.mem_singleton.1 hl]
      refine ⟨fun happ => ?_, fun slot hslot => ?_⟩
      · rw [find_result] at happ
        rw [find_state]
        by_contra hn
        rw [if_neg hn] at happ
        cases happ
      · rw [find_state] at hslot
        exact h.table.used_of_findState hslot
  | erase orderRef =>
    exact h.erased fun s hs => h.table.used_of_findState hs
  | eraseState i =>
    simp only [TableState.step]
    split
    · exact h
    · next l hl => exact h.erased (h.lookups l (List.mem_of_getElem? hl)).2
  | eraseLookup i =>
    simp only [TableState.step]
    split
    · exact h
    · next l hl =>
      have hlk := h.lookups l (List.mem_of_getElem? hl)
      rcases eraseLookup_eq hlk.1 with he | he
      · rw [he]
        exact h.erased hlk.2
      · rw [he]
        exact h

theorem erased_config (orderRef : UInt64) (slot : Option OrderSlot) :
    (st.erased orderRef (st.table.eraseState slot)).table.config = st.table.config := by
  unfold erased
  rcases eraseState_cases st.table slot with ⟨he, _⟩ | ⟨s, _, _, he⟩
  · rw [he]
    rfl
  · rw [he]
    exact write_config

theorem Inv.step_config (h : st.Inv) (op : TableOp) :
    (st.step op).table.config = st.table.config := by
  cases op with
  | reserve r => rfl
  | commit i state =>
    simp only [TableState.step]
    split
    · rfl
    · next r hr =>
      unfold TableState.commit
      rcases commit_cases st.table r state with ⟨e, he, hc⟩ | ⟨_, _, _, hc⟩
      · rw [hc]
        simp only [if_neg he]
      · rw [hc]
        exact place_config
  | find r => rfl
  | erase r => exact erased_config r _
  | eraseState i =>
    simp only [TableState.step]
    split
    · rfl
    · next l _ => exact erased_config l.1 _
  | eraseLookup i =>
    simp only [TableState.step]
    split
    · rfl
    · next l hl =>
      rcases eraseLookup_eq (h.lookups l (List.mem_of_getElem? hl)).1 with he | he
      · rw [he]
        exact erased_config l.1 _
      · rw [he]

theorem Inv.run_config (h : st.Inv) (ops : List TableOp) :
    (st.run ops).table.config = st.table.config := by
  induction ops generalizing st with
  | nil => rfl
  | cons op ops ih => exact (ih (h.step op)).trans (h.step_config op)

theorem Inv.run (h : st.Inv) (ops : List TableOp) : (st.run ops).Inv := by
  induction ops generalizing st with
  | nil => exact h
  | cons op ops ih => exact ih (h.step op)

theorem step_table_eq (op : TableOp) (h : st.Inv) {orderRef : UInt64}
    (hne : st.subject op ≠ some orderRef) :
    (st.step op).table.find orderRef = st.table.find orderRef
      ∧ (st.step op).live orderRef = st.live orderRef := by
  have herased : ∀ (r : UInt64) (slot : Option OrderSlot), r ≠ orderRef →
      (∀ s, slot = some s → st.table.Holds r s) →
      (st.erased r (st.table.eraseState slot)).table.find orderRef = st.table.find orderRef
        ∧ (st.erased r (st.table.eraseState slot)).live orderRef = st.live orderRef := by
    intro r slot hr hslot
    unfold TableState.erased
    rcases eraseState_cases st.table slot with ⟨he, _⟩ | ⟨s, rfl, _, he⟩
    · rw [he]
      exact ⟨rfl, rfl⟩
    · rw [he]
      simp only [if_true]
      exact ⟨find_write (hslot s rfl) _ hr.symm, update_of_ne hr.symm _ _⟩
  cases op with
  | reserve r => exact ⟨rfl, rfl⟩
  | commit i state =>
    simp only [TableState.step]
    split
    · exact ⟨rfl, rfl⟩
    · next r hr =>
      have hro : r.orderRef ≠ orderRef := by simpa [subject, hr] using hne
      unfold TableState.commit
      rcases commit_cases st.table r state with ⟨e, he, hc⟩ | ⟨_, hfits, hv, hc⟩
      · rw [hc]
        simp only [if_neg he, and_self]
      · rw [hc]
        simp only [if_true]
        exact ⟨h.table.find_place hfits.slot_mem hv _ hro.symm, update_of_ne hro.symm _ _⟩
  | find r => exact ⟨rfl, rfl⟩
  | erase r =>
    exact herased r _ (by simpa [subject] using hne) fun s hs => h.table.used_of_findState hs
  | eraseState i =>
    simp only [TableState.step]
    split
    · exact ⟨rfl, rfl⟩
    · next l hl =>
      exact herased l.1 _ (by simpa [subject, hl] using hne)
        (h.lookups l (List.mem_of_getElem? hl)).2
  | eraseLookup i =>
    simp only [TableState.step]
    split
    · exact ⟨rfl, rfl⟩
    · next l hl =>
      have hlk := h.lookups l (List.mem_of_getElem? hl)
      rcases eraseLookup_eq hlk.1 with he | he
      · rw [he]
        exact herased l.1 _ (by simpa [subject, hl] using hne) hlk.2
      · rw [he]
        exact ⟨rfl, rfl⟩

theorem eraseState_eq_self {t : OrderTable} {slot : Option OrderSlot}
    (h : (t.eraseState slot).1 ≠ .applied) : (t.eraseState slot).2 = t := by
  rcases eraseState_cases t slot with ⟨he, _⟩ | ⟨s, _, _, he⟩
  · rw [he]
  · rw [he] at h
    exact absurd rfl h

/-- What is reserved can be committed at once. -/
theorem Inv.commit_reserve (h : st.Inv) (hcount : st.table.config.fallbackBucketCount ≠ 0)
    {orderRef : UInt64} (hu : orderRef ∉ st.used)
    (hroom : (st.table.reserve orderRef).result ≠ .orderTableCapacityExceeded)
    (state : OrderState) : (st.table.commit (st.table.reserve orderRef) state).1 = .applied := by
  rcases h.table.reserve_cases orderRef with ⟨hused, _⟩ | ⟨_, happ, _, hfits, hfirst⟩
    | ⟨_, hfull, _⟩
  · exact absurd ((h.used orderRef).1 hused) hu
  · rw [commit_of_fits hcount happ hfits (List.find?_some hfirst)]
  · exact absurd hfull hroom

/-- In every run the table is the map of the live orders, and no reference is used twice; an unused
one is reserved and committed as long as it has a slot. A table without buckets is never built. -/
theorem orderTable_day_unique (config : OrderTableConfig) (ops : List TableOp) :
    let st := (start config).run ops
    (∀ orderRef, (st.table.find orderRef).state = st.table.findState orderRef
      ∧ (st.table.find orderRef).found = (st.table.findState orderRef).isSome
      ∧ (st.table.findState orderRef).map st.table.read = st.live orderRef
      ∧ ∀ state ∈ st.live orderRef, isActive state = true ∧ wasSeen state = true)
    ∧ (∀ orderRef, (st.table.reserve orderRef).result = .duplicateOrderRef ↔ orderRef ∈ st.used)
    ∧ (∀ r ∈ st.issued, ∀ state, (st.table.commit r state).1 = .applied → r.orderRef ∉ st.used)
    ∧ (config.fallbackBucketCount ≠ 0 → ∀ orderRef ∉ st.used,
      (st.table.reserve orderRef).result ≠ .orderTableCapacityExceeded →
      ∀ state, (st.table.commit (st.table.reserve orderRef) state).1 = .applied)
    ∧ (∀ orderRef slot slot', st.table.Holds orderRef slot → st.table.Holds orderRef slot' →
      slot = slot' ∧ slot ∈ slotsOf config orderRef)
    ∧ (∀ op orderRef, st.subject op ≠ some orderRef →
      (st.step op).table.find orderRef = st.table.find orderRef
        ∧ (st.step op).live orderRef = st.live orderRef)
    ∧ (∀ orderRef, (st.table.reserve orderRef).result = .orderTableCapacityExceeded →
      orderRef ∉ st.used ∧ config.directSlots ≤ orderRef
        ∧ ∀ slot ∈ slotsOf config orderRef, wasSeen (st.table.read slot) = true)
    ∧ (∀ r state, (st.table.commit r state).1 ≠ .applied → (st.table.commit r state).2 = st.table)
    ∧ (∀ orderRef, (st.table.erase orderRef).1 ≠ .applied → (st.table.erase orderRef).2 = st.table)
    ∧ (∀ slot, (st.table.eraseState slot).1 ≠ .applied →
      (st.table.eraseState slot).2 = st.table)
    ∧ ∀ l, (st.table.eraseLookup l).1 ≠ .applied → (st.table.eraseLookup l).2 = st.table := by
  intro st
  have h : st.Inv := (start_inv config).run ops
  have hcfg : st.table.config = config := (start_inv config).run_config ops
  refine ⟨fun orderRef => ⟨find_state, ?_, h.live orderRef, fun state hs => ?_⟩, fun orderRef => ?_,
    fun r hr state happ => ?_, fun hcount orderRef hu hroom state =>
      h.commit_reserve (hcfg ▸ hcount) hu hroom state, fun orderRef slot slot' hs hs' => ?_,
    fun op orderRef hne => step_table_eq op h hne, fun orderRef hc => ?_, fun r state hne => ?_,
    fun orderRef hne => eraseState_eq_self hne, fun slot hne => eraseState_eq_self hne,
    fun l hne => ?_⟩
  · rw [OrderLookup.found, find_result, find_state]
    cases st.table.findState orderRef <;> rfl
  · rw [← h.live] at hs
    obtain ⟨slot, hf, rfl⟩ := Option.map_eq_some_iff.1 hs
    have ha := (h.table.findState_iff.1 hf).1
    exact ⟨ha, h.table.active_seen slot ha⟩
  · rw [← h.used]
    rcases h.table.reserve_cases orderRef with ⟨hu, hd⟩ | ⟨hu, hd, _⟩ | ⟨hu, hd, _⟩
    · exact iff_of_true hd hu
    · exact iff_of_false (by rw [hd]; simp) hu
    · exact iff_of_false (by rw [hd]; simp) hu
  · rcases commit_cases st.table r state with ⟨e, hne, he⟩ | ⟨hres, _, hv, _⟩
    · rw [he] at happ
      exact absurd happ hne
    · rw [← h.used]
      exact (h.issued r hr hres hv).1
  · exact ⟨h.table.unique slot slot' hs.1 hs'.1 (hs.2.trans hs'.2.symm),
      hcfg ▸ h.table.mem_slotsOf hs⟩
  · rw [← h.used, ← hcfg]
    rcases h.table.reserve_cases orderRef with ⟨_, hd⟩ | ⟨_, hd, _⟩ | ⟨hu, _, hle, hall⟩
    · rw [hd] at hc
      cases hc
    · rw [hd] at hc
      cases hc
    · exact ⟨hu, hle, hall⟩
  · rcases commit_cases st.table r state with ⟨e, _, he⟩ | ⟨_, _, _, he⟩
    · rw [he]
    · rw [he] at hne
      exact absurd rfl hne
  · unfold eraseLookup at hne ⊢
    split_ifs at hne ⊢
    · exact eraseState_eq_self hne
    · rfl

end TableState

end AstraFeed
