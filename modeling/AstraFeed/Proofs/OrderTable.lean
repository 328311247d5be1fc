import Mathlib.Data.List.Basic
import Mathlib.Tactic.Ring
import AstraFeed.TableInvariant

/-!
# The operations of the order table

Lookups, reservations and commits in terms of the slots of a reference, and that every commit and
erase keeps the invariant.
-/

namespace AstraFeed

namespace OrderTable

open Function

variable {t : OrderTable} {orderRef : UInt64} {slot : OrderSlot}

/-- The slot a reservation is for. -/
def slotOf (r : OrderSlotReservation) : OrderSlot :=
  if r.path = .direct then .direct r.orderRef.toNat else .fallback r.bucket.toNat r.way.toNat

/-! ## Lookups -/

/-- The slot holds the live order of the reference. -/
def activeFor (t : OrderTable) (orderRef : UInt64) (slot : OrderSlot) : Bool :=
  isActive (t.read slot) && t.refAt slot == orderRef.toNat

theorem holdsActive_eq (p : LookupPath × UInt32 × UInt8) :
    t.holdsActive orderRef p
      = t.activeFor orderRef (.fallback p.2.1.toNat p.2.2.toNat) := by
  unfold holdsActive activeFor
  congr 1
  rw [Bool.eq_iff_iff, beq_iff_eq, beq_iff_eq]
  exact UInt64.toNat_inj.symm

theorem findState_eq :
    t.findState orderRef = (slotsOf t.config orderRef).find? (t.activeFor orderRef) := by
  unfold findState slotsOf
  by_cases h : orderRef < t.config.directSlots
  · rw [if_neg (UInt64.not_le.2 h), if_pos h]
    simp only [List.find?_singleton, activeFor, read, refAt, beq_self_eq_true, Bool.and_true]
  · rw [if_pos (UInt64.not_lt.1 h), if_neg h, findFallbackState, List.find?_map]
    congr 2
    funext p
    exact holdsActive_eq p

theorem find_state : (t.find orderRef).state = t.findState orderRef := by
  unfold find findState findFallbackState
  by_cases h : orderRef < t.config.directSlots
  · rw [if_pos h, if_neg (UInt64.not_le.2 h)]
    split_ifs <;> rfl
  · rw [if_neg h, if_pos (UInt64.not_lt.1 h)]
    cases (fallbackProbes t.config orderRef).find? (t.holdsActive orderRef) <;> rfl

theorem find_result : (t.find orderRef).result
    = if (t.findState orderRef).isSome then .applied else .orderNotFound := by
  unfold find findState findFallbackState
  by_cases h : orderRef < t.config.directSlots
  · rw [if_pos h, if_neg (UInt64.not_le.2 h)]
    split_ifs <;> simp_all
  · rw [if_neg h, if_pos (UInt64.not_lt.1 h)]
    cases (fallbackProbes t.config orderRef).find? (t.holdsActive orderRef) <;> rfl

theorem activeFor_iff : t.activeFor orderRef slot = true
    ↔ isActive (t.read slot) = true ∧ t.refAt slot = orderRef.toNat := by
  simp [activeFor]

theorem TableInv.mem_slotsOf (hI : t.TableInv) (h : t.Holds orderRef slot) :
    slot ∈ slotsOf t.config orderRef := by
  obtain ⟨r, hr, hm⟩ := hI.mem_slots slot h.1
  rwa [← UInt64.toNat_inj.1 (hr.symm.trans h.2)]

/-- A lookup finds the slot that holds the live order. -/
theorem TableInv.findState_iff (hI : t.TableInv) : t.findState orderRef = some slot
    ↔ isActive (t.read slot) = true ∧ t.refAt slot = orderRef.toNat := by
  rw [findState_eq]
  constructor
  · intro h
    exact activeFor_iff.1 (List.find?_some h)
  · intro h
    have hm := hI.mem_slotsOf ⟨hI.active_seen slot h.1, h.2⟩
    cases hf : (slotsOf t.config orderRef).find? (t.activeFor orderRef) with
    | none => exact absurd (activeFor_iff.2 h) (List.find?_eq_none.1 hf slot hm)
    | some slot' =>
      obtain ⟨ha, hr⟩ := activeFor_iff.1 (List.find?_some hf)
      rw [hI.unique slot' slot (hI.active_seen _ ha) (hI.active_seen _ h.1) (hr.trans h.2.symm)]

theorem TableInv.findState_eq_none (hI : t.TableInv) (h : ¬ t.Used orderRef) :
    t.findState orderRef = none := by
  rw [Option.eq_none_iff_forall_ne_some]
  intro slot hs
  obtain ⟨ha, hr⟩ := hI.findState_iff.1 hs
  exact h ⟨slot, hI.active_seen slot ha, hr⟩

theorem TableInv.used_of_findState (hI : t.TableInv) (h : t.findState orderRef = some slot) :
    t.Holds orderRef slot := by
  obtain ⟨ha, hr⟩ := hI.findState_iff.1 h
  exact ⟨hI.active_seen slot ha, hr⟩

/-! ## Reservations -/

/-- The entry was committed for the reference. -/
def heldFor (t : OrderTable) (orderRef : UInt64) (p : LookupPath × UInt32 × UInt8) : Bool :=
  wasSeen (t.entryAt p).state && (t.entryAt p).orderRef == orderRef

def vacant (t : OrderTable) (slot : OrderSlot) : Bool := !wasSeen (t.read slot)

def slotAt (p : LookupPath × UInt32 × UInt8) : OrderSlot := .fallback p.2.1.toNat p.2.2.toNat

/-- The scan returns the duplicate if there is one, and else the first vacant entry. -/
theorem reserveScan_eq (ps : List (LookupPath × UInt32 × UInt8)) (r : OrderSlotReservation) :
    t.reserveScan orderRef ps r =
      match ps.find? (t.heldFor orderRef) with
      | some p => ⟨.duplicateOrderRef, p.1, orderRef, p.2.1, p.2.2⟩
      | none =>
        if r.valid then r
        else
          match ps.find? fun p => t.vacant (slotAt p) with
          | some p => ⟨.applied, p.1, orderRef, p.2.1, p.2.2⟩
          | none => r := by
  induction ps generalizing r with
  | nil => simp [reserveScan]
  | cons p ps ih =>
    have hread : t.read (slotAt p) = (t.entryAt p).state := rfl
    rw [reserveScan]
    by_cases hseen : wasSeen (t.entryAt p).state = true
    · rw [if_pos hseen]
      by_cases href : (t.entryAt p).orderRef = orderRef
      · rw [if_pos href, List.find?_cons_of_pos (by simp [heldFor, hseen, href])]
      · rw [if_neg href, ih, List.find?_cons_of_neg (by simp [heldFor, href]),
          List.find?_cons_of_neg (p := fun p => t.vacant (slotAt p))
            (by simp [vacant, hread, hseen])]
    · rw [if_neg hseen, List.find?_cons_of_neg (by simp [heldFor, hseen]),
        List.find?_cons_of_pos (p := fun p => t.vacant (slotAt p))
          (by simpa [vacant, hread] using hseen)]
      by_cases hv : r.valid = true
      · simp only [hv, Bool.not_true, Bool.false_eq_true, if_false, ih, if_true]
      · have hv' : OrderSlotReservation.valid ⟨.applied, p.1, orderRef, p.2.1, p.2.2⟩ = true := rfl
        simp only [hv, Bool.not_false, if_true, ih, hv', Bool.false_eq_true, if_false]

theorem slotsOf_of_le (h : ¬ orderRef < t.config.directSlots) :
    slotsOf t.config orderRef = (fallbackProbes t.config orderRef).map slotAt := if_neg h

theorem path_ne_direct {config : OrderTableConfig} {p : LookupPath × UInt32 × UInt8}
    (hp : p ∈ fallbackProbes config orderRef) : p.1 ≠ .direct := by
  unfold fallbackProbes at hp
  dsimp only at hp
  split_ifs at hp
  all_goals
    simp only [List.mem_cons, List.not_mem_nil, or_false] at hp
    rcases hp with rfl | rfl | rfl | rfl <;> simp

theorem heldFor_iff {p : LookupPath × UInt32 × UInt8} :
    t.heldFor orderRef p = true ↔ t.Holds orderRef (slotAt p) := by
  simp only [heldFor, Holds, Bool.and_eq_true, beq_iff_eq]
  exact and_congr_right fun _ => UInt64.toNat_inj.symm

/-- The reservation names one of the slots of its reference. -/
def Fits (config : OrderTableConfig) (r : OrderSlotReservation) : Prop :=
  if r.orderRef < config.directSlots then r.path = .direct
  else (r.path, r.bucket, r.way) ∈ fallbackProbes config r.orderRef

/-- Reserving a reference: a used one is a duplicate, an unused one gets its first vacant slot, and
only a fallback reference can be left with none. -/
theorem TableInv.reserve_cases (hI : t.TableInv) (orderRef : UInt64) :
    t.Used orderRef ∧ (t.reserve orderRef).result = .duplicateOrderRef
    ∨ ¬ t.Used orderRef ∧ (t.reserve orderRef).result = .applied
      ∧ (t.reserve orderRef).orderRef = orderRef ∧ Fits t.config (t.reserve orderRef)
      ∧ (slotsOf t.config orderRef).find? t.vacant = some (slotOf (t.reserve orderRef))
    ∨ ¬ t.Used orderRef ∧ (t.reserve orderRef).result = .orderTableCapacityExceeded
      ∧ t.config.directSlots ≤ orderRef
      ∧ ∀ slot ∈ slotsOf t.config orderRef, wasSeen (t.read slot) = true := by
  by_cases hd : orderRef < t.config.directSlots
  · have hslots : slotsOf t.config orderRef = [.direct orderRef.toNat] := if_pos hd
    unfold reserve
    rw [if_pos hd, hslots]
    split_ifs with hs
    · exact .inl ⟨⟨.direct orderRef.toNat, hs, rfl⟩, rfl⟩
    · refine .inr (.inl ⟨?_, rfl, rfl, by simp only [Fits, if_pos hd], ?_⟩)
      · rintro ⟨slot, hslot⟩
        have hm := hI.mem_slotsOf hslot
        rw [hslots, List.mem_singleton] at hm
        rw [hm] at hslot
        exact hs hslot.1
      · rw [List.find?_singleton, if_pos (by simpa [vacant, read] using hs)]
        rfl
  · have hslots := slotsOf_of_le (t := t) hd
    unfold reserve
    rw [if_neg hd, reserveScan_eq, hslots, List.find?_map]
    cases hf : (fallbackProbes t.config orderRef).find? (t.heldFor orderRef) with
    | some p => exact .inl ⟨⟨slotAt p, heldFor_iff.1 (List.find?_some hf)⟩, rfl⟩
    | none =>
      have hunused : ¬ t.Used orderRef := by
        rintro ⟨slot, hslot⟩
        have hm := hI.mem_slotsOf hslot
        rw [hslots, List.mem_map] at hm
        obtain ⟨p, hp, rfl⟩ := hm
        exact List.find?_eq_none.1 hf p hp (heldFor_iff.2 hslot)
      refine .inr ?_
      rw [if_neg (by simp [OrderSlotReservation.valid])]
      cases hv : (fallbackProbes t.config orderRef).find? fun p => t.vacant (slotAt p) with
      | some p =>
        have hm := List.mem_of_find?_eq_some hv
        have hp := path_ne_direct hm
        refine .inl ⟨hunused, rfl, rfl, by simp only [Fits, if_neg hd]; exact hm, ?_⟩
        rw [show (t.vacant ∘ slotAt) = fun p => t.vacant (slotAt p) from rfl, hv]
        simp [slotOf, hp, slotAt]
      | none =>
        refine .inr ⟨hunused, rfl, UInt64.not_lt.1 hd, fun slot hm => ?_⟩
        obtain ⟨p, hp, rfl⟩ := List.mem_map.1 hm
        simpa [vacant] using List.find?_eq_none.1 hv p hp

/-! ## Commits -/

/-- The table after an order is committed to a slot. -/
def place (t : OrderTable) (slot : OrderSlot) (orderRef : UInt64) (state : OrderState) :
    OrderTable :=
  match slot with
  | .direct index => { t with direct := update t.direct index state }
  | .fallback bucket way =>
    { t with
      fallbackEntry := update t.fallbackEntry bucket
        (update (t.fallbackEntry bucket) way ⟨state, orderRef⟩) }

theorem mem_fallbackProbes {config : OrderTableConfig} {path : LookupPath} {bucket : UInt32}
    {way : UInt8} : (path, bucket, way) ∈ fallbackProbes config orderRef ↔ way.toNat < kFallbackWays
      ∧ (path = .fallbackPrimary ∧ bucket = (fallbackCandidateBuckets config orderRef).1
        ∨ path = .fallbackSecondary ∧ bucket = (fallbackCandidateBuckets config orderRef).2
          ∧ (fallbackCandidateBuckets config orderRef).1
            ≠ (fallbackCandidateBuckets config orderRef).2) := by
  have hway : way.toNat < kFallbackWays ↔ way = 0 ∨ way = 1 := by
    rw [← UInt8.toNat_inj, ← UInt8.toNat_inj, kFallbackWays, show (0 : UInt8).toNat = 0 from rfl,
      show (1 : UInt8).toNat = 1 from rfl]
    omega
  rw [hway]
  unfold fallbackProbes
  dsimp only
  split_ifs with h
  · simp only [List.mem_cons, Prod.mk.injEq, List.not_mem_nil, or_false]
    grind
  · simp only [List.mem_cons, Prod.mk.injEq, List.not_mem_nil, or_false]
    grind

theorem candidate_lt {config : OrderTableConfig} (hcount : config.fallbackBucketCount ≠ 0)
    (orderRef : UInt64) :
    (fallbackCandidateBuckets config orderRef).1 < config.fallbackBucketCount
      ∧ (fallbackCandidateBuckets config orderRef).2 < config.fallbackBucketCount := by
  have hlt : ∀ x, x &&& (config.fallbackBucketCount - 1) < config.fallbackBucketCount := by
    intro x
    have hpos : 0 < config.fallbackBucketCount.toNat := by
      rw [Nat.pos_iff_ne_zero]
      exact fun h0 => hcount (UInt32.toNat_inj.1 h0)
    have hle := Nat.and_le_right (n := x.toNat) (m := (config.fallbackBucketCount - 1).toNat)
    have hsub : (config.fallbackBucketCount - 1).toNat = config.fallbackBucketCount.toNat - 1 :=
      UInt32.toNat_sub_of_le _ _ (UInt32.le_iff_toNat_le.2 hpos)
    rw [UInt32.lt_iff_toNat_lt, UInt32.toNat_and]
    omega
  simp only [fallbackCandidateBuckets]
  generalize (hashPrimary orderRef).toUInt32 = primary
  generalize (hashSecondary orderRef).toUInt32 = secondary
  split_ifs
  · exact ⟨hlt _, hlt _⟩
  · exact ⟨hlt _, hlt _⟩

/-- A commit of a reservation for a vacant slot of its reference is applied. -/
theorem commit_of_fits (hcount : t.config.fallbackBucketCount ≠ 0) {r : OrderSlotReservation}
    (happ : r.result = .applied) (hfits : Fits t.config r) (hvac : t.vacant (slotOf r) = true)
    (state : OrderState) :
    t.commit r state = (.applied, t.place (slotOf r) r.orderRef (committed state)) := by
  unfold commit
  rw [if_neg (by simp [OrderSlotReservation.valid, happ])]
  unfold Fits at hfits
  split_ifs at hfits with hd
  · have hslot : slotOf r = .direct r.orderRef.toNat := if_pos hfits
    rw [hslot] at hvac ⊢
    rw [if_pos hfits, if_neg (UInt64.not_le.2 hd),
      if_neg (by simpa [vacant, read] using hvac)]
    rfl
  · have hpath : r.path ≠ .direct := path_ne_direct hfits
    have hslot : slotOf r = .fallback r.bucket.toNat r.way.toNat := if_neg hpath
    have hlt := candidate_lt hcount r.orderRef
    rw [hslot] at hvac ⊢
    obtain ⟨hway, hb⟩ := mem_fallbackProbes.1 hfits
    have hseen : ¬ wasSeen (t.fallbackEntry r.bucket.toNat r.way.toNat).state = true := by
      simpa [vacant, read] using hvac
    rcases hb with ⟨hp, hb⟩ | ⟨hp, hb, hne⟩
    · rw [if_neg hpath, if_neg, if_neg, if_neg hseen]
      · rfl
      · simp [hp, hb]
      · rw [hb]
        simp [hp, UInt32.not_le.2 hlt.1, Nat.not_le.2 hway, hd]
    · rw [if_neg hpath, if_neg, if_neg, if_neg hseen]
      · rfl
      · simp [hp, hb, hne]
      · rw [hb]
        simp [hp, UInt32.not_le.2 hlt.2, Nat.not_le.2 hway, hd]

/-- What a commit can do: it is refused and changes nothing, or it fills a vacant slot of the
reference. -/
theorem commit_cases (t : OrderTable) (r : OrderSlotReservation) (state : OrderState) :
    (∃ e, e ≠ .applied ∧ t.commit r state = (e, t))
      ∨ r.result = .applied ∧ Fits t.config r ∧ t.vacant (slotOf r) = true
        ∧ t.commit r state = (.applied, t.place (slotOf r) r.orderRef (committed state)) := by
  have hstale : ∃ e, e ≠ MutationResult.applied ∧ (MutationResult.staleReservation, t) = (e, t) :=
    ⟨_, by simp, rfl⟩
  unfold commit
  by_cases h1 : (!r.valid) = true
  · rw [if_pos h1]
    exact .inl ⟨_, by simpa [OrderSlotReservation.valid] using h1, rfl⟩
  have happ : r.result = .applied := by simpa [OrderSlotReservation.valid] using h1
  rw [if_neg h1]
  by_cases h2 : r.path = .direct
  · rw [if_pos h2]
    split_ifs with h3 h4
    · exact .inl hstale
    · exact .inl hstale
    · have hslot : slotOf r = .direct r.orderRef.toNat := if_pos h2
      refine .inr ⟨happ, ?_, ?_, ?_⟩
      · rw [Fits, if_pos (UInt64.not_le.1 h3)]
        exact h2
      · rw [hslot]
        simpa [vacant, read] using h4
      · rw [hslot]
        rfl
  rw [if_neg h2]
  split
  · exact .inl hstale
  next h5 =>
  push Not at h5
  have hway : r.way.toNat < kFallbackWays := by
    have := h5.2.2.1
    omega
  have hslot : slotOf r = .fallback r.bucket.toNat r.way.toNat := if_neg h2
  have hfits : Fits t.config r ↔ (r.path, r.bucket, r.way) ∈ fallbackProbes t.config r.orderRef := by
    rw [Fits, if_neg h5.2.2.2]
  rw [hslot, hfits, mem_fallbackProbes]
  by_cases hp : r.path = .fallbackPrimary
  · simp only [hp, beq_self_eq_true, if_true, Bool.not_true, Bool.false_eq_true, false_and,
      or_false]
    split_ifs with h6 h7
    · exact .inl hstale
    · exact .inl hstale
    · refine .inr ⟨happ, ⟨hway, .inl ⟨trivial, not_ne_iff.1 h6⟩⟩, ?_, rfl⟩
      simpa [vacant, read] using h7
  · simp only [beq_eq_false_iff_ne.2 hp, Bool.false_eq_true, if_false, Bool.not_false, true_and]
    split_ifs with h6 h7
    · exact .inl hstale
    · exact .inl hstale
    · push Not at h6
      refine .inr ⟨happ, ⟨hway, .inr ⟨h5.1 hp, h6.1, h6.2⟩⟩, ?_, rfl⟩
      simpa [vacant, read] using h7

theorem Fits.slot_mem {config : OrderTableConfig} {r : OrderSlotReservation}
    (h : Fits config r) : slotOf r ∈ slotsOf config r.orderRef := by
  unfold Fits at h
  unfold slotOf slotsOf
  by_cases hd : r.orderRef < config.directSlots
  · rw [if_pos hd] at h ⊢
    rw [if_pos h]
    exact List.mem_singleton.2 rfl
  · rw [if_neg hd] at h ⊢
    rw [if_neg (path_ne_direct h)]
    exact List.mem_map.2 ⟨_, h, rfl⟩

section Place

variable {state : OrderState} {slot' : OrderSlot}

@[simp] theorem place_config : (t.place slot orderRef state).config = t.config := by
  cases slot <;> rfl

theorem read_place : (t.place slot orderRef state).read slot'
    = if slot' = slot then state else t.read slot' := by
  cases slot with
  | direct i => cases slot' <;> simp [place, read, update_apply]
  | fallback b w =>
    cases slot' with
    | direct j => simp [place, read]
    | fallback c v =>
      by_cases hb : c = b
      · subst hb
        by_cases hw : v = w <;> simp [place, read, hw]
      · simp [place, read, hb]

theorem refAt_place (hm : slot ∈ slotsOf t.config orderRef) :
    (t.place slot orderRef state).refAt slot'
      = if slot' = slot then orderRef.toNat else t.refAt slot' := by
  cases slot with
  | direct i =>
    have hi : i = orderRef.toNat := by
      unfold slotsOf at hm
      split_ifs at hm
      · simpa using hm
      · simp at hm
    cases slot' <;> simp_all [place, refAt]
  | fallback b w =>
    cases slot' with
    | direct j => simp [refAt]
    | fallback c v =>
      by_cases hb : c = b
      · subst hb
        by_cases hw : v = w <;> simp [place, refAt, hw]
      · simp [place, refAt, hb]

theorem isActive_committed (state : OrderState) : isActive (committed state) = true := by
  simp only [isActive, committed, kOrderStateActive, kOrderStateSeen, bne_iff_ne, ne_eq]
  intro h
  have := congrArg (fun x : UInt8 => x.toBitVec.getLsbD 0) h
  simp at this

theorem wasSeen_committed (state : OrderState) : wasSeen (committed state) = true := by
  simp only [wasSeen, committed, kOrderStateActive, kOrderStateSeen, bne_iff_ne, ne_eq]
  intro h
  have := congrArg (fun x : UInt8 => x.toBitVec.getLsbD 1) h
  simp at this

theorem vacant_iff : t.vacant slot = true ↔ ¬ wasSeen (t.read slot) = true := by
  simp [vacant]

theorem TableInv.place (hI : t.TableInv) (hm : slot ∈ slotsOf t.config orderRef)
    (hu : ¬ t.Used orderRef) (hs : wasSeen state = true) :
    (t.place slot orderRef state).TableInv where
  active_seen := fun slot' => by
    rw [read_place]
    split_ifs
    · exact fun _ => hs
    · exact hI.active_seen slot'
  mem_slots := fun slot' => by
    rw [read_place, refAt_place hm, place_config]
    split_ifs with h
    · exact fun _ => ⟨orderRef, rfl, h ▸ hm⟩
    · exact hI.mem_slots slot'
  unique := fun slot₁ slot₂ => by
    rw [read_place, read_place, refAt_place hm, refAt_place hm]
    split_ifs with h1 h2 h2
    · exact fun _ _ _ => h1.trans h2.symm
    · exact fun _ hs₂ hr => absurd ⟨slot₂, hs₂, hr.symm⟩ hu
    · exact fun hs₁ _ hr => absurd ⟨slot₁, hs₁, hr⟩ hu
    · exact hI.unique slot₁ slot₂

theorem holds_place (hm : slot ∈ slotsOf t.config orderRef) (hs : wasSeen state = true)
    (hv : t.vacant slot = true) (r : UInt64) : (t.place slot orderRef state).Holds r slot'
      ↔ r = orderRef ∧ slot' = slot ∨ t.Holds r slot' := by
  rw [vacant_iff] at hv
  unfold Holds
  rw [read_place, refAt_place hm]
  split_ifs with h
  · subst h
    rw [and_iff_right hs, UInt64.toNat_inj, and_iff_left rfl]
    exact ⟨fun hr => .inl hr.symm, fun hr => hr.elim Eq.symm fun hx => absurd hx.1 hv⟩
  · exact ⟨.inr, fun hr => hr.elim (fun hx => absurd hx.2 h) id⟩

theorem used_place (hm : slot ∈ slotsOf t.config orderRef) (hs : wasSeen state = true)
    (hv : t.vacant slot = true) (r : UInt64) :
    (t.place slot orderRef state).Used r ↔ r = orderRef ∨ t.Used r := by
  unfold Used
  simp only [holds_place hm hs hv]
  constructor
  · rintro ⟨slot', ⟨hr, _⟩ | hx⟩
    · exact .inl hr
    · exact .inr ⟨slot', hx⟩
  · rintro (rfl | ⟨slot', hx⟩)
    · exact ⟨slot, .inl ⟨rfl, rfl⟩⟩
    · exact ⟨slot', .inr hx⟩

theorem TableInv.findState_place (hI : t.TableInv) (hm : slot ∈ slotsOf t.config orderRef)
    (hu : ¬ t.Used orderRef) (hv : t.vacant slot = true) (hs : wasSeen state = true)
    (ha : isActive state = true) (r : UInt64) :
    (t.place slot orderRef state).findState r
      = if r = orderRef then some slot else t.findState r := by
  rw [vacant_iff] at hv
  ext slot'
  rw [(hI.place hm hu hs).findState_iff, read_place, refAt_place hm]
  by_cases h : slot' = slot
  · subst h
    rw [if_pos rfl, if_pos rfl, and_iff_right ha, UInt64.toNat_inj]
    split_ifs with hr
    · simp [hr]
    · refine iff_of_false (fun hx => hr hx.symm) fun hx => hv ?_
      exact hI.active_seen _ (hI.findState_iff.1 hx).1
  · rw [if_neg h, if_neg h]
    split_ifs with hr
    · refine iff_of_false (fun hx => hu ⟨slot', hI.active_seen _ hx.1, hr ▸ hx.2⟩) ?_
      rw [Option.some_inj]
      exact fun hx => h hx.symm
    · exact hI.findState_iff.symm

end Place

/-! ## Writing through a pointer -/

section Write

variable {state : OrderState} {slot' : OrderSlot}

@[simp] theorem write_config : (t.write slot state).config = t.config := by
  cases slot <;> rfl

theorem read_write : (t.write slot state).read slot'
    = if slot' = slot then state else t.read slot' := by
  cases slot with
  | direct i => cases slot' <;> simp [write, read, update_apply]
  | fallback b w =>
    cases slot' with
    | direct j => simp [write, read]
    | fallback c v =>
      by_cases hb : c = b
      · subst hb
        by_cases hw : v = w <;> simp [write, read, hw]
      · simp [write, read, hb]

theorem refAt_write : (t.write slot state).refAt slot' = t.refAt slot' := by
  cases slot with
  | direct i => cases slot' <;> rfl
  | fallback b w =>
    cases slot' with
    | direct j => rfl
    | fallback c v =>
      by_cases hb : c = b
      · subst hb
        by_cases hw : v = w
        · subst hw
          simp [write, refAt]
        · simp [write, refAt, hw]
      · simp [write, refAt, hb]

theorem wasSeen_write (hseen : wasSeen (t.read slot) = true) (hs : wasSeen state = true) :
    wasSeen ((t.write slot state).read slot') = wasSeen (t.read slot') := by
  rw [read_write]
  split_ifs with h
  · rw [h, hseen, hs]
  · rfl

theorem TableInv.write (hI : t.TableInv) (hseen : wasSeen (t.read slot) = true)
    (hs : wasSeen state = true) : (t.write slot state).TableInv where
  active_seen := fun slot' => by
    rw [wasSeen_write hseen hs, read_write]
    split_ifs with h
    · exact fun _ => h ▸ hseen
    · exact hI.active_seen slot'
  mem_slots := fun slot' => by
    rw [wasSeen_write hseen hs, refAt_write, write_config]
    exact hI.mem_slots slot'
  unique := fun slot₁ slot₂ => by
    rw [wasSeen_write hseen hs, wasSeen_write hseen hs, refAt_write, refAt_write]
    exact hI.unique slot₁ slot₂

theorem holds_write (hseen : wasSeen (t.read slot) = true) (hs : wasSeen state = true)
    (r : UInt64) : (t.write slot state).Holds r slot' ↔ t.Holds r slot' := by
  unfold Holds
  rw [wasSeen_write hseen hs, refAt_write]

theorem TableInv.findState_write (hI : t.TableInv) (hh : t.Holds orderRef slot)
    (hs : wasSeen state = true) (r : UInt64) :
    (t.write slot state).findState r
      = if r = orderRef then (if isActive state then some slot else none) else t.findState r := by
  ext slot'
  rw [(hI.write hh.1 hs).findState_iff, read_write, refAt_write]
  by_cases h : slot' = slot
  · subst h
    rw [if_pos rfl, hh.2, UInt64.toNat_inj]
    split_ifs with hr ha
    · simp [hr, ha]
    · simp [ha]
    · refine iff_of_false (fun hx => hr hx.2.symm) fun hx => hr ?_
      have := (hI.findState_iff.1 hx).2
      exact UInt64.toNat_inj.1 (this.symm.trans hh.2)
  · rw [if_neg h]
    split_ifs with hr ha
    · refine iff_of_false (fun hx => h ?_) ?_
      · exact hI.unique _ _ (hI.active_seen _ hx.1) hh.1 (hx.2.trans (hr ▸ hh.2.symm))
      · rw [Option.some_inj]
        exact fun hx => h hx.symm
    · refine iff_of_false (fun hx => h ?_) (by simp)
      exact hI.unique _ _ (hI.active_seen _ hx.1) hh.1 (hx.2.trans (hr ▸ hh.2.symm))
    · exact hI.findState_iff.symm

end Write

/-! ## The live orders -/

theorem TableInv.live_place (hI : t.TableInv) (hm : slot ∈ slotsOf t.config orderRef)
    (hu : ¬ t.Used orderRef) (hv : t.vacant slot = true) (state : OrderState) (r : UInt64) :
    (t.place slot orderRef (committed state)).live r
      = if r = orderRef then some (committed state) else t.live r := by
  unfold live
  rw [hI.findState_place hm hu hv (wasSeen_committed state) (isActive_committed state)]
  split_ifs with hr
  · rw [Option.map_some, read_place, if_pos rfl]
  · cases hf : t.findState r with
    | none => rfl
    | some s =>
      rw [Option.map_some, Option.map_some, read_place, if_neg]
      rintro rfl
      exact vacant_iff.1 hv (hI.active_seen _ (hI.findState_iff.1 hf).1)

theorem TableInv.live_write (hI : t.TableInv) (hh : t.Holds orderRef slot) {state : OrderState}
    (hs : wasSeen state = true) (r : UInt64) :
    (t.write slot state).live r
      = if r = orderRef then (if isActive state then some state else none) else t.live r := by
  unfold live
  rw [hI.findState_write hh hs]
  split_ifs with hr ha
  · rw [Option.map_some, read_write, if_pos rfl]
  · rfl
  · cases hf : t.findState r with
    | none => rfl
    | some s =>
      rw [Option.map_some, Option.map_some, read_write, if_neg]
      rintro rfl
      have := (hI.findState_iff.1 hf).2
      exact hr (UInt64.toNat_inj.1 (this.symm.trans hh.2))

/-- What an erased slot is left with. -/
def tombstone : OrderState := { OrderState.zero with flags := kOrderStateSeen }

theorem eraseState_of_active (h : isActive (t.read slot) = true) :
    t.eraseState (some slot) = (.applied, t.write slot tombstone) := by
  simp only [eraseState, h]
  rfl

theorem eraseState_cases (t : OrderTable) (slot : Option OrderSlot) :
    t.eraseState slot = (.orderNotFound, t)
      ∧ (∀ s, slot = some s → isActive (t.read s) = false)
    ∨ ∃ s, slot = some s ∧ isActive (t.read s) = true
      ∧ t.eraseState slot = (.applied, t.write s tombstone) := by
  cases slot with
  | none => exact .inl ⟨rfl, by simp⟩
  | some s =>
    simp only [eraseState]
    split_ifs with h
    · refine .inl ⟨rfl, fun s' hs' => ?_⟩
      cases hs'
      simpa using h
    · exact .inr ⟨s, rfl, by simpa using h, rfl⟩

theorem fresh_read (config : OrderTableConfig) (slot : OrderSlot) :
    (fresh config).read slot = OrderState.zero := by
  cases slot <;> rfl

theorem fresh_not_used (config : OrderTableConfig) (orderRef : UInt64) :
    ¬ (fresh config).Used orderRef := by
  rintro ⟨slot, hs, _⟩
  rw [fresh_read] at hs
  exact absurd hs (by decide)

theorem fresh_inv (config : OrderTableConfig) : (fresh config).TableInv := by
  have hseen : ∀ slot, ¬ wasSeen ((fresh config).read slot) = true := by
    intro slot
    rw [fresh_read]
    decide
  refine ⟨fun slot h => ?_, fun slot h => absurd h (hseen slot),
    fun slot _ h => absurd h (hseen slot)⟩
  rw [fresh_read] at h
  exact absurd h (by decide)

end OrderTable

end AstraFeed
