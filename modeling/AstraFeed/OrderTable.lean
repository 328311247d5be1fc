import Mathlib.Logic.Function.Basic
import Mathlib.Tactic.Ring
import AstraFeed.MutationResult

/-!
# The day-unique order table

References below `directSlots` index the direct array; the others live in one of the two ways of one
of two candidate buckets. A slot stays marked as seen after its order is erased, so no reference is
used twice in a day.
-/

namespace AstraFeed

open Function

def kOrderStateActive : UInt8 := 1

def kOrderStateSeen : UInt8 := 2

structure OrderState where
  qty : UInt32
  pricePageHandle : UInt32
  priceLevelIndex : UInt16
  locate : UInt16
  side : UInt8
  flags : UInt8
  pricePageIndex : UInt16
  deriving DecidableEq

def OrderState.zero : OrderState := ⟨0, 0, 0, 0, 0, 0, 0⟩

def isActive (state : OrderState) : Bool := state.flags &&& kOrderStateActive != 0

def wasSeen (state : OrderState) : Bool := state.flags &&& kOrderStateSeen != 0

structure OrderTableConfig where
  directSlots : UInt64
  fallbackBucketCount : UInt32

/-- The place an `OrderState *` points at. -/
inductive OrderSlot
  | direct (index : ℕ)
  | fallback (bucket way : ℕ)
  deriving DecidableEq

structure OrderLookup where
  result : MutationResult
  path : LookupPath
  state : Option OrderSlot
  deriving DecidableEq

def OrderLookup.found (l : OrderLookup) : Bool := l.result == .applied && l.state.isSome

structure OrderSlotReservation where
  result : MutationResult
  path : LookupPath
  orderRef : UInt64
  bucket : UInt32
  way : UInt8
  deriving DecidableEq

namespace OrderSlotReservation

def init : OrderSlotReservation := ⟨.invariantViolation, .none, 0, 0, 0⟩

def valid (r : OrderSlotReservation) : Bool := r.result == .applied

end OrderSlotReservation

structure FallbackEntry where
  state : OrderState
  orderRef : UInt64

structure OrderTable where
  config : OrderTableConfig
  direct : ℕ → OrderState
  fallbackEntry : ℕ → ℕ → FallbackEntry

namespace OrderTable

def kFallbackWays : ℕ := 2

def fresh (config : OrderTableConfig) : OrderTable where
  config := config
  direct := fun _ => OrderState.zero
  fallbackEntry := fun _ _ => ⟨OrderState.zero, 0⟩

def validateConfig (config : OrderTableConfig) : Except String OrderTableConfig :=
  if config.directSlots = 0 then .error "OrderTable direct_slots must fit nonzero size_t"
  else if config.fallbackBucketCount = 0
      ∨ config.fallbackBucketCount &&& (config.fallbackBucketCount - 1) ≠ 0 then
    .error "OrderTable fallback_bucket_count must be a power of two"
  else .ok config

def hashPrimary (value : UInt64) : UInt64 :=
  let value := value ^^^ value >>> 33
  let value := value * 0xff51afd7ed558ccd
  let value := value ^^^ value >>> 33
  let value := value * 0xc4ceb9fe1a85ec53
  value ^^^ value >>> 33

def hashSecondary (value : UInt64) : UInt64 :=
  let value := value + 0x9e3779b97f4a7c15
  let value := (value ^^^ value >>> 30) * 0xbf58476d1ce4e5b9
  let value := (value ^^^ value >>> 27) * 0x94d049bb133111eb
  value ^^^ value >>> 31

/-- The primary and the secondary bucket of a fallback reference. -/
def fallbackCandidateBuckets (config : OrderTableConfig) (orderRef : UInt64) : UInt32 × UInt32 :=
  let mask := config.fallbackBucketCount - 1
  let primary := (hashPrimary orderRef).toUInt32 &&& mask
  let secondary := (hashSecondary orderRef).toUInt32 &&& mask
  if secondary = primary ∧ 1 < config.fallbackBucketCount then (primary, (secondary + 1) &&& mask)
  else (primary, secondary)

/-- The entries a fallback lookup visits, in order: both ways of the primary bucket, then both ways
of the secondary one when it is another bucket. -/
def fallbackProbes (config : OrderTableConfig) (orderRef : UInt64) :
    List (LookupPath × UInt32 × UInt8) :=
  let buckets := fallbackCandidateBuckets config orderRef
  if buckets.1 = buckets.2 then
    [(.fallbackPrimary, buckets.1, 0), (.fallbackPrimary, buckets.1, 1)]
  else
    [(.fallbackPrimary, buckets.1, 0), (.fallbackPrimary, buckets.1, 1),
      (.fallbackSecondary, buckets.2, 0), (.fallbackSecondary, buckets.2, 1)]

section Read

variable (t : OrderTable)

def entryAt (p : LookupPath × UInt32 × UInt8) : FallbackEntry :=
  t.fallbackEntry p.2.1.toNat p.2.2.toNat

def read : OrderSlot → OrderState
  | .direct index => t.direct index
  | .fallback bucket way => (t.fallbackEntry bucket way).state

def holdsActive (orderRef : UInt64) (p : LookupPath × UInt32 × UInt8) : Bool :=
  isActive (t.entryAt p).state && (t.entryAt p).orderRef == orderRef

def findFallbackState (orderRef : UInt64) : Option OrderSlot :=
  ((fallbackProbes t.config orderRef).find? (t.holdsActive orderRef)).map
    fun p => .fallback p.2.1.toNat p.2.2.toNat

def findState (orderRef : UInt64) : Option OrderSlot :=
  if t.config.directSlots ≤ orderRef then t.findFallbackState orderRef
  else if isActive (t.direct orderRef.toNat) then some (.direct orderRef.toNat)
  else none

def find (orderRef : UInt64) : OrderLookup :=
  if orderRef < t.config.directSlots then
    if isActive (t.direct orderRef.toNat) then
      ⟨.applied, .direct, some (.direct orderRef.toNat)⟩
    else ⟨.orderNotFound, .direct, none⟩
  else
    match (fallbackProbes t.config orderRef).find? (t.holdsActive orderRef) with
    | some p => ⟨.applied, p.1, some (.fallback p.2.1.toNat p.2.2.toNat)⟩
    | none => ⟨.orderNotFound, .miss, none⟩

/-- The scan of `reserve`: a duplicate ends it, and the first unseen entry is kept until then. -/
def reserveScan (orderRef : UInt64) :
    List (LookupPath × UInt32 × UInt8) → OrderSlotReservation → OrderSlotReservation
  | [], firstEmpty => firstEmpty
  | p :: ps, firstEmpty =>
    if wasSeen (t.entryAt p).state then
      if (t.entryAt p).orderRef = orderRef then ⟨.duplicateOrderRef, p.1, orderRef, p.2.1, p.2.2⟩
      else reserveScan orderRef ps firstEmpty
    else if !firstEmpty.valid then
      reserveScan orderRef ps ⟨.applied, p.1, orderRef, p.2.1, p.2.2⟩
    else reserveScan orderRef ps firstEmpty

def reserve (orderRef : UInt64) : OrderSlotReservation :=
  if orderRef < t.config.directSlots then
    if wasSeen (t.direct orderRef.toNat) then ⟨.duplicateOrderRef, .direct, orderRef, 0, 0⟩
    else ⟨.applied, .direct, orderRef, 0, 0⟩
  else
    t.reserveScan orderRef (fallbackProbes t.config orderRef)
      ⟨.orderTableCapacityExceeded, .none, orderRef, 0, 0⟩

end Read

/-- Writing through an `OrderState *`. -/
def write (t : OrderTable) (slot : OrderSlot) (state : OrderState) : OrderTable :=
  match slot with
  | .direct index => { t with direct := update t.direct index state }
  | .fallback bucket way =>
    { t with
      fallbackEntry := update t.fallbackEntry bucket
        (update (t.fallbackEntry bucket) way { t.fallbackEntry bucket way with state := state }) }

def commit (t : OrderTable) (reservation : OrderSlotReservation) (state : OrderState) :
    MutationResult × OrderTable :=
  if !reservation.valid then (reservation.result, t)
  else
    let state := { state with flags := state.flags ||| kOrderStateActive ||| kOrderStateSeen }
    if reservation.path = .direct then
      if t.config.directSlots ≤ reservation.orderRef then (.staleReservation, t)
      else if wasSeen (t.direct reservation.orderRef.toNat) then (.staleReservation, t)
      else (.applied, { t with direct := update t.direct reservation.orderRef.toNat state })
    else if reservation.path ≠ .fallbackPrimary ∧ reservation.path ≠ .fallbackSecondary
        ∨ t.config.fallbackBucketCount ≤ reservation.bucket
        ∨ kFallbackWays ≤ reservation.way.toNat
        ∨ reservation.orderRef < t.config.directSlots then
      (.staleReservation, t)
    else
      let candidateBuckets := fallbackCandidateBuckets t.config reservation.orderRef
      let primary := reservation.path == .fallbackPrimary
      if reservation.bucket ≠ (if primary then candidateBuckets.1 else candidateBuckets.2)
          ∨ !primary ∧ candidateBuckets.1 = candidateBuckets.2 then
        (.staleReservation, t)
      else
        let bucket := reservation.bucket.toNat
        let way := reservation.way.toNat
        if wasSeen (t.fallbackEntry bucket way).state then (.staleReservation, t)
        else
          (.applied, { t with
            fallbackEntry := update t.fallbackEntry bucket
              (update (t.fallbackEntry bucket) way ⟨state, reservation.orderRef⟩) })

/-- `erase(OrderState *)`; `none` is the null pointer. -/
def eraseState (t : OrderTable) (slot : Option OrderSlot) : MutationResult × OrderTable :=
  match slot with
  | none => (.orderNotFound, t)
  | some slot =>
    if !isActive (t.read slot) then (.orderNotFound, t)
    else (.applied, t.write slot { OrderState.zero with flags := kOrderStateSeen })

/-- `erase(const OrderLookup &)`. -/
def eraseLookup (t : OrderTable) (lookup : OrderLookup) : MutationResult × OrderTable :=
  if lookup.found then t.eraseState lookup.state else (lookup.result, t)

/-- `erase(std::uint64_t)`. -/
def erase (t : OrderTable) (orderRef : UInt64) : MutationResult × OrderTable :=
  t.eraseState (t.findState orderRef)

end OrderTable

end AstraFeed
