import AstraFeed.OrderTable

/-!
# What the order table represents

Every slot, direct or fallback, belongs to the reference it was committed for from then on. A
reference is used once a slot belongs to it, and live while that slot is active.
-/

namespace AstraFeed

namespace OrderTable

/-- The slots a reference may be committed to, in the order they are tried. -/
def slotsOf (config : OrderTableConfig) (orderRef : UInt64) : List OrderSlot :=
  if orderRef < config.directSlots then [.direct orderRef.toNat]
  else (fallbackProbes config orderRef).map fun p => .fallback p.2.1.toNat p.2.2.toNat

variable (t : OrderTable)

/-- The reference a slot would hold the order of. -/
def refAt : OrderSlot → ℕ
  | .direct index => index
  | .fallback bucket way => (t.fallbackEntry bucket way).orderRef.toNat

/-- The slot was committed for the reference, and may have been erased since. -/
def Holds (orderRef : UInt64) (slot : OrderSlot) : Prop :=
  wasSeen (t.read slot) = true ∧ t.refAt slot = orderRef.toNat

def Used (orderRef : UInt64) : Prop := ∃ slot, t.Holds orderRef slot

/-- The state a commit stores: the caller's, marked as active and seen. -/
def committed (state : OrderState) : OrderState :=
  { state with flags := state.flags ||| kOrderStateActive ||| kOrderStateSeen }

/-- The state a live reference has. -/
def live (orderRef : UInt64) : Option OrderState := (t.findState orderRef).map t.read

structure TableInv : Prop where
  active_seen : ∀ slot, isActive (t.read slot) = true → wasSeen (t.read slot) = true
  mem_slots : ∀ slot, wasSeen (t.read slot) = true →
    ∃ orderRef : UInt64, t.refAt slot = orderRef.toNat ∧ slot ∈ slotsOf t.config orderRef
  unique : ∀ slot slot', wasSeen (t.read slot) = true → wasSeen (t.read slot') = true →
    t.refAt slot = t.refAt slot' → slot = slot'

end OrderTable

end AstraFeed
