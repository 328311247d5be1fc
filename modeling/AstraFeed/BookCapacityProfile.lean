import AstraFeed.BookModel
import AstraFeed.ItchParser
import AstraFeed.Rollback

/-!
# Capacity profiles

A deployment declares what its day was measured to need and the reserve it wants above that;
`validateBookCapacityProfile` checks a configuration against the two before any memory is mapped.
-/

namespace AstraFeed

structure BookCapacityEvidence where
  profiledMaxOrderReference : UInt64
  profiledUniquePricePages : UInt32

structure BookCapacityHeadroom where
  directOrderReferenceSlots : UInt64
  pricePages : UInt32
  deriving DecidableEq

/-- A name and a digest are strings of bytes. -/
structure BookCapacityProfile where
  name : List UInt8
  evidenceSha256 : List UInt8
  config : BookManagerConfig
  evidence : BookCapacityEvidence
  minimumHeadroom : BookCapacityHeadroom

namespace BookCapacityProfile

def isLowerHexSha256 (value : List UInt8) : Bool :=
  value.length == 64
    && value.all fun character => byte '0' ≤ character && character ≤ byte '9'
      || byte 'a' ≤ character && character ≤ byte 'f'

/-- The checks before any arithmetic. -/
def validateFields (profile : BookCapacityProfile) : Except String Unit := do
  BookStorage.validateConfig profile.config
  if profile.name.isEmpty then .error "book capacity profile name must be nonempty"
  else if !isLowerHexSha256 profile.evidenceSha256 then
    .error "book capacity profile evidence SHA-256 must be 64 lowercase hex digits"
  else if profile.evidence.profiledMaxOrderReference = 0 then
    .error "profiled maximum order reference must be nonzero"
  else if profile.evidence.profiledUniquePricePages = 0 then
    .error "profiled unique price pages must be nonzero"
  else if profile.minimumHeadroom.directOrderReferenceSlots = 0 then
    .error "minimum direct-order-reference headroom must be nonzero"
  else if profile.minimumHeadroom.pricePages = 0 then
    .error "minimum price-page headroom must be nonzero"
  else .ok ()

/-- The effective headroom of an accepted profile. -/
def validateBookCapacityProfile (profile : BookCapacityProfile) :
    Except String BookCapacityHeadroom := do
  validateFields profile
  if profile.config.orders.directSlots ≤ profile.evidence.profiledMaxOrderReference then
    .error "profiled maximum order reference is outside the direct table"
  else
    let effectiveDirectHeadroom :=
      profile.config.orders.directSlots - (profile.evidence.profiledMaxOrderReference + 1)
    if effectiveDirectHeadroom < profile.minimumHeadroom.directOrderReferenceSlots then
      .error "direct order table does not provide the required profile headroom"
    else if profile.config.prices.pageCapacity ≤ profile.evidence.profiledUniquePricePages then
      .error "profiled unique price pages leave no page-arena headroom"
    else
      let effectivePriceHeadroom :=
        profile.config.prices.pageCapacity - profile.evidence.profiledUniquePricePages
      if effectivePriceHeadroom < profile.minimumHeadroom.pricePages then
        .error "price page arena does not provide the required profile headroom"
      else .ok ⟨effectiveDirectHeadroom, effectivePriceHeadroom⟩

/-! ## The validation on unbounded numbers -/

/-- A sum, where it fits 64 bits. -/
def exactAdd (a b : ℕ) : Option ℕ := if a + b < 2 ^ 64 then some (a + b) else none

/-- A difference, where it is not negative. -/
def exactSub (a b : ℕ) : Option ℕ := if b ≤ a then some (a - b) else none

/-- The validation with numbers for words; `none` where a sum or a difference would wrap. The
effective headroom is a pair of numbers. -/
def validateExact (profile : BookCapacityProfile) : Option (Except String (ℕ × ℕ)) :=
  match validateFields profile with
  | .error e => some (.error e)
  | .ok () =>
    let directSlots := profile.config.orders.directSlots.toNat
    let pageCapacity := profile.config.prices.pageCapacity.toNat
    let profiledMax := profile.evidence.profiledMaxOrderReference.toNat
    let profiledPages := profile.evidence.profiledUniquePricePages.toNat
    if directSlots ≤ profiledMax then
      some (.error "profiled maximum order reference is outside the direct table")
    else do
      let firstFree ← exactAdd profiledMax 1
      let effectiveDirectHeadroom ← exactSub directSlots firstFree
      if effectiveDirectHeadroom < profile.minimumHeadroom.directOrderReferenceSlots.toNat then
        some (.error "direct order table does not provide the required profile headroom")
      else if pageCapacity ≤ profiledPages then
        some (.error "profiled unique price pages leave no page-arena headroom")
      else do
        let effectivePriceHeadroom ← exactSub pageCapacity profiledPages
        if effectivePriceHeadroom < profile.minimumHeadroom.pricePages.toNat then
          some (.error "price page arena does not provide the required profile headroom")
        else some (.ok (effectiveDirectHeadroom, effectivePriceHeadroom))

end BookCapacityProfile

/-! ## What a run asks of the stores -/

namespace BookOp

/-- The reference an operation passes as that of a new order. -/
def newReference : BookOp → Option UInt64
  | .addOrder _ orderId _ _ _ _ => some orderId
  | .replaceOrder _ _ newId _ _ _ => some newId
  | _ => none

/-- The locate and price page of an add or a replace; a price out of range has none. -/
def pagePair : BookOp → Option (UInt16 × ℕ)
  | .addOrder l _ price _ _ _ =>
    if isValidItchPrice4 price then some (l, price.toNat / kPricePartCount) else none
  | .replaceOrder l _ _ newPrice _ _ =>
    if isValidItchPrice4 newPrice then some (l, newPrice.toNat / kPricePartCount) else none
  | _ => none

end BookOp

namespace BookManager

/-- The pairs the applied adds and replaces of a run touch. -/
def touchedPages (m : BookManager) : List BookOp → List (UInt16 × ℕ)
  | [] => []
  | op :: ops =>
    (if (m.perform op).1 = .applied then op.pagePair.toList else [])
      ++ touchedPages (m.perform op).2 ops

end BookManager

end AstraFeed
