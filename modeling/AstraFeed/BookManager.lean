import AstraFeed.OrderBook

/-!
# The book manager

One order table and one price store behind a descriptor for each locate. Constructing a manager
first plans every mapping, and fails when a size does not fit; `size_t` is 64 bits wide.
-/

namespace AstraFeed

structure BookManagerConfig where
  orders : OrderTableConfig
  prices : PriceLevelStoreConfig

structure BookStorageFootprint where
  systemPageBytes : ℕ
  orderDirectMappedBytes : ℕ
  orderFallbackMappedBytes : ℕ
  priceRootsMappedBytes : ℕ
  pricePreparedBooksMappedBytes : ℕ
  pricePagesMappedBytes : ℕ
  pricePageOwnersMappedBytes : ℕ
  pricePageSummariesMappedBytes : ℕ
  pricePageOccupancyMappedBytes : ℕ
  priceBookSummariesMappedBytes : ℕ
  priceBookOccupancyMappedBytes : ℕ
  mappedArrayBytes : ℕ
  descriptorSlotBytes : ℕ
  descriptorMappedBytes : ℕ
  plannedStorageBytes : ℕ

namespace BookStorage

def sizeMax : ℕ := 2 ^ 64 - 1

def isPowerOfTwo (value : ℕ) : Bool := value != 0 && value &&& (value - 1) == 0

def checkedAdd (lhs rhs : ℕ) : Except String ℕ :=
  if sizeMax - rhs < lhs then .error "book storage size addition overflows size_t"
  else .ok (lhs + rhs)

def checkedMultiply (lhs rhs : ℕ) : Except String ℕ :=
  if lhs ≠ 0 ∧ sizeMax / lhs < rhs then
    .error "book storage size multiplication overflows size_t"
  else .ok (lhs * rhs)

def mappedBytes (count elementBytes elementAlignment requestedAlignment systemPageBytes : ℕ) :
    Except String ℕ := do
  let logicalBytes ← checkedMultiply count elementBytes
  let alignment := if requestedAlignment = 0 then systemPageBytes else requestedAlignment
  let alignment := max (max alignment systemPageBytes) elementAlignment
  if !isPowerOfTwo alignment ∨ alignment % systemPageBytes ≠ 0 then
    .error "book storage alignment must be a page-multiple power of two"
  else if logicalBytes = 0 then .ok 0
  else if sizeMax - (alignment - 1) < logicalBytes then
    .error "book storage rounded size overflows size_t"
  else
    -- rounding up to the power of two, which the source does by clearing low bits
    let roundedBytes := (logicalBytes + alignment - 1) / alignment * alignment
    if sizeMax - alignment < roundedBytes then
      .error "book aligned mapping size overflows size_t"
    else .ok roundedBytes

def kHotArenaAlignment : ℕ := 2 * 1024 * 1024

def kPricePageBytes : ℕ := 2 * 1024 * 1024

/-- The sizes and alignments of the mapped records. -/
def orderStateBytes : ℕ := 16
def fallbackBucketBytes : ℕ := 64
def bitmapStorageBytes : ℕ := 8384
def descriptorBytes : ℕ := 72

def validateConfig (config : BookManagerConfig) : Except String Unit :=
  if config.orders.directSlots = 0 then .error "OrderTable direct_slots must fit nonzero size_t"
  else if config.orders.fallbackBucketCount = 0
      ∨ config.orders.fallbackBucketCount &&& (config.orders.fallbackBucketCount - 1) ≠ 0 then
    .error "OrderTable fallback_bucket_count must be a power of two"
  else if config.prices.pageCapacity = 0 ∨ config.prices.pageCapacity.toNat = 2 ^ 32 - 1 then
    .error "PriceLevelStore page capacity must be in [1, UINT32_MAX-1]"
  else .ok ()

def estimateBookStorageFootprint (config : BookManagerConfig) (systemPageBytes : ℕ) :
    Except String BookStorageFootprint := do
  validateConfig config
  if !isPowerOfTwo systemPageBytes then
    .error "system page size must be a nonzero power of two"
  let orderDirect ← mappedBytes config.orders.directSlots.toNat orderStateBytes 16
    kHotArenaAlignment systemPageBytes
  let orderFallback ← mappedBytes config.orders.fallbackBucketCount.toNat fallbackBucketBytes 64
    kHotArenaAlignment systemPageBytes
  let priceRoots ← mappedBytes (kStockLocateSlots * kPricePartCount) 4 4 kHotArenaAlignment
    systemPageBytes
  let pricePreparedBooks ← mappedBytes kStockLocateSlots 1 1 kHotArenaAlignment systemPageBytes
  let pricePages ← mappedBytes config.prices.pageCapacity.toNat kPricePageBytes 64 kPricePageBytes
    systemPageBytes
  let pageMetadataSlots ← checkedAdd config.prices.pageCapacity.toNat 1
  let pricePageOwners ← mappedBytes pageMetadataSlots 8 4 kHotArenaAlignment systemPageBytes
  let pricePageSummaries ← mappedBytes pageMetadataSlots 16 16 kHotArenaAlignment systemPageBytes
  let pageBitmaps ← checkedMultiply pageMetadataSlots 2
  let pricePageOccupancy ← mappedBytes pageBitmaps bitmapStorageBytes 64 kHotArenaAlignment
    systemPageBytes
  let priceBookSummaries ← mappedBytes kStockLocateSlots 32 32 kHotArenaAlignment systemPageBytes
  let bookBitmaps ← checkedMultiply kStockLocateSlots 2
  let priceBookOccupancy ← mappedBytes bookBitmaps bitmapStorageBytes 64 kHotArenaAlignment
    systemPageBytes
  let mappedArrayBytes ← [orderFallback, priceRoots, pricePreparedBooks, pricePages,
    pricePageOwners, pricePageSummaries, pricePageOccupancy, priceBookSummaries,
    priceBookOccupancy].foldlM checkedAdd orderDirect
  let descriptorSlotBytes ← checkedMultiply kStockLocateSlots descriptorBytes
  let descriptorMappedBytes ← mappedBytes kStockLocateSlots descriptorBytes 8 kHotArenaAlignment
    systemPageBytes
  let plannedStorageBytes ← checkedAdd mappedArrayBytes descriptorMappedBytes
  .ok ⟨systemPageBytes, orderDirect, orderFallback, priceRoots, pricePreparedBooks, pricePages,
    pricePageOwners, pricePageSummaries, pricePageOccupancy, priceBookSummaries,
    priceBookOccupancy, mappedArrayBytes, descriptorSlotBytes, descriptorMappedBytes,
    plannedStorageBytes⟩

end BookStorage

structure BookManager where
  config : BookManagerConfig
  storageFootprint : BookStorageFootprint
  orders : OrderTable
  prices : PriceLevelStore
  books : UInt16 → Option OrderBook

namespace BookManager

open Function

/-- The constructor, `systemPageBytes` being what `sysconf` reports. -/
def create (config : BookManagerConfig) (systemPageBytes : ℕ) : Except String BookManager := do
  let storageFootprint ← BookStorage.estimateBookStorageFootprint config systemPageBytes
  .ok ⟨config, storageFootprint, .fresh config.orders, .fresh config.prices, fun _ => none⟩

def find (m : BookManager) (stockLocate : UInt16) : Option OrderBook :=
  if !isValidStockLocate stockLocate then none else m.books stockLocate

/-- `none` is the null pointer. -/
def getOrCreate (m : BookManager) (stockLocate : UInt16) : Option OrderBook × BookManager :=
  if !isValidStockLocate stockLocate then (none, m)
  else
    match m.find stockLocate with
    | some book => (some book, m)
    | none =>
      let (result, prices) := m.prices.prepareBook stockLocate
      let m := { m with prices := prices }
      if result ≠ .applied then (none, m)
      else
        let book := OrderBook.create stockLocate m.prices m.config.orders.directSlots
        (some book, { m with books := update m.books stockLocate (some book) })

/-- An operation routed to the book of a locate, if it has one. -/
def routed (m : BookManager) (stockLocate : UInt16)
    (op : BookContext → MutationResult × BookContext) : MutationResult × BookManager :=
  match m.find stockLocate with
  | none => (.bookNotPrepared, m)
  | some book =>
    let (result, c) := op ⟨book, m.orders, m.prices⟩
    (result, { m with
      orders := c.orders
      prices := c.prices
      books := update m.books stockLocate (some c.book) })

def addOrder (m : BookManager) (stockLocate : UInt16) (orderId price : UInt64) (qty : UInt32)
    (side : UInt8) (timestamp : UInt64) : MutationResult × BookManager :=
  m.routed stockLocate fun c => c.addOrder orderId price qty side timestamp

def cancelShares (m : BookManager) (stockLocate : UInt16) (orderId : UInt64)
    (canceledQty : UInt32) (timestamp : UInt64) : MutationResult × BookManager :=
  m.routed stockLocate fun c => c.cancelShares orderId canceledQty timestamp

def deleteOrder (m : BookManager) (stockLocate : UInt16) (orderId timestamp : UInt64) :
    MutationResult × BookManager :=
  m.routed stockLocate fun c => c.deleteOrder orderId timestamp

def executeOrder (m : BookManager) (stockLocate : UInt16) (orderId : UInt64)
    (executedQty : UInt32) (timestamp : UInt64) : MutationResult × BookManager :=
  m.routed stockLocate fun c => c.executeOrder orderId executedQty timestamp

def replaceOrder (m : BookManager) (stockLocate : UInt16) (oldId newId newPrice : UInt64)
    (newQty : UInt32) (timestamp : UInt64) : MutationResult × BookManager :=
  m.routed stockLocate fun c => c.replaceOrder oldId newId newPrice newQty timestamp

def getOrderBook (m : BookManager) (stockLocate : UInt16) : Option BookContext :=
  (m.find stockLocate).map fun book => ⟨book, m.orders, m.prices⟩

/-- The sum runs over the locates `1, …, 65535`. -/
def totalLiveOrderCount (m : BookManager) : UInt64 :=
  (List.range' 1 (kStockLocateSlots - 1)).foldl (fun total slot =>
    match m.books slot.toUInt16 with
    | none => total
    | some book => total + book.liveOrderCount) 0

end BookManager

end AstraFeed
