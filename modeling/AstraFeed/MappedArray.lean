import AstraFeed.BookManager

/-!
# Mapped storage in machine words

The arithmetic of `MappedArray` and of the storage estimate on 64-bit words, as the source writes
it: sums and products wrap, and rounding clears low bits.
-/

namespace AstraFeed

/-- What an arena is constructed with: how many elements, their size and alignment, and the
alignment asked for. -/
structure ArenaSpec where
  count : UInt64
  elementBytes : UInt64
  elementAlignment : UInt64
  requestedAlignment : UInt64

structure MappedArray where
  count : UInt64
  logicalBytes : UInt64
  alignment : UInt64
  mappedBytes : UInt64
  /-- What `mmap` is asked for, before the ends are trimmed. -/
  requestedBytes : UInt64

namespace MappedArray

/-- The largest `size_t`. -/
def sizeMax : UInt64 := 0xFFFFFFFFFFFFFFFF

def isPowerOfTwo (value : UInt64) : Bool := value != 0 && value &&& (value - 1) == 0

def checkedBytes (count elementBytes : UInt64) : Except String UInt64 :=
  if sizeMax / elementBytes < count then .error "MappedArray byte size overflows size_t"
  else .ok (count * elementBytes)

def roundUp (value alignment : UInt64) : Except String UInt64 :=
  if sizeMax - (alignment - 1) < value then .error "MappedArray rounded size overflows size_t"
  else .ok ((value + alignment - 1) &&& ~~~(alignment - 1))

def normalizeAlignment (requested elementAlignment pageSize : UInt64) : Except String UInt64 :=
  let alignment := if requested = 0 then pageSize else requested
  let alignment := if alignment < pageSize then pageSize else alignment
  let alignment := if alignment < elementAlignment then elementAlignment else alignment
  if !isPowerOfTwo alignment ∨ alignment % pageSize ≠ 0 then
    .error "MappedArray alignment must be a page-multiple power of two"
  else .ok alignment

/-- The constructor, `pageSize` being what `sysconf` reports. `mmap` succeeds. -/
def create (spec : ArenaSpec) (pageSize : UInt64) : Except String MappedArray := do
  let logicalBytes ← checkedBytes spec.count spec.elementBytes
  let alignment ← normalizeAlignment spec.requestedAlignment spec.elementAlignment pageSize
  if logicalBytes = 0 then .ok ⟨spec.count, logicalBytes, alignment, 0, 0⟩
  else
    let mappedBytes ← roundUp logicalBytes alignment
    if sizeMax - alignment < mappedBytes then
      .error "MappedArray aligned mapping size overflows"
    else .ok ⟨spec.count, logicalBytes, alignment, mappedBytes, mappedBytes + alignment⟩

end MappedArray

namespace SizeT

def kHotArenaAlignment : UInt64 := 2 * 1024 * 1024

def kPricePageBytes : UInt64 := 2 * 1024 * 1024

def kStockLocateSlots : UInt64 := 0x10000

def kPriceRootSlotCount : UInt64 := (1 : UInt64) <<< (16 * 2)

def kSideCount : UInt64 := 2

/-- The sizes of the mapped records. -/
def orderStateBytes : UInt64 := 16
def fallbackBucketBytes : UInt64 := 64
def bitmapStorageBytes : UInt64 := 8384
def descriptorBytes : UInt64 := 72

end SizeT

open SizeT

/-- The arrays an order table maps: the direct slots and the fallback buckets. -/
def OrderTable.arenas (config : OrderTableConfig) : List ArenaSpec :=
  [⟨config.directSlots, orderStateBytes, 16, SizeT.kHotArenaAlignment⟩,
    ⟨config.fallbackBucketCount.toUInt64, fallbackBucketBytes, 64, SizeT.kHotArenaAlignment⟩]

/-- The arrays a price store maps: roots, prepared books, pages, owners, page summaries, page
bitmaps, book summaries and book bitmaps. -/
def PriceLevelStore.arenas (config : PriceLevelStoreConfig) : List ArenaSpec :=
  let hot := SizeT.kHotArenaAlignment
  let pageCapacity := config.pageCapacity.toUInt64
  [⟨kPriceRootSlotCount, 4, 4, hot⟩,
    ⟨SizeT.kStockLocateSlots, 1, 1, hot⟩,
    ⟨pageCapacity, SizeT.kPricePageBytes, 64, SizeT.kPricePageBytes⟩,
    ⟨pageCapacity + 1, 8, 4, hot⟩,
    ⟨pageCapacity + 1, 16, 16, hot⟩,
    ⟨(pageCapacity + 1) * kSideCount, bitmapStorageBytes, 64, hot⟩,
    ⟨SizeT.kStockLocateSlots, 32, 32, hot⟩,
    ⟨SizeT.kStockLocateSlots * kSideCount, bitmapStorageBytes, 64, hot⟩]

namespace SizeT

open MappedArray (sizeMax isPowerOfTwo)

def checkedAdd (lhs rhs : UInt64) : Except String UInt64 :=
  if sizeMax - rhs < lhs then .error "book storage size addition overflows size_t"
  else .ok (lhs + rhs)

def checkedMultiply (lhs rhs : UInt64) : Except String UInt64 :=
  if lhs ≠ 0 ∧ sizeMax / lhs < rhs then
    .error "book storage size multiplication overflows size_t"
  else .ok (lhs * rhs)

def mappedBytes (count elementBytes elementAlignment requestedAlignment systemPageBytes : UInt64) :
    Except String UInt64 := do
  let logicalBytes ← checkedMultiply count elementBytes
  let alignment := if requestedAlignment = 0 then systemPageBytes else requestedAlignment
  let alignment := if alignment < systemPageBytes then systemPageBytes else alignment
  let alignment := if alignment < elementAlignment then elementAlignment else alignment
  if !isPowerOfTwo alignment ∨ alignment % systemPageBytes ≠ 0 then
    .error "book storage alignment must be a page-multiple power of two"
  else if logicalBytes = 0 then .ok 0
  else if sizeMax - (alignment - 1) < logicalBytes then
    .error "book storage rounded size overflows size_t"
  else
    let roundedBytes := (logicalBytes + alignment - 1) &&& ~~~(alignment - 1)
    if sizeMax - alignment < roundedBytes then
      .error "book aligned mapping size overflows size_t"
    else .ok roundedBytes

/-- The estimate; the fields of the footprint are the words it computes. -/
def estimateBookStorageFootprint (config : BookManagerConfig) (systemPageBytes : UInt64) :
    Except String BookStorageFootprint := do
  BookStorage.validateConfig config
  if !isPowerOfTwo systemPageBytes then
    .error "system page size must be a nonzero power of two"
  let hot := kHotArenaAlignment
  let pageCapacity := config.prices.pageCapacity.toUInt64
  let orderDirect ← mappedBytes config.orders.directSlots orderStateBytes 16 hot systemPageBytes
  let orderFallback ← mappedBytes config.orders.fallbackBucketCount.toUInt64 fallbackBucketBytes 64
    hot systemPageBytes
  let priceRoots ← mappedBytes kPriceRootSlotCount 4 4 hot systemPageBytes
  let pricePreparedBooks ← mappedBytes kStockLocateSlots 1 1 hot systemPageBytes
  let pricePages ← mappedBytes pageCapacity kPricePageBytes 64 kPricePageBytes systemPageBytes
  let pageMetadataSlots ← checkedAdd pageCapacity 1
  let pricePageOwners ← mappedBytes pageMetadataSlots 8 4 hot systemPageBytes
  let pricePageSummaries ← mappedBytes pageMetadataSlots 16 16 hot systemPageBytes
  let pageBitmaps ← checkedMultiply pageMetadataSlots kSideCount
  let pricePageOccupancy ← mappedBytes pageBitmaps bitmapStorageBytes 64 hot systemPageBytes
  let priceBookSummaries ← mappedBytes kStockLocateSlots 32 32 hot systemPageBytes
  let bookBitmaps ← checkedMultiply kStockLocateSlots kSideCount
  let priceBookOccupancy ← mappedBytes bookBitmaps bitmapStorageBytes 64 hot systemPageBytes
  let mappedArrayBytes ← [orderFallback, priceRoots, pricePreparedBooks, pricePages,
    pricePageOwners, pricePageSummaries, pricePageOccupancy, priceBookSummaries,
    priceBookOccupancy].foldlM checkedAdd orderDirect
  let descriptorSlotBytes ← checkedMultiply kStockLocateSlots descriptorBytes
  let descriptorMappedBytes ← mappedBytes kStockLocateSlots descriptorBytes 8 hot systemPageBytes
  let plannedStorageBytes ← checkedAdd mappedArrayBytes descriptorMappedBytes
  .ok ⟨systemPageBytes.toNat, orderDirect.toNat, orderFallback.toNat, priceRoots.toNat,
    pricePreparedBooks.toNat, pricePages.toNat, pricePageOwners.toNat, pricePageSummaries.toNat,
    pricePageOccupancy.toNat, priceBookSummaries.toNat, priceBookOccupancy.toNat,
    mappedArrayBytes.toNat, descriptorSlotBytes.toNat, descriptorMappedBytes.toNat,
    plannedStorageBytes.toNat⟩

end SizeT

/-! ## The sizes without a limit -/

namespace ArenaSpec

variable (spec : ArenaSpec)

def logicalBytes : ℕ := spec.count.toNat * spec.elementBytes.toNat

/-- The alignment asked for, at least a page's and an element's. -/
def alignment (pageSize : ℕ) : ℕ :=
  max (max (if spec.requestedAlignment = 0 then pageSize else spec.requestedAlignment.toNat)
    pageSize) spec.elementAlignment.toNat

def mappedBytes (pageSize : ℕ) : ℕ :=
  (spec.logicalBytes + spec.alignment pageSize - 1) / spec.alignment pageSize
    * spec.alignment pageSize

/-- The product, the rounded size and the request to `mmap` fit `size_t`. -/
def Fits (pageSize : ℕ) : Prop :=
  spec.logicalBytes < 2 ^ 64
    ∧ (spec.logicalBytes ≠ 0 → spec.mappedBytes pageSize + spec.alignment pageSize < 2 ^ 64)

/-- `MappedArray` maps the arena to `bytes` bytes: no word of its arithmetic wraps, the arena fits
into them, and they are a multiple of the alignment. -/
def MapsTo (pageSize : UInt64) (bytes : ℕ) : Prop :=
  ∃ array, MappedArray.create spec pageSize = .ok array
    ∧ array.logicalBytes.toNat = spec.logicalBytes
    ∧ array.alignment.toNat = spec.alignment pageSize.toNat
    ∧ array.mappedBytes.toNat = bytes
    ∧ array.requestedBytes.toNat = bytes + array.alignment.toNat
    ∧ spec.logicalBytes ≤ bytes
    ∧ array.alignment.toNat ∣ bytes

end ArenaSpec

namespace BookStorage

/-- The descriptors of the books. -/
def descriptorArena : ArenaSpec :=
  ⟨SizeT.kStockLocateSlots, SizeT.descriptorBytes, 8, SizeT.kHotArenaAlignment⟩

/-- The arrays a manager's stores map. -/
def arenas (config : BookManagerConfig) : List ArenaSpec :=
  OrderTable.arenas config.orders ++ PriceLevelStore.arenas config.prices

/-- The sizes of the footprint, in the order of the arenas. -/
def arenaBytes (footprint : BookStorageFootprint) : List ℕ :=
  [footprint.orderDirectMappedBytes, footprint.orderFallbackMappedBytes,
    footprint.priceRootsMappedBytes, footprint.pricePreparedBooksMappedBytes,
    footprint.pricePagesMappedBytes, footprint.pricePageOwnersMappedBytes,
    footprint.pricePageSummariesMappedBytes, footprint.pricePageOccupancyMappedBytes,
    footprint.priceBookSummariesMappedBytes, footprint.priceBookOccupancyMappedBytes]

end BookStorage

end AstraFeed
