import AstraFeed.BookCapacityProfile
import AstraFeed.Lib.Decimal
import AstraFeed.Lib.Terminated
import AstraFeed.Sha256

/-!
# Loading a capacity manifest

A capacity profile is read from a small file of `key=value` lines. The file is hashed first; its
lines must then be the ones of the schema, in order, and its numbers canonical decimals.
-/

namespace AstraFeed

/-- The bytes of a literal. -/
def ascii (s : String) : List UInt8 := s.toList.map Char.toUInt8

/-- `std::invalid_argument` unless the condition holds. -/
def require (condition : Bool) (text : String) : Except String Unit :=
  if condition then .ok () else .error text

structure BookCapacityEvidenceManifest where
  profile : BookCapacityProfile
  corpusManifestSha256 : List UInt8
  profilerSha256 : List UInt8
  profileOutputSha256 : List UInt8
  schema : List UInt8

namespace BookCapacityEvidenceManifest

def kSchemaV1 : List UInt8 := ascii "astra_book_capacity_evidence_v1"
def kSchemaV2 : List UInt8 := ascii "astra_book_capacity_evidence_v2"

end BookCapacityEvidenceManifest

namespace CapacityManifest

open BookCapacityEvidenceManifest BookCapacityProfile

def kMaximumManifestBytes : ℕ := 16 * 1024
def kManifestV1LineCount : ℕ := 11
def kManifestV2LineCount : ℕ := 12

def isTokenCharacter (character : UInt8) : Bool :=
  byte '0' ≤ character && character ≤ byte '9' || byte 'A' ≤ character && character ≤ byte 'Z'
    || byte 'a' ≤ character && character ≤ byte 'z'
    || character == byte '-' || character == byte '_' || character == byte '.'
    || character == byte ':' || character == byte '/' || character == byte '+'

def isProfileToken (value : List UInt8) : Bool :=
  !(value.isEmpty || 128 < value.length) && value.all isTokenCharacter

/-- The size check of `readManifest`; the file itself is read without an error. -/
def readManifest (file : List UInt8) : Except String (List UInt8) := do
  require (0 < file.length && file.length ≤ kMaximumManifestBytes)
    "capacity evidence manifest size must be in [1, 16384] bytes"
  .ok file

def kUnexpectedLineCount : String := "capacity evidence manifest has an unexpected line count"

/-- The loop of `canonicalLines` over what is left of the contents. -/
def splitLines (contents : List UInt8) (lines : List (List UInt8)) :
    Except String (List (List UInt8)) :=
  if contents = [] then .ok lines
  else
    let line := contents.takeWhile (· ≠ byte '\n')
    if line.length = contents.length ∨ lines.length = kManifestV2LineCount then
      .error kUnexpectedLineCount
    else splitLines (contents.drop (line.length + 1)) (lines ++ [line])
termination_by contents.length
decreasing_by
  have := List.length_pos_iff.2 ‹_›
  rw [List.length_drop]
  omega

def canonicalLines (contents : List UInt8) : Except String (List (List UInt8)) := do
  require (contents.getLast? == some (byte '\n'))
    "capacity evidence manifest must end with one LF"
  require (!contents.any fun character =>
      character == byte '\r' || character == 0 || 0x7f < character)
    "capacity evidence manifest must be canonical ASCII with LF endings"
  let lines ← splitLines contents []
  require (lines.length == kManifestV1LineCount || lines.length == kManifestV2LineCount)
    kUnexpectedLineCount
  .ok lines

def field (line : List UInt8) (key : String) : Except String (List UInt8) := do
  require ((ascii key).isPrefixOf line && line.length != (ascii key).length
      && line.getD (ascii key).length 0 == byte '=')
    "capacity evidence manifest keys/order do not match schema"
  .ok (line.drop ((ascii key).length + 1))

/-- `std::from_chars` to 64 bits in base ten: the number and what is left behind its digits;
`none` where there is no digit, or the number has more than 64 bits. -/
def fromChars (value : List UInt8) : Option (UInt64 × List UInt8) :=
  let digits := value.takeWhile Decimal.isDigit
  if digits = [] ∨ 2 ^ 64 ≤ Decimal.value digits then none
  else some ((Decimal.value digits).toUInt64, value.drop digits.length)

def canonicalUnsigned (value : List UInt8) (key : String) (maximum : UInt64) :
    Except String UInt64 := do
  require (!(value.isEmpty || (1 < value.length && value.head? == some (byte '0'))))
    s!"capacity evidence manifest {key} is not a canonical positive integer"
  match fromChars value with
  | some (parsed, []) =>
    require (parsed != 0 && parsed ≤ maximum)
      s!"capacity evidence manifest {key} is not an in-range positive integer"
    .ok parsed
  | _ => .error s!"capacity evidence manifest {key} is not an in-range positive integer"

/-- A line's number, where the line has the key. -/
def fieldUnsigned (line : List UInt8) (key : String) (maximum : UInt64) :
    Except String UInt64 := do
  canonicalUnsigned (← field line key) key maximum

/-- The loader once the contents are split into lines. -/
def loadLines (lines : List (List UInt8)) (expectedProfileName computedSha256 : List UInt8) :
    Except String BookCapacityEvidenceManifest := do
  let line (i : ℕ) : List UInt8 := lines.getD i []
  let schema ← field (line 0) "schema"
  let isV1 := schema == kSchemaV1
  let isV2 := schema == kSchemaV2
  require (!(!isV1 && !isV2 || isV1 && lines.length != kManifestV1LineCount
      || isV2 && lines.length != kManifestV2LineCount))
    "unsupported capacity evidence manifest schema"
  let profileName ← field (line 1) "profile_name"
  require (isProfileToken profileName && profileName == expectedProfileName)
    "capacity evidence manifest profile_name differs from configured profile"
  let corpusSha256 ← field (line 2) "corpus_manifest_sha256"
  let profilerSha256 ← field (line 3) "profiler_sha256"
  let profileOutputSha256 ← (if isV2 then field (line 4) "profile_output_sha256" else .ok [])
  require (isLowerHexSha256 corpusSha256 && isLowerHexSha256 profilerSha256
      && (!isV2 || isLowerHexSha256 profileOutputSha256))
    "capacity evidence manifest provenance hashes must be lowercase SHA-256"
  let capacityOffset := if isV2 then 1 else 0
  let directSlots ←
    fieldUnsigned (line (4 + capacityOffset)) "order_direct_slots" 0xFFFFFFFFFFFFFFFF
  let fallbackBuckets ←
    fieldUnsigned (line (5 + capacityOffset)) "order_fallback_buckets" 0xFFFFFFFF
  let pricePages ←
    fieldUnsigned (line (6 + capacityOffset)) "price_page_capacity" (0xFFFFFFFF - 1)
  let maximumOrderReference ←
    fieldUnsigned (line (7 + capacityOffset)) "profiled_max_order_ref" 0xFFFFFFFFFFFFFFFF
  let uniquePricePages ←
    fieldUnsigned (line (8 + capacityOffset)) "profiled_unique_price_pages" (0xFFFFFFFF - 1)
  let minimumDirectHeadroom ←
    fieldUnsigned (line (9 + capacityOffset)) "minimum_direct_order_headroom" 0xFFFFFFFFFFFFFFFF
  let minimumPriceHeadroom ←
    fieldUnsigned (line (10 + capacityOffset)) "minimum_price_page_headroom" 0xFFFFFFFF
  let profile : BookCapacityProfile :=
    { name := profileName
      evidenceSha256 := computedSha256
      config := ⟨⟨directSlots, fallbackBuckets.toUInt32⟩, ⟨pricePages.toUInt32⟩⟩
      evidence := ⟨maximumOrderReference, uniquePricePages.toUInt32⟩
      minimumHeadroom := ⟨minimumDirectHeadroom, minimumPriceHeadroom.toUInt32⟩ }
  let _ ← validateBookCapacityProfile profile
  .ok ⟨profile, corpusSha256, profilerSha256, profileOutputSha256, schema⟩

/-- `std::length_error` of the hash counts as an error like the others. -/
def loadBookCapacityEvidenceManifest
    (file expectedProfileName expectedSha256 : List UInt8) :
    Except String BookCapacityEvidenceManifest := do
  require (isProfileToken expectedProfileName)
    "expected capacity profile name is not an audit-safe token"
  require (isLowerHexSha256 expectedSha256)
    "expected capacity evidence SHA-256 must be 64 lowercase hex digits"
  let contents ← readManifest file
  match Sha256.sha256Hex contents with
  | none => .error Sha256Error.tooLong.text
  | some computedSha256 =>
    require (computedSha256 == expectedSha256)
      "capacity evidence manifest SHA-256 differs from configured digest"
    let lines ← canonicalLines contents
    loadLines lines expectedProfileName computedSha256

end CapacityManifest

/-! ## The numbers of a manifest -/

structure CapacitySizes where
  directSlots : ℕ
  fallbackBuckets : ℕ
  pricePageCapacity : ℕ
  maximumOrderRef : ℕ
  uniquePricePages : ℕ
  directHeadroom : ℕ
  priceHeadroom : ℕ
  deriving DecidableEq

/-- What the loader and `validateBookCapacityProfile` ask of the numbers. -/
structure CapacitySizes.Fit (s : CapacitySizes) : Prop where
  directSlots : s.directSlots < 2 ^ 64
  buckets : s.fallbackBuckets.isPowerOfTwo ∧ s.fallbackBuckets < 2 ^ 32
  pages : s.pricePageCapacity < 2 ^ 32 - 1
  maximumOrderRef : 0 < s.maximumOrderRef
  uniquePricePages : 0 < s.uniquePricePages
  directHeadroom : 0 < s.directHeadroom
  priceHeadroom : 0 < s.priceHeadroom
  directFits : s.maximumOrderRef + 1 + s.directHeadroom ≤ s.directSlots
  pricesFit : s.uniquePricePages + s.priceHeadroom ≤ s.pricePageCapacity

def BookCapacityProfile.sizes (profile : BookCapacityProfile) : CapacitySizes where
  directSlots := profile.config.orders.directSlots.toNat
  fallbackBuckets := profile.config.orders.fallbackBucketCount.toNat
  pricePageCapacity := profile.config.prices.pageCapacity.toNat
  maximumOrderRef := profile.evidence.profiledMaxOrderReference.toNat
  uniquePricePages := profile.evidence.profiledUniquePricePages.toNat
  directHeadroom := profile.minimumHeadroom.directOrderReferenceSlots.toNat
  priceHeadroom := profile.minimumHeadroom.pricePages.toNat

end AstraFeed
