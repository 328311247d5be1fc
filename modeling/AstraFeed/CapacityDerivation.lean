import AstraFeed.CapacityManifest
import AstraFeed.Lib.Ascii

/-!
# Writing a capacity manifest

A Python script derives the values of a manifest from the report of the trace profiler and from the
manifest of the traced file, and renders them. A Python string is a list of its characters.
-/

namespace AstraFeed

/-- The arguments of `evidence_bytes`. -/
structure EvidenceValues where
  profileName : List Char
  corpusSha256 : List Char
  profilerSha256 : List Char
  profileOutputSha256 : List Char
  sizes : CapacitySizes
  deriving DecidableEq

namespace CapacityDerivation

def kUint32Max : ℕ := 2 ^ 32 - 1
def kUint64Max : ℕ := 2 ^ 64 - 1
def kMaxPricePageCapacity : ℕ := kUint32Max - 1

/-- The class of `PROFILE_TOKEN`. -/
def isTokenChar (c : Char) : Bool :=
  'A' ≤ c && c ≤ 'Z' || 'a' ≤ c && c ≤ 'z' || '0' ≤ c && c ≤ '9'
    || ['_', '.', ':', '/', '+', '-'].contains c

/-- `PROFILE_TOKEN.fullmatch`. -/
def profileToken (s : List Char) : Bool := 1 ≤ s.length && s.length ≤ 128 && s.all isTokenChar

/-- The class of `LOWER_SHA256`. -/
def isLowerHexChar (c : Char) : Bool := '0' ≤ c && c ≤ '9' || 'a' ≤ c && c ≤ 'f'

/-- `LOWER_SHA256.fullmatch`. -/
def lowerSha256 (s : List Char) : Bool := s.length == 64 && s.all isLowerHexChar

def canonicalUint (value : List Char) (label : String) (maximum : ℕ) : Except String ℕ := do
  require (!(value.isEmpty || (1 < value.length && value.head? == some '0')
      || !value.all fun c => c.toNat < 128))
    s!"{label} is not a canonical unsigned integer"
  require (value.all Char.isDigit) s!"{label} is not a canonical unsigned integer"
  let parsed := Nat.ofDigitChars 10 value 0
  require (parsed ≤ maximum) s!"{label} exceeds {maximum}"
  .ok parsed

/-! ## Records of keys and values -/

/-- A dictionary of strings. -/
abbrev Fields := List (List Char × List Char)

/-- `fields.get(key)`. -/
def getField (fields : Fields) (key : String) : Option (List Char) := fields.lookup key.toList

/-- The loops over the parts of a record, with the texts of their errors. -/
def keyValues (noKey bad : String) (fields : Fields) : List (List Char) → Except String Fields
  | [] => .ok fields
  | part :: parts => do
    require (part.contains '=') noKey
    let key := part.takeWhile (· ≠ '=')
    let value := part.drop (key.length + 1)
    require (!(key.isEmpty || value.isEmpty || (fields.lookup key).isSome)) bad
    keyValues noKey bad (fields ++ [(key, value)]) parts

def keyValueManifest (contents : List Char) : Except String Fields := do
  require (contents.getLast? == some '\n' && !(['\n', '\n'].isSuffixOf contents))
    "corpus manifest must have exactly one final LF"
  require (!(contents.contains '\r' || contents.any fun c => c.toNat == 0))
    "corpus manifest must use canonical ASCII LF line endings"
  keyValues "corpus manifest has a non-key/value line"
    "corpus manifest has an empty or duplicate key/value" [] (contents.dropLast.splitOn '\n')

/-- The code points at which `str.splitlines` ends a line. -/
def isLineBoundary (c : Char) : Bool :=
  0x0a ≤ c.toNat && c.toNat ≤ 0x0d || 0x1c ≤ c.toNat && c.toNat ≤ 0x1e || c.toNat == 0x85
    || c.toNat == 0x2028 || c.toNat == 0x2029

/-- `str.splitlines`. -/
def splitlines : List Char → List (List Char)
  | [] => []
  | '\r' :: '\n' :: cs => [] :: splitlines cs
  | c :: cs =>
    if isLineBoundary c then [] :: splitlines cs
    else
      match splitlines cs with
      | [] => [[c]]
      | line :: lines => (c :: line) :: lines

def kSingleQuote : Char := Char.ofNat 39
def kDoubleQuote : Char := Char.ofNat 34
def kBackslash : Char := Char.ofNat 92

/-- Where `shlex` is: between tokens, in a token, in a quote, or behind a backslash, and then in
which quote the backslash stands. -/
inductive ShlexState
  | space
  | word
  | quote (q : Char)
  | escape (q : Option Char)
  deriving DecidableEq

/-- `shlex.split` of POSIX text, with the token begun and whether a part of it was quoted; `none`
for a quote that is not closed and a backslash with nothing behind it. -/
def shlexSplit (token : List Char) (quoted : Bool) :
    ShlexState → List Char → Option (List (List Char))
  | .space, [] => some []
  | .word, [] => some (if token = [] ∧ !quoted then [] else [token])
  | .quote _, [] => none
  | .escape _, [] => none
  | .space, c :: cs =>
    if [' ', '\t', '\r', '\n'].contains c then shlexSplit [] false .space cs
    else if c = kBackslash then shlexSplit [] false (.escape none) cs
    else if c = kSingleQuote ∨ c = kDoubleQuote then shlexSplit [] false (.quote c) cs
    else shlexSplit [c] false .word cs
  | .word, c :: cs =>
    if [' ', '\t', '\r', '\n'].contains c then
      if token = [] ∧ !quoted then shlexSplit [] false .space cs
      else (shlexSplit [] false .space cs).map (token :: ·)
    else if c = kSingleQuote ∨ c = kDoubleQuote then shlexSplit token quoted (.quote c) cs
    else if c = kBackslash then shlexSplit token quoted (.escape none) cs
    else shlexSplit (token ++ [c]) quoted .word cs
  | .quote q, c :: cs =>
    if c = q then shlexSplit token true .word cs
    else if c = kBackslash ∧ q = kDoubleQuote then shlexSplit token true (.escape (some q)) cs
    else shlexSplit (token ++ [c]) true (.quote q) cs
  | .escape none, c :: cs => shlexSplit (token ++ [c]) quoted .word cs
  | .escape (some q), c :: cs =>
    if c ≠ kBackslash ∧ c ≠ q then shlexSplit (token ++ [kBackslash, c]) quoted (.quote q) cs
    else shlexSplit (token ++ [c]) quoted (.quote q) cs

def profileRecord (contents : List Char) (recordName : String) : Except String Fields := do
  let matching := (splitlines contents).filter fun line =>
    (recordName.toList ++ [' ']).isPrefixOf line
  require (matching.length == 1) s!"profile must contain exactly one {recordName} record"
  match shlexSplit [] false .space (matching.headD []) with
  | none => .error s!"profile {recordName} record is not valid shell-style text"
  | some tokens =>
    require (tokens.head? == some recordName.toList) s!"profile {recordName} record is malformed"
    keyValues s!"profile {recordName} contains a non-key/value token"
      s!"profile {recordName} has an empty or duplicate field" [] tokens.tail

def fieldUint (recordName : String) (fields : Fields) (key : String) (maximum : ℕ) :
    Except String ℕ :=
  match getField fields key with
  | none => .error s!"profile {recordName} is missing {key}"
  | some value => canonicalUint value s!"profile {recordName}.{key}" maximum

def requireZeroFields (recordName : String) (fields : Fields) : List String → Except String Unit
  | [] => .ok ()
  | key :: keys => do
    let n ← fieldUint recordName fields key kUint64Max
    require (n == 0) s!"profile is not semantic-clean: {recordName}.{key} is nonzero"
    requireZeroFields recordName fields keys

/-! ## Deriving the values -/

def kZeroLifecycleFields : List String :=
  ["conflicting_directory_after_system_hours", "conflicting_directory_identities",
    "invalid_directory_identities", "duplicate_directory_tickers", "invalid_timestamps",
    "order_adds_before_directory", "order_add_stock_mismatches",
    "book_messages_before_system_hours", "system_event_sequence_errors",
    "unsupported_system_event_codes", "invalid_messages_after_system_event_e"]

def kZeroOrderFields : List String :=
  ["live_final", "duplicates", "missing_D", "missing_X", "missing_EC", "missing_U", "same_ref_U",
    "over_X", "over_EC", "zero_qty", "invalid_sides", "locate_mismatches", "invariant_failures"]

def kZeroPriceFields : List String := ["active_levels_final", "active_price_pages_final"]

def validateCorpusManifest (fields profile : Fields) (completion : List Char) (profileBytes : ℕ)
    (actualBinaryfileSha256 : List Char) (actualBinaryfileBytes : ℕ) : Except String Unit := do
  require (getField fields "schema" == some "astra_itch_trace_manifest_v1".toList)
    "unsupported corpus manifest schema; expected astra_itch_trace_manifest_v1"
  require (getField fields "first_itch_message" == some "system_event_O".toList)
    "corpus manifest does not certify System Event O first"
  require (getField fields "final_itch_message" == some "system_event_C".toList)
    "corpus manifest does not certify System Event C final"
  let manifestSha256 := (getField fields "binaryfile_sha256").getD []
  require (lowerSha256 manifestSha256)
    "corpus manifest binaryfile_sha256 is not lowercase SHA-256"
  let manifestBytes ← canonicalUint ((getField fields "binaryfile_bytes").getD [])
    "corpus manifest binaryfile_bytes" kUint64Max
  require (manifestBytes == profileBytes)
    "profile byte count differs from corpus manifest binaryfile_bytes"
  require (actualBinaryfileBytes == manifestBytes)
    "actual BinaryFILE byte count differs from corpus manifest"
  require (actualBinaryfileSha256 == manifestSha256)
    "actual BinaryFILE SHA-256 differs from corpus manifest"
  let manifestPath := getField fields "binaryfile_path"
  require (manifestPath.any (!·.isEmpty) && manifestPath == getField profile "path")
    "profile path differs from corpus manifest binaryfile_path"
  let terminator := getField fields "zero_length_terminator_present"
  let expectedTerminator := completion == "terminator".toList
  require (terminator == some "true".toList || terminator == some "false".toList)
    "corpus manifest zero_length_terminator_present must be true or false"
  require ((terminator == some "true".toList) == expectedTerminator)
    "profile completion differs from corpus manifest terminator policy"

/-- The checks of `derive` on its arguments. -/
def checkArguments (profileName : List Char) (directHeadroom priceHeadroom fallbackBuckets : ℕ) :
    Except String Unit := do
  require (profileToken profileName) "profile name must be a 1-128 character audit-safe token"
  require (!(kUint32Max < fallbackBuckets
      || (fallbackBuckets &&& (fallbackBuckets - 1)) != 0))
    "order fallback buckets must be a uint32 power of two"
  require (directHeadroom ≤ kUint64Max) "direct-order headroom exceeds uint64"
  require (priceHeadroom ≤ kUint32Max) "price-page headroom exceeds uint32"

/-- The checks on what was profiled, and with what; the number of bytes and the completion. -/
def checkProfile (profile certification : Fields)
    (actualBinaryfileSha256 actualProfilerSha256 : List Char) :
    Except String (ℕ × List Char) := do
  require (getField certification "semantic_clean" == some ['1'])
    "profile certification semantic_clean is not 1"
  let records ← fieldUint "itch_trace_profile" profile "records" kUint64Max
  require (records != 0) "profile contains no ITCH records"
  let profileBytes ← fieldUint "itch_trace_profile" profile "bytes" kUint64Max
  require (profileBytes != 0) "profile contains no BinaryFILE bytes"
  let malformed ← fieldUint "itch_trace_profile" profile "malformed_records" kUint64Max
  require (malformed == 0) "profile contains malformed records"
  let above ← fieldUint "itch_trace_profile" profile "prices_above_documented_max" kUint64Max
  require (above == 0) "profile contains prices above the ITCH maximum"
  let profiledBinaryfileSha256 := (getField profile "binaryfile_sha256").getD []
  require (lowerSha256 profiledBinaryfileSha256)
    "profile BinaryFILE SHA-256 is not 64 lowercase hex digits"
  require (profiledBinaryfileSha256 == actualBinaryfileSha256)
    "profile BinaryFILE SHA-256 differs from actual BinaryFILE"
  let profiledProfilerSha256 := (getField profile "profiler_sha256").getD []
  require (lowerSha256 profiledProfilerSha256)
    "profile profiler SHA-256 is not 64 lowercase hex digits"
  require (profiledProfilerSha256 == actualProfilerSha256)
    "profile profiler SHA-256 differs from actual profiler binary"
  let completion := (getField profile "binaryfile_completion").getD []
  require (completion == "terminator".toList || completion == "legacy_sc_eof".toList)
    "profile BinaryFILE completion is not terminator or legacy_sc_eof"
  let zeroRecords ← fieldUint "itch_trace_profile" profile "zero_length_records" kUint64Max
  require (!(completion == "terminator".toList && zeroRecords != 1
      || completion == "legacy_sc_eof".toList && zeroRecords != 0))
    "profile zero-length record count disagrees with completion"
  .ok (profileBytes, completion)

/-- The checks on the orders, and the largest order reference. -/
def maximumOrderReference (profile lifecycle orders : Fields) : Except String ℕ := do
  requireZeroFields "lifecycle" lifecycle kZeroLifecycleFields
  let events ← fieldUint "lifecycle" lifecycle "daily_system_events_seen" kUint64Max
  require (events == 6) "profile does not contain the six ordered daily System Events"
  let eventE ← fieldUint "lifecycle" lifecycle "system_event_e" kUint64Max
  require (eventE == 1) "profile does not contain exactly one System Event E"
  requireZeroFields "orders" orders kZeroOrderFields
  let newRefs ← fieldUint "orders" orders "new_refs" kUint64Max
  require (newRefs != 0) "profile has no displayed orders from which to size the order table"
  let maximumOrderRef ← fieldUint "itch_trace_profile" profile "max_order_ref" kUint64Max
  let maximumNewOrderRef ← fieldUint "orders" orders "id_max" kUint64Max
  require (!(maximumOrderRef == 0 || maximumOrderRef != maximumNewOrderRef))
    "profile max_order_ref and orders.id_max are inconsistent"
  .ok maximumOrderRef

/-- The checks on the price pages, and their number. -/
def uniquePages (profile prices : Fields) : Except String ℕ := do
  requireZeroFields "prices" prices kZeroPriceFields
  let uniquePricePages ← fieldUint "prices" prices "ever_price_pages" kUint32Max
  require (uniquePricePages != 0)
    "profile has no lifetime price pages from which to size the arena"
  let distinctPages ←
    fieldUint "itch_trace_profile" profile "distinct_locate_price_pages" kUint32Max
  require (uniquePricePages ≤ distinctPages)
    "profile lifetime price pages exceed distinct observed price pages"
  .ok uniquePricePages

/-- The direct slots, the page capacity, the largest order reference and the price pages used. -/
def derive (profileContents corpusContents profileName : List Char)
    (directHeadroom priceHeadroom fallbackBuckets : ℕ) (actualBinaryfileSha256 : List Char)
    (actualBinaryfileBytes : ℕ) (actualProfilerSha256 : List Char) :
    Except String (ℕ × ℕ × ℕ × ℕ) := do
  checkArguments profileName directHeadroom priceHeadroom fallbackBuckets
  let profile ← profileRecord profileContents "itch_trace_profile"
  let lifecycle ← profileRecord profileContents "lifecycle"
  let orders ← profileRecord profileContents "orders"
  let prices ← profileRecord profileContents "prices"
  let certification ← profileRecord profileContents "certification"
  let (profileBytes, completion) ←
    checkProfile profile certification actualBinaryfileSha256 actualProfilerSha256
  let maximumOrderRef ← maximumOrderReference profile lifecycle orders
  let uniquePricePages ← uniquePages profile prices
  let corpus ← keyValueManifest corpusContents
  validateCorpusManifest corpus profile completion profileBytes actualBinaryfileSha256
    actualBinaryfileBytes
  let directSlots := maximumOrderRef + 1 + directHeadroom
  require (directSlots ≤ kUint64Max)
    "observed maximum plus direct-order headroom exceeds uint64"
  let pricePageCapacity := uniquePricePages + priceHeadroom
  require (pricePageCapacity ≤ kMaxPricePageCapacity)
    "observed pages plus price-page headroom exceed loader capacity"
  .ok (directSlots, pricePageCapacity, maximumOrderRef, uniquePricePages)

end CapacityDerivation

/-! ## Rendering -/

namespace EvidenceValues

open CapacityDerivation

/-- A label, the value behind it, and a line feed. -/
def line (label : String) (value : List Char) : List Char := label.toList ++ value ++ ['\n']

def text (v : EvidenceValues) : List Char :=
  [line "schema=astra_book_capacity_evidence_v2" [],
    line "profile_name=" v.profileName,
    line "corpus_manifest_sha256=" v.corpusSha256,
    line "profiler_sha256=" v.profilerSha256,
    line "profile_output_sha256=" v.profileOutputSha256,
    line "order_direct_slots=" (Nat.toDigits 10 v.sizes.directSlots),
    line "order_fallback_buckets=" (Nat.toDigits 10 v.sizes.fallbackBuckets),
    line "price_page_capacity=" (Nat.toDigits 10 v.sizes.pricePageCapacity),
    line "profiled_max_order_ref=" (Nat.toDigits 10 v.sizes.maximumOrderRef),
    line "profiled_unique_price_pages=" (Nat.toDigits 10 v.sizes.uniquePricePages),
    line "minimum_direct_order_headroom=" (Nat.toDigits 10 v.sizes.directHeadroom),
    line "minimum_price_page_headroom=" (Nat.toDigits 10 v.sizes.priceHeadroom)].flatten

/-- `none` where a character has no ASCII byte. -/
def evidenceBytes (v : EvidenceValues) : Option (List UInt8) := Ascii.encode v.text

/-- The values the loader accepts. -/
structure Admissible (v : EvidenceValues) : Prop where
  token : profileToken v.profileName = true
  corpus : lowerSha256 v.corpusSha256 = true
  profiler : lowerSha256 v.profilerSha256 = true
  profileOutput : lowerSha256 v.profileOutputSha256 = true
  sizes : v.sizes.Fit

end EvidenceValues

/-- The values of a loaded manifest. -/
def BookCapacityEvidenceManifest.values (m : BookCapacityEvidenceManifest) : EvidenceValues where
  profileName := Ascii.decode m.profile.name
  corpusSha256 := Ascii.decode m.corpusManifestSha256
  profilerSha256 := Ascii.decode m.profilerSha256
  profileOutputSha256 := Ascii.decode m.profileOutputSha256
  sizes := m.profile.sizes

end AstraFeed
