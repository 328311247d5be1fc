import AstraFeed.CapacityDerivation
import AstraFeed.Proofs.CapacityManifest
import AstraFeed.Proofs.Sha256

/-!
# The writer against the loader

What is loaded as version 2 is what the script renders of the loaded values, and what the script
derives is loaded with the values it was rendered of (`capacity_manifest_canonical`).
-/

namespace AstraFeed

open BookCapacityEvidenceManifest BookCapacityProfile CapacityManifest CapacityDerivation

/-! ## Characters and bytes -/

section Characters

variable {s : List Char} {value : List UInt8}

/-- A class of ASCII characters and the same class of bytes. -/
structure SameClass (p : Char → Bool) (q : UInt8 → Bool) : Prop where
  ascii : ∀ c, p c = true → c.toNat < 128
  same : ∀ c, c.toNat < 128 → q c.toUInt8 = p c
  bytes : ∀ b, q b = true → b.toNat < 128

theorem SameClass.encode {p : Char → Bool} {q : UInt8 → Bool} (h : SameClass p q)
    (hs : ∀ c ∈ s, p c = true) :
    Ascii.encode s = some (s.map Char.toUInt8) ∧ ∀ b ∈ s.map Char.toUInt8, q b = true := by
  refine ⟨if_pos (List.all_eq_true.2 fun c hc => decide_eq_true (h.ascii c (hs c hc))), ?_⟩
  intro b hb
  obtain ⟨c, hc, rfl⟩ := List.mem_map.1 hb
  rw [h.same c (h.ascii c (hs c hc))]
  exact hs c hc

theorem SameClass.decode {p : Char → Bool} {q : UInt8 → Bool} (h : SameClass p q)
    (hv : ∀ b ∈ value, q b = true) : ∀ c ∈ Ascii.decode value, p c = true := by
  intro c hc
  obtain ⟨b, hb, rfl⟩ := List.mem_map.1 hc
  have hb128 := h.bytes b (hv b hb)
  obtain ⟨hnat, hbyte⟩ := Ascii.toUInt8_ofNat b.toNat hb128
  rw [← h.same _ (hnat.trans_lt hb128), hbyte, Nat.toUInt8_eq, UInt8.ofNat_toNat]
  exact hv b hb

theorem lt_of_plain {b : UInt8} (h : 0x20 < b ∧ b ≤ 0x7f) : b.toNat < 128 :=
  Nat.lt_succ_of_le (UInt8.le_iff_toNat_le.1 h.2)

theorem sameClass_token : SameClass isTokenChar isTokenCharacter where
  ascii c h := by
    simp only [isTokenChar, Bool.or_eq_true, Bool.and_eq_true, decide_eq_true_eq,
      List.contains_iff_mem, List.mem_cons, List.not_mem_nil, or_false] at h
    rcases h with ((h | h) | h) | h
    · exact Nat.lt_of_le_of_lt h.2 (by decide)
    · exact Nat.lt_of_le_of_lt h.2 (by decide)
    · exact Nat.lt_of_le_of_lt h.2 (by decide)
    · rcases h with rfl | rfl | rfl | rfl | rfl | rfl <;> decide
  same c h := by
    rw [Bool.eq_iff_iff]
    simp (disch := first | exact h | decide) only [isTokenCharacter, isTokenChar, byte,
      Bool.or_eq_true, Bool.and_eq_true, decide_eq_true_eq, beq_iff_eq, Ascii.toUInt8_le,
      Ascii.toUInt8_inj, List.contains_iff_mem, List.mem_cons, List.not_mem_nil, or_false]
    tauto
  bytes b h := lt_of_plain (plain_of_token b h)

theorem sameClass_lowerHex : SameClass isLowerHexChar isLowerHexCharacter where
  ascii c h := by
    simp only [isLowerHexChar, Bool.or_eq_true, Bool.and_eq_true, decide_eq_true_eq] at h
    rcases h with h | h
    · exact Nat.lt_of_le_of_lt h.2 (by decide)
    · exact Nat.lt_of_le_of_lt h.2 (by decide)
  same c h := by
    rw [Bool.eq_iff_iff]
    simp (disch := first | exact h | decide) only [isLowerHexCharacter, isLowerHexChar, byte,
      Bool.or_eq_true, Bool.and_eq_true, decide_eq_true_eq, Ascii.toUInt8_le]
  bytes b h := lt_of_plain (plain_of_lowerHex b h)

/-- The script's tokens are the loader's. -/
theorem profileToken_encode (h : profileToken s = true) :
    ∃ bytes, Ascii.encode s = some bytes ∧ isProfileToken bytes = true := by
  simp only [profileToken, Bool.and_eq_true, decide_eq_true_eq, List.all_eq_true] at h
  obtain ⟨hencode, hall⟩ := sameClass_token.encode h.2
  exact ⟨_, hencode, isProfileToken_iff.2 ⟨by simpa using h.1, hall⟩⟩

theorem profileToken_decode (h : isProfileToken value = true) :
    profileToken (Ascii.decode value) = true := by
  obtain ⟨hlen, hall⟩ := isProfileToken_iff.1 h
  simp only [profileToken, Bool.and_eq_true, decide_eq_true_eq, List.all_eq_true]
  exact ⟨by simpa [Ascii.decode] using hlen, sameClass_token.decode hall⟩

theorem lowerSha256_encode (h : lowerSha256 s = true) :
    ∃ bytes, Ascii.encode s = some bytes ∧ isLowerHexSha256 bytes = true := by
  simp only [lowerSha256, Bool.and_eq_true, beq_iff_eq, List.all_eq_true] at h
  obtain ⟨hencode, hall⟩ := sameClass_lowerHex.encode h.2
  exact ⟨_, hencode, isLowerHexSha256_iff.2 ⟨by simpa using h.1, hall⟩⟩

theorem lowerSha256_decode (h : isLowerHexSha256 value = true) :
    lowerSha256 (Ascii.decode value) = true := by
  obtain ⟨hlen, hall⟩ := isLowerHexSha256_iff.1 h
  simp only [lowerSha256, Bool.and_eq_true, beq_iff_eq, List.all_eq_true]
  exact ⟨by simpa [Ascii.decode] using hlen, sameClass_lowerHex.decode hall⟩

theorem encode_decode_fine (h : Fine value) : Ascii.encode (Ascii.decode value) = some value :=
  Ascii.encode_decode fun b hb => lt_of_plain (h.plain b hb)

end Characters

/-! ## Rendering the loaded values -/

section Render

variable {m : BookCapacityEvidenceManifest} {s : List Char} {bytes : List UInt8}

theorem encode_toDigits (n : ℕ) :
    Ascii.encode (Nat.toDigits 10 n) = some (Decimal.digits n) := by
  refine if_pos (List.all_eq_true.2 fun c hc => decide_eq_true ?_)
  have hdigit := Nat.isDigit_of_mem_toDigits (by decide) (by decide) hc
  simp only [Char.isDigit, Bool.and_eq_true, decide_eq_true_eq] at hdigit
  exact Nat.lt_of_le_of_lt hdigit.2 (by decide)

theorem encode_line {label key : String}
    (hlabel : Ascii.encode label.toList = some (ascii key ++ [byte '=']))
    (hs : Ascii.encode s = some bytes) :
    Ascii.encode (EvidenceValues.line label s) = some (keyValue key bytes ++ [byte '\n']) := by
  have h := Ascii.encode_append (Ascii.encode_append hlabel hs)
    (show Ascii.encode ['\n'] = some [byte '\n'] from rfl)
  rwa [List.append_assoc (ascii key), List.singleton_append] at h

theorem evidenceBytes_values (h : Loadable m) :
    m.values.evidenceBytes = some (manifestText m) := by
  unfold EvidenceValues.evidenceBytes EvidenceValues.text manifestText Terminated.join
  rw [List.flatMap_def]
  refine Ascii.encode_flatten ?_
  simp only [manifestLines, List.map_cons, List.map_nil, List.forall₂_cons,
    List.forall₂_nil_right_iff, and_true]
  exact ⟨by decide, encode_line (by decide) (encode_decode_fine (fine_token h.token)),
    encode_line (by decide) (encode_decode_fine (fine_hash h.corpus)),
    encode_line (by decide) (encode_decode_fine (fine_hash h.profiler)),
    encode_line (by decide) (encode_decode_fine (fine_hash h.profileOutput)),
    encode_line (by decide) (encode_toDigits _), encode_line (by decide) (encode_toDigits _),
    encode_line (by decide) (encode_toDigits _), encode_line (by decide) (encode_toDigits _),
    encode_line (by decide) (encode_toDigits _), encode_line (by decide) (encode_toDigits _),
    encode_line (by decide) (encode_toDigits _)⟩

theorem admissible_values (h : Loadable m) : m.values.Admissible :=
  ⟨profileToken_decode h.token, lowerSha256_decode h.corpus, lowerSha256_decode h.profiler,
    lowerSha256_decode h.profileOutput, h.sizes⟩

/-- The words of numbers that fit. -/
theorem exists_profile (name sha : List UInt8) {sizes : CapacitySizes} (h : sizes.Fit) :
    ∃ profile : BookCapacityProfile, profile.name = name ∧ profile.evidenceSha256 = sha
      ∧ profile.sizes = sizes := by
  have hslots := h.directSlots
  have hbuckets := h.buckets.2
  have hpages := h.pages
  have hdirect := h.directFits
  have hprices := h.pricesFit
  refine ⟨⟨name, sha, ⟨⟨sizes.directSlots.toUInt64, sizes.fallbackBuckets.toUInt32⟩,
    ⟨sizes.pricePageCapacity.toUInt32⟩⟩, ⟨sizes.maximumOrderRef.toUInt64,
    sizes.uniquePricePages.toUInt32⟩, ⟨sizes.directHeadroom.toUInt64,
    sizes.priceHeadroom.toUInt32⟩⟩, rfl, rfl, ?_⟩
  have hwide : ∀ n < 2 ^ 64, n.toUInt64.toNat = n := fun n hn => UInt64.toNat_ofNat_of_lt hn
  have hword : ∀ n < 2 ^ 32, n.toUInt32.toNat = n := fun n hn => UInt32.toNat_ofNat_of_lt hn
  simp only [BookCapacityProfile.sizes]
  rw [hwide _ hslots, hword _ hbuckets, hword _ (by omega), hwide _ (by omega),
    hword _ (by omega), hwide _ (by omega), hword _ (by omega)]

/-- Admissible values are those of a manifest the loader can answer with. -/
theorem exists_loadable {v : EvidenceValues} (h : v.Admissible) {sha : List UInt8}
    (hsha : isLowerHexSha256 sha = true) : ∃ m, Loadable m ∧ m.values = v
      ∧ m.profile.evidenceSha256 = sha ∧ Ascii.encode v.profileName = some m.profile.name := by
  obtain ⟨name, hname, htoken⟩ := profileToken_encode h.token
  obtain ⟨corpus, hcorpus, hc⟩ := lowerSha256_encode h.corpus
  obtain ⟨profiler, hprofiler, hp⟩ := lowerSha256_encode h.profiler
  obtain ⟨output, houtput, ho⟩ := lowerSha256_encode h.profileOutput
  obtain ⟨profile, rfl, rfl, hsizes⟩ := exists_profile name sha h.sizes
  refine ⟨⟨profile, corpus, profiler, output, kSchemaV2⟩,
    ⟨rfl, htoken, hc, hp, ho, hsizes ▸ h.sizes, hsha⟩, ?_, rfl, hname⟩
  simp only [BookCapacityEvidenceManifest.values, hsizes, Ascii.decode_of_encode hname,
    Ascii.decode_of_encode hcorpus, Ascii.decode_of_encode hprofiler,
    Ascii.decode_of_encode houtput]

/-- A rendering is within the size the loader reads. -/
theorem evidenceBytes_short {v : EvidenceValues} (h : v.Admissible) :
    ∃ contents, v.evidenceBytes = some contents ∧ contents.length ≤ kMaximumManifestBytes := by
  -- the digest is no part of the text: any will do
  obtain ⟨m, hm, rfl, -⟩ := exists_loadable h
    (show isLowerHexSha256 (List.replicate 64 (byte '0')) = true by decide)
  exact ⟨_, evidenceBytes_values hm, (readManifest_eq_ok.1 (readManifest_manifestText hm)).1.2⟩

end Render

/-! ## The digest -/

theorem isLowerHexSha256_sha256Hex {contents sha : List UInt8}
    (h : Sha256.sha256Hex contents = some sha) : isLowerHexSha256 sha = true := by
  rw [Sha256.sha256Hex_eq (Sha256.length_lt_of_sha256Hex h)] at h
  rw [← Option.some.inj h, isLowerHexSha256_iff]
  constructor
  · have hlen : (Fips180.sha256 contents).length = 32 := by
      simp [Fips180.sha256, Fips180.Words.toBytes]
    rw [List.length_flatMap]
    simp [hlen]
  · intro c hc
    obtain ⟨b, -, hb⟩ := List.mem_flatMap.1 hc
    have hdigits := Ascii.forall_byte
      (p := fun b => isLowerHexCharacter (Sha256.kHex.getD (b >>> 4 : UInt8).toNat 0)
        && isLowerHexCharacter (Sha256.kHex.getD (b &&& 0x0f).toNat 0)) (by decide +kernel) b
    rw [Bool.and_eq_true] at hdigits
    rw [List.mem_cons, List.mem_singleton] at hb
    rcases hb with rfl | rfl
    · exact hdigits.1
    · exact hdigits.2

/-! ## What is derived -/

section Derive

variable {profileContents corpusContents profileName actualBinaryfileSha256
  actualProfilerSha256 : List Char} {directHeadroom priceHeadroom fallbackBuckets
  actualBinaryfileBytes directSlots pricePageCapacity maximumOrderRef uniquePricePages : ℕ}

theorem maximumOrderReference_pos {profile lifecycle orders : Fields} {n : ℕ}
    (h : maximumOrderReference profile lifecycle orders = .ok n) : 0 < n := by
  unfold maximumOrderReference at h
  simp only [bind_eq_ok, require_eq_ok, Except.ok.injEq] at h
  obtain ⟨_, -, _, -, _, -, _, -, _, -, _, -, _, -, _, -, m, -, _, -, _, hm, rfl⟩ := h
  refine Nat.pos_of_ne_zero ?_
  rintro rfl
  simp at hm

theorem uniquePages_pos {profile prices : Fields} {n : ℕ}
    (h : uniquePages profile prices = .ok n) : 0 < n := by
  unfold uniquePages at h
  simp only [bind_eq_ok, require_eq_ok, Except.ok.injEq] at h
  obtain ⟨_, -, m, -, _, hm, _, -, _, -, rfl⟩ := h
  exact Nat.pos_of_ne_zero (by simpa using hm)

theorem derive_ok (hd : 0 < directHeadroom) (hp : 0 < priceHeadroom) (hf : 0 < fallbackBuckets)
    (h : derive profileContents corpusContents profileName directHeadroom priceHeadroom
      fallbackBuckets actualBinaryfileSha256 actualBinaryfileBytes actualProfilerSha256
      = .ok (directSlots, pricePageCapacity, maximumOrderRef, uniquePricePages)) :
    profileToken profileName = true ∧ CapacitySizes.Fit ⟨directSlots, fallbackBuckets,
      pricePageCapacity, maximumOrderRef, uniquePricePages, directHeadroom, priceHeadroom⟩ := by
  unfold derive checkArguments at h
  simp only [bind_eq_ok, require_eq_ok, Except.ok.injEq, Prod.mk.injEq] at h
  obtain ⟨_, ⟨_, htoken, _, hbuckets, _, hdirect, hprice⟩, profile, -, lifecycle, -, orders, -,
    prices, -, certification, -, checked, -, maximum, hmaximum, unique, hunique, corpus, -, _, -,
    _, hslots, _, hpages, rfl, rfl, rfl, rfl⟩ := h
  have hmaximum := maximumOrderReference_pos hmaximum
  have hunique := uniquePages_pos hunique
  simp only [Bool.not_eq_eq_eq_not, Bool.not_true, Bool.or_eq_false_iff, decide_eq_false_iff_not,
    bne_eq_false_iff_eq, Nat.not_lt] at hbuckets
  have hpow := (Nat.and_sub_one_eq_zero_iff_isPowerOfTwo hf.ne').1 hbuckets.2
  have hslots : maximum + 1 + directHeadroom < 2 ^ 64 :=
    Nat.lt_succ_of_le (of_decide_eq_true hslots)
  have hbuckets : fallbackBuckets < 2 ^ 32 := Nat.lt_succ_of_le hbuckets.1
  have hpages : unique + priceHeadroom < 2 ^ 32 - 1 :=
    Nat.lt_succ_of_le (of_decide_eq_true hpages)
  exact ⟨htoken, hslots, ⟨hpow, hbuckets⟩, hpages, hmaximum, hunique, hd, hp, le_rfl, le_rfl⟩

end Derive

/-- The loader and the writer are inverse on one canonical format: as version 2 exactly the
renderings of admissible values are accepted, rendering what was loaded gives the bytes back, and
what the script derives and renders is accepted with its values. -/
theorem capacity_manifest_canonical :
    (∀ contents name sha, Sha256.sha256Hex contents = some sha →
      ((∃ m, loadBookCapacityEvidenceManifest contents name sha = .ok m ∧ m.schema = kSchemaV2)
        ↔ ∃ v : EvidenceValues, v.Admissible ∧ Ascii.encode v.profileName = some name
          ∧ v.evidenceBytes = some contents)
      ∧ ∀ m, loadBookCapacityEvidenceManifest contents name sha = .ok m → m.schema = kSchemaV2 →
        m.values.evidenceBytes = some contents)
    ∧ ∀ profileContents corpusContents profileName directHeadroom priceHeadroom fallbackBuckets
        actualBinaryfileSha256 actualBinaryfileBytes actualProfilerSha256 directSlots
        pricePageCapacity maximumOrderRef uniquePricePages corpusSha256 profilerSha256
        profileOutputSha256,
      0 < directHeadroom → 0 < priceHeadroom → 0 < fallbackBuckets →
      derive profileContents corpusContents profileName directHeadroom priceHeadroom
        fallbackBuckets actualBinaryfileSha256 actualBinaryfileBytes actualProfilerSha256
        = .ok (directSlots, pricePageCapacity, maximumOrderRef, uniquePricePages) →
      lowerSha256 corpusSha256 = true → lowerSha256 profilerSha256 = true →
      lowerSha256 profileOutputSha256 = true →
      let v : EvidenceValues := ⟨profileName, corpusSha256, profilerSha256, profileOutputSha256,
        ⟨directSlots, fallbackBuckets, pricePageCapacity, maximumOrderRef, uniquePricePages,
          directHeadroom, priceHeadroom⟩⟩
      ∃ contents name sha m, v.evidenceBytes = some contents
        ∧ Ascii.encode profileName = some name ∧ Sha256.sha256Hex contents = some sha
        ∧ loadBookCapacityEvidenceManifest contents name sha = .ok m ∧ m.schema = kSchemaV2
        ∧ m.values = v := by
  refine ⟨fun contents name sha hsha => ⟨⟨?_, ?_⟩, ?_⟩, ?_⟩
  · rintro ⟨m, hm⟩
    obtain ⟨h, rfl, rfl, -⟩ := (load_eq_ok hsha).1 hm
    exact ⟨m.values, admissible_values h, encode_decode_fine (fine_token h.token),
      evidenceBytes_values h⟩
  · rintro ⟨v, hv, hname, hbytes⟩
    obtain ⟨m, h, rfl, rfl, hm⟩ := exists_loadable hv (isLowerHexSha256_sha256Hex hsha)
    rw [evidenceBytes_values h] at hbytes
    exact ⟨m, (load_eq_ok hsha).2 ⟨h, (Option.some.inj hbytes).symm,
      Option.some.inj (hm.symm.trans hname), rfl⟩⟩
  · intro m hm hV2
    obtain ⟨h, rfl, -⟩ := (load_eq_ok hsha).1 ⟨hm, hV2⟩
    exact evidenceBytes_values h
  · intro profileContents corpusContents profileName directHeadroom priceHeadroom fallbackBuckets
      actualBinaryfileSha256 actualBinaryfileBytes actualProfilerSha256 directSlots
      pricePageCapacity maximumOrderRef uniquePricePages corpusSha256 profilerSha256
      profileOutputSha256 hd hp hf hderive hcorpus hprofiler houtput v
    obtain ⟨htoken, hsizes⟩ := derive_ok hd hp hf hderive
    have hv : v.Admissible := ⟨htoken, hcorpus, hprofiler, houtput, hsizes⟩
    obtain ⟨contents, hbytes, hsmall⟩ := evidenceBytes_short hv
    have hsha := Sha256.sha256Hex_eq (hsmall.trans_lt (by decide))
    obtain ⟨m, h, hvalues, hdigest, hname⟩ := exists_loadable hv (isLowerHexSha256_sha256Hex hsha)
    rw [← hvalues, evidenceBytes_values h] at hbytes
    obtain ⟨hload, hV2⟩ := (load_eq_ok hsha).2 ⟨h, (Option.some.inj hbytes).symm, rfl, hdigest⟩
    exact ⟨contents, _, _, m, hvalues ▸ evidenceBytes_values h ▸ hbytes, hname, hsha, hload, hV2,
      hvalues⟩

/-! ### A report on one order -/

/-- Keys and values as a record of the report has them. -/
def reportFields (fields : List (String × List Char)) : List Char :=
  fields.flatMap fun f => ' ' :: f.1.toList ++ '=' :: f.2

def zeroHash : List Char := List.replicate 64 '0'

def sampleProfile : List Char :=
  "itch_trace_profile".toList
    ++ reportFields [("path", ['f']), ("records", ['1']), ("bytes", ['2']),
      ("malformed_records", ['0']), ("prices_above_documented_max", ['0']),
      ("binaryfile_completion", "terminator".toList), ("zero_length_records", ['1']),
      ("max_order_ref", ['5']), ("distinct_locate_price_pages", ['1']),
      ("binaryfile_sha256", zeroHash), ("profiler_sha256", zeroHash)]
    ++ "\nlifecycle".toList
    ++ reportFields [("daily_system_events_seen", ['6']), ("system_event_e", ['1'])]
    ++ reportFields (kZeroLifecycleFields.map (·, ['0']))
    ++ "\norders".toList ++ reportFields [("new_refs", ['1']), ("id_max", ['5'])]
    ++ reportFields (kZeroOrderFields.map (·, ['0']))
    ++ "\nprices".toList ++ reportFields [("ever_price_pages", ['1'])]
    ++ reportFields (kZeroPriceFields.map (·, ['0']))
    ++ "\ncertification".toList ++ reportFields [("semantic_clean", ['1'])]

def sampleCorpus : List Char :=
  [("schema", "astra_itch_trace_manifest_v1".toList),
    ("first_itch_message", "system_event_O".toList),
    ("final_itch_message", "system_event_C".toList), ("binaryfile_bytes", ['2']),
    ("binaryfile_path", ['f']), ("zero_length_terminator_present", "true".toList),
    ("binaryfile_sha256", zeroHash)].flatMap fun f : String × List Char =>
      f.1.toList ++ '=' :: f.2 ++ ['\n']

def sampleValues : EvidenceValues :=
  ⟨['d'], zeroHash, zeroHash, zeroHash, ⟨16, 4, 21, 5, 1, 10, 20⟩⟩

/-- The values derived of the report, with reserves of ten orders and twenty pages. -/
theorem capacity_manifest_canonical_sample : ∃ contents name sha m,
    sampleValues.evidenceBytes = some contents
      ∧ loadBookCapacityEvidenceManifest contents name sha = .ok m ∧ m.values = sampleValues
      ∧ m.values.evidenceBytes = some contents := by
  have hderive : derive sampleProfile sampleCorpus ['d'] 10 20 4 zeroHash 2 zeroHash
      = .ok (16, 21, 5, 1) := by decide +kernel
  obtain ⟨contents, name, sha, m, hbytes, -, hsha, hload, hV2, hvalues⟩ :=
    capacity_manifest_canonical.2 _ _ _ _ _ _ _ _ _ _ _ _ _ zeroHash zeroHash zeroHash
      (by decide) (by decide) (by decide) hderive (by decide) (by decide) (by decide)
  exact ⟨contents, name, sha, m, hbytes, hload, hvalues,
    (capacity_manifest_canonical.1 contents name sha hsha).2 m hload hV2⟩

end AstraFeed
