import AstraFeed.CapacityManifest
import AstraFeed.Lib.Ascii
import AstraFeed.Proofs.BookCapacityProfile

/-!
# The manifests that load

A version 2 manifest that loads is the one text made of its loaded values (`loadLines_eq_ok`): each
line is its key and its value, and a number is the decimal of the word it is read to.
-/

namespace AstraFeed

namespace CapacityManifest

open BookCapacityEvidenceManifest BookCapacityProfile

/-! ## Lines -/

section Lines

variable {α : Type} {condition : Bool} {text : String} {a : α} {f : Unit → Except String α}
  {contents line value : List UInt8} {lines all : List (List UInt8)} {key : String}

theorem require_eq_ok {u : Unit} : require condition text = .ok u ↔ condition = true := by
  cases condition <;> simp [require]

theorem require_bind_eq_ok :
    require condition text >>= f = .ok a ↔ condition = true ∧ f () = .ok a := by
  rw [bind_eq_ok]
  exact ⟨fun ⟨_, hc, h⟩ => ⟨require_eq_ok.1 hc, h⟩, fun ⟨hc, h⟩ => ⟨(), require_eq_ok.2 hc, h⟩⟩

theorem readManifest_eq_ok {file : List UInt8} : readManifest file = .ok contents ↔
    (0 < file.length ∧ file.length ≤ kMaximumManifestBytes) ∧ file = contents := by
  rw [readManifest, require_bind_eq_ok, Except.ok.injEq, Bool.and_eq_true, decide_eq_true_eq,
    decide_eq_true_eq]

theorem splitLines_eq_ok (hlen : lines.length ≤ kManifestV2LineCount) :
    splitLines contents lines = .ok all ↔ ∃ rest, all = lines ++ rest
      ∧ contents = Terminated.join (byte '\n') rest ∧ (∀ line ∈ rest, byte '\n' ∉ line)
      ∧ all.length ≤ kManifestV2LineCount := by
  induction contents, lines using splitLines.induct with
  | case1 lines =>
    rw [splitLines, if_pos rfl, Except.ok.injEq]
    constructor
    · rintro rfl
      exact ⟨[], by simp, rfl, by simp, hlen⟩
    · rintro ⟨rest, rfl, hjoin, -⟩
      cases rest with
      | nil => simp
      | cons line rest =>
        rw [Terminated.join_cons] at hjoin
        simp at hjoin
  | case2 contents lines hne line hstop =>
    rw [splitLines, if_neg hne, if_pos hstop]
    refine iff_of_false (by simp) ?_
    rintro ⟨rest, rfl, hjoin, hrest, hall⟩
    cases rest with
    | nil => exact hne hjoin
    | cons first rest =>
      rw [List.length_append, List.length_cons] at hall
      rcases hstop with hstop | hstop
      · refine Terminated.length_takeWhile_eq_iff.1 hstop ?_
        simp [hjoin, Terminated.join_cons]
      · omega
  | case3 contents lines hne line hstop ih =>
    rw [not_or] at hstop
    rw [splitLines, if_neg hne, if_neg (not_or.2 hstop), ih (by simp; omega)]
    have hmem : byte '\n' ∈ contents := by
      by_contra h
      exact hstop.1 (Terminated.length_takeWhile_eq_iff.2 h)
    constructor
    · rintro ⟨rest, rfl, hjoin, hrest, hall⟩
      refine ⟨line :: rest, by simp, ?_, ?_, hall⟩
      · rw [Terminated.join_cons, ← hjoin]
        exact Terminated.eq_record_append hmem
      · rintro l (_ | ⟨_, hl⟩)
        · exact Terminated.notMem_takeWhile contents
        · exact hrest l hl
    · rintro ⟨rest, rfl, hjoin, hrest, hall⟩
      cases rest with
      | nil => exact absurd hjoin hne
      | cons first rest =>
        have hfirst : line = first := by
          show contents.takeWhile _ = first
          rw [hjoin]
          exact Terminated.takeWhile_join_cons (hrest first (by simp))
        refine ⟨rest, by simp [hfirst], ?_, fun l hl => hrest l (by simp [hl]), hall⟩
        rw [hfirst, hjoin, Terminated.drop_join_cons]

/-- The bytes a manifest is made of. -/
def Plain (contents : List UInt8) : Prop :=
  ∀ b ∈ contents, b ≠ byte '\r' ∧ b ≠ 0 ∧ b ≤ 0x7f

theorem canonicalLines_eq_ok : canonicalLines contents = .ok lines ↔
    contents = Terminated.join (byte '\n') lines ∧ (∀ line ∈ lines, byte '\n' ∉ line)
      ∧ Plain contents
      ∧ (lines.length = kManifestV1LineCount ∨ lines.length = kManifestV2LineCount) := by
  have hplain : (!contents.any fun character =>
      character == byte '\r' || character == 0 || 0x7f < character) = true ↔ Plain contents := by
    simp [Plain, and_assoc]
  unfold canonicalLines
  rw [require_bind_eq_ok, require_bind_eq_ok, hplain, bind_eq_ok]
  simp only [splitLines_eq_ok (show [].length ≤ kManifestV2LineCount by decide), List.nil_append,
    require_bind_eq_ok, Except.ok.injEq, Bool.or_eq_true, beq_iff_eq]
  constructor
  · rintro ⟨-, hp, _, ⟨rest, rfl, hjoin, hrest, -⟩, hcount, rfl⟩
    exact ⟨hjoin, hrest, hp, hcount⟩
  · rintro ⟨hjoin, hrest, hp, hcount⟩
    refine ⟨?_, hp, lines, ⟨lines, rfl, hjoin, hrest, ?_⟩, hcount, rfl⟩
    · have hne : lines ≠ [] := by
        rintro rfl
        rcases hcount with h | h <;> cases h
      rw [hjoin, ← List.dropLast_append_getLast hne, Terminated.join, List.flatMap_append]
      simp
    · unfold kManifestV1LineCount kManifestV2LineCount at *
      omega

/-- A line of the manifest. -/
def keyValue (key : String) (value : List UInt8) : List UInt8 := ascii key ++ byte '=' :: value

theorem field_eq_ok : field line key = .ok value ↔ line = keyValue key value := by
  rw [field, require_bind_eq_ok, Except.ok.injEq, Bool.and_eq_true, Bool.and_eq_true,
    List.isPrefixOf_iff_prefix, bne_iff_ne, beq_iff_eq]
  constructor
  · rintro ⟨⟨⟨⟨rest, rfl⟩, hlen⟩, heq⟩, hdrop⟩
    cases rest with
    | nil => simp at hlen
    | cons b rest =>
      have hb : b = byte '=' := by simpa using heq
      rw [← hdrop, hb, keyValue, ← List.drop_drop]
      simp
  · rintro rfl
    refine ⟨⟨⟨⟨_, rfl⟩, by simp [keyValue]⟩, by simp [keyValue]⟩, ?_⟩
    rw [keyValue, ← List.drop_drop]
    simp

end Lines

/-! ## Numbers -/

section Numbers

variable {value line : List UInt8} {key : String} {maximum n : UInt64}

theorem fromChars_eq_some : fromChars value = some (n, []) ↔
    value ≠ [] ∧ (∀ b ∈ value, Decimal.isDigit b = true) ∧ Decimal.value value = n.toNat := by
  unfold fromChars
  have hall : value.takeWhile Decimal.isDigit = value ↔ ∀ b ∈ value, Decimal.isDigit b = true :=
    List.takeWhile_eq_self_iff
  have hdrop : value.drop (value.takeWhile Decimal.isDigit).length = [] →
      value.takeWhile Decimal.isDigit = value := by
    intro h
    have := List.takeWhile_prefix Decimal.isDigit (l := value)
    exact this.eq_of_length (le_antisymm this.length_le (List.drop_eq_nil_iff.1 h))
  dsimp only
  constructor
  · intro h
    split_ifs at h with hbad
    rw [not_or, Nat.not_le] at hbad
    obtain ⟨hn, hrest⟩ := Prod.mk.inj (Option.some.inj h)
    rw [hdrop hrest] at hbad hn
    refine ⟨hbad.1, hall.1 (hdrop hrest), ?_⟩
    rw [← hn]
    exact (UInt64.toNat_ofNat_of_lt hbad.2).symm
  · rintro ⟨hne, hd, hv⟩
    rw [hall.2 hd, if_neg (not_or.2 ⟨hne, Nat.not_le.2 (hv ▸ n.toNat_lt)⟩), hv, List.drop_length]
    simp

theorem canonicalUnsigned_eq_ok : canonicalUnsigned value key maximum = .ok n ↔
    value = Decimal.digits n.toNat ∧ 0 < n.toNat ∧ n ≤ maximum := by
  have hok : canonicalUnsigned value key maximum = .ok n ↔
      (value ≠ [] ∧ ¬ (1 < value.length ∧ value.head? = some 48))
        ∧ fromChars value = some (n, []) ∧ n ≠ 0 ∧ n ≤ maximum := by
    unfold canonicalUnsigned
    rw [require_bind_eq_ok]
    have h48 : byte '0' = 48 := rfl
    refine and_congr (by simp [h48, imp_iff_not_or]) ?_
    rcases hf : fromChars value with _ | ⟨m, _ | ⟨b, bs⟩⟩
    · simp
    · simp only [require_bind_eq_ok, Except.ok.injEq, Bool.and_eq_true, bne_iff_ne, ne_eq,
        decide_eq_true_eq, Option.some.injEq, Prod.mk.injEq, and_true]
      constructor
      · rintro ⟨h, rfl⟩
        exact ⟨rfl, h⟩
      · rintro ⟨rfl, h⟩
        exact ⟨h, rfl⟩
    · simp
  have hzero : n ≠ 0 ↔ 0 < n.toNat := by
    rw [Nat.pos_iff_ne_zero, ne_eq, ne_eq, ← UInt64.toNat_inj]
    rfl
  rw [hok, fromChars_eq_some, hzero]
  constructor
  · rintro ⟨⟨hne, hlead⟩, ⟨-, hd, hv⟩, hpos, hmax⟩
    refine ⟨?_, hpos, hmax⟩
    rw [← hv, Decimal.digits_value hne hd]
    intro hhead
    have hone : value.length ≤ 1 := by
      by_contra h
      exact hlead ⟨by omega, hhead⟩
    match value, hhead, hone with
    | [b], hhead, _ =>
      rw [Option.some.inj hhead] at hv
      exact hpos.ne hv
  · rintro ⟨rfl, hpos, hmax⟩
    exact ⟨⟨Decimal.digits_ne_nil _, fun h => Decimal.head_digits hpos h.2⟩,
      ⟨Decimal.digits_ne_nil _, Decimal.isDigit_of_mem_digits _, Decimal.value_digits _⟩, hpos,
      hmax⟩

theorem fieldUnsigned_eq_ok : fieldUnsigned line key maximum = .ok n ↔
    line = keyValue key (Decimal.digits n.toNat) ∧ 0 < n.toNat ∧ n ≤ maximum := by
  unfold fieldUnsigned
  simp only [bind_eq_ok, field_eq_ok, canonicalUnsigned_eq_ok]
  constructor
  · rintro ⟨_, rfl, rfl, h⟩
    exact ⟨rfl, h⟩
  · rintro ⟨rfl, h⟩
    exact ⟨_, rfl, rfl, h⟩

end Numbers

/-! ## The loader -/

section Load

variable {profile : BookCapacityProfile} {m : BookCapacityEvidenceManifest}
  {name sha file : List UInt8} {lines : List (List UInt8)}

theorem land_pred_eq_zero_iff {n : UInt32} (h : n ≠ 0) :
    n &&& (n - 1) = 0 ↔ n.toNat.isPowerOfTwo := by
  have hne : n.toNat ≠ 0 := fun h0 => h (UInt32.toNat_inj.1 h0)
  have hone : (n - 1).toNat = n.toNat - 1 :=
    UInt32.toNat_sub_of_le n 1 (UInt32.le_iff_toNat_le.2 (Nat.pos_of_ne_zero hne))
  rw [← Nat.and_sub_one_eq_zero_iff_isPowerOfTwo hne, ← hone, ← UInt32.toNat_and]
  exact UInt32.toNat_inj.symm

theorem word_ne_zero_iff {n : UInt32} : n ≠ 0 ↔ 0 < n.toNat := by
  rw [Nat.pos_iff_ne_zero, ne_eq, ne_eq, ← UInt32.toNat_inj]
  rfl

theorem wide_ne_zero_iff {n : UInt64} : n ≠ 0 ↔ 0 < n.toNat := by
  rw [Nat.pos_iff_ne_zero, ne_eq, ne_eq, ← UInt64.toNat_inj]
  rfl

theorem validateConfig_eq_ok_iff {config : BookManagerConfig} {u : Unit} :
    BookStorage.validateConfig config = .ok u ↔ 0 < config.orders.directSlots.toNat
      ∧ config.orders.fallbackBucketCount.toNat.isPowerOfTwo
      ∧ 0 < config.prices.pageCapacity.toNat ∧ config.prices.pageCapacity.toNat ≠ 2 ^ 32 - 1 := by
  unfold BookStorage.validateConfig
  by_cases h1 : config.orders.directSlots = 0
  · rw [if_pos h1]
    exact iff_of_false (by simp) fun h => wide_ne_zero_iff.2 h.1 h1
  by_cases h2 : config.orders.fallbackBucketCount = 0
      ∨ config.orders.fallbackBucketCount &&& (config.orders.fallbackBucketCount - 1) ≠ 0
  · rw [if_neg h1, if_pos h2]
    refine iff_of_false (by simp) fun h => ?_
    rcases h2 with h2 | h2
    · exact word_ne_zero_iff.2 (Nat.pos_of_isPowerOfTwo h.2.1) h2
    · exact h2 ((land_pred_eq_zero_iff
        (word_ne_zero_iff.2 (Nat.pos_of_isPowerOfTwo h.2.1))).2 h.2.1)
  rw [not_or, not_not] at h2
  by_cases h3 : config.prices.pageCapacity = 0 ∨ config.prices.pageCapacity.toNat = 2 ^ 32 - 1
  · rw [if_neg h1, if_neg (by rw [not_or, not_not]; exact h2), if_pos h3]
    refine iff_of_false (by simp) fun h => ?_
    rcases h3 with h3 | h3
    · exact word_ne_zero_iff.2 h.2.2.1 h3
    · exact h.2.2.2 h3
  rw [if_neg h1, if_neg (by rw [not_or, not_not]; exact h2), if_neg h3]
  rw [not_or] at h3
  exact iff_of_true rfl ⟨wide_ne_zero_iff.1 h1, (land_pred_eq_zero_iff h2.1).1 h2.2,
    word_ne_zero_iff.1 h3.1, h3.2⟩

theorem validateFields_eq_ok_iff {u : Unit} : validateFields profile = .ok u ↔
    BookStorage.validateConfig profile.config = .ok u ∧ profile.name ≠ []
      ∧ isLowerHexSha256 profile.evidenceSha256 = true
      ∧ 0 < profile.evidence.profiledMaxOrderReference.toNat
      ∧ 0 < profile.evidence.profiledUniquePricePages.toNat
      ∧ 0 < profile.minimumHeadroom.directOrderReferenceSlots.toNat
      ∧ 0 < profile.minimumHeadroom.pricePages.toNat := by
  unfold validateFields
  simp only [bind_eq_ok, ← wide_ne_zero_iff, ← word_ne_zero_iff, List.isEmpty_iff,
    Bool.not_eq_eq_eq_not, Bool.not_true]
  constructor
  · rintro ⟨⟨⟩, hconfig, h⟩
    split_ifs at h with h1 h2 h3 h4 h5 h6
    exact ⟨hconfig, h1, by simpa using h2, h3, h4, h5, h6⟩
  · rintro ⟨hconfig, h1, h2, h3, h4, h5, h6⟩
    refine ⟨(), hconfig, ?_⟩
    rw [if_neg h1, if_neg (by simp [h2]), if_neg h3, if_neg h4, if_neg h5, if_neg h6]

theorem validate_iff : (∃ v, validateBookCapacityProfile profile = .ok v) ↔
    profile.sizes.Fit ∧ profile.name ≠ [] ∧ isLowerHexSha256 profile.evidenceSha256 = true := by
  have hslots := profile.config.orders.directSlots.toNat_lt
  have hbuckets := profile.config.orders.fallbackBucketCount.toNat_lt
  have hpages := profile.config.prices.pageCapacity.toNat_lt
  constructor
  · rintro ⟨v, hv⟩
    obtain ⟨hdirect, hprices⟩ := validate_ok hv
    obtain ⟨⟨⟩, hfields, -⟩ := bind_eq_ok.1 hv
    obtain ⟨hconfig, hname, hsha, h3, h4, h5, h6⟩ := validateFields_eq_ok_iff.1 hfields
    obtain ⟨-, hpow, hpage, hmax⟩ := validateConfig_eq_ok_iff.1 hconfig
    have hcap : profile.config.prices.pageCapacity.toNat < 2 ^ 32 - 1 := by omega
    have hfree : profile.evidence.profiledMaxOrderReference.toNat + 1
        + profile.minimumHeadroom.directOrderReferenceSlots.toNat
        ≤ profile.config.orders.directSlots.toNat := by omega
    exact ⟨⟨hslots, ⟨hpow, hbuckets⟩, hcap, h3, h4, h5, h6, hfree, hprices⟩, hname, hsha⟩
  · rintro ⟨h, hname, hsha⟩
    have hfields : validateFields profile = .ok () := by
      have hcap := h.pages
      have hdirect := h.directFits
      have hprices := h.pricesFit
      have hreserve := h.priceHeadroom
      simp only [BookCapacityProfile.sizes] at hcap hdirect hprices hreserve
      rw [validateFields_eq_ok_iff, validateConfig_eq_ok_iff]
      exact ⟨⟨by omega, h.buckets.1, by omega, by omega⟩, hname, hsha, h.maximumOrderRef,
        h.uniquePricePages, h.directHeadroom, h.priceHeadroom⟩
    have hmax : profile.evidence.profiledMaxOrderReference < profile.config.orders.directSlots := by
      have hdirect := h.directFits
      simp only [BookCapacityProfile.sizes] at hdirect
      rw [UInt64.lt_iff_toNat_lt]
      omega
    have hunique : profile.evidence.profiledUniquePricePages
        < profile.config.prices.pageCapacity := by
      have hprices := h.pricesFit
      have hreserve := h.priceHeadroom
      simp only [BookCapacityProfile.sizes] at hprices hreserve
      rw [UInt32.lt_iff_toNat_lt]
      omega
    unfold validateBookCapacityProfile
    rw [hfields]
    refine ⟨⟨profile.config.orders.directSlots - (profile.evidence.profiledMaxOrderReference + 1),
      profile.config.prices.pageCapacity - profile.evidence.profiledUniquePricePages⟩,
      bind_eq_ok.2 ⟨(), rfl, ?_⟩⟩
    rw [if_neg (UInt64.not_le.2 hmax)]
    dsimp only
    rw [if_neg, if_neg (UInt32.not_le.2 hunique), if_neg]
    · have hprices := h.pricesFit
      simp only [BookCapacityProfile.sizes] at hprices
      rw [UInt32.not_lt, UInt32.le_iff_toNat_le,
        UInt32.toNat_sub_of_le _ _ (UInt32.le_of_lt hunique)]
      omega
    · have hdirect := h.directFits
      simp only [BookCapacityProfile.sizes] at hdirect
      rw [UInt64.not_lt, UInt64.le_iff_toNat_le, (toNat_firstFree hmax).2]
      omega

/-- The lines of a version 2 manifest. -/
def manifestLines (m : BookCapacityEvidenceManifest) : List (List UInt8) :=
  let s := m.profile.sizes
  [keyValue "schema" kSchemaV2,
    keyValue "profile_name" m.profile.name,
    keyValue "corpus_manifest_sha256" m.corpusManifestSha256,
    keyValue "profiler_sha256" m.profilerSha256,
    keyValue "profile_output_sha256" m.profileOutputSha256,
    keyValue "order_direct_slots" (Decimal.digits s.directSlots),
    keyValue "order_fallback_buckets" (Decimal.digits s.fallbackBuckets),
    keyValue "price_page_capacity" (Decimal.digits s.pricePageCapacity),
    keyValue "profiled_max_order_ref" (Decimal.digits s.maximumOrderRef),
    keyValue "profiled_unique_price_pages" (Decimal.digits s.uniquePricePages),
    keyValue "minimum_direct_order_headroom" (Decimal.digits s.directHeadroom),
    keyValue "minimum_price_page_headroom" (Decimal.digits s.priceHeadroom)]

/-- The version 2 manifests the loader can answer with. -/
structure Loadable (m : BookCapacityEvidenceManifest) : Prop where
  schema : m.schema = kSchemaV2
  token : isProfileToken m.profile.name = true
  corpus : isLowerHexSha256 m.corpusManifestSha256 = true
  profiler : isLowerHexSha256 m.profilerSha256 = true
  profileOutput : isLowerHexSha256 m.profileOutputSha256 = true
  sizes : m.profile.sizes.Fit
  digest : isLowerHexSha256 m.profile.evidenceSha256 = true

theorem name_ne_nil (h : isProfileToken name = true) : name ≠ [] := by
  rintro rfl
  cases h

theorem toNat_toUInt32 {n : UInt64} (h : n ≤ 0xFFFFFFFF) : n.toUInt32.toNat = n.toNat := by
  rw [UInt64.toNat_toUInt32]
  exact Nat.mod_eq_of_lt (Nat.lt_succ_of_le (UInt64.le_iff_toNat_le.1 h))

theorem eq_getD_of_length (h : lines.length = kManifestV2LineCount) :
    lines = [lines.getD 0 [], lines.getD 1 [], lines.getD 2 [], lines.getD 3 [], lines.getD 4 [],
      lines.getD 5 [], lines.getD 6 [], lines.getD 7 [], lines.getD 8 [], lines.getD 9 [],
      lines.getD 10 [], lines.getD 11 []] := by
  match lines, h with
  | [_, _, _, _, _, _, _, _, _, _, _, _], _ => rfl

theorem loadLines_sound (h : loadLines lines name sha = .ok m) (hV2 : m.schema = kSchemaV2) :
    Loadable m ∧ lines = manifestLines m ∧ m.profile.name = name
      ∧ m.profile.evidenceSha256 = sha := by
  unfold loadLines at h
  simp only [bind_eq_ok, field_eq_ok, require_eq_ok, Except.ok.injEq] at h
  obtain ⟨schema, hschema, -, hcount, profileName, hname, -, htoken, corpus, hcorpus, profiler,
    hprofiler, output, houtput, -, hhex, slots, hslots, buckets, hbuckets, pages, hpages, maximum,
    hmaximum, unique, hunique, direct, hdirect, price, hprice, v, hv, rfl⟩ := h
  obtain rfl : schema = kSchemaV2 := hV2
  have hne : (kSchemaV2 == kSchemaV1) = false := by decide
  simp only [hne, beq_self_eq_true, if_true, Bool.not_true, Bool.not_false, Bool.and_false,
    Bool.false_and, Bool.false_or, Bool.true_and, Bool.and_eq_true, bne_eq_false_iff_eq,
    Bool.not_eq_eq_eq_not, beq_iff_eq, field_eq_ok, fieldUnsigned_eq_ok]
    at hcount htoken houtput hhex hslots hbuckets hpages hmaximum hunique hdirect hprice
  obtain ⟨hfit, -, hdigest⟩ := validate_iff.1 ⟨v, hv⟩
  refine ⟨⟨rfl, htoken.1, hhex.1.1, hhex.1.2, hhex.2, hfit, hdigest⟩, ?_, htoken.2, rfl⟩
  have hmax : (0xFFFFFFFF - 1 : UInt64) ≤ 0xFFFFFFFF := by decide
  have hcapacity := toNat_toUInt32 (UInt64.le_trans hpages.2.2 hmax)
  have hused := toNat_toUInt32 (UInt64.le_trans hunique.2.2 hmax)
  rw [eq_getD_of_length hcount, hschema, hname, hcorpus, hprofiler, houtput, hslots.1, hbuckets.1,
    hpages.1, hmaximum.1, hunique.1, hdirect.1, hprice.1]
  simp only [manifestLines, BookCapacityProfile.sizes, toNat_toUInt32 hbuckets.2.2, hcapacity,
    hused, toNat_toUInt32 hprice.2.2]

theorem fieldUnsigned_digits {key : String} {n maximum : UInt64} {k : ℕ} (hk : n.toNat = k)
    (hpos : 0 < k) (hmax : k ≤ maximum.toNat) :
    fieldUnsigned (keyValue key (Decimal.digits k)) key maximum = .ok n := by
  rw [fieldUnsigned_eq_ok, hk, UInt64.le_iff_toNat_le, hk]
  exact ⟨rfl, hpos, hmax⟩

theorem loadLines_complete (h : Loadable m) :
    loadLines (manifestLines m) m.profile.name m.profile.evidenceSha256 = .ok m := by
  have hne : (kSchemaV2 == kSchemaV1) = false := by decide
  obtain ⟨v, hv⟩ := validate_iff.2 ⟨h.sizes, name_ne_nil h.token, h.digest⟩
  have hslots := h.sizes.directSlots
  have hbuckets := And.intro (Nat.pos_of_isPowerOfTwo h.sizes.buckets.1) h.sizes.buckets.2
  have hdirect := h.sizes.directFits
  have hprices := h.sizes.pricesFit
  have hpages := h.sizes.pages
  have hmaximum := h.sizes.maximumOrderRef
  have hunique := h.sizes.uniquePricePages
  have hwide : (0xFFFFFFFFFFFFFFFF : UInt64).toNat = 2 ^ 64 - 1 := rfl
  have hword : (0xFFFFFFFF : UInt64).toNat = 2 ^ 32 - 1 := rfl
  have hmost : (0xFFFFFFFF - 1 : UInt64).toNat = 2 ^ 32 - 2 := rfl
  unfold loadLines
  simp only [bind_eq_ok, field_eq_ok, require_eq_ok, Except.ok.injEq]
  refine ⟨kSchemaV2, rfl, (), ?_, m.profile.name, rfl, (), ?_, _, rfl, _, rfl,
    m.profileOutputSha256, field_eq_ok.2 rfl, (), ?_, _,
    fieldUnsigned_digits rfl (by omega) (by omega), _,
    fieldUnsigned_digits (UInt32.toNat_toUInt64 _) hbuckets.1 (by omega), _,
    fieldUnsigned_digits (UInt32.toNat_toUInt64 _) (by omega) (by omega), _,
    fieldUnsigned_digits rfl hmaximum (by omega), _,
    fieldUnsigned_digits (UInt32.toNat_toUInt64 _) hunique (by omega), _,
    fieldUnsigned_digits rfl h.sizes.directHeadroom (by omega), _,
    fieldUnsigned_digits (UInt32.toNat_toUInt64 _) h.sizes.priceHeadroom (by omega), v, ?_, ?_⟩
  · rw [hne, beq_self_eq_true]
    rfl
  · rw [h.token, beq_self_eq_true]
    rfl
  · rw [h.corpus, h.profiler, h.profileOutput, beq_self_eq_true]
    rfl
  · simpa only [UInt32.toUInt32_toUInt64] using hv
  · simp only [UInt32.toUInt32_toUInt64, ← h.schema]

/-! ## The text of a manifest -/

/-- A value the canonical text can hold. -/
structure Fine (value : List UInt8) : Prop where
  plain : ∀ b ∈ value, 0x20 < b ∧ b ≤ 0x7f
  short : value.length ≤ 128

theorem fine_of_all {value : List UInt8}
    (h : (value.all fun b => 0x20 < b && b ≤ 0x7f) = true ∧ value.length ≤ 128) : Fine value :=
  ⟨fun b hb => by simpa using List.all_eq_true.1 h.1 b hb, h.2⟩

/-- The class of the loader's hash check. -/
def isLowerHexCharacter (character : UInt8) : Bool :=
  byte '0' ≤ character && character ≤ byte '9' || byte 'a' ≤ character && character ≤ byte 'f'

theorem isProfileToken_iff : isProfileToken name = true ↔
    (1 ≤ name.length ∧ name.length ≤ 128) ∧ ∀ b ∈ name, isTokenCharacter b = true := by
  cases name <;> simp [isProfileToken]

theorem isLowerHexSha256_iff : isLowerHexSha256 sha = true ↔
    sha.length = 64 ∧ ∀ b ∈ sha, isLowerHexCharacter b = true := by
  rw [isLowerHexSha256, Bool.and_eq_true, beq_iff_eq, List.all_eq_true]
  rfl

theorem plain_between {lo hi b : UInt8} (hlo : 0x20 < lo) (hhi : hi ≤ 0x7f)
    (h : lo ≤ b ∧ b ≤ hi) : 0x20 < b ∧ b ≤ 0x7f := by
  rw [UInt8.lt_iff_toNat_lt] at hlo ⊢
  exact ⟨hlo.trans_le (UInt8.le_iff_toNat_le.1 h.1), UInt8.le_trans h.2 hhi⟩

theorem plain_of_token (b : UInt8) (h : isTokenCharacter b = true) : 0x20 < b ∧ b ≤ 0x7f := by
  simp only [isTokenCharacter, Bool.or_eq_true, Bool.and_eq_true, decide_eq_true_eq,
    beq_iff_eq] at h
  rcases h with (((((((h | h) | h) | rfl) | rfl) | rfl) | rfl) | rfl) | rfl
  · exact plain_between (by decide) (by decide) h
  · exact plain_between (by decide) (by decide) h
  · exact plain_between (by decide) (by decide) h
  all_goals decide

theorem plain_of_lowerHex (b : UInt8) (h : isLowerHexCharacter b = true) :
    0x20 < b ∧ b ≤ 0x7f := by
  simp only [isLowerHexCharacter, Bool.or_eq_true, Bool.and_eq_true, decide_eq_true_eq] at h
  rcases h with h | h
  · exact plain_between (by decide) (by decide) h
  · exact plain_between (by decide) (by decide) h

theorem plain_of_digit (b : UInt8) (h : Decimal.isDigit b = true) : 0x20 < b ∧ b ≤ 0x7f := by
  simp only [Decimal.isDigit, Bool.and_eq_true, decide_eq_true_eq] at h
  exact plain_between (by decide) (by decide) h

theorem fine_token (h : isProfileToken name = true) : Fine name := by
  obtain ⟨hlen, h⟩ := isProfileToken_iff.1 h
  exact ⟨fun b hb => plain_of_token b (h b hb), hlen.2⟩

theorem fine_hash (h : isLowerHexSha256 sha = true) : Fine sha := by
  obtain ⟨hlen, h⟩ := isLowerHexSha256_iff.1 h
  exact ⟨fun b hb => plain_of_lowerHex b (h b hb), by omega⟩

theorem fine_digits {n : ℕ} (h : n < 2 ^ 64) : Fine (Decimal.digits n) := by
  refine ⟨fun b hb => plain_of_digit b (Decimal.isDigit_of_mem_digits n b hb), ?_⟩
  have : (Decimal.digits n).length ≤ 20 := Decimal.length_digits_le (by decide) (by omega)
  omega

/-- A line without a line feed that is not too long. -/
structure FineLine (line : List UInt8) : Prop where
  plain : ∀ b ∈ line, 0x20 < b ∧ b ≤ 0x7f
  short : line.length ≤ 192

theorem fineLine_keyValue {key : String} {value : List UInt8}
    (hkey : ((ascii key).all fun b => 0x20 < b && b ≤ 0x7f) = true ∧ (ascii key).length ≤ 40)
    (h : Fine value) : FineLine (keyValue key value) := by
  refine ⟨fun b hb => ?_, ?_⟩
  · rw [keyValue, List.mem_append, List.mem_cons] at hb
    rcases hb with hb | rfl | hb
    · simpa using List.all_eq_true.1 hkey.1 b hb
    · decide
    · exact h.plain b hb
  · have := h.short
    rw [keyValue, List.length_append, List.length_cons]
    omega

theorem fineLine_manifestLines (h : Loadable m) : ∀ line ∈ manifestLines m, FineLine line := by
  have hdirect := h.sizes.directFits
  have hslots := h.sizes.directSlots
  have hprices := h.sizes.pricesFit
  have hpages := h.sizes.pages
  have hbuckets := h.sizes.buckets.2
  simp only [manifestLines, List.forall_mem_cons, List.not_mem_nil, false_imp_iff, implies_true,
    and_true]
  exact ⟨fineLine_keyValue (by decide) (fine_of_all (by decide)),
    fineLine_keyValue (by decide) (fine_token h.token),
    fineLine_keyValue (by decide) (fine_hash h.corpus),
    fineLine_keyValue (by decide) (fine_hash h.profiler),
    fineLine_keyValue (by decide) (fine_hash h.profileOutput),
    fineLine_keyValue (by decide) (fine_digits hslots),
    fineLine_keyValue (by decide) (fine_digits (by omega)),
    fineLine_keyValue (by decide) (fine_digits (by omega)),
    fineLine_keyValue (by decide) (fine_digits (by omega)),
    fineLine_keyValue (by decide) (fine_digits (by omega)),
    fineLine_keyValue (by decide) (fine_digits (by omega)),
    fineLine_keyValue (by decide) (fine_digits (by omega))⟩

/-- The canonical text of a manifest. -/
def manifestText (m : BookCapacityEvidenceManifest) : List UInt8 :=
  Terminated.join (byte '\n') (manifestLines m)

theorem canonicalLines_manifestText (h : Loadable m) :
    canonicalLines (manifestText m) = .ok (manifestLines m) := by
  have hfine := fineLine_manifestLines h
  refine canonicalLines_eq_ok.2 ⟨rfl, fun line hline hmem => ?_, fun b hb => ?_, .inr rfl⟩
  · exact absurd ((hfine line hline).plain _ hmem).1 (by decide)
  · rcases Terminated.mem_join hb with rfl | ⟨line, hline, hmem⟩
    · decide
    · obtain ⟨hlow, hhigh⟩ := (hfine line hline).plain b hmem
      refine ⟨?_, ?_, hhigh⟩
      · rintro rfl
        exact absurd hlow (by decide)
      · rintro rfl
        exact absurd hlow (by decide)

theorem readManifest_manifestText (h : Loadable m) :
    readManifest (manifestText m) = .ok (manifestText m) := by
  have hle := Terminated.length_join_le (byte '\n')
    fun line hline => (fineLine_manifestLines h line hline).short
  have hlen : (manifestLines m).length = 12 := rfl
  rw [hlen] at hle
  refine readManifest_eq_ok.2 ⟨⟨?_, hle.trans (by decide)⟩, rfl⟩
  rw [manifestText, manifestLines, Terminated.join_cons]
  simp

/-- The loader accepts as version 2 the canonical texts only, and each of them. -/
theorem load_eq_ok (hsha : Sha256.sha256Hex file = some sha) :
    loadBookCapacityEvidenceManifest file name sha = .ok m ∧ m.schema = kSchemaV2 ↔
      Loadable m ∧ file = manifestText m ∧ m.profile.name = name
        ∧ m.profile.evidenceSha256 = sha := by
  unfold loadBookCapacityEvidenceManifest
  rw [require_bind_eq_ok, require_bind_eq_ok, bind_eq_ok]
  constructor
  · rintro ⟨⟨-, -, contents, hread, h⟩, hV2⟩
    obtain ⟨-, rfl⟩ := readManifest_eq_ok.1 hread
    simp only [hsha] at h
    obtain ⟨lines, hlines, h⟩ := bind_eq_ok.1 (require_bind_eq_ok.1 h).2
    obtain ⟨hloadable, rfl, hname, hdigest⟩ := loadLines_sound h hV2
    exact ⟨hloadable, (canonicalLines_eq_ok.1 hlines).1, hname, hdigest⟩
  · rintro ⟨h, rfl, rfl, rfl⟩
    refine ⟨⟨h.token, h.digest, manifestText m, readManifest_manifestText h, ?_⟩, h.schema⟩
    simp only [hsha]
    rw [require_bind_eq_ok, bind_eq_ok]
    exact ⟨beq_self_eq_true _, _, canonicalLines_manifestText h, loadLines_complete h⟩

end Load

end CapacityManifest

end AstraFeed
