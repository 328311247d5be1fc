import Mathlib.Data.List.Induction
import Mathlib.Data.Rat.Floor
import Mathlib.Tactic.Linarith
import Mathlib.Tactic.NormNum
import Mathlib.Tactic.Ring
import AstraFeed.LatencyRecorder
import AstraFeed.Lib.OrderStatistic

/-!
# What the quantiles are

The value at a rank is the bound of the bucket of the duration of that rank. It is not cut to the
largest duration, so it is bracketed exactly when the largest duration is the last of its bucket
(`latency_quantiles_iff`).
-/

namespace AstraFeed

namespace LatencyRecorder

open OrderStatistic Precision

/-! ## Buckets -/

/-- `bucketIndex` of a number of nanoseconds. -/
def bucketOf (ns : ℕ) : ℕ :=
  if ns < kExactBucketCount then ns
  else if ns - kExactBucketCount < kFineRangeNs then
    kExactBucketCount + (ns - kExactBucketCount) / kFineBucketWidthNs
  else if ns - kExactBucketCount - kFineRangeNs < kCoarseRangeNs then
    kExactBucketCount + kFineBucketCount
      + (ns - kExactBucketCount - kFineRangeNs) / kCoarseBucketWidthNs
  else kOverflowBucket

/-- The last duration of a bucket before the overflow bucket. -/
def lastOf (ns : ℕ) : ℕ :=
  if ns < kExactBucketCount then ns
  else if ns - kExactBucketCount < kFineRangeNs then
    kExactBucketCount
      + ((ns - kExactBucketCount) / kFineBucketWidthNs + 1) * kFineBucketWidthNs - 1
  else
    kExactBucketCount + kFineRangeNs
      + ((ns - kExactBucketCount - kFineRangeNs) / kCoarseBucketWidthNs + 1)
        * kCoarseBucketWidthNs - 1

/-- The first duration of the overflow bucket. -/
def kOverflowNs : ℕ := kExactBucketCount + kFineRangeNs + kCoarseRangeNs

def bucketWidth (ns : ℕ) : ℕ :=
  if ns < kExactBucketCount then 1
  else if ns - kExactBucketCount < kFineRangeNs then kFineBucketWidthNs
  else kCoarseBucketWidthNs

/-- The durations no shorter one shares a bucket bound with: the last of its bucket, or one in the
overflow bucket. -/
def EndsBucket (ns : ℕ) : Prop :=
  ns < kExactBucketCount
    ∨ (ns - kExactBucketCount < kFineRangeNs
      ∧ (ns - kExactBucketCount) % kFineBucketWidthNs = kFineBucketWidthNs - 1)
    ∨ (kFineRangeNs ≤ ns - kExactBucketCount
      ∧ (ns - kExactBucketCount - kFineRangeNs) % kCoarseBucketWidthNs = kCoarseBucketWidthNs - 1)
    ∨ kOverflowNs ≤ ns

instance (ns : ℕ) : Decidable (EndsBucket ns) := inferInstanceAs (Decidable (_ ∨ _))

theorem bucketIndex_eq (ns : UInt64) : bucketIndex ns = bucketOf ns.toNat := rfl

section Buckets

variable {ns ms : ℕ}

theorem bucketOf_mono : Monotone bucketOf := by
  intro a b h
  unfold bucketOf kOverflowBucket kExactBucketCount kFineRangeNs kCoarseRangeNs kFineBucketCount
    kCoarseBucketCount kFineBucketWidthNs kCoarseBucketWidthNs
  split_ifs <;> omega

theorem bucketOf_lt : bucketOf ns < kBucketCount := by
  unfold bucketOf kBucketCount kOverflowBucket kExactBucketCount kFineRangeNs kCoarseRangeNs
    kFineBucketCount kCoarseBucketCount kFineBucketWidthNs kCoarseBucketWidthNs
  split_ifs <;> omega

theorem bucketOf_eq_overflow_iff : bucketOf ns = kOverflowBucket ↔ kOverflowNs ≤ ns := by
  unfold bucketOf kOverflowNs kOverflowBucket kExactBucketCount kFineRangeNs kCoarseRangeNs
    kFineBucketCount kCoarseBucketCount kFineBucketWidthNs kCoarseBucketWidthNs
  split_ifs <;> omega

theorem lastOf_lt (h : ns < kOverflowNs) : lastOf ns < kOverflowNs := by
  unfold kOverflowNs lastOf kExactBucketCount kFineRangeNs kCoarseRangeNs kFineBucketCount
    kCoarseBucketCount kFineBucketWidthNs kCoarseBucketWidthNs at *
  split_ifs <;> omega

theorem bucketUpperBoundNs_bucketOf (h : ns < kOverflowNs) :
    (bucketUpperBoundNs (bucketOf ns)).toNat = lastOf ns := by
  have hfit : ∀ n < kOverflowNs, n.toUInt64.toNat = n := by
    intro n hn
    unfold kOverflowNs kExactBucketCount kFineRangeNs kCoarseRangeNs kFineBucketCount
      kCoarseBucketCount kFineBucketWidthNs kCoarseBucketWidthNs at hn
    exact UInt64.toNat_ofNat_of_lt (show n < 2 ^ 64 by omega)
  unfold bucketUpperBoundNs bucketOf lastOf
  by_cases h1 : ns < kExactBucketCount
  · rw [if_pos h1, if_pos h1, if_pos h1, hfit ns h]
  rw [if_neg h1, if_neg h1]
  by_cases h2 : ns - kExactBucketCount < kFineRangeNs
  · have hlast := lastOf_lt h
    have hdiv : (ns - kExactBucketCount) / kFineBucketWidthNs < kFineBucketCount := by
      unfold kFineRangeNs at h2
      exact Nat.div_lt_of_lt_mul (h2.trans_eq (Nat.mul_comm _ _))
    unfold lastOf at hlast
    rw [if_neg h1, if_pos h2] at hlast
    rw [if_pos h2, if_pos h2, if_neg (Nat.not_lt.2 (Nat.le_add_right _ _)),
      Nat.add_sub_cancel_left, if_pos hdiv,
      hfit _ hlast]
  · have hlast := lastOf_lt h
    have h3 : ns - kExactBucketCount - kFineRangeNs < kCoarseRangeNs := by
      unfold kOverflowNs at h
      omega
    have hdiv : (ns - kExactBucketCount - kFineRangeNs) / kCoarseBucketWidthNs
        < kCoarseBucketCount := by
      unfold kCoarseRangeNs at h3
      exact Nat.div_lt_of_lt_mul (h3.trans_eq (Nat.mul_comm _ _))
    unfold lastOf at hlast
    rw [if_neg h1, if_neg h2] at hlast
    rw [if_neg h2, if_pos h3, if_neg h2, Nat.add_assoc kExactBucketCount,
      if_neg (Nat.not_lt.2 (Nat.le_add_right _ _)), Nat.add_sub_cancel_left,
      if_neg (Nat.not_lt.2 (Nat.le_add_right _ _)), Nat.add_sub_cancel_left, if_pos hdiv,
      hfit _ hlast]

theorem le_lastOf : ns ≤ lastOf ns := by
  unfold lastOf kExactBucketCount kFineRangeNs kFineBucketCount kFineBucketWidthNs
    kCoarseBucketWidthNs
  split_ifs <;> omega

theorem lastOf_lt_add : lastOf ns < ns + bucketWidth ns := by
  unfold lastOf bucketWidth kExactBucketCount kFineRangeNs kFineBucketCount kFineBucketWidthNs
    kCoarseBucketWidthNs
  split_ifs <;> omega

theorem lastOf_mono (h : ns ≤ ms) : lastOf ns ≤ lastOf ms := by
  unfold lastOf kExactBucketCount kFineRangeNs kFineBucketCount kFineBucketWidthNs
    kCoarseBucketWidthNs
  split_ifs <;> omega

theorem endsBucket_iff (h : ns < kOverflowNs) : EndsBucket ns ↔ lastOf ns = ns := by
  unfold EndsBucket kOverflowNs lastOf kExactBucketCount kFineRangeNs kCoarseRangeNs
    kFineBucketCount kCoarseBucketCount kFineBucketWidthNs kCoarseBucketWidthNs at *
  split_ifs <;> omega

end Buckets

/-! ## What the recorder holds -/

/-- The recorder has counted these durations. -/
structure Holds (r : LatencyRecorder) (xs : List ℕ) : Prop where
  buckets : ∀ b, (r.buckets b).toNat = bucketCount bucketOf xs b
  count : r.count.toNat = xs.length
  min_le : ∀ x ∈ xs, r.minNs.toNat ≤ x
  le_max : ∀ x ∈ xs, x ≤ r.maxNs.toNat
  max_mem : xs ≠ [] → r.maxNs.toNat ∈ xs
  max_nil : xs = [] → r.maxNs = 0

theorem holds_fresh : Holds fresh [] where
  buckets _ := rfl
  count := rfl
  min_le := by simp
  le_max := by simp
  max_mem h := absurd rfl h
  max_nil _ := rfl

theorem toNat_add_of_lt {a b : UInt64} (h : a.toNat + b.toNat < 2 ^ 64) :
    (a + b).toNat = a.toNat + b.toNat := by
  rw [UInt64.toNat_add]
  exact Nat.mod_eq_of_lt h

theorem toNat_min (a b : UInt64) : (min a b).toNat = min a.toNat b.toNat := by
  show (if a ≤ b then a else b).toNat = _
  split_ifs with h
  · exact (min_eq_left (UInt64.le_iff_toNat_le.1 h)).symm
  · exact (min_eq_right (UInt64.le_iff_toNat_le.1 (UInt64.le_of_lt (UInt64.not_le.1 h)))).symm

theorem toNat_max (a b : UInt64) : (max a b).toNat = max a.toNat b.toNat := by
  show (if a ≤ b then b else a).toNat = _
  split_ifs with h
  · exact (max_eq_right (UInt64.le_iff_toNat_le.1 h)).symm
  · exact (max_eq_left (UInt64.le_iff_toNat_le.1 (UInt64.le_of_lt (UInt64.not_le.1 h)))).symm

theorem Holds.recordDuration {r : LatencyRecorder} {xs : List ℕ} (h : Holds r xs)
    (durationNs sampleCount : UInt64)
    (hsmall : (xs ++ List.replicate sampleCount.toNat durationNs.toNat).length < 2 ^ 64) :
    Holds (r.recordDuration durationNs sampleCount)
      (xs ++ List.replicate sampleCount.toNat durationNs.toNat) := by
  unfold LatencyRecorder.recordDuration
  split_ifs with h0
  · rw [h0]
    simpa using h
  have hpos : 0 < sampleCount.toNat := by
    refine Nat.pos_of_ne_zero fun hz => h0 (UInt64.toNat_inj.1 hz)
  rw [List.length_append, List.length_replicate] at hsmall
  have hmem : ∀ x, x ∈ xs ++ List.replicate sampleCount.toNat durationNs.toNat ↔
      x ∈ xs ∨ x = durationNs.toNat := by
    intro x
    simp [hpos.ne']
  refine ⟨fun b => ?_, ?_, fun x hx => ?_, fun x hx => ?_, fun _ => (hmem _).2 ?_, fun hnil => ?_⟩
  · have hall : bucketCount bucketOf xs b ≤ xs.length := List.countP_le_length
    dsimp only
    rw [bucketIndex_eq, bucketCount, List.countP_append, List.countP_replicate]
    rcases eq_or_ne (bucketOf durationNs.toNat) b with rfl | hb
    · rw [Function.update_self, if_pos (decide_eq_true rfl), toNat_add_of_lt, h.buckets]
      · rfl
      · rw [h.buckets]
        omega
    · rw [Function.update_of_ne hb.symm, if_neg (by simpa using hb), Nat.add_zero]
      exact h.buckets b
  · dsimp only
    rw [toNat_add_of_lt (h.count ▸ hsmall), h.count, List.length_append, List.length_replicate]
  · rw [toNat_min]
    rcases (hmem x).1 hx with hx | rfl
    · exact (min_le_left _ _).trans (h.min_le x hx)
    · exact min_le_right _ _
  · rw [toNat_max]
    rcases (hmem x).1 hx with hx | rfl
    · exact (h.le_max x hx).trans (le_max_left _ _)
    · exact le_max_right _ _
  · rw [toNat_max]
    rcases le_total durationNs.toNat r.maxNs.toNat with hle | hle
    · rw [max_eq_left hle]
      rcases eq_or_ne xs [] with rfl | hne
      · rw [h.max_nil rfl] at hle ⊢
        exact .inr (Nat.le_zero.1 hle).symm
      · exact .inl (h.max_mem hne)
    · rw [max_eq_right hle]
      exact .inr rfl
  · exact absurd ((hmem durationNs.toNat).2 (.inr rfl)) (by simp [hnil])

theorem Holds.perform {r : LatencyRecorder} {ops : List Op} (op : Op)
    (h : (recorded ops).length < 2 ^ 64 → Holds r (recorded ops))
    (hsmall : (recorded (ops ++ [op])).length < 2 ^ 64) :
    Holds (r.perform op) (recorded (ops ++ [op])) := by
  unfold recorded at *
  rw [List.foldl_append] at hsmall ⊢
  cases op with
  | recordDuration durationNs sampleCount =>
    refine (h ?_).recordDuration durationNs sampleCount hsmall
    exact lt_of_le_of_lt (by simp) hsmall
  | reset => exact holds_fresh

theorem holds_run (ops : List Op) (hsmall : (recorded ops).length < 2 ^ 64) :
    Holds (run ops) (recorded ops) := by
  induction ops using List.reverseRecOn with
  | nil => exact holds_fresh
  | append_singleton ops op ih =>
    rw [run, List.foldl_append]
    exact Holds.perform op ih hsmall

/-! ## The search -/

section Search

variable {r : LatencyRecorder} {xs : List ℕ} {rank : UInt64} {d : ℕ}

/-- The search ends at the bucket in which the rank is reached. -/
theorem Holds.valueAtRankFrom (h : Holds r xs) {b : ℕ}
    (hlo : bucketsBefore bucketOf xs b < rank.toNat)
    (hhi : rank.toNat ≤ bucketsBefore bucketOf xs (b + 1)) (n i : ℕ) (hi : i ≤ b) (hn : b < i + n)
    {cumulative : UInt64} (hc : cumulative.toNat = bucketsBefore bucketOf xs i) :
    r.valueAtRankFrom rank cumulative (List.range' i n)
      = if b = kOverflowBucket then r.maxNs else bucketUpperBoundNs b := by
  induction n generalizing i cumulative with
  | zero => omega
  | succ n ih =>
    have hnext : (cumulative + r.buckets i).toNat = bucketsBefore bucketOf xs (i + 1) := by
      have hle : bucketsBefore bucketOf xs (i + 1) ≤ xs.length := bucketsBefore_le_length xs (i + 1)
      have hcount := h.count
      have hmax := r.count.toNat_lt
      rw [bucketsBefore_succ] at hle ⊢
      rw [toNat_add_of_lt, hc, h.buckets]
      rw [hc, h.buckets]
      omega
    rw [List.range'_succ, LatencyRecorder.valueAtRankFrom]
    rcases Nat.lt_or_ge i b with hlt | hge
    · have hmono : bucketsBefore bucketOf xs (i + 1) ≤ bucketsBefore bucketOf xs b :=
        bucketsBefore_mono xs hlt
      rw [if_neg, ih (i + 1) hlt (by omega) hnext]
      rw [UInt64.le_iff_toNat_le, hnext]
      omega
    · obtain rfl : i = b := le_antisymm hi hge
      rw [if_pos]
      rw [UInt64.le_iff_toNat_le, hnext]
      exact hhi

theorem Holds.valueAtRank (h : Holds r xs) (hpos : 0 < rank.toNat)
    (hd : nth xs rank.toNat = some d) :
    (r.valueAtRank rank).toNat = if kOverflowNs ≤ d then r.maxNs.toNat else lastOf d := by
  obtain ⟨hlo, hhi⟩ := nth_bucket bucketOf_mono hpos hd
  have hzero : (0 : UInt64).toNat = bucketsBefore bucketOf xs 0 := by
    simp [bucketsBefore]
  rw [LatencyRecorder.valueAtRank, List.range_eq_range',
    h.valueAtRankFrom hlo hhi kBucketCount 0 (Nat.zero_le _) (by simpa using bucketOf_lt) hzero]
  by_cases hover : kOverflowNs ≤ d
  · rw [if_pos hover, if_pos (bucketOf_eq_overflow_iff.2 hover)]
  · rw [if_neg hover, if_neg (mt bucketOf_eq_overflow_iff.1 hover),
      bucketUpperBoundNs_bucketOf (Nat.lt_of_not_le hover)]

/-- A rank has a duration, and its value. -/
theorem Holds.exists_value (h : Holds r xs) (hpos : 0 < rank.toNat) (hle : rank ≤ r.count) :
    ∃ d ∈ xs, nth xs rank.toNat = some d
      ∧ (r.valueAtRank rank).toNat = if kOverflowNs ≤ d then r.maxNs.toNat else lastOf d := by
  obtain ⟨d, hd⟩ := exists_nth hpos (h.count ▸ UInt64.le_iff_toNat_le.1 hle)
  exact ⟨d, mem_of_nth hd, hd, h.valueAtRank hpos hd⟩

theorem Holds.valueAtRank_mono (h : Holds r xs) {rank' : UInt64} (hpos : 0 < rank.toNat)
    (hrank : rank ≤ rank') (hle : rank' ≤ r.count) :
    r.valueAtRank rank ≤ r.valueAtRank rank' := by
  have hrank' := UInt64.le_iff_toNat_le.1 hrank
  obtain ⟨d, hmem, hd, hv⟩ := h.exists_value hpos (UInt64.le_trans hrank hle)
  obtain ⟨d', hmem', hd', hv'⟩ := h.exists_value (hpos.trans_le hrank') hle
  have hdd := nth_mono hpos hrank' hd hd'
  have hmax' := h.le_max d' hmem'
  rw [UInt64.le_iff_toNat_le, hv, hv']
  split_ifs with ho ho' ho'
  · exact le_rfl
  · omega
  · exact (lastOf_lt (Nat.lt_of_not_le ho)).le.trans (ho'.trans hmax')
  · exact lastOf_mono hdd

theorem Holds.min_le_value (h : Holds r xs) (hpos : 0 < rank.toNat) (hle : rank ≤ r.count) :
    r.minNs ≤ r.valueAtRank rank := by
  obtain ⟨d, hmem, -, hv⟩ := h.exists_value hpos hle
  rw [UInt64.le_iff_toNat_le, hv]
  refine (h.min_le d hmem).trans ?_
  split_ifs
  · exact h.le_max d hmem
  · exact le_lastOf

/-- The largest duration has the last rank; every value is at most its bound. -/
theorem Holds.value_le_max_iff (h : Holds r xs) :
    (∀ rank : UInt64, 0 < rank.toNat → rank ≤ r.count → r.valueAtRank rank ≤ r.maxNs)
      ↔ ∀ d ∈ xs, (∀ e ∈ xs, e ≤ d) → EndsBucket d := by
  have hlast : ∀ d ∈ xs, (∀ e ∈ xs, e ≤ d) → 0 < r.count.toNat
      ∧ d = r.maxNs.toNat
      ∧ (r.valueAtRank r.count).toNat = if kOverflowNs ≤ d then r.maxNs.toNat else lastOf d := by
    intro d hd hall
    have hmem := h.max_mem (List.ne_nil_of_mem hd)
    have hcount : 0 < r.count.toNat := h.count ▸ List.length_pos_of_mem hd
    have hmax : d = r.maxNs.toNat := le_antisymm (h.le_max d hd) (hall _ hmem)
    obtain ⟨x, hx, hnth, hv⟩ := h.exists_value hcount (UInt64.le_refl _)
    rw [h.count] at hnth
    obtain rfl : x = d := le_antisymm (hall x hx) (le_nth_length (h.count ▸ hcount) hnth hd)
    exact ⟨hcount, hmax, hv⟩
  constructor
  · intro hle d hd hall
    obtain ⟨hcount, hmax, hv⟩ := hlast d hd hall
    rcases Nat.lt_or_ge d kOverflowNs with hlt | hge
    · have hbound := UInt64.le_iff_toNat_le.1 (hle r.count hcount (UInt64.le_refl _))
      rw [hv, if_neg (Nat.not_le.2 hlt), ← hmax] at hbound
      exact (endsBucket_iff hlt).2 (le_antisymm hbound le_lastOf)
    · exact .inr (.inr (.inr hge))
  · intro hends rank hpos hrank
    have hmem := h.max_mem
    rcases eq_or_ne xs [] with rfl | hne
    · have hcount := h.count
      have := UInt64.le_iff_toNat_le.1 hrank
      rw [List.length_nil] at hcount
      omega
    · obtain ⟨hcount, -, hv⟩ := hlast _ (hmem hne) h.le_max
      refine UInt64.le_trans (h.valueAtRank_mono hpos hrank (UInt64.le_refl _)) ?_
      rw [UInt64.le_iff_toNat_le, hv]
      split_ifs with ho
      · exact le_rfl
      · exact ((endsBucket_iff (Nat.lt_of_not_le ho)).1 (hends _ (hmem hne) h.le_max)).le

end Search

/-! ## The quantiles of a run -/

/-- The values of all ranks are ordered and bracketed, and so is a snapshot. -/
structure Bracketed (target : UInt64 → ℚ → UInt64) (ops : List Op) : Prop where
  value : ∀ rank : UInt64, 0 < rank.toNat → rank ≤ (run ops).count →
    ∃ d, nth (recorded ops) rank.toNat = some d
      ∧ d ≤ ((run ops).valueAtRank rank).toNat
      ∧ (d < kExactBucketCount → ((run ops).valueAtRank rank).toNat = d)
      ∧ (d < kOverflowNs → ((run ops).valueAtRank rank).toNat < d + bucketWidth d)
      ∧ (kOverflowNs ≤ d → (run ops).valueAtRank rank ≤ (run ops).maxNs)
  mono : ∀ rank rank' : UInt64, 0 < rank.toNat → rank ≤ rank' → rank' ≤ (run ops).count →
    (run ops).valueAtRank rank ≤ (run ops).valueAtRank rank'
  min_le : ∀ rank : UInt64, 0 < rank.toNat → rank ≤ (run ops).count →
    (run ops).minNs ≤ (run ops).valueAtRank rank
  le_max : ∀ rank : UInt64, 0 < rank.toNat → rank ≤ (run ops).count →
    (run ops).valueAtRank rank ≤ (run ops).maxNs
  snapshot : (run ops).count ≠ 0 →
    let s := (run ops).snapshot target
    s.minNs ≤ s.p50Ns ∧ s.p50Ns ≤ s.p90Ns ∧ s.p90Ns ≤ s.p99Ns ∧ s.p99Ns ≤ s.p999Ns
      ∧ s.p999Ns ≤ s.p9999Ns ∧ s.p9999Ns ≤ s.maxNs

section Percentiles

variable {target : UInt64 → ℚ → UInt64} {r : LatencyRecorder} {p q : ℚ}

/-- The rank of a percentile. -/
def rankOf (target : UInt64 → ℚ → UInt64) (r : LatencyRecorder) (p : ℚ) : UInt64 :=
  max (target r.count p) 1

theorem percentile_eq (hcount : r.count ≠ 0) (hp : 0 < p) (hp' : p < 100) :
    r.percentile target p = r.valueAtRank (rankOf target r p) := by
  rw [percentile, if_neg hcount, if_neg (not_le.2 hp), if_neg (not_le.2 hp')]
  rfl

theorem rankOf_pos : 0 < (rankOf target r p).toNat := by
  rw [rankOf, toNat_max]
  exact lt_of_lt_of_le (by decide) (le_max_right _ _)

theorem rankOf_le (ht : Rounds target) (hcount : r.count ≠ 0) (hp : 0 < p) (hp' : p < 100) :
    rankOf target r p ≤ r.count := by
  have hle := UInt64.le_iff_toNat_le.1 (ht.le_count r.count p hp.le hp'.le)
  rw [UInt64.le_iff_toNat_le, rankOf, toNat_max]
  exact max_le hle (Nat.pos_of_ne_zero fun h => hcount (UInt64.toNat_inj.1 h))

theorem rankOf_mono (ht : Rounds target) (hp : 0 < p) (hpq : p ≤ q) (hq : q < 100) :
    rankOf target r p ≤ rankOf target r q := by
  rw [UInt64.le_iff_toNat_le, rankOf, rankOf, toNat_max, toNat_max]
  exact max_le_max (UInt64.le_iff_toNat_le.1 (ht.mono r.count p q hp.le hpq hq.le)) le_rfl

end Percentiles

/-- A run's quantiles are as claimed exactly when the largest duration since the last reset is the
last of its bucket, or in the overflow bucket. -/
theorem latency_quantiles_iff (target : UInt64 → ℚ → UInt64) (ht : Rounds target) (ops : List Op)
    (hsmall : (recorded ops).length < 2 ^ 64) :
    Bracketed target ops
      ↔ ∀ d ∈ recorded ops, (∀ e ∈ recorded ops, e ≤ d) → EndsBucket d := by
  have h := holds_run ops hsmall
  rw [← h.value_le_max_iff]
  refine ⟨fun hb => hb.le_max, fun hle => ?_⟩
  refine ⟨fun rank hpos hrank => ?_,
    fun rank rank' hpos hrank hle => h.valueAtRank_mono hpos hrank hle,
    fun rank hpos hrank => h.min_le_value hpos hrank, hle, fun hcount => ?_⟩
  · obtain ⟨d, hmem, hd, hv⟩ := h.exists_value hpos hrank
    have hmax := h.le_max d hmem
    rw [UInt64.le_iff_toNat_le, hv]
    rcases Nat.lt_or_ge d kOverflowNs with hlt | hge
    · rw [if_neg (Nat.not_le.2 hlt)]
      refine ⟨d, hd, le_lastOf, fun hexact => if_pos hexact, fun _ => lastOf_lt_add, fun hge => ?_⟩
      omega
    · rw [if_pos hge]
      refine ⟨d, hd, hmax, fun hexact => ?_, fun hlt => ?_, fun _ => le_rfl⟩
      · unfold kOverflowNs at hge
        omega
      · omega
  · have hstep : ∀ p q : ℚ, 0 < p → p ≤ q → q < 100 →
        (run ops).percentile target p ≤ (run ops).percentile target q := by
      intro p q hp hpq hq
      rw [percentile_eq hcount hp (hpq.trans_lt hq), percentile_eq hcount (hp.trans_le hpq) hq]
      exact h.valueAtRank_mono rankOf_pos (rankOf_mono ht hp hpq hq)
        (rankOf_le ht hcount (hp.trans_le hpq) hq)
    rw [LatencyRecorder.snapshot, if_neg hcount]
    refine ⟨?_, hstep 50 90 (by norm_num) (by norm_num) (by norm_num),
      hstep 90 99 (by norm_num) (by norm_num) (by norm_num),
      hstep 99 (999 / 10) (by norm_num) (by norm_num) (by norm_num),
      hstep (999 / 10) (9999 / 100) (by norm_num) (by norm_num) (by norm_num), ?_⟩
    · dsimp only
      rw [percentile_eq hcount (by norm_num) (by norm_num)]
      exact h.min_le_value rankOf_pos (rankOf_le ht hcount (by norm_num) (by norm_num))
    · dsimp only
      rw [percentile_eq hcount (by norm_num) (by norm_num)]
      exact hle _ rankOf_pos (rankOf_le ht hcount (by norm_num) (by norm_num))

/-! ## The target -/

section Target

variable {bits : ℕ} {p q : ℚ}

theorem percent_mono (hbits : 0 < bits) (hp : 0 ≤ p) (hpq : p ≤ q) :
    roundTo bits (roundTo 53 p / 100) ≤ roundTo bits (roundTo 53 q / 100) := by
  have hdouble : roundTo 53 p ≤ roundTo 53 q := roundTo_mono (by decide) hp hpq
  refine roundTo_mono hbits (div_nonneg (roundTo_nonneg hp) (by norm_num)) ?_
  exact div_le_div_of_nonneg_right hdouble (by norm_num)

/-- One hundred percent is one. -/
theorem percent_le_one (hbits : 64 ≤ bits) (hp : 0 ≤ p) (hp' : p ≤ 100) :
    roundTo bits (roundTo 53 p / 100) ≤ 1 := by
  have hhundred : roundTo 53 (100 : ℕ) = (100 : ℕ) := roundTo_natCast (by decide)
  have hone : roundTo bits (1 : ℕ) = (1 : ℕ) := roundTo_natCast (Nat.one_lt_two_pow (by omega))
  have hpos : 0 < bits := by omega
  have hle := percent_mono hpos hp hp'
  push_cast at hhundred hone
  rw [hhundred, div_self (by norm_num), hone] at hle
  exact hle

/-- A word is exact in a `long double`. -/
theorem roundTo_count (hbits : 64 ≤ bits) (count : UInt64) :
    roundTo bits count.toNat = count.toNat :=
  roundTo_natCast (count.toNat_lt.trans_le (Nat.pow_le_pow_right (by decide) hbits))

theorem target_le_count (hbits : 64 ≤ bits) (count : UInt64) (hp : 0 ≤ p) (hp' : p ≤ 100) :
    ⌈roundTo bits (count.toNat * roundTo bits (roundTo 53 p / 100))⌉ ≤ (count.toNat : ℤ) := by
  have hpercent : 0 ≤ roundTo bits (roundTo 53 p / 100) :=
    roundTo_nonneg (div_nonneg (roundTo_nonneg hp) (by norm_num))
  have hle : (count.toNat : ℚ) * roundTo bits (roundTo 53 p / 100) ≤ count.toNat :=
    mul_le_of_le_one_right (Nat.cast_nonneg _) (percent_le_one hbits hp hp')
  have hpos : 0 < bits := by omega
  have hround := roundTo_mono hpos (mul_nonneg (Nat.cast_nonneg count.toNat) hpercent) hle
  rw [roundTo_count hbits] at hround
  exact Int.ceil_le.2 (by exact_mod_cast hround)

theorem toNat_longDoubleTarget (hbits : 64 ≤ bits) (count : UInt64) (hp : 0 ≤ p) (hp' : p ≤ 100) :
    (longDoubleTarget bits count p).toNat
      = ⌈roundTo bits (count.toNat * roundTo bits (roundTo 53 p / 100))⌉.toNat := by
  have hle := target_le_count hbits count hp hp'
  have hfits : ⌈roundTo bits (count.toNat * roundTo bits (roundTo 53 p / 100))⌉.toNat
      ≤ count.toNat := by omega
  exact UInt64.toNat_ofNat_of_lt (hfits.trans_lt count.toNat_lt)

/-- In a `long double` that holds every word, the targets keep their order and stay in range. -/
theorem rounds_longDoubleTarget (hbits : 64 ≤ bits) : Rounds (longDoubleTarget bits) where
  mono count p q hp hpq hq := by
    have hpercent : 0 ≤ roundTo bits (roundTo 53 p / 100) :=
      roundTo_nonneg (div_nonneg (roundTo_nonneg hp) (by norm_num))
    have hcount : (0 : ℚ) ≤ count.toNat := Nat.cast_nonneg _
    have hpos : 0 < bits := by omega
    have hmul := mul_le_mul_of_nonneg_left (percent_mono hpos hp hpq) hcount
    rw [UInt64.le_iff_toNat_le, toNat_longDoubleTarget hbits count hp (hpq.trans hq),
      toNat_longDoubleTarget hbits count (hp.trans hpq) hq]
    refine Int.toNat_le_toNat (Int.ceil_le_ceil (roundTo_mono hpos ?_ hmul))
    exact mul_nonneg hcount hpercent
  le_count count p hp hp' := by
    have hle := target_le_count hbits count hp hp'
    rw [UInt64.le_iff_toNat_le, toNat_longDoubleTarget hbits count hp hp']
    omega

end Target

/-- The largest duration is the last of its bucket. -/
theorem latency_quantiles_last :
    Bracketed (longDoubleTarget 64) [.recordDuration 10 20, .recordDuration 1039 1] :=
  (latency_quantiles_iff _ (rounds_longDoubleTarget le_rfl) _ (by decide)).2 (by decide)

/-- A single duration is reported fifteen nanoseconds above the maximum. -/
theorem latency_quantiles_above :
    ¬ Bracketed (longDoubleTarget 64) [.recordDuration 1024 1] := by
  intro h
  exact absurd (h.le_max 1 (by decide) (by decide)) (by decide +kernel)

end LatencyRecorder

end AstraFeed
