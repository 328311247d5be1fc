import Mathlib.Data.Rat.Defs
import Mathlib.Logic.Function.Basic
import Mathlib.Tactic.Ring
import AstraFeed.Lib.Precision

/-!
# The latency recorder

Durations are counted in buckets: one for each nanosecond at first, then wider ones, and one for all
that is longer. A quantile is the upper bound of the bucket its rank falls into.
-/

namespace AstraFeed

structure LatencyRecorder where
  buckets : ℕ → UInt64
  count : UInt64
  invalidSamples : UInt64
  minNs : UInt64
  maxNs : UInt64
  totalNs : UInt64

namespace LatencyRecorder

def kExactBucketCount : ℕ := 1024
def kFineBucketCount : ℕ := 4096
def kCoarseBucketCount : ℕ := 4096
def kFineBucketWidthNs : ℕ := 16
def kCoarseBucketWidthNs : ℕ := 1024
def kFineRangeNs : ℕ := kFineBucketCount * kFineBucketWidthNs
def kCoarseRangeNs : ℕ := kCoarseBucketCount * kCoarseBucketWidthNs
def kOverflowBucket : ℕ := kExactBucketCount + kFineBucketCount + kCoarseBucketCount

def fresh : LatencyRecorder := ⟨fun _ => 0, 0, 0, 0xFFFFFFFFFFFFFFFF, 0, 0⟩

def bucketIndex (latencyNs : UInt64) : ℕ :=
  let ns := latencyNs.toNat
  if ns < kExactBucketCount then ns
  else
    let ns := ns - kExactBucketCount
    if ns < kFineRangeNs then kExactBucketCount + ns / kFineBucketWidthNs
    else
      let ns := ns - kFineRangeNs
      if ns < kCoarseRangeNs then
        kExactBucketCount + kFineBucketCount + ns / kCoarseBucketWidthNs
      else kOverflowBucket

def recordDuration (r : LatencyRecorder) (durationNs sampleCount : UInt64) : LatencyRecorder :=
  if sampleCount = 0 then r
  else
    let bucket := bucketIndex durationNs
    { r with
      buckets := Function.update r.buckets bucket (r.buckets bucket + sampleCount)
      count := r.count + sampleCount
      totalNs := r.totalNs + durationNs * sampleCount
      minNs := min r.minNs durationNs
      maxNs := max r.maxNs durationNs }

def kBucketCount : ℕ := kOverflowBucket + 1

/-- Bounds fit in 64 bits, so the sums are those of the source. -/
def bucketUpperBoundNs (bucketIndex : ℕ) : UInt64 :=
  if bucketIndex < kExactBucketCount then bucketIndex.toUInt64
  else
    let bucketIndex := bucketIndex - kExactBucketCount
    if bucketIndex < kFineBucketCount then
      (kExactBucketCount + (bucketIndex + 1) * kFineBucketWidthNs - 1).toUInt64
    else
      let bucketIndex := bucketIndex - kFineBucketCount
      if bucketIndex < kCoarseBucketCount then
        (kExactBucketCount + kFineRangeNs + (bucketIndex + 1) * kCoarseBucketWidthNs - 1).toUInt64
      else 0xFFFFFFFFFFFFFFFF

def record (r : LatencyRecorder) (startNs endNs : UInt64) : LatencyRecorder :=
  if endNs < startNs then { r with invalidSamples := r.invalidSamples + 1 }
  else r.recordDuration (endNs - startNs) 1

/-- Everything is as it was at first. -/
def reset (_ : LatencyRecorder) : LatencyRecorder := fresh

/-! ## Quantiles -/

/-- The loop of `valueAtRank` over the buckets left. -/
def valueAtRankFrom (r : LatencyRecorder) (rank cumulative : UInt64) : List ℕ → UInt64
  | [] => r.maxNs
  | i :: is =>
    let cumulative := cumulative + r.buckets i
    if rank ≤ cumulative then if i = kOverflowBucket then r.maxNs else bucketUpperBoundNs i
    else r.valueAtRankFrom rank cumulative is

def valueAtRank (r : LatencyRecorder) (rank : UInt64) : UInt64 :=
  r.valueAtRankFrom rank 0 (List.range kBucketCount)

/-- Without the mean, which is a floating-point quotient. -/
structure Snapshot where
  count : UInt64 := 0
  invalidSamples : UInt64 := 0
  minNs : UInt64 := 0
  maxNs : UInt64 := 0
  p50Ns : UInt64 := 0
  p90Ns : UInt64 := 0
  p99Ns : UInt64 := 0
  p999Ns : UInt64 := 0
  p9999Ns : UInt64 := 0

/-- The ceiling of `count * (percentile / 100)`, in a `long double` of so many binary digits. The
percentile is a `double`. -/
def longDoubleTarget (bits : ℕ) (count : UInt64) (percentile : ℚ) : UInt64 :=
  let target := Precision.roundTo bits
    (count.toNat * Precision.roundTo bits (Precision.roundTo 53 percentile / 100))
  ⌈target⌉.toNat.toUInt64

section Quantiles

-- what the floating-point arithmetic of the platform makes of the target
variable (target : UInt64 → ℚ → UInt64)

def percentile (r : LatencyRecorder) (percentile : ℚ) : UInt64 :=
  if r.count = 0 then 0
  else if percentile ≤ 0 then r.minNs
  else if 100 ≤ percentile then r.maxNs
  else r.valueAtRank (max (target r.count percentile) 1)

def snapshot (r : LatencyRecorder) : Snapshot :=
  if r.count = 0 then { count := r.count, invalidSamples := r.invalidSamples }
  else
    { count := r.count
      invalidSamples := r.invalidSamples
      minNs := r.minNs
      maxNs := r.maxNs
      p50Ns := r.percentile target 50
      p90Ns := r.percentile target 90
      p99Ns := r.percentile target 99
      p999Ns := r.percentile target (999 / 10)
      p9999Ns := r.percentile target (9999 / 100) }

/-- Rounding keeps the order of the targets and does not pass a whole number. -/
structure Rounds : Prop where
  mono : ∀ count p q, 0 ≤ p → p ≤ q → q ≤ 100 → target count p ≤ target count q
  le_count : ∀ count p, 0 ≤ p → p ≤ 100 → target count p ≤ count

end Quantiles

/-! ## Runs -/

/-- The calls that change what is recorded. -/
inductive Op
  | recordDuration (durationNs sampleCount : UInt64)
  | reset
  deriving DecidableEq

def perform (r : LatencyRecorder) : Op → LatencyRecorder
  | .recordDuration durationNs sampleCount => r.recordDuration durationNs sampleCount
  | .reset => r.reset

def run (ops : List Op) : LatencyRecorder := ops.foldl perform fresh

/-- The durations recorded since the last reset, each as often as it was counted. -/
def recorded (ops : List Op) : List ℕ :=
  ops.foldl (fun xs op =>
    match op with
    | .recordDuration durationNs sampleCount =>
      xs ++ List.replicate sampleCount.toNat durationNs.toNat
    | .reset => []) []

end LatencyRecorder

end AstraFeed
