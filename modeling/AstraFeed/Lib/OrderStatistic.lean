import Mathlib.Data.List.Sort
import Mathlib.Tactic.Ring

/-!
# Order statistics

The `r`-th smallest of a list, which is the one with fewer than `r` below it and at least `r` up to
it. Sorted into buckets by a monotone index, it is in the first bucket up to which at least `r` are
counted.
-/

namespace OrderStatistic

variable {α : Type*} {index : α → ℕ}

/-! ## Buckets -/

/-- How many are in a bucket. -/
def bucketCount (index : α → ℕ) (xs : List α) (b : ℕ) : ℕ := xs.countP (index · = b)

/-- How many are in the buckets before one. -/
def bucketsBefore (index : α → ℕ) (xs : List α) (b : ℕ) : ℕ := xs.countP (index · < b)

theorem bucketsBefore_succ (xs : List α) (b : ℕ) :
    bucketsBefore index xs (b + 1) = bucketsBefore index xs b + bucketCount index xs b := by
  induction xs with
  | nil => rfl
  | cons x xs ih =>
    unfold bucketsBefore bucketCount at *
    rw [List.countP_cons, List.countP_cons, List.countP_cons, ih]
    rcases lt_trichotomy (index x) b with h | h | h
    · simp [h, h.ne, h.trans (Nat.lt_succ_self b)]
      omega
    · simp [h]
      omega
    · simp [h.ne', not_lt.2 h.le, not_lt.2 (Nat.succ_le_of_lt h)]

theorem bucketsBefore_mono (xs : List α) {a b : ℕ} (h : a ≤ b) :
    bucketsBefore index xs a ≤ bucketsBefore index xs b :=
  List.countP_mono_left fun _ _ hz => decide_eq_true ((of_decide_eq_true hz).trans_le h)

theorem bucketsBefore_le_length (xs : List α) (b : ℕ) : bucketsBefore index xs b ≤ xs.length :=
  List.countP_le_length

/-! ## Ranks -/

variable [LinearOrder α] {xs : List α} {x y : α} {k r s : ℕ}

/-- The `r`-th smallest, from the first on. -/
def nth (xs : List α) (r : ℕ) : Option α := (xs.mergeSort fun a b => decide (a ≤ b))[r - 1]?

def below (xs : List α) (x : α) : ℕ := xs.countP (· < x)

def upTo (xs : List α) (x : α) : ℕ := xs.countP (· ≤ x)

theorem upTo_le_below (h : x < y) : upTo xs x ≤ below xs y :=
  List.countP_mono_left fun _ _ hz => decide_eq_true (lt_of_le_of_lt (of_decide_eq_true hz) h)

theorem below_le_of_getElem? (h : xs.Pairwise (· ≤ ·)) (hx : xs[k]? = some x) :
    below xs x ≤ k ∧ k < upTo xs x := by
  induction xs generalizing k with
  | nil => simp at hx
  | cons y ys ih =>
    obtain ⟨hy, hys⟩ := List.pairwise_cons.1 h
    rw [below, upTo, List.countP_cons, List.countP_cons]
    rcases k with _ | k
    · obtain rfl : y = x := by simpa using hx
      have hnone : ys.countP (· < y) = 0 := by
        rw [List.countP_eq_zero]
        intro z hz
        simpa using hy z hz
      rw [hnone]
      simp
    · have hx' : ys[k]? = some x := by simpa using hx
      obtain ⟨hlo, hhi⟩ := ih hys hx'
      have hle : y ≤ x := hy x (List.mem_of_getElem? hx')
      rw [below] at hlo
      rw [upTo] at hhi
      rw [if_pos (decide_eq_true hle)]
      have hone : (if decide (y < x) = true then 1 else 0) ≤ 1 := by split_ifs <;> omega
      exact ⟨by omega, by omega⟩

theorem nth_bounds (hr : 0 < r) (h : nth xs r = some x) : below xs x < r ∧ r ≤ upTo xs x := by
  have hsorted : (xs.mergeSort fun a b => decide (a ≤ b)).Pairwise (· ≤ ·) :=
    (List.pairwise_mergeSort (by simpa using fun a b c => le_trans)
      (by simpa using le_total) xs).imp of_decide_eq_true
  obtain ⟨hlo, hhi⟩ := below_le_of_getElem? hsorted h
  have hperm := List.mergeSort_perm xs fun a b => decide (a ≤ b)
  rw [below, hperm.countP_eq] at hlo
  rw [upTo, hperm.countP_eq] at hhi
  rw [below, upTo]
  omega

theorem exists_nth (hr : 0 < r) (h : r ≤ xs.length) : ∃ x, nth xs r = some x := by
  rw [nth, List.getElem?_eq_getElem (by rw [List.length_mergeSort]; omega)]
  exact ⟨_, rfl⟩

theorem mem_of_nth (h : nth xs r = some x) : x ∈ xs :=
  List.mem_mergeSort.1 (List.mem_of_getElem? h)

/-- A larger rank has a larger value. -/
theorem nth_mono (hr : 0 < r) (hrs : r ≤ s) (hx : nth xs r = some x) (hy : nth xs s = some y) :
    x ≤ y := by
  by_contra hlt
  have hle : upTo xs y ≤ below xs x := upTo_le_below (not_le.1 hlt)
  have hbx := nth_bounds hr hx
  have hby := nth_bounds (hr.trans_le hrs) hy
  omega

/-- The value of the last rank is the largest. -/
theorem le_nth_length (hpos : 0 < xs.length) (hx : nth xs xs.length = some x) (hy : y ∈ xs) :
    y ≤ x := by
  have hall := (nth_bounds hpos hx).2
  rw [upTo] at hall
  exact of_decide_eq_true (List.countP_eq_length.1 (le_antisymm List.countP_le_length hall) y hy)

/-- Where the `r`-th smallest is. -/
theorem nth_bucket (hmono : Monotone index) (hr : 0 < r) (h : nth xs r = some x) :
    bucketsBefore index xs (index x) < r ∧ r ≤ bucketsBefore index xs (index x + 1) := by
  obtain ⟨hlo, hhi⟩ := nth_bounds hr h
  constructor
  · refine lt_of_le_of_lt (List.countP_mono_left fun y _ hy => decide_eq_true ?_) hlo
    exact hmono.reflect_lt (of_decide_eq_true hy)
  · refine hhi.trans (List.countP_mono_left fun y _ hy => decide_eq_true ?_)
    exact Nat.lt_succ_of_le (hmono (of_decide_eq_true hy))

end OrderStatistic
