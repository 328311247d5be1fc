import Mathlib.Algebra.BigOperators.Group.Finset.Basic
import Mathlib.Algebra.BigOperators.Ring.Finset
import Mathlib.Algebra.Order.BigOperators.Group.Finset
import Mathlib.Data.Fintype.BigOperators
import Mathlib.Tactic.Ring

/-!
# Sums over the values of a map

A map on a finite index type that changes at one point changes the sum of a measure of its values
by the difference at that point.
-/

namespace PointUpdate

variable {ι α : Type*} [Fintype ι]

/-- The total of a measure over the values of a map. -/
def total (f : α → ℕ) (m : ι → α) : ℕ := ∑ i, f (m i)

theorem total_le_total {f g : α → ℕ} {m : ι → α} (h : ∀ i, f (m i) ≤ g (m i)) :
    total f m ≤ total g m := Finset.sum_le_sum fun i _ => h i

theorem total_const_mul (c : ℕ) (f : α → ℕ) (m : ι → α) :
    total (fun a => c * f a) m = c * total f m := (Finset.mul_sum _ _ _).symm

theorem le_total (f : α → ℕ) (m : ι → α) (i : ι) : f (m i) ≤ total f m :=
  Finset.single_le_sum (f := fun i => f (m i)) (fun _ _ => Nat.zero_le _) (Finset.mem_univ i)

theorem total_eq_zero {f : α → ℕ} {m : ι → α} : total f m = 0 ↔ ∀ i, f (m i) = 0 := by
  simp [total]

variable [DecidableEq ι]

theorem total_update (f : α → ℕ) (m : ι → α) (k : ι) (v : α) :
    total f (Function.update m k v) + f (m k) = total f m + f v := by
  have hsplit : ∀ m' : ι → α, total f m' = f (m' k) + ∑ i ∈ Finset.univ.erase k, f (m' i) :=
    fun m' => (Finset.add_sum_erase _ _ (Finset.mem_univ k)).symm
  have hrest : ∑ i ∈ Finset.univ.erase k, f (Function.update m k v i)
      = ∑ i ∈ Finset.univ.erase k, f (m i) :=
    Finset.sum_congr rfl fun i hi => by rw [Function.update_of_ne (Finset.ne_of_mem_erase hi)]
  rw [hsplit (Function.update m k v), hsplit m, hrest, Function.update_self]
  omega

/-- A change the measure does not see leaves the total. -/
theorem total_update_of_eq {f : α → ℕ} {m : ι → α} {k : ι} {v : α} (h : f v = f (m k)) :
    total f (Function.update m k v) = total f m := by
  have := total_update f m k v
  omega

end PointUpdate
