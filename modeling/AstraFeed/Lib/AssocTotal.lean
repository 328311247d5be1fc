import Mathlib.Data.List.AList
import AstraFeed.Lib.PointUpdate

/-!
# Association lists as maps

What an association list looks a key up to, as a function that changes at one point, and the count
of its entries as a total over all keys.
-/

namespace AssocTotal

open Function

variable {ι α : Type*} [DecidableEq ι] (s : AList fun _ : ι => α)

theorem lookup_insert (k : ι) (v : α) :
    (fun k' => (s.insert k v).lookup k') = update (fun k' => s.lookup k') k (some v) := by
  funext k'
  by_cases h : k' = k
  · rw [h, AList.lookup_insert, update_self]
  · rw [AList.lookup_insert_ne h, update_of_ne h]

theorem lookup_erase (k : ι) :
    (fun k' => (s.erase k).lookup k') = update (fun k' => s.lookup k') k none := by
  funext k'
  by_cases h : k' = k
  · rw [h, AList.lookup_erase, update_self]
  · rw [AList.lookup_erase_ne h, update_of_ne h]

/-- A measure that counts the values with a property counts the entries with it. -/
theorem total_lookup [Fintype ι] {f : Option α → ℕ} {p : α → Prop} [DecidablePred p]
    (h0 : f none = 0) (h1 : ∀ a, f (some a) = if p a then 1 else 0) :
    PointUpdate.total f (fun k => s.lookup k) = s.entries.countP fun e => p e.2 := by
  induction s using AList.insertRec with
  | H0 => exact PointUpdate.total_eq_zero.2 fun _ => h0
  | IH k v s hk ih =>
    have hadd := PointUpdate.total_update f (fun k' => s.lookup k') k (some v)
    rw [← lookup_insert, AList.lookup_eq_none.2 hk, h0, h1, ih] at hadd
    rw [AList.entries_insert_of_notMem hk, List.countP_cons]
    simpa using hadd

end AssocTotal
