import Mathlib.Data.List.Basic
import Mathlib.Logic.Function.Basic

/-!
# Interleavings

Lists merged into one, each of them in its order.
-/

/-- Every lane is in the merged list, in its order, and nothing else is. -/
inductive Interleaves {ι α : Type*} [DecidableEq ι] : (ι → List α) → List α → Prop
  | nil : Interleaves (fun _ => []) []
  | snoc {lanes : ι → List α} {merged : List α} (h : Interleaves lanes merged) (i : ι) (x : α) :
    Interleaves (Function.update lanes i (lanes i ++ [x])) (merged ++ [x])

namespace Interleaves

variable {ι α : Type*} [DecidableEq ι] {lanes : ι → List α} {merged : List α}

theorem sublist (h : Interleaves lanes merged) (i : ι) : (lanes i).Sublist merged := by
  induction h with
  | nil => exact .slnil
  | snoc _ j x ih =>
    by_cases hi : i = j
    · subst hi
      rw [Function.update_self]
      exact ih.append (List.Sublist.refl _)
    · rw [Function.update_of_ne hi]
      exact ih.trans (List.sublist_append_left _ _)

theorem exists_lane (h : Interleaves lanes merged) {x : α} (hx : x ∈ merged) :
    ∃ i, x ∈ lanes i := by
  induction h with
  | nil => exact absurd hx List.not_mem_nil
  | @snoc lanes merged _ j y ih =>
    rcases List.mem_append.1 hx with hx | hx
    · obtain ⟨i, hi⟩ := ih hx
      by_cases hij : i = j
      · subst hij
        exact ⟨i, by rw [Function.update_self]; exact List.mem_append_left _ hi⟩
      · exact ⟨i, by rwa [Function.update_of_ne hij]⟩
    · exact ⟨j, by rw [Function.update_self]; exact List.mem_append_right _ hx⟩

end Interleaves
