import Mathlib.Data.List.TakeWhile
import Mathlib.Tactic.Ring

/-!
# Records with a terminator

A sequence of records each ended by the same mark. The first record is what stands before the first
mark.
-/

namespace Terminated

variable {α : Type*} {mark : α} {xs record : List α} {records : List (List α)}

/-- The records, each with its mark behind it. -/
def join (mark : α) (records : List (List α)) : List α := records.flatMap (· ++ [mark])

@[simp] theorem join_nil : join mark [] = [] := rfl

theorem join_cons : join mark (record :: records) = record ++ mark :: join mark records := by
  simp [join]

theorem mem_join {x : α} (h : x ∈ join mark records) : x = mark ∨ ∃ r ∈ records, x ∈ r := by
  obtain ⟨r, hr, hx⟩ := List.mem_flatMap.1 h
  rw [List.mem_append, List.mem_singleton] at hx
  exact hx.symm.imp_right fun hx => ⟨r, hr, hx⟩

theorem length_join_le (mark : α) {k : ℕ} (h : ∀ r ∈ records, r.length ≤ k) :
    (join mark records).length ≤ records.length * (k + 1) := by
  induction records with
  | nil => simp
  | cons r rs ih =>
    have hr := h r (by simp)
    have hrs := ih fun x hx => h x (by simp [hx])
    rw [join_cons, List.length_append, List.length_cons, List.length_cons, Nat.succ_mul]
    omega

theorem drop_join_cons :
    (join mark (record :: records)).drop (record.length + 1) = join mark records := by
  rw [join_cons, Nat.add_comm, ← List.drop_drop]
  simp

variable [DecidableEq α]

theorem takeWhile_join_cons (h : mark ∉ record) :
    (join mark (record :: records)).takeWhile (· ≠ mark) = record := by
  rw [join_cons, List.takeWhile_append_of_pos, List.takeWhile_cons_of_neg (by simp),
    List.append_nil]
  intro x hx
  exact decide_eq_true fun heq => h (heq ▸ hx)

/-- A text with a mark is its first record, the mark and the rest. -/
theorem eq_record_append (h : mark ∈ xs) :
    xs = xs.takeWhile (· ≠ mark) ++ mark :: xs.drop ((xs.takeWhile (· ≠ mark)).length + 1) := by
  induction xs with
  | nil => simp at h
  | cons x xs ih =>
    rcases eq_or_ne x mark with rfl | hx
    · simp
    · rw [List.takeWhile_cons_of_pos (by simpa using hx)]
      have := ih (by simpa [hx.symm] using h)
      simpa using this

theorem notMem_takeWhile (xs : List α) : mark ∉ xs.takeWhile (· ≠ mark) := by
  intro h
  simpa using List.mem_takeWhile_imp h

theorem length_takeWhile_eq_iff : (xs.takeWhile (· ≠ mark)).length = xs.length ↔ mark ∉ xs := by
  constructor
  · intro h hm
    have := congrArg List.length (eq_record_append hm)
    rw [List.length_append, List.length_cons] at this
    omega
  · intro h
    rw [List.takeWhile_eq_self_iff.2]
    intro x hx
    exact decide_eq_true fun heq => h (heq ▸ hx)

end Terminated
