import Mathlib.Data.List.Induction

/-!
# Runs that keep a log

A run of a step function with a log that grows by one entry at a time, or not at all.
-/

namespace RunLog

variable {σ ε α : Type*}

/-- A step adds at most one entry to the log. -/
def Appends (step : σ → ε → σ) (log : σ → List α) : Prop :=
  ∀ s event, log (step s event) = log s ∨ ∃ a, log (step s event) = log s ++ [a]

namespace Appends

variable {step : σ → ε → σ} {log : σ → List α} {s : σ} {events : List ε}

theorem length_le (h : Appends step log) (s : σ) (events : List ε) :
    (log (events.foldl step s)).length ≤ (log s).length + events.length := by
  induction events using List.reverseRecOn with
  | nil => exact Nat.le_refl _
  | append_singleton events event ih =>
    rw [List.foldl_append, List.length_append, List.length_singleton, ← Nat.add_assoc]
    rcases h (events.foldl step s) event with heq | ⟨a, heq⟩
    · rw [List.foldl_cons, List.foldl_nil, heq]
      exact Nat.le_succ_of_le ih
    · rw [List.foldl_cons, List.foldl_nil, heq, List.length_append]
      exact Nat.succ_le_succ ih

/-- Every prefix of the log was the whole log once. -/
theorem exists_earlier (h : Appends step log) {before : List α} (hs : log s = [])
    (hbefore : before <+: log (events.foldl step s)) :
    ∃ earlier, earlier <+: events ∧ log (earlier.foldl step s) = before := by
  induction events using List.reverseRecOn with
  | nil =>
    rw [List.foldl_nil, hs, List.prefix_nil] at hbefore
    exact ⟨[], List.prefix_rfl, hs.trans hbefore.symm⟩
  | append_singleton events event ih =>
    have hprev : before <+: log (events.foldl step s) →
        ∃ earlier, earlier <+: events ++ [event] ∧ log (earlier.foldl step s) = before := by
      intro hpre
      obtain ⟨earlier, hle, heq⟩ := ih hpre
      exact ⟨earlier, hle.trans (List.prefix_append _ _), heq⟩
    rw [List.foldl_append, List.foldl_cons, List.foldl_nil] at hbefore
    rcases h (events.foldl step s) event with heq | ⟨a, heq⟩
    · rw [heq] at hbefore
      exact hprev hbefore
    · rw [heq, List.prefix_concat_iff] at hbefore
      rcases hbefore with hall | hbefore
      · refine ⟨events ++ [event], List.prefix_rfl, ?_⟩
        rw [List.foldl_append, List.foldl_cons, List.foldl_nil, heq, hall]
      · exact hprev hbefore

end Appends

end RunLog
