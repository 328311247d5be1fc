import Mathlib.Logic.Relation
import Mathlib.Tactic.Ring

/-!
# Loops

The body of a loop without a condition returns a result, or goes on from another state. A loop whose
rounds lower a measure returns, and with more fuel than rounds it returns the same.
-/

namespace Loop

variable {σ ρ : Type*}

section Rounds

variable (body : σ → ρ ⊕ σ)

/-- A round goes on from one state to another. -/
def Round (s t : σ) : Prop := body s = .inr t

/-- The states in which the loop begins a round. -/
def Heads : σ → σ → Prop := Relation.ReflTransGen (Round body)

/-- The loop returns after so many rounds that go on. -/
inductive Returns : σ → ℕ → ρ → Prop
  | here {s : σ} {r : ρ} (h : body s = .inl r) : Returns s 0 r
  | later {s t : σ} {n : ℕ} {r : ρ} (h : body s = .inr t) (ht : Returns t n r) :
      Returns s (n + 1) r

/-- At most so many rounds: the result, or the state they led to. -/
def iterate : ℕ → σ → ρ ⊕ σ
  | 0, s => .inr s
  | n + 1, s =>
    match body s with
    | .inl r => .inl r
    | .inr t => iterate n t

end Rounds

variable {body : σ → ρ ⊕ σ} {I : σ → Prop} {s t : σ} {n : ℕ} {r : ρ}

theorem Returns.iterate (h : Returns body s n r) {fuel : ℕ} (hfuel : n < fuel) :
    iterate body fuel s = .inl r := by
  induction h generalizing fuel with
  | here h =>
    obtain ⟨fuel, rfl⟩ := Nat.exists_eq_succ_of_ne_zero (by omega : fuel ≠ 0)
    rw [Loop.iterate, h]
  | later h _ ih =>
    obtain ⟨fuel, rfl⟩ := Nat.exists_eq_succ_of_ne_zero (by omega : fuel ≠ 0)
    rw [Loop.iterate, h]
    exact ih (by omega)

/-- What a round keeps, holds in every state the loop comes to. -/
theorem Heads.rule (h : Heads body s t) (hs : I s)
    (hround : ∀ s t, I s → body s = .inr t → I t) : I t := by
  induction h with
  | refl => exact hs
  | tail _ h ih => exact hround _ _ ih h

/-- When every round that goes on lowers a measure by one, the loop returns, and has gone on as
often as the measure is lower then. -/
theorem returns_of_measure (body : σ → ρ ⊕ σ) (m : σ → ℕ)
    (hround : ∀ s t, I s → body s = .inr t → I t)
    (hm : ∀ s t, I s → body s = .inr t → m t + 1 = m s) (hs : I s) :
    ∃ n r t, Returns body s n r ∧ Heads body s t ∧ body t = .inl r ∧ m t + n = m s := by
  induction hk : m s generalizing s with
  | zero =>
    cases hb : body s with
    | inl r => exact ⟨0, r, s, .here hb, .refl, hb, hk⟩
    | inr t => exact absurd (hm s t hs hb) (by omega)
  | succ k ih =>
    cases hb : body s with
    | inl r => exact ⟨0, r, s, .here hb, .refl, hb, hk⟩
    | inr t =>
      have hlower := hm s t hs hb
      obtain ⟨n, r, u, hreturns, hheads, hr, hcount⟩ := ih (hround s t hs hb) (by omega)
      exact ⟨n + 1, r, u, .later hb hreturns, hheads.head hb, hr, by omega⟩

end Loop
