import Mathlib.Data.List.Basic

/-!
# Ranks and fair rounds

Parties take steps in any order. Where the rank is not zero it is one party's turn, whose step
lowers it unless the step is idle; any other step lowers it too, or leaves it and the turn as they
are. So a run in which each party steps often enough, and idles seldom enough, comes to rank zero.
-/

namespace Fairness

variable {σ ε ι : Type*}

structure Ranked (step : σ → ε → σ) (party : ε → Option ι) (idle : ε → Bool) (Inv : σ → Prop)
    (rank : σ → ℕ) (turn : σ → ι) : Prop where
  inv : ∀ {s}, Inv s → ∀ e, Inv (step s e)
  lt_of_turn : ∀ {s}, Inv s → rank s ≠ 0 → ∀ {e}, party e = some (turn s) → idle e = false →
    rank (step s e) < rank s
  lt_or_kept : ∀ {s}, Inv s → rank s ≠ 0 → ∀ e,
    rank (step s e) < rank s ∨ rank (step s e) = rank s ∧ turn (step s e) = turn s

/-- Every party steps in the round. -/
def FairRound (party : ε → Option ι) (round : List ε) : Prop := ∀ i, ∃ e ∈ round, party e = some i

/-- After some of the events the rank is zero. -/
def ReachesZero (step : σ → ε → σ) (rank : σ → ℕ) (s : σ) (events : List ε) : Prop :=
  ∃ before after, events = before ++ after ∧ rank (before.foldl step s) = 0

variable {step : σ → ε → σ} {party : ε → Option ι} {idle : ε → Bool} {Inv : σ → Prop}
  {rank : σ → ℕ} {turn : σ → ι} {s : σ} {events : List ε}

theorem reachesZero_of_rank (h : rank s = 0) (events : List ε) : ReachesZero step rank s events :=
  ⟨[], events, rfl, h⟩

theorem ReachesZero.after (before : List ε)
    (h : ReachesZero step rank (before.foldl step s) events) :
    ReachesZero step rank s (before ++ events) := by
  obtain ⟨first, last, rfl, hzero⟩ := h
  refine ⟨before ++ first, last, by simp, ?_⟩
  rw [List.foldl_append]
  exact hzero

theorem ReachesZero.append (h : ReachesZero step rank s events) (more : List ε) :
    ReachesZero step rank s (events ++ more) := by
  obtain ⟨before, after, rfl, hzero⟩ := h
  exact ⟨before, after ++ more, by simp, hzero⟩

/-- What every step before that keeps, holds there. -/
theorem ReachesZero.rule (h : ReachesZero step rank s events) (J : σ → Prop) (hs : J s)
    (hstep : ∀ s e, J s → rank s ≠ 0 → J (step s e)) :
    ∃ before after, events = before ++ after ∧ rank (before.foldl step s) = 0
      ∧ J (before.foldl step s) := by
  obtain ⟨before, after, rfl, hzero⟩ := h
  induction before generalizing s with
  | nil => exact ⟨[], after, rfl, hzero, hs⟩
  | cons e before ih =>
    by_cases hnow : rank s = 0
    · exact ⟨[], e :: (before ++ after), rfl, hnow, hs⟩
    obtain ⟨first, rest, heq, hend, hJ⟩ := ih (hstep s e hs hnow) hzero
    exact ⟨e :: first, rest, by rw [List.cons_append, heq, List.cons_append], hend, hJ⟩

namespace Ranked

variable (h : Ranked step party idle Inv rank turn)
include h

theorem run_inv (hs : Inv s) (events : List ε) : Inv (events.foldl step s) := by
  induction events generalizing s with
  | nil => exact hs
  | cons e events ih => exact ih (h.inv hs e)

theorem reachesZero_or_le (hs : Inv s) (events : List ε) :
    ReachesZero step rank s events ∨ rank (events.foldl step s) ≤ rank s := by
  induction events generalizing s with
  | nil => exact .inr (Nat.le_refl _)
  | cons e events ih =>
    by_cases hzero : rank s = 0
    · exact .inl (reachesZero_of_rank hzero _)
    rcases ih (h.inv hs e) with hreach | hrest
    · exact .inl (hreach.after [e])
    · right
      have hstep := h.lt_or_kept hs hzero e
      rw [List.foldl_cons]
      omega

/-- The turn stays where it is until the rank drops. -/
theorem reachesZero_or_lt (hs : Inv s) (hzero : rank s ≠ 0)
    (hturn : ∃ e ∈ events, party e = some (turn s)) (hbusy : ∀ e ∈ events, idle e = false) :
    ReachesZero step rank s events ∨ rank (events.foldl step s) < rank s := by
  induction events generalizing s with
  | nil => simp at hturn
  | cons e events ih =>
    rcases h.lt_or_kept hs hzero e with hlt | ⟨heq, hkept⟩
    · rcases h.reachesZero_or_le (h.inv hs e) events with hreach | hle
      · exact .inl (hreach.after [e])
      · exact .inr (Nat.lt_of_le_of_lt hle hlt)
    · have hlater : ∃ e ∈ events, party e = some (turn s) := by
        obtain ⟨e', hmem, hparty⟩ := hturn
        rcases List.mem_cons.1 hmem with rfl | hmem
        · have hlt := h.lt_of_turn hs hzero hparty (hbusy e' List.mem_cons_self)
          omega
        · exact ⟨e', hmem, hparty⟩
      have hbusy' : ∀ e ∈ events, idle e = false := fun e he =>
        hbusy e (List.mem_cons_of_mem _ he)
      rcases ih (h.inv hs e) (heq ▸ hzero) (hkept ▸ hlater) hbusy' with hreach | hlt
      · exact .inl (hreach.after [e])
      · exact .inr (heq ▸ hlt)

/-- As many fair rounds as the rank is high, and one more for each idle step. -/
theorem reachesZero (hs : Inv s) {rounds : List (List ε)}
    (hfair : ∀ round ∈ rounds, FairRound party round)
    (hlen : rank s + rounds.flatten.countP idle ≤ rounds.length) :
    ReachesZero step rank s rounds.flatten := by
  induction rounds generalizing s with
  | nil => exact reachesZero_of_rank (by simpa using hlen) _
  | cons round rounds ih =>
    rw [List.flatten_cons] at hlen ⊢
    rw [List.countP_append, List.length_cons] at hlen
    have hfair' : ∀ r ∈ rounds, FairRound party r := fun r hr =>
      hfair r (List.mem_cons_of_mem _ hr)
    by_cases hzero : rank s = 0
    · exact reachesZero_of_rank hzero _
    by_cases hbusy : round.countP idle = 0
    · have hbusy' : ∀ e ∈ round, idle e = false := by simpa using hbusy
      rcases h.reachesZero_or_lt hs hzero (hfair round List.mem_cons_self (turn s)) hbusy' with
        hreach | hlt
      · exact hreach.append _
      · exact (ih (h.run_inv hs round) hfair' (by omega)).after round
    · -- One round is lost to its idle steps.
      rcases h.reachesZero_or_le hs round with hreach | hle
      · exact hreach.append _
      · exact (ih (h.run_inv hs round) hfair' (by omega)).after round

end Ranked

end Fairness
