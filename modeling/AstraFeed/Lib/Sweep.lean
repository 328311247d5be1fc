import Mathlib.Data.Set.Basic
import Mathlib.Logic.Relation
import Mathlib.Tactic.Ring

/-!
# Sweeping over intervals

From a position, a sweep jumps to the end of the interval that starts last among those that contain
the position. `Progress` is the invariant of a loop that sweeps while it looks at most `w` places
back and removes each interval it takes up. An interval that is left behind was `Overtaken`: the
sweep got more than `w` past its start, always inside intervals that start later.
-/

namespace Sweep

variable {E : Type*}

section Jumps

variable (start stop : E → ℕ) (S : Set E)

/-- The interval contains the position, and no other that does starts later. -/
structure Top (x : ℕ) (e : E) : Prop where
  mem : e ∈ S
  start_le : start e ≤ x
  lt_stop : x < stop e
  last : ∀ f ∈ S, start f ≤ x → x < stop f → start f ≤ start e

def Jump (x y : ℕ) : Prop := ∃ e, Top start stop S x e ∧ y = stop e

/-- The positions a sweep passes through. -/
def Reaches : ℕ → ℕ → Prop := Relation.ReflTransGen (Jump start stop S)

/-- A sweep from `x₀` gets more than `w` past the start of `a`, and wherever it is within `w` of
that start it is inside an interval that starts later. -/
structure Overtaken (w x₀ : ℕ) (a : E) : Prop where
  mem : a ∈ S
  past : ∃ y, Reaches start stop S x₀ y ∧ start a + w < y
  covered : ∀ x, Reaches start stop S x₀ x → start a ≤ x → x ≤ start a + w →
    ∃ f ∈ S, start a < start f ∧ start f ≤ x ∧ x < stop f

end Jumps

section Facts

variable {start stop : E → ℕ} {S : Set E} {x₀ x y : ℕ}

theorem Jump.lt (h : Jump start stop S x y) : x < y := by
  obtain ⟨e, ht, rfl⟩ := h
  exact ht.lt_stop

theorem Reaches.le (h : Reaches start stop S x y) : x ≤ y := by
  induction h with
  | refl => exact le_rfl
  | tail _ hj ih => exact ih.trans hj.lt.le

/-- With one interval for each start, a position has one jump. -/
theorem Jump.rightUnique (hu : Set.InjOn start S) :
    Relator.RightUnique (Jump start stop S) := by
  rintro x _ _ ⟨e, he, rfl⟩ ⟨f, hf, rfl⟩
  have hstart : start e = start f :=
    le_antisymm (hf.last e he.mem he.start_le he.lt_stop)
      (he.last f hf.mem hf.start_le hf.lt_stop)
  rw [hu he.mem hf.mem hstart]

/-- A position the sweep passes after `x` is not before the jump from `x`. -/
theorem Reaches.le_of_lt (hu : Set.InjOn start S) {z : ℕ} (hx : Reaches start stop S x₀ x)
    (hj : Jump start stop S x y) (hz : Reaches start stop S x₀ z) (hlt : x < z) : y ≤ z := by
  rcases Relation.ReflTransGen.total_of_right_unique (Jump.rightUnique hu) hx hz with h | h
  · rcases Relation.ReflTransGen.cases_head h with rfl | ⟨c, hc, hcz⟩
    · exact absurd hlt (lt_irrefl _)
    · rw [Jump.rightUnique hu hj hc]
      exact Reaches.le hcz
  · exact absurd (Reaches.le h) (not_le.2 hlt)

/-- A sweep overtakes no interval that none of the earlier ones reaches into. -/
theorem not_overtaken_of_apart {w : ℕ} {a : E}
    (hapart : ∀ e ∈ S, start e < start a → stop e ≤ start a) (hle : x₀ ≤ start a) :
    ¬ Overtaken start stop S w x₀ a := by
  intro h
  obtain ⟨y, hy, hlt⟩ := h.past
  -- the sweep stops at the start of `a` before it gets past it
  have hstop : y ≤ start a ∨ Reaches start stop S x₀ (start a) := by
    clear hlt
    induction hy with
    | refl => exact .inl hle
    | @tail b c hb hj ih =>
      rcases ih with hba | hreach
      swap
      · exact .inr hreach
      rcases hba.lt_or_eq with hlt | rfl
      · obtain ⟨e, ht, rfl⟩ := hj
        exact .inl (hapart e ht.mem (ht.start_le.trans_lt hlt))
      · exact .inr hb
  rcases hstop with hya | hreach
  · omega
  · obtain ⟨f, _, haf, hfa, _⟩ := h.covered _ hreach le_rfl (Nat.le_add_right _ _)
    omega

/-- A sweep gets no further than the intervals do. -/
theorem Reaches.le_of_stop {b : ℕ} (hstop : ∀ e ∈ S, stop e ≤ b) (hx : x ≤ b)
    (h : Reaches start stop S x y) : y ≤ b := by
  induction h with
  | refl => exact hx
  | tail _ hj _ =>
    obtain ⟨e, ht, rfl⟩ := hj
    exact hstop e ht.mem

/-- An interval is not overtaken where all end at most `w` past its start. -/
theorem not_overtaken_of_short {w : ℕ} {a : E} (hstop : ∀ e ∈ S, stop e ≤ start a + w)
    (hle : x₀ ≤ start a + w) : ¬ Overtaken start stop S w x₀ a := by
  intro h
  obtain ⟨y, hy, hlt⟩ := h.past
  exact absurd (hy.le_of_stop hstop hle) (not_le.2 hlt)

end Facts

/-- A sweep from `x₀` over `S` has come to `x`, with the intervals `R` left. -/
structure Progress (start stop : E → ℕ) (S : Set E) (w x₀ x : ℕ) (R : Set E) : Prop where
  reaches : Reaches start stop S x₀ x
  subset : R ⊆ S
  gone : ∀ e ∈ S, e ∉ R → stop e ≤ x
  left : ∀ a ∈ R, ∀ y, Reaches start stop S x₀ y → y < x → start a ≤ y → y ≤ start a + w →
    ∃ f ∈ S, start a < start f ∧ start f ≤ y ∧ y < stop f
  removed : ∀ a ∈ S, a ∉ R → ∃ y, Reaches start stop S x₀ y ∧ start a ≤ y ∧ y ≤ start a + w
    ∧ ∀ f ∈ S, start f ≤ y → y < stop f → start f ≤ start a

/-- The interval a loop takes up: it starts last among those that start within `w`. -/
structure Candidate (start : E → ℕ) (w x : ℕ) (R : Set E) (c : E) : Prop where
  mem : c ∈ R
  start_le : start c ≤ x
  near : x ≤ start c + w
  last : ∀ f ∈ R, start f ≤ x → x ≤ start f + w → start f ≤ start c

section Loop

variable {start stop : E → ℕ} {S R : Set E} {w x₀ x : ℕ} {c : E}

theorem Progress.init (start stop : E → ℕ) (S : Set E) (w x₀ : ℕ) :
    Progress start stop S w x₀ x₀ S where
  reaches := .refl
  subset := subset_rfl
  gone := fun _ he hn => absurd he hn
  left := fun _ _ _ hy hlt => absurd (Reaches.le hy) (not_le.2 hlt)
  removed := fun _ he hn => absurd he hn

/-- What contains the position is left, and starts no later than the candidate. -/
theorem Progress.start_le (h : Progress start stop S w x₀ x R)
    (hw : ∀ e ∈ S, stop e ≤ start e + w) (hc : Candidate start w x R c) {f : E} (hf : f ∈ S)
    (hle : start f ≤ x) (hlt : x < stop f) : start f ≤ start c := by
  have hR : f ∈ R := by
    by_contra hn
    exact absurd (h.gone f hf hn) (not_le.2 hlt)
  exact hc.last f hR hle (hlt.le.trans (hw f hf))

theorem Progress.removed_insert (h : Progress start stop S w x₀ x R)
    (hw : ∀ e ∈ S, stop e ≤ start e + w) (hc : Candidate start w x R c) :
    ∀ a ∈ S, a ∉ R \ {c} → ∃ y, Reaches start stop S x₀ y ∧ start a ≤ y ∧ y ≤ start a + w
      ∧ ∀ f ∈ S, start f ≤ y → y < stop f → start f ≤ start a := by
  intro a ha hn
  by_cases haR : a ∈ R
  · have hac : a = c := by
      by_contra hne
      exact hn ⟨haR, hne⟩
    rw [hac]
    exact ⟨x, h.reaches, hc.start_le, hc.near, fun f hf hle hlt => h.start_le hw hc hf hle hlt⟩
  · exact h.removed a ha haR

/-- A candidate that ends before the position is removed. -/
theorem Progress.remove (h : Progress start stop S w x₀ x R)
    (hw : ∀ e ∈ S, stop e ≤ start e + w) (hc : Candidate start w x R c) (hstop : stop c ≤ x) :
    Progress start stop S w x₀ x (R \ {c}) where
  reaches := h.reaches
  subset := fun e he => h.subset he.1
  gone := by
    intro e he hn
    by_cases heR : e ∈ R
    · have hec : e = c := by
        by_contra hne
        exact hn ⟨heR, hne⟩
      rw [hec]
      exact hstop
    · exact h.gone e he heR
  left := fun a ha => h.left a ha.1
  removed := h.removed_insert hw hc

/-- A candidate that contains the position is taken up, and the sweep jumps to its end. -/
theorem Progress.take (h : Progress start stop S w x₀ x R) (hu : Set.InjOn start S)
    (hw : ∀ e ∈ S, stop e ≤ start e + w) (hc : Candidate start w x R c) (hstop : x < stop c) :
    Progress start stop S w x₀ (stop c) (R \ {c}) := by
  have hcS := h.subset hc.mem
  have hjump : Jump start stop S x (stop c) :=
    ⟨c, ⟨hcS, hc.start_le, hstop, fun f hf hle hlt => h.start_le hw hc hf hle hlt⟩, rfl⟩
  refine ⟨h.reaches.tail hjump, fun e he => h.subset he.1, fun e he hn => ?_,
    fun a ha y hy hlt hay hyw => ?_, h.removed_insert hw hc⟩
  · by_cases heR : e ∈ R
    · have hec : e = c := by
        by_contra hne
        exact hn ⟨heR, hne⟩
      rw [hec]
    · exact (h.gone e he heR).trans hstop.le
  · rcases lt_trichotomy y x with hyx | rfl | hxy
    · exact h.left a ha.1 y hy hyx hay hyw
    · -- `a` starts within `w` but is not the candidate, so the candidate starts later
      have hle := hc.last a ha.1 hay hyw
      have hne : start a ≠ start c := fun heq => ha.2 (hu (h.subset ha.1) hcS heq)
      exact ⟨c, hcS, lt_of_le_of_ne hle hne, hc.start_le, hstop⟩
    · exact absurd (Reaches.le_of_lt hu h.reaches hjump hy hxy) (not_le.2 hlt)

/-- When nothing is left to take up, what lies more than `w` back was overtaken, and only that. -/
theorem Progress.overtaken_iff (h : Progress start stop S w x₀ x R) (hu : Set.InjOn start S)
    (hw : ∀ e ∈ S, stop e ≤ start e + w)
    (hnone : ∀ f ∈ R, start f ≤ x → ¬ x ≤ start f + w) {a : E} :
    Overtaken start stop S w x₀ a ↔ a ∈ R ∧ start a + w < x := by
  have hend : ∀ y, Reaches start stop S x₀ y → y ≤ x := by
    intro y hy
    rcases Relation.ReflTransGen.total_of_right_unique (Jump.rightUnique hu) hy h.reaches with
      hyx | hxy
    · exact Reaches.le hyx
    · rcases Relation.ReflTransGen.cases_head hxy with rfl | ⟨z, ⟨e, ht, _⟩, _⟩
      · exact le_rfl
      · have heR : e ∈ R := by
          by_contra hn
          exact absurd (h.gone e ht.mem hn) (not_le.2 ht.lt_stop)
        exact absurd (ht.lt_stop.le.trans (hw e ht.mem)) (hnone e heR ht.start_le)
  constructor
  · intro ho
    obtain ⟨y, hy, hlt⟩ := ho.past
    refine ⟨?_, hlt.trans_le (hend y hy)⟩
    by_contra hn
    obtain ⟨z, hz, haz, hzw, hlast⟩ := h.removed a ho.mem hn
    obtain ⟨f, hf, haf, hfz, hzf⟩ := ho.covered z hz haz hzw
    exact absurd (hlast f hf hfz hzf) (not_le.2 haf)
  · rintro ⟨ha, hlt⟩
    exact ⟨h.subset ha, ⟨x, h.reaches, hlt⟩,
      fun y hy hay hyw => h.left a ha y hy (hyw.trans_lt hlt) hay hyw⟩

end Loop

end Sweep
