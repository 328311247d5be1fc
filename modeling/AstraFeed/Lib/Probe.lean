import Mathlib.Data.Finset.Card
import Mathlib.Data.Finset.Range
import Mathlib.Data.Set.Card
import Mathlib.Logic.Function.Basic
import Mathlib.Tactic.Ring

/-!
# Linear probing in a ring

Entries are kept in a ring of `n` slots, each as near after the home slot of its key as it was free.
`Ok` says that no slot between an entry and its home is free, so a walk from the home that meets a
free slot has missed nothing. Erasing leaves a hole that is shifted along the ring; `Hole` is the
invariant of that walk.
-/

namespace Probe

open Function

/-- The slot `d` steps after `a`. -/
def walk (n a d : ℕ) : ℕ := if a + d < n then a + d else a + d - n

/-- The steps from `a` to `b`. -/
def dist (n a b : ℕ) : ℕ := if a ≤ b then b - a else b + n - a

section Ring

variable {n a b c d : ℕ}

theorem walk_lt (ha : a < n) (hd : d < n) : walk n a d < n := by
  unfold walk
  split_ifs <;> omega

theorem dist_lt (ha : a < n) (hb : b < n) : dist n a b < n := by
  unfold dist
  split_ifs <;> omega

theorem walk_dist (ha : a < n) (hb : b < n) : walk n a (dist n a b) = b := by
  unfold walk dist
  split_ifs <;> omega

theorem dist_walk (ha : a < n) (hd : d < n) : dist n a (walk n a d) = d := by
  unfold walk dist
  split_ifs <;> omega

/-- The way on from `b`, met on the way from `a`, adds up. -/
theorem dist_add (ha : a < n) (hb : b < n) (hc : c < n) (h : dist n a b ≤ dist n a c) :
    dist n a b + dist n b c = dist n a c := by
  unfold dist at *
  split_ifs at * <;> omega

theorem dist_self : dist n a a = 0 := by
  unfold dist
  split_ifs <;> omega

theorem dist_eq_zero (ha : a < n) (h : dist n a b = 0) : a = b := by
  unfold dist at h
  split_ifs at h <;> omega

end Ring

section Table

variable {K E : Type*} (n : ℕ) (home : K → ℕ) (key : E → K) (slots : ℕ → Option E)

structure Ok : Prop where
  unique : ∀ i < n, ∀ j < n, ∀ a b, slots i = some a → slots j = some b → key a = key b → i = j
  reach : ∀ j < n, ∀ e, slots j = some e → ∀ d < dist n (home (key e)) j,
    slots (walk n (home (key e)) d) ≠ none

/-- The table holds an entry. -/
def Has (e : E) : Prop := ∃ i < n, slots i = some e

/-- The number of entries. -/
def count : ℕ := ((Finset.range n).filter fun i => (slots i).isSome).card

/-- The free slot `g` may lie between an entry and its home, but for the entries up to `t` steps
after it. -/
structure Hole (g t : ℕ) : Prop where
  free : slots g = none
  unique : ∀ i < n, ∀ j < n, ∀ a b, slots i = some a → slots j = some b → key a = key b → i = j
  reach : ∀ j < n, ∀ e, slots j = some e → ∀ d < dist n (home (key e)) j,
    walk n (home (key e)) d = g ∨ slots (walk n (home (key e)) d) ≠ none
  passed : ∀ j < n, ∀ e, slots j = some e → dist n g j < t →
    ¬ dist n (home (key e)) g < dist n (home (key e)) j

/-- No slot between an entry and its home is `z`. A free slot is such a seam, and it stays one when
the last free slot is filled, so a full table has one too. -/
def Seam (z : ℕ) : Prop :=
  ∀ j < n, ∀ e, slots j = some e → ∀ d < dist n (home (key e)) j, walk n (home (key e)) d ≠ z

end Table

section Lemmas

variable {K E : Type*} {n : ℕ} {home : K → ℕ} {key : E → K} {slots : ℕ → Option E}

/-! ## Looking up -/

/-- A walk that meets a free slot before the key has missed nothing. -/
theorem Ok.absent_of_free (h : Ok n home key slots) (hhome : ∀ k, home k < n) {k : K} {d : ℕ}
    (hfree : slots (walk n (home k) d) = none)
    (hbefore : ∀ d' < d, ∀ e, slots (walk n (home k) d') = some e → key e ≠ k) {e : E}
    (he : Has n slots e) : key e ≠ k := by
  rintro rfl
  obtain ⟨j, hj, hs⟩ := he
  have hw := walk_dist (hhome (key e)) hj
  rcases Nat.lt_trichotomy (dist n (home (key e)) j) d with hlt | heq | hgt
  · exact hbefore _ hlt e (by rw [hw, hs]) rfl
  · rw [← heq, hw, hs] at hfree
    cases hfree
  · exact h.reach j hj e hs d hgt hfree

/-- So has a walk round the whole ring. -/
theorem absent_of_round (hhome : ∀ k, home k < n) {k : K}
    (hbefore : ∀ d < n, ∀ e, slots (walk n (home k) d) = some e → key e ≠ k) {e : E}
    (he : Has n slots e) : key e ≠ k := by
  rintro rfl
  obtain ⟨j, hj, hs⟩ := he
  refine hbefore _ (dist_lt (hhome (key e)) hj) e ?_ rfl
  rw [walk_dist (hhome (key e)) hj, hs]

/-! ## Placing -/

/-- Only the keys of the entries matter. -/
theorem Ok.of_key (h : Ok n home key slots) {key' : E → K}
    (hkey : ∀ e, Has n slots e → key' e = key e) : Ok n home key' slots where
  unique := by
    intro i hi j hj a b ha hb hk
    rw [hkey a ⟨i, hi, ha⟩, hkey b ⟨j, hj, hb⟩] at hk
    exact h.unique i hi j hj a b ha hb hk
  reach := by
    intro j hj e he
    rw [hkey e ⟨j, hj, he⟩]
    exact h.reach j hj e he

theorem Ok.place (h : Ok n home key slots) (hhome : ∀ k, home k < n) {e : E} {d : ℕ} (hd : d < n)
    (hbefore : ∀ d' < d, slots (walk n (home (key e)) d') ≠ none)
    (habsent : ∀ a, Has n slots a → key a ≠ key e) :
    Ok n home key (update slots (walk n (home (key e)) d) (some e)) where
  unique := by
    intro i hi j hj a b ha hb hk
    rw [update_apply] at ha hb
    split_ifs at ha hb with hi' hj' hj'
    · rw [hi', hj']
    · obtain rfl := Option.some_inj.1 ha
      exact absurd hk.symm (habsent b ⟨j, hj, hb⟩)
    · obtain rfl := Option.some_inj.1 hb
      exact absurd hk (habsent a ⟨i, hi, ha⟩)
    · exact h.unique i hi j hj a b ha hb hk
  reach := by
    intro j hj a ha d' hd'
    rw [update_apply] at ha ⊢
    split_ifs with hw
    · simp
    · split_ifs at ha with hj'
      · obtain rfl := Option.some_inj.1 ha
        rw [hj', dist_walk (hhome _) hd] at hd'
        exact hbefore d' hd'
      · exact h.reach j hj a ha d' hd'

theorem has_update_some {i : ℕ} (hi : i < n) (hfree : slots i = none) {e a : E} :
    Has n (update slots i (some e)) a ↔ a = e ∨ Has n slots a := by
  constructor
  · rintro ⟨j, hj, hs⟩
    rw [update_apply] at hs
    split_ifs at hs
    · exact .inl (Option.some_inj.1 hs).symm
    · exact .inr ⟨j, hj, hs⟩
  · rintro (rfl | ⟨j, hj, hs⟩)
    · exact ⟨i, hi, update_self ..⟩
    · refine ⟨j, hj, ?_⟩
      rw [update_of_ne, hs]
      rintro rfl
      rw [hfree] at hs
      cases hs

/-! ## Erasing -/

/-- The table without its entry at `g`. -/
theorem Ok.hole (h : Ok n home key slots) {g : ℕ} : Hole n home key (update slots g none) g 1 where
  free := update_self ..
  unique := by
    intro i hi j hj a b ha hb
    rw [update_apply] at ha hb
    split_ifs at ha hb
    exact h.unique i hi j hj a b ha hb
  reach := by
    intro j hj e he d hd
    rw [update_apply] at he ⊢
    split_ifs at he with hj'
    split_ifs with hw
    · exact .inl hw
    · exact .inr (h.reach j hj e he d hd)
  passed := by
    intro j hj e he hlt hd
    rw [update_apply] at he
    split_ifs at he with hj'
    refine hj' ?_
    by_contra
    unfold dist at hlt hd
    split_ifs at hlt hd <;> omega

/-- An entry that the hole does not part from its home stays. -/
theorem Hole.skip {g t : ℕ} (h : Hole n home key slots g t) (hg : g < n) {e : E}
    (he : slots (walk n g t) = some e)
    (hstay : ¬ dist n (home (key e)) g < dist n (home (key e)) (walk n g t)) :
    Hole n home key slots g (t + 1) where
  free := h.free
  unique := h.unique
  reach := h.reach
  passed := by
    intro j hj a ha hlt
    rcases Nat.lt_succ_iff_lt_or_eq.1 hlt with hlt | heq
    · exact h.passed j hj a ha hlt
    · have hj' : walk n g t = j := by rw [← heq, walk_dist hg hj]
      rw [hj', ha] at he
      obtain rfl := Option.some_inj.1 he
      rwa [← hj']

/-- An entry that the hole parts from its home moves into it. -/
theorem Hole.shift {g t : ℕ} (h : Hole n home key slots g t) (hg : g < n) (h0 : 0 < t)
    (ht : t < n) {e : E} (he : slots (walk n g t) = some e)
    (hmove : dist n (home (key e)) g < dist n (home (key e)) (walk n g t)) :
    Hole n home key (update (update slots g (some e)) (walk n g t) none) (walk n g t) 1 := by
  have hs := walk_lt hg ht
  have hne : walk n g t ≠ g := by
    unfold walk
    split_ifs <;> omega
  -- where an entry of the new table was before
  have hwas : ∀ i a, update (update slots g (some e)) (walk n g t) none i = some a →
      i ≠ walk n g t ∧ (i = g ∧ a = e ∨ i ≠ g ∧ slots i = some a) := by
    intro i a ha
    rw [update_apply] at ha
    split_ifs at ha with h1
    rw [update_apply] at ha
    split_ifs at ha with h2
    · exact ⟨h1, .inl ⟨h2, (Option.some_inj.1 ha).symm⟩⟩
    · exact ⟨h1, .inr ⟨h2, ha⟩⟩
  have hocc : ∀ i, i = g ∨ slots i ≠ none →
      i = walk n g t ∨ update (update slots g (some e)) (walk n g t) none i ≠ none := by
    intro i hi
    by_cases h1 : i = walk n g t
    · exact .inl h1
    · right
      rw [update_of_ne h1, update_apply]
      split_ifs with h2
      · simp
      · exact hi.resolve_left h2
  refine ⟨update_self .., ?_, ?_, ?_⟩
  · intro i hi j hj a b ha hb hk
    obtain ⟨hiw, ⟨hig, hae⟩ | ⟨_, ha⟩⟩ := hwas i a ha
    · obtain ⟨hjw, ⟨hjg, _⟩ | ⟨_, hb⟩⟩ := hwas j b hb
      · rw [hig, hjg]
      · exact absurd (h.unique _ hs j hj _ _ he hb (hae ▸ hk)).symm hjw
    · obtain ⟨_, ⟨_, hbe⟩ | ⟨_, hb⟩⟩ := hwas j b hb
      · exact absurd (h.unique i hi _ hs _ _ ha he (hbe ▸ hk)) hiw
      · exact h.unique i hi j hj a b ha hb hk
  · intro j hj a ha d hd
    obtain ⟨hjw, ⟨rfl, rfl⟩ | ⟨hjg, ha⟩⟩ := hwas j a ha
    · exact hocc _ (h.reach _ hs _ he d (hd.trans hmove))
    · exact hocc _ (h.reach j hj a ha d hd)
  · intro j hj a ha hlt
    obtain ⟨hjw, _⟩ := hwas j a ha
    exact absurd (dist_eq_zero hs (Nat.lt_one_iff.1 hlt)).symm hjw

/-- The walk ends at a free slot, or when it is back at the hole. -/
theorem Hole.finish {g t : ℕ} (h : Hole n home key slots g t) (hhome : ∀ k, home k < n) (hg : g < n)
    (h0 : 0 < t) (hend : n ≤ t ∨ slots (walk n g t) = none) : Ok n home key slots where
  unique := h.unique
  reach := by
    intro j hj e he d hd
    rcases h.reach j hj e he d hd with hw | hocc
    swap
    · exact hocc
    -- the hole would part the entry from its home, so it was not passed
    exfalso
    have hdn := hd.trans (dist_lt (hhome (key e)) hj)
    have hdg : dist n (home (key e)) g = d := by rw [← hw, dist_walk (hhome (key e)) hdn]
    have hle : t ≤ dist n g j := by
      by_contra hlt
      exact h.passed j hj e he (not_le.1 hlt) (by omega)
    have htn : t < n := hle.trans_lt (dist_lt hg hj)
    have hfree := hend.resolve_left (not_le.2 htn)
    have hs := walk_lt hg htn
    have hadd := dist_add (hhome (key e)) hg hj (by omega)
    have hdt : dist n g (walk n g t) = t := dist_walk hg htn
    rcases Nat.lt_or_eq_of_le hle with hlt | heq
    · have hds : dist n (home (key e)) (walk n g t) = d + t := by
        rw [← hdg]
        unfold dist walk at *
        split_ifs at * <;> omega
      rcases h.reach j hj e he (d + t) (by omega) with hw' | hocc
      · rw [← hds, walk_dist (hhome (key e)) hs] at hw'
        rw [hw', dist_self] at hdt
        omega
      · rw [← hds, walk_dist (hhome (key e)) hs] at hocc
        exact hocc hfree
    · rw [heq, walk_dist hg hj, he] at hfree
      cases hfree

/-! ## Seams -/

theorem Ok.seam_of_free (h : Ok n home key slots) {z : ℕ} (hfree : slots z = none) :
    Seam n home key slots z := by
  rintro j hj e he d hd rfl
  exact h.reach j hj e he d hd hfree

/-- Filling a free slot from its walk leaves a seam there. -/
theorem Ok.seam_place (h : Ok n home key slots) (hhome : ∀ k, home k < n) {e : E} {d : ℕ}
    (hd : d < n) (hfree : slots (walk n (home (key e)) d) = none) :
    Seam n home key (update slots (walk n (home (key e)) d) (some e))
      (walk n (home (key e)) d) := by
  intro j hj a ha d' hd' hw
  rw [update_apply] at ha
  split_ifs at ha with hj'
  · obtain rfl := Option.some_inj.1 ha
    rw [hj', dist_walk (hhome _) hd] at hd'
    have := congrArg (dist n (home (key e))) hw
    rw [dist_walk (hhome _) (hd'.trans hd), dist_walk (hhome _) hd] at this
    omega
  · exact h.seam_of_free hfree j hj a ha d' hd' hw

theorem Seam.update_none {z : ℕ} (h : Seam n home key slots z) (i : ℕ) :
    Seam n home key (update slots i none) z := by
  intro j hj e he
  rw [update_apply] at he
  split_ifs at he
  exact h j hj e he

/-- A slot that parts an entry from its home is no further before it than the seam. -/
theorem Seam.dist_le {z g j : ℕ} (h : Seam n home key slots z) (hhome : ∀ k, home k < n)
    (hz : z < n) (hg : g < n) (hj : j < n) {e : E} (he : slots j = some e)
    (hparted : dist n (home (key e)) g < dist n (home (key e)) j) : dist n g j ≤ dist n g z := by
  by_contra hlt
  have hhe := hhome (key e)
  have hdz : dist n (home (key e)) z < dist n (home (key e)) j := by
    unfold dist at *
    split_ifs at * <;> omega
  exact h j hj e he _ hdz (walk_dist hhe hz)

/-- An entry that moves into the hole comes nearer to its home. -/
theorem Seam.shift {z g s : ℕ} (h : Seam n home key slots z) (hs : s < n) {e : E}
    (he : slots s = some e) (hmove : dist n (home (key e)) g < dist n (home (key e)) s) :
    Seam n home key (update (update slots g (some e)) s none) z := by
  refine Seam.update_none ?_ s
  intro j hj a ha d hd
  rw [update_apply] at ha
  split_ifs at ha with hjg
  · obtain rfl := Option.some_inj.1 ha
    exact h s hs e he d (hd.trans (hjg ▸ hmove))
  · exact h j hj a ha d hd

/-- The walk may also end once it has passed a seam. -/
theorem Hole.finish_of_seam {g t z : ℕ} (h : Hole n home key slots g t) (hhome : ∀ k, home k < n)
    (hg : g < n) (hz : z < n) (hseam : Seam n home key slots z) (hpast : dist n g z < t) :
    Ok n home key slots where
  unique := h.unique
  reach := by
    intro j hj e he d hd
    rcases h.reach j hj e he d hd with hw | hocc
    swap
    · exact hocc
    have hdg : dist n (home (key e)) g = d := by
      rw [← hw, dist_walk (hhome (key e)) (hd.trans (dist_lt (hhome (key e)) hj))]
    have hle := hseam.dist_le hhome hz hg hj he (hdg ▸ hd)
    exact absurd (hdg ▸ hd) (h.passed j hj e he (hle.trans_lt hpast))

theorem Ok.has_update_none (h : Ok n home key slots) {i : ℕ} (hi : i < n) {e a : E}
    (he : slots i = some e) : Has n (update slots i none) a ↔ Has n slots a ∧ key a ≠ key e := by
  constructor
  · rintro ⟨j, hj, hs⟩
    rw [update_apply] at hs
    split_ifs at hs with hji
    exact ⟨⟨j, hj, hs⟩, fun hk => hji (h.unique j hj i hi a e hs he hk)⟩
  · rintro ⟨⟨j, hj, hs⟩, hk⟩
    refine ⟨j, hj, ?_⟩
    rw [update_of_ne, hs]
    rintro rfl
    rw [he] at hs
    exact hk (congrArg key (Option.some_inj.1 hs)).symm

theorem has_shift {g s : ℕ} (hg : g < n) (hs : s < n) (hne : s ≠ g) (hfree : slots g = none) {e a : E}
    (he : slots s = some e) :
    Has n (update (update slots g (some e)) s none) a ↔ Has n slots a := by
  constructor
  · rintro ⟨j, hj, ha⟩
    rw [update_apply] at ha
    split_ifs at ha
    rw [update_apply] at ha
    split_ifs at ha
    · obtain rfl := Option.some_inj.1 ha
      exact ⟨s, hs, he⟩
    · exact ⟨j, hj, ha⟩
  · rintro ⟨j, hj, ha⟩
    by_cases hjs : j = s
    · rw [hjs, he] at ha
      obtain rfl := Option.some_inj.1 ha
      exact ⟨g, hg, by rw [update_of_ne hne.symm, update_self]⟩
    · refine ⟨j, hj, ?_⟩
      rw [update_of_ne hjs, update_of_ne, ha]
      rintro rfl
      rw [hfree] at ha
      cases ha

/-! ## Counting -/

theorem count_update_some {i : ℕ} (hi : i < n) (hfree : slots i = none) (e : E) :
    count n (update slots i (some e)) = count n slots + 1 := by
  unfold count
  have hfilter : ((Finset.range n).filter fun j => (update slots i (some e) j).isSome)
      = insert i ((Finset.range n).filter fun j => (slots j).isSome) := by
    ext j
    rw [Finset.mem_insert, Finset.mem_filter, Finset.mem_filter, Finset.mem_range, update_apply]
    split_ifs with hj
    · simp [hj, hi]
    · simp [hj]
  rw [hfilter, Finset.card_insert_of_notMem]
  simp [hfree]

theorem count_update_none {i : ℕ} (hi : i < n) {e : E} (he : slots i = some e) :
    count n (update slots i none) + 1 = count n slots := by
  have h : count n (update (update slots i none) i (some e)) = count n (update slots i none) + 1 :=
    count_update_some hi (update_self ..) e
  rw [update_idem, ← he, update_eq_self] at h
  exact h.symm

theorem count_shift {g s : ℕ} (hg : g < n) (hs : s < n) (hne : s ≠ g) (hfree : slots g = none)
    {e : E} (he : slots s = some e) :
    count n (update (update slots g (some e)) s none) = count n slots := by
  have h1 := count_update_some hg hfree e
  have hstored : update slots g (some e) s = some e := by rw [update_of_ne hne, he]
  have h2 := count_update_none hs hstored
  omega

theorem count_eq_zero : count n slots = 0 ↔ ∀ e, ¬ Has n slots e := by
  unfold count
  rw [Finset.card_eq_zero, Finset.filter_eq_empty_iff]
  constructor
  · rintro h e ⟨i, hi, he⟩
    exact h (Finset.mem_range.2 hi) (by rw [he]; rfl)
  · intro h i hi hs
    obtain ⟨e, he⟩ := Option.isSome_iff_exists.1 hs
    exact h e ⟨i, Finset.mem_range.1 hi, he⟩

/-- There are as many keys as entries. -/
theorem Ok.ncard_keys (h : Ok n home key slots) :
    {k | ∃ e, Has n slots e ∧ key e = k}.ncard = count n slots := by
  have himage : some '' {k | ∃ e, Has n slots e ∧ key e = k} = (fun i => (slots i).map key) ''
      ((Finset.range n).filter fun i => (slots i).isSome : Finset ℕ) := by
    ext o
    simp only [Set.mem_image, Set.mem_ofPred_eq, Finset.coe_filter, Finset.mem_range]
    constructor
    · rintro ⟨_, ⟨e, ⟨i, hi, he⟩, rfl⟩, rfl⟩
      exact ⟨i, ⟨hi, by rw [he]; rfl⟩, by rw [he]; rfl⟩
    · rintro ⟨i, ⟨hi, hs⟩, rfl⟩
      obtain ⟨e, he⟩ := Option.isSome_iff_exists.1 hs
      exact ⟨key e, ⟨e, ⟨i, hi, he⟩, rfl⟩, by rw [he]; rfl⟩
  rw [← Set.ncard_image_of_injective _ (Option.some_injective K), himage,
    Set.InjOn.ncard_image, Set.ncard_coe_finset, count]
  intro i hi j hj heq
  simp only [Finset.coe_filter, Finset.mem_range, Set.mem_ofPred_eq] at hi hj
  obtain ⟨a, ha⟩ := Option.isSome_iff_exists.1 hi.2
  obtain ⟨b, hb⟩ := Option.isSome_iff_exists.1 hj.2
  simp only [ha, hb, Option.map_some, Option.some_inj] at heq
  exact h.unique i hi.1 j hj.1 a b ha hb heq

theorem count_le : count n slots ≤ n := by
  unfold count
  exact (Finset.card_filter_le _ _).trans_eq (Finset.card_range n)

/-- A table with a free slot is not full. -/
theorem count_lt {i : ℕ} (hi : i < n) (hfree : slots i = none) : count n slots < n := by
  have hne : ((Finset.range n).filter fun j => (slots j).isSome) ⊂ Finset.range n := by
    refine Finset.filter_ssubset.2 ⟨i, Finset.mem_range.2 hi, ?_⟩
    simp [hfree]
  exact (Finset.card_lt_card hne).trans_eq (Finset.card_range n)

theorem exists_free (h : count n slots < n) : ∃ i < n, slots i = none := by
  by_contra hn
  have hfull : ((Finset.range n).filter fun i => (slots i).isSome) = Finset.range n := by
    refine Finset.filter_true_of_mem fun i hi => ?_
    rw [Option.isSome_iff_ne_none]
    exact fun hs => hn ⟨i, Finset.mem_range.1 hi, hs⟩
  rw [count, hfull, Finset.card_range] at h
  exact lt_irrefl n h

end Lemmas

end Probe
