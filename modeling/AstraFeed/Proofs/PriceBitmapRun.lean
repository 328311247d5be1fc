import AstraFeed.PriceBitmapRun
import AstraFeed.Proofs.PriceBitmap

/-!
# Every history of the bitmap is that of an ordered set

Each call keeps the levels consistent, does to the members what it does to the set, and writes only
words the storage has. By induction on the history, every search answers from the set alone.
-/

namespace AstraFeed

namespace PriceBitmap

variable {s : PriceBitmapStorage} {held : Finset ℕ} {op : PriceBitmapOp} {ops : List PriceBitmapOp}

/-- The storage holds a set. -/
structure Holds (s : PriceBitmapStorage) (held : Finset ℕ) : Prop where
  consistent : Consistent s
  members : members s = held
  beyond : SameBeyond zero s

theorem holds_zero : Holds zero ∅ := ⟨consistent_zero, members_zero, SameBeyond.refl zero⟩

theorem Holds.step (h : Holds s held) (hop : op.idx < kNumBits) :
    Holds (step s op) (hold held op) := by
  cases op with
  | set idx =>
    refine ⟨consistent_set idx h.consistent, ?_, h.beyond.trans (sameBeyond_set hop)⟩
    exact (members_set hop).trans (by rw [h.members]; rfl)
  | reset idx =>
    refine ⟨consistent_reset idx h.consistent, ?_, h.beyond.trans (sameBeyond_reset hop)⟩
    exact members_reset.trans (by rw [h.members]; rfl)

theorem holds_run (hops : ∀ op ∈ ops, op.idx < kNumBits) : Holds (run ops) (heldBy ops) := by
  suffices h : ∀ (ops : List PriceBitmapOp) (s : PriceBitmapStorage) (held : Finset ℕ),
      (∀ op ∈ ops, op.idx < kNumBits) → Holds s held →
      Holds (ops.foldl PriceBitmap.step s) (ops.foldl hold held) from
    h ops zero ∅ hops holds_zero
  intro ops
  induction ops with
  | nil => exact fun _ _ _ h => h
  | cons op ops ih =>
    intro s held hops h
    have hop := hops op (by simp)
    exact ih _ _ (fun o ho => hops o (by simp [ho])) (h.step hop)

/-! ## What a stored set answers -/

theorem Holds.test_iff (h : Holds s held) {i : ℕ} (hi : i < kNumBits) :
    test s i = true ↔ i ∈ held := by
  rw [← h.members, mem_members]
  simp [hi]

theorem Holds.empty_iff (h : Holds s held) : empty s = true ↔ held = ∅ := by
  rw [PriceBitmap.empty_iff h.consistent, h.members]

theorem Holds.l2_clear (h : Holds s held) {b : ℕ} (hb : kL1Words ≤ b) : s.l2.getLsbD b = false := by
  rw [h.beyond.l2 b hb]
  simp [zero]

theorem Holds.highest (h : Holds s held) (q : ℕ) :
    (findHighestAtOrBelow s q = kInvalid ∧ ∀ i ∈ held, q < i)
      ∨ IsGreatest {i | i ∈ held ∧ i ≤ q} (findHighestAtOrBelow s q) := by
  have hspec := findHighestAtOrBelow_spec h.consistent q
  rw [IsHighestAtOrBelow, h.members] at hspec
  rcases hspec with hnone | ⟨hmem, hle, hmax⟩
  · exact .inl hnone
  · exact .inr ⟨⟨hmem, hle⟩, fun i hi => hmax i hi.1 hi.2⟩

theorem Holds.lowest (h : Holds s held) (q : ℕ) :
    (findLowestAtOrAbove s q = kInvalid ∧ ∀ i ∈ held, i < q)
      ∨ IsLeast {i | i ∈ held ∧ q ≤ i} (findLowestAtOrAbove s q) := by
  have hspec := findLowestAtOrAbove_spec h.consistent q
  rw [IsLowestAtOrAbove, h.members] at hspec
  rcases hspec with hnone | ⟨hmem, hle, hmin⟩
  · exact .inl hnone
  · exact .inr ⟨⟨hmem, hle⟩, fun i hi => hmin i hi.1 hi.2⟩

/-- A query past the last bit is one at the last bit downwards, and finds nothing upwards. -/
theorem find_of_kNumBits_le {q : ℕ} (hq : kNumBits ≤ q) :
    findHighestAtOrBelow s q = findHighestAtOrBelow s (kNumBits - 1)
      ∧ findLowestAtOrAbove s q = kInvalid := by
  constructor
  · have hlast : ¬ kNumBits ≤ kNumBits - 1 := by decide
    unfold findHighestAtOrBelow
    rw [if_pos hq, if_neg hlast]
  · unfold findLowestAtOrAbove
    rw [if_pos hq]

/-- After any history of calls on indices the bitmap has, the summary words are exact and every
query answers from the set held, on either side of any index. -/
theorem ordered_set (ops : List PriceBitmapOp) (hops : ∀ op ∈ ops, op.idx < kNumBits) :
    Consistent (run ops)
      ∧ (∀ b, kL1Words ≤ b → (run ops).l2.getLsbD b = false)
      ∧ (∀ i < kNumBits, test (run ops) i = true ↔ i ∈ heldBy ops)
      ∧ (empty (run ops) = true ↔ heldBy ops = ∅)
      ∧ (∀ q, (findHighestAtOrBelow (run ops) q = kInvalid ∧ ∀ i ∈ heldBy ops, q < i)
        ∨ IsGreatest {i | i ∈ heldBy ops ∧ i ≤ q} (findHighestAtOrBelow (run ops) q))
      ∧ (∀ q, (findLowestAtOrAbove (run ops) q = kInvalid ∧ ∀ i ∈ heldBy ops, i < q)
        ∨ IsLeast {i | i ∈ heldBy ops ∧ q ≤ i} (findLowestAtOrAbove (run ops) q))
      ∧ ∀ q, kNumBits ≤ q →
        findHighestAtOrBelow (run ops) q = findHighestAtOrBelow (run ops) (kNumBits - 1)
          ∧ findLowestAtOrAbove (run ops) q = kInvalid := by
  have h := holds_run hops
  exact ⟨h.consistent, fun b hb => h.l2_clear hb, fun i hi => h.test_iff hi, h.empty_iff,
    h.highest, h.lowest, fun q hq => find_of_kNumBits_le hq⟩

/-- The first bit, the last of a word, the first of the next word and of the next block, and the
last bit, one of them taken out again: the search from the bit taken out passes over 63 empty
words. -/
theorem ordered_set_edges :
    let ops : List PriceBitmapOp :=
      [.set 0, .set 63, .set 64, .set 4096, .set 65535, .reset 64]
    heldBy ops = {0, 63, 4096, 65535} ∧ Consistent (run ops)
      ∧ findHighestAtOrBelow (run ops) 4095 = 63 ∧ findLowestAtOrAbove (run ops) 64 = 4096 := by
  intro ops
  have hheld : heldBy ops = {0, 63, 4096, 65535} := by decide
  obtain ⟨hcons, -, -, -, hhigh, hlow, -⟩ := ordered_set ops (by decide)
  rw [hheld] at hhigh hlow
  refine ⟨hheld, hcons, ?_, ?_⟩
  · rcases hhigh 4095 with ⟨-, hnone⟩ | hgreatest
    · exact absurd (hnone 0 (by decide)) (by decide)
    · exact hgreatest.unique ⟨by decide, by rintro i ⟨hi, hle⟩; simp at hi; omega⟩
  · rcases hlow 64 with ⟨-, hnone⟩ | hleast
    · exact absurd (hnone 4096 (by decide)) (by decide)
    · exact hleast.unique ⟨by decide, by rintro i ⟨hi, hle⟩; simp at hi; omega⟩

end PriceBitmap

end AstraFeed
