import AstraFeed.PriceBitmap

/-!
# The price bitmap is an ordered set

`set` and `reset` keep the summary words consistent and change one member, and on consistent
storage the two searches return the nearest member on their side of the query.
-/

namespace AstraFeed

namespace PriceBitmap

open Function WordBits

variable {s : PriceBitmapStorage}

theorem shiftRight_six (i : ℕ) : i >>> 6 = i / 64 := by simp [Nat.shiftRight_eq_div_pow]

theorem and_sixtyThree (i : ℕ) : i &&& 63 = i % 64 := by
  have := Nat.and_two_pow_sub_one_eq_mod i 6
  simpa using this

theorem shiftLeft_or {a b : ℕ} (hb : b < 64) : a <<< 6 ||| b = a * 64 + b := by
  rw [Nat.shiftLeft_eq, Nat.mul_comm, ← Nat.two_pow_add_eq_or_of_lt (i := 6) (by simpa using hb)]

theorem test_eq (i : ℕ) : test s i = (s.l0 (i / 64)).getLsbD (i % 64) := by
  have hi : i % 64 < 64 := Nat.mod_lt _ (by decide)
  unfold test
  rw [shiftRight_six, and_sixtyThree]
  rcases hb : (s.l0 (i / 64)).getLsbD (i % 64) with _ | _
  · have : s.l0 (i / 64) >>> (i % 64) &&& 1#64 = 0#64 := by
      apply BitVec.eq_of_getLsbD_eq
      intro j hj
      rcases Nat.eq_zero_or_pos j with rfl | hj0
      · simp [hb]
      · have : j ≠ 0 := by omega
        simp [BitVec.getLsbD_one, this]
    simp [this]
  · have : s.l0 (i / 64) >>> (i % 64) &&& 1#64 ≠ 0#64 := by
      apply ne_zero_of_getLsbD (i := 0)
      simp [hb]
    simpa using this

theorem mem_members {i : ℕ} : i ∈ members s ↔ i < kNumBits ∧ test s i = true := by
  simp [members]

theorem consistent_zero : Consistent zero := by
  constructor <;> intro i _ <;> simp [zero]

theorem members_zero : members zero = ∅ := by
  ext i
  simp [mem_members, test_eq, zero]

/-! ## One bit set or cleared -/

theorem test_set {i j : ℕ} : test (set s i) j = (test s j || decide (j = i)) := by
  have hj : j % 64 < 64 := Nat.mod_lt _ (by decide)
  simp only [test_eq, set, shiftRight_six, and_sixtyThree]
  by_cases hw : j / 64 = i / 64
  · rw [hw, update_self, getLsbD_or_oneShift _ hj]
    congr 1
    simp only [decide_eq_decide]
    omega
  · have : j ≠ i := fun h => hw (by rw [h])
    rw [update_of_ne hw]
    simp [this]

theorem test_reset {i j : ℕ} : test (reset s i) j = (test s j && !decide (j = i)) := by
  have hj : j % 64 < 64 := Nat.mod_lt _ (by decide)
  have hl0 : (reset s i).l0 = update s.l0 (i / 64) (s.l0 (i / 64) &&& ~~~(1#64 <<< (i % 64))) := by
    simp only [reset, shiftRight_six, and_sixtyThree]
    split_ifs <;> rfl
  simp only [test_eq, hl0]
  by_cases hw : j / 64 = i / 64
  · rw [hw, update_self, getLsbD_and_not_oneShift _ hj]
    congr 2
    simp only [decide_eq_decide]
    omega
  · have : j ≠ i := fun h => hw (by rw [h])
    rw [update_of_ne hw]
    simp [this]

theorem members_set {i : ℕ} (hi : i < kNumBits) : members (set s i) = insert i (members s) := by
  ext j
  simp only [mem_members, test_set, Finset.mem_insert, Bool.or_eq_true, decide_eq_true_eq]
  constructor
  · rintro ⟨h1, h2 | h2⟩
    · exact .inr ⟨h1, h2⟩
    · exact .inl h2
  · rintro (rfl | ⟨h1, h2⟩)
    · exact ⟨hi, .inr rfl⟩
    · exact ⟨h1, .inl h2⟩

theorem members_reset {i : ℕ} : members (reset s i) = (members s).erase i := by
  ext j
  simp only [mem_members, test_reset, Finset.mem_erase, Bool.and_eq_true, Bool.not_eq_true',
    decide_eq_false_iff_not]
  tauto

theorem or_oneShift_ne_zero (x : BitVec 64) {b : ℕ} (hb : b < 64) : x ||| 1#64 <<< b ≠ 0#64 := by
  apply ne_zero_of_getLsbD (i := b)
  rw [getLsbD_or_oneShift _ hb]
  simp

theorem consistent_set (i : ℕ) (h : Consistent s) : Consistent (set s i) := by
  have hb0 : i % 64 < 64 := Nat.mod_lt _ (by decide)
  have hb1 : i / 64 % 64 < 64 := Nat.mod_lt _ (by decide)
  constructor
  · intro j hj
    simp only [set, shiftRight_six, and_sixtyThree, kL0Words] at hj ⊢
    have hjb : j % 64 < 64 := Nat.mod_lt _ (by decide)
    by_cases hji : j = i / 64
    · subst hji
      rw [update_self, update_self, getLsbD_or_oneShift _ hb1]
      simpa using or_oneShift_ne_zero (s.l0 (i / 64)) hb0
    · rw [update_of_ne hji, ← h.l1_bit j hj]
      by_cases hw : j / 64 = i / 64 / 64
      · have hne : j % 64 ≠ i / 64 % 64 := by omega
        rw [hw, update_self, getLsbD_or_oneShift _ hjb]
        simp [hne]
      · rw [update_of_ne hw]
  · intro j hj
    simp only [set, shiftRight_six, and_sixtyThree, kL1Words] at hj ⊢
    rw [getLsbD_or_oneShift _ (by omega)]
    by_cases hji : j = i / 64 / 64
    · subst hji
      rw [update_self]
      simpa using or_oneShift_ne_zero (s.l1 (i / 64 / 64)) hb1
    · rw [update_of_ne hji, ← h.l2_bit j hj]
      simp [hji]

theorem consistent_reset (i : ℕ) (h : Consistent s) : Consistent (reset s i) := by
  simp only [reset, shiftRight_six, and_sixtyThree, update_self]
  split_ifs with h0 h1
  · -- the word keeps a bit, so its summary bit was set and stays
    refine ⟨fun j hj => ?_, h.l2_bit⟩
    rw [h.l1_bit j hj]
    by_cases hji : j = i / 64
    · subst hji
      have hold : s.l0 (i / 64) ≠ 0#64 := by
        intro hz
        rw [hz] at h0
        simp at h0
      simp [h0, hold]
    · simp [update_of_ne hji]
  all_goals
    rw [not_not] at h0
    have hl1 : ∀ j < kL0Words, (update s.l1 (i / 64 / 64) (s.l1 (i / 64 / 64) &&&
        ~~~(1#64 <<< (i / 64 % 64))) (j / 64)).getLsbD (j % 64) = true ↔
        update s.l0 (i / 64) (s.l0 (i / 64) &&& ~~~(1#64 <<< (i % 64))) j ≠ 0#64 := by
      intro j hj
      have hjb : j % 64 < 64 := Nat.mod_lt _ (by decide)
      by_cases hji : j = i / 64
      · subst hji
        rw [update_self, update_self, getLsbD_and_not_oneShift _ hjb, h0]
        simp
      · rw [update_of_ne hji, ← h.l1_bit j hj]
        by_cases hw : j / 64 = i / 64 / 64
        · have hne : j % 64 ≠ i / 64 % 64 := by omega
          rw [hw, update_self, getLsbD_and_not_oneShift _ hjb]
          simp [hne]
        · rw [update_of_ne hw]
  · refine ⟨hl1, fun j hj => ?_⟩
    rw [h.l2_bit j hj]
    by_cases hji : j = i / 64 / 64
    · subst hji
      have hold : s.l1 (i / 64 / 64) ≠ 0#64 := by
        intro hz
        rw [hz] at h1
        simp at h1
      simp [h1, hold]
    · simp [update_of_ne hji]
  · rw [not_not] at h1
    refine ⟨hl1, fun j hj => ?_⟩
    have hj64 : j < 64 := by simp only [kL1Words] at hj; omega
    rw [getLsbD_and_not_oneShift _ hj64]
    by_cases hji : j = i / 64 / 64
    · subst hji
      simp [h1]
    · simp [hji, ← h.l2_bit j hj]

/-! ## The nearest member on one side -/

theorem getLsbD_maskAtOrBelow {b i : ℕ} (hb : b < 64) :
    (maskAtOrBelow b).getLsbD i = decide (i ≤ b) := by
  rw [maskAtOrBelow, getLsbD_allOnes_shiftRight, decide_eq_decide]
  omega

theorem getLsbD_maskBelow {b i : ℕ} (hb : b < 64) : (maskBelow b).getLsbD i = decide (i < b) := by
  unfold maskBelow
  split_ifs with h
  · simp [h]
  · rw [getLsbD_allOnes_shiftRight, decide_eq_decide]
    omega

theorem getLsbD_maskAtOrAbove {b i : ℕ} (hi : i < 64) :
    (maskAtOrAbove b).getLsbD i = decide (b ≤ i) :=
  getLsbD_allOnes_shiftLeft hi

theorem getLsbD_maskAbove {b i : ℕ} (hi : i < 64) :
    (maskAbove b).getLsbD i = decide (b < i) := by
  unfold maskAbove
  split_ifs with h
  · have : ¬ b < i := by omega
    simp [this]
  · rw [getLsbD_allOnes_shiftLeft hi, decide_eq_decide]
    omega

theorem getLsbD_kValidL2Mask {i : ℕ} : kValidL2Mask.getLsbD i = decide (i < kL1Words) := by
  rw [kValidL2Mask, getLsbD_allOnes_shiftRight, decide_eq_decide]
  simp only [kL1Words]
  omega

theorem l0_ne_zero_of_mem {i : ℕ} (hi : i ∈ members s) : s.l0 (i / 64) ≠ 0#64 := by
  rw [mem_members, test_eq] at hi
  exact ne_zero_of_getLsbD hi.2

theorem l1_bit_of_mem (h : Consistent s) {i : ℕ} (hi : i ∈ members s) :
    (s.l1 (i / 64 / 64)).getLsbD (i / 64 % 64) = true := by
  have hlt := (mem_members.1 hi).1
  simp only [kNumBits] at hlt
  exact (h.l1_bit _ (by simp only [kL0Words]; omega)).2 (l0_ne_zero_of_mem hi)

theorem l2_bit_of_mem (h : Consistent s) {i : ℕ} (hi : i ∈ members s) :
    (s.l2 &&& kValidL2Mask).getLsbD (i / 64 / 64) = true := by
  have hlt := (mem_members.1 hi).1
  simp only [kNumBits] at hlt
  have hw : i / 64 / 64 < kL1Words := by simp only [kL1Words]; omega
  have := (h.l2_bit _ hw).2 (ne_zero_of_getLsbD (l1_bit_of_mem h hi))
  rw [BitVec.getLsbD_and, getLsbD_kValidL2Mask, this]
  simp [hw]

/-- The highest and the lowest member of a nonzero word. -/
theorem word_bounds {w : ℕ} (hw : w < kL0Words) (h0 : s.l0 w ≠ 0#64) :
    w <<< 6 ||| bitHigh (s.l0 w) ∈ members s ∧ w <<< 6 ||| bitLow (s.l0 w) ∈ members s
      ∧ (∀ i ∈ members s, i / 64 ≤ w → i ≤ w <<< 6 ||| bitHigh (s.l0 w))
      ∧ (∀ i ∈ members s, w ≤ i / 64 → w <<< 6 ||| bitLow (s.l0 w) ≤ i)
      ∧ (w <<< 6 ||| bitHigh (s.l0 w)) / 64 = w ∧ (w <<< 6 ||| bitLow (s.l0 w)) / 64 = w := by
  have hh := bitHigh_lt h0
  have hl := bitLow_lt h0
  simp only [kL0Words] at hw
  rw [shiftLeft_or hh, shiftLeft_or hl]
  have dh : (w * 64 + bitHigh (s.l0 w)) / 64 = w := by omega
  have mh : (w * 64 + bitHigh (s.l0 w)) % 64 = bitHigh (s.l0 w) := by omega
  have dl : (w * 64 + bitLow (s.l0 w)) / 64 = w := by omega
  have ml : (w * 64 + bitLow (s.l0 w)) % 64 = bitLow (s.l0 w) := by omega
  refine ⟨?_, ?_, ?_, ?_, dh, dl⟩
  · rw [mem_members, test_eq, dh, mh]
    exact ⟨by simp only [kNumBits]; omega, getLsbD_bitHigh h0⟩
  · rw [mem_members, test_eq, dl, ml]
    exact ⟨by simp only [kNumBits]; omega, getLsbD_bitLow h0⟩
  · intro i hi hiw
    rw [mem_members, test_eq] at hi
    rcases Nat.lt_or_eq_of_le hiw with h | h
    · omega
    · have := le_bitHigh (h ▸ hi.2)
      omega
  · intro i hi hiw
    rw [mem_members, test_eq] at hi
    rcases Nat.lt_or_eq_of_le hiw with h | h
    · omega
    · have := bitLow_le (h ▸ hi.2)
      omega

/-- The highest and the lowest nonzero word under a nonzero summary word. -/
theorem block_bounds (h : Consistent s) {w : ℕ} (hw : w < kL1Words) (h0 : s.l1 w ≠ 0#64) :
    (w <<< 6 ||| bitHigh (s.l1 w) < kL0Words ∧ s.l0 (w <<< 6 ||| bitHigh (s.l1 w)) ≠ 0#64
      ∧ ∀ i ∈ members s, i / 64 / 64 ≤ w → i / 64 ≤ w <<< 6 ||| bitHigh (s.l1 w))
    ∧ (w <<< 6 ||| bitLow (s.l1 w) < kL0Words ∧ s.l0 (w <<< 6 ||| bitLow (s.l1 w)) ≠ 0#64
      ∧ ∀ i ∈ members s, w ≤ i / 64 / 64 → w <<< 6 ||| bitLow (s.l1 w) ≤ i / 64) := by
  have hh := bitHigh_lt h0
  have hl := bitLow_lt h0
  simp only [kL1Words] at hw
  rw [shiftLeft_or hh, shiftLeft_or hl]
  simp only [kL0Words]
  have dh : (w * 64 + bitHigh (s.l1 w)) / 64 = w := by omega
  have mh : (w * 64 + bitHigh (s.l1 w)) % 64 = bitHigh (s.l1 w) := by omega
  have dl : (w * 64 + bitLow (s.l1 w)) / 64 = w := by omega
  have ml : (w * 64 + bitLow (s.l1 w)) % 64 = bitLow (s.l1 w) := by omega
  refine ⟨⟨by omega, ?_, ?_⟩, ⟨by omega, ?_, ?_⟩⟩
  · rw [← h.l1_bit _ (by simp only [kL0Words]; omega), dh, mh]
    exact getLsbD_bitHigh h0
  · intro i hi hiw
    have hb := l1_bit_of_mem h hi
    rcases Nat.lt_or_eq_of_le hiw with hlt | heq
    · omega
    · have := le_bitHigh (heq ▸ hb)
      omega
  · rw [← h.l1_bit _ (by simp only [kL0Words]; omega), dl, ml]
    exact getLsbD_bitLow h0
  · intro i hi hiw
    have hb := l1_bit_of_mem h hi
    rcases Nat.lt_or_eq_of_le hiw with hlt | heq
    · omega
    · have := bitLow_le (heq ▸ hb)
      omega

/-- `r` is the answer of a downward search from `q`: the greatest member at or below it, or
`kInvalid` when there is none. -/
def IsHighestAtOrBelow (s : PriceBitmapStorage) (q r : ℕ) : Prop :=
  (r = kInvalid ∧ ∀ i ∈ members s, q < i)
    ∨ r ∈ members s ∧ r ≤ q ∧ ∀ i ∈ members s, i ≤ q → i ≤ r

/-- `r` is the answer of an upward search from `q`. -/
def IsLowestAtOrAbove (s : PriceBitmapStorage) (q r : ℕ) : Prop :=
  (r = kInvalid ∧ ∀ i ∈ members s, i < q)
    ∨ r ∈ members s ∧ q ≤ r ∧ ∀ i ∈ members s, q ≤ i → r ≤ i

/-- The search ends in word `w` when no member at or below the query lies in a later word. -/
theorem isHighest_of_word {w q : ℕ} (hw : w < kL0Words) (h0 : s.l0 w ≠ 0#64) (hwq : w < q / 64)
    (hle : ∀ i ∈ members s, i ≤ q → i / 64 ≤ w) :
    IsHighestAtOrBelow s q (w <<< 6 ||| bitHigh (s.l0 w)) := by
  obtain ⟨hm, -, hmax, -, hd, -⟩ := word_bounds hw h0
  refine .inr ⟨hm, by omega, fun i hi hiq => hmax i hi (hle i hi hiq)⟩

theorem isLowest_of_word {w q : ℕ} (hw : w < kL0Words) (h0 : s.l0 w ≠ 0#64) (hwq : q / 64 < w)
    (hge : ∀ i ∈ members s, q ≤ i → w ≤ i / 64) :
    IsLowestAtOrAbove s q (w <<< 6 ||| bitLow (s.l0 w)) := by
  obtain ⟨-, hm, -, hmin, -, hd⟩ := word_bounds hw h0
  refine .inr ⟨hm, by omega, fun i hi hiq => hmin i hi (hge i hi hiq)⟩

theorem isHighest_clamp {q r : ℕ}
    (h : IsHighestAtOrBelow s (if kNumBits ≤ q then kNumBits - 1 else q) r) :
    IsHighestAtOrBelow s q r := by
  have hlt : ∀ i ∈ members s, i < kNumBits := fun i hi => (mem_members.1 hi).1
  split_ifs at h with hq
  · rcases h with ⟨h1, h2⟩ | ⟨h1, h2, h3⟩
    · refine .inl ⟨h1, fun i hi => ?_⟩
      have := h2 i hi
      have := hlt i hi
      omega
    · exact .inr ⟨h1, by omega, fun i hi _ => h3 i hi (by have := hlt i hi; omega)⟩
  · exact h

theorem findHighestAtOrBelow_spec (h : Consistent s) (q : ℕ) :
    IsHighestAtOrBelow s q (findHighestAtOrBelow s q) := by
  have hq : (if kNumBits ≤ q then kNumBits - 1 else q) < kNumBits := by
    split_ifs <;> simp only [kNumBits] at * <;> omega
  apply isHighest_clamp
  unfold findHighestAtOrBelow
  generalize (if kNumBits ≤ q then kNumBits - 1 else q) = p at hq ⊢
  simp only [kNumBits] at hq
  simp only [shiftRight_six, and_sixtyThree]
  have hb0 : p % 64 < 64 := Nat.mod_lt _ (by decide)
  have hb1 : p / 64 % 64 < 64 := Nat.mod_lt _ (by decide)
  have hw1 : p / 64 / 64 < 64 := by omega
  -- a member of the query's own word at or below it is a masked bit of the word
  have hown : ∀ i ∈ members s, i ≤ p → i / 64 = p / 64 →
      (s.l0 (p / 64) &&& maskAtOrBelow (p % 64)).getLsbD (i % 64) = true := by
    intro i hi hip hw
    rw [mem_members, test_eq, hw] at hi
    rw [BitVec.getLsbD_and, getLsbD_maskAtOrBelow hb0, hi.2, Bool.true_and, decide_eq_true_eq]
    omega
  by_cases h0 : s.l0 (p / 64) &&& maskAtOrBelow (p % 64) = 0#64
  swap
  · rw [if_pos h0]
    have hb := getLsbD_bitHigh h0
    have hlt := bitHigh_lt h0
    rw [BitVec.getLsbD_and, getLsbD_maskAtOrBelow hb0, Bool.and_eq_true, decide_eq_true_eq] at hb
    rw [shiftLeft_or hlt]
    refine .inr ⟨?_, by omega, fun i hi hip => ?_⟩
    · rw [mem_members, test_eq, Nat.mul_comm, Nat.mul_add_div (by decide), Nat.mul_add_mod,
        Nat.div_eq_of_lt hlt, Nat.mod_eq_of_lt hlt, Nat.add_zero]
      exact ⟨by simp only [kNumBits]; omega, hb.1⟩
    · by_cases hw : i / 64 = p / 64
      · have := le_bitHigh (hown i hi hip hw)
        omega
      · omega
  rw [if_neg (by simpa using h0)]
  have hword : ∀ i ∈ members s, i ≤ p → i / 64 < p / 64 := by
    intro i hi hip
    by_contra hge
    exact ne_zero_of_getLsbD (hown i hi hip (by omega)) h0
  have hblock : ∀ i ∈ members s, i ≤ p → i / 64 / 64 = p / 64 / 64 →
      (s.l1 (p / 64 / 64) &&& maskBelow (p / 64 % 64)).getLsbD (i / 64 % 64) = true := by
    intro i hi hip hw
    have := hword i hi hip
    rw [BitVec.getLsbD_and, getLsbD_maskBelow hb1, ← hw, l1_bit_of_mem h hi, Bool.true_and,
      decide_eq_true_eq]
    omega
  by_cases h1 : s.l1 (p / 64 / 64) &&& maskBelow (p / 64 % 64) = 0#64
  swap
  · rw [if_pos h1]
    have hb := getLsbD_bitHigh h1
    have hlt := bitHigh_lt h1
    have hc : ∀ i ∈ members s, i ≤ p → i / 64 / 64 = p / 64 / 64 →
        i / 64 % 64 ≤ bitHigh (s.l1 (p / 64 / 64) &&& maskBelow (p / 64 % 64)) :=
      fun i hi hip hw => le_bitHigh (hblock i hi hip hw)
    rw [BitVec.getLsbD_and, getLsbD_maskBelow hb1, Bool.and_eq_true, decide_eq_true_eq] at hb
    rw [shiftLeft_or hlt]
    generalize bitHigh (s.l1 (p / 64 / 64) &&& maskBelow (p / 64 % 64)) = c at hb hlt hc ⊢
    have hcw : p / 64 / 64 * 64 + c < kL0Words := by simp only [kL0Words]; omega
    have hc0 : s.l0 (p / 64 / 64 * 64 + c) ≠ 0#64 := by
      rw [← h.l1_bit _ hcw, show (p / 64 / 64 * 64 + c) / 64 = p / 64 / 64 by omega,
        show (p / 64 / 64 * 64 + c) % 64 = c by omega]
      exact hb.1
    rw [if_neg hc0]
    refine isHighest_of_word hcw hc0 (by omega) fun i hi hip => ?_
    have := hword i hi hip
    by_cases hw : i / 64 / 64 = p / 64 / 64
    · have := hc i hi hip hw
      omega
    · omega
  rw [if_neg (by simpa using h1)]
  have habove : ∀ i ∈ members s, i ≤ p →
      (s.l2 &&& kValidL2Mask &&& maskBelow (p / 64 / 64)).getLsbD (i / 64 / 64) = true := by
    intro i hi hip
    have hne : i / 64 / 64 ≠ p / 64 / 64 := fun hw =>
      ne_zero_of_getLsbD (hblock i hi hip hw) h1
    rw [BitVec.getLsbD_and, l2_bit_of_mem h hi, getLsbD_maskBelow hw1, Bool.true_and,
      decide_eq_true_eq]
    omega
  by_cases h2 : s.l2 &&& kValidL2Mask &&& maskBelow (p / 64 / 64) = 0#64
  · rw [if_pos h2]
    refine .inl ⟨rfl, fun i hi => ?_⟩
    by_contra hge
    exact ne_zero_of_getLsbD (habove i hi (by omega)) h2
  rw [if_neg h2]
  have hb := getLsbD_bitHigh h2
  have hmax : ∀ i ∈ members s, i ≤ p → i / 64 / 64 ≤ bitHigh (s.l2 &&& kValidL2Mask &&&
      maskBelow (p / 64 / 64)) := fun i hi hip => le_bitHigh (habove i hi hip)
  rw [BitVec.getLsbD_and, BitVec.getLsbD_and, getLsbD_kValidL2Mask, getLsbD_maskBelow hw1,
    Bool.and_eq_true, Bool.and_eq_true, decide_eq_true_eq, decide_eq_true_eq] at hb
  generalize bitHigh (s.l2 &&& kValidL2Mask &&& maskBelow (p / 64 / 64)) = v at hb hmax ⊢
  have hv0 := (h.l2_bit v hb.1.2).1 hb.1.1
  obtain ⟨⟨hW, hW0, hWmax⟩, -⟩ := block_bounds h hb.1.2 hv0
  rw [if_neg hv0, if_neg hW0]
  refine isHighest_of_word hW hW0 ?_ fun i hi hip => hWmax i hi (hmax i hi hip)
  have hlt := bitHigh_lt hv0
  rw [shiftLeft_or hlt]
  omega

theorem findLowestAtOrAbove_spec (h : Consistent s) (p : ℕ) :
    IsLowestAtOrAbove s p (findLowestAtOrAbove s p) := by
  unfold findLowestAtOrAbove
  by_cases hp : kNumBits ≤ p
  · rw [if_pos hp]
    exact .inl ⟨rfl, fun i hi => lt_of_lt_of_le (mem_members.1 hi).1 hp⟩
  rw [if_neg hp]
  simp only [kNumBits, not_le] at hp
  simp only [shiftRight_six, and_sixtyThree]
  have hb1 : p / 64 % 64 < 64 := Nat.mod_lt _ (by decide)
  have hw1 : p / 64 / 64 < 64 := by omega
  -- a member of the query's own word at or above it is a masked bit of the word
  have hown : ∀ i ∈ members s, p ≤ i → i / 64 = p / 64 →
      (s.l0 (p / 64) &&& maskAtOrAbove (p % 64)).getLsbD (i % 64) = true := by
    intro i hi hip hw
    rw [mem_members, test_eq, hw] at hi
    rw [BitVec.getLsbD_and, getLsbD_maskAtOrAbove (Nat.mod_lt _ (by decide)), hi.2, Bool.true_and,
      decide_eq_true_eq]
    omega
  by_cases h0 : s.l0 (p / 64) &&& maskAtOrAbove (p % 64) = 0#64
  swap
  · rw [if_pos h0]
    have hb := getLsbD_bitLow h0
    have hlt := bitLow_lt h0
    rw [BitVec.getLsbD_and, getLsbD_maskAtOrAbove hlt, Bool.and_eq_true, decide_eq_true_eq] at hb
    rw [shiftLeft_or hlt]
    refine .inr ⟨?_, by omega, fun i hi hip => ?_⟩
    · rw [mem_members, test_eq, Nat.mul_comm, Nat.mul_add_div (by decide), Nat.mul_add_mod,
        Nat.div_eq_of_lt hlt, Nat.mod_eq_of_lt hlt, Nat.add_zero]
      exact ⟨by simp only [kNumBits]; omega, hb.1⟩
    · by_cases hw : i / 64 = p / 64
      · have := bitLow_le (hown i hi hip hw)
        omega
      · omega
  rw [if_neg (by simpa using h0)]
  have hword : ∀ i ∈ members s, p ≤ i → p / 64 < i / 64 := by
    intro i hi hip
    by_contra hge
    exact ne_zero_of_getLsbD (hown i hi hip (by omega)) h0
  have hblock : ∀ i ∈ members s, p ≤ i → i / 64 / 64 = p / 64 / 64 →
      (s.l1 (p / 64 / 64) &&& maskAbove (p / 64 % 64)).getLsbD (i / 64 % 64) = true := by
    intro i hi hip hw
    have := hword i hi hip
    rw [BitVec.getLsbD_and, getLsbD_maskAbove (Nat.mod_lt _ (by decide)), ← hw,
      l1_bit_of_mem h hi, Bool.true_and, decide_eq_true_eq]
    omega
  by_cases h1 : s.l1 (p / 64 / 64) &&& maskAbove (p / 64 % 64) = 0#64
  swap
  · rw [if_pos h1]
    have hb := getLsbD_bitLow h1
    have hlt := bitLow_lt h1
    have hc : ∀ i ∈ members s, p ≤ i → i / 64 / 64 = p / 64 / 64 →
        bitLow (s.l1 (p / 64 / 64) &&& maskAbove (p / 64 % 64)) ≤ i / 64 % 64 :=
      fun i hi hip hw => bitLow_le (hblock i hi hip hw)
    rw [BitVec.getLsbD_and, getLsbD_maskAbove hlt, Bool.and_eq_true, decide_eq_true_eq] at hb
    rw [shiftLeft_or hlt]
    generalize bitLow (s.l1 (p / 64 / 64) &&& maskAbove (p / 64 % 64)) = c at hb hlt hc ⊢
    have hcw : p / 64 / 64 * 64 + c < kL0Words := by simp only [kL0Words]; omega
    have hc0 : s.l0 (p / 64 / 64 * 64 + c) ≠ 0#64 := by
      rw [← h.l1_bit _ hcw, show (p / 64 / 64 * 64 + c) / 64 = p / 64 / 64 by omega,
        show (p / 64 / 64 * 64 + c) % 64 = c by omega]
      exact hb.1
    rw [if_neg hc0]
    refine isLowest_of_word hcw hc0 (by omega) fun i hi hip => ?_
    have := hword i hi hip
    by_cases hw : i / 64 / 64 = p / 64 / 64
    · have := hc i hi hip hw
      omega
    · omega
  rw [if_neg (by simpa using h1)]
  have habove : ∀ i ∈ members s, p ≤ i →
      (s.l2 &&& kValidL2Mask &&& maskAbove (p / 64 / 64)).getLsbD (i / 64 / 64) = true := by
    intro i hi hip
    have hi64 := (mem_members.1 hi).1
    simp only [kNumBits] at hi64
    have hne : i / 64 / 64 ≠ p / 64 / 64 := fun hw =>
      ne_zero_of_getLsbD (hblock i hi hip hw) h1
    rw [BitVec.getLsbD_and, l2_bit_of_mem h hi, getLsbD_maskAbove (by omega), Bool.true_and,
      decide_eq_true_eq]
    omega
  by_cases h2 : s.l2 &&& kValidL2Mask &&& maskAbove (p / 64 / 64) = 0#64
  · rw [if_pos h2]
    refine .inl ⟨rfl, fun i hi => ?_⟩
    by_contra hge
    exact ne_zero_of_getLsbD (habove i hi (by omega)) h2
  rw [if_neg h2]
  have hb := getLsbD_bitLow h2
  have hmin : ∀ i ∈ members s, p ≤ i → bitLow (s.l2 &&& kValidL2Mask &&&
      maskAbove (p / 64 / 64)) ≤ i / 64 / 64 := fun i hi hip => bitLow_le (habove i hi hip)
  rw [BitVec.getLsbD_and, BitVec.getLsbD_and, getLsbD_kValidL2Mask,
    getLsbD_maskAbove (bitLow_lt h2), Bool.and_eq_true, Bool.and_eq_true, decide_eq_true_eq,
    decide_eq_true_eq] at hb
  generalize bitLow (s.l2 &&& kValidL2Mask &&& maskAbove (p / 64 / 64)) = v at hb hmin ⊢
  have hv0 := (h.l2_bit v hb.1.2).1 hb.1.1
  obtain ⟨-, hW, hW0, hWmin⟩ := block_bounds h hb.1.2 hv0
  rw [if_neg hv0, if_neg hW0]
  refine isLowest_of_word hW hW0 ?_ fun i hi hip => hWmin i hi (hmin i hi hip)
  rw [shiftLeft_or (bitLow_lt hv0)]
  omega

theorem empty_iff (h : Consistent s) : empty s = true ↔ members s = ∅ := by
  rw [empty, beq_iff_eq, Finset.eq_empty_iff_forall_notMem]
  constructor
  · intro h0 i hi
    exact ne_zero_of_getLsbD (l2_bit_of_mem h hi) h0
  · intro hno
    by_contra h0
    obtain ⟨v, -, hb⟩ := exists_getLsbD_of_ne_zero h0
    rw [BitVec.getLsbD_and, getLsbD_kValidL2Mask, Bool.and_eq_true, decide_eq_true_eq] at hb
    have hv0 := (h.l2_bit v hb.2).1 hb.1
    obtain ⟨⟨hW, hW0, -⟩, -⟩ := block_bounds h hb.2 hv0
    exact hno _ (word_bounds hW hW0).1

/-! ## One set, one storage -/

/-- The words past the arrays, and the bits of `l2` with no word below them, are the same. -/
structure SameBeyond (s t : PriceBitmapStorage) : Prop where
  l0 : ∀ w, kL0Words ≤ w → t.l0 w = s.l0 w
  l1 : ∀ w, kL1Words ≤ w → t.l1 w = s.l1 w
  l2 : ∀ b, kL1Words ≤ b → t.l2.getLsbD b = s.l2.getLsbD b

theorem SameBeyond.refl (s : PriceBitmapStorage) : SameBeyond s s :=
  ⟨fun _ _ => rfl, fun _ _ => rfl, fun _ _ => rfl⟩

theorem SameBeyond.trans {t u : PriceBitmapStorage} (h : SameBeyond s t) (h' : SameBeyond t u) :
    SameBeyond s u where
  l0 := fun w hw => (h'.l0 w hw).trans (h.l0 w hw)
  l1 := fun w hw => (h'.l1 w hw).trans (h.l1 w hw)
  l2 := fun b hb => (h'.l2 b hb).trans (h.l2 b hb)

theorem sameBeyond_set {i : ℕ} (hi : i < kNumBits) : SameBeyond s (set s i) := by
  simp only [kNumBits] at hi
  simp only [set, shiftRight_six, and_sixtyThree]
  refine ⟨fun w hw => update_of_ne ?_ _ _, fun w hw => update_of_ne ?_ _ _, fun b hb => ?_⟩
  · simp only [kL0Words] at hw
    omega
  · simp only [kL1Words] at hw
    omega
  · simp only [kL1Words] at hb
    by_cases hb64 : b < 64
    · have hne : b ≠ i / 64 / 64 := by omega
      rw [getLsbD_or_oneShift _ hb64]
      simp [hne]
    · rw [BitVec.getLsbD_of_ge _ _ (by omega), BitVec.getLsbD_of_ge _ _ (by omega)]

theorem sameBeyond_reset {i : ℕ} (hi : i < kNumBits) : SameBeyond s (reset s i) := by
  simp only [kNumBits] at hi
  have hl0 : ∀ w v, kL0Words ≤ w → update s.l0 (i / 64) v w = s.l0 w := fun w v hw =>
    update_of_ne (by simp only [kL0Words] at hw; omega) _ _
  have hl1 : ∀ w v, kL1Words ≤ w → update s.l1 (i / 64 / 64) v w = s.l1 w := fun w v hw =>
    update_of_ne (by simp only [kL1Words] at hw; omega) _ _
  simp only [reset, shiftRight_six, and_sixtyThree]
  split_ifs
  · exact ⟨fun w hw => hl0 w _ hw, fun _ _ => rfl, fun _ _ => rfl⟩
  · exact ⟨fun w hw => hl0 w _ hw, fun w hw => hl1 w _ hw, fun _ _ => rfl⟩
  · refine ⟨fun w hw => hl0 w _ hw, fun w hw => hl1 w _ hw, fun b hb => ?_⟩
    simp only [kL1Words] at hb
    by_cases hb64 : b < 64
    · have hne : b ≠ i / 64 / 64 := by omega
      rw [getLsbD_and_not_oneShift _ hb64]
      simp [hne]
    · rw [BitVec.getLsbD_of_ge _ _ (by omega), BitVec.getLsbD_of_ge _ _ (by omega)]

/-- The members determine the storage: the words of `l0` bit by bit, and then each summary word from
the words below it. -/
theorem eq_of_members {t : PriceBitmapStorage} (hs : Consistent s) (ht : Consistent t)
    (hb : SameBeyond s t) (hm : members t = members s) : t = s := by
  have hl0 : t.l0 = s.l0 := by
    funext w
    by_cases hw : w < kL0Words
    · apply BitVec.eq_of_getLsbD_eq
      intro b hb
      have hi : w * 64 + b < kNumBits := by
        simp only [kL0Words, kNumBits] at hw ⊢
        omega
      have hmem := Finset.ext_iff.1 hm (w * 64 + b)
      rw [mem_members, mem_members, and_iff_right hi, and_iff_right hi, test_eq, test_eq,
        show (w * 64 + b) / 64 = w by omega, show (w * 64 + b) % 64 = b by omega] at hmem
      exact Bool.eq_iff_iff.2 hmem
    · exact hb.l0 w (not_lt.1 hw)
  have hl1 : t.l1 = s.l1 := by
    funext w
    by_cases hw : w < kL1Words
    · apply BitVec.eq_of_getLsbD_eq
      intro b hb
      have hi : w * 64 + b < kL0Words := by
        simp only [kL0Words, kL1Words] at hw ⊢
        omega
      have hs' := hs.l1_bit (w * 64 + b) hi
      have ht' := ht.l1_bit (w * 64 + b) hi
      rw [show (w * 64 + b) / 64 = w by omega, show (w * 64 + b) % 64 = b by omega] at hs' ht'
      rw [Bool.eq_iff_iff, hs', ht', hl0]
    · exact hb.l1 w (not_lt.1 hw)
  have hl2 : t.l2 = s.l2 := by
    apply BitVec.eq_of_getLsbD_eq
    intro b hb64
    by_cases hb16 : b < kL1Words
    · rw [Bool.eq_iff_iff, hs.l2_bit b hb16, ht.l2_bit b hb16, hl1]
    · exact hb.l2 b (not_lt.1 hb16)
  cases s
  cases t
  simp_all

end PriceBitmap

end AstraFeed
