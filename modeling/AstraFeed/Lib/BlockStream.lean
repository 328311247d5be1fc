import Mathlib.Data.List.Induction
import Mathlib.Order.Basic
import Mathlib.Tactic.Ring

/-!
# Streams that are consumed in blocks

A stream is consumed byte by byte: a byte joins those that wait, and as soon as `n` of them wait
they are a block, which changes the state. What a run makes of a stream does not depend on how it is
cut, and of whole blocks it makes what a fold over them makes.
-/

namespace BlockStream

variable {σ β : Type*}

/-- A state, and the symbols that wait for the rest of their block. -/
structure Buffered (σ β : Type*) where
  state : σ
  pending : List β

variable (n : ℕ) (compress : σ → List β → σ)

def push (s : Buffered σ β) (b : β) : Buffered σ β :=
  if s.pending.length + 1 = n then ⟨compress s.state (s.pending ++ [b]), []⟩
  else ⟨s.state, s.pending ++ [b]⟩

def run (s : Buffered σ β) (symbols : List β) : Buffered σ β := symbols.foldl (push n compress) s

/-- The blocks of a list, and what is left of it is dropped. -/
def blocks (symbols : List β) : List (List β) :=
  (List.range (symbols.length / n)).map fun i => (symbols.drop (n * i)).take n

variable {n} {compress}

@[simp] theorem run_nil (s : Buffered σ β) : run n compress s [] = s := rfl

theorem run_append (s : Buffered σ β) (xs ys : List β) :
    run n compress s (xs ++ ys) = run n compress (run n compress s xs) ys :=
  List.foldl_append

/-- Symbols that do not fill a block wait. -/
theorem run_of_lt {s : Buffered σ β} {xs : List β} (h : s.pending.length + xs.length < n) :
    run n compress s xs = ⟨s.state, s.pending ++ xs⟩ := by
  induction xs using List.reverseRecOn with
  | nil => rw [run_nil, List.append_nil]
  | append_singleton xs x ih =>
    rw [List.length_append, List.length_singleton] at h
    rw [run_append, ih (by omega), ← List.append_assoc]
    refine if_neg ?_
    dsimp only
    rw [List.length_append]
    omega

/-- Symbols that just fill a block change the state. -/
theorem run_of_fill {s : Buffered σ β} {xs : List β} (hn : s.pending.length < n)
    (h : s.pending.length + xs.length = n) :
    run n compress s xs = ⟨compress s.state (s.pending ++ xs), []⟩ := by
  rcases List.eq_nil_or_concat xs with rfl | ⟨init, x, rfl⟩
  · rw [List.length_nil] at h
    omega
  · rw [List.concat_eq_append] at h ⊢
    rw [List.length_append, List.length_singleton] at h
    have hinit : s.pending.length + init.length < n := by omega
    rw [run_append, run_of_lt hinit, ← List.append_assoc]
    refine if_pos ?_
    dsimp only
    rw [List.length_append]
    omega

/-- A whole block at once. -/
theorem run_block {s : σ} {xs : List β} (hn : 0 < n) (h : xs.length = n) :
    run n compress ⟨s, []⟩ xs = ⟨compress s xs, []⟩ :=
  run_of_fill hn (by rw [List.length_nil, Nat.zero_add, h])

/-- Symbols that wait are as good as symbols that come. -/
theorem run_pending {s : σ} {ps : List β} (h : ps.length < n) (xs : List β) :
    run n compress ⟨s, ps⟩ xs = run n compress ⟨s, []⟩ (ps ++ xs) := by
  have hwait : run n compress ⟨s, []⟩ ps = ⟨s, ps⟩ :=
    run_of_lt (by rwa [List.length_nil, Nat.zero_add])
  rw [run_append, hwait]

theorem length_pending_lt (hn : 0 < n) {s : Buffered σ β} (hs : s.pending.length < n)
    (xs : List β) : (run n compress s xs).pending.length < n := by
  induction xs using List.reverseRecOn with
  | nil => exact hs
  | append_singleton xs x ih =>
    rw [run_append]
    change (push n compress _ x).pending.length < n
    unfold push
    split_ifs
    · exact hn
    · dsimp only
      rw [List.length_append, List.length_singleton]
      omega

/-- As many symbols wait as the blocks leave over. -/
theorem length_pending (hn : 0 < n) (s : σ) (xs : List β) :
    (run n compress ⟨s, []⟩ xs).pending.length = xs.length % n := by
  induction xs using List.reverseRecOn with
  | nil => exact (Nat.zero_mod n).symm
  | append_singleton xs x ih =>
    rw [run_append, List.length_append, List.length_singleton, Nat.add_mod, ← ih]
    have hnone : (⟨s, []⟩ : Buffered σ β).pending.length < n := hn
    have hlt : (run n compress ⟨s, []⟩ xs).pending.length < n := length_pending_lt hn hnone xs
    change (push n compress _ x).pending.length = _
    unfold push
    generalize run n compress ⟨s, []⟩ xs = r at hlt
    rcases Nat.lt_or_ge 1 n with hone | hone
    · rw [Nat.mod_eq_of_lt hone]
      split_ifs with hfull
      · rw [hfull, Nat.mod_self, List.length_nil]
      · dsimp only
        rw [List.length_append, List.length_singleton, Nat.mod_eq_of_lt (by omega)]
    · obtain rfl : n = 1 := by omega
      rw [Nat.mod_one, if_pos (by omega), List.length_nil]

theorem blocks_of_lt {xs : List β} (h : xs.length < n) : blocks n xs = [] := by
  unfold blocks
  rw [Nat.div_eq_of_lt h]
  rfl

theorem blocks_append {xs : List β} (hn : 0 < n) (h : xs.length = n) (ys : List β) :
    blocks n (xs ++ ys) = xs :: blocks n ys := by
  unfold blocks
  rw [List.length_append, h, Nat.add_div_left _ hn, List.range_succ_eq_map, List.map_cons,
    List.map_map]
  congr 1
  · rw [Nat.mul_zero, List.drop_zero, ← h, List.take_left]
  · refine List.map_congr_left fun i _ => ?_
    rw [Function.comp_apply, Nat.mul_succ, Nat.add_comm, ← List.drop_drop, ← h, List.drop_left]

/-- A run over whole blocks is a fold over them. -/
theorem run_blocks (hn : 0 < n) {xs : List β} (h : n ∣ xs.length) (s : σ) :
    run n compress ⟨s, []⟩ xs = ⟨(blocks n xs).foldl compress s, []⟩ := by
  obtain ⟨k, hk⟩ := h
  induction k generalizing s xs with
  | zero =>
    rw [Nat.mul_zero, List.length_eq_zero_iff] at hk
    rw [hk, blocks_of_lt hn]
    rfl
  | succ k ih =>
    rw [Nat.mul_succ] at hk
    have hlen : (xs.take n).length = n := by
      rw [List.length_take]
      omega
    have hrest : (xs.drop n).length = n * k := by
      rw [List.length_drop]
      omega
    have hsplit := blocks_append hn hlen (xs.drop n)
    rw [List.take_append_drop] at hsplit
    rw [hsplit, List.foldl_cons, ← ih _ hrest, ← run_block hn hlen, ← run_append,
      List.take_append_drop]

end BlockStream
