import Mathlib.Data.List.Basic
import Mathlib.Tactic.Ring
import Mathlib.Tactic.SplitIfs

/-!
# Cutting a sequence greedily

A chunk is filled element by element until it is closed to the next one, which then begins a chunk
of its own. `IsCut` says so of chunks that are there already, `place` finds the chunks again from
their elements alone.
-/

namespace Greedy

variable {α : Type*} {Closed : List α → α → Prop} {chunk : List α} {chunks : List (List α)}

/-- The chunk takes each of its elements but the first. -/
def Chunk (Closed : List α → α → Prop) (chunk : List α) : Prop :=
  ∀ before a after, chunk = before ++ a :: after → before ≠ [] → ¬ Closed before a

/-- A chunk takes what it can, and the next begins with what it cannot take. -/
def IsCut (Closed : List α → α → Prop) : List (List α) → Prop
  | [] => True
  | chunk :: chunks => chunk ≠ [] ∧ Chunk Closed chunk
    ∧ (∀ next ∈ chunks.head?, ∀ a ∈ next.head?, Closed chunk a) ∧ IsCut Closed chunks

/-- The number, from one on, of the chunk with the element of an index. -/
def chunkOf : List (List α) → ℕ → ℕ
  | [], _ => 0
  | chunk :: chunks, i => if i < chunk.length then 1 else 1 + chunkOf chunks (i - chunk.length)

open scoped Classical in
/-- The number of the chunk that is filled, and its elements so far, after one more. -/
noncomputable def place (Closed : List α → α → Prop) (p : ℕ × List α) (a : α) : ℕ × List α :=
  if p.2 ≠ [] ∧ Closed p.2 a then (p.1 + 1, [a]) else (p.1, p.2 ++ [a])

/-! ## A chunk -/

theorem chunk_nil (Closed : List α → α → Prop) : Chunk Closed [] := by
  intro before a after heq
  exact absurd heq.symm (List.append_ne_nil_of_right_ne_nil _ (List.cons_ne_nil _ _))

theorem Chunk.concat {a : α} (h : Chunk Closed chunk) (ha : chunk ≠ [] → ¬ Closed chunk a) :
    Chunk Closed (chunk ++ [a]) := by
  intro before b after heq hne
  rcases List.eq_nil_or_concat after with rfl | ⟨after, x, rfl⟩
  · obtain ⟨rfl, hb⟩ := List.append_inj' heq rfl
    obtain rfl := List.singleton_injective hb
    exact ha hne
  · rw [List.concat_eq_append, ← List.cons_append, ← List.append_assoc] at heq
    obtain ⟨rfl, -⟩ := List.append_inj' heq rfl
    exact h before b after rfl hne

theorem Chunk.of_append {more : List α} (h : Chunk Closed (chunk ++ more)) :
    Chunk Closed chunk := by
  rintro before a after rfl hne
  exact h before a (after ++ more) (by simp) hne

/-! ## Where an element is placed -/

theorem place_open {k : ℕ} {a : α} (h : chunk ≠ [] → ¬ Closed chunk a) :
    place Closed (k, chunk) a = (k, chunk ++ [a]) :=
  if_neg fun hc => h hc.1 hc.2

theorem place_closed {k : ℕ} {a : α} (hne : chunk ≠ []) (h : Closed chunk a) :
    place Closed (k, chunk) a = (k + 1, [a]) :=
  if_pos ⟨hne, h⟩

theorem getLast?_place (p : ℕ × List α) (a : α) : (place Closed p a).2.getLast? = some a := by
  unfold place
  split_ifs
  · rfl
  · exact List.getLast?_concat

theorem place_le (p : ℕ × List α) (a : α) : (place Closed p a).1 ≤ p.1 + 1 := by
  unfold place
  split_ifs
  · exact Nat.le_refl _
  · exact Nat.le_succ _

theorem le_place (p : ℕ × List α) (a : α) : p.1 ≤ (place Closed p a).1 := by
  unfold place
  split_ifs
  · exact Nat.le_succ _
  · exact Nat.le_refl _

theorem le_foldl_place (p : ℕ × List α) (as : List α) : p.1 ≤ (as.foldl (place Closed) p).1 := by
  induction as generalizing p with
  | nil => exact Nat.le_refl _
  | cons a as ih => exact Nat.le_trans (le_place p a) (ih (place Closed p a))

theorem foldl_place_le (p : ℕ × List α) (as : List α) :
    (as.foldl (place Closed) p).1 ≤ p.1 + as.length := by
  induction as generalizing p with
  | nil => exact Nat.le_refl _
  | cons a as ih =>
    have ha : (place Closed p a).1 ≤ p.1 + 1 := place_le p a
    have has := ih (place Closed p a)
    rw [List.foldl_cons, List.length_cons]
    omega

/-- A chunk that was begun takes its other elements. -/
theorem foldl_place_chunk {k : ℕ} {more : List α} (hne : chunk ≠ [])
    (h : Chunk Closed (chunk ++ more)) :
    more.foldl (place Closed) (k, chunk) = (k, chunk ++ more) := by
  induction more generalizing chunk with
  | nil => rw [List.foldl_nil, List.append_nil]
  | cons a more ih =>
    rw [List.foldl_cons, place_open fun _ => h chunk a more rfl hne,
      ih (by simp) (by simpa using h), List.append_assoc]
    rfl

/-- Where the first element begins the chunk after the `k`-th, each element is placed in the chunk
that has it. -/
theorem foldl_place_take {k i : ℕ} {p : ℕ × List α} (h : IsCut Closed chunks)
    (hp : ∀ chunk ∈ chunks.head?, ∀ a ∈ chunk.head?, place Closed p a = (k + 1, [a]))
    (hi : i < chunks.flatten.length) :
    ((chunks.flatten.take (i + 1)).foldl (place Closed) p).1 = k + chunkOf chunks i := by
  induction chunks generalizing k i p with
  | nil => cases hi
  | cons chunk chunks ih =>
    obtain ⟨hne, hchunk, hnext, hcut⟩ := h
    obtain ⟨a, as, rfl⟩ := List.exists_cons_of_ne_nil hne
    rw [List.flatten_cons, List.length_append, List.length_cons] at hi
    rw [List.flatten_cons, List.cons_append, List.take_succ_cons, List.foldl_cons,
      hp (a :: as) rfl a rfl, chunkOf, List.length_cons]
    by_cases hlt : i < as.length + 1
    · rw [if_pos hlt, List.take_append_of_le_length (Nat.le_of_lt_succ hlt)]
      have hsplit : Chunk Closed ([a] ++ as.take i ++ as.drop i) := by
        rwa [List.append_assoc, List.take_append_drop]
      rw [foldl_place_chunk (List.cons_ne_nil _ _) hsplit.of_append]
    · obtain ⟨j, rfl⟩ : ∃ j, i = as.length + (j + 1) := ⟨i - as.length - 1, by omega⟩
      have hlast : ∀ chunk ∈ chunks.head?, ∀ b ∈ chunk.head?,
          place Closed (k + 1, [a] ++ as) b = (k + 1 + 1, [b]) := fun chunk hc b hb =>
        place_closed (by simp) (hnext chunk hc b hb)
      rw [if_neg hlt, List.take_length_add_append, List.foldl_append,
        foldl_place_chunk (List.cons_ne_nil _ _) hchunk, ih hcut hlast (by omega),
        show as.length + (j + 1) - (as.length + 1) = j by omega, Nat.add_assoc]

/-- Each element is placed in the chunk that has it. -/
theorem IsCut.place_eq {i : ℕ} (h : IsCut Closed chunks) (hi : i < chunks.flatten.length) :
    ((chunks.flatten.take (i + 1)).foldl (place Closed) (1, [])).1 = chunkOf chunks i := by
  have hfirst : ∀ chunk ∈ chunks.head?, ∀ a ∈ chunk.head?,
      place Closed (1, []) a = (0 + 1, [a]) := fun _ _ a _ => place_open fun hne => absurd rfl hne
  rw [foldl_place_take h hfirst hi, Nat.zero_add]

theorem chunkOf_le {i : ℕ} (hi : i < chunks.flatten.length) : chunkOf chunks i ≤ chunks.length := by
  induction chunks generalizing i with
  | nil => cases hi
  | cons chunk chunks ih =>
    rw [List.flatten_cons, List.length_append] at hi
    rw [chunkOf, List.length_cons]
    split_ifs with hlt
    · omega
    · have := ih (i := i - chunk.length) (by omega)
      omega

end Greedy
