import Mathlib.Data.Nat.Notation
import Mathlib.Logic.Function.Basic
import Mathlib.Tactic.Ring

/-!
# Accesses inside their bounds

An arena is a function of its index; how many elements it really has is said at each access, and an
access outside is `none`. A shift by the width of the word or more is `none` as well.
-/

namespace Bounded

open Function

variable {α : Type*}

def read (size : ℕ) (arena : ℕ → α) (i : ℕ) : Option α := if i < size then some (arena i) else none

def write (size : ℕ) (arena : ℕ → α) (i : ℕ) (v : α) : Option (ℕ → α) :=
  if i < size then some (update arena i v) else none

def shl {w : ℕ} (x : BitVec w) (amount : ℕ) : Option (BitVec w) :=
  if amount < w then some (x <<< amount) else none

def shr {w : ℕ} (x : BitVec w) (amount : ℕ) : Option (BitVec w) :=
  if amount < w then some (x >>> amount) else none

@[simp] theorem read_eq {size i : ℕ} (h : i < size) (arena : ℕ → α) :
    read size arena i = some (arena i) := if_pos h

@[simp] theorem write_eq {size i : ℕ} (h : i < size) (arena : ℕ → α) (v : α) :
    write size arena i v = some (update arena i v) := if_pos h

@[simp] theorem shl_eq {w amount : ℕ} (h : amount < w) (x : BitVec w) :
    shl x amount = some (x <<< amount) := if_pos h

@[simp] theorem shr_eq {w amount : ℕ} (h : amount < w) (x : BitVec w) :
    shr x amount = some (x >>> amount) := if_pos h

/-- A choice between results is the result of the choice. -/
theorem ite_some {c : Prop} [Decidable c] {a b : Option α} {x y : α} (ha : c → a = some x)
    (hb : ¬ c → b = some y) : (if c then a else b) = some (if c then x else y) := by
  split
  · exact ha ‹_›
  · exact hb ‹_›

end Bounded
