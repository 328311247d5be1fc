import Mathlib.Data.Set.Insert
import Mathlib.Tactic.Ring
import AstraFeed.TableInvariant

/-!
# Runs of the order table

A caller keeps every reservation and every lookup it was ever given, and may use any of them at any
time. Beside the table run the two things it stands for: the orders that are live, and the
references that were ever committed.
-/

namespace AstraFeed

open Function

structure TableState where
  table : OrderTable
  issued : List OrderSlotReservation
  lookups : List (UInt64 × OrderLookup)
  live : UInt64 → Option OrderState
  used : Set UInt64

inductive TableOp
  | reserve (orderRef : UInt64)
  | commit (i : ℕ) (state : OrderState)
  | find (orderRef : UInt64)
  | erase (orderRef : UInt64)
  | eraseState (i : ℕ)
  | eraseLookup (i : ℕ)

namespace TableState

def start (config : OrderTableConfig) : TableState :=
  ⟨.fresh config, [], [], fun _ => none, ∅⟩

/-- An order was committed, or it was not. -/
def commit (st : TableState) (r : OrderSlotReservation) (state : OrderState) : TableState :=
  let (result, table) := st.table.commit r state
  if result = .applied then
    { st with
      table := table
      live := update st.live r.orderRef (some (OrderTable.committed state))
      used := insert r.orderRef st.used }
  else { st with table := table }

/-- An order was erased, or it was not. -/
def erased (st : TableState) (orderRef : UInt64) (outcome : MutationResult × OrderTable) :
    TableState :=
  if outcome.1 = .applied then
    { st with
      table := outcome.2
      live := update st.live orderRef none }
  else { st with table := outcome.2 }

def step (st : TableState) : TableOp → TableState
  | .reserve orderRef => { st with issued := st.issued ++ [st.table.reserve orderRef] }
  | .commit i state =>
    match st.issued[i]? with
    | none => st
    | some r => st.commit r state
  | .find orderRef => { st with lookups := st.lookups ++ [(orderRef, st.table.find orderRef)] }
  | .erase orderRef => st.erased orderRef (st.table.erase orderRef)
  | .eraseState i =>
    match st.lookups[i]? with
    | none => st
    | some l => st.erased l.1 (st.table.eraseState l.2.state)
  | .eraseLookup i =>
    match st.lookups[i]? with
    | none => st
    | some l => st.erased l.1 (st.table.eraseLookup l.2)

def run (st : TableState) (ops : List TableOp) : TableState := ops.foldl step st

/-- The reference an operation is on. -/
def subject (st : TableState) : TableOp → Option UInt64
  | .reserve orderRef => some orderRef
  | .commit i _ => (st.issued[i]?).map (·.orderRef)
  | .find orderRef => some orderRef
  | .erase orderRef => some orderRef
  | .eraseState i => (st.lookups[i]?).map (·.1)
  | .eraseLookup i => (st.lookups[i]?).map (·.1)

end TableState

end AstraFeed
