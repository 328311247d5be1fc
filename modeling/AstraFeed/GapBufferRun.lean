import AstraFeed.GapBuffer

/-!
# Runs of the gap buffer

A history is a list of calls on a buffer just constructed. What it holds of a sequence is the
earliest packet that was taken for it since it was last dropped.
-/

namespace AstraFeed

inductive GapBufferOp
  | insert (packet : SequencedPacket)
  | find (seq : UInt64)
  | erase (seq : UInt64)
  | clear

/-- The call drops what is kept for a sequence. -/
def GapBufferOp.Drops (op : GapBufferOp) (seq : UInt64) : Prop := op = .erase seq ∨ op = .clear

namespace GapBuffer

def step (b : GapBuffer) : GapBufferOp → GapBuffer
  | .insert packet => (b.insert packet).2
  | .find _ => b
  | .erase seq => b.erase seq
  | .clear => fresh

def run (ops : List GapBufferOp) : GapBuffer := ops.foldl step fresh

/-- An insert of the packet after these calls is not refused. -/
def Taken (ops : List GapBufferOp) (packet : SequencedPacket) : Prop :=
  ((run ops).insert packet).1 ≠ .invalidPacket ∧ ((run ops).insert packet).1 ≠ .capacityExceeded

/-- The insert of `packet` after the calls `before` was taken for `seq`, and `seq` not dropped
since. -/
def TakenAfter (ops : List GapBufferOp) (seq : UInt64) (before : List GapBufferOp)
    (packet : SequencedPacket) : Prop :=
  ∃ since, ops = before ++ .insert packet :: since ∧ packet.seq = seq ∧ Taken before packet
    ∧ ∀ op ∈ since, ¬ op.Drops seq

/-- The earliest insert of `seq` since `seq` was last dropped. -/
def Earliest (ops : List GapBufferOp) (seq : UInt64) (packet : SequencedPacket) : Prop :=
  ∃ before, TakenAfter ops seq before packet
    ∧ ∀ before' packet', TakenAfter ops seq before' packet' → before.length ≤ before'.length

end GapBuffer

end AstraFeed
