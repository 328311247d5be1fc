import AstraFeed.MoldUdpDecoder

/-!
# The receivers

`recvmmsg` fills the buffers of a receiver from the queue of its socket, and the receiver gives them
out one by one. Two receivers, one for each line, take turns.
-/

namespace AstraFeed

/-- A datagram in the queue of a socket, with the kernel's word on whether the buffer cut it off,
and on how many it has dropped so far. -/
structure Datagram where
  data : List UInt8
  truncated : Bool
  drops : Option UInt32

/-- What `recvmmsg` finds: so many datagrams, none for now, or an error. -/
inductive RecvOutcome
  | received (count : ℕ)
  | again
  | failed

/-- A part of the buffer `slot`. -/
structure BufferView where
  slot : ℕ
  size : ℕ
  receiveStartTicks : UInt64

/-- `pending` has what is left of the last batch. -/
structure UdpBatchReceiver where
  batchSize : ℕ
  buffers : ℕ → List UInt8 := fun _ => []
  pending : List BufferView := []
  errorCount : UInt64 := 0
  truncatedCount : UInt64 := 0
  syscallCount : UInt64 := 0
  kernelDropCount : UInt64 := 0
  lastKernelDropCount : UInt32 := 0

namespace UdpBatchReceiver

def kMaxPacketSize : ℕ := 2048
def kMaxBatchSize : ℕ := 64

def create (batchSize : ℕ) : UdpBatchReceiver where
  batchSize := min (max batchSize 1) kMaxBatchSize

def shouldDropDatagram (reportedSize : ℕ) (kernelReportedTruncation : Bool) : Bool :=
  kernelReportedTruncation || kMaxPacketSize < reportedSize

section Receive

variable (r : UdpBatchReceiver)

def recordKernelDrops (drops : Option UInt32) : UdpBatchReceiver :=
  match drops with
  | none => r
  | some count => { r with
      kernelDropCount := r.kernelDropCount +
        if r.lastKernelDropCount ≤ count then (count - r.lastKernelDropCount).toUInt64
        else (0xFFFFFFFF - r.lastKernelDropCount).toUInt64 + count.toUInt64 + 1
      lastKernelDropCount := count }

/-- The body of the loop of `receiveBatch`. -/
def accept (ticks : UInt64) (slot : ℕ) (datagram : Datagram) : UdpBatchReceiver :=
  let r := r.recordKernelDrops datagram.drops
  if shouldDropDatagram datagram.data.length datagram.truncated then
    { r with truncatedCount := r.truncatedCount + 1 }
  else { r with pending := r.pending ++ [⟨slot, datagram.data.length, ticks⟩] }

/-- The loop of `receiveBatch` over the datagrams from `slot` on. -/
def acceptLoop (ticks : UInt64) : ℕ → List Datagram → UdpBatchReceiver → UdpBatchReceiver
  | _, [], r => r
  | slot, datagram :: datagrams, r =>
    acceptLoop ticks (slot + 1) datagrams (r.accept ticks slot datagram)

/-- A buffer takes as much of a datagram as it can. -/
def fillBuffers (datagrams : List Datagram) : UdpBatchReceiver :=
  { r with
    buffers := fun slot =>
      match datagrams[slot]? with
      | some datagram => datagram.data.take kMaxPacketSize
      | none => r.buffers slot }

/-- With what is left in the queue. -/
def receiveBatch (outcome : RecvOutcome) (ticks : UInt64) (queue : List Datagram) :
    UdpBatchReceiver × List Datagram :=
  let r := { r with pending := [] }
  match outcome with
  | .again => (r, queue)
  | .failed => ({ r with errorCount := r.errorCount + 1 }, queue)
  | .received count =>
    let got := queue.take (min count r.batchSize)
    -- a call that finds nothing fails with `EAGAIN`
    if got = [] then (r, queue)
    else
      (acceptLoop ticks 0 got { r.fillBuffers got with syscallCount := r.syscallCount + 1 },
        queue.drop got.length)

/-- The next packet of the batch. -/
def takePending : Option PacketView × UdpBatchReceiver :=
  match r.pending with
  | [] => (none, r)
  | view :: rest =>
    (some ⟨(r.buffers view.slot).take view.size, view.receiveStartTicks⟩, { r with pending := rest })

def next (outcome : RecvOutcome) (ticks : UInt64) (queue : List Datagram) :
    Option PacketView × UdpBatchReceiver × List Datagram :=
  let out := if r.pending = [] then r.receiveBatch outcome ticks queue else (r, queue)
  (out.1.takePending.1, out.1.takePending.2, out.2)

end Receive

end UdpBatchReceiver

/-! ## Two lines -/

inductive Line
  | a
  | b
  deriving DecidableEq

def Line.other : Line → Line
  | .a => .b
  | .b => .a

structure DualUdpBatchReceiver where
  receiver : Line → UdpBatchReceiver
  nextAFirst : Bool := true
  packets : Line → UInt64 := fun _ => 0

namespace DualUdpBatchReceiver

open Function

def create (batchSize : ℕ) : DualUdpBatchReceiver where
  receiver := fun _ => .create batchSize

variable (r : DualUdpBatchReceiver)

/-- The line that is asked first. -/
def first : Line := if r.nextAFirst then .a else .b

def next (outcome : Line → RecvOutcome) (ticks : Line → UInt64) (queue : Line → List Datagram) :
    Option PacketView × DualUdpBatchReceiver × (Line → List Datagram) :=
  let first := r.first
  let out := (r.receiver first).next (outcome first) (ticks first) (queue first)
  let r := { r with receiver := update r.receiver first out.2.1 }
  let queue := update queue first out.2.2
  match out.1 with
  | some packet => (some packet, { r with
      packets := update r.packets first (r.packets first + 1)
      nextAFirst := !r.nextAFirst }, queue)
  | none =>
    let second := first.other
    let out := (r.receiver second).next (outcome second) (ticks second) (queue second)
    let r := { r with receiver := update r.receiver second out.2.1 }
    let queue := update queue second out.2.2
    match out.1 with
    | some packet => (some packet, { r with
        packets := update r.packets second (r.packets second + 1) }, queue)
    | none => (none, r, queue)

end DualUdpBatchReceiver

/-! ## The lines -/

/-- The queues of the sockets and the receivers that empty them. `arrived` records what came into
the queues, and `taken` what was given out. -/
structure FeedLines where
  receiver : DualUdpBatchReceiver
  queue : Line → List Datagram := fun _ => []
  arrived : Line → List Datagram := fun _ => []
  taken : List PacketView := []

inductive LineEvent
  | arrive (line : Line) (datagram : Datagram)
  | next (outcome : Line → RecvOutcome) (ticks : Line → UInt64)

namespace FeedLines

open Function

def create (batchSize : ℕ) : FeedLines where
  receiver := .create batchSize

section Steps

variable (s : FeedLines)

def arrive (line : Line) (datagram : Datagram) : FeedLines :=
  { s with
    queue := update s.queue line (s.queue line ++ [datagram])
    arrived := update s.arrived line (s.arrived line ++ [datagram]) }

def next (outcome : Line → RecvOutcome) (ticks : Line → UInt64) : Option PacketView × FeedLines :=
  let out := s.receiver.next outcome ticks s.queue
  (out.1, { s with
    receiver := out.2.1
    queue := out.2.2
    taken := s.taken ++ out.1.toList })

def step : LineEvent → FeedLines
  | .arrive line datagram => s.arrive line datagram
  | .next outcome ticks => (s.next outcome ticks).2

def run (events : List LineEvent) : FeedLines := events.foldl step s

end Steps

end FeedLines

end AstraFeed
