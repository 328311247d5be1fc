import AstraFeed.ItchMoldUdpSender

/-!
# The redundant sender

The caller's thread sends on line A and hands the packet to the thread of line B, which acknowledges
it. Between any two steps of one thread the other may go on; a step is one access to an atomic, or
accesses to what is not atomic. A run is one order of all steps, and an access sees what was written
last before it: the release and acquire accesses of the atomics are taken to be sequentially
consistent. The CPUs and the startup are left out, and of the clock there is only whether a poll
finds the deadline ahead.
-/

namespace AstraFeed

/-- `data` points into a buffer of the caller. -/
structure RedundantPacketHandoff (Buffer : Type) where
  data : Option Buffer := none
  size : ℕ := 0
  msgCount : UInt16 := 0
  lineBSendSucceeded : Bool := false
  generation : UInt64 := 0
  lineBCompletedGeneration : UInt64 := 0
  stop : Bool := false

/-- The arguments of `send`. -/
structure SendCall (Buffer : Type) where
  data : Buffer
  size : ℕ
  msgCount : UInt16

/-- The next access of the caller's thread: outside of `send`, or where it is in `send` or in
`stopAndJoin`. -/
inductive CallerPc (Buffer : Type)
  | outside
  | sendA (call : SendCall Buffer)
  | setData (call : SendCall Buffer) (lineASent : Bool)
  | setSize (call : SendCall Buffer) (lineASent : Bool)
  | setMsgCount (call : SendCall Buffer) (lineASent : Bool)
  | clearSucceeded (call : SendCall Buffer) (lineASent : Bool)
  | setNotBefore (call : SendCall Buffer) (lineASent : Bool)
  | publish (call : SendCall Buffer) (lineASent : Bool)
  | loadCompleted (call : SendCall Buffer) (lineASent : Bool) (generation : UInt64)
  | checkFailed (call : SendCall Buffer) (lineASent : Bool) (generation : UInt64)
  | getResult (call : SendCall Buffer) (lineASent : Bool)
  | throwing
  | thrown (error : String)
  | bump
  | join
  | joined

/-- The next access of `lineBWorkerLoop`. -/
inductive WorkerPc
  | loadGeneration
  | checkStop (generation : UInt64)
  | delay (generation : UInt64)
  | poll (generation : UInt64)
  | sendB (generation : UInt64)
  | recordB (generation : UInt64)
  | complete (generation : UInt64)
  | returned
  | failing (error : String)
  | signalFailed
  | failed
  deriving DecidableEq

/-- What one `send` did. -/
structure SendRecord where
  data : List UInt8
  msgCount : UInt16
  outcome : LineOutcome

/-- `memory` holds the caller's buffers. `wireA` and `wireB` record what each line was given and
whether it took it, and `sends` the calls that have returned. -/
structure RedundantUdpSender (Buffer : Type) where
  handoff : RedundantPacketHandoff Buffer := {}
  lineA : RedundantLineState := {}
  lineB : RedundantLineState := {}
  delayOverruns : UInt64 := 0
  lineBDelayNs : UInt64
  workerFailed : Bool := false
  workerError : String := ""
  caller : CallerPc Buffer := .outside
  worker : WorkerPc := .loadGeneration
  observedGeneration : UInt64 := 0
  memory : Buffer → List UInt8
  wireA : List (List UInt8 × Bool) := []
  wireB : List (List UInt8 × Bool) := []
  sends : List SendRecord := []

/-- The caller fills a buffer, calls `send`, goes on inside of it or ends the sender; or line B's
thread goes on, polls the clock before its deadline, or has its send throw. `sent` is what `sendto`
gives. -/
inductive HandoffEvent (Buffer : Type)
  | fill (buffer : Buffer) (bytes : List UInt8)
  | call (call : SendCall Buffer)
  | caller (sent : Bool)
  | destroy
  | worker (sent overrun : Bool)
  | pollAhead
  | workerThrows (error : String)

namespace RedundantUdpSender

variable {Buffer : Type}

def create (lineBDelayNs : UInt64) (memory : Buffer → List UInt8) : RedundantUdpSender Buffer :=
  { lineBDelayNs := lineBDelayNs, memory := memory }

/-- The text of the exception. -/
def failureText (workerError : String) : String := "line B sender failed: " ++ workerError

section Steps

variable (s : RedundantUdpSender Buffer)

/-- The bytes a call is about. -/
def payload (data : Buffer) (size : ℕ) : List UInt8 := (s.memory data).take size

/-- The caller's thread inside of `send` and of `stopAndJoin`. -/
def callerStep (sent : Bool) : RedundantUdpSender Buffer :=
  match s.caller with
  | .sendA call => { s with
      lineA := s.lineA.record sent call.msgCount
      wireA := s.wireA ++ [(s.payload call.data call.size, sent)]
      caller := .setData call sent }
  | .setData call a => { s with
      handoff := { s.handoff with data := some call.data }
      caller := .setSize call a }
  | .setSize call a => { s with
      handoff := { s.handoff with size := call.size }
      caller := .setMsgCount call a }
  | .setMsgCount call a => { s with
      handoff := { s.handoff with msgCount := call.msgCount }
      caller := .clearSucceeded call a }
  | .clearSucceeded call a => { s with
      handoff := { s.handoff with lineBSendSucceeded := false }
      caller := .setNotBefore call a }
  | .setNotBefore call a => { s with caller := .publish call a }
  | .publish call a => { s with
      handoff := { s.handoff with generation := s.handoff.generation + 1 }
      caller := .loadCompleted call a (s.handoff.generation + 1) }
  | .loadCompleted call a generation => { s with
      caller := if s.handoff.lineBCompletedGeneration = generation then .getResult call a
        else .checkFailed call a generation }
  | .checkFailed call a generation => { s with
      caller := if s.workerFailed then .throwing else .loadCompleted call a generation }
  | .throwing => { s with caller := .thrown (failureText s.workerError) }
  | .getResult call a => { s with
      sends := s.sends ++ [⟨s.payload call.data call.size, call.msgCount,
        ⟨a, s.handoff.lineBSendSucceeded⟩⟩]
      caller := .outside }
  | .bump => { s with
      handoff := { s.handoff with generation := s.handoff.generation + 1 }
      caller := .join }
  | .join => if s.worker = .returned ∨ s.worker = .failed then { s with caller := .joined } else s
  | _ => s

/-- The thread of line B. -/
def workerStep (sent overrun : Bool) : RedundantUdpSender Buffer :=
  match s.worker with
  | .loadGeneration =>
    if s.handoff.generation = s.observedGeneration then s
    else { s with
      observedGeneration := s.handoff.generation
      worker := .checkStop s.handoff.generation }
  | .checkStop generation => { s with
      worker := if s.handoff.stop then .returned
        else if 0 < s.lineBDelayNs then .delay generation
        else .sendB generation }
  | .delay generation => { s with
      delayOverruns := if overrun then s.delayOverruns + 1 else s.delayOverruns
      worker := .poll generation }
  -- The deadline is reached, or the program is to stop.
  | .poll generation => { s with worker := .sendB generation }
  | .sendB generation =>
    match s.handoff.data with
    | none => s
    | some data => { s with
        handoff := { s.handoff with lineBSendSucceeded := sent }
        wireB := s.wireB ++ [(s.payload data s.handoff.size, sent)]
        worker := .recordB generation }
  | .recordB generation => { s with
      lineB := s.lineB.record s.handoff.lineBSendSucceeded s.handoff.msgCount
      worker := .complete generation }
  | .complete generation => { s with
      handoff := { s.handoff with lineBCompletedGeneration := generation }
      worker := .loadGeneration }
  | .failing error => { s with workerError := error, worker := .signalFailed }
  | .signalFailed => { s with workerFailed := true, worker := .failed }
  | _ => s

end Steps

/-- An event that cannot happen is passed over. -/
def step [DecidableEq Buffer] (s : RedundantUdpSender Buffer) :
    HandoffEvent Buffer → RedundantUdpSender Buffer
  | .fill buffer bytes =>
    match s.caller with
    | .outside => { s with memory := Function.update s.memory buffer bytes }
    | _ => s
  | .call call =>
    match s.caller with
    | .outside => { s with caller := if s.workerFailed then .throwing else .sendA call }
    | _ => s
  | .caller sent => s.callerStep sent
  | .destroy =>
    match s.caller with
    | .outside | .thrown _ => { s with handoff := { s.handoff with stop := true }, caller := .bump }
    | _ => s
  | .worker sent overrun => s.workerStep sent overrun
  | .pollAhead => s
  | .workerThrows error =>
    match s.worker with
    | .sendB _ => { s with worker := .failing error }
    | _ => s

def run [DecidableEq Buffer] (s : RedundantUdpSender Buffer) (events : List (HandoffEvent Buffer)) :
    RedundantUdpSender Buffer := events.foldl step s

/-! ## What the threads touch -/

/-- What is shared and not atomic. -/
inductive Location (Buffer : Type)
  | data
  | size
  | msgCount
  | lineBSendSucceeded
  | lineBNotBefore
  | lineB
  | workerError
  | buffer (buffer : Buffer)

/-- What the caller's thread may read or write next. Outside of `send` it may use its buffers and
read the counters of line B. -/
def callerTouches (s : RedundantUdpSender Buffer) : Set (Location Buffer) :=
  match s.caller with
  | .outside | .thrown _ | .joined => {.lineB} ∪ Set.range .buffer
  | .sendA call => {.buffer call.data}
  | .setData _ _ => {.data}
  | .setSize _ _ => {.size}
  | .setMsgCount _ _ => {.msgCount}
  | .clearSucceeded _ _ => {.lineBSendSucceeded}
  | .setNotBefore _ _ => {.lineBNotBefore}
  | .getResult call _ => {.lineBSendSucceeded, .buffer call.data}
  | .throwing => {.workerError}
  | _ => ∅

/-- What the thread of line B may read or write next. -/
def workerTouches (s : RedundantUdpSender Buffer) : Set (Location Buffer) :=
  match s.worker with
  | .delay _ => {.lineBNotBefore, .lineB}
  | .poll _ => {.lineBNotBefore}
  | .sendB _ => {.data, .size, .lineBSendSucceeded} ∪ Set.range .buffer
  | .recordB _ => {.lineBSendSucceeded, .msgCount, .lineB}
  | .failing _ => {.workerError}
  | _ => ∅

end RedundantUdpSender

end AstraFeed
