import AstraFeed.Proofs.ItchMoldUdpSender
import AstraFeed.RedundantUdpSender

/-!
# The lines in step

Every reachable state is in one of a few phases (`Phase`), whatever the two threads do in between:
so they never touch the same thing at once, and a call that returns has given both lines the same
packet.
-/

namespace AstraFeed

namespace RedundantUdpSender

open ItchMoldUdpSender (shortConfig)

variable {Buffer : Type} {s s' : RedundantUdpSender Buffer} {call : SendCall Buffer} {a b : Bool}
  {records : List SendRecord}

/-! ## Phases -/

/-- Line A was given the packets, and counts them. -/
structure LineAHas (s : RedundantUdpSender Buffer) (records : List SendRecord) : Prop where
  wire : s.wireA = records.map fun r => (r.data, r.outcome.lineA)
  counts : s.lineA = records.foldl (fun line r => line.record r.outcome.lineA r.msgCount) {}

structure LineBHas (s : RedundantUdpSender Buffer) (records : List SendRecord) : Prop where
  wire : s.wireB = records.map fun r => (r.data, r.outcome.lineB)
  counts : s.lineB = records.foldl (fun line r => line.record r.outcome.lineB r.msgCount) {}

/-- What a call in progress will have done. -/
def current (s : RedundantUdpSender Buffer) (call : SendCall Buffer) (a b : Bool) : SendRecord :=
  ⟨s.payload call.data call.size, call.msgCount, ⟨a, b⟩⟩

/-- The thread of line B has acknowledged everything, and waits. -/
structure Quiet (s : RedundantUdpSender Buffer) : Prop where
  worker : s.worker = .loadGeneration
  observed : s.observedGeneration = s.handoff.generation
  completed : s.handoff.lineBCompletedGeneration = s.handoff.generation
  working : s.workerFailed = false
  running : s.handoff.stop = false

/-- The packet is in the handoff. -/
structure Given (handoff : RedundantPacketHandoff Buffer) (call : SendCall Buffer) : Prop where
  data : handoff.data = some call.data
  size : handoff.size = call.size
  msgCount : handoff.msgCount = call.msgCount

/-- How far the packet is in the handoff. -/
inductive Publishing (handoff : RedundantPacketHandoff Buffer) (call : SendCall Buffer) (a : Bool) :
    CallerPc Buffer → Prop
  | setData : Publishing handoff call a (.setData call a)
  | setSize (hdata : handoff.data = some call.data) : Publishing handoff call a (.setSize call a)
  | setMsgCount (hdata : handoff.data = some call.data) (hsize : handoff.size = call.size) :
    Publishing handoff call a (.setMsgCount call a)
  | clearSucceeded (h : Given handoff call) : Publishing handoff call a (.clearSucceeded call a)
  | setNotBefore (h : Given handoff call) : Publishing handoff call a (.setNotBefore call a)
  | publish (h : Given handoff call) : Publishing handoff call a (.publish call a)

/-- The caller waits for the acknowledgement of its packet. -/
inductive Waits (generation : UInt64) (call : SendCall Buffer) (a : Bool) : CallerPc Buffer → Prop
  | loadCompleted : Waits generation call a (.loadCompleted call a generation)
  | checkFailed : Waits generation call a (.checkFailed call a generation)

/-- What holds while a packet is with line B. -/
structure Pending (s : RedundantUdpSender Buffer) (call : SendCall Buffer) (a : Bool) : Prop where
  caller : Waits s.handoff.generation call a s.caller
  given : Given s.handoff call
  ahead : s.handoff.lineBCompletedGeneration + 1 = s.handoff.generation
  lineA : LineAHas s (s.sends ++ [s.current call a false])
  running : s.handoff.stop = false

/-- The thread of line B has not sent the packet yet, or cannot. -/
inductive Before (generation observed : UInt64) : WorkerPc → Prop
  | load (h : observed + 1 = generation) : Before generation observed .loadGeneration
  | checkStop (h : observed = generation) : Before generation observed (.checkStop generation)
  | delay (h : observed = generation) : Before generation observed (.delay generation)
  | poll (h : observed = generation) : Before generation observed (.poll generation)
  | sendB (h : observed = generation) : Before generation observed (.sendB generation)
  | failing (error : String) : Before generation observed (.failing error)
  | signalFailed : Before generation observed .signalFailed

/-- Where the threads can be when the sender is stopped. -/
inductive Stopping (generation observed : UInt64) : CallerPc Buffer → WorkerPc → Prop
  | bump (h : observed = generation) : Stopping generation observed .bump .loadGeneration
  | join (h : observed + 1 = generation) : Stopping generation observed .join .loadGeneration
  | checkStop : Stopping generation observed .join (.checkStop generation)
  | returned : Stopping generation observed .join .returned
  | joined : Stopping generation observed .joined .returned

/-- Where the two threads are. -/
inductive Phase (s : RedundantUdpSender Buffer) : Prop
  | rest (hcaller : s.caller = .outside ∨ ∃ call, s.caller = .sendA call) (hquiet : Quiet s)
    (ha : LineAHas s s.sends) (hb : LineBHas s s.sends)
  | publishing (call : SendCall Buffer) (a : Bool)
    (hcaller : Publishing s.handoff call a s.caller) (hquiet : Quiet s)
    (ha : LineAHas s (s.sends ++ [s.current call a false])) (hb : LineBHas s s.sends)
  | pending (call : SendCall Buffer) (a : Bool) (h : Pending s call a)
    (hworker : Before s.handoff.generation s.observedGeneration s.worker)
    (hworking : s.workerFailed = false) (hb : LineBHas s s.sends)
  | recording (call : SendCall Buffer) (a : Bool) (h : Pending s call a)
    (hworker : s.worker = .recordB s.handoff.generation)
    (hobserved : s.observedGeneration = s.handoff.generation) (hworking : s.workerFailed = false)
    (hwire : s.wireB = (s.sends ++ [s.current call a s.handoff.lineBSendSucceeded]).map
      fun r => (r.data, r.outcome.lineB))
    (hcounts : s.lineB = s.sends.foldl (fun line r => line.record r.outcome.lineB r.msgCount) {})
  | completing (call : SendCall Buffer) (a : Bool) (h : Pending s call a)
    (hworker : s.worker = .complete s.handoff.generation)
    (hobserved : s.observedGeneration = s.handoff.generation) (hworking : s.workerFailed = false)
    (hb : LineBHas s (s.sends ++ [s.current call a s.handoff.lineBSendSucceeded]))
  | acknowledged (call : SendCall Buffer) (a : Bool)
    (hcaller : Waits s.handoff.generation call a s.caller ∨ s.caller = .getResult call a)
    (hquiet : Quiet s) (ha : LineAHas s (s.sends ++ [s.current call a false]))
    (hb : LineBHas s (s.sends ++ [s.current call a s.handoff.lineBSendSucceeded]))
  | failed (call : SendCall Buffer) (a : Bool)
    (hcaller : Waits s.handoff.generation call a s.caller ∧
        s.handoff.lineBCompletedGeneration + 1 = s.handoff.generation
      ∨ s.caller = .throwing ∨ s.caller = .thrown (failureText s.workerError)
      ∨ s.caller = .bump ∨ s.caller = .join ∨ s.caller = .joined)
    (hworker : s.worker = .failed) (hfailed : s.workerFailed = true)
    (ha : LineAHas s (s.sends ++ [s.current call a false])) (hb : LineBHas s s.sends)
  | stopping (hstage : Stopping s.handoff.generation s.observedGeneration s.caller s.worker)
    (hstop : s.handoff.stop = true)
    (hworking : s.workerFailed = false) (ha : LineAHas s s.sends) (hb : LineBHas s s.sends)

theorem add_one_ne (n : UInt64) : n + 1 ≠ n := by
  intro h
  have h := congrArg UInt64.toNat h
  have hlt := n.toNat_lt
  rw [UInt64.toNat_add, show (1 : UInt64).toNat = 1 from rfl] at h
  omega

theorem phase_create (lineBDelayNs : UInt64) (memory : Buffer → List UInt8) :
    Phase (create lineBDelayNs memory) :=
  .rest (.inl rfl) ⟨rfl, rfl, rfl, rfl, rfl⟩ ⟨rfl, rfl⟩ ⟨rfl, rfl⟩

/-! ## Steps -/

/-- What line A has does not depend on line B. -/
theorem LineAHas.current (h : LineAHas s (records ++ [s.current call a false])) (b : Bool) :
    LineAHas s (records ++ [s.current call a b]) := by
  refine ⟨h.wire.trans ?_, h.counts.trans ?_⟩
  · simp [RedundantUdpSender.current]
  · simp [RedundantUdpSender.current]

theorem LineAHas.congr (h : LineAHas s records) (hwire : s'.wireA = s.wireA)
    (hline : s'.lineA = s.lineA) : LineAHas s' records :=
  ⟨hwire.trans h.wire, hline.trans h.counts⟩

theorem LineBHas.congr (h : LineBHas s records) (hwire : s'.wireB = s.wireB)
    (hline : s'.lineB = s.lineB) : LineBHas s' records :=
  ⟨hwire.trans h.wire, hline.trans h.counts⟩

theorem Waits.step (h : Waits s.handoff.generation call a s.caller)
    (hne : s.handoff.lineBCompletedGeneration + 1 = s.handoff.generation)
    (hworking : s.workerFailed = false) (sent : Bool) :
    ∃ caller, Waits s.handoff.generation call a caller
      ∧ s.callerStep sent = { s with caller := caller } := by
  have hcompleted : s.handoff.lineBCompletedGeneration ≠ s.handoff.generation := by
    rw [← hne]
    exact (add_one_ne _).symm
  generalize hcaller : s.caller = caller at h
  unfold callerStep
  rw [hcaller]
  cases h with
  | loadCompleted =>
    dsimp only
    rw [if_neg hcompleted]
    exact ⟨_, .checkFailed, rfl⟩
  | checkFailed =>
    dsimp only
    rw [hworking]
    exact ⟨_, .loadCompleted, rfl⟩

theorem Pending.caller_step (h : Pending s call a) (hworking : s.workerFailed = false)
    (sent : Bool) : ∃ caller, s.callerStep sent = { s with caller := caller }
      ∧ Pending { s with caller := caller } call a := by
  obtain ⟨caller, hwaits, hout⟩ := h.caller.step h.ahead hworking sent
  exact ⟨caller, hout, hwaits, h.given, h.ahead, h.lineA.congr rfl rfl, h.running⟩

theorem Pending.congr (h : Pending s call a) (hcaller : s'.caller = s.caller)
    (hhandoff : s'.handoff = s.handoff) (hmemory : s'.memory = s.memory)
    (hsends : s'.sends = s.sends) (hwire : s'.wireA = s.wireA) (hline : s'.lineA = s.lineA) :
    Pending s' call a := by
  have hcurrent : s'.current call a false = s.current call a false := by
    unfold RedundantUdpSender.current payload
    rw [hmemory]
  refine ⟨?_, hhandoff ▸ h.given, hhandoff ▸ h.ahead, ?_, hhandoff ▸ h.running⟩
  · rw [hcaller, hhandoff]
    exact h.caller
  · rw [hsends, hcurrent]
    exact h.lineA.congr hwire hline

theorem Quiet.worker_step (h : Quiet s) (sent overrun : Bool) : s.workerStep sent overrun = s := by
  unfold workerStep
  rw [h.worker]
  exact if_pos h.observed.symm

/-- The caller writes the handoff field by field, and then publishes it. -/
theorem Phase.publish (hcaller : Publishing s.handoff call a s.caller) (hquiet : Quiet s)
    (ha : LineAHas s (s.sends ++ [s.current call a false])) (hb : LineBHas s s.sends)
    (sent : Bool) : Phase (s.callerStep sent) := by
  generalize hpc : s.caller = caller at hcaller
  unfold callerStep
  rw [hpc]
  have hquiet' : ∀ {handoff : RedundantPacketHandoff Buffer} {pc : CallerPc Buffer},
      handoff.generation = s.handoff.generation →
      handoff.lineBCompletedGeneration = s.handoff.lineBCompletedGeneration →
      handoff.stop = s.handoff.stop → Quiet { s with handoff := handoff, caller := pc } :=
    fun hg hc hs => ⟨hquiet.worker, hquiet.observed.trans hg.symm,
      hc.trans (hquiet.completed.trans hg.symm), hquiet.working, hs.trans hquiet.running⟩
  cases hcaller with
  | setData =>
    exact .publishing call a (.setSize rfl) (hquiet' rfl rfl rfl) (ha.congr rfl rfl)
      (hb.congr rfl rfl)
  | setSize hdata =>
    exact .publishing call a (.setMsgCount hdata rfl) (hquiet' rfl rfl rfl) (ha.congr rfl rfl)
      (hb.congr rfl rfl)
  | setMsgCount hdata hsize =>
    exact .publishing call a (.clearSucceeded ⟨hdata, hsize, rfl⟩) (hquiet' rfl rfl rfl)
      (ha.congr rfl rfl) (hb.congr rfl rfl)
  | clearSucceeded h =>
    exact .publishing call a (.setNotBefore ⟨h.data, h.size, h.msgCount⟩) (hquiet' rfl rfl rfl)
      (ha.congr rfl rfl) (hb.congr rfl rfl)
  | setNotBefore h =>
    exact .publishing call a (.publish h) (hquiet' rfl rfl rfl) (ha.congr rfl rfl)
      (hb.congr rfl rfl)
  | publish h =>
    refine .pending call a ⟨.loadCompleted, ⟨h.data, h.size, h.msgCount⟩, ?_, ha.congr rfl rfl,
      hquiet.running⟩ ?_ hquiet.working (hb.congr rfl rfl)
    · exact congrArg (· + 1) hquiet.completed
    · show Before _ _ s.worker
      rw [hquiet.worker]
      exact .load (congrArg (· + 1) hquiet.observed)

theorem Phase.callerStep (h : Phase s) (sent : Bool) : Phase (s.callerStep sent) := by
  cases h with
  | rest hcaller hquiet ha hb =>
    rcases hcaller with hcaller | ⟨call, hcaller⟩
    · unfold RedundantUdpSender.callerStep
      rw [hcaller]
      exact .rest (.inl hcaller) hquiet ha hb
    · unfold RedundantUdpSender.callerStep
      rw [hcaller]
      refine .publishing call sent .setData ⟨hquiet.worker, hquiet.observed, hquiet.completed,
        hquiet.working, hquiet.running⟩ ⟨?_, ?_⟩ (hb.congr rfl rfl)
      · rw [List.map_append, ← ha.wire]
        rfl
      · rw [List.foldl_append, ← ha.counts]
        rfl
  | publishing call a hcaller hquiet ha hb => exact .publish hcaller hquiet ha hb sent
  | pending call a h hworker hworking hb =>
    obtain ⟨caller, hout, h'⟩ := h.caller_step hworking sent
    rw [hout]
    exact .pending call a h' hworker hworking (hb.congr rfl rfl)
  | recording call a h hworker hobserved hworking hwire hcounts =>
    obtain ⟨caller, hout, h'⟩ := h.caller_step hworking sent
    rw [hout]
    exact .recording call a h' hworker hobserved hworking hwire hcounts
  | completing call a h hworker hobserved hworking hb =>
    obtain ⟨caller, hout, h'⟩ := h.caller_step hworking sent
    rw [hout]
    exact .completing call a h' hworker hobserved hworking (hb.congr rfl rfl)
  | acknowledged call a hcaller hquiet ha hb =>
    have hquiet' : ∀ pc, Quiet { s with caller := pc } := fun pc => ⟨hquiet.worker,
      hquiet.observed, hquiet.completed, hquiet.working, hquiet.running⟩
    generalize hpc : s.caller = caller at hcaller
    unfold RedundantUdpSender.callerStep
    rw [hpc]
    rcases hcaller with (_ | _) | rfl
    · dsimp only
      rw [if_pos hquiet.completed]
      exact .acknowledged call a (.inr rfl) (hquiet' _) (ha.congr rfl rfl) (hb.congr rfl rfl)
    · dsimp only
      rw [if_neg (Bool.eq_false_iff.1 hquiet.working)]
      exact .acknowledged call a (.inl .loadCompleted) (hquiet' _) (ha.congr rfl rfl)
        (hb.congr rfl rfl)
    · exact .rest (.inl rfl) ⟨hquiet.worker, hquiet.observed, hquiet.completed, hquiet.working,
        hquiet.running⟩ ((ha.current _).congr rfl rfl) (hb.congr rfl rfl)
  | failed call a hcaller hworker hfailed ha hb =>
    have hkept : ∀ pc, (Waits s.handoff.generation call a pc
          ∧ s.handoff.lineBCompletedGeneration + 1 = s.handoff.generation
        ∨ pc = .throwing ∨ pc = .thrown (failureText s.workerError)
        ∨ pc = .bump ∨ pc = .join ∨ pc = .joined) →
        Phase { s with caller := pc } := fun pc hpc =>
      .failed call a hpc hworker hfailed (ha.congr rfl rfl) (hb.congr rfl rfl)
    generalize hpc : s.caller = caller at hcaller
    unfold RedundantUdpSender.callerStep
    rw [hpc]
    rcases hcaller with ⟨_ | _, hahead⟩ | rfl | rfl | rfl | rfl | rfl
    · have hne : s.handoff.lineBCompletedGeneration ≠ s.handoff.generation := by
        rw [← hahead]
        exact (add_one_ne _).symm
      dsimp only
      rw [if_neg hne]
      exact hkept _ (.inl ⟨.checkFailed, hahead⟩)
    · dsimp only
      rw [if_pos hfailed]
      exact hkept _ (.inr (.inl rfl))
    · exact hkept _ (.inr (.inr (.inl rfl)))
    · exact .failed call a (.inr (.inr (.inl hpc))) hworker hfailed ha hb
    · exact .failed call a (.inr (.inr (.inr (.inr (.inl rfl))))) hworker hfailed
        (ha.congr rfl rfl) (hb.congr rfl rfl)
    · dsimp only
      rw [if_pos (.inr hworker)]
      exact hkept _ (.inr (.inr (.inr (.inr (.inr rfl)))))
    · exact .failed call a (.inr (.inr (.inr (.inr (.inr hpc))))) hworker hfailed ha hb
  | stopping hstage hstop hworking ha hb =>
    generalize hpc : s.caller = caller at hstage
    generalize hworker : s.worker = worker at hstage
    unfold RedundantUdpSender.callerStep
    rw [hpc]
    have hkept : ∀ {handoff : RedundantPacketHandoff Buffer} {pc : CallerPc Buffer},
        Stopping handoff.generation s.observedGeneration pc s.worker → handoff.stop = true →
        Phase { s with handoff := handoff, caller := pc } :=
      fun h hs => .stopping h hs hworking (ha.congr rfl rfl) (hb.congr rfl rfl)
    cases hstage with
    | bump h =>
      refine hkept ?_ hstop
      rw [hworker]
      exact .join (congrArg (· + 1) h)
    | join h =>
      dsimp only
      rw [hworker, if_neg (by simp)]
      refine .stopping ?_ hstop hworking ha hb
      rw [hpc, hworker]
      exact .join h
    | checkStop =>
      dsimp only
      rw [hworker, if_neg (by simp)]
      refine .stopping ?_ hstop hworking ha hb
      rw [hpc, hworker]
      exact .checkStop
    | returned =>
      dsimp only
      rw [if_pos (.inl hworker)]
      refine hkept ?_ hstop
      rw [hworker]
      exact .joined
    | joined =>
      refine .stopping ?_ hstop hworking ha hb
      rw [hpc, hworker]
      exact .joined

theorem Phase.workerStep (h : Phase s) (sent overrun : Bool) :
    Phase (s.workerStep sent overrun) := by
  cases h with
  | rest hcaller hquiet ha hb =>
    have hout : s.workerStep sent overrun = s := hquiet.worker_step sent overrun
    rw [hout]
    exact .rest hcaller hquiet ha hb
  | publishing call a hcaller hquiet ha hb =>
    have hout : s.workerStep sent overrun = s := hquiet.worker_step sent overrun
    rw [hout]
    exact .publishing call a hcaller hquiet ha hb
  | acknowledged call a hcaller hquiet ha hb =>
    have hout : s.workerStep sent overrun = s := hquiet.worker_step sent overrun
    rw [hout]
    exact .acknowledged call a hcaller hquiet ha hb
  | failed call a hcaller hworker hfailed ha hb =>
    have hout : s.workerStep sent overrun = s := by
      unfold RedundantUdpSender.workerStep
      rw [hworker]
    rw [hout]
    exact .failed call a hcaller hworker hfailed ha hb
  | pending call a h hworker hworking hb =>
    generalize hpc : s.worker = worker at hworker
    have hdata := h.given.data
    unfold RedundantUdpSender.workerStep
    rw [hpc]
    cases hworker with
    | load hobserved =>
      have hne : s.handoff.generation ≠ s.observedGeneration := by
        rw [← hobserved]
        exact add_one_ne _
      dsimp only
      rw [if_neg hne]
      exact .pending call a (h.congr rfl rfl rfl rfl rfl rfl) (.checkStop rfl) hworking
        (hb.congr rfl rfl)
    | checkStop hobserved =>
      dsimp only
      rw [if_neg (Bool.eq_false_iff.1 h.running)]
      split_ifs
      · exact .pending call a (h.congr rfl rfl rfl rfl rfl rfl) (.delay hobserved) hworking
          (hb.congr rfl rfl)
      · exact .pending call a (h.congr rfl rfl rfl rfl rfl rfl) (.sendB hobserved) hworking
          (hb.congr rfl rfl)
    | delay hobserved =>
      exact .pending call a (h.congr rfl rfl rfl rfl rfl rfl) (.poll hobserved) hworking
        (hb.congr rfl rfl)
    | poll hobserved =>
      exact .pending call a (h.congr rfl rfl rfl rfl rfl rfl) (.sendB hobserved) hworking
        (hb.congr rfl rfl)
    | sendB hobserved =>
      dsimp only
      split
      · simp_all
      · rename_i data hdata'
        obtain rfl : data = call.data := Option.some.inj (hdata'.symm.trans hdata)
        refine .recording call a ⟨h.caller, ⟨h.given.data, h.given.size, h.given.msgCount⟩,
          h.ahead, h.lineA.congr rfl rfl, h.running⟩ rfl hobserved hworking ?_ hb.counts
        rw [List.map_append, ← hb.wire]
        simp [RedundantUdpSender.current, payload, h.given.size]
    | failing error =>
      exact .pending call a (h.congr rfl rfl rfl rfl rfl rfl) .signalFailed hworking
        (hb.congr rfl rfl)
    | signalFailed =>
      exact .failed call a (.inl ⟨h.caller, h.ahead⟩) rfl rfl (h.lineA.congr rfl rfl)
        (hb.congr rfl rfl)
  | recording call a h hworker hobserved hworking hwire hcounts =>
    unfold RedundantUdpSender.workerStep
    rw [hworker]
    refine .completing call a (h.congr rfl rfl rfl rfl rfl rfl) rfl hobserved hworking ⟨hwire, ?_⟩
    rw [List.foldl_append, ← hcounts, h.given.msgCount]
    rfl
  | completing call a h hworker hobserved hworking hb =>
    unfold RedundantUdpSender.workerStep
    rw [hworker]
    exact .acknowledged call a (.inl h.caller) ⟨rfl, hobserved, rfl, hworking, h.running⟩
      (h.lineA.congr rfl rfl) (hb.congr rfl rfl)
  | stopping hstage hstop hworking ha hb =>
    have hkept : ∀ {observed : UInt64} {pc : WorkerPc},
        Stopping s.handoff.generation observed s.caller pc →
        Phase { s with observedGeneration := observed, worker := pc } :=
      fun h => .stopping h hstop hworking (ha.congr rfl rfl) (hb.congr rfl rfl)
    have hstage' := hstage
    generalize hpc : s.worker = worker at hstage
    generalize hcaller : s.caller = caller at hstage
    unfold RedundantUdpSender.workerStep
    rw [hpc]
    cases hstage with
    | bump h =>
      dsimp only
      rw [if_pos h.symm]
      exact .stopping hstage' hstop hworking ha hb
    | join h =>
      have hne : s.handoff.generation ≠ s.observedGeneration := by
        rw [← h]
        exact add_one_ne _
      dsimp only
      rw [if_neg hne]
      refine hkept ?_
      rw [hcaller]
      exact .checkStop
    | checkStop =>
      dsimp only
      rw [if_pos hstop]
      refine hkept ?_
      rw [hcaller]
      exact .returned
    | returned => exact .stopping hstage' hstop hworking ha hb
    | joined => exact .stopping hstage' hstop hworking ha hb

/-! ## The other events -/

theorem Quiet.congr (h : Quiet s) (hhandoff : s'.handoff = s.handoff) (hworker : s'.worker = s.worker)
    (hobserved : s'.observedGeneration = s.observedGeneration)
    (hfailed : s'.workerFailed = s.workerFailed) : Quiet s' :=
  ⟨hworker.trans h.worker, by rw [hobserved, hhandoff, h.observed],
    by rw [hhandoff, h.completed], hfailed.trans h.working, by rw [hhandoff, h.running]⟩

theorem Phase.of_outside (h : Phase s) (hout : s.caller = .outside) :
    Quiet s ∧ LineAHas s s.sends ∧ LineBHas s s.sends := by
  cases h with
  | rest hcaller hquiet ha hb => exact ⟨hquiet, ha, hb⟩
  | publishing call a hcaller hquiet ha hb =>
    rw [hout] at hcaller
    cases hcaller
  | pending call a h hworker hworking hb =>
    have hcaller := h.caller
    rw [hout] at hcaller
    cases hcaller
  | recording call a h hworker hobserved hworking hwire hcounts =>
    have hcaller := h.caller
    rw [hout] at hcaller
    cases hcaller
  | completing call a h hworker hobserved hworking hb =>
    have hcaller := h.caller
    rw [hout] at hcaller
    cases hcaller
  | acknowledged call a hcaller hquiet ha hb =>
    rw [hout] at hcaller
    rcases hcaller with hcaller | hcaller <;> cases hcaller
  | failed call a hcaller hworker hfailed ha hb =>
    rw [hout] at hcaller
    rcases hcaller with ⟨hcaller, -⟩ | hcaller | hcaller | hcaller | hcaller | hcaller <;>
      cases hcaller
  | stopping hstage hstop hworking ha hb =>
    rw [hout] at hstage
    cases hstage

theorem Phase.of_thrown (h : Phase s) {error : String} (hthrown : s.caller = .thrown error) :
    error = failureText s.workerError ∧ s.worker = .failed ∧ s.workerFailed = true
      ∧ ∃ call a, LineAHas s (s.sends ++ [s.current call a false]) ∧ LineBHas s s.sends := by
  cases h with
  | rest hcaller hquiet ha hb =>
    rw [hthrown] at hcaller
    rcases hcaller with hcaller | ⟨_, hcaller⟩ <;> cases hcaller
  | publishing call a hcaller hquiet ha hb =>
    rw [hthrown] at hcaller
    cases hcaller
  | pending call a h hworker hworking hb =>
    have hcaller := h.caller
    rw [hthrown] at hcaller
    cases hcaller
  | recording call a h hworker hobserved hworking hwire hcounts =>
    have hcaller := h.caller
    rw [hthrown] at hcaller
    cases hcaller
  | completing call a h hworker hobserved hworking hb =>
    have hcaller := h.caller
    rw [hthrown] at hcaller
    cases hcaller
  | acknowledged call a hcaller hquiet ha hb =>
    rw [hthrown] at hcaller
    rcases hcaller with hcaller | hcaller <;> cases hcaller
  | failed call a hcaller hworker hfailed ha hb =>
    refine ⟨?_, hworker, hfailed, call, a, ha, hb⟩
    rw [hthrown] at hcaller
    rcases hcaller with ⟨hcaller, -⟩ | hcaller | hcaller | hcaller | hcaller | hcaller <;>
      cases hcaller
    rfl
  | stopping hstage hstop hworking ha hb =>
    rw [hthrown] at hstage
    cases hstage

/-- Line B fails only while a packet is with it. -/
theorem Phase.of_sendB (h : Phase s) {generation : UInt64} (hsend : s.worker = .sendB generation) :
    ∃ call a, Pending s call a ∧ s.workerFailed = false ∧ LineBHas s s.sends := by
  cases h with
  | rest hcaller hquiet ha hb =>
    have hworker := hquiet.worker
    rw [hsend] at hworker
    cases hworker
  | publishing call a hcaller hquiet ha hb =>
    have hworker := hquiet.worker
    rw [hsend] at hworker
    cases hworker
  | pending call a h hworker hworking hb => exact ⟨call, a, h, hworking, hb⟩
  | recording call a h hworker hobserved hworking hwire hcounts =>
    rw [hsend] at hworker
    cases hworker
  | completing call a h hworker hobserved hworking hb =>
    rw [hsend] at hworker
    cases hworker
  | acknowledged call a hcaller hquiet ha hb =>
    have hworker := hquiet.worker
    rw [hsend] at hworker
    cases hworker
  | failed call a hcaller hworker hfailed ha hb =>
    rw [hsend] at hworker
    cases hworker
  | stopping hstage hstop hworking ha hb =>
    rw [hsend] at hstage
    generalize s.caller = caller at hstage
    cases hstage

theorem Phase.step [DecidableEq Buffer] (h : Phase s) (event : HandoffEvent Buffer) :
    Phase (s.step event) := by
  cases event with
  | fill buffer bytes =>
    unfold RedundantUdpSender.step
    dsimp only
    split
    · rename_i hout
      obtain ⟨hquiet, ha, hb⟩ := h.of_outside hout
      exact .rest (.inl hout) (hquiet.congr rfl rfl rfl rfl) (ha.congr rfl rfl) (hb.congr rfl rfl)
    · exact h
  | call call =>
    unfold RedundantUdpSender.step
    dsimp only
    split
    · rename_i hout
      obtain ⟨hquiet, ha, hb⟩ := h.of_outside hout
      rw [if_neg (Bool.eq_false_iff.1 hquiet.working)]
      exact .rest (.inr ⟨call, rfl⟩) (hquiet.congr rfl rfl rfl rfl) (ha.congr rfl rfl)
        (hb.congr rfl rfl)
    · exact h
  | caller sent => exact h.callerStep sent
  | destroy =>
    unfold RedundantUdpSender.step
    dsimp only
    split
    · rename_i hout
      obtain ⟨hquiet, ha, hb⟩ := h.of_outside hout
      refine .stopping ?_ rfl hquiet.working (ha.congr rfl rfl) (hb.congr rfl rfl)
      show Stopping _ _ _ s.worker
      rw [hquiet.worker]
      exact .bump hquiet.observed
    · rename_i hthrown
      obtain ⟨-, hworker, hfailed, call, a, ha, hb⟩ := h.of_thrown hthrown
      exact .failed call a (.inr (.inr (.inr (.inl rfl)))) hworker hfailed (ha.congr rfl rfl)
        (hb.congr rfl rfl)
    · exact h
  | worker sent overrun => exact h.workerStep sent overrun
  | pollAhead => exact h
  | workerThrows error =>
    unfold RedundantUdpSender.step
    dsimp only
    split
    · rename_i generation hsend
      obtain ⟨call, a, hpending, hworking, hb⟩ := h.of_sendB hsend
      exact .pending call a (hpending.congr rfl rfl rfl rfl rfl rfl) (.failing error) hworking
        (hb.congr rfl rfl)
    · exact h

theorem phase_run [DecidableEq Buffer] (lineBDelayNs : UInt64) (memory : Buffer → List UInt8)
    (events : List (HandoffEvent Buffer)) :
    Phase (run (create lineBDelayNs memory) events) := by
  unfold run
  induction events using List.reverseRecOn with
  | nil => exact phase_create lineBDelayNs memory
  | append_singleton events event ih =>
    rw [List.foldl_append]
    exact ih.step event

/-! ## Safety -/

theorem callerTouches_of_waits {generation : UInt64}
    (h : Waits generation call a s.caller) : s.callerTouches = ∅ := by
  unfold callerTouches
  generalize s.caller = caller at h
  cases h <;> rfl

theorem Quiet.workerTouches (h : Quiet s) : s.workerTouches = ∅ := by
  unfold RedundantUdpSender.workerTouches
  rw [h.worker]

theorem Phase.no_race (h : Phase s) : ∀ l ∈ s.callerTouches, l ∉ s.workerTouches := by
  cases h with
  | rest hcaller hquiet ha hb => simp [hquiet.workerTouches]
  | publishing call a hcaller hquiet ha hb => simp [hquiet.workerTouches]
  | pending call a h hworker hworking hb => simp [callerTouches_of_waits h.caller]
  | recording call a h hworker hobserved hworking hwire hcounts =>
    simp [callerTouches_of_waits h.caller]
  | completing call a h hworker hobserved hworking hb => simp [callerTouches_of_waits h.caller]
  | acknowledged call a hcaller hquiet ha hb => simp [hquiet.workerTouches]
  | failed call a hcaller hworker hfailed ha hb => simp [workerTouches, hworker]
  | stopping hstage hstop hworking ha hb =>
    have hnone : s.workerTouches = ∅ := by
      unfold workerTouches
      generalize s.caller = caller at hstage
      generalize s.worker = worker at hstage
      cases hstage <;> rfl
    simp [hnone]

/-- Line B has sent what line A has sent, or all of it but the last packet. -/
def Behind (s : RedundantUdpSender Buffer) : Prop :=
  s.wireB.map Prod.fst = s.wireA.map Prod.fst
    ∨ ∃ data, s.wireB.map Prod.fst ++ [data] = s.wireA.map Prod.fst

theorem behind_of_level (ha : LineAHas s (records ++ [s.current call a false]))
    (hwire : s.wireB = (records ++ [s.current call a b]).map fun r => (r.data, r.outcome.lineB)) :
    Behind s := by
  left
  rw [ha.wire, hwire]
  simp [current]

theorem behind_of_ahead (ha : LineAHas s (records ++ [s.current call a false]))
    (hb : LineBHas s records) : Behind s := by
  right
  refine ⟨s.payload call.data call.size, ?_⟩
  rw [ha.wire, hb.wire]
  simp [current]

theorem Phase.behind (h : Phase s) : Behind s := by
  have hlevel : LineAHas s s.sends → LineBHas s s.sends → Behind s := by
    intro ha hb
    left
    rw [ha.wire, hb.wire]
    simp
  cases h with
  | rest hcaller hquiet ha hb => exact hlevel ha hb
  | publishing call a hcaller hquiet ha hb => exact behind_of_ahead ha hb
  | pending call a h hworker hworking hb => exact behind_of_ahead h.lineA hb
  | recording call a h hworker hobserved hworking hwire hcounts =>
    exact behind_of_level h.lineA hwire
  | completing call a h hworker hobserved hworking hb => exact behind_of_level h.lineA hb.wire
  | acknowledged call a hcaller hquiet ha hb => exact behind_of_level ha hb.wire
  | failed call a hcaller hworker hfailed ha hb => exact behind_of_ahead ha hb
  | stopping hstage hstop hworking ha hb => exact hlevel ha hb

/-- The calls that have returned, each sent in one step. -/
def replayed (config : SenderConfig) (records : List SendRecord) (t : ItchMoldUdpSender) :
    ItchMoldUdpSender :=
  records.foldl (fun t r => (t.transmit config r.data r.msgCount r.outcome).2) t

theorem replayed_lines {config : SenderConfig} (hredundant : config.redundant = true)
    (records : List SendRecord) (t : ItchMoldUdpSender) :
    (replayed config records t).lineA
        = records.foldl (fun line r => line.record r.outcome.lineA r.msgCount) t.lineA
      ∧ (replayed config records t).lineB
        = records.foldl (fun line r => line.record r.outcome.lineB r.msgCount) t.lineB := by
  unfold replayed
  induction records generalizing t with
  | nil => exact ⟨rfl, rfl⟩
  | cons r records ih =>
    obtain ⟨hA, hB⟩ := ih (t.transmit config r.data r.msgCount r.outcome).2
    have hlines : (t.transmit config r.data r.msgCount r.outcome).2.lineA
          = t.lineA.record r.outcome.lineA r.msgCount
        ∧ (t.transmit config r.data r.msgCount r.outcome).2.lineB
          = t.lineB.record r.outcome.lineB r.msgCount := by
      unfold ItchMoldUdpSender.transmit
      dsimp only
      rw [if_pos hredundant]
      split <;> exact ⟨rfl, rfl⟩
    rw [hlines.1] at hA
    rw [hlines.2] at hB
    exact ⟨hA, hB⟩

/-- Whatever the two threads do in between. -/
theorem handoff_is_safe [DecidableEq Buffer] (lineBDelayNs : UInt64)
    (memory : Buffer → List UInt8) (events : List (HandoffEvent Buffer)) {config : SenderConfig}
    (hredundant : config.redundant = true) (file : BinaryFile) :
    let s := run (create lineBDelayNs memory) events
    let t := replayed config s.sends (.create config file)
    (∀ l ∈ s.callerTouches, l ∉ s.workerTouches)
      ∧ s.Behind
      ∧ (s.caller = .outside →
        s.wireA = s.sends.map (fun r => (r.data, r.outcome.lineA))
        ∧ s.wireB = s.sends.map (fun r => (r.data, r.outcome.lineB))
        ∧ s.lineA = t.lineA ∧ s.lineB = t.lineB) := by
  intro s t
  have hphase : Phase s := phase_run lineBDelayNs memory events
  refine ⟨hphase.no_race, hphase.behind, fun hout => ?_⟩
  obtain ⟨-, ha, hb⟩ := hphase.of_outside hout
  obtain ⟨hA, hB⟩ := replayed_lines hredundant s.sends (.create config file)
  exact ⟨ha.wire, hb.wire, ha.counts.trans hA.symm, hb.counts.trans hB.symm⟩

/-- A call whose packet line B does not take. -/
def oneCall : List (HandoffEvent Unit) :=
  [.fill () [1, 2, 3], .call ⟨(), 2, 1⟩] ++ List.replicate 7 (.caller true)
    ++ [.worker true false, .caller true, .worker true false, .worker true true, .pollAhead,
      .caller true, .worker true false, .worker false false, .worker true false,
      .worker true false]
    ++ List.replicate 2 (.caller true)

/-- A call at which the send of line B throws. -/
def failingCall : List (HandoffEvent Unit) :=
  .call ⟨(), 3, 1⟩ :: List.replicate 7 (.caller true)
    ++ List.replicate 4 (.worker true false)
    ++ [.workerThrows "no buffer", .worker true false, .caller true, .caller true,
      .worker true false]
    ++ List.replicate 3 (.caller true)

theorem handoff_is_safe_twoCalls :
    let s := run (create 1000 fun _ => []) oneCall
    let s' := run (create 1000 fun _ => []) (oneCall ++ failingCall)
    let t := replayed shortConfig s.sends (.create shortConfig ⟨[], by decide⟩)
    s.Behind ∧ s.sends.length = 1 ∧ s.lineA = t.lineA ∧ s.lineB = t.lineB
      ∧ s.wireA = [([1, 2], true)] ∧ s.wireB = [([1, 2], false)]
      ∧ s'.Behind ∧ s'.caller = .thrown "line B sender failed: no buffer"
      ∧ s'.wireA = [([1, 2], true), ([1, 2, 3], true)] ∧ s'.wireB = [([1, 2], false)] := by
  obtain ⟨-, hbehind, hlines⟩ :=
    handoff_is_safe 1000 (fun _ => []) oneCall (show shortConfig.redundant = true from rfl)
      ⟨[], by decide⟩
  obtain ⟨-, -, hA, hB⟩ := hlines rfl
  obtain ⟨-, hbehind', -⟩ :=
    handoff_is_safe 1000 (fun _ => []) (oneCall ++ failingCall)
      (show shortConfig.redundant = true from rfl) ⟨[], by decide⟩
  exact ⟨hbehind, rfl, hA, hB, rfl, rfl, hbehind', rfl, rfl, rfl⟩

end RedundantUdpSender

end AstraFeed
