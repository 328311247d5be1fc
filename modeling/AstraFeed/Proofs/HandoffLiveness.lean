import AstraFeed.Lib.Fairness
import AstraFeed.Proofs.RedundantUdpSender

/-!
# The lines go on

A call returns and the sender is joined, in whatever order the two threads go on, as soon as both
have gone on often enough. Of the clock it is assumed that line B does not find its deadline ahead
for ever.
-/

namespace AstraFeed

open Fairness

/-! ## The rank -/

inductive HandoffThread
  | caller
  | worker

def HandoffEvent.thread {Buffer : Type} : HandoffEvent Buffer → Option HandoffThread
  | .caller _ => some .caller
  | .worker _ _ | .pollAhead => some .worker
  | _ => none

def HandoffEvent.isPollAhead {Buffer : Type} : HandoffEvent Buffer → Bool
  | .pollAhead => true
  | _ => false

def WorkerPc.rank : WorkerPc → ℕ
  | .loadGeneration => 7
  | .checkStop _ => 6
  | .delay _ => 5
  | .poll _ => 4
  | .sendB _ => 3
  | .recordB _ | .failing _ => 2
  | .complete _ | .signalFailed => 1
  | .returned | .failed => 0

theorem WorkerPc.rank_le (pc : WorkerPc) : pc.rank ≤ 7 := by
  cases pc <;> simp [WorkerPc.rank]

/-- The call the caller's thread is in. -/
def CallerPc.current {Buffer : Type} : CallerPc Buffer → Option (SendCall Buffer)
  | .sendA call | .setData call _ | .setSize call _ | .setMsgCount call _ | .clearSucceeded call _
  | .setNotBefore call _ | .publish call _ | .loadCompleted call _ _ | .checkFailed call _ _
  | .getResult call _ => some call
  | .outside | .throwing | .thrown _ | .bump | .join | .joined => none

namespace RedundantUdpSender

variable {Buffer : Type} {s s' : RedundantUdpSender Buffer} {call : SendCall Buffer} {a : Bool}
  {generation : UInt64}

/-- The caller's thread cannot go on until the thread of line B has. -/
def WaitsForWorker (s : RedundantUdpSender Buffer) : Prop :=
  match s.caller with
  | .loadCompleted _ _ generation | .checkFailed _ _ generation =>
    s.handoff.lineBCompletedGeneration ≠ generation ∧ s.workerFailed = false
  | .join => s.worker ≠ .returned ∧ s.worker ≠ .failed
  | _ => False

instance : Decidable s.WaitsForWorker := by
  unfold WaitsForWorker
  split <;> infer_instance

def turn (s : RedundantUdpSender Buffer) : HandoffThread :=
  if s.WaitsForWorker then .worker else .caller

/-- How much is left to do until the caller's thread is outside again. -/
def rank (s : RedundantUdpSender Buffer) : ℕ :=
  match s.caller with
  | .sendA _ => 18
  | .setData _ _ => 17
  | .setSize _ _ => 16
  | .setMsgCount _ _ => 15
  | .clearSucceeded _ _ => 14
  | .setNotBefore _ _ => 13
  | .publish _ _ => 12
  | .loadCompleted _ _ _ => if s.WaitsForWorker then 4 + s.worker.rank else 3
  | .checkFailed _ _ _ =>
    if s.WaitsForWorker then 4 + s.worker.rank else if s.workerFailed then 2 else 4
  | .getResult _ _ | .throwing => 1
  | .bump => 9
  | .join => 1 + s.worker.rank
  | .outside | .thrown _ | .joined => 0

theorem rank_le (s : RedundantUdpSender Buffer) : s.rank ≤ 18 := by
  have hworker := s.worker.rank_le
  unfold rank
  split <;> first | omega | (split_ifs <;> omega)

/-- A thread that waits for line B has no more to do than line B has. -/
theorem rank_le_of_waits (h : Waits generation call a s.caller) : s.rank ≤ 4 + s.worker.rank := by
  unfold rank
  generalize s.caller = caller at h
  cases h <;> dsimp only <;> split_ifs <;> omega

theorem rank_eq_of_waits (h : Waits generation call a s.caller) (hwaits : s.WaitsForWorker) :
    s.rank = 4 + s.worker.rank := by
  unfold rank
  generalize s.caller = caller at h
  cases h <;> exact if_pos hwaits

/-! ## The caller's thread -/

theorem rank_callerStep (hwaits : ¬ s.WaitsForWorker) (hrank : s.rank ≠ 0) (sent : Bool) :
    (s.callerStep sent).rank < s.rank := by
  have hworker := s.worker.rank_le
  cases hpc : s.caller with
  | outside => simp [rank, hpc] at hrank
  | sendA call => simp [rank, callerStep, hpc]
  | setData call a => simp [rank, callerStep, hpc]
  | setSize call a => simp [rank, callerStep, hpc]
  | setMsgCount call a => simp [rank, callerStep, hpc]
  | clearSucceeded call a => simp [rank, callerStep, hpc]
  | setNotBefore call a => simp [rank, callerStep, hpc]
  | publish call a =>
    simp only [rank, callerStep, hpc]
    split_ifs <;> omega
  | loadCompleted call a generation =>
    simp only [WaitsForWorker, hpc] at hwaits
    by_cases hcompleted : s.handoff.lineBCompletedGeneration = generation
    · simp [rank, callerStep, hpc, hcompleted, WaitsForWorker]
    · have hfailed : s.workerFailed = true := by simpa [hcompleted] using hwaits
      simp [rank, callerStep, hpc, hcompleted, hfailed, WaitsForWorker]
  | checkFailed call a generation =>
    simp only [WaitsForWorker, hpc] at hwaits
    by_cases hfailed : s.workerFailed = true
    · simp [rank, callerStep, hpc, hfailed, WaitsForWorker]
    · have hcompleted : s.handoff.lineBCompletedGeneration = generation := by
        simpa [hfailed] using hwaits
      simp [rank, callerStep, hpc, hcompleted, hfailed, WaitsForWorker]
  | getResult call a => simp [rank, callerStep, hpc]
  | throwing => simp [rank, callerStep, hpc]
  | thrown error => simp [rank, hpc] at hrank
  | bump =>
    simp only [rank, callerStep, hpc]
    omega
  | join =>
    have hended : s.worker = .returned ∨ s.worker = .failed := by
      simp only [WaitsForWorker, hpc] at hwaits
      tauto
    simp [rank, callerStep, hpc, hended]
  | joined => simp [rank, hpc] at hrank

/-- It looks again. -/
theorem rank_callerStep_of_waits (hwaits : s.WaitsForWorker) (sent : Bool) :
    (s.callerStep sent).rank = s.rank ∧ (s.callerStep sent).WaitsForWorker := by
  have hwaits' := hwaits
  unfold WaitsForWorker at hwaits'
  cases hpc : s.caller with
  | loadCompleted call a generation =>
    simp only [hpc] at hwaits'
    simp [rank, callerStep, hpc, hwaits', WaitsForWorker]
  | checkFailed call a generation =>
    simp only [hpc] at hwaits'
    simp [rank, callerStep, hpc, hwaits', WaitsForWorker]
  | join =>
    simp only [hpc] at hwaits'
    simp [callerStep, hpc, hwaits', hwaits]
  | _ => simp [hpc] at hwaits'

/-! ## The thread of line B -/

theorem not_waitsForWorker_of_failed (hworker : s.worker = .failed)
    (hfailed : s.workerFailed = true) : ¬ s.WaitsForWorker := by
  unfold WaitsForWorker
  split
  · simp [hfailed]
  · simp [hfailed]
  · simp [hworker]
  · simp

theorem Pending.waitsForWorker (h : Pending s call a) (hworking : s.workerFailed = false) :
    s.WaitsForWorker := by
  have hne : s.handoff.lineBCompletedGeneration ≠ s.handoff.generation := by
    rw [← h.ahead]
    exact (add_one_ne _).symm
  have hcaller := h.caller
  unfold WaitsForWorker
  generalize s.caller = caller at hcaller
  cases hcaller <;> exact ⟨hne, hworking⟩

theorem Pending.rank_lt (h : Pending s call a) (hworking : s.workerFailed = false)
    (hcaller : s'.caller = s.caller) (hlt : s'.worker.rank < s.worker.rank) : s'.rank < s.rank := by
  have heq := rank_eq_of_waits h.caller (h.waitsForWorker hworking)
  have hle : s'.rank ≤ 4 + s'.worker.rank := rank_le_of_waits (hcaller ▸ h.caller)
  omega

theorem Phase.rank_workerStep (h : Phase s) (sent overrun : Bool) :
    s.workerStep sent overrun = s ∧ ¬ s.WaitsForWorker
      ∨ s.WaitsForWorker ∧ (s.workerStep sent overrun).rank < s.rank := by
  cases h with
  | rest hcaller hquiet ha hb =>
    refine .inl ⟨hquiet.worker_step sent overrun, ?_⟩
    rcases hcaller with hcaller | ⟨call, hcaller⟩ <;> simp [WaitsForWorker, hcaller]
  | publishing call a hcaller hquiet ha hb =>
    refine .inl ⟨hquiet.worker_step sent overrun, ?_⟩
    unfold WaitsForWorker
    generalize s.caller = caller at hcaller
    cases hcaller <;> simp
  | pending call a h hworker hworking hb =>
    refine .inr ⟨h.waitsForWorker hworking, ?_⟩
    have hdata := h.given.data
    generalize hpc : s.worker = worker at hworker
    cases hworker with
    | load hobserved =>
      have hne : s.handoff.generation ≠ s.observedGeneration := by
        rw [← hobserved]
        exact add_one_ne _
      apply h.rank_lt hworking <;> simp [RedundantUdpSender.workerStep, hpc, hne, WorkerPc.rank]
    | checkStop hobserved =>
      by_cases hdelay : 0 < s.lineBDelayNs <;> apply h.rank_lt hworking <;>
        simp [RedundantUdpSender.workerStep, hpc, h.running, hdelay, WorkerPc.rank]
    | delay hobserved =>
      apply h.rank_lt hworking <;> simp [RedundantUdpSender.workerStep, hpc, WorkerPc.rank]
    | poll hobserved =>
      apply h.rank_lt hworking <;> simp [RedundantUdpSender.workerStep, hpc, WorkerPc.rank]
    | sendB hobserved =>
      apply h.rank_lt hworking <;> simp [RedundantUdpSender.workerStep, hpc, hdata, WorkerPc.rank]
    | failing error =>
      apply h.rank_lt hworking <;> simp [RedundantUdpSender.workerStep, hpc, WorkerPc.rank]
    | signalFailed =>
      rw [rank_eq_of_waits h.caller (h.waitsForWorker hworking), hpc]
      have hcaller := h.caller
      unfold RedundantUdpSender.workerStep rank
      rw [hpc]
      dsimp only
      generalize s.caller = caller at hcaller
      cases hcaller <;> simp [WaitsForWorker, WorkerPc.rank]
  | recording call a h hworker hobserved hworking hwire hcounts =>
    refine .inr ⟨h.waitsForWorker hworking, ?_⟩
    apply h.rank_lt hworking <;> simp [RedundantUdpSender.workerStep, hworker, WorkerPc.rank]
  | completing call a h hworker hobserved hworking hb =>
    have hwaits := h.waitsForWorker hworking
    refine .inr ⟨hwaits, ?_⟩
    rw [rank_eq_of_waits h.caller hwaits, hworker]
    have hcaller := h.caller
    unfold RedundantUdpSender.workerStep rank
    rw [hworker]
    dsimp only
    generalize s.caller = caller at hcaller
    cases hcaller <;> simp [WaitsForWorker, WorkerPc.rank, hworking]
  | acknowledged call a hcaller hquiet ha hb =>
    refine .inl ⟨hquiet.worker_step sent overrun, ?_⟩
    have hcompleted := hquiet.completed
    unfold WaitsForWorker
    generalize s.caller = caller at hcaller
    rcases hcaller with (_ | _) | rfl <;> simp [hcompleted]
  | failed call a hcaller hworker hfailed ha hb =>
    refine .inl ⟨?_, not_waitsForWorker_of_failed hworker hfailed⟩
    simp [RedundantUdpSender.workerStep, hworker]
  | stopping hstage hstop hworking ha hb =>
    generalize hcaller : s.caller = caller at hstage
    generalize hworker : s.worker = worker at hstage
    cases hstage with
    | bump h =>
      left
      simp [RedundantUdpSender.workerStep, WaitsForWorker, hcaller, hworker, h]
    | join h =>
      right
      have hne : s.handoff.generation ≠ s.observedGeneration := by
        rw [← h]
        exact add_one_ne _
      simp [RedundantUdpSender.workerStep, WaitsForWorker, hcaller, hworker, hne, rank,
        WorkerPc.rank]
    | checkStop =>
      right
      simp [RedundantUdpSender.workerStep, WaitsForWorker, hcaller, hworker, hstop, rank,
        WorkerPc.rank]
    | returned =>
      left
      simp [RedundantUdpSender.workerStep, WaitsForWorker, hcaller, hworker]
    | joined =>
      left
      simp [RedundantUdpSender.workerStep, WaitsForWorker, hcaller, hworker]

/-- A send that throws leaves less to do. -/
theorem Phase.rank_throws [DecidableEq Buffer] (h : Phase s) (error : String) :
    s.step (.workerThrows error) = s ∨ (s.step (.workerThrows error)).rank < s.rank := by
  by_cases hsend : ∃ generation, s.worker = .sendB generation
  · right
    obtain ⟨generation, hsend⟩ := hsend
    obtain ⟨call, a, hpending, hworking, -⟩ := h.of_sendB hsend
    apply hpending.rank_lt hworking <;> simp [RedundantUdpSender.step, hsend, WorkerPc.rank]
  · left
    unfold RedundantUdpSender.step
    dsimp only
    split
    · rename_i generation hsend'
      exact absurd ⟨generation, hsend'⟩ hsend
    · rfl

theorem step_of_rank [DecidableEq Buffer] (hrank : s.rank ≠ 0) :
    (∀ buffer bytes, s.step (.fill buffer bytes) = s) ∧ (∀ call, s.step (.call call) = s)
      ∧ s.step .destroy = s := by
  unfold rank at hrank
  cases hpc : s.caller <;> simp [RedundantUdpSender.step, hpc] at hrank ⊢

theorem ranked [DecidableEq Buffer] :
    Ranked (@step Buffer _) HandoffEvent.thread HandoffEvent.isPollAhead Phase rank turn where
  inv h e := h.step e
  lt_of_turn := by
    intro s h hrank e hturn hgoes
    unfold turn at hturn
    split_ifs at hturn with hwaits
    · cases e with
      | worker sent overrun =>
        rcases h.rank_workerStep sent overrun with ⟨-, hnot⟩ | ⟨-, hlt⟩
        · exact absurd hwaits hnot
        · exact hlt
      | pollAhead => simp [HandoffEvent.isPollAhead] at hgoes
      | _ => simp [HandoffEvent.thread] at hturn
    · cases e with
      | caller sent => exact rank_callerStep hwaits hrank sent
      | _ => simp [HandoffEvent.thread] at hturn
  lt_or_kept := by
    intro s h hrank e
    have hsame : s.step e = s → (s.step e).rank < s.rank
        ∨ (s.step e).rank = s.rank ∧ (s.step e).turn = s.turn :=
      fun heq => .inr (by rw [heq]; exact ⟨rfl, rfl⟩)
    obtain ⟨hfill, hcall, hdestroy⟩ := step_of_rank hrank
    cases e with
    | fill buffer bytes => exact hsame (hfill buffer bytes)
    | call call => exact hsame (hcall call)
    | caller sent =>
      by_cases hwaits : s.WaitsForWorker
      · obtain ⟨heq, hwaits'⟩ := rank_callerStep_of_waits hwaits sent
        refine .inr ⟨heq, ?_⟩
        exact (if_pos hwaits').trans (if_pos hwaits).symm
      · exact .inl (rank_callerStep hwaits hrank sent)
    | destroy => exact hsame hdestroy
    | worker sent overrun =>
      rcases h.rank_workerStep sent overrun with ⟨heq, -⟩ | ⟨-, hlt⟩
      · exact hsame heq
      · exact .inl hlt
    | pollAhead => exact hsame rfl
    | workerThrows error =>
      rcases h.rank_throws error with heq | hlt
      · exact hsame heq
      · exact .inl hlt

/-! ## A call -/

theorem workerStep_frame (sent overrun : Bool) :
    (s.workerStep sent overrun).caller = s.caller ∧ (s.workerStep sent overrun).sends = s.sends
      ∧ (s.workerStep sent overrun).memory = s.memory
      ∧ (s.workerStep sent overrun).wireA = s.wireA := by
  unfold workerStep
  cases s.worker with
  | loadGeneration =>
    dsimp only
    split_ifs <;> exact ⟨rfl, rfl, rfl, rfl⟩
  | sendB generation => cases s.handoff.data <;> exact ⟨rfl, rfl, rfl, rfl⟩
  | _ => exact ⟨rfl, rfl, rfl, rfl⟩

/-- The call that began in `before` goes on. -/
structure Calling (before : RedundantUdpSender Buffer) (call : SendCall Buffer)
    (s : RedundantUdpSender Buffer) : Prop where
  inside : s.caller.current = some call ∨ s.caller = .throwing
  sends : s.sends = before.sends
  memory : s.memory = before.memory

/-- The call that began in `before` is over. -/
inductive CallEnds (before : RedundantUdpSender Buffer) (call : SendCall Buffer)
    (s : RedundantUdpSender Buffer) : Prop
  | returned (outcome : LineOutcome) (hcaller : s.caller = .outside)
    (hsends : s.sends = before.sends
      ++ [⟨(before.memory call.data).take call.size, call.msgCount, outcome⟩])
  | thrown (error : String) (hcaller : s.caller = .thrown error) (hsends : s.sends = before.sends)

variable {before : RedundantUdpSender Buffer}

theorem Calling.callerStep (h : Calling before call s) (sent : Bool) :
    Calling before call (s.callerStep sent) ∨ CallEnds before call (s.callerStep sent) := by
  have hinside := h.inside
  unfold RedundantUdpSender.callerStep
  cases hpc : s.caller with
  | loadCompleted call' a generation =>
    rw [hpc] at hinside
    left
    dsimp only
    split_ifs <;> exact ⟨.inl (hinside.resolve_right (by simp)), h.sends, h.memory⟩
  | checkFailed call' a generation =>
    rw [hpc] at hinside
    left
    dsimp only
    split_ifs
    · exact ⟨.inr rfl, h.sends, h.memory⟩
    · exact ⟨.inl (hinside.resolve_right (by simp)), h.sends, h.memory⟩
  | getResult call' a =>
    rw [hpc] at hinside
    obtain rfl : call' = call := Option.some.inj (hinside.resolve_right (by simp))
    refine .inr (.returned ⟨a, s.handoff.lineBSendSucceeded⟩ rfl ?_)
    simp only [payload, h.sends, h.memory]
  | throwing => exact .inr (.thrown _ rfl h.sends)
  | outside => simp [hpc, CallerPc.current] at hinside
  | thrown error => simp [hpc, CallerPc.current] at hinside
  | bump => simp [hpc, CallerPc.current] at hinside
  | join => simp [hpc, CallerPc.current] at hinside
  | joined => simp [hpc, CallerPc.current] at hinside
  | _ =>
    rw [hpc] at hinside
    exact .inl ⟨.inl (hinside.resolve_right (by simp)), h.sends, h.memory⟩

theorem Calling.step [DecidableEq Buffer] (h : Calling before call s) (hrank : s.rank ≠ 0)
    (e : HandoffEvent Buffer) : Calling before call (s.step e) ∨ CallEnds before call (s.step e) := by
  obtain ⟨hfill, hcall, hdestroy⟩ := step_of_rank hrank
  cases e with
  | fill buffer bytes => rw [hfill]; exact .inl h
  | call call => rw [hcall]; exact .inl h
  | caller sent => exact h.callerStep sent
  | destroy => rw [hdestroy]; exact .inl h
  | worker sent overrun =>
    obtain ⟨hcaller, hsends, hmemory, -⟩ := workerStep_frame (s := s) sent overrun
    exact .inl ⟨hcaller ▸ h.inside, hsends.trans h.sends, hmemory.trans h.memory⟩
  | pollAhead => exact .inl h
  | workerThrows error =>
    left
    unfold RedundantUdpSender.step
    dsimp only
    split
    · exact ⟨h.inside, h.sends, h.memory⟩
    · exact h

theorem CallEnds.rank (h : CallEnds before call s) : s.rank = 0 := by
  unfold RedundantUdpSender.rank
  cases h with
  | returned outcome hcaller hsends => rw [hcaller]
  | thrown error hcaller hsends => rw [hcaller]

theorem Calling.rank (h : Calling before call s) : s.rank ≠ 0 := by
  have hinside := h.inside
  unfold RedundantUdpSender.rank
  cases hpc : s.caller <;> simp only [hpc, CallerPc.current, reduceCtorEq, or_self] at hinside ⊢ <;>
    (try split_ifs) <;> omega

/-- The error line B fails with. -/
def failure (s : RedundantUdpSender Buffer) : Option String :=
  match s.worker with
  | .failing error => some error
  | .signalFailed | .failed => some s.workerError
  | _ => none

theorem failure_workerStep (sent overrun : Bool) :
    (s.workerStep sent overrun).failure = s.failure := by
  unfold workerStep
  cases hpc : s.worker with
  | loadGeneration =>
    dsimp only
    split_ifs <;> simp [failure, hpc]
  | checkStop generation =>
    dsimp only
    split_ifs <;> simp [failure, hpc]
  | sendB generation =>
    dsimp only
    split <;> simp [failure, hpc]
  | _ => simp [failure, hpc]

theorem failure_callerStep (sent : Bool) : (s.callerStep sent).failure = s.failure := by
  unfold callerStep
  split <;> (try split_ifs) <;> rfl

theorem failure_step [DecidableEq Buffer] (e : HandoffEvent Buffer) {error : String}
    (h : (s.step e).failure = some error) : s.failure = some error ∨ e = .workerThrows error := by
  cases e with
  | worker sent overrun => exact .inl ((failure_workerStep sent overrun).symm.trans h)
  | caller sent => exact .inl ((failure_callerStep sent).symm.trans h)
  | pollAhead => exact .inl h
  | workerThrows error' =>
    unfold RedundantUdpSender.step at h
    dsimp only at h
    split at h
    · obtain rfl : error' = error := Option.some.inj h
      exact .inr rfl
    · exact .inl h
  | _ =>
    left
    unfold RedundantUdpSender.step at h
    dsimp only at h
    split at h <;> exact h

/-- Line B fails only with what its send has thrown. -/
theorem failure_run [DecidableEq Buffer] (events : List (HandoffEvent Buffer)) {error : String}
    (h : (run s events).failure = some error) :
    s.failure = some error ∨ .workerThrows error ∈ events := by
  unfold run at h
  induction events generalizing s with
  | nil => exact .inl h
  | cons e events ih =>
    rcases ih h with hstep | hmem
    · rcases failure_step e hstep with hbefore | rfl
      · exact .inl hbefore
      · exact .inr List.mem_cons_self
    · exact .inr (List.mem_cons_of_mem _ hmem)

/-! ## The end -/

/-- `stopAndJoin`, called in `before`, goes on. -/
structure Joining (before s : RedundantUdpSender Buffer) : Prop where
  inside : s.caller = .bump ∨ s.caller = .join ∨ s.caller = .joined
  sends : s.sends = before.sends
  wireA : s.wireA = before.wireA

theorem Joining.step [DecidableEq Buffer] (h : Joining before s) (e : HandoffEvent Buffer) :
    Joining before (s.step e) := by
  obtain ⟨hinside, hsends, hwire⟩ := h
  cases e with
  | worker sent overrun =>
    obtain ⟨hcaller, hsends', -, hwire'⟩ := workerStep_frame (s := s) sent overrun
    exact ⟨hcaller ▸ hinside, hsends'.trans hsends, hwire'.trans hwire⟩
  | caller sent =>
    unfold RedundantUdpSender.step callerStep
    rcases hinside with hpc | hpc | hpc <;> simp only [hpc]
    · exact ⟨.inr (.inl rfl), hsends, hwire⟩
    · split_ifs
      · exact ⟨.inr (.inr rfl), hsends, hwire⟩
      · exact ⟨.inr (.inl hpc), hsends, hwire⟩
    · exact ⟨.inr (.inr hpc), hsends, hwire⟩
  | pollAhead => exact ⟨hinside, hsends, hwire⟩
  | workerThrows error =>
    unfold RedundantUdpSender.step
    dsimp only
    split <;> exact ⟨hinside, hsends, hwire⟩
  | _ =>
    unfold RedundantUdpSender.step
    rcases hinside with hpc | hpc | hpc <;> simp only [hpc] <;>
      exact ⟨by simp [hpc], hsends, hwire⟩

theorem Joining.joined (h : Joining before s) (hrank : s.rank = 0) : s.caller = .joined := by
  unfold RedundantUdpSender.rank at hrank
  rcases h.inside with hpc | hpc | hpc
  · simp [hpc] at hrank
  · simp [hpc] at hrank
  · exact hpc

theorem Phase.of_joined (h : Phase s) (hjoined : s.caller = .joined) :
    (s.worker = .returned ∨ s.worker = .failed) ∧ LineBHas s s.sends := by
  cases h with
  | rest hcaller hquiet ha hb =>
    rw [hjoined] at hcaller
    rcases hcaller with hcaller | ⟨_, hcaller⟩ <;> cases hcaller
  | publishing call a hcaller hquiet ha hb =>
    rw [hjoined] at hcaller
    cases hcaller
  | pending call a h hworker hworking hb =>
    have hcaller := h.caller
    rw [hjoined] at hcaller
    cases hcaller
  | recording call a h hworker hobserved hworking hwire hcounts =>
    have hcaller := h.caller
    rw [hjoined] at hcaller
    cases hcaller
  | completing call a h hworker hobserved hworking hb =>
    have hcaller := h.caller
    rw [hjoined] at hcaller
    cases hcaller
  | acknowledged call a hcaller hquiet ha hb =>
    rw [hjoined] at hcaller
    rcases hcaller with hcaller | hcaller <;> cases hcaller
  | failed call a hcaller hworker hfailed ha hb => exact ⟨.inr hworker, hb⟩
  | stopping hstage hstop hworking ha hb =>
    refine ⟨?_, hb⟩
    rw [hjoined] at hstage
    generalize s.worker = worker at hstage
    cases hstage
    exact .inl rfl

theorem run_of_joined [DecidableEq Buffer] (hjoined : s.caller = .joined)
    (hworker : s.worker = .returned ∨ s.worker = .failed) (events : List (HandoffEvent Buffer)) :
    run s events = s := by
  unfold run
  induction events with
  | nil => rfl
  | cons e events ih =>
    have hstep : s.step e = s := by
      rcases hworker with hworker | hworker <;> cases e <;>
        simp [RedundantUdpSender.step, callerStep, workerStep, hjoined, hworker]
    rw [List.foldl_cons, hstep]
    exact ih

/-! ## Liveness -/

/-- The call put its packet on both lines once, and returned. -/
structure SentOnce (s : RedundantUdpSender Buffer) (call : SendCall Buffer) (outcome : LineOutcome)
    (s' : RedundantUdpSender Buffer) : Prop where
  caller : s'.caller = .outside
  sends : s'.sends
    = s.sends ++ [⟨(s.memory call.data).take call.size, call.msgCount, outcome⟩]
  wireA : s'.wireA = s.wireA ++ [((s.memory call.data).take call.size, outcome.lineA)]
  wireB : s'.wireB = s.wireB ++ [((s.memory call.data).take call.size, outcome.lineB)]

/-- The sender is joined, and nothing is sent any more. -/
structure Joined [DecidableEq Buffer] (s s' : RedundantUdpSender Buffer) : Prop where
  caller : s'.caller = .joined
  wireA : s'.wireA = s.wireA
  wireB : s'.wireB = s.wireB
  forever : ∀ events, run s' events = s'

section Rounds

-- Both threads take turns, and the clock comes to each deadline: no more than `polls` polls find it
-- ahead.
variable [DecidableEq Buffer] {rounds : List (List (HandoffEvent Buffer))} {polls : ℕ}
  (hfair : ∀ round ∈ rounds, FairRound HandoffEvent.thread round)
  (hclock : rounds.flatten.countP HandoffEvent.isPollAhead ≤ polls)
  (hlen : 18 + polls ≤ rounds.length)
include hfair hclock hlen

theorem Phase.reachesZero (h : Phase s) :
    ReachesZero RedundantUdpSender.step rank s rounds.flatten := by
  have hrank := s.rank_le
  exact ranked.reachesZero h hfair (by omega)

theorem Phase.call_ends (h : Phase s) (hout : s.caller = .outside) (call : SendCall Buffer) :
    ∃ before after, rounds.flatten = before ++ after ∧
      ((∃ outcome, SentOnce s call outcome (run s (.call call :: before)))
        ∨ ∃ error, (run s (.call call :: before)).caller = .thrown (failureText error)
          ∧ .workerThrows error ∈ before) := by
  obtain ⟨hquiet, ha, hb⟩ := h.of_outside hout
  have hcalled : s.step (.call call) = { s with caller := .sendA call } := by
    simp [RedundantUdpSender.step, hout, hquiet.working]
  have hcalling : Calling s call (s.step (.call call)) := by
    rw [hcalled]
    exact ⟨.inl rfl, rfl, rfl⟩
  obtain ⟨before, after, hsplit, hzero, hJ⟩ :=
    ((h.step (.call call)).reachesZero hfair hclock hlen).rule
      (fun s' => Calling s call s' ∨ CallEnds s call s') (.inl hcalling)
      (fun s' e hJ hrank => hJ.elim (fun h => h.step hrank e) fun h => absurd h.rank hrank)
  have hphase : Phase (run s (.call call :: before)) :=
    ranked.run_inv (h.step (.call call)) before
  refine ⟨before, after, hsplit, ?_⟩
  rcases hJ with hJ | ⟨outcome, hcaller, hsends⟩ | ⟨error, hcaller, hsends⟩
  · exact absurd hzero hJ.rank
  · obtain ⟨-, ha', hb'⟩ := hphase.of_outside hcaller
    refine .inl ⟨outcome, hcaller, hsends, ?_, ?_⟩
    · rw [ha'.wire, ha.wire, show (run s (.call call :: before)).sends = _ from hsends]
      simp
    · rw [hb'.wire, hb.wire, show (run s (.call call :: before)).sends = _ from hsends]
      simp
  · obtain ⟨rfl, hworker, -⟩ := hphase.of_thrown hcaller
    refine .inr ⟨_, hcaller, ?_⟩
    have hfailure : (run s (.call call :: before)).failure
        = some (run s (.call call :: before)).workerError := by
      rw [failure, hworker]
    have hnone : s.failure = none := by
      rw [failure, hquiet.worker]
    rcases failure_run (.call call :: before) hfailure with hold | hmem
    · rw [hnone] at hold
      cases hold
    · simpa using hmem

theorem Phase.destroy_ends (h : Phase s)
    (hcaller : s.caller = .outside ∨ ∃ error, s.caller = .thrown error) :
    ∃ before after, rounds.flatten = before ++ after ∧ Joined s (run s (.destroy :: before)) := by
  have hb : LineBHas s s.sends := by
    rcases hcaller with hout | ⟨error, hthrown⟩
    · exact (h.of_outside hout).2.2
    · obtain ⟨-, -, -, -, -, -, hb⟩ := h.of_thrown hthrown
      exact hb
  have hjoining : Joining s (s.step .destroy) := by
    rcases hcaller with hpc | ⟨error, hpc⟩ <;>
    · simp only [RedundantUdpSender.step, hpc]
      exact ⟨.inl rfl, rfl, rfl⟩
  obtain ⟨before, after, hsplit, hzero, hJ⟩ :=
    ((h.step .destroy).reachesZero hfair hclock hlen).rule
      (Joining s) hjoining fun s' e hJ _ => hJ.step e
  have hphase : Phase (run s (.destroy :: before)) := ranked.run_inv (h.step .destroy) before
  have hjoined := hJ.joined hzero
  obtain ⟨hworker, hb'⟩ := hphase.of_joined hjoined
  refine ⟨before, after, hsplit, hjoined, hJ.wireA, ?_, run_of_joined hjoined hworker⟩
  rw [hb'.wire, hb.wire, show (run s (.destroy :: before)).sends = _ from hJ.sends]

/-- After eighteen rounds in which both threads go on, and one more for each poll that found the
deadline ahead. -/
theorem handoff_is_live (lineBDelayNs : UInt64) (memory : Buffer → List UInt8)
    (events : List (HandoffEvent Buffer)) :
    let s := run (create lineBDelayNs memory) events
    (s.caller = .outside → ∀ call, ∃ before after, rounds.flatten = before ++ after ∧
      ((∃ outcome, SentOnce s call outcome (run s (.call call :: before)))
        ∨ ∃ error, (run s (.call call :: before)).caller = .thrown (failureText error)
          ∧ .workerThrows error ∈ before))
    ∧ ((s.caller = .outside ∨ ∃ error, s.caller = .thrown error) → ∃ before after,
      rounds.flatten = before ++ after ∧ Joined s (run s (.destroy :: before))) := by
  intro s
  have hphase : Phase s := phase_run lineBDelayNs memory events
  exact ⟨fun hout call => hphase.call_ends hfair hclock hlen hout call,
    fun hcaller => hphase.destroy_ends hfair hclock hlen hcaller⟩

end Rounds

/-- Line B looks at the clock twice before its deadline. -/
theorem handoff_is_live_oneCall :
    let s := create 1000 fun _ : Unit => [1, 2, 3]
    let rounds : List (List (HandoffEvent Unit)) :=
      List.replicate 4 [.worker true false, .caller true]
        ++ List.replicate 2 [.pollAhead, .caller true]
        ++ List.replicate 14 [.worker true false, .caller true]
    ∃ before after, rounds.flatten = before ++ after ∧
      ∃ outcome, SentOnce s ⟨(), 2, 1⟩ outcome (run s (.call ⟨(), 2, 1⟩ :: before)) := by
  intro s rounds
  have hfair : ∀ round ∈ rounds, FairRound HandoffEvent.thread round := by
    intro round hmem thread
    have hround : round = [.worker true false, .caller true]
        ∨ round = [.pollAhead, .caller true] := by
      simp only [rounds, List.mem_append, List.mem_replicate] at hmem
      tauto
    rcases hround with rfl | rfl <;> cases thread
    · exact ⟨.caller true, by simp, rfl⟩
    · exact ⟨.worker true false, by simp, rfl⟩
    · exact ⟨.caller true, by simp, rfl⟩
    · exact ⟨.pollAhead, by simp, rfl⟩
  obtain ⟨before, after, hsplit, hends⟩ :=
    (handoff_is_live hfair (show _ ≤ 2 by decide) (by decide) 1000 (fun _ => [1, 2, 3]) []).1 rfl
      ⟨(), 2, 1⟩
  refine ⟨before, after, hsplit, hends.resolve_right ?_⟩
  rintro ⟨error, -, hmem⟩
  have hthrows : HandoffEvent.workerThrows error ∈ rounds.flatten := by
    rw [hsplit]
    exact List.mem_append_left after hmem
  simp [rounds] at hthrows

end RedundantUdpSender

end AstraFeed
