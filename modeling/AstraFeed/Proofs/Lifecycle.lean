import AstraFeed.DecoderInvariant
import AstraFeed.Proofs.PreparedBooks

/-!
# The lifecycle of a day

An accepted message leaves the phase, ends the directory spin, or is the daily System Event that is
due (`Moves`). From this, by induction on the messages: the phase says which daily events were
accepted, and whether the books are prepared (`Lifecycle`).
-/

namespace AstraFeed

namespace ItchParser

open Wire

variable {p p' : ItchParser} {msg : List UInt8}

/-! ## Types and events -/

theorem IsType.disjoint {xs ys : List Char} (hx : IsType msg xs) (hy : IsType msg ys)
    (h : ∀ a ∈ xs, ∀ b ∈ ys, byte a ≠ byte b) : False := by
  obtain ⟨a, ha, hbyte⟩ := hx
  obtain ⟨b, hb, hbyte'⟩ := hy
  exact h a ha b hb (hbyte.symm.trans hbyte')

theorem IsEvent.isType {code : Char} (h : IsEvent msg code) : IsType msg ['S'] :=
  ⟨'S', List.mem_singleton_self _, h.1⟩

theorem dailyEvent_of_isEvent {code : Char} (hmem : code ∈ dailyEvents) (h : IsEvent msg code) :
    dailyEvent msg = some code := by
  have hiff : ∀ c, IsEvent msg c ↔ byte code = byte c := by
    intro c
    unfold IsEvent
    rw [h.1, h.2]
    exact and_iff_right rfl
  unfold dailyEvent
  simp only [hiff]
  clear hiff h
  revert code
  decide

theorem isEvent_of_dailyEvent {code : Char} (h : dailyEvent msg = some code) :
    IsEvent msg code := by
  have hfound := List.find?_some h
  exact of_decide_eq_true hfound

theorem dailyEvent_eq_none (h : ∀ code ∈ dailyEvents, ¬ IsEvent msg code) :
    dailyEvent msg = none := by
  refine List.find?_eq_none.2 fun code hcode => ?_
  simpa using h code hcode

/-- Only a System Event is a daily event. -/
theorem dailyEvent_of_isType {types : List Char} (h : IsType msg types)
    (hS : ∀ a ∈ types, ∀ b ∈ ['S'], byte a ≠ byte b) : dailyEvent msg = none :=
  dailyEvent_eq_none fun _ _ hevent => h.disjoint hevent.isType hS

theorem dailyEvent_of_isEmergency (h : IsEmergency msg) : dailyEvent msg = none := by
  have hcode : ∃ c ∈ ['A', 'R', 'B'], IsEvent msg c := by
    rcases h with h | h | h
    · exact ⟨_, by simp, h⟩
    · exact ⟨_, by simp, h⟩
    · exact ⟨_, by simp, h⟩
  obtain ⟨c, hc, hevent⟩ := hcode
  refine dailyEvent_eq_none fun code hcode hevent' => ?_
  have hne : ∀ c ∈ ['A', 'R', 'B'], ∀ code ∈ dailyEvents, byte c ≠ byte code := by decide
  exact hne c hc code hcode (hevent.2.symm.trans hevent'.2)

/-! ## What an accepted message does to the phase -/

/-- A daily event leads from a phase to the next one. -/
structure Due (phase : ChannelPhase) (code : Char) (next : ChannelPhase) : Prop where
  code : dailyEvents[phase.eventCount]? = some code
  count : next.eventCount = phase.eventCount + 1
  ordinal : phase.ordinal < next.ordinal

inductive Moves (p : ItchParser) (msg : List UInt8) (p' : ItchParser) : Prop
  | stay (hevent : dailyEvent msg = none) (hphase : p'.channelPhase = p.channelPhase)
      (hprep : p'.booksPrepared = p.booksPrepared)
  | admin (htype : IsAdministrative msg) (hphase : p.channelPhase = .startupDirectorySpin)
      (hphase' : p'.channelPhase = .startupAdminSpin) (hprep : p'.booksPrepared = p.booksPrepared)
  | event {code : Char} (hcode : IsEvent msg code)
      (hdue : Due p.channelPhase code p'.channelPhase)
      (hprep : p'.booksPrepared = true ↔ p.booksPrepared = true ∨ code = 'S')

theorem due_of_allowed {code : Char} {next : ChannelPhase}
    (hnext : (code, next) ∈ [('O', ChannelPhase.startupDirectorySpin), ('Q', .marketHours),
      ('M', .postMarketHours), ('E', .postSystemHours), ('S', .systemHours),
      ('C', .endOfMessages)])
    (hallowed : p.phaseAllowed next = true) : Due p.channelPhase code next := by
  unfold phaseAllowed at hallowed
  generalize p.channelPhase = phase at hallowed ⊢
  simp only [List.mem_cons, Prod.mk.injEq, List.not_mem_nil, or_false] at hnext
  rcases hnext with ⟨rfl, rfl⟩ | ⟨rfl, rfl⟩ | ⟨rfl, rfl⟩ | ⟨rfl, rfl⟩ | ⟨rfl, rfl⟩ | ⟨rfl, rfl⟩ <;>
    cases phase <;> first | exact absurd hallowed (by decide) | exact ⟨rfl, rfl, by decide⟩

theorem Due.mem {phase next : ChannelPhase} {code : Char} (h : Due phase code next) :
    code ∈ dailyEvents := List.mem_of_getElem? h.code

theorem moves_advanced (h : p.Sound) (hadv : Advanced p msg p') (hacc : p'.lastError = none) :
    Moves p msg p' := by
  cases hadv with
  | refuse e => cases hacc
  | @advance code next hcode hnext hallowed =>
    have hne : code ≠ 'S' := by
      rintro rfl
      simp at hnext
    refine .event hcode (due_of_allowed ?_ hallowed) (by simp [hne])
    revert hnext
    simp only [List.mem_cons, List.not_mem_nil, or_false]
    tauto
  | @start hcode hallowed created hcreated =>
    have hprep : created.1 = true ∧ created.2.booksPrepared = true := by
      rw [hcreated]
      split
      · exact ⟨rfl, ‹_›⟩
      · obtain ⟨hok, books, _, hp⟩ := createRegisteredBooks_spec (p := { p with
          channelPhase := .systemHours, booksPrepared := true }) h
        rw [hp]
        exact ⟨hok, rfl⟩
    have hphase := start_phase hcreated
    refine .event hcode ?_ ?_
    · rw [hphase]
      exact due_of_allowed (by simp) hallowed
    · unfold reported
      rw [if_pos hprep.1]
      exact iff_of_true hprep.2 (.inr rfl)
  | close hcode hlive hallowed =>
    exact .event hcode (due_of_allowed (by simp) hallowed) (by simp)
  | emergency hcode => exact .stay (dailyEvent_of_isEmergency hcode) rfl rfl

theorem applyBook_phase (p : ItchParser) (operation : BookOperation)
    (out : MutationResult × BookManager) :
    (p.applyBook operation out).channelPhase = p.channelPhase
      ∧ (p.applyBook operation out).booksPrepared = p.booksPrepared := by
  unfold applyBook applyBookResult
  split <;> exact ⟨rfl, rfl⟩

theorem Effect.moves (he : Effect p msg p') (h : p.Sound) (hacc : p'.lastError = none) :
    Moves p msg p' := by
  cases he with
  | refuse e => cases hacc
  | skip htype =>
    exact .stay (dailyEvent_eq_none fun _ _ hevent => htype hevent.1) rfl rfl
  | admin htype =>
    have hevent := dailyEvent_of_isType htype (by decide)
    unfold markStartupAdminMessage
    split
    · exact .admin htype ‹_› rfl rfl
    · exact .stay hevent rfl rfl
  | book htype operation op =>
    have hevent := dailyEvent_of_isType htype (by decide)
    obtain ⟨hphase, hprep⟩ := applyBook_phase p operation (p.books.perform op)
    exact .stay hevent hphase hprep
  | directory htype hphase =>
    have hevent : dailyEvent msg = none := by
      refine dailyEvent_eq_none fun _ _ hevent => ?_
      rw [hevent.1] at htype
      exact absurd htype (by decide)
    rcases handleStockDirectory_cases h hphase with ⟨e, hp⟩ | ⟨_, _, _, hp⟩
    · rw [hp] at hacc
      cases hacc
    · rw [hp]
      exact .stay hevent rfl rfl
  | event htype => exact moves_advanced h (handleSystemEvent_advanced htype) hacc

/-! ## Books in step with the directory -/

theorem InStep.advanced (h : p.InStep) (hadv : Advanced p msg p') : p'.InStep := by
  cases hadv with
  | refuse e => exact h.of_eq rfl rfl rfl
  | advance => exact h.of_eq rfl rfl rfl
  | start _ _ hcreated =>
    by_cases hprep : p.booksPrepared = true
    · rw [if_pos hprep] at hcreated
      rw [hcreated]
      exact h.of_eq rfl rfl rfl
    · rw [if_neg hprep] at hcreated
      obtain ⟨books, hbooks, hp⟩ := createRegisteredBooks_books (p := { p with
        channelPhase := .systemHours, booksPrepared := true }) h.books
      rw [hcreated, hp]
      refine ⟨h.symbols, ?_⟩
      have hnone : p.bookLocates ∪ {l | p.symbols.isRegistered l = true}
          = {l | true = true ∧ p.symbols.isRegistered l = true} := by
        ext l
        simp [bookLocates, hprep]
      rw [hnone] at hbooks
      exact hbooks
  | close => exact h.of_eq rfl rfl rfl
  | emergency => exact h

theorem InStep.directory (h : p.InStep) (hphase : p.channelPhase ≠ .waitingStartOfMessages) :
    (p.handleStockDirectory msg).InStep := by
  rcases handleStockDirectory_set (p := p) hphase with
    ⟨e, he⟩ | ⟨l, entry, _, _, hset, q, hq, hout⟩
  · rw [he]
    exact h.of_eq rfl rfl rfl
  have hok : (p.symbols.set l entry).2.Ok := h.symbols.set l entry
  have hreg := StockDirectory.isRegistered_set_iff hset
  rw [hout]
  by_cases hprep : p.booksPrepared = true
  · have hbooks : BooksFor q.books p.bookLocates := by
      rw [hq]
      exact h.books
    have hl : q.symbols.isRegistered l = true := by
      rw [hq]
      exact (hreg l).2 (.inl rfl)
    obtain ⟨books, hbooks', hcreate⟩ := createRegisteredBook_books hbooks hl
    rw [if_pos hprep, hcreate, if_pos rfl, hq]
    refine ⟨hok, ?_⟩
    have hlocates : insert l p.bookLocates
        = {k | p.booksPrepared = true ∧ (p.symbols.set l entry).2.isRegistered k = true} := by
      ext k
      rw [Set.mem_insert_iff, bookLocates, Set.mem_ofPred_eq, Set.mem_ofPred_eq, hreg k]
      simp [hprep]
    rw [hlocates] at hbooks'
    exact hbooks'
  · rw [if_neg hprep, hq]
    refine ⟨hok, ?_⟩
    have hlocates : p.bookLocates
        = {k | p.booksPrepared = true ∧ (p.symbols.set l entry).2.isRegistered k = true} := by
      ext k
      simp [bookLocates, hprep]
    have hbooks := h.books
    rw [hlocates] at hbooks
    exact hbooks

theorem InStep.effect (h : p.InStep) (he : Effect p msg p') : p'.InStep := by
  cases he with
  | refuse e => exact h.of_eq rfl rfl rfl
  | skip => exact h.of_eq rfl rfl rfl
  | admin =>
    unfold markStartupAdminMessage
    split
    · exact h.of_eq rfl rfl rfl
    · exact h
  | book htype operation op hop => exact h.book operation hop
  | directory htype hphase => exact h.directory hphase
  | event htype => exact h.advanced (handleSystemEvent_advanced htype)

theorem InStep.handleMessage (h : p.InStep) (msg : List UInt8) : (p.handleMessage msg).2.InStep :=
  have hcleared : p.cleared.InStep := h.of_eq rfl rfl rfl
  hcleared.effect (handleMessage_effect p msg)

/-- Without books no operation is applied. -/
theorem perform_of_no_books {m : BookManager} (h : BooksFor m ∅) {op : BookOp}
    (hop : ∀ l, op ≠ .getOrCreate l) : (m.perform op).1 ≠ .applied := by
  have hrouted : ∀ l f, (m.routed l f).1 ≠ .applied := by
    intro l f
    have hfind : m.find l = none := by
      have hnone : m.books l = none := by
        rw [← Option.not_isSome_iff_eq_none, h.isSome_iff]
        exact Set.notMem_empty l
      unfold BookManager.find
      split
      · rfl
      · exact hnone
    unfold BookManager.routed
    rw [hfind]
    exact MutationResult.noConfusion
  cases op with
  | getOrCreate l => exact absurd rfl (hop l)
  | addOrder => exact hrouted _ _
  | executeOrder => exact hrouted _ _
  | cancelShares => exact hrouted _ _
  | deleteOrder => exact hrouted _ _
  | replaceOrder => exact hrouted _ _

/-- An order message is accepted only when the books are prepared. -/
theorem Effect.order_prepared (he : Effect p msg p') (h : p.InStep) (horder : IsOrderMessage msg)
    (hacc : p'.lastError = none) : p.booksPrepared = true := by
  by_contra hprep
  have hempty : p.bookLocates = ∅ :=
    Set.eq_empty_iff_forall_notMem.2 fun l hl => hprep hl.1
  cases he with
  | refuse e => cases hacc
  | skip htype horder' => exact horder' horder
  | admin htype => exact horder.disjoint htype (by decide)
  | book htype operation op hop =>
    have hne := perform_of_no_books (hempty ▸ h.books) hop
    unfold applyBook applyBookResult at hacc
    rw [if_neg hne] at hacc
    cases hacc
  | directory htype => exact horder.disjoint ⟨'R', List.mem_singleton_self _, htype⟩ (by decide)
  | event htype => exact horder.disjoint ⟨'S', List.mem_singleton_self _, htype⟩ (by decide)

/-! ## A run -/

theorem feed_snoc (p : ItchParser) (messages : List (List UInt8)) (msg : List UInt8) :
    p.feed (messages ++ [msg]) = ((p.feed messages).handleMessage msg).2 := by
  unfold feed
  rw [List.foldl_append]
  rfl

theorem accepted_snoc (p : ItchParser) (messages : List (List UInt8)) (msg : List UInt8) :
    accepted p (messages ++ [msg])
      = accepted p messages ++ if (p.feed messages).Accepts msg then [msg] else [] := by
  induction messages generalizing p with
  | nil => rfl
  | cons first messages ih =>
    rw [List.cons_append, accepted, accepted, ih (p.handleMessage first).2]
    split
    · rfl
    · rfl

/-- What the accepted messages `acc` say about the parser they lead to. -/
structure Lifecycle (acc : List (List UInt8)) (p : ItchParser) : Prop where
  daily : acc.filterMap dailyEvent = dailyEvents.take p.channelPhase.eventCount
  first : ∀ msg ∈ acc.head?, IsEvent msg 'O'
  prepared : p.booksPrepared = true ↔ 2 ≤ p.channelPhase.eventCount
  inStep : p.InStep

variable {acc : List (List UInt8)}

theorem lifecycle_create {config : BookManagerConfig} {systemPageBytes : ℕ} {m : BookManager}
    (hm : BookManager.create config systemPageBytes = .ok m) :
    Lifecycle [] (ItchParser.create .fresh m) where
  daily := rfl
  first := by simp
  prepared := iff_of_false Bool.false_ne_true (by decide : ¬ 2 ≤ 0)
  inStep := inStep_create hm

/-- A daily event was accepted when the phase is past it. -/
theorem Lifecycle.event_iff (h : Lifecycle acc p) {n : ℕ} {code : Char}
    (hn : dailyEvents[n]? = some code) :
    (∃ s ∈ acc, IsEvent s code) ↔ n < p.channelPhase.eventCount := by
  have hmem : (∃ s ∈ acc, IsEvent s code) ↔ code ∈ acc.filterMap dailyEvent := by
    rw [List.mem_filterMap]
    refine exists_congr fun s => and_congr_right fun _ => ⟨?_, isEvent_of_dailyEvent⟩
    exact dailyEvent_of_isEvent (List.mem_of_getElem? hn)
  have htake : ∀ (phase : ChannelPhase) (i : Fin dailyEvents.length),
      dailyEvents[i] ∈ dailyEvents.take phase.eventCount ↔ i.1 < phase.eventCount := by
    intro phase
    cases phase <;> decide
  obtain ⟨hlt, rfl⟩ := List.getElem?_eq_some_iff.1 hn
  rw [hmem, h.daily]
  exact htake p.channelPhase ⟨n, hlt⟩

theorem Lifecycle.moves (h : Lifecycle acc p) (hmove : Moves p msg p') (hin : p'.InStep)
    (hopen : Open p msg) : Lifecycle (acc ++ [msg]) p' := by
  have hfirst : ∀ m ∈ (acc ++ [msg]).head?, IsEvent m 'O' := by
    intro m hm
    cases acc with
    | cons first acc => exact h.first m hm
    | nil =>
      have hwait : p.channelPhase = .waitingStartOfMessages := by
        have hdaily := h.daily
        revert hdaily
        cases p.channelPhase <;> decide
      cases hm
      exact hopen.first hwait
  have hone : ∀ {event : Option Char}, dailyEvent msg = event →
      (acc ++ [msg]).filterMap dailyEvent
        = dailyEvents.take p.channelPhase.eventCount ++ event.toList := by
    rintro event rfl
    rw [List.filterMap_append, h.daily]
    cases hevent : dailyEvent msg with
    | none => rw [List.filterMap_cons_none hevent]; rfl
    | some code => rw [List.filterMap_cons_some hevent]; rfl
  cases hmove with
  | stay hevent hphase hprep =>
    refine ⟨?_, hfirst, ?_, hin⟩
    · rw [hone hevent, hphase]
      exact List.append_nil _
    · rw [hprep, hphase]
      exact h.prepared
  | admin htype hphase hphase' hprep =>
    have hprepared := h.prepared
    rw [hphase] at hprepared
    refine ⟨?_, hfirst, ?_, hin⟩
    · rw [hone (dailyEvent_of_isType htype (by decide)), hphase, hphase']
      rfl
    · rw [hprep, hphase']
      exact hprepared
  | @event code hcode hdue hprep =>
    refine ⟨?_, hfirst, ?_, hin⟩
    · rw [hone (dailyEvent_of_isEvent hdue.mem hcode), hdue.count, List.take_add_one, hdue.code]
    · have hdcode := hdue.code
      rw [hprep, h.prepared, hdue.count]
      generalize p.channelPhase = phase at hdcode
      cases phase <;> cases hdcode <;> decide

/-- A message that is accepted passed the checks, and moves the lifecycle on. -/
theorem Accepts.moves (hacc : p.Accepts msg) (h : p.InStep) :
    Open p msg ∧ Moves p msg (p.handleMessage msg).2 := by
  rcases handleMessage_cases (p := p) with ⟨e, he⟩ | ⟨hopen, heff⟩
  · unfold Accepts at hacc
    rw [he] at hacc
    cases hacc
  · refine ⟨hopen, ?_⟩
    have hmove := heff.moves (p := p.cleared) h.sound hacc
    cases hmove with
    | stay hevent hphase hprep => exact .stay hevent hphase hprep
    | admin htype hphase hphase' hprep => exact .admin htype hphase hphase' hprep
    | event hcode hdue hprep => exact .event hcode hdue hprep

theorem Lifecycle.step (h : Lifecycle acc p) (msg : List UInt8) :
    Lifecycle (acc ++ if p.Accepts msg then [msg] else []) (p.handleMessage msg).2 := by
  have hin := h.inStep.handleMessage msg
  by_cases hacc : p.Accepts msg
  · obtain ⟨hopen, hmove⟩ := hacc.moves h.inStep
    rw [if_pos hacc]
    exact h.moves hmove hin hopen
  · have hkept := handleMessage_kept h.inStep.sound hacc
    rw [if_neg hacc, List.append_nil]
    refine ⟨?_, h.first, ?_, hin⟩
    · rw [hkept.channelPhase]
      exact h.daily
    · rw [hkept.channelPhase, hkept.booksPrepared]
      exact h.prepared

theorem lifecycle_run {config : BookManagerConfig} {systemPageBytes : ℕ} {m : BookManager}
    (hm : BookManager.create config systemPageBytes = .ok m) (messages : List (List UInt8)) :
    Lifecycle (accepted (.create .fresh m) messages) ((ItchParser.create .fresh m).feed messages) := by
  induction messages using List.reverseRecOn with
  | nil => exact lifecycle_create hm
  | append_singleton messages msg ih =>
    rw [accepted_snoc, feed_snoc]
    exact ih.step msg

/-- Whether accepted or not, a message never takes the phase back. -/
theorem Lifecycle.ordinal_le (h : Lifecycle acc p) (msg : List UInt8) :
    p.channelPhase.ordinal ≤ (p.handleMessage msg).2.channelPhase.ordinal := by
  by_cases hacc : p.Accepts msg
  · cases (hacc.moves h.inStep).2 with
    | stay _ hphase => exact le_of_eq (congrArg _ hphase.symm)
    | admin _ hphase hphase' =>
      rw [hphase, hphase']
      decide
    | event _ hdue => exact le_of_lt hdue.ordinal
  · exact le_of_eq (congrArg _ (handleMessage_kept h.inStep.sound hacc).channelPhase.symm)

/-- What is no daily event ends the directory spin at most. -/
theorem Lifecycle.phase_of_not_daily (h : Lifecycle acc p) (hevent : dailyEvent msg = none) :
    (p.handleMessage msg).2.channelPhase = p.channelPhase
    ∨ p.channelPhase = .startupDirectorySpin
      ∧ (p.handleMessage msg).2.channelPhase = .startupAdminSpin := by
  by_cases hacc : p.Accepts msg
  · cases (hacc.moves h.inStep).2 with
    | stay _ hphase => exact .inl hphase
    | admin _ hphase hphase' => exact .inr ⟨hphase, hphase'⟩
    | event hcode hdue =>
      rw [dailyEvent_of_isEvent hdue.mem hcode] at hevent
      cases hevent
  · exact .inl (handleMessage_kept h.inStep.sound hacc).channelPhase

theorem Lifecycle.order_after_start (h : Lifecycle acc p) (hacc : p.Accepts msg)
    (horder : IsOrderMessage msg) : ∃ s ∈ acc, IsEvent s 'S' := by
  have hprep := (handleMessage_effect p msg).order_prepared
    (h.inStep.of_eq rfl rfl rfl) horder hacc
  exact (h.event_iff (n := 1) rfl).2 (h.prepared.1 hprep)

theorem Lifecycle.after_system_hours (h : Lifecycle acc p) (hacc : p.Accepts msg)
    (he : ∃ s ∈ acc, IsEvent s 'E') : IsType msg ['X', 'D', 'B'] ∨ IsEvent msg 'C' := by
  have hopen := (hacc.moves h.inStep).1
  have hcount := (h.event_iff (n := 4) rfl).1 he
  refine hopen.late ?_
  have hne := hopen.not_ended
  revert hcount hne
  cases p.channelPhase <;> decide

theorem Lifecycle.nothing_after_end (h : Lifecycle acc p) (hacc : p.Accepts msg) :
    ∀ s ∈ acc, ¬ IsEvent s 'C' := by
  intro s hs hC
  have hcount := (h.event_iff (n := 5) rfl).1 ⟨s, hs, hC⟩
  have hne := (hacc.moves h.inStep).1.not_ended
  revert hcount hne
  cases p.channelPhase <;> decide

/-- A message has one event code. -/
theorem IsEvent.code_eq {c c' : Char} (h : IsEvent msg c) (h' : IsEvent msg c') :
    byte c = byte c' := h.2.symm.trans h'.2

theorem Advanced.no_live_orders (hadv : Advanced p msg p') (hC : IsEvent msg 'C')
    (hacc : p'.lastError = none) : p.books.totalLiveOrderCount = 0 := by
  cases hadv with
  | refuse e => cases hacc
  | @advance code next hcode hnext =>
    have hmem : code ∈ ['O', 'Q', 'M', 'E'] := by
      simp only [List.mem_cons, Prod.mk.injEq, List.not_mem_nil, or_false] at hnext ⊢
      tauto
    have hne : ∀ c ∈ ['O', 'Q', 'M', 'E'], byte c ≠ byte 'C' := by decide
    exact absurd (hcode.code_eq hC) (hne code hmem)
  | start hcode => exact absurd (hcode.code_eq hC) (by decide)
  | close _ hlive => exact hlive
  | emergency hcode =>
    have hevent := dailyEvent_of_isEmergency hcode
    rw [dailyEvent_of_isEvent (by decide) hC] at hevent
    cases hevent

/-- System Event C is accepted only when no order is live. -/
theorem Effect.no_live_orders (he : Effect p msg p') (hC : IsEvent msg 'C')
    (hacc : p'.lastError = none) : p.books.totalLiveOrderCount = 0 := by
  cases he with
  | refuse e => cases hacc
  | skip htype => exact absurd hC.1 htype
  | admin htype => exact (htype.disjoint hC.isType (by decide)).elim
  | book htype => exact (htype.disjoint hC.isType (by decide)).elim
  | directory htype =>
    rw [hC.1] at htype
    exact absurd htype (by decide)
  | event htype => exact (handleSystemEvent_advanced htype).no_live_orders hC hacc

/-- A message that passes the checks reaches the switch. -/
theorem handleMessage_of_open (hsize : WellSized msg) (hopen : Open p msg)
    (hlocate : byteAt msg 0 = byte 'S' → readU16BE msg 1 = 0) : (p.handleMessage msg).2
      = (p.cleared.dispatchType msg (byteAt msg 0) (readU16BE msg 1)).2 := by
  have hexpected : expectedItchMessageLength (byteAt msg 0) ≠ 0 := by
    rw [← hsize.2]
    exact List.length_eq_zero_iff.not.2 hsize.1
  have hcode : byteAt msg 0 = byte 'S' → (if byteAt msg 0 = byte 'S' then
      byteAt msg kSystemEventCodeOffset else 0) = byteAt msg kSystemEventCodeOffset :=
    fun hS => if_pos hS
  unfold handleMessage
  dsimp only
  rw [if_neg hsize.1, if_neg hexpected, if_neg (not_not.2 hsize.2)]
  unfold dispatchMessage
  dsimp only
  generalize (if byteAt msg 0 = byte 'S' then byteAt msg kSystemEventCodeOffset else 0) = code
    at hcode ⊢
  have hfirst : ¬ (p.cleared.channelPhase = .waitingStartOfMessages
      ∧ (byteAt msg 0 ≠ byte 'S' ∨ code ≠ byte 'O')) := by
    rintro ⟨hw, hne⟩
    obtain ⟨hS, hO⟩ := hopen.first hw
    rw [hcode hS] at hne
    exact hne.elim (absurd hS) (absurd hO)
  have hlate : ¬ (p.cleared.channelPhase = .postSystemHours ∧ byteAt msg 0 ≠ byte 'X'
      ∧ byteAt msg 0 ≠ byte 'D' ∧ byteAt msg 0 ≠ byte 'B'
      ∧ ¬ (byteAt msg 0 = byte 'S' ∧ code = byte 'C')) := by
    rintro ⟨hp, hX, hD, hB, hnot⟩
    rcases hopen.late hp with ⟨c, hc, hbyte⟩ | hC
    · simp only [List.mem_cons, List.not_mem_nil, or_false] at hc
      rcases hc with rfl | rfl | rfl <;> contradiction
    · exact hnot ⟨hC.1, (hcode hC.1).trans hC.2⟩
  have hended : p.cleared.channelPhase ≠ .endOfMessages := hopen.not_ended
  rw [if_neg (UInt64.not_le.2 hopen.timestamp), if_neg fun h => h.2 (hlocate h.1), if_neg hfirst,
    if_neg hended, if_neg hlate]

theorem dispatchType_systemEvent (hS : byteAt msg 0 = byte 'S') (locate : UInt16) :
    (p.dispatchType msg (byteAt msg 0) locate).2 = p.handleSystemEvent msg := by
  rw [hS]
  rfl

theorem advancePhase_allowed {next : ChannelPhase} (h : p.phaseAllowed next = true) :
    p.advancePhase next = (true, { p with channelPhase := next }) :=
  if_neg (by simp [h])

theorem InStep.handleSystemHoursStart_due (h : p.InStep)
    (hallowed : p.phaseAllowed .systemHours = true) :
    p.handleSystemHoursStart.lastError = p.lastError := by
  obtain ⟨books, _, hp⟩ := createRegisteredBooks_books (p := { p with
    channelPhase := .systemHours, booksPrepared := true }) h.books
  unfold handleSystemHoursStart
  simp only [advancePhase_allowed hallowed, hp, Bool.not_true, Bool.false_eq_true, if_false,
    if_true]
  split <;> rfl

/-- The daily event that is due is not refused. -/
theorem InStep.handleSystemEvent_due (h : p.InStep) {code : Char} (hcode : IsEvent msg code)
    (hdue : dailyEvents[p.channelPhase.eventCount]? = some code)
    (hlive : code = 'C' → p.books.totalLiveOrderCount = 0) :
    (p.handleSystemEvent msg).lastError = p.lastError := by
  have hallowed : ∀ next : ChannelPhase, (code, next) ∈ [('O', ChannelPhase.startupDirectorySpin),
      ('S', .systemHours), ('Q', .marketHours), ('M', .postMarketHours), ('E', .postSystemHours),
      ('C', .endOfMessages)] → p.phaseAllowed next = true := by
    intro next hnext
    unfold phaseAllowed
    generalize p.channelPhase = phase at hdue
    simp only [List.mem_cons, Prod.mk.injEq, List.not_mem_nil, or_false] at hnext
    rcases hnext with ⟨rfl, rfl⟩ | ⟨rfl, rfl⟩ | ⟨rfl, rfl⟩ | ⟨rfl, rfl⟩ | ⟨rfl, rfl⟩ | ⟨rfl, rfl⟩ <;>
      cases phase <;> first | rfl | cases hdue
  have hadvance : ∀ {next}, p.phaseAllowed next = true →
      (p.advancePhase next).2.lastError = p.lastError := by
    intro next hnext
    rw [advancePhase_allowed hnext]
  have hmem := List.mem_of_getElem? hdue
  unfold handleSystemEvent
  rw [hcode.2]
  simp only [dailyEvents, List.mem_cons, List.not_mem_nil, or_false] at hmem
  rcases hmem with rfl | rfl | rfl | rfl | rfl | rfl
  · exact hadvance (hallowed _ (by simp))
  · exact h.handleSystemHoursStart_due (hallowed _ (by simp))
  · exact hadvance (hallowed _ (by simp))
  · exact hadvance (hallowed _ (by simp))
  · exact hadvance (hallowed _ (by simp))
  · have hnone : ¬ p.books.totalLiveOrderCount ≠ 0 := not_not.2 (hlive rfl)
    rw [if_neg (by decide), if_neg (by decide), if_neg (by decide), if_neg (by decide),
      if_neg (by decide), if_pos rfl, if_neg hnone]
    exact hadvance (hallowed _ (by simp))

/-- A System Event that passes the checks is accepted when it is due. -/
theorem InStep.accepts_event (h : p.InStep) (hsize : WellSized msg) (hopen : Open p msg)
    (hlocate : readU16BE msg 1 = 0) {code : Char} (hcode : IsEvent msg code)
    (hdue : dailyEvents[p.channelPhase.eventCount]? = some code)
    (hlive : code = 'C' → p.books.totalLiveOrderCount = 0) : p.Accepts msg := by
  have hcleared : p.cleared.InStep := h.of_eq rfl rfl rfl
  unfold Accepts
  rw [handleMessage_of_open hsize hopen fun _ => hlocate, dispatchType_systemEvent hcode.1]
  exact hcleared.handleSystemEvent_due hcode hdue hlive

theorem InStep.accepts_due (h : p.InStep) {code : Char}
    (hdue : dailyEvents[p.channelPhase.eventCount]? = some code)
    (hlive : code = 'C' → p.books.totalLiveOrderCount = 0) : p.Accepts (systemEvent code) := by
  have hcode : IsEvent (systemEvent code) code := ⟨rfl, rfl⟩
  have hsize : WellSized (systemEvent code) := ⟨List.cons_ne_nil _ _, rfl⟩
  have hlocate : readU16BE (systemEvent code) 1 = 0 := by
    simp [readU16BE, systemEvent, byteAt]
  have hmidnight : readU48BE (systemEvent code) kTimestampOffset = 0 := by
    simp [readU48BE, readBE, systemEvent, byteAt, kTimestampOffset, List.range_succ]
  refine h.accepts_event hsize ⟨?_, fun hw => ?_, fun hend => ?_, fun hpost => ?_⟩ hlocate hcode
    hdue hlive
  · rw [hmidnight]
    decide
  · rw [hw] at hdue
    cases hdue
    exact hcode
  · rw [hend] at hdue
    cases hdue
  · rw [hpost] at hdue
    cases hdue
    exact .inr hcode

theorem InStep.start_accepted (h : p.InStep)
    (hphase : p.channelPhase = .startupDirectorySpin ∨ p.channelPhase = .startupAdminSpin) :
    p.Accepts (systemEvent 'S') := by
  refine h.accepts_due ?_ fun hC => absurd hC (by decide)
  rcases hphase with hp | hp <;> rw [hp] <;> rfl

theorem parser_lifecycle {config : BookManagerConfig} {systemPageBytes : ℕ} {m : BookManager}
    (hm : BookManager.create config systemPageBytes = .ok m) (messages : List (List UInt8)) :
    let p := (ItchParser.create .fresh m).feed messages
    let acc := accepted (.create .fresh m) messages
    acc.filterMap dailyEvent <+: dailyEvents
    ∧ acc.filterMap dailyEvent = dailyEvents.take p.channelPhase.eventCount
    ∧ (∀ msg ∈ acc.head?, IsEvent msg 'O')
    ∧ ∀ msg,
      let next := (p.handleMessage msg).2.channelPhase
      p.channelPhase.ordinal ≤ next.ordinal
      ∧ (IsEmergency msg ∨ IsAdministrative msg → next = p.channelPhase
        ∨ p.channelPhase = .startupDirectorySpin ∧ next = .startupAdminSpin)
      ∧ (IsEmergency msg ∨ IsAdministrative msg → next.eventCount = p.channelPhase.eventCount)
      ∧ (p.Accepts msg →
        readU48BE msg kTimestampOffset < 86400000000000
        ∧ (IsOrderMessage msg → ∃ s ∈ acc, IsEvent s 'S')
        ∧ ((∃ e ∈ acc, IsEvent e 'E') → IsType msg ['X', 'D', 'B'] ∨ IsEvent msg 'C')
        ∧ (IsEvent msg 'C' →
          p.books.totalLiveOrderCount = 0 ∧ ∀ r, p.books.orders.live r = none)
        ∧ ∀ c ∈ acc, ¬ IsEvent c 'C') := by
  intro p acc
  have h : Lifecycle acc p := lifecycle_run hm messages
  refine ⟨h.daily ▸ List.take_prefix _ _, h.daily, h.first, fun msg => ?_⟩
  intro next
  have hnext : IsEmergency msg ∨ IsAdministrative msg → next = p.channelPhase
      ∨ p.channelPhase = .startupDirectorySpin ∧ next = .startupAdminSpin := by
    rintro (he | ha)
    · exact h.phase_of_not_daily (dailyEvent_of_isEmergency he)
    · exact h.phase_of_not_daily (dailyEvent_of_isType ha (by decide))
  refine ⟨h.ordinal_le msg, hnext, fun hkind => ?_, fun hacc => ?_⟩
  · rcases hnext hkind with hn | ⟨hp, hn⟩
    · rw [hn]
    · rw [hn, hp]
      rfl
  refine ⟨(hacc.moves h.inStep).1.timestamp, h.order_after_start hacc, h.after_system_hours hacc,
    fun hC => ?_, h.nothing_after_end hacc⟩
  have hcount : p.books.totalLiveOrderCount = 0 :=
    (handleMessage_effect p msg).no_live_orders hC hacc
  obtain ⟨b, hb⟩ := h.inStep.sound
  exact ⟨hcount, hb.live_eq_none hcount⟩

/-! ## A day without stocks -/

theorem Effect.symbols_eq (he : Effect p msg p') (htype : byteAt msg 0 = byte 'S') :
    p'.symbols = p.symbols := by
  have hS : IsType msg ['S'] := ⟨_, List.mem_singleton_self _, htype⟩
  cases he with
  | refuse e => rfl
  | skip hne => exact absurd htype hne
  | admin hadmin => exact (hadmin.disjoint hS (by decide)).elim
  | book horder => exact (horder.disjoint hS (by decide)).elim
  | directory hR =>
    rw [htype] at hR
    exact absurd hR (by decide)
  | event => exact handleSystemEvent_symbols htype

theorem totalLiveOrderCount_of_no_books {m : BookManager} (h : BooksFor m ∅) :
    m.totalLiveOrderCount = 0 := by
  have hnone : ∀ l, m.books l = none := by
    intro l
    rw [← Option.not_isSome_iff_eq_none, h.isSome_iff]
    exact Set.notMem_empty l
  unfold BookManager.totalLiveOrderCount
  simp only [hnone]
  exact List.foldl_fixed' (fun _ => rfl) _

theorem filterMap_dailyEvent {codes : List Char} (h : ∀ code ∈ codes, code ∈ dailyEvents) :
    (codes.map systemEvent).filterMap dailyEvent = codes := by
  induction codes with
  | nil => rfl
  | cons code codes ih =>
    have hevent : dailyEvent (systemEvent code) = some code :=
      dailyEvent_of_isEvent (h code List.mem_cons_self) ⟨rfl, rfl⟩
    rw [List.map_cons, List.filterMap_cons_some hevent,
      ih fun code hcode => h code (List.mem_cons_of_mem _ hcode)]

/-- After as many daily events the phase counts them. -/
theorem Lifecycle.eventCount_eq {k : ℕ}
    (h : Lifecycle ((dailyEvents.take k).map systemEvent) p) (hk : k ≤ 6) :
    p.channelPhase.eventCount = k := by
  have hdaily := h.daily
  rw [filterMap_dailyEvent fun code hcode => List.mem_of_mem_take hcode] at hdaily
  have hlen := congrArg List.length hdaily
  rw [List.length_take, List.length_take, show dailyEvents.length = 6 from rfl] at hlen
  have hle : ∀ phase : ChannelPhase, phase.eventCount ≤ 6 := by
    intro phase
    cases phase <;> decide
  have hphase := hle p.channelPhase
  omega

/-- The daily events alone are accepted one after the other. -/
theorem accepted_day {config : BookManagerConfig} {systemPageBytes : ℕ} {m : BookManager}
    (hm : BookManager.create config systemPageBytes = .ok m) (k : ℕ) :
    accepted (.create .fresh m) ((dailyEvents.take k).map systemEvent)
        = (dailyEvents.take k).map systemEvent
      ∧ ((ItchParser.create .fresh m).feed ((dailyEvents.take k).map systemEvent)).symbols
        = .fresh
      ∧ ((ItchParser.create .fresh m).feed ((dailyEvents.take k).map systemEvent)).lastError
        = none := by
  induction k with
  | zero => exact ⟨rfl, rfl, rfl⟩
  | succ k ih =>
    obtain ⟨hacc, hsymbols, herror⟩ := ih
    have h := lifecycle_run hm ((dailyEvents.take k).map systemEvent)
    rw [hacc] at h
    rw [List.take_add_one, List.map_append]
    cases hcode : dailyEvents[k]? with
    | none =>
      rw [Option.toList_none, List.map_nil, List.append_nil]
      exact ⟨hacc, hsymbols, herror⟩
    | some code =>
      generalize hp : (ItchParser.create .fresh m).feed ((dailyEvents.take k).map systemEvent) = p
        at h hsymbols
      have hbooks : BooksFor p.books ∅ := by
        have hempty : p.bookLocates = ∅ := by
          refine Set.eq_empty_iff_forall_notMem.2 fun l hl => ?_
          have hreg := hl.2
          rw [hsymbols] at hreg
          exact (StockDirectory.isRegistered_iff.1 hreg).2 rfl
        rw [← hempty]
        exact h.inStep.books
      have hcount : p.channelPhase.eventCount = k :=
        h.eventCount_eq (le_of_lt (List.getElem?_eq_some_iff.1 hcode).1)
      have hdue : p.Accepts (systemEvent code) := by
        refine h.inStep.accepts_due (by rw [hcount]; exact hcode) fun _ => ?_
        exact totalLiveOrderCount_of_no_books hbooks
      have heff := handleMessage_effect p (systemEvent code)
      rw [Option.toList_some, List.map_singleton, accepted_snoc, feed_snoc, hacc, hp, if_pos hdue]
      refine ⟨rfl, ?_, hdue⟩
      rw [heff.symbols_eq rfl]
      exact hsymbols

/-- The daily events at a manager of one direct slot, one bucket and one page. -/
theorem parser_lifecycle_day : ∃ m, BookManager.create ⟨⟨1, 1⟩, ⟨1⟩⟩ 4096 = .ok m
    ∧ accepted (.create .fresh m) (dailyEvents.map systemEvent) = dailyEvents.map systemEvent
    ∧ ((ItchParser.create .fresh m).feed (dailyEvents.map systemEvent)).channelPhase.eventCount
      = 6 := by
  obtain ⟨m, hm⟩ : ∃ m, BookManager.create ⟨⟨1, 1⟩, ⟨1⟩⟩ 4096 = .ok m := ⟨_, rfl⟩
  have hacc : accepted (.create .fresh m) (dailyEvents.map systemEvent)
      = dailyEvents.map systemEvent := (accepted_day hm 6).1
  have hdaily := (parser_lifecycle hm (dailyEvents.map systemEvent)).2.1
  rw [hacc, filterMap_dailyEvent fun _ => id] at hdaily
  refine ⟨m, hm, hacc, ?_⟩
  revert hdaily
  generalize ((ItchParser.create .fresh m).feed (dailyEvents.map systemEvent)).channelPhase = phase
  cases phase <;> decide

theorem booksPrepared_iff {config : BookManagerConfig} {systemPageBytes : ℕ} {m : BookManager}
    (hm : BookManager.create config systemPageBytes = .ok m) (messages : List (List UInt8)) :
    (∃ s ∈ accepted (.create .fresh m) messages, IsEvent s 'S')
      ↔ ((ItchParser.create .fresh m).feed messages).booksPrepared = true := by
  have h := lifecycle_run hm messages
  exact (h.event_iff (n := 1) rfl).trans h.prepared.symm

/-- Once System Event S is accepted, the books are those of the directory. -/
theorem directory_in_step {config : BookManagerConfig} {systemPageBytes : ℕ} {m : BookManager}
    (hm : BookManager.create config systemPageBytes = .ok m) (messages : List (List UInt8)) :
    let p := (ItchParser.create .fresh m).feed messages
    let acc := accepted (.create .fresh m) messages
    ((¬ ∃ s ∈ acc, IsEvent s 'S') →
      ∀ l, p.books.books l = none ∧ p.books.prices.isBookPrepared l = false)
    ∧ ((∃ s ∈ acc, IsEvent s 'S') →
      (∀ l, ((p.books.books l).isSome ↔ p.books.prices.isBookPrepared l = true)
        ∧ (p.books.prices.isBookPrepared l = true ↔ p.symbols.isRegistered l = true)
        ∧ ∀ book, p.books.books l = some book → book.stockLocate = l ∧ book.symbolId = l.toUInt32)
      ∧ p.books.prices.preparedBookCount.toNat = p.symbols.size
      ∧ (p.books.auditDirectory p.symbols).clean = true) := by
  intro p acc
  have h : Lifecycle acc p := lifecycle_run hm messages
  have hbooks := h.inStep.books
  have hprep : (∃ s ∈ acc, IsEvent s 'S') ↔ p.booksPrepared = true := booksPrepared_iff hm messages
  rw [hprep]
  refine ⟨fun hnot l => ?_, fun hyes => ?_⟩
  · have hl : l ∉ p.bookLocates := fun hl => hnot hl.1
    rw [← Option.not_isSome_iff_eq_none, hbooks.isSome_iff, ← Bool.not_eq_true,
      hbooks.prepared_iff]
    exact ⟨hl, hl⟩
  · have hlocates : p.bookLocates = {l | p.symbols.isRegistered l = true} := by
      ext l
      exact and_iff_right hyes
    rw [hlocates] at hbooks
    refine ⟨fun l => ⟨?_, hbooks.prepared_iff, fun book => hbooks.identity⟩, ?_,
      audit_clean hbooks h.inStep.symbols⟩
    · rw [hbooks.isSome_iff, hbooks.prepared_iff]
    · obtain ⟨_, _, _, hcount⟩ := hbooks
      exact hcount.trans h.inStep.symbols.count_registered.symm

/-- Two stocks before System Event S and one after it, then a refresh, and a directory message that
names another ticker. -/
def directoryDay : List (List UInt8) :=
  [systemEvent 'O', registration 1 ['A'] 100, registration 2 ['B'] 100, systemEvent 'S',
    registration 3 ['C'] 100, registration 1 ['A'] 200, registration 2 ['Z'] 100]

theorem feed_directoryDay {books : BookManager}
    (hphase : ((create .fresh books).feed (directoryDay.take 3)).channelPhase
      = .startupDirectorySpin)
    (hprep : ((create .fresh books).feed (directoryDay.take 3)).booksPrepared = false) (j k : ℕ)
    (hj : j = 4 + k) : (create .fresh books).feed (directoryDay.take j)
      = (((create .fresh books).feed (directoryDay.take 3)).startedBelow 2).feed
        ((directoryDay.drop 4).take k) := by
  have htake : directoryDay.take j
      = directoryDay.take 3 ++ systemEvent 'S' :: (directoryDay.drop 4).take k := by
    rw [hj]
    exact List.take_add
  rw [htake]
  exact feed_startedBelow hphase hprep (by decide) (by decide) _

/-- From System Event S on there is a book for each stock registered so far: two at first, three
after the late message, and still three after the refresh and the refusal. -/
theorem directory_in_step_directoryDay : ∃ m, BookManager.create ⟨⟨1, 1⟩, ⟨1⟩⟩ 4096 = .ok m
    ∧ (((ItchParser.create .fresh m).feed (directoryDay.take 6)).symbols.entries 1).roundLotSize
      = 200
    ∧ ((ItchParser.create .fresh m).feed (directoryDay.take 7)).lastError
      = some .conflictingTicker
    ∧ ∀ k n, (k, n) ∈ [(0, 2), (1, 3), (2, 3), (3, 3)] →
      let p := (ItchParser.create .fresh m).feed (directoryDay.take (4 + k))
      p.books.prices.preparedBookCount.toNat = n
        ∧ (∀ l ∈ List.range' 1 4, (p.books.books l.toUInt16).isSome = true ↔ l ≤ n)
        ∧ (p.books.auditDirectory p.symbols).clean = true := by
  obtain ⟨m, hm, hphase, hprep, hlot, herror, hall⟩ :
      ∃ m, BookManager.create ⟨⟨1, 1⟩, ⟨1⟩⟩ 4096 = .ok m
      ∧ let p := (ItchParser.create .fresh m).feed (directoryDay.take 3)
        p.channelPhase = .startupDirectorySpin ∧ p.booksPrepared = false
        ∧ (((p.startedBelow 2).feed ((directoryDay.drop 4).take 2)).symbols.entries 1).roundLotSize
          = 200
        ∧ ((p.startedBelow 2).feed ((directoryDay.drop 4).take 3)).lastError
          = some .conflictingTicker
        ∧ ∀ kn ∈ [(0, 2), (1, 3), (2, 3), (3, 3)],
          let q := (p.startedBelow 2).feed ((directoryDay.drop 4).take kn.1)
          q.booksPrepared = true ∧ q.symbols.size = kn.2
            ∧ ∀ l ∈ List.range' 1 4, q.symbols.isRegistered l.toUInt16 = true ↔ l ≤ kn.2 :=
    ⟨_, rfl, by decide +kernel, by decide +kernel, by decide +kernel, by decide +kernel,
      by decide +kernel⟩
  rw [← feed_directoryDay hphase hprep 6 2 rfl] at hlot
  rw [← feed_directoryDay hphase hprep 7 3 rfl] at herror
  refine ⟨m, hm, hlot, herror, fun k n hkn => ?_⟩
  have hq := hall (k, n) hkn
  rw [← feed_directoryDay hphase hprep (4 + k) k rfl] at hq
  obtain ⟨hstart, hcount, hregistered⟩ := hq
  obtain ⟨hbooks, hsize, hclean⟩ := (directory_in_step hm (directoryDay.take (4 + k))).2
    ((booksPrepared_iff hm _).2 hstart)
  refine ⟨hsize.trans hcount, fun l hl => ?_, hclean⟩
  exact (hbooks l.toUInt16).1.trans ((hbooks l.toUInt16).2.1.trans (hregistered l hl))

end ItchParser

end AstraFeed
