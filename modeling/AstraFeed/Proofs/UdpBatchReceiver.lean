import AstraFeed.Lib.Interleaves
import AstraFeed.UdpBatchReceiver

/-!
# What the receivers give out

A receiver gives out the datagrams of its queue that fit a buffer, once each and in their order, and
two receivers an interleaving of theirs. What they drop and what the kernel dropped is counted
(`lines_account`).
-/

namespace AstraFeed

/-- The receiver keeps the datagram. -/
def Datagram.fits (datagram : Datagram) : Bool :=
  !UdpBatchReceiver.shouldDropDatagram datagram.data.length datagram.truncated

/-- The kernel hands out some of what it has. -/
def RecvOutcome.Attends (outcome : RecvOutcome) : Prop := ∃ count, outcome = .received (count + 1)

/-- The kernel's count of drops goes from one number to another, with the low half of it in the
datagrams. -/
inductive Tallies : ℕ → List Datagram → ℕ → Prop
  | nil (total : ℕ) : Tallies total [] total
  | silent {total total' : ℕ} {datagram : Datagram} {datagrams : List Datagram}
    (hdrops : datagram.drops = none) (h : Tallies total datagrams total') :
    Tallies total (datagram :: datagrams) total'
  | counted {total next total' : ℕ} {datagram : Datagram} {datagrams : List Datagram}
    (hle : total ≤ next) (hlt : next < total + 2 ^ 32)
    (hdrops : datagram.drops = some (UInt32.ofNat next)) (h : Tallies next datagrams total') :
    Tallies total (datagram :: datagrams) total'

theorem Tallies.split {read got : List Datagram} {total total' : ℕ}
    (h : Tallies total (read ++ got) total') :
    ∃ mid, Tallies total read mid ∧ Tallies mid got total' := by
  induction read generalizing total with
  | nil => exact ⟨total, .nil total, h⟩
  | cons datagram read ih =>
    cases h with
    | silent hdrops h =>
      obtain ⟨mid, hread, hgot⟩ := ih h
      exact ⟨mid, .silent hdrops hread, hgot⟩
    | counted hle hlt hdrops h =>
      obtain ⟨mid, hread, hgot⟩ := ih h
      exact ⟨mid, .counted hle hlt hdrops hread, hgot⟩

namespace UdpBatchReceiver

variable {r r' : UdpBatchReceiver} {outcome : RecvOutcome} {ticks : UInt64}
  {queue read got : List Datagram}

/-- What is left of the last batch. -/
def waiting (r : UdpBatchReceiver) : List (List UInt8) :=
  r.pending.map fun view => (r.buffers view.slot).take view.size

def accepted (read : List Datagram) : List (List UInt8) := (read.filter (·.fits)).map (·.data)

def dropped (read : List Datagram) : UInt64 := UInt64.ofNat (read.countP (!·.fits))

theorem accepted_of_fits (hfits : ∀ datagram ∈ read, datagram.fits = true) :
    accepted read = read.map (·.data) := by
  rw [accepted, List.filter_eq_self.2 hfits]

theorem dropped_of_fits (hfits : ∀ datagram ∈ read, datagram.fits = true) : dropped read = 0 := by
  rw [dropped, List.countP_eq_zero.2 fun d hd => by simp [hfits d hd]]
  rfl

theorem accepted_append : accepted (read ++ got) = accepted read ++ accepted got := by
  simp [accepted]

theorem dropped_append : dropped (read ++ got) = dropped read + dropped got := by
  simp [dropped]

/-! ## The kernel's drops -/

/-- The receiver's count of drops. -/
structure Counted (total : ℕ) (r : UdpBatchReceiver) : Prop where
  all : r.kernelDropCount = UInt64.ofNat total
  last : r.lastKernelDropCount = UInt32.ofNat total

theorem recordKernelDrops_frame (drops : Option UInt32) :
    (r.recordKernelDrops drops).buffers = r.buffers
      ∧ (r.recordKernelDrops drops).pending = r.pending
      ∧ (r.recordKernelDrops drops).truncatedCount = r.truncatedCount
      ∧ (r.recordKernelDrops drops).batchSize = r.batchSize := by
  unfold recordKernelDrops
  split <;> exact ⟨rfl, rfl, rfl, rfl⟩

/-- The low halves tell the difference, also where they wrap. -/
theorem Counted.recordKernelDrops {total next : ℕ} (h : Counted total r) (hle : total ≤ next)
    (hlt : next < total + 2 ^ 32) :
    Counted next (r.recordKernelDrops (some (UInt32.ofNat next))) := by
  refine ⟨?_, rfl⟩
  unfold UdpBatchReceiver.recordKernelDrops
  dsimp only
  rw [h.all, h.last]
  have htotal : (UInt32.ofNat total).toNat = total % 2 ^ 32 := UInt32.toNat_ofNat'
  have hnext : (UInt32.ofNat next).toNat = next % 2 ^ 32 := UInt32.toNat_ofNat'
  rw [← UInt64.toNat_inj, UInt64.toNat_add, UInt64.toNat_ofNat', UInt64.toNat_ofNat']
  split
  · rename_i hlow
    rw [UInt32.toNat_toUInt64, UInt32.toNat_sub_of_le _ _ hlow, htotal, hnext]
    rw [UInt32.le_iff_toNat_le, htotal, hnext] at hlow
    omega
  · rename_i hwrap
    have htop : (0xFFFFFFFF - UInt32.ofNat total).toNat = 2 ^ 32 - 1 - total % 2 ^ 32 := by
      rw [UInt32.toNat_sub_of_le _ _ (UInt32.le_iff_toNat_le.2 ?_), htotal]
      · rfl
      · rw [htotal]
        exact Nat.le_pred_of_lt (Nat.mod_lt _ (by decide))
    rw [UInt64.toNat_add, UInt64.toNat_add, UInt32.toNat_toUInt64, UInt32.toNat_toUInt64, htop,
      hnext]
    rw [UInt32.le_iff_toNat_le, htotal, hnext] at hwrap
    rw [show (1 : UInt64).toNat = 1 from rfl]
    omega

theorem Counted.congr {total : ℕ} (h : Counted total r)
    (hall : r'.kernelDropCount = r.kernelDropCount)
    (hlast : r'.lastKernelDropCount = r.lastKernelDropCount) : Counted total r' :=
  ⟨hall.trans h.all, hlast.trans h.last⟩

/-! ## What is read -/

/-- Datagrams are read from the socket, and maybe a packet is given out. -/
structure Reads (r : UdpBatchReceiver) (got : List Datagram) (out : Option PacketView)
    (r' : UdpBatchReceiver) : Prop where
  given : r.waiting ++ accepted got = out.toList.map (·.data) ++ r'.waiting
  truncated : r'.truncatedCount = r.truncatedCount + dropped got
  counted : ∀ {total total' : ℕ}, Counted total r → Tallies total got total' → Counted total' r'
  batch : r'.batchSize = r.batchSize

/-- A receiver that differs in what the reads leave alone. -/
theorem Reads.idle (hwaiting : r'.waiting = r.waiting)
    (htruncated : r'.truncatedCount = r.truncatedCount)
    (hall : r'.kernelDropCount = r.kernelDropCount)
    (hlast : r'.lastKernelDropCount = r.lastKernelDropCount) (hbatch : r'.batchSize = r.batchSize) :
    Reads r [] none r' where
  given := (List.append_nil _).trans hwaiting.symm
  truncated := htruncated.trans (UInt64.add_zero _).symm
  counted h ht := by cases ht with | nil => exact h.congr hall hlast
  batch := hbatch

theorem Reads.refl (r : UdpBatchReceiver) : Reads r [] none r := .idle rfl rfl rfl rfl rfl

theorem Reads.trans {out : Option PacketView} {r'' : UdpBatchReceiver} (h : Reads r read none r')
    (h' : Reads r' got out r'') : Reads r (read ++ got) out r'' where
  given := by
    rw [accepted_append, ← List.append_assoc, h.given]
    exact h'.given
  truncated := by rw [h'.truncated, h.truncated, dropped_append, UInt64.add_assoc]
  counted hc ht := by
    obtain ⟨mid, hread, hgot⟩ := ht.split
    exact h'.counted (h.counted hc hread) hgot
  batch := h'.batch.trans h.batch

theorem length_le_of_fits {datagram : Datagram} (h : datagram.fits = true) :
    datagram.data.length ≤ kMaxPacketSize := by
  simp only [Datagram.fits, shouldDropDatagram, Bool.not_eq_true', Bool.or_eq_false_iff,
    decide_eq_false_iff_not] at h
  omega

theorem Counted.one {total total' : ℕ} {datagram : Datagram} (h : Counted total r)
    (ht : Tallies total [datagram] total') :
    Counted total' (r.recordKernelDrops datagram.drops) := by
  cases ht with
  | silent hdrops ht =>
    cases ht
    rw [hdrops]
    exact h
  | counted hle hlt hdrops ht =>
    cases ht
    rw [hdrops]
    exact h.recordKernelDrops hle hlt

/-- A round of the loop. -/
theorem accept_reads (ticks : UInt64) {datagram : Datagram} {slot : ℕ}
    (hbuffer : r.buffers slot = datagram.data.take kMaxPacketSize) :
    Reads r [datagram] none (r.accept ticks slot datagram)
      ∧ (r.accept ticks slot datagram).buffers = r.buffers := by
  obtain ⟨hb, hp, ht, hs⟩ := recordKernelDrops_frame (r := r) datagram.drops
  unfold accept
  dsimp only
  split
  · rename_i hdrop
    refine ⟨⟨?_, ?_, fun hc htally => (hc.one htally).congr rfl rfl, hs⟩, hb⟩
    · simp [waiting, accepted, Datagram.fits, hdrop, hb, hp]
    · simp [dropped, Datagram.fits, hdrop, ht]
  · rename_i hkeep
    have hfits : datagram.fits = true := by simpa [Datagram.fits] using hkeep
    have hown : r.buffers slot = datagram.data := by
      rwa [List.take_of_length_le (length_le_of_fits hfits)] at hbuffer
    refine ⟨⟨?_, ?_, fun hc htally => (hc.one htally).congr rfl rfl, hs⟩, hb⟩
    · simp [waiting, accepted, hfits, hb, hp, hown]
    · simp [dropped, hfits, ht]

theorem acceptLoop_reads {slot : ℕ} (hbuffers : ∀ i datagram, got[i]? = some datagram →
      r.buffers (slot + i) = datagram.data.take kMaxPacketSize) :
    Reads r got none (acceptLoop ticks slot got r) := by
  induction got generalizing slot r with
  | nil => exact .refl r
  | cons datagram got ih =>
    obtain ⟨hread, hkept⟩ := accept_reads ticks (hbuffers 0 datagram rfl)
    refine hread.trans (ih fun i d hd => ?_)
    rw [hkept, Nat.add_assoc, Nat.add_comm 1 i]
    exact hbuffers (i + 1) d hd

/-- A batch is not empty where the kernel hands out some of what it has. -/
theorem receiveBatch_reads (hpending : r.pending = []) (outcome : RecvOutcome) (ticks : UInt64)
    (queue : List Datagram) :
    ∃ got, queue = got ++ (r.receiveBatch outcome ticks queue).2
      ∧ Reads r got none (r.receiveBatch outcome ticks queue).1
      ∧ (outcome.Attends → r.batchSize ≠ 0 → queue ≠ [] → got ≠ []) := by
  have hempty : { r with pending := [] }.waiting = r.waiting := by
    simp [waiting, hpending]
  cases outcome with
  | again => exact ⟨[], rfl, .idle hempty rfl rfl rfl rfl, by rintro ⟨_, h⟩; cases h⟩
  | failed => exact ⟨[], rfl, .idle hempty rfl rfl rfl rfl, by rintro ⟨_, h⟩; cases h⟩
  | received count =>
    have hgot : (RecvOutcome.received count).Attends → r.batchSize ≠ 0 → queue ≠ [] →
        queue.take (min count r.batchSize) ≠ [] := by
      rintro ⟨n, hn⟩ hbatch hqueue
      cases hn
      simp [List.take_eq_nil_iff, hbatch, hqueue]
    unfold receiveBatch
    dsimp only
    split
    · rename_i hnone
      exact ⟨[], rfl, .idle hempty rfl rfl rfl rfl, fun ha hb hq => absurd hnone (hgot ha hb hq)⟩
    · refine ⟨queue.take (min count r.batchSize), ?_, ?_, hgot⟩
      · rw [List.length_take]
        conv_lhs => rw [← List.take_append_drop (min (min count r.batchSize) queue.length) queue]
        rw [← List.take_eq_take_min]
      · generalize queue.take (min count r.batchSize) = got
        have hfilled : Reads r [] none
            { fillBuffers { r with pending := [] } got with syscallCount := r.syscallCount + 1 } :=
          .idle hempty rfl rfl rfl rfl
        exact hfilled.trans (acceptLoop_reads fun i d hd => by simp [fillBuffers, hd])

theorem takePending_reads (r : UdpBatchReceiver) :
    Reads r [] r.takePending.1 r.takePending.2
      ∧ (r.waiting ≠ [] → r.takePending.1 ≠ none) := by
  unfold takePending
  split
  · rename_i hpending
    exact ⟨.refl r, fun hsome => absurd (by simp [waiting, hpending]) hsome⟩
  · rename_i view rest hpending
    refine ⟨⟨?_, (UInt64.add_zero _).symm, fun h ht => (by cases ht; exact h.congr rfl rfl), rfl⟩,
      fun _ => Option.some_ne_none _⟩
    simp [waiting, accepted, hpending]

/-- A packet is given out where one waits, in the buffers or in the queue. -/
theorem next_reads :
    ∃ got, queue = got ++ (r.next outcome ticks queue).2.2
      ∧ Reads r got (r.next outcome ticks queue).1 (r.next outcome ticks queue).2.1
      ∧ (outcome.Attends → r.batchSize ≠ 0 → (∀ datagram ∈ queue, datagram.fits = true) →
        (r.next outcome ticks queue).1 = none → r.waiting = [] ∧ queue = []) := by
  unfold next
  dsimp only
  split
  · rename_i hpending
    have hnone : r.waiting = [] := by simp [waiting, hpending]
    obtain ⟨got, hqueue, hread, hgot⟩ :=
      receiveBatch_reads hpending outcome ticks queue
    obtain ⟨htake, hsome⟩ := takePending_reads (r.receiveBatch outcome ticks queue).1
    refine ⟨got, hqueue, by simpa using hread.trans htake, fun hattends hbatch hfits hout => ?_⟩
    refine ⟨hnone, by_contra fun hne => hsome (fun hwaiting => ?_) hout⟩
    have haccepted : accepted got = [] := by
      have hgiven := hread.given
      rw [hnone, hwaiting] at hgiven
      exact hgiven
    obtain ⟨datagram, hmem⟩ := List.exists_mem_of_ne_nil got (hgot hattends hbatch hne)
    have hfit := hfits datagram (by rw [hqueue]; exact List.mem_append_left _ hmem)
    have hin : datagram.data ∈ accepted got :=
      List.mem_map_of_mem (List.mem_filter.2 ⟨hmem, hfit⟩)
    rw [haccepted] at hin
    exact List.not_mem_nil hin
  · rename_i hpending
    obtain ⟨htake, hsome⟩ := takePending_reads r
    refine ⟨[], rfl, htake, fun _ _ _ hout => absurd hout (hsome fun hnone => hpending ?_)⟩
    rwa [waiting, List.map_eq_nil_iff] at hnone

end UdpBatchReceiver

/-! ## Two lines -/

namespace UdpBatchReceiver

/-- A receiver takes what it reads from the front of its queue. -/
def Moves (r : UdpBatchReceiver) (queue : List Datagram) (out : Option PacketView)
    (r' : UdpBatchReceiver) (queue' : List Datagram) : Prop :=
  ∃ got, queue = got ++ queue' ∧ Reads r got out r'

variable {r r' r'' : UdpBatchReceiver} {queue queue' queue'' : List Datagram}
  {out : Option PacketView}

theorem Moves.refl (r : UdpBatchReceiver) (queue : List Datagram) : Moves r queue none r queue :=
  ⟨[], rfl, .refl r⟩

theorem Moves.trans (h : Moves r queue none r' queue') (h' : Moves r' queue' out r'' queue'') :
    Moves r queue out r'' queue'' := by
  obtain ⟨got, rfl, hread⟩ := h
  obtain ⟨got', rfl, hread'⟩ := h'
  exact ⟨got ++ got', (List.append_assoc ..).symm, hread.trans hread'⟩

end UdpBatchReceiver

namespace DualUdpBatchReceiver

open Function UdpBatchReceiver

variable {r : DualUdpBatchReceiver} {outcome : Line → RecvOutcome} {ticks : Line → UInt64}
  {queue : Line → List Datagram} {line : Line}

theorem line_cases (r : DualUdpBatchReceiver) (line : Line) :
    line = r.first ∨ line = r.first.other := by
  unfold first
  split <;> cases line <;> simp [Line.other]

/-- Nothing waits on the line. -/
def Idle (r : DualUdpBatchReceiver) (queue : Line → List Datagram) (line : Line) : Prop :=
  (r.receiver line).waiting = [] ∧ queue line = []

/-- The line is asked for what it has. -/
structure Attended (r : DualUdpBatchReceiver) (outcome : Line → RecvOutcome)
    (queue : Line → List Datagram) (line : Line) : Prop where
  attends : (outcome line).Attends
  batch : (r.receiver line).batchSize ≠ 0
  fits : ∀ datagram ∈ queue line, datagram.fits = true

/-- One line gives out a packet, or none does. -/
inductive Gives (r : DualUdpBatchReceiver) (outcome : Line → RecvOutcome)
    (queue : Line → List Datagram) :
    Option PacketView × DualUdpBatchReceiver × (Line → List Datagram) → Prop
  | packet (line : Line) (packet : PacketView) (r' : DualUdpBatchReceiver)
    (queue' : Line → List Datagram)
    (hmoves : ∀ l, Moves (r.receiver l) (queue l) (if l = line then some packet else none)
      (r'.receiver l) (queue' l))
    (hpackets : r'.packets = update r.packets line (r.packets line + 1)) :
    Gives r outcome queue (some packet, r', queue')
  | nothing (r' : DualUdpBatchReceiver) (queue' : Line → List Datagram)
    (hmoves : ∀ l, Moves (r.receiver l) (queue l) none (r'.receiver l) (queue' l))
    (hpackets : r'.packets = r.packets)
    (hidle : ∀ l, Attended r outcome queue l → Idle r queue l) :
    Gives r outcome queue (none, r', queue')

/-- A line is asked, and the others are left alone. -/
theorem ask_moves (receiver : Line → UdpBatchReceiver) (queue : Line → List Datagram)
    (line : Line) (outcome : RecvOutcome) (ticks : UInt64) (l : Line) :
    let out := (receiver line).next outcome ticks (queue line)
    Moves (receiver l) (queue l) (if l = line then out.1 else none)
      (update receiver line out.2.1 l) (update queue line out.2.2 l) := by
  dsimp only
  rcases eq_or_ne l line with rfl | hl
  · rw [if_pos rfl, update_self, update_self]
    obtain ⟨got, hqueue, hread, -⟩ := next_reads
    exact ⟨got, hqueue, hread⟩
  · rw [if_neg hl, update_of_ne hl, update_of_ne hl]
    exact .refl _ _

/-- A line that gives out nothing has nothing. -/
theorem Attended.idle (h : Attended r outcome queue line) (ticks : Line → UInt64)
    (hnone : ((r.receiver line).next (outcome line) (ticks line) (queue line)).1 = none) :
    Idle r queue line := by
  obtain ⟨-, -, -, hidle⟩ := next_reads
  exact hidle h.attends h.batch h.fits hnone

theorem next_gives (r : DualUdpBatchReceiver) (outcome : Line → RecvOutcome)
    (ticks : Line → UInt64) (queue : Line → List Datagram) :
    Gives r outcome queue (r.next outcome ticks queue) := by
  have hne : r.first.other ≠ r.first := by cases r.first <;> simp [Line.other]
  have hfirst := ask_moves r.receiver queue r.first (outcome r.first) (ticks r.first)
  have hfirstIdle := fun h : Attended r outcome queue r.first => h.idle ticks
  have hsecondIdle := fun h : Attended r outcome queue r.first.other => h.idle ticks
  unfold DualUdpBatchReceiver.next
  dsimp only at hfirst ⊢
  generalize (r.receiver r.first).next (outcome r.first) (ticks r.first) (queue r.first) = out
    at hfirst hfirstIdle ⊢
  obtain ⟨packet | packet, receiver, rest⟩ := out
  · -- the first line has nothing
    have hsecond := ask_moves (update r.receiver r.first receiver) (update queue r.first rest)
      r.first.other (outcome r.first.other) (ticks r.first.other)
    simp only [ite_self] at hfirst
    dsimp only at hsecond ⊢
    rw [update_of_ne hne, update_of_ne hne] at hsecond ⊢
    generalize (r.receiver r.first.other).next (outcome r.first.other) (ticks r.first.other)
      (queue r.first.other) = out at hsecond hsecondIdle ⊢
    have hboth := fun l => (hfirst l).trans (hsecond l)
    obtain ⟨packet | packet, receiver', rest'⟩ := out
    · simp only [ite_self] at hboth
      refine .nothing _ _ hboth rfl fun l hl => ?_
      rcases line_cases r l with rfl | rfl
      · exact hfirstIdle hl rfl
      · exact hsecondIdle hl rfl
    · exact .packet r.first.other packet _ _ hboth rfl
  · exact .packet r.first packet _ _ hfirst rfl

end DualUdpBatchReceiver

/-! ## Runs of the lines -/

namespace FeedLines

open Function UdpBatchReceiver DualUdpBatchReceiver

variable {s : FeedLines} {given : Line → List (List UInt8)} {line : Line}

/-- What came in on a line was read or is in the queue, and what was read and fits was given out or
waits. -/
structure Accounts (given : List (List UInt8)) (arrived queue : List Datagram)
    (r : UdpBatchReceiver) (packets : UInt64) : Prop where
  read : ∃ read, arrived = read ++ queue ∧ accepted read = given ++ r.waiting
    ∧ r.truncatedCount = dropped read
    ∧ ∀ total, Tallies 0 read total → UdpBatchReceiver.Counted total r
  packets : packets = UInt64.ofNat given.length
  batch : r.batchSize ≠ 0

theorem Accounts.moves {own : List (List UInt8)} {arrived queue queue' : List Datagram}
    {r r' : UdpBatchReceiver} {packets : UInt64} {out : Option PacketView}
    (h : Accounts own arrived queue r packets) (hmoves : Moves r queue out r' queue') :
    Accounts (own ++ out.toList.map (·.data)) arrived queue' r'
      (packets + UInt64.ofNat out.toList.length) := by
  obtain ⟨read, harrived, haccepted, htruncated, hcounted⟩ := h.read
  obtain ⟨got, rfl, hread⟩ := hmoves
  refine ⟨⟨read ++ got, by rw [harrived, List.append_assoc], ?_, ?_, fun total ht => ?_⟩, ?_, ?_⟩
  · rw [accepted_append, haccepted, List.append_assoc, hread.given, List.append_assoc]
  · rw [hread.truncated, htruncated, dropped_append]
  · obtain ⟨mid, hmid, hgot⟩ := ht.split
    exact hread.counted (hcounted mid hmid) hgot
  · rw [h.packets, List.length_append, List.length_map]
    exact (UInt64.ofNat_add _ _).symm
  · rw [hread.batch]
    exact h.batch

theorem Accounts.quiet {own : List (List UInt8)} {arrived queue queue' : List Datagram}
    {r r' : UdpBatchReceiver} {packets : UInt64} (h : Accounts own arrived queue r packets)
    (hmoves : Moves r queue none r' queue') : Accounts own arrived queue' r' packets := by
  simpa using h.moves hmoves

/-- The lines account for what came in. -/
structure Accounted (given : Line → List (List UInt8)) (s : FeedLines) : Prop where
  merged : Interleaves given (s.taken.map (·.data))
  lines : ∀ line, Accounts (given line) (s.arrived line) (s.queue line) (s.receiver.receiver line)
    (s.receiver.packets line)

theorem accounted_create (batchSize : ℕ) : Accounted (fun _ => []) (create batchSize) where
  merged := .nil
  lines := fun _ => ⟨⟨[], rfl, rfl, rfl, fun total ht => (by cases ht; exact ⟨rfl, rfl⟩)⟩, rfl, by
    show min (max batchSize 1) kMaxBatchSize ≠ 0
    unfold kMaxBatchSize
    omega⟩

theorem Accounted.arrive (h : Accounted given s) (line : Line) (datagram : Datagram) :
    Accounted given (s.arrive line datagram) := by
  refine ⟨h.merged, fun l => ?_⟩
  obtain ⟨⟨read, harrived, hrest⟩, hpackets, hbatch⟩ := h.lines l
  refine ⟨⟨read, ?_, hrest⟩, hpackets, hbatch⟩
  unfold FeedLines.arrive
  dsimp only
  rcases eq_or_ne l line with rfl | hl
  · rw [update_self, update_self, harrived, List.append_assoc]
  · rw [update_of_ne hl, update_of_ne hl]
    exact harrived

theorem Accounted.next (h : Accounted given s) (outcome : Line → RecvOutcome)
    (ticks : Line → UInt64) : ∃ given', Accounted given' (s.next outcome ticks).2 := by
  have hgives := next_gives s.receiver outcome ticks s.queue
  unfold FeedLines.next
  dsimp only
  generalize s.receiver.next outcome ticks s.queue = out at hgives ⊢
  cases hgives with
  | nothing r' queue' hmoves hpackets hidle =>
    refine ⟨given, by simpa using h.merged, fun l => ?_⟩
    dsimp only
    rw [hpackets]
    exact (h.lines l).quiet (hmoves l)
  | packet line packet r' queue' hmoves hpackets =>
    refine ⟨update given line (given line ++ [packet.data]), ?_, fun l => ?_⟩
    · rw [Option.toList_some, List.map_append]
      exact h.merged.snoc line packet.data
    · have hl := hmoves l
      dsimp only
      rw [hpackets]
      rcases eq_or_ne l line with rfl | hne
      · rw [if_pos rfl] at hl
        rw [update_self, update_self]
        exact (h.lines l).moves hl
      · rw [if_neg hne] at hl
        rw [update_of_ne hne, update_of_ne hne]
        exact (h.lines l).quiet hl

theorem Accounted.run (h : Accounted given s) (events : List LineEvent) :
    ∃ given', Accounted given' (s.run events) := by
  induction events generalizing s given with
  | nil => exact ⟨given, h⟩
  | cons event events ih =>
    cases event with
    | arrive line datagram => exact ih (h.arrive line datagram)
    | next outcome ticks =>
      obtain ⟨given', h'⟩ := h.next outcome ticks
      exact ih h'

/-- Nothing is dropped where all that came in fits. -/
theorem Accounts.of_fits {own : List (List UInt8)} {arrived queue : List Datagram}
    {r : UdpBatchReceiver} {packets : UInt64} (h : Accounts own arrived queue r packets)
    (hfits : ∀ datagram ∈ arrived, datagram.fits = true) :
    arrived.map (·.data) = own ++ r.waiting ++ queue.map (·.data) ∧ r.truncatedCount = 0 := by
  obtain ⟨read, rfl, haccepted, htruncated, -⟩ := h.read
  have hread : ∀ datagram ∈ read, datagram.fits = true :=
    fun d hd => hfits d (List.mem_append_left _ hd)
  rw [accepted_of_fits hread] at haccepted
  rw [dropped_of_fits hread] at htruncated
  exact ⟨by rw [List.map_append, haccepted], htruncated⟩

/-- What was given out came in. -/
theorem Accounted.mem_arrived (h : Accounted given s) {p : PacketView} (hp : p ∈ s.taken) :
    ∃ line, ∃ datagram ∈ s.arrived line, datagram.data = p.data := by
  obtain ⟨line, hline⟩ := h.merged.exists_lane (List.mem_map_of_mem hp)
  obtain ⟨read, harrived, haccepted, -⟩ := (h.lines line).read
  have hmem : p.data ∈ accepted read := by
    rw [haccepted]
    exact List.mem_append_left _ hline
  obtain ⟨datagram, hread, heq⟩ := List.mem_map.1 hmem
  refine ⟨line, datagram, ?_, heq⟩
  rw [harrived]
  exact List.mem_append_left _ (List.mem_of_mem_filter hread)

/-! ## Progress -/

/-- How many datagrams came in on the line and wait. -/
def owedOn (s : FeedLines) (line : Line) : ℕ :=
  (s.receiver.receiver line).waiting.length + (s.queue line).length

def owed (s : FeedLines) : ℕ := s.owedOn .a + s.owedOn .b

theorem length_moves {r r' : UdpBatchReceiver} {queue queue' : List Datagram}
    {out : Option PacketView} (h : Moves r queue out r' queue')
    (hfits : ∀ datagram ∈ queue, datagram.fits = true) :
    r.waiting.length + queue.length
      = out.toList.length + (r'.waiting.length + queue'.length) := by
  obtain ⟨got, rfl, hread⟩ := h
  have hgiven := congrArg List.length hread.given
  rw [accepted_of_fits fun d hd => hfits d (List.mem_append_left _ hd)] at hgiven
  simp only [List.length_append, List.length_map] at hgiven ⊢
  omega

/-- A poll for what the lines have gives out a packet where one waits. -/
theorem Accounted.owed_next {outcome : Line → RecvOutcome} {ticks : Line → UInt64}
    (h : Accounted given s) (hattends : ∀ line, (outcome line).Attends)
    (hfits : ∀ line, ∀ datagram ∈ s.queue line, datagram.fits = true) :
    (s.next outcome ticks).2.owed = s.owed - 1 := by
  have hgives := next_gives s.receiver outcome ticks s.queue
  unfold FeedLines.next
  dsimp only
  generalize s.receiver.next outcome ticks s.queue = out at hgives ⊢
  cases hgives with
  | nothing r' queue' hmoves hpackets hidle =>
    have hleft : ∀ l, s.owedOn l = 0
        ∧ (r'.receiver l).waiting.length + (queue' l).length = 0 := fun l => by
      obtain ⟨hwaiting, hqueue⟩ := hidle l ⟨hattends l, (h.lines l).batch, hfits l⟩
      have hl := length_moves (hmoves l) (hfits l)
      rw [Option.toList_none, List.length_nil, Nat.zero_add] at hl
      refine ⟨?_, hl.symm.trans ?_⟩ <;> simp [owedOn, hwaiting, hqueue]
    rw [show s.owed = s.owedOn .a + s.owedOn .b from rfl, (hleft .a).1, (hleft .b).1]
    exact Nat.add_eq_zero_iff.2 ⟨(hleft .a).2, (hleft .b).2⟩
  | packet line packet r' queue' hmoves hpackets =>
    have ha := length_moves (hmoves .a) (hfits .a)
    have hb := length_moves (hmoves .b) (hfits .b)
    unfold owed owedOn
    cases line
    · simp at ha hb ⊢
      omega
    · simp at ha hb ⊢
      omega

/-- What was given out is an interleaving of the lines, and what was read from a line and fits a
buffer was given out in its order or waits; the rest of what was read is in the count of what was
cut off. Where the kernel counts its drops, and fewer than 2³² between two datagrams, the receiver
has its count. -/
theorem lines_account (batchSize : ℕ) (events : List LineEvent) :
    let s := (create batchSize).run events
    ∃ given, Interleaves given (s.taken.map (·.data)) ∧ ∀ line,
      let r := s.receiver.receiver line
      s.receiver.packets line = UInt64.ofNat (given line).length
        ∧ ∃ read, s.arrived line = read ++ s.queue line
          ∧ (read.filter (·.fits)).map (·.data) = given line ++ r.waiting
          ∧ r.truncatedCount = UInt64.ofNat (read.countP (!·.fits))
          ∧ ∀ total, Tallies 0 read total → r.kernelDropCount = UInt64.ofNat total := by
  intro s
  obtain ⟨given, h⟩ := (accounted_create batchSize).run events
  refine ⟨given, h.merged, fun line => ⟨(h.lines line).packets, ?_⟩⟩
  obtain ⟨read, harrived, haccepted, htruncated, hcounted⟩ := (h.lines line).read
  exact ⟨read, harrived, haccepted, htruncated, fun total ht => (hcounted total ht).all⟩

end FeedLines

end AstraFeed
