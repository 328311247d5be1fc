import AstraFeed.PremarketScan
import AstraFeed.Proofs.SourceRoundTrip

/-!
# The scan and the source

The source cuts the messages of a file greedily, and the scan keeps the number and the size of the
packet that each message is cut into. So the window that the scan finds counts the packets of the
source.
-/

namespace AstraFeed

open MoldUdpPacketHeader Wire BigEndian ItchParser

/-! ## How the source cuts -/

namespace ItchMoldUdpSource

variable {file : BinaryFile} {policy : CompletionPolicy} {session : List UInt8}
  {taken : List (List UInt8)} {s : ItchMoldUdpSource}

theorem nexts_of_eof (heof : s.eof = true) (ticks : List UInt64) : s.nexts ticks = ([], s) := by
  induction ticks with
  | nil => rfl
  | cons t ticks ih =>
    have hnext : s.next t = (none, s) := if_pos heof
    rw [nexts, hnext]
    dsimp only
    rw [ih]
    rfl

/-- The message that a cut goes on with is the next of the file. -/
theorem head_framed {bytes input : List UInt8} {chunks : List (List (List UInt8))}
    {chunk : List (List UInt8)} {msg : List UInt8} (hbytes : bytes = taken.flatMap framed ++ input)
    (h : BeginsWith bytes (taken ++ chunks.flatten)) (hchunk : chunk ∈ chunks.head?)
    (hmsg : msg ∈ chunk.head?) : msg.length < 2 ^ 16 ∧ ∃ rest, input = framed msg ++ rest := by
  obtain ⟨later, rfl⟩ : ∃ later, chunks = chunk :: later := by
    cases chunks with
    | nil => cases hchunk
    | cons _ later => exact ⟨later, by rw [Option.some.inj hchunk]⟩
  obtain ⟨more, rfl⟩ : ∃ more, chunk = msg :: more := by
    cases chunk with
    | nil => cases hmsg
    | cons _ more => exact ⟨more, by rw [Option.some.inj hmsg]⟩
  obtain ⟨hrecords, rest, hrest⟩ := h
  refine ⟨(hrecords.each msg (by simp)).length_lt, (more ++ later.flatten).flatMap framed ++ rest, ?_⟩
  rw [hbytes, List.flatMap_append, List.append_assoc] at hrest
  have hinput := List.append_cancel_left hrest
  rw [List.flatten_cons, List.cons_append, List.flatMap_cons, List.append_assoc] at hinput
  exact hinput.symm

/-- The packets are a greedy cut of what they carry, which the file goes on with. -/
theorem nexts_spec (h : At file policy session taken s) (hsession : session.length = kSessionSize)
    (ticks : List UInt64) :
    Greedy.IsCut (ClosedTo s.msgsPerPacket) ((s.nexts ticks).1.map PacketView.messages)
      ∧ BeginsWith file.bytes (taken ++ ((s.nexts ticks).1.map PacketView.messages).flatten) := by
  have hnone : BeginsWith file.bytes (taken ++ ([] : List (List (List UInt8))).flatten) := by
    rw [List.flatten_nil, List.append_nil]
    exact h.beginsWith
  induction ticks generalizing s taken with
  | nil => exact ⟨trivial, hnone⟩
  | cons t ticks ih =>
    rw [nexts]
    dsimp only
    rcases next_spec h hsession t with
      ⟨s', hnext, hdone⟩ | ⟨p, s', msgs, hnext, hp, -, hcut, hat | hdone⟩
    · rw [hnext, nexts_of_eof hdone.eof]
      exact ⟨trivial, hnone⟩
    · rw [hnext]
      obtain ⟨hlater, hbegins⟩ := ih hat (by simpa using hat.beginsWith)
      rw [hcut.limit hat.eof] at hlater
      dsimp only
      rw [Option.toList_some, List.singleton_append, List.map_cons, List.flatten_cons, hp.messages,
        ← List.append_assoc]
      refine ⟨⟨hp.nonempty, hcut.chunk, fun chunk hchunk msg hmsg => ?_, hlater⟩, hbegins⟩
      obtain ⟨hlen, rest, hrest⟩ := head_framed hat.input hbegins hchunk hmsg
      exact hcut.closed hat.eof msg rest hrest hlen
    · rw [hnext, nexts_of_eof hdone.eof]
      dsimp only
      rw [List.append_nil, Option.toList_some, List.map_singleton, List.flatten_singleton,
        hp.messages]
      exact ⟨⟨hp.nonempty, hcut.chunk, fun _ h => (Option.not_mem_none _ h).elim, trivial⟩,
        hdone.longest.1⟩

end ItchMoldUdpSource

/-! ## What the scan keeps -/

namespace PremarketScan

open ItchMoldUdpSource

variable {n : UInt16} {st : PremarketScan} {p : ℕ × List (List UInt8)} {msg rest : List UInt8}
  {msgs : List (List UInt8)}

/-- The scan with the message counted in its packet. -/
def pack (n : UInt16) (st : PremarketScan) (msg : List UInt8) : PremarketScan :=
  (st.startPacket n msg.length).countMessage msg.length

/-- The scan after a message that does not end it. -/
def advance (n : UInt16) (st : PremarketScan) (msg : List UInt8) : PremarketScan :=
  if IsEvent msg 'S' then (pack n st msg).recordStart msg else pack n st msg

theorem pack_window (n : UInt16) (st : PremarketScan) (msg : List UInt8) :
    (pack n st msg).window = st.window := by
  unfold pack startPacket
  split_ifs <;> rfl

/-- A start is where the window begins, whatever it was before. -/
theorem advance_start (hS : IsEvent msg 'S') :
    (advance n st msg).window.ssPacket = (advance n st msg).packetIndex
      ∧ (advance n st msg).window.ssTimestampNs = timestampNs msg := by
  rw [advance, if_pos hS]
  exact ⟨rfl, rfl⟩

theorem foldl_advance_window (st : PremarketScan) (hS : ∀ msg ∈ msgs, ¬ IsEvent msg 'S') :
    (msgs.foldl (advance n) st).window = st.window := by
  induction msgs generalizing st with
  | nil => rfl
  | cons msg msgs ih =>
    rw [List.foldl_cons, ih _ fun m hm => hS m (List.mem_cons_of_mem _ hm), advance,
      if_neg (hS msg List.mem_cons_self), pack_window]

theorem not_isEvent_Q (h : IsEvent msg 'S') : ¬ IsEvent msg 'Q' := by
  intro hq
  have := h.2.symm.trans hq.2
  revert this
  decide

/-! ## One message -/

/-- What the scan does with the next message. -/
theorem scan_framed (hpos : 0 < msg.length) (hlen : msg.length < 2 ^ 16) :
    scan n (framed msg ++ rest) st
      = if IsEvent msg 'S' then scan n rest ((pack n st msg).recordStart msg)
        else if IsEvent msg 'Q' ∧ st.window.ssPacket ≠ 0 then (pack n st msg).windowAt msg
        else scan n rest (pack n st msg) := by
  obtain ⟨hread, hdrop⟩ : (readU16BE ((framed msg ++ rest).take 2) 0).toNat = msg.length
      ∧ (framed msg ++ rest).drop 2 = msg ++ rest := read_framed hlen
  have htwo : ((framed msg ++ rest).take 2).length = 2 := by
    rw [List.length_take, List.length_append, length_framed]
    omega
  rw [scan]
  dsimp only
  rw [if_neg (not_not.2 htwo), hread, hdrop, if_neg hpos.ne', List.take_left' rfl,
    if_neg (not_not.2 rfl), List.drop_left' rfl]
  rw [← pack_window n st msg]
  rfl

theorem scan_advance (hpos : 0 < msg.length) (hlen : msg.length < 2 ^ 16)
    (hQ : ¬ IsEvent msg 'Q') :
    scan n (framed msg ++ rest) st = scan n rest (advance n st msg) := by
  rw [scan_framed hpos hlen, advance]
  split_ifs with hS hq
  · rfl
  · exact absurd hq.1 hQ
  · rfl

/-- The scan goes through messages before the end of the window. -/
theorem scan_flatMap (hmsgs : ∀ msg ∈ msgs, IsRecord msg) (hQ : ∀ msg ∈ msgs, ¬ IsEvent msg 'Q') :
    scan n (msgs.flatMap framed ++ rest) st = scan n rest (msgs.foldl (advance n) st) := by
  induction msgs generalizing st with
  | nil => rfl
  | cons msg msgs ih =>
    have hrecord := hmsgs msg List.mem_cons_self
    have hbounds := hrecord.sized.length_bounds
    rw [List.flatMap_cons, List.append_assoc, scan_advance (by omega) hrecord.length_lt
      (hQ msg List.mem_cons_self), ih (fun m hm => hmsgs m (List.mem_cons_of_mem _ hm))
        fun m hm => hQ m (List.mem_cons_of_mem _ hm)]
    rfl

/-! ## The packet that is counted -/

/-- The scan is in the packet of a number, with these messages in it. -/
structure Counted (n : UInt16) (st : PremarketScan) (p : ℕ × List (List UInt8)) : Prop where
  packetIndex : st.packetIndex.toNat = p.1
  packetCount : st.packetCount.toNat = p.2.length
  packetOffset : st.packetOffset = kMoldHeaderSize + (p.2.flatMap framed).length
  count_le : p.2.length ≤ n.toNat

/-- A packet that ends with a timing boundary is left. -/
structure Synced (n : UInt16) (st : PremarketScan) (p : ℕ × List (List UInt8)) : Prop
    extends Counted n st p where
  forceNextPacket : st.forceNextPacket = true
    ↔ ∃ last ∈ p.2.getLast?, isReplayTimingBoundary last = true

theorem synced_init (n : UInt16) : Synced n {} (1, []) :=
  ⟨⟨rfl, rfl, rfl, Nat.zero_le _⟩, by simp⟩

/-- The scan starts a packet where the source does. -/
theorem Synced.closedTo_iff (h : Synced n st p) :
    ClosedTo n p.2 msg ↔ (st.forceNextPacket = true ∨ st.packetCount = n
      ∨ kMaxPacketBytes < st.packetOffset + 2 + msg.length) := by
  rw [ClosedTo, h.forceNextPacket, ← h.packetCount, UInt16.toNat_inj, h.packetOffset]

theorem not_closedTo_nil (hn : n ≠ 0) (hmsg : IsRecord msg) : ¬ ClosedTo n [] msg := by
  have hbounds := hmsg.sized.length_bounds
  rintro (⟨last, hlast, -⟩ | hcount | hsize)
  · cases hlast
  · exact hn (UInt16.toNat_inj.1 hcount.symm)
  · have : kMaxPacketBytes = 1472 := rfl
    have : kMoldHeaderSize = 20 := rfl
    rw [List.flatMap_nil, List.length_nil] at hsize
    omega

theorem Synced.pack (h : Synced n st p) (hn : n ≠ 0) (hmsg : IsRecord msg)
    (hk : p.1 + 1 < 2 ^ 64) :
    Counted n (pack n st msg) (Greedy.place (ClosedTo n) p msg)
      ∧ (PremarketScan.pack n st msg).forceNextPacket = false := by
  obtain ⟨k, cur⟩ := p
  have hone : 1 ≤ n.toNat := Nat.one_le_iff_ne_zero.2 fun h0 => hn (UInt16.toNat_inj.1 h0)
  unfold PremarketScan.pack startPacket
  by_cases hc : ClosedTo n cur msg
  · have hne : cur ≠ [] := by
      rintro rfl
      exact not_closedTo_nil hn hmsg hc
    rw [if_pos (h.closedTo_iff.1 hc), Greedy.place_closed hne hc]
    refine ⟨⟨?_, rfl, ?_, hone⟩, rfl⟩
    · show (st.packetIndex + 1).toNat = k + 1
      rw [UInt64.toNat_add, h.packetIndex, Nat.mod_eq_of_lt (by exact hk)]
      rfl
    · rw [List.flatMap_singleton, length_framed]
      show kMoldHeaderSize + (2 + msg.length) = _
      omega
  · have hopen := h.closedTo_iff.not.1 hc
    rw [if_neg hopen, Greedy.place_open fun _ => hc]
    have hroom : cur.length ≠ n.toNat := fun hfull => hc (.inr (.inl hfull))
    have hle := h.count_le
    have hlt := n.toNat_lt
    have hcount := h.packetCount
    have hoffset := h.packetOffset
    dsimp only at hle hcount hoffset
    refine ⟨⟨h.packetIndex, ?_, ?_, ?_⟩, ?_⟩
    · show (st.packetCount + 1).toNat = _
      rw [UInt16.toNat_add, show (1 : UInt16).toNat = 1 from rfl, hcount, List.length_append,
        List.length_singleton]
      exact Nat.mod_eq_of_lt (by omega)
    · show st.packetOffset + (2 + msg.length) = _
      rw [hoffset, List.flatMap_append, List.flatMap_singleton, List.length_append, length_framed]
      omega
    · rw [List.length_append, List.length_singleton]
      omega
    · show st.forceNextPacket = false
      rw [not_or] at hopen
      simpa using hopen.1

theorem Synced.advance (h : Synced n st p) (hn : n ≠ 0) (hmsg : IsRecord msg)
    (hk : p.1 + 1 < 2 ^ 64) (hQ : ¬ IsEvent msg 'Q') :
    Synced n (advance n st msg) (Greedy.place (ClosedTo n) p msg) := by
  obtain ⟨hcounted, hforce⟩ := h.pack hn hmsg hk
  unfold PremarketScan.advance
  by_cases hS : IsEvent msg 'S'
  · rw [if_pos hS]
    refine ⟨⟨hcounted.packetIndex, hcounted.packetCount, hcounted.packetOffset, hcounted.count_le⟩,
      iff_of_true rfl ⟨msg, Greedy.getLast?_place p msg, ?_⟩⟩
    exact decide_eq_true (.inl hS)
  · rw [if_neg hS]
    refine ⟨hcounted, iff_of_false (by simp [hforce]) ?_⟩
    rintro ⟨last, hlast, hb⟩
    rw [Greedy.getLast?_place] at hlast
    obtain rfl := Option.some.inj hlast
    rcases of_decide_eq_true hb with h | h
    · exact hS h
    · exact hQ h

/-- The scan and the source are in the same packet, after each message. -/
theorem Synced.foldl_advance (h : Synced n st p) (hn : n ≠ 0) (hmsgs : ∀ msg ∈ msgs, IsRecord msg)
    (hk : p.1 + msgs.length < 2 ^ 64) (hQ : ∀ msg ∈ msgs, ¬ IsEvent msg 'Q') :
    Synced n (msgs.foldl (PremarketScan.advance n) st)
      (msgs.foldl (Greedy.place (ClosedTo n)) p) := by
  induction msgs generalizing st p with
  | nil => exact h
  | cons msg msgs ih =>
    rw [List.length_cons] at hk
    have hplace : (Greedy.place (ClosedTo n) p msg).1 ≤ p.1 + 1 := Greedy.place_le p msg
    refine ih (h.advance hn (hmsgs msg List.mem_cons_self) (by omega)
      (hQ msg List.mem_cons_self)) (fun m hm => hmsgs m (List.mem_cons_of_mem _ hm)) (by omega)
      fun m hm => hQ m (List.mem_cons_of_mem _ hm)

/-! ## The window -/

theorem timestampNs_eq (h : IsRecord msg) : timestampNs msg = readU48BE msg kTimestampOffset := by
  have hbounds := h.sized.length_bounds
  exact if_pos (by omega)

/-- The scan from a start on, to the first end. -/
theorem scan_end {mid : List (List UInt8)} {q : List UInt8} (rest : List UInt8) (h : Synced n st p) (hn : n ≠ 0)
    (hstart : st.window.ssPacket ≠ 0) (hmid : ∀ msg ∈ mid, IsRecord msg) (hrecord : IsRecord q)
    (hlen : p.1 + mid.length + 1 < 2 ^ 64) (hS : ∀ msg ∈ mid, ¬ IsEvent msg 'S')
    (hQ : ∀ msg ∈ mid, ¬ IsEvent msg 'Q') (hq : IsEvent q 'Q') :
    ∃ sq : UInt64, sq.toNat = ((mid ++ [q]).foldl (Greedy.place (ClosedTo n)) p).1
      ∧ scan n ((mid ++ [q]).flatMap framed ++ rest) st = { st.window with
        sqPacket := sq
        sqTimestampNs := timestampNs q
        found := true } := by
  have hbounds := hrecord.sized.length_bounds
  have hplaced : (mid.foldl (Greedy.place (ClosedTo n)) p).1 ≤ p.1 + mid.length :=
    Greedy.foldl_place_le p mid
  have hsync := h.foldl_advance hn hmid (by omega) hQ
  have hwindow : (mid.foldl (advance n) st).window = st.window := foldl_advance_window st hS
  rw [List.flatMap_append, List.flatMap_singleton, List.append_assoc, scan_flatMap hmid hQ,
    List.foldl_append]
  generalize mid.foldl (advance n) st = last at hsync hwindow ⊢
  obtain ⟨hcounted, -⟩ := hsync.pack hn hrecord (by omega)
  refine ⟨(pack n last q).packetIndex, hcounted.packetIndex, ?_⟩
  rw [scan_framed (by omega) hrecord.length_lt, if_neg fun hs => not_isEvent_Q hs hq,
    if_pos ⟨hq, by rwa [hwindow]⟩, windowAt, pack_window, hwindow]

/-- The window from the last start before the first end. -/
theorem scan_window {before mid : List (List UInt8)} {s q : List UInt8} (rest : List UInt8) (hn : n ≠ 0)
    (hmsgs : ∀ msg ∈ (before ++ [s]) ++ (mid ++ [q]), IsRecord msg)
    (hlen : ((before ++ [s]) ++ (mid ++ [q])).length + 1 < 2 ^ 64) (hs : IsEvent s 'S')
    (hq : IsEvent q 'Q') (hbefore : ∀ msg ∈ before, ¬ IsEvent msg 'Q')
    (hmid : ∀ msg ∈ mid, ¬ IsEvent msg 'S' ∧ ¬ IsEvent msg 'Q') :
    let w := scan n (((before ++ [s]) ++ (mid ++ [q])).flatMap framed ++ rest) {}
    let placed := fun msgs : List (List UInt8) =>
      (msgs.foldl (Greedy.place (ClosedTo n)) (1, [])).1
    w.found = true ∧ w.ssPacket.toNat = placed (before ++ [s])
      ∧ w.sqPacket.toNat = placed ((before ++ [s]) ++ (mid ++ [q]))
      ∧ w.ssTimestampNs = readU48BE s kTimestampOffset
      ∧ w.sqTimestampNs = readU48BE q kTimestampOffset := by
  have hwindow : ((before ++ [s]).foldl (advance n) {}).window.ssPacket
        = ((before ++ [s]).foldl (advance n) {}).packetIndex
      ∧ ((before ++ [s]).foldl (advance n) {}).window.ssTimestampNs = timestampNs s := by
    rw [List.foldl_append]
    exact advance_start hs
  have hfirst : ∀ msg ∈ before ++ [s], IsRecord msg := fun m hm =>
    hmsgs m (List.mem_append_left _ hm)
  have hnoQ : ∀ msg ∈ before ++ [s], ¬ IsEvent msg 'Q' := by
    intro msg hmsg
    rcases List.mem_append.1 hmsg with hmsg | hmsg
    · exact hbefore msg hmsg
    · rw [List.mem_singleton.1 hmsg]
      exact not_isEvent_Q hs
  have hss := timestampNs_eq (hfirst s (by simp))
  generalize before ++ [s] = start at *
  rw [List.length_append, List.length_append, List.length_singleton] at hlen
  have hplaced : (start.foldl (Greedy.place (ClosedTo n)) (1, [])).1 ≤ 1 + start.length :=
    Greedy.foldl_place_le (1, []) start
  have hpos : 1 ≤ (start.foldl (Greedy.place (ClosedTo n)) (1, [])).1 :=
    Greedy.le_foldl_place (1, []) start
  have hsync := (synced_init n).foldl_advance hn hfirst (by dsimp only; omega) hnoQ
  have hindex := hsync.packetIndex
  have hne : (start.foldl (advance n) {}).window.ssPacket ≠ 0 := by
    rw [hwindow.1]
    intro h0
    rw [h0] at hindex
    exact absurd (hpos.trans_eq hindex.symm) (by decide)
  have hrecord : IsRecord q := hmsgs q (by simp)
  obtain ⟨sq, hsq, hscan⟩ := scan_end rest hsync hn hne (fun m hm => hmsgs m (by simp [hm]))
    hrecord (by omega) (fun m hm => (hmid m hm).1) (fun m hm => (hmid m hm).2) hq
  intro w placed
  have hw : w = { (start.foldl (advance n) {}).window with
      sqPacket := sq
      sqTimestampNs := timestampNs q
      found := true } := by
    rw [← hscan, ← scan_flatMap hfirst hnoQ, ← List.append_assoc, ← List.flatMap_append]
  rw [hw]
  refine ⟨rfl, ?_, ?_, hwindow.2.trans hss, timestampNs_eq hrecord⟩
  · rw [hwindow.1, hindex]
  · rw [hsq, ← List.foldl_append]

end PremarketScan

/-! ## The packets of the window -/

theorem PremarketWindow.packetsToPace_toNat {w : PremarketWindow} (h : w.found = true) :
    w.packetsToPace.toNat = w.sqPacket.toNat - w.ssPacket.toNat := by
  unfold PremarketWindow.packetsToPace
  split_ifs with hle
  · have := UInt64.le_iff_toNat_le.1 (hle.resolve_left (by simp [h]))
    exact (Nat.sub_eq_zero_of_le this).symm
  · rw [not_or, UInt64.not_le] at hle
    exact UInt64.toNat_sub_of_le _ _ (UInt64.le_of_lt hle.2)

theorem packetOf_le {packets : List PacketView} {i : ℕ}
    (hi : i < (packets.flatMap PacketView.messages).length) : packetOf packets i ≤ packets.length := by
  rw [List.flatMap_def] at hi
  have := Greedy.chunkOf_le hi
  rwa [List.length_map] at this

/-- Where an element is placed is the packet it is in. -/
theorem place_packetOf {packets : List PacketView} {n : UInt16} {start more : List (List UInt8)}
    {i : ℕ} (h : Greedy.IsCut (ClosedTo n) (packets.map PacketView.messages))
    (hstart : packets.flatMap PacketView.messages = start ++ more) (hi : start.length = i + 1) :
    (start.foldl (Greedy.place (ClosedTo n)) (1, [])).1 = packetOf packets i := by
  rw [List.flatMap_def] at hstart
  rw [packetOf, ← h.place_eq (by rw [hstart, List.length_append]; omega), hstart,
    List.take_left' hi]

namespace ItchMoldUdpSource

/-- A source that sends anything was created for packets of some messages. -/
theorem at_of_nexts_ne_nil {file : BinaryFile} {session : List UInt8} {n : UInt16}
    {policy : CompletionPolicy} {ticks : List UInt64}
    (h : ((create file session n policy).nexts ticks).1 ≠ []) :
    n ≠ 0 ∧ At file policy (resizeSession session) [] (create file session n policy) := by
  by_cases hsession : session.length ≤ kSessionSize
  · by_cases hn : n = 0
    · refine absurd ?_ h
      rw [nexts_of_eof]
      rw [create, if_neg (Nat.not_lt.2 hsession), if_pos hn]
      rfl
    · exact ⟨hn, at_create file policy hsession hn⟩
  · refine absurd ?_ h
    rw [nexts_of_eof]
    rw [create, if_pos (Nat.lt_of_not_le hsession)]
    rfl

/-- The scan predicts the packets of the source: where the source sends the last start of a window
before the first end, the scan finds the two and the numbers of their packets. -/
theorem premarket_scan_predicts (file : BinaryFile) (session : List UInt8) (n : UInt16)
    (policy : CompletionPolicy) (ticks : List UInt64) (before mid after : List (List UInt8))
    (s q : List UInt8)
    (hmsgs : ((create file session n policy).nexts ticks).1.flatMap PacketView.messages
      = before ++ s :: (mid ++ q :: after))
    (hs : IsEvent s 'S') (hq : IsEvent q 'Q') (hbefore : ∀ msg ∈ before, ¬ IsEvent msg 'Q')
    (hmid : ∀ msg ∈ mid, ¬ IsEvent msg 'S' ∧ ¬ IsEvent msg 'Q') :
    let packets := ((create file session n policy).nexts ticks).1
    let ss := packetOf packets before.length
    let sq := packetOf packets (before.length + 1 + mid.length)
    let w := scanPremarketWindow file n
    w.found = true ∧ w.ssPacket.toNat = ss ∧ w.sqPacket.toNat = sq
      ∧ w.ssTimestampNs = readU48BE s kTimestampOffset
      ∧ w.sqTimestampNs = readU48BE q kTimestampOffset
      ∧ w.packetsToPace.toNat = ((packets.take sq).drop ss).length := by
  intro packets ss sq w
  change packets.flatMap PacketView.messages = _ at hmsgs
  have hsplit : before ++ s :: (mid ++ q :: after)
      = ((before ++ [s]) ++ (mid ++ [q])) ++ after := by simp
  have hne : packets ≠ [] := by
    intro hnil
    rw [hnil] at hmsgs
    exact absurd hmsgs.symm (by simp)
  obtain ⟨hn, hat⟩ := at_of_nexts_ne_nil hne
  have hlimit : (create file session n policy).msgsPerPacket = n := by
    unfold create
    split_ifs <;> rfl
  obtain ⟨hcut, hrecords, rest, hrest⟩ := nexts_spec hat (length_resizeSession session) ticks
  rw [hlimit] at hcut
  change Greedy.IsCut _ (packets.map PacketView.messages) at hcut
  change Records ([] ++ (packets.map PacketView.messages).flatten) at hrecords
  change ([] ++ (packets.map PacketView.messages).flatten).flatMap framed ++ rest = _ at hrest
  rw [List.nil_append, ← List.flatMap_def, hmsgs] at hrecords hrest
  rw [hsplit] at hmsgs hrecords hrest
  -- the messages fit in a file
  have hfile := file.size_lt
  have hlen := length_flatMap_framed hrecords.each
  rw [← hrest, List.length_append] at hfile
  rw [List.length_append] at hlen
  have hwindow := PremarketScan.scan_window (after.flatMap framed ++ rest) hn
    (fun m hm => hrecords.each m (List.mem_append_left _ hm)) (by omega) hs hq hbefore hmid
  rw [← List.append_assoc, ← List.flatMap_append, hrest] at hwindow
  obtain ⟨hfound, hss, hsq, hssTime, hsqTime⟩ := hwindow
  -- where the source has placed the two
  have hss' : w.ssPacket.toNat = ss :=
    hss.trans (place_packetOf hcut (hmsgs.trans (List.append_assoc _ _ _)) (by simp))
  have hsq' : w.sqPacket.toNat = sq :=
    hsq.trans (place_packetOf hcut hmsgs (by simp; omega))
  have hle : sq ≤ packets.length := packetOf_le (by rw [hmsgs]; simp; omega)
  refine ⟨hfound, hss', hsq', hssTime, hsqTime, ?_⟩
  rw [w.packetsToPace_toNat hfound, hss', hsq', List.length_drop, List.length_take,
    Nat.min_eq_left hle]

/-- A window with two messages in it. -/
def windowFile : BinaryFile where
  bytes := framed (systemEvent 'O') ++ framed (systemEvent 'S') ++ framed breakerStatus
    ++ framed breakerStatus ++ framed (systemEvent 'Q') ++ [0, 0]
  size_lt := by decide

theorem premarket_scan_predicts_window :
    ((create windowFile [] 2 .requireTerminator).nexts [0, 0, 0, 0]).1.flatMap PacketView.messages
        = [systemEvent 'O'] ++ systemEvent 'S'
          :: ([breakerStatus, breakerStatus] ++ systemEvent 'Q' :: [])
      ∧ (scanPremarketWindow windowFile 2).found = true
      ∧ (scanPremarketWindow windowFile 2).ssPacket.toNat = 1
      ∧ (scanPremarketWindow windowFile 2).sqPacket.toNat = 3
      ∧ (scanPremarketWindow windowFile 2).packetsToPace.toNat = 2 := by
  have hmsgs : ((create windowFile [] 2 .requireTerminator).nexts [0, 0, 0, 0]).1.flatMap
      PacketView.messages = [systemEvent 'O'] ++ systemEvent 'S'
        :: ([breakerStatus, breakerStatus] ++ systemEvent 'Q' :: []) := by decide +kernel
  obtain ⟨hfound, hss, hsq, -, -, hpace⟩ := premarket_scan_predicts windowFile [] 2
    .requireTerminator [0, 0, 0, 0] [systemEvent 'O'] [breakerStatus, breakerStatus] []
    (systemEvent 'S') (systemEvent 'Q') hmsgs (by decide) (by decide) (by decide) (by decide)
  refine ⟨hmsgs, hfound, hss.trans ?_, hsq.trans ?_, hpace.trans ?_⟩ <;> decide +kernel

end ItchMoldUdpSource

end AstraFeed
