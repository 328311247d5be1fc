import AstraFeed.Lib.GreedyCut
import AstraFeed.Proofs.Framing

/-!
# Reading a BinaryFILE

The source is at a point of the file: the records before it are those already sent, and the longest
the file begins with once the source stops (`At`, `Done`).
-/

namespace AstraFeed

open MoldUdpPacketHeader Wire BigEndian ItchParser

/-! ## Records -/

section Records

variable {msgs msgs' taken : List (List UInt8)} {msg : List UInt8} {file input rest : List UInt8}

/-- The last record is the end of messages. -/
def EndsInC (msgs : List (List UInt8)) : Prop :=
  ∃ before msg, msgs = before ++ [msg] ∧ IsEvent msg 'C'

theorem IsRecord.length_lt (h : IsRecord msg) : msg.length < 2 ^ 16 := by
  have := h.sized.length_bounds
  omega

theorem records_nil : Records [] := by
  refine ⟨fun _ h => (List.not_mem_nil h).elim, fun _ h => (Option.not_mem_none _ h).elim,
    fun before m after h _ => ?_⟩
  exact absurd h.symm (List.append_ne_nil_of_right_ne_nil _ (List.cons_ne_nil _ _))

theorem Records.of_isPrefix (h : Records msgs) (hp : taken <+: msgs) : Records taken := by
  obtain ⟨more, rfl⟩ := hp
  refine ⟨fun m hm => h.each m (List.mem_append_left _ hm), fun m hm => ?_,
    fun before m after heq hc => ?_⟩
  · cases taken with
    | nil => cases hm
    | cons x xs => exact h.first m hm
  · have hafter := h.last before m (after ++ more) (by rw [heq, List.append_assoc]; rfl) hc
    exact (List.append_eq_nil_iff.1 hafter).1

theorem records_concat (h : Records taken) (hm : IsRecord msg)
    (hfirst : taken = [] → IsEvent msg 'O') (hlast : ¬ EndsInC taken) :
    Records (taken ++ [msg]) := by
  refine ⟨fun m hmem => ?_, fun m hmem => ?_, fun before m after heq hc => ?_⟩
  · rcases List.mem_append.1 hmem with hmem | hmem
    · exact h.each m hmem
    · rwa [List.mem_singleton.1 hmem]
  · cases taken with
    | nil =>
      obtain rfl := Option.some.inj hmem
      exact hfirst rfl
    | cons x xs => exact h.first m hmem
  · rcases List.eq_nil_or_concat after with rfl | ⟨after, x, rfl⟩
    · rfl
    · exfalso
      rw [List.concat_eq_append, ← List.cons_append, ← List.append_assoc] at heq
      obtain ⟨rfl, -⟩ := List.append_inj' heq rfl
      have hnil := h.last before m after rfl hc
      exact hlast ⟨before, m, by rw [hnil], hc⟩

theorem not_endsInC_of_concat (h : Records (taken ++ [msg])) : ¬ EndsInC taken := by
  rintro ⟨before, m, rfl, hc⟩
  have := h.last before m [msg] (by rw [List.append_assoc]; rfl) hc
  cases this

/-- Framed messages have one reading: one of two readings begins with the other. -/
theorem prefix_or_prefix (hm : ∀ m ∈ msgs, m.length < 2 ^ 16) (hm' : ∀ m ∈ msgs', m.length < 2 ^ 16)
    {rest' : List UInt8} (h : msgs.flatMap framed ++ rest = msgs'.flatMap framed ++ rest') :
    msgs' <+: msgs ∨ ∃ m more, msgs' = msgs ++ m :: more
      ∧ rest = framed m ++ (more.flatMap framed ++ rest') := by
  induction msgs generalizing msgs' with
  | nil =>
    cases msgs' with
    | nil => exact .inl (List.nil_prefix)
    | cons m more =>
      refine .inr ⟨m, more, rfl, ?_⟩
      rw [List.flatMap_nil, List.nil_append, List.flatMap_cons, List.append_assoc] at h
      exact h
  | cons x xs ih =>
    cases msgs' with
    | nil => exact .inl (List.nil_prefix)
    | cons y ys =>
      rw [List.flatMap_cons, List.flatMap_cons, List.append_assoc, List.append_assoc] at h
      obtain ⟨rfl, hrest⟩ := framed_append_inj (hm x List.mem_cons_self)
        (hm' y List.mem_cons_self) h
      rcases ih (fun m hmem => hm m (List.mem_cons_of_mem _ hmem))
        (fun m hmem => hm' m (List.mem_cons_of_mem _ hmem)) hrest with hp | ⟨m, more, rfl, hmore⟩
      · exact .inl (List.cons_prefix_cons.2 ⟨rfl, hp⟩)
      · exact .inr ⟨m, more, rfl, hmore⟩

/-- Records that no record follows are the longest. -/
theorem isLongest_of_no_next (h : Records taken) (hfile : file = taken.flatMap framed ++ input)
    (hnext : ∀ msg rest, input = framed msg ++ rest → ¬ Records (taken ++ [msg])) :
    IsLongest file taken := by
  refine ⟨⟨h, input, hfile.symm⟩, fun msgs' hmsgs' => ?_⟩
  obtain ⟨hr', rest', hfile'⟩ := hmsgs'
  rw [hfile] at hfile'
  rcases prefix_or_prefix (fun m hm => (h.each m hm).length_lt)
    (fun m hm => (hr'.each m hm).length_lt) hfile'.symm with hp | ⟨m, more, rfl, hrest⟩
  · exact hp
  · refine absurd (hr'.of_isPrefix ⟨more, ?_⟩) (hnext m _ hrest)
    rw [List.append_assoc]
    rfl

/-- Whether a file is in the grammar is seen after its longest records. -/
theorem inGrammar_iff {policy : CompletionPolicy} (h : IsLongest file taken)
    (hfile : file = taken.flatMap framed ++ input) :
    InGrammar policy file ↔ EndsInC taken
      ∧ (input = [0, 0] ∨ policy = .allowEofAfterEndOfMessages ∧ input = []) := by
  constructor
  · rintro ⟨before, msg, hr, hc, hend⟩
    have hbegins : BeginsWith file (before ++ [msg]) := by
      refine ⟨hr, ?_⟩
      rcases hend with hend | ⟨-, hend⟩
      · exact ⟨[0, 0], hend.symm⟩
      · exact ⟨[], by rw [List.append_nil, hend]⟩
    -- nothing follows the end of messages
    have heq : taken = before ++ [msg] := by
      obtain ⟨more, hmore⟩ := h.2 _ hbegins
      have hnil := h.1.1.last before msg more (by rw [← hmore, List.append_assoc]; rfl) hc
      rw [← hmore, hnil, List.append_nil]
    refine ⟨⟨before, msg, heq, hc⟩, ?_⟩
    rw [hfile, ← heq] at hend
    rcases hend with hend | ⟨hpolicy, hend⟩
    · exact .inl (List.append_cancel_left hend)
    · refine .inr ⟨hpolicy, List.append_cancel_left (hend.trans (List.append_nil _).symm)⟩
  · rintro ⟨⟨before, msg, rfl, hc⟩, hend⟩
    refine ⟨before, msg, h.1.1, hc, ?_⟩
    rcases hend with hend | ⟨hpolicy, hend⟩
    · exact .inl (by rw [hfile, hend])
    · exact .inr ⟨hpolicy, by rw [hfile, hend, List.append_nil]⟩

end Records

/-! ## One round -/

namespace ItchMoldUdpSource

variable {s s' : ItchMoldUdpSource} {count : UInt16} {offset : ℕ}

/-- The source after a record. -/
def after (s : ItchMoldUdpSource) (msg rest : List UInt8) : ItchMoldUdpSource :=
  { s with
    input := rest
    sawMessage := true
    lastMessageWasEndOfMessages := IsEvent msg 'C'
    nextSeq := s.nextSeq + 1 }

/-- A record may follow. -/
structure Follows (s : ItchMoldUdpSource) (msg : List UInt8) : Prop where
  record : IsRecord msg
  first : s.sawMessage = false → IsEvent msg 'O'
  last : s.lastMessageWasEndOfMessages = false

/-- The source stops, since no record follows. -/
structure Stops (s s' : ItchMoldUdpSource) : Prop where
  eof : s'.eof = true
  completionPolicy : s'.completionPolicy = s.completionPolicy
  completed : s.completed = false → (s'.completed = true ↔ s.lastMessageWasEndOfMessages = true
    ∧ (s.input = [0, 0]
      ∨ s.completionPolicy = .allowEofAfterEndOfMessages ∧ s.input = []))
  no_next : ∀ msg rest, s.input = framed msg ++ rest → ¬ Follows s msg

theorem stops_fail {error : SourceError}
    (hend : ¬ (s.lastMessageWasEndOfMessages = true ∧ (s.input = [0, 0]
      ∨ s.completionPolicy = .allowEofAfterEndOfMessages ∧ s.input = [])))
    (hno : ∀ msg rest, s.input = framed msg ++ rest → ¬ Follows s msg) :
    Stops s (s.fail error) := by
  refine ⟨rfl, rfl, fun hc => iff_of_false (fun h => ?_) hend, hno⟩
  rw [show (s.fail error).completed = s.completed from rfl, hc] at h
  cases h

/-- What the bytes of a record are read as. -/
theorem read_framed {msg rest : List UInt8} (hm : msg.length < 2 ^ 16) :
    (readU16BE ((framed msg ++ rest).take 2) 0).toNat = msg.length
      ∧ (framed msg ++ rest).drop 2 = msg ++ rest := by
  have htake : (framed msg ++ rest).take 2 = [] ++ (toBytes 2 msg.length ++ []) := by
    rw [framed, List.append_assoc, List.append_nil, List.nil_append]
    exact List.take_left' (length_toBytes 2 _)
  constructor
  · rw [htake]
    exact readU16BE_append [] [] hm
  · rw [framed, List.append_assoc]
    exact List.drop_left' (length_toBytes 2 _)

/-- A payload that follows, or a failure where none does. -/
theorem readPayload_cases {rest : List UInt8} {msgLen : ℕ}
    (hin : s.input = toBytes 2 msgLen ++ rest) (hlast : s.lastMessageWasEndOfMessages = false)
    (hnext : ∀ msg rest', s.input = framed msg ++ rest' → Follows s msg →
      msg.length = msgLen ∧ rest = msg ++ rest') :
    (∃ msg rest', s.readPayload rest msgLen = .ok (msg, s.after msg rest')
      ∧ s.input = framed msg ++ rest' ∧ Follows s msg ∧ msg.length = msgLen)
    ∨ ∃ error, s.readPayload rest msgLen = .error (s.fail error)
      ∧ ∀ msg rest', s.input = framed msg ++ rest' → ¬ Follows s msg := by
  have htake : ∀ msg rest', s.input = framed msg ++ rest' → Follows s msg →
      rest.take msgLen = msg := by
    intro msg rest' hmsg hf
    obtain ⟨hlen, hrest⟩ := hnext msg rest' hmsg hf
    rw [hrest]
    exact List.take_left' hlen
  have hdrop := List.take_append_drop msgLen rest
  unfold readPayload
  dsimp only
  generalize rest.take msgLen = msg at htake hdrop ⊢
  by_cases h1 : msg.length = msgLen
  swap
  · rw [if_pos h1]
    refine .inr ⟨_, rfl, fun m r hm hf => h1 ?_⟩
    rw [htake m r hm hf]
    exact (hnext m r hm hf).1
  rw [if_neg (not_not.2 h1)]
  by_cases h2 : expectedItchMessageLength (byteAt msg 0) = 0
  · rw [if_pos h2]
    refine .inr ⟨_, rfl, fun m r hm hf => ?_⟩
    obtain rfl := htake m r hm hf
    have := hf.record.sized.length_bounds
    have := hf.record.sized.2
    omega
  rw [if_neg h2]
  by_cases h3 : msgLen = expectedItchMessageLength (byteAt msg 0)
  swap
  · rw [if_pos h3]
    refine .inr ⟨_, rfl, fun m r hm hf => h3 ?_⟩
    obtain rfl := htake m r hm hf
    rw [← h1]
    exact hf.record.sized.2
  rw [if_neg (not_not.2 h3)]
  by_cases h4 : byteAt msg 0 = byte 'S' ∧ (byteAt msg 1 ≠ 0 ∨ byteAt msg 2 ≠ 0)
  · rw [if_pos h4]
    refine .inr ⟨_, rfl, fun m r hm hf => ?_⟩
    obtain rfl := htake m r hm hf
    obtain ⟨hx, hy⟩ := hf.record.locate h4.1
    rcases h4.2 with h | h
    · exact h hx
    · exact h hy
  rw [if_neg h4]
  by_cases h5 : (!s.sawMessage) = true ∧ ¬ IsEvent msg 'O'
  · rw [if_pos h5]
    refine .inr ⟨_, rfl, fun m r hm hf => ?_⟩
    obtain rfl := htake m r hm hf
    exact h5.2 (hf.first (by simpa using h5.1))
  rw [if_neg h5]
  have hne : msg ≠ [] := by
    rintro rfl
    rw [List.length_nil] at h1
    exact h2 (h3.symm.trans h1.symm)
  refine .inl ⟨msg, rest.drop msgLen, rfl, ?_, ⟨⟨⟨hne, h1.trans h3⟩, fun hs => ?_⟩, fun hs => ?_,
    hlast⟩, h1⟩
  · rw [hin, framed, h1, List.append_assoc, hdrop]
  · rw [not_and_or, not_or, not_not, not_not] at h4
    exact h4.resolve_left fun h => h hs
  · by_contra hO
    exact h5 ⟨by simp [hs], hO⟩

/-- A round reads a record, leaves a record that does not fit for the next packet, or stops. -/
theorem readRecord_cases (hoff : count = 0 → offset = kMoldHeaderSize) :
    (∃ msg rest, s.readRecord count offset = .ok (msg, s.after msg rest)
      ∧ s.input = framed msg ++ rest ∧ Follows s msg
      ∧ offset + (framed msg).length ≤ kMaxPacketBytes)
    ∨ s.readRecord count offset = .error s ∧ count ≠ 0
    ∨ ∃ s', s.readRecord count offset = .error s' ∧ Stops s s' := by
  have hframe : ∀ msg rest, s.input = framed msg ++ rest → Follows s msg →
      (s.input.take 2).length = 2
        ∧ (readU16BE (s.input.take 2) 0).toNat = msg.length ∧ s.input.drop 2 = msg ++ rest := by
    intro msg rest hin hf
    rw [hin]
    have hlen : (framed msg ++ rest).length = msg.length + 2 + rest.length := by
      rw [List.length_append, length_framed]
    refine ⟨?_, read_framed hf.record.length_lt⟩
    rw [List.length_take, hlen]
    omega
  unfold readRecord
  dsimp only
  by_cases h0 : (s.input.take 2).length = 0
  · have hnil : s.input = [] := by
      rw [List.length_take] at h0
      exact List.length_eq_zero_iff.1 (by omega)
    have hno : ∀ msg rest, s.input = framed msg ++ rest → ¬ Follows s msg := by
      intro msg rest hin hf
      have := (hframe msg rest hin hf).1
      omega
    rw [if_pos h0]
    refine .inr (.inr ⟨_, rfl, ?_⟩)
    by_cases hend : s.completionPolicy = .allowEofAfterEndOfMessages
        ∧ s.lastMessageWasEndOfMessages = true
    · rw [if_pos hend]
      exact ⟨rfl, rfl, fun _ => iff_of_true rfl ⟨hend.2, .inr ⟨hend.1, hnil⟩⟩, hno⟩
    · rw [if_neg hend]
      refine stops_fail ?_ hno
      rintro ⟨hlast, hin | ⟨hpolicy, -⟩⟩
      · rw [hnil] at hin
        cases hin
      · exact hend ⟨hpolicy, hlast⟩
  rw [if_neg h0]
  have hne : s.input ≠ [] := by
    intro hnil
    rw [hnil] at h0
    exact h0 rfl
  by_cases h2 : (s.input.take 2).length = 2
  swap
  · rw [if_pos h2]
    refine .inr (.inr ⟨_, rfl, stops_fail ?_ fun msg rest hin hf => h2 (hframe msg rest hin hf).1⟩)
    rintro ⟨-, hin | ⟨-, hin⟩⟩
    · rw [hin] at h2
      exact h2 rfl
    · exact hne hin
  rw [if_neg (not_not.2 h2)]
  -- the two bytes are those of the length
  have hbytes : s.input.take 2 = toBytes 2 (readU16BE (s.input.take 2) 0).toNat := by
    have hpair : s.input.take 2
        = [byteAt (s.input.take 2) 0, byteAt (s.input.take 2) 1] := by
      obtain ⟨x, y, hxy⟩ := List.length_eq_two.1 h2
      rw [hxy]
      rfl
    rw [readU16BE_toNat]
    conv_lhs => rw [hpair]
    exact (toBytes_ofBytes _).symm
  have hsplit : s.input = s.input.take 2 ++ s.input.drop 2 := (List.take_append_drop 2 _).symm
  have hzero : s.input = [0, 0] → (readU16BE (s.input.take 2) 0).toNat = 0
      ∧ s.input.drop 2 = [] := by
    intro hin
    rw [hin]
    exact ⟨rfl, rfl⟩
  generalize (readU16BE (s.input.take 2) 0).toNat = msgLen at hbytes hframe hzero ⊢
  generalize s.input.drop 2 = rest at hsplit hframe hzero ⊢
  by_cases hlen : msgLen = 0
  · have hno : ∀ msg rest, s.input = framed msg ++ rest → ¬ Follows s msg := by
      intro msg rest' hin hf
      have hmsg := (hframe msg rest' hin hf).2.1
      have := hf.record.sized.length_bounds
      omega
    rw [if_pos hlen]
    refine .inr (.inr ⟨_, rfl, ?_⟩)
    by_cases hrest : rest = []
    swap
    · rw [if_pos hrest]
      refine stops_fail ?_ hno
      rintro ⟨-, hin | ⟨-, hin⟩⟩
      · exact hrest (hzero hin).2
      · exact hne hin
    rw [if_neg (not_not.2 hrest)]
    by_cases hlast : s.lastMessageWasEndOfMessages = true
    · have hin : s.input = [0, 0] := by
        rw [hsplit, hrest, List.append_nil, hbytes, hlen]
        rfl
      rw [if_neg (by simp [hlast])]
      exact ⟨rfl, rfl, fun _ => iff_of_true rfl ⟨hlast, .inl hin⟩, hno⟩
    · rw [if_pos (by simpa using hlast)]
      exact stops_fail (fun hend => hlast hend.1) hno
  rw [if_neg hlen]
  by_cases hlast : s.lastMessageWasEndOfMessages = true
  · rw [if_pos hlast]
    refine .inr (.inr ⟨_, rfl, stops_fail ?_ fun msg rest' hin hf => ?_⟩)
    · rintro ⟨-, hin | ⟨-, hin⟩⟩
      · exact hlen (hzero hin).1
      · exact hne hin
    · have := hf.last
      rw [hlast] at this
      cases this
  rw [if_neg hlast]
  have hend : ¬ (s.lastMessageWasEndOfMessages = true ∧ (s.input = [0, 0]
      ∨ s.completionPolicy = .allowEofAfterEndOfMessages ∧ s.input = [])) := fun hend => hlast hend.1
  rw [hbytes] at hsplit
  by_cases hlarge : kMaxPacketBytes < offset + 2 + msgLen
  · rw [if_pos hlarge]
    by_cases hcount : count = 0
    · -- no record is that long
      rw [if_pos hcount]
      refine .inr (.inr ⟨_, rfl, stops_fail hend fun msg rest' hin hf => ?_⟩)
      have hmsg := (hframe msg rest' hin hf).2.1
      have hbounds := hf.record.sized.length_bounds
      rw [hoff hcount, hmsg] at hlarge
      have : kMaxPacketBytes = 1472 := rfl
      have : kMoldHeaderSize = 20 := rfl
      omega
    · rw [if_neg hcount]
      exact .inr (.inl ⟨rfl, hcount⟩)
  rw [if_neg hlarge]
  rcases readPayload_cases hsplit (by simpa using hlast) fun msg rest' hin hf =>
      ⟨(hframe msg rest' hin hf).2.1.symm, (hframe msg rest' hin hf).2.2⟩ with
    ⟨msg, rest', hok, hin, hf, hmsg⟩ | ⟨error, herr, hno⟩
  · refine .inl ⟨msg, rest', hok, hin, hf, ?_⟩
    rw [length_framed, hmsg]
    omega
  · exact .inr (.inr ⟨_, herr, stops_fail hend hno⟩)

/-! ## Where the source is -/

section Position

variable {file : BinaryFile} {policy : CompletionPolicy} {session : List UInt8}
  {taken base msgs : List (List UInt8)} {body : List UInt8}

/-- The source has read the records `taken`, and reads on. -/
structure At (file : BinaryFile) (policy : CompletionPolicy) (session : List UInt8)
    (taken : List (List UInt8)) (s : ItchMoldUdpSource) : Prop where
  eof : s.eof = false
  completed : s.completed = false
  completionPolicy : s.completionPolicy = policy
  session : s.session = session
  msgsPerPacket : s.msgsPerPacket ≠ 0
  records : Records taken
  input : file.bytes = taken.flatMap framed ++ s.input
  saw : s.sawMessage = true ↔ taken ≠ []
  last : s.lastMessageWasEndOfMessages = true ↔ EndsInC taken
  seq : s.nextSeq.toNat = 1 + taken.length

/-- The source has read the records `taken`, and no record follows. -/
structure Done (file : BinaryFile) (policy : CompletionPolicy) (taken : List (List UInt8))
    (s : ItchMoldUdpSource) : Prop where
  eof : s.eof = true
  longest : IsLongest file.bytes taken
  completed : s.completed = true ↔ InGrammar policy file.bytes

theorem length_flatMap_framed (h : ∀ msg ∈ msgs, IsRecord msg) :
    14 * msgs.length ≤ (msgs.flatMap framed).length := by
  induction msgs with
  | nil => exact Nat.le_refl 0
  | cons msg msgs ih =>
    have hmsg := (h msg List.mem_cons_self).sized.length_bounds
    have hrest := ih fun m hm => h m (List.mem_cons_of_mem _ hm)
    rw [List.flatMap_cons, List.length_append, length_framed, List.length_cons]
    omega

theorem At.seq_lt (h : At file policy session taken s) : 1 + taken.length < 2 ^ 63 := by
  have hlen := length_flatMap_framed h.records.each
  have hfile := file.size_lt
  rw [h.input, List.length_append] at hfile
  omega

theorem At.record (h : At file policy session taken s) {msg rest : List UInt8}
    (hin : s.input = framed msg ++ rest) (hf : Follows s msg) :
    At file policy session (taken ++ [msg]) (s.after msg rest) := by
  have hrecords : Records (taken ++ [msg]) := by
    refine records_concat h.records hf.record (fun hnil => hf.first ?_) fun hc => ?_
    · have := h.saw.not.2 (not_not.2 hnil)
      simpa using this
    · have := hf.last
      rw [h.last.2 hc] at this
      cases this
  refine ⟨h.eof, h.completed, h.completionPolicy, h.session, h.msgsPerPacket, hrecords, ?_, ?_, ?_,
    ?_⟩
  · rw [h.input, hin, List.flatMap_append, List.append_assoc]
    simp [after]
  · exact iff_of_true rfl (List.append_ne_nil_of_right_ne_nil _ (List.cons_ne_nil _ _))
  · show decide (IsEvent msg 'C') = true ↔ _
    rw [decide_eq_true_iff]
    refine ⟨fun hc => ⟨taken, msg, rfl, hc⟩, ?_⟩
    rintro ⟨before, m, heq, hc⟩
    obtain ⟨-, hm⟩ := List.append_inj' heq rfl
    rwa [List.singleton_injective hm]
  · have hlt := h.seq_lt
    have hseq := h.seq
    show (s.nextSeq + 1).toNat = _
    rw [UInt64.toNat_add, show (1 : UInt64).toNat = 1 from rfl, Nat.mod_eq_of_lt (by omega), hseq,
      List.length_append, List.length_singleton]
    omega

theorem At.stops (h : At file policy session taken s) (hs : Stops s s') :
    Done file policy taken s' := by
  have hlongest : IsLongest file.bytes taken := by
    refine isLongest_of_no_next h.records h.input fun msg rest hin hr => ?_
    refine hs.no_next msg rest hin ⟨hr.each msg (List.mem_append_right _ (List.mem_singleton_self _)),
      fun hsaw => ?_, ?_⟩
    · have hnil : taken = [] := by
        by_contra hne
        rw [h.saw.2 hne] at hsaw
        cases hsaw
      subst hnil
      exact hr.first msg rfl
    · have := h.last.not.2 (not_endsInC_of_concat hr)
      simpa using this
  refine ⟨hs.eof, hlongest, ?_⟩
  rw [hs.completed h.completed, inGrammar_iff hlongest h.input, h.last, h.completionPolicy]

/-! ## Packets -/

/-- A timing boundary is the last message. -/
def BoundaryLast (msgs : List (List UInt8)) : Prop :=
  ∀ before msg after, msgs = before ++ msg :: after → isReplayTimingBoundary msg = true → after = []

/-- A boundary closes the packet. -/
theorem boundaryLast_of_chunk {n : UInt16} (h : Greedy.Chunk (ClosedTo n) msgs) : BoundaryLast msgs := by
  rintro before msg (_ | ⟨next, after⟩) rfl hb
  · rfl
  · refine absurd (.inl ⟨msg, by simp, hb⟩) (h (before ++ [msg]) next after (by simp) (by simp))

/-- What a call of `next` leaves of the limit, and of a packet that is complete. -/
structure Cut (n : UInt16) (s : ItchMoldUdpSource) (msgs : List (List UInt8)) : Prop where
  chunk : Greedy.Chunk (ClosedTo n) msgs
  limit : s.eof = false → s.msgsPerPacket = n
  closed : s.eof = false → ∀ msg rest, s.input = framed msg ++ rest → msg.length < 2 ^ 16 →
    ClosedTo n msgs msg

/-- The loop of a packet that holds `msgs` so far, the source being at `base ++ msgs`. -/
structure Filled (n : UInt16) (file : BinaryFile) (policy : CompletionPolicy)
    (session : List UInt8) (base : List (List UInt8)) (out : ItchMoldUdpSource × UInt16 × List UInt8)
    (msgs : List (List UInt8)) : Prop where
  count : out.2.1.toNat = msgs.length
  body : out.2.2 = msgs.flatMap framed
  size : kMoldHeaderSize + out.2.2.length ≤ kMaxPacketBytes
  cut : Cut n out.1 msgs
  records : Records (base ++ msgs)
  source : At file policy session (base ++ msgs) out.1 ∧ msgs ≠ []
    ∨ Done file policy (base ++ msgs) out.1

theorem readPayload_error {rest : List UInt8} {msgLen : ℕ}
    (h : s.readPayload rest msgLen = .error s') : s'.eof = true := by
  unfold readPayload at h
  dsimp only at h
  split_ifs at h
  all_goals
    obtain rfl := Except.error.inj h
    rfl

/-- A record that is left for the next packet does not fit. -/
theorem readRecord_flush (heof : s.eof = false) (h : s.readRecord count offset = .error s)
    {msg rest : List UInt8} (hin : s.input = framed msg ++ rest) (hlen : msg.length < 2 ^ 16) :
    kMaxPacketBytes < offset + 2 + msg.length := by
  have hne : ∀ s' : ItchMoldUdpSource, s'.eof = true →
      (Except.error s' : Except ItchMoldUdpSource (List UInt8 × ItchMoldUdpSource)) ≠ .error s := by
    rintro s' hs' heq
    rw [Except.error.inj heq, heof] at hs'
    cases hs'
  have hmsg : (readU16BE ((framed msg ++ rest).take 2) 0).toNat = msg.length := (read_framed hlen).1
  rw [← hin] at hmsg
  unfold readRecord at h
  dsimp only at h
  rw [hmsg] at h
  by_contra hfits
  rw [if_neg hfits] at h
  -- every other way to end the packet is the end of the file for the source
  split_ifs at h
  all_goals first
    | exact hne _ rfl h
    | exact absurd (readPayload_error h) (by simp [heof])

theorem fill_spec {n : UInt16} {fuel : ℕ} (base msgs : List (List UInt8))
    (hfuel : s.input.length < fuel) (h : At file policy session (base ++ msgs) s)
    (hn : s.msgsPerPacket = n) (hcount : count.toNat = msgs.length) (hle : msgs.length ≤ n.toNat)
    (hbody : body = msgs.flatMap framed)
    (hsize : kMoldHeaderSize + body.length ≤ kMaxPacketBytes) (hchunk : Greedy.Chunk (ClosedTo n) msgs)
    (hnone : ∀ msg ∈ msgs, isReplayTimingBoundary msg = false) :
    ∃ msgs', Filled n file policy session base (s.fill fuel count body) msgs' := by
  induction fuel generalizing s count body msgs with
  | zero => omega
  | succ fuel ih =>
    rw [fill]
    by_cases hloop : count < s.msgsPerPacket ∨ s.lastMessageWasEndOfMessages = true
    swap
    · rw [if_neg hloop]
      rw [not_or, UInt16.not_lt, UInt16.le_iff_toNat_le, hcount] at hloop
      have hcut : Cut n s msgs :=
        ⟨hchunk, fun _ => hn, fun _ _ _ _ _ => .inr (.inl (le_antisymm hle (hn ▸ hloop.1)))⟩
      refine ⟨msgs, hcount, hbody, hsize, hcut, h.records, .inl ⟨h, ?_⟩⟩
      rintro rfl
      exact h.msgsPerPacket (UInt16.toNat_inj.1 (Nat.le_zero.1 hloop.1))
    rw [if_pos hloop]
    have hoff : count = 0 → kMoldHeaderSize + body.length = kMoldHeaderSize := by
      intro h0
      rw [h0] at hcount
      rw [hbody, List.length_eq_zero_iff.1 hcount.symm]
      rfl
    rcases readRecord_cases (s := s) hoff with ⟨msg, rest, hok, hin, hf, hfit⟩ | ⟨hflush, hne⟩
      | ⟨s', herr, hstops⟩
    · rw [hok]
      dsimp only
      have hat := h.record hin hf
      rw [List.append_assoc] at hat
      have hroom : msgs.length < n.toNat := by
        have hlt := hloop.resolve_right (by simp [hf.last])
        rwa [UInt16.lt_iff_toNat_lt, hcount, hn] at hlt
      have hframe : body ++ writeU16BE msg.length.toUInt16 ++ msg = body ++ framed msg := by
        have hlen : msg.length.toUInt16.toNat = msg.length :=
          UInt16.toNat_ofNat_of_lt hf.record.length_lt
        rw [writeU16BE_eq, hlen, List.append_assoc, framed]
      have hwrite : body ++ writeU16BE msg.length.toUInt16 ++ msg
          = (msgs ++ [msg]).flatMap framed := by
        rw [hframe, hbody, List.flatMap_append, List.flatMap_singleton]
      have hsize' : kMoldHeaderSize + (body ++ writeU16BE msg.length.toUInt16 ++ msg).length
          ≤ kMaxPacketBytes := by
        rw [hframe, List.length_append, ← Nat.add_assoc]
        exact hfit
      have hchunk' : Greedy.Chunk (ClosedTo n) (msgs ++ [msg]) := by
        refine hchunk.concat fun _ hclosed => ?_
        rcases hclosed with ⟨last, hlast, hb⟩ | hfull | hbig
        · rw [hnone last (List.mem_of_getLast? hlast)] at hb
          cases hb
        · omega
        · rw [← hbody] at hbig
          rw [length_framed] at hfit
          omega
      have hcount' : (count + 1).toNat = (msgs ++ [msg]).length := by
        have hmsgs := length_flatMap_framed fun m hm => h.records.each m (List.mem_append_right _ hm)
        rw [← hbody] at hmsgs
        have : kMaxPacketBytes = 1472 := rfl
        rw [UInt16.toNat_add, show (1 : UInt16).toNat = 1 from rfl, Nat.mod_eq_of_lt (by omega),
          hcount, List.length_append, List.length_singleton]
      by_cases hb : isReplayTimingBoundary msg = true
      · rw [if_pos hb]
        exact ⟨msgs ++ [msg], hcount', hwrite, hsize',
          ⟨hchunk', fun _ => hn, fun _ _ _ _ _ => .inl ⟨msg, by simp, hb⟩⟩, hat.records,
          .inl ⟨hat, List.append_ne_nil_of_right_ne_nil _ (List.cons_ne_nil _ _)⟩⟩
      · rw [if_neg hb]
        refine ih (msgs ++ [msg]) ?_ hat hn hcount' ?_ hwrite hsize' hchunk' fun m hm => ?_
        · have hlen := congrArg List.length hin
          rw [List.length_append, length_framed] at hlen
          show rest.length < fuel
          omega
        · rw [List.length_append, List.length_singleton]
          omega
        · rcases List.mem_append.1 hm with hm | hm
          · exact hnone m hm
          · rw [List.mem_singleton.1 hm]
            simpa using hb
    · rw [hflush]
      have hcut : Cut n s msgs := by
        refine ⟨hchunk, fun _ => hn, fun heof msg rest hin hlen => .inr (.inr ?_)⟩
        rw [← hbody]
        exact readRecord_flush heof hflush hin hlen
      refine ⟨msgs, hcount, hbody, hsize, hcut, h.records, .inl ⟨h, ?_⟩⟩
      rintro rfl
      exact hne (UInt16.toNat_inj.1 hcount)
    · rw [herr]
      have hcut : Cut n s' msgs := by
        refine ⟨hchunk, fun heof => ?_, fun heof => ?_⟩
        all_goals
          rw [hstops.eof] at heof
          cases heof
      exact ⟨msgs, hcount, hbody, hsize, hcut, h.records, .inr (h.stops hstops)⟩

/-- What a call of `next` gives: nothing, and the source is done, or a packet of the next
records. -/
theorem next_spec (h : At file policy session taken s) (hsession : session.length = kSessionSize)
    (ticks : UInt64) :
    (∃ s', s.next ticks = (none, s') ∧ Done file policy taken s')
    ∨ ∃ p s' msgs, s.next ticks = (some p, s') ∧ IsPacket session (1 + taken.length) msgs p
      ∧ p.data.length ≤ kMaxPacketBytes ∧ Cut s.msgsPerPacket s' msgs
      ∧ (At file policy session (taken ++ msgs) s' ∨ Done file policy (taken ++ msgs) s') := by
  obtain ⟨msgs, hfilled⟩ : ∃ msgs, Filled s.msgsPerPacket file policy session taken
      (s.fill (s.input.length + 1) 0 []) msgs :=
    fill_spec taken [] (Nat.lt_succ_self _) (by rwa [List.append_nil]) rfl rfl (Nat.zero_le _) rfl
      (by decide) (Greedy.chunk_nil _) fun m hm => (List.not_mem_nil hm).elim
  unfold next
  rw [h.eof]
  generalize s.fill (s.input.length + 1) 0 [] = out at hfilled ⊢
  obtain ⟨s', count, body⟩ := out
  obtain ⟨hcount, hbody, hsize, hcut, hrecords, hsource⟩ := hfilled
  dsimp only at hcount hbody hsize hsource ⊢
  rw [if_neg (by decide)]
  by_cases h0 : count = 0
  · left
    rw [if_pos h0]
    rw [h0] at hcount
    obtain rfl := List.length_eq_zero_iff.1 hcount.symm
    rw [List.append_nil] at hsource
    exact ⟨s', rfl, hsource.resolve_left fun hat => hat.2 rfl⟩
  · right
    rw [if_neg h0]
    have heach : ∀ m ∈ msgs, IsRecord m := fun m hm =>
      hrecords.each m (List.mem_append_right _ hm)
    have hmsgs := length_flatMap_framed heach
    have hmax : kMaxPacketBytes = 1472 := rfl
    rw [← hbody] at hmsgs
    have hlt := h.seq_lt
    have hdata : s.session ++ writeU64BE s.nextSeq ++ writeU16BE count ++ body
        = session ++ (toBytes 8 (1 + taken.length) ++ (toBytes 2 msgs.length
          ++ msgs.flatMap framed)) := by
      rw [h.session, writeU64BE_eq, h.seq, writeU16BE_eq, hcount, hbody, List.append_assoc,
        List.append_assoc]
    refine ⟨_, s', msgs, rfl, ⟨hdata, hsession, by omega, ?_, by omega, fun m hm => (heach m hm).sized⟩,
      ?_, hcut, hsource.imp_left And.left⟩
    · rintro rfl
      exact h0 (UInt16.toNat_inj.1 hcount)
    · show (s.session ++ writeU64BE s.nextSeq ++ writeU16BE count ++ body).length ≤ _
      rw [hdata, ← hbody, List.length_append, List.length_append, List.length_append, hsession,
        length_toBytes, length_toBytes]
      have : kMoldHeaderSize = 20 := rfl
      have : kSessionSize = 10 := rfl
      omega

theorem next_done (h : Done file policy taken s) (ticks : UInt64) : s.next ticks = (none, s) := by
  unfold next
  rw [if_pos h.eof]

end Position

end ItchMoldUdpSource

end AstraFeed
