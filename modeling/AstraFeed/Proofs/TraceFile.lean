import AstraFeed.Proofs.SourceRoundTrip
import AstraFeed.Proofs.TraceMessage

/-!
# What the profiler reads

A round of the profiler's loop reads a record or ends it (`readRecords_cases`). A file without a
malformed record is one that the replay source sends to its end, and what is profiled is what the
source sends.
-/

namespace AstraFeed

namespace ItchTraceProfile

open Function Wire ItchParser BigEndian ItchMoldUdpSource

namespace Profile

variable {allow : Bool} {taken : List (List UInt8)} {input rest msg : List UInt8} {p : Profile}

theorem isSystemEvent_iff (h : WellSized msg) {c : Char} :
    isSystemEvent msg c = true ↔ IsEvent msg c := by
  unfold isSystemEvent
  simp only [Bool.and_eq_true, beq_iff_eq]
  refine ⟨fun ⟨⟨_, hS⟩, hc⟩ => ⟨hS, hc⟩, fun ⟨hS, hc⟩ => ⟨⟨?_, hS⟩, hc⟩⟩
  rw [h.2, hS]
  rfl

/-- The two bytes are those of the length. -/
theorem toBytes_readU16BE (h : (input.take 2).length = 2) :
    input = toBytes 2 (readU16BE (input.take 2) 0).toNat ++ input.drop 2 := by
  obtain ⟨x, y, hxy⟩ := List.length_eq_two.1 h
  have hbytes : toBytes 2 (readU16BE [x, y] 0).toNat = [x, y] := by
    rw [readU16BE_toNat]
    exact toBytes_ofBytes [x, y]
  rw [hxy, hbytes, ← hxy, List.take_append_drop]

theorem readU16BE_eq_zero {off : ℕ} :
    readU16BE msg off = 0 ↔ byteAt msg off = 0 ∧ byteAt msg (off + 1) = 0 := by
  rw [← UInt16.toNat_inj, readU16BE_toNat, ← UInt8.toNat_inj, ← UInt8.toNat_inj]
  simp [ofBytes]

/-- What a record is read as. -/
theorem read_record (hin : input = framed msg ++ rest) (h : IsRecord msg) :
    (input.take 2).length = 2 ∧ (readU16BE (input.take 2) 0).toNat = msg.length
      ∧ input.drop 2 = msg ++ rest := by
  rw [hin]
  refine ⟨?_, read_framed h.length_lt⟩
  rw [List.length_take, List.length_append, length_framed]
  omega

/-- The profile of the records `taken`, and what the next may be. -/
structure At (taken : List (List UInt8)) (p : Profile) : Prop where
  records : Records taken
  stats : p.stats = Stats.init.observeAll taken
  saw : p.sawMessage = true ↔ taken ≠ []
  last : p.sawEndOfMessages = true ↔ EndsInC taken

/-- What is left of a file that is complete. -/
def Complete (allow : Bool) (taken : List (List UInt8)) (input : List UInt8) : Prop :=
  EndsInC taken ∧ (input = [0, 0] ∨ allow = true ∧ input = [])

/-- How the loop ends. No record follows. -/
inductive Ends (allow : Bool) (taken : List (List UInt8)) (input : List UInt8) (p : Profile) :
    Profile → Prop
  | complete {completion : BinaryFileCompletion} (h : Complete allow taken input)
      (hcompletion : completion = .terminator ∨ completion = .legacyScEof) :
      Ends allow taken input p { p with binaryfileCompletion := completion }
  | malformed {completion : BinaryFileCompletion} (h : ¬ Complete allow taken input)
      (hnext : ∀ msg rest, input = framed msg ++ rest → ¬ Records (taken ++ [msg])) :
      Ends allow taken input p (p.malformed completion)

theorem At.record (h : At taken p) (hrecords : Records (taken ++ [msg])) :
    At (taken ++ [msg]) (p.observe msg) := by
  have hm := hrecords.each msg (List.mem_append_right _ (List.mem_singleton_self _))
  refine ⟨hrecords, ?_, iff_of_true rfl ?_, ?_⟩
  · unfold Stats.observeAll
    rw [List.foldl_append]
    exact congrArg (fun s => Stats.observeMessage s msg) h.stats
  · exact List.append_ne_nil_of_right_ne_nil _ (List.cons_ne_nil _ _)
  · refine (isSystemEvent_iff hm.sized).trans ⟨fun hc => ⟨taken, msg, rfl, hc⟩, ?_⟩
    rintro ⟨before, m, heq, hc⟩
    obtain ⟨-, hm⟩ := List.append_inj' heq rfl
    rwa [List.singleton_injective hm]

/-- A round reads a record, or the loop ends. -/
theorem readRecords_cases (h : At taken p) :
    (∃ msg rest, input = framed msg ++ rest ∧ Records (taken ++ [msg])
      ∧ readRecords allow input p = readRecords allow rest (p.observe msg))
    ∨ Ends allow taken input p (readRecords allow input p) := by
  have hread : ∀ msg rest, input = framed msg ++ rest → Records (taken ++ [msg]) →
      IsRecord msg ∧ (input.take 2).length = 2
        ∧ (readU16BE (input.take 2) 0).toNat = msg.length ∧ input.drop 2 = msg ++ rest := by
    intro msg rest hin hr
    have hm := hr.each msg (List.mem_append_right _ (List.mem_singleton_self _))
    exact ⟨hm, read_record hin hm⟩
  rw [readRecords]
  dsimp only
  by_cases h0 : (input.take 2).length = 0
  · have hnil : input = [] := by
      rw [List.length_take] at h0
      exact List.length_eq_zero_iff.1 (by omega)
    rw [if_pos h0]
    right
    by_cases hend : (allow && p.sawEndOfMessages) = true
    · rw [if_pos hend]
      rw [Bool.and_eq_true, h.last] at hend
      exact .complete ⟨hend.2, .inr ⟨hend.1, hnil⟩⟩ (.inr rfl)
    · rw [if_neg hend]
      refine .malformed ?_ fun msg rest hin hr => ?_
      · rintro ⟨hlast, hin | ⟨hallow, -⟩⟩
        · rw [hnil] at hin
          cases hin
        · exact hend (Bool.and_eq_true_iff.2 ⟨hallow, h.last.2 hlast⟩)
      · have := (hread msg rest hin hr).2.1
        omega
  rw [if_neg h0]
  by_cases h2 : (input.take 2).length = 2
  swap
  · rw [if_pos h2]
    refine .inr (.malformed ?_ fun msg rest hin hr => h2 (hread msg rest hin hr).2.1)
    rintro ⟨-, hin | ⟨-, hin⟩⟩
    · rw [hin] at h2
      exact h2 rfl
    · rw [hin] at h0
      exact h0 rfl
  rw [if_neg (not_not.2 h2)]
  have hsplit := toBytes_readU16BE h2
  have hzero : input = [0, 0] ∨ input = [] → (readU16BE (input.take 2) 0).toNat = 0
      ∧ input.drop 2 = [] := by
    rintro (hin | hin)
    · rw [hin]
      exact ⟨rfl, rfl⟩
    · rw [hin] at h0
      exact absurd rfl h0
  generalize (readU16BE (input.take 2) 0).toNat = length at hsplit hread hzero ⊢
  generalize input.drop 2 = body at hsplit hread hzero ⊢
  have hend : Complete allow taken input → length = 0 ∧ body = [] := fun hc =>
    hzero (hc.2.imp_right And.right)
  by_cases hlen : length = 0
  · have hno : ∀ msg rest, input = framed msg ++ rest → ¬ Records (taken ++ [msg]) := by
      intro msg rest hin hr
      have := (hread msg rest hin hr).1.sized.length_bounds
      have := (hread msg rest hin hr).2.2.1
      omega
    rw [if_pos hlen]
    right
    by_cases hbody : body = []
    swap
    · rw [if_pos hbody]
      exact .malformed (fun hc => hbody (hend hc).2) hno
    rw [if_neg (not_not.2 hbody)]
    by_cases hlast : p.sawEndOfMessages = true
    · rw [if_neg (by simp [hlast])]
      refine .complete ⟨h.last.1 hlast, .inl ?_⟩ (.inl rfl)
      rw [hsplit, hbody, hlen]
      rfl
    · rw [if_pos (by simpa using hlast)]
      exact .malformed (fun hc => hlast (h.last.2 hc.1)) hno
  rw [if_neg hlen]
  have hend : ¬ Complete allow taken input := fun hc => hlen (hend hc).1
  have htake : ∀ msg rest, input = framed msg ++ rest → Records (taken ++ [msg]) →
      IsRecord msg ∧ body.take length = msg ∧ length = msg.length := by
    intro msg rest hin hr
    obtain ⟨hm, -, hl, hbody⟩ := hread msg rest hin hr
    rw [hbody]
    exact ⟨hm, List.take_left' hl.symm, hl⟩
  have hdrop := List.take_append_drop length body
  generalize body.take length = m at htake hdrop ⊢
  by_cases hm : m.length = length
  swap
  · rw [if_pos hm]
    refine .inr (.malformed hend fun msg rest hin hr => hm ?_)
    obtain ⟨-, rfl, hl⟩ := htake msg rest hin hr
    exact hl.symm
  rw [if_neg (not_not.2 hm)]
  by_cases hsize : expectedItchMessageLength (byteAt m 0) = 0
      ∨ length ≠ expectedItchMessageLength (byteAt m 0)
  · rw [if_pos hsize]
    refine .inr (.malformed hend fun msg rest hin hr => ?_)
    obtain ⟨hmsg, rfl, hl⟩ := htake msg rest hin hr
    have := hmsg.sized.length_bounds
    have := hmsg.sized.2
    omega
  rw [if_neg hsize]
  rw [not_or, not_not] at hsize
  have hsized : WellSized m := by
    refine ⟨?_, hm.trans hsize.2⟩
    rintro rfl
    exact hlen hm.symm
  by_cases hlocate : byteAt m 0 = byte 'S' ∧ readU16BE m 1 ≠ 0
  · rw [if_pos hlocate]
    refine .inr (.malformed hend fun msg rest hin hr => ?_)
    obtain ⟨hmsg, rfl, -⟩ := htake msg rest hin hr
    exact hlocate.2 (readU16BE_eq_zero.2 (hmsg.locate hlocate.1))
  rw [if_neg hlocate]
  by_cases hfirst : (!p.sawMessage && !isSystemEvent m 'O') = true
  · rw [if_pos hfirst]
    refine .inr (.malformed hend fun msg rest hin hr => ?_)
    obtain ⟨-, rfl, -⟩ := htake msg rest hin hr
    rw [Bool.and_eq_true, Bool.not_eq_true', Bool.not_eq_true'] at hfirst
    have hnil : taken = [] := by
      by_contra hne
      rw [h.saw.2 hne] at hfirst
      cases hfirst.1
    rw [hnil] at hr
    rw [(isSystemEvent_iff hsized).2 (hr.first _ rfl)] at hfirst
    cases hfirst.2
  rw [if_neg hfirst]
  by_cases hlast : p.sawEndOfMessages = true
  · rw [if_pos hlast]
    refine .inr (.malformed hend fun msg rest hin hr => ?_)
    exact not_endsInC_of_concat hr (h.last.1 hlast)
  rw [if_neg hlast]
  refine .inl ⟨m, body.drop length, ?_, records_concat h.records ⟨hsized, fun hS => ?_⟩
    (fun hnil => ?_) (mt h.last.2 hlast), rfl⟩
  · rw [hsplit, framed, hm, List.append_assoc, hdrop]
  · exact readU16BE_eq_zero.1 (not_not.1 fun hne => hlocate ⟨hS, hne⟩)
  · rw [← isSystemEvent_iff hsized]
    have hsaw := (not_iff_not.2 h.saw).2 (not_not.2 hnil)
    simpa [hsaw] using hfirst

/-- The loop reads records and ends. -/
theorem readRecords_reads (h : At taken p) : ∃ more rest q,
    input = more.flatMap framed ++ rest ∧ At (taken ++ more) q
      ∧ Ends allow (taken ++ more) rest q (readRecords allow input p) := by
  induction hn : input.length using Nat.strong_induction_on generalizing taken input p with
  | _ n ih =>
  subst hn
  rcases @readRecords_cases allow _ input _ h with
    ⟨msg, rest, hin, hrecords, hout⟩ | hends
  · have hlt : rest.length < input.length := by
      rw [hin, List.length_append, length_framed]
      omega
    obtain ⟨more, rest', q, hrest, hat, hends⟩ :=
      ih rest.length hlt (h.record hrecords) rfl
    rw [List.append_assoc, List.singleton_append] at hat hends
    refine ⟨msg :: more, rest', q, ?_, hat, hout ▸ hends⟩
    rw [hin, hrest, List.flatMap_cons, List.append_assoc]
  · refine ⟨[], input, p, rfl, ?_, ?_⟩ <;> rw [List.append_nil]
    · exact h
    · exact hends

theorem Ends.isLongest {file : List UInt8} {q : Profile} (h : Ends allow taken input p q)
    (hat : At taken p) (hfile : file = taken.flatMap framed ++ input) : IsLongest file taken := by
  refine isLongest_of_no_next hat.records hfile fun msg rest hin hr => ?_
  cases h with
  | complete hend => exact not_endsInC_of_concat hr hend.1
  | malformed _ hnext => exact hnext msg rest hin hr

theorem complete_iff {file : List UInt8} (h : IsLongest file taken)
    (hfile : file = taken.flatMap framed ++ input) :
    Complete allow taken input ↔ InGrammar (completionPolicy allow) file := by
  rw [inGrammar_iff h hfile]
  cases allow <;> simp [Complete, completionPolicy]

end Profile

open Profile

theorem endsInC_iff {messages : List (List UInt8)} :
    EndsInC messages ↔ ∃ last ∈ messages.getLast?, IsEvent last 'C' := by
  constructor
  · rintro ⟨before, msg, rfl, hC⟩
    exact ⟨msg, by simp, hC⟩
  · rintro ⟨msg, hmsg, hC⟩
    obtain ⟨before, rfl⟩ := List.getLast?_eq_some_iff.1 hmsg
    exact ⟨before, msg, rfl, hC⟩

/-- Nothing follows the messages a file holds. -/
theorem Holds.isLongest {allow : Bool} {file : BinaryFile} {messages : List (List UInt8)}
    (h : Holds allow file messages) : IsLongest file.bytes messages := by
  obtain ⟨hrecords, hlast, hbytes⟩ := h
  have hC := endsInC_iff.2 hlast
  rcases hbytes with hbytes | ⟨-, hbytes⟩
  · exact isLongest_of_no_next hrecords hbytes fun _ _ _ hr => not_endsInC_of_concat hr hC
  · rw [← List.append_nil (messages.flatMap framed)] at hbytes
    exact isLongest_of_no_next hrecords hbytes fun _ _ _ hr => not_endsInC_of_concat hr hC

theorem Holds.inGrammar {allow : Bool} {file : BinaryFile} {messages : List (List UInt8)}
    (h : Holds allow file messages) : InGrammar (completionPolicy allow) file.bytes := by
  obtain ⟨hrecords, hlast, hbytes⟩ := h
  obtain ⟨before, msg, rfl, hC⟩ := endsInC_iff.2 hlast
  refine ⟨before, msg, hrecords, hC, hbytes.imp_right fun ⟨hallow, hbytes⟩ => ⟨?_, hbytes⟩⟩
  rw [hallow]
  rfl

/-- Messages of their types' lengths are not counted as malformed. -/
theorem malformedRecords_observeAll (s : Stats) {messages : List (List UInt8)}
    (h : ∀ msg ∈ messages, WellSized msg) :
    (s.observeAll messages).malformedRecords = s.malformedRecords := by
  induction messages generalizing s with
  | nil => rfl
  | cons msg messages ih =>
    refine (ih (s.observeMessage msg) fun m hm => h m (List.mem_cons_of_mem _ hm)).trans ?_
    exact (Stats.reads_observeMessage s (h msg List.mem_cons_self)).malformed

/-- The records that are profiled are the longest the file begins with, and one more is malformed
where the file does not end as it should. -/
theorem profile_reads (allow : Bool) (file : BinaryFile) :
    ∃ records, IsLongest file.bytes records ∧ Records records
      ∧ ((InGrammar (completionPolicy allow) file.bytes
          ∧ (profile allow file).stats = Stats.init.observeAll records
          ∧ ((profile allow file).binaryfileCompletion = .terminator
            ∨ (profile allow file).binaryfileCompletion = .legacyScEof)
          ∧ Holds allow file records)
        ∨ ¬ InGrammar (completionPolicy allow) file.bytes
          ∧ (profile allow file).stats = (Stats.init.observeAll records).bump .malformedRecords) := by
  have hstart : At [] {} := ⟨records_nil, rfl, by simp, by simp [EndsInC]⟩
  obtain ⟨records, rest, q, hfile, hat, hends⟩ : ∃ more rest q, file.bytes = _ ∧ _ ∧
      Profile.Ends allow ([] ++ more) rest q _ := readRecords_reads hstart
  rw [List.nil_append] at hat hends
  have hlongest := hends.isLongest hat hfile
  refine ⟨records, hlongest, hat.records, ?_⟩
  have hcomplete : Complete allow records rest ↔ _ := complete_iff hlongest hfile
  change Profile.Ends allow records rest q (profile allow file) at hends
  generalize profile allow file = out at hends ⊢
  cases hends with
  | complete hend hcompletion =>
    refine .inl ⟨hcomplete.1 hend, hat.stats, hcompletion, hat.records, endsInC_iff.1 hend.1, ?_⟩
    refine hend.2.imp (fun hrest => ?_) fun ⟨hallow, hrest⟩ => ⟨hallow, ?_⟩
    · rw [hfile, hrest]
    · rw [hfile, hrest, List.append_nil]
  | malformed hend _ =>
    exact .inr ⟨mt hcomplete.2 hend, congrArg (Stats.bump · .malformedRecords) hat.stats⟩

/-- A file leaves no malformed record exactly when it is in the grammar, and then the records it
holds are profiled. -/
theorem malformedRecords_eq_zero_iff {allow : Bool} {file : BinaryFile} :
    (profile allow file).stats.malformedRecords = 0
      ↔ InGrammar (completionPolicy allow) file.bytes := by
  obtain ⟨records, -, hrecords, ⟨hin, hstats, -⟩ | ⟨hnot, hstats⟩⟩ := profile_reads allow file
  · refine iff_of_true ?_ hin
    rw [hstats]
    exact malformedRecords_observeAll _ fun m hm => (hrecords.each m hm).sized
  · refine iff_of_false ?_ hnot
    rw [hstats]
    have hbump : ((Stats.init.observeAll records).bump .malformedRecords).malformedRecords
        = (Stats.init.observeAll records).malformedRecords + 1 := by
      simp [Stats.malformedRecords, Stats.bump]
    omega

theorem holds_of_malformedRecords {allow : Bool} {file : BinaryFile}
    (h : (profile allow file).stats.malformedRecords = 0) :
    ∃ messages, Holds allow file messages
      ∧ (profile allow file).stats = Stats.init.observeAll messages := by
  obtain ⟨records, -, -, ⟨-, hstats, -, hholds⟩ | ⟨hnot, -⟩⟩ := profile_reads allow file
  · exact ⟨records, hholds, hstats⟩
  · exact absurd (malformedRecords_eq_zero_iff.1 h) hnot

/-- A replay of the file to its end sends what is profiled, the longest records the file begins with,
and is complete exactly when nothing was malformed. -/
theorem profiles_what_is_sent (allow : Bool) (file : BinaryFile) (session : List UInt8)
    (hsession : session.length ≤ MoldUdpPacketHeader.kSessionSize) (msgsPerPacket : UInt16)
    (hcount : msgsPerPacket ≠ 0) (calls : List Call) :
    let out := (create file session msgsPerPacket (completionPolicy allow)).emit calls
    let sent := Stats.init.observeAll (out.1.flatMap PacketView.messages)
    out.2.eof = true →
      IsLongest file.bytes (out.1.flatMap PacketView.messages)
      ∧ (profile allow file).stats = (if out.2.completed then sent else sent.bump .malformedRecords)
      ∧ ((profile allow file).passes = true
        ↔ out.2.completed = true ∧ sent.semanticProfileClean = true) := by
  intro out sent heof
  obtain ⟨msgs, hemitted, hend⟩ := emit_spec
    (at_create file (completionPolicy allow) hsession hcount) (length_resizeSession session) calls
  have hdone : Done file (completionPolicy allow) msgs out.2 := by
    rcases hend with ⟨hat, -⟩ | hdone
    · have := hat.eof
      rw [heof] at this
      cases this
    · exact hdone
  have hsent : sent = Stats.init.observeAll msgs := congrArg Stats.init.observeAll hemitted.messages
  obtain ⟨records, hlongest, hrecords, hread⟩ := profile_reads allow file
  obtain rfl := isLongest_unique hlongest hdone.longest
  have hclean : (Stats.init.observeAll records).malformedRecords = 0 :=
    malformedRecords_observeAll _ fun m hm => (hrecords.each m hm).sized
  unfold passes
  rw [hsent]
  refine ⟨hemitted.messages ▸ hlongest, ?_⟩
  rcases hread with ⟨hin, hstats, hcompletion, -⟩ | ⟨hnot, hstats⟩
  · have hcompleted := hdone.completed.2 hin
    rw [hcompleted, if_pos rfl, hstats, hclean]
    refine ⟨rfl, ?_⟩
    rcases hcompletion with hc | hc <;> rw [hc] <;> simp
  · have hcompleted := mt hdone.completed.1 hnot
    have hmalformed := mt malformedRecords_eq_zero_iff.1 hnot
    rw [if_neg hcompleted]
    refine ⟨hstats, iff_of_false (fun h => hmalformed ?_) fun h => hcompleted h.1⟩
    simp only [Bool.and_eq_true, beq_iff_eq] at h
    exact h.1.1

theorem profiles_what_is_sent_short :
    ([] : List UInt8).length ≤ MoldUdpPacketHeader.kSessionSize ∧ (1 : UInt16) ≠ 0
      ∧ (profile false shortFile).stats = Stats.init.observeAll
        (((create shortFile [] 1 .requireTerminator).emit
          (List.replicate 3 ⟨1, 0⟩)).1.flatMap PacketView.messages) := by
  obtain ⟨-, hstats, -⟩ := profiles_what_is_sent false shortFile [] (by decide) 1 (by decide)
    (List.replicate 3 ⟨1, 0⟩) (by decide +kernel)
  exact ⟨by decide, by decide, hstats.trans (if_pos (by decide +kernel))⟩

end ItchTraceProfile

end AstraFeed
