import AstraFeed.DrainRun
import AstraFeed.Proofs.GapBuffer
import AstraFeed.Proofs.ItchParser

/-!
# The decoder's loops

A packet that passed its validation hands its messages over from the start sequence on, up to the
first that is refused (`processSequencedPacket_spec`). The drain keeps whatever its two kinds of
rounds keep, and ends when no buffered packet begins within reach (`drainGapBuffer_rule`).
-/

namespace AstraFeed

open MoldUdpPacketHeader Wire Probe

/-! ## Validated packets -/

theorem ite_min {c : Prop} [Decidable c] {a b : ℕ} (ha : 12 ≤ a) (hb : b = 0 ∨ 12 ≤ b) :
    (if c then a else b) = 0 ∨ 12 ≤ if c then a else b := by
  split
  · exact .inr ha
  · exact hb

/-- The shortest message has `12` bytes. -/
theorem expectedItchMessageLength_min (type : UInt8) :
    expectedItchMessageLength type = 0 ∨ 12 ≤ expectedItchMessageLength type := by
  unfold expectedItchMessageLength
  repeat' refine ite_min (by decide) ?_
  exact .inl rfl

theorem handlePrevalidatedMessage_eq {p : ItchParser} {msg : List UInt8} (h : WellSized msg) :
    p.handlePrevalidatedMessage msg = p.handleMessage msg := by
  unfold ItchParser.handlePrevalidatedMessage ItchParser.handleMessage
  have hlen : expectedItchMessageLength (byteAt msg 0) ≠ 0 := by
    rw [← h.2]
    exact fun h0 => h.1 (List.length_eq_zero_iff.1 h0)
  rw [if_neg h.1, if_neg h.1]
  dsimp only
  rw [if_neg hlen, if_neg (not_not.2 h.2)]

namespace MoldUdpDecoder

variable {data : List UInt8} {n offset : ℕ} {d : MoldUdpDecoder}

theorem validateLoop_succ (h : validateLoop data (n + 1) offset = .ok) :
    offset + 2 ≤ data.length ∧ (readU16BE data offset).toNat ≠ 0
      ∧ offset + 2 + (readU16BE data offset).toNat ≤ data.length
      ∧ (readU16BE data offset).toNat = expectedItchMessageLength (byteAt data (offset + 2))
      ∧ validateLoop data n (offset + 2 + (readU16BE data offset).toNat) = .ok := by
  rw [validateLoop] at h
  dsimp only at h
  split_ifs at h with h1 h2 h3
  exact ⟨by omega, by omega, by omega, by omega, h⟩

theorem framed_wellSized (h : validateLoop data n offset = .ok) {msg : List UInt8}
    (hm : msg ∈ framedMessages data n offset) : WellSized msg := by
  induction n generalizing offset with
  | zero => cases hm
  | succ n ih =>
    obtain ⟨h1, h2, h3, h4, h5⟩ := validateLoop_succ h
    rcases List.mem_cons.1 hm with rfl | hm
    · have hlen : ((data.drop (offset + 2)).take (readU16BE data offset).toNat).length
          = (readU16BE data offset).toNat := by
        rw [List.length_take, List.length_drop]
        omega
      refine ⟨fun hnil => h2 ?_, ?_⟩
      · rw [← hlen, hnil]
        rfl
      · rw [hlen]
        refine h4.trans (congrArg expectedItchMessageLength ?_)
        simp only [byteAt, List.getD_eq_getElem?_getD, List.getElem?_take, List.getElem?_drop]
        rw [if_pos (by omega), Nat.add_zero]
    · exact ih h5 hm

theorem length_framedMessages : (framedMessages data n offset).length = n := by
  induction n generalizing offset with
  | zero => rfl
  | succ n ih => simp only [framedMessages, List.length_cons, ih]

/-- Every message takes at least `14` bytes. -/
theorem validateLoop_length (h : validateLoop data n offset = .ok) :
    offset + kMinimumFramedItchMessageBytes * n ≤ data.length := by
  induction n generalizing offset with
  | zero =>
    rw [validateLoop] at h
    split_ifs at h with h1
    omega
  | succ n ih =>
    obtain ⟨_, h2, _, h4, h5⟩ := validateLoop_succ h
    have hmin := expectedItchMessageLength_min (byteAt data (offset + 2))
    have := ih h5
    simp only [kMinimumFramedItchMessageBytes] at *
    omega

/-! ## Handing messages over -/

/-- How a list of messages is handed over: to its end, or up to one that is refused. -/
inductive Hands (d : MoldUdpDecoder) (seq : UInt64) (msgs : List (List UInt8)) :
    DecodeStatus → MoldUdpDecoder → Prop
  | all : Hands d seq msgs .ok (d.handAll seq msgs)
  | refused (k : ℕ) (hk : k < msgs.length)
      (herr : (d.handAll seq (msgs.take (k + 1))).parser.lastError ≠ none) :
      Hands d seq msgs .invalidItchMessage
        ((d.handAll seq (msgs.take (k + 1))).setStatus .invalid)

theorem Hands.cons {seq : UInt64} {msg : List UInt8} {msgs : List (List UInt8)}
    {status : DecodeStatus} {d' : MoldUdpDecoder}
    (h : Hands (d.handMessage seq msg) (seq + 1) msgs status d') :
    Hands d seq (msg :: msgs) status d' := by
  cases h with
  | all => exact .all
  | refused k hk herr => exact .refused (k + 1) (Nat.succ_lt_succ hk) herr

theorem toNat_add_one {seq : UInt64} {n : ℕ} (h : seq.toNat + (n + 1) < 2 ^ 64) :
    (seq + 1).toNat = seq.toNat + 1 := by
  rw [UInt64.toNat_add]
  exact Nat.mod_eq_of_lt (by change seq.toNat + 1 < _; omega)

/-- From the start sequence on, every message is handed over. -/
theorem processLoop_from {startSeq seq processed : UInt64}
    (hv : validateLoop data n offset = .ok) (hs : startSeq ≤ seq)
    (hfit : seq.toNat + n < 2 ^ 64) :
    Hands d seq (framedMessages data n offset)
      (processLoop data startSeq n offset seq processed d).1
      (processLoop data startSeq n offset seq processed d).2.2 := by
  induction n generalizing offset seq processed d with
  | zero => exact .all
  | succ n ih =>
    obtain ⟨h1, h2, h3, _, h5⟩ := validateLoop_succ hv
    rw [processLoop, if_neg (by omega)]
    dsimp only
    rw [if_neg (by omega), if_pos hs]
    split_ifs with herr
    · refine .refused 0 (Nat.succ_pos _) ?_
      exact herr
    · refine Hands.cons (ih h5 ?_ ?_)
      · rw [UInt64.le_iff_toNat_le] at hs ⊢
        rw [toNat_add_one hfit]
        omega
      · rw [toNat_add_one hfit]
        omega

/-- Before the start sequence messages are passed over. -/
theorem processLoop_spec {startSeq seq processed : UInt64}
    (hv : validateLoop data n offset = .ok) (hs : seq ≤ startSeq)
    (he : startSeq.toNat ≤ seq.toNat + n) (hfit : seq.toNat + n < 2 ^ 64) :
    Hands d startSeq ((framedMessages data n offset).drop (startSeq.toNat - seq.toNat))
      (processLoop data startSeq n offset seq processed d).1
      (processLoop data startSeq n offset seq processed d).2.2 := by
  induction n generalizing offset seq processed d with
  | zero =>
    rw [framedMessages, List.drop_nil]
    exact .all
  | succ n ih =>
    rcases eq_or_ne seq startSeq with rfl | hne
    · rw [Nat.sub_self, List.drop_zero]
      exact processLoop_from hv hs hfit
    obtain ⟨h1, h2, h3, _, h5⟩ := validateLoop_succ hv
    have hlt : seq.toNat < startSeq.toNat := by
      rw [UInt64.le_iff_toNat_le] at hs
      exact lt_of_le_of_ne hs fun h => hne (UInt64.toNat_inj.1 h)
    have hnat := toNat_add_one hfit
    rw [processLoop, if_neg (by omega)]
    dsimp only
    rw [if_neg (by omega), if_neg (by rw [UInt64.le_iff_toNat_le]; omega)]
    have hdrop : startSeq.toNat - seq.toNat = startSeq.toNat - (seq + 1).toNat + 1 := by omega
    rw [hdrop, framedMessages, List.drop_succ_cons]
    refine ih h5 ?_ (by omega) (by omega)
    rw [UInt64.le_iff_toNat_le]
    omega

theorem processSequencedPacket_spec {firstSeq startSeq ticks : UInt64} {msgCount : UInt16}
    (hv : validateSequencedPacket data msgCount = .ok) (hs : firstSeq ≤ startSeq)
    (he : startSeq.toNat ≤ firstSeq.toNat + msgCount.toNat)
    (hfit : firstSeq.toNat + msgCount.toNat < 2 ^ 64) :
    Hands d startSeq
      ((framedMessages data msgCount.toNat kHeaderSize).drop (startSeq.toNat - firstSeq.toNat))
      (d.processSequencedPacket data firstSeq msgCount startSeq ticks).1.status
      (d.processSequencedPacket data firstSeq msgCount startSeq ticks).2 := by
  have hend : (firstSeq + msgCount.toUInt64).toNat = firstSeq.toNat + msgCount.toNat := by
    rw [UInt64.toNat_add, UInt16.toNat_toUInt64]
    exact Nat.mod_eq_of_lt hfit
  have hloop : Hands d startSeq _
      (processLoop data startSeq msgCount.toNat kHeaderSize firstSeq 0 d).1
      (processLoop data startSeq msgCount.toNat kHeaderSize firstSeq 0 d).2.2 :=
    processLoop_spec hv hs he hfit
  unfold processSequencedPacket
  dsimp only
  rw [if_neg]
  · split_ifs with h1 h2
    · exact hloop
    · rw [not_not.1 h1] at hloop
      exact hloop
    · rw [not_not.1 h1] at hloop
      exact hloop
  · rw [UInt64.lt_iff_toNat_lt, UInt64.lt_iff_toNat_lt, hend]
    rw [UInt64.le_iff_toNat_le] at hs
    omega

/-! ## What handing messages over leaves alone -/

attribute [simp] setStatus setNextExpectedSeq setWatermark eraseBuffered

/-- Only the parser, the channel's phase and the record of messages have changed. -/
def SameButParsed (d d' : MoldUdpDecoder) : Prop :=
  ∃ parser phase handed, d' =
    { d with parser := parser, handed := handed, channel := { d.channel with phase := phase } }

theorem sameButParsed_handAll (d : MoldUdpDecoder) (seq : UInt64) (msgs : List (List UInt8)) :
    SameButParsed d (d.handAll seq msgs) := by
  induction msgs generalizing d seq with
  | nil => exact ⟨d.parser, d.channel.phase, d.handed, rfl⟩
  | cons msg msgs ih =>
    obtain ⟨parser, phase, handed, h⟩ := ih (d.handMessage seq msg) (seq + 1)
    exact ⟨parser, phase, handed, h⟩

/-- A field that neither handing a message over nor the status touches. -/
structure Unparsed {β : Type*} (F : MoldUdpDecoder → β) : Prop where
  handMessage : ∀ d seq msg, F (d.handMessage seq msg) = F d
  setStatus : ∀ d status, F (d.setStatus status) = F d

theorem unparsed_gapBuffer : Unparsed fun d => d.channel.gapBuffer :=
  ⟨fun _ _ _ => rfl, fun _ _ => rfl⟩

theorem unparsed_terminalStatus : Unparsed fun d => d.terminalStatus :=
  ⟨fun _ _ _ => rfl, fun _ _ => rfl⟩

section Unparsed

variable {β : Type*} {F : MoldUdpDecoder → β}

theorem Unparsed.processLoop (hF : Unparsed F) {startSeq seq processed : UInt64} :
    F (processLoop data startSeq n offset seq processed d).2.2 = F d := by
  induction n generalizing offset seq processed d with
  | zero => rfl
  | succ n ih =>
    rw [MoldUdpDecoder.processLoop]
    dsimp only
    split_ifs
    · rfl
    · rfl
    · exact (hF.setStatus _ _).trans (hF.handMessage _ _ _)
    · exact ih.trans (hF.handMessage _ _ _)
    · exact ih

theorem Unparsed.processSequencedPacket (hF : Unparsed F) {firstSeq startSeq ticks : UInt64}
    {msgCount : UInt16} :
    F (d.processSequencedPacket data firstSeq msgCount startSeq ticks).2 = F d := by
  unfold MoldUdpDecoder.processSequencedPacket
  dsimp only
  split_ifs
  · rfl
  · exact hF.processLoop
  · exact hF.processLoop
  · exact hF.processLoop

/-- The drain erases packets and moves the next sequence on besides. -/
theorem Unparsed.drainLoop (hF : Unparsed F) (herase : ∀ d seq, F (d.eraseBuffered seq) = F d)
    (hnext : ∀ d seq, F (d.setNextExpectedSeq seq) = F d) {fuel : ℕ} {aggregate : DecodeResult} :
    F (drainLoop fuel aggregate d).2 = F d := by
  induction fuel generalizing aggregate d with
  | zero => rfl
  | succ fuel ih =>
    rw [MoldUdpDecoder.drainLoop]
    cases d.drainCandidate with
    | none => rfl
    | some e =>
      have happlied : F ((d.processBuffered e).2.eraseBuffered e.seq) = F d :=
        (herase _ _).trans hF.processSequencedPacket
      dsimp only
      split_ifs
      · exact ih.trans (herase _ _)
      · exact (hF.setStatus _ _).trans happlied
      · exact ih.trans ((hnext _ _).trans happlied)

end Unparsed

theorem processBuffered_gapBuffer (e : SequencedPacket) :
    (d.processBuffered e).2.channel.gapBuffer = d.channel.gapBuffer :=
  unparsed_gapBuffer.processSequencedPacket

/-! ## The drain -/

variable {e : SequencedPacket}

/-- The search does not go below the sequence zero. -/
theorem toNat_sub_distance {next : UInt64} {distance : ℕ} (h : distance ≤ next.toNat) :
    (next - distance.toUInt64).toNat = next.toNat - distance := by
  have hlt := next.toNat_lt
  have hdist : distance.toUInt64.toNat = distance := Nat.mod_eq_of_lt (by omega)
  rw [UInt64.toNat_sub_of_le, hdist]
  rw [UInt64.le_iff_toNat_le, hdist]
  exact h

/-- A candidate is found in the table, and begins at most `144` sequences back. -/
theorem find_of_drainCandidate (h : d.drainCandidate = some e) :
    d.channel.gapBuffer.find e.seq = some e ∧ Buffered d e
      ∧ e.seq.toNat ≤ d.channel.nextExpectedSeq.toNat
      ∧ d.channel.nextExpectedSeq.toNat ≤ e.seq.toNat + kMaxMessagesPerStoredPacket := by
  obtain ⟨distance, hmem, hfind⟩ := List.exists_of_findSome?_eq_some h
  obtain ⟨hhas, hseq⟩ := GapBuffer.has_of_find hfind
  have hle : distance ≤ min d.channel.nextExpectedSeq.toNat kMaxMessagesPerStoredPacket :=
    Nat.lt_succ_iff.1 (List.mem_range.1 hmem)
  have hnat : e.seq.toNat = d.channel.nextExpectedSeq.toNat - distance := by
    rw [hseq, toNat_sub_distance (by omega)]
  refine ⟨by rw [hseq]; exact hfind, hhas, ?_, ?_⟩ <;> omega

/-- A round that goes on has erased the candidate, overtaken or applied. -/
theorem drainRound_inr {a a' : DecodeResult} {d' : MoldUdpDecoder}
    (h : drainRound (a, d) = .inr (a', d')) :
    ∃ e, d.drainCandidate = some e ∧ a'.status = a.status
      ∧ (e.endSeq ≤ d.channel.nextExpectedSeq ∧ d' = d.eraseBuffered e.seq
        ∨ d.channel.nextExpectedSeq < e.endSeq ∧ (d.processBuffered e).1.status = .ok
          ∧ d' = ((d.processBuffered e).2.eraseBuffered e.seq).setNextExpectedSeq e.endSeq) := by
  rw [drainRound] at h
  cases hc : d.drainCandidate with
  | none =>
    rw [hc] at h
    cases h
  | some e =>
    rw [hc] at h
    dsimp only at h
    refine ⟨e, rfl, ?_⟩
    split_ifs at h with hend hst
    · cases h
      exact ⟨rfl, .inl ⟨hend, rfl⟩⟩
    · cases h
      exact ⟨rfl, .inr ⟨UInt64.not_le.1 hend, not_not.1 hst, rfl⟩⟩

/-- A round that returns has found nothing, or a message that is refused. -/
theorem drainRound_inl {a : DecodeResult} {out : DecodeResult × MoldUdpDecoder}
    (h : drainRound (a, d) = .inl out) :
    d.drainCandidate = none ∧ out = (a, d)
      ∨ ∃ e, d.drainCandidate = some e ∧ d.channel.nextExpectedSeq < e.endSeq
        ∧ (d.processBuffered e).1.status ≠ .ok ∧ out.1.status = (d.processBuffered e).1.status
        ∧ out.2 = ((d.processBuffered e).2.eraseBuffered e.seq).setStatus .invalid := by
  rw [drainRound] at h
  cases hc : d.drainCandidate with
  | none =>
    rw [hc] at h
    exact .inl ⟨rfl, (Sum.inl_injective h).symm⟩
  | some e =>
    rw [hc] at h
    dsimp only at h
    split_ifs at h with hend hst
    cases h
    exact .inr ⟨e, rfl, UInt64.not_le.1 hend, hst, rfl, rfl⟩

theorem drainLoop_eq_iterate (fuel : ℕ) (a : DecodeResult) (d : MoldUdpDecoder) :
    drainLoop fuel a d = (Loop.iterate drainRound fuel (a, d)).elim id id := by
  induction fuel generalizing a d with
  | zero => rfl
  | succ fuel ih =>
    rw [drainLoop, Loop.iterate, drainRound]
    cases d.drainCandidate with
    | none => rfl
    | some e =>
      dsimp only
      split_ifs
      · exact ih _ _
      · rfl
      · exact ih _ _

/-- How the drain ends: with nothing left in reach, or with a message that is refused. -/
inductive DrainEnd (I : MoldUdpDecoder → Prop) : DecodeStatus → MoldUdpDecoder → Prop
  | clear (d : MoldUdpDecoder) (h : I d) (hc : d.drainCandidate = none) : DrainEnd I .ok d
  | refused (d : MoldUdpDecoder) (e : SequencedPacket) (h : I d) (hc : d.drainCandidate = some e)
      (hlt : d.channel.nextExpectedSeq < e.endSeq) (hst : (d.processBuffered e).1.status ≠ .ok) :
      DrainEnd I (d.processBuffered e).1.status
        (((d.processBuffered e).2.eraseBuffered e.seq).setStatus .invalid)

section Rule

variable {I : MoldUdpDecoder → Prop}
  (hsized : ∀ d, I d → d.channel.gapBuffer.Sized)
  (herase : ∀ d e, I d → d.drainCandidate = some e → e.endSeq ≤ d.channel.nextExpectedSeq →
    I (d.eraseBuffered e.seq))
  (happly : ∀ d e, I d → d.drainCandidate = some e → d.channel.nextExpectedSeq < e.endSeq →
    (d.processBuffered e).1.status = .ok →
    I (((d.processBuffered e).2.eraseBuffered e.seq).setNextExpectedSeq e.endSeq))

include herase happly in
/-- What both kinds of rounds keep is kept by a round that goes on, and the aggregate stays `ok`. -/
theorem drainRound_keeps (s t : DecodeResult × MoldUdpDecoder) (hs : I s.2 ∧ s.1.status = .ok)
    (h : drainRound s = .inr t) : I t.2 ∧ t.1.status = .ok := by
  obtain ⟨e, hc, hagg, ⟨hend, hd'⟩ | ⟨hend, hst, hd'⟩⟩ := drainRound_inr h
  · rw [hd']
    exact ⟨herase s.2 e hs.1 hc hend, hagg.trans hs.2⟩
  · rw [hd']
    exact ⟨happly s.2 e hs.1 hc hend hst, hagg.trans hs.2⟩

/-- A round that goes on erases its candidate. -/
theorem drainRound_gapBuffer {a a' : DecodeResult} {d' : MoldUdpDecoder}
    (h : drainRound (a, d) = .inr (a', d')) : ∃ e, d.drainCandidate = some e
      ∧ d'.channel.gapBuffer = (d.eraseBuffered e.seq).channel.gapBuffer := by
  obtain ⟨e, hc, _, ⟨_, rfl⟩ | ⟨_, _, rfl⟩⟩ := drainRound_inr h
  · exact ⟨e, hc, rfl⟩
  · exact ⟨e, hc, congrArg (·.erase e.seq) (processBuffered_gapBuffer e)⟩

/-- So it leaves one packet less. -/
theorem drainRound_size {a a' : DecodeResult} {d' : MoldUdpDecoder}
    (hs : d.channel.gapBuffer.Sized) (h : drainRound (a, d) = .inr (a', d')) :
    d'.channel.gapBuffer.size + 1 = d.channel.gapBuffer.size := by
  obtain ⟨e, hc, hbuf⟩ := drainRound_gapBuffer h
  rw [hbuf]
  rcases hs.erase_cases e.seq with ⟨hnone, _⟩ | ⟨_, _, _, hsize, _⟩
  · rw [(find_of_drainCandidate hc).1] at hnone
    cases hnone
  · exact hsize

include hsized herase happly in
/-- The loop returns what the fuel of `drainGapBuffer` gives, after a round for each packet that is
gone by then. -/
theorem drainGapBuffer_returns (hd : I d) :
    ∃ n, Loop.Returns drainRound ({}, d) n d.drainGapBuffer ∧ ∃ a d', I d' ∧ a.status = .ok
      ∧ drainRound (a, d') = .inl d.drainGapBuffer
      ∧ d'.channel.gapBuffer.size + n = d.channel.gapBuffer.size := by
  obtain ⟨n, r, ⟨a, d'⟩, hreturns, hheads, hlast, hcount⟩ :=
    Loop.returns_of_measure drainRound (fun s => s.2.channel.gapBuffer.size)
      (drainRound_keeps herase happly) (fun s t hs h => drainRound_size (hsized s.2 hs.1) h)
      (s := ({}, d)) ⟨hd, rfl⟩
  have hr : d.drainGapBuffer = r := by
    unfold drainGapBuffer
    rw [drainLoop_eq_iterate, hreturns.iterate (by dsimp only at hcount; omega)]
    rfl
  have hkept := hheads.rule (I := fun s => I s.2 ∧ s.1.status = .ok) ⟨hd, rfl⟩
    (drainRound_keeps herase happly)
  rw [hr]
  exact ⟨n, hreturns, a, d', hkept.1, hkept.2, hlast, hcount⟩

include hsized herase happly in
/-- What both kinds of rounds keep holds when the drain ends. -/
theorem drainGapBuffer_rule (hd : I d) :
    DrainEnd I d.drainGapBuffer.1.status d.drainGapBuffer.2 := by
  obtain ⟨_, _, a, d', hd', ha, hlast, _⟩ := drainGapBuffer_returns hsized herase happly hd
  rcases drainRound_inl hlast with ⟨hc, hout⟩ | ⟨e, hc, hlt, hst, hstatus, hout⟩
  · rw [hout, ha]
    exact .clear d' hd' hc
  · rw [hstatus, hout]
    exact .refused d' e hd' hc hlt hst

end Rule

end MoldUdpDecoder

end AstraFeed
