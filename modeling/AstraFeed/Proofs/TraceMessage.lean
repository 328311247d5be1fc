import AstraFeed.Proofs.DirectoryRefresh
import AstraFeed.Proofs.ItchTraceProfile

/-!
# What the profiler makes of a message

A message that leaves no fault has its length, its time and its place in the day, and is handed to
the observer of its type (`observeMessage_spec`). Faults, pages and references are never taken back
(`grows_observeAll`).
-/

namespace AstraFeed

namespace ItchTraceProfile

open Function Wire ItchParser

namespace Stats

variable {s s' : Stats} {msg : List UInt8} {l : UInt16}

/-! ## What grows -/

theorem Grows.refl (s : Stats) : Grows s s := (frame_refl s).toGrows

theorem reads_ite {c : Prop} [Decidable c] {a b : Stats} (ha : c → Reads s a)
    (hb : ¬ c → Reads s b) : Reads s (if c then a else b) := by
  split_ifs with h
  · exact ha h
  · exact hb h

theorem frame_countIf (s : Stats) {fault : Fault} (h : fault ≠ .malformedRecords)
    (condition : Bool) : Frame s (s.countIf fault condition) :=
  frame_ite (frame_bump _ h) (frame_refl _)

theorem frame_observeOrderRef (s : Stats) (r : UInt64) : Frame s (s.observeOrderRef r) := by
  unfold observeOrderRef
  split_ifs with h
  · exact ⟨⟨⟨fun _ => le_rfl, Finset.Subset.refl _, UInt64.le_of_lt h⟩, rfl⟩, rfl, rfl, rfl, rfl,
      rfl⟩
  · exact frame_refl s

theorem le_observeOrderRef (s : Stats) (r : UInt64) : r ≤ (s.observeOrderRef r).maxOrderRef := by
  unfold observeOrderRef
  split_ifs with h
  · exact UInt64.le_refl r
  · exact UInt64.not_lt.1 h

theorem frame_observePrice (s : Stats) (x : UInt32) : Frame s (s.observePrice x) :=
  frame_countIf _ (by decide) _

theorem frame_observeAddIdentity (s : Stats) (l : UInt16) (msg : List UInt8) :
    Frame s (s.observeAddIdentity l msg) :=
  frame_ite (frame_bump _ (by decide)) (frame_countIf _ (by decide) _)

theorem reads_observeDirectory (s : Stats) (l : UInt16) (msg : List UInt8) :
    Reads s (s.observeDirectory l msg) := by
  have hkeep : ∀ t : Stats, ∀ tickers directory, Reads s t → Reads s { t with
      directoryTickerLocates := tickers
      directory := directory } :=
    fun t _ _ h => ⟨⟨h.faults, h.ever, h.maxOrderRef⟩, h.malformed⟩
  have hcounted : ∀ c c', Reads s ((s.countIf .conflictingDirectoryIdentities c).countIf
      .conflictingDirectoryAfterSystemHours c') :=
    fun _ _ => ((frame_countIf s (by decide) _).trans (frame_countIf _ (by decide) _)).toReads
  unfold observeDirectory
  dsimp only
  refine reads_ite (fun _ => (frame_bump _ (by decide)).toReads) fun _ =>
    reads_ite (fun _ => hcounted _ _) fun _ => ?_
  split
  · exact hkeep _ _ _ ((hcounted _ _).trans (frame_countIf _ (by decide) _).toReads)
  · exact hkeep _ _ _ (hkeep _ _ _ (hcounted _ _))

theorem reads_observeSystemEvent (s : Stats) (code : UInt8) :
    Reads s (s.observeSystemEvent code) := by
  have hkeep : ∀ t : Stats, ∀ systemEventE started ended, Reads s t → Reads s { t with
      systemEventE := systemEventE
      systemHoursStarted := started
      systemHoursEnded := ended } :=
    fun t _ _ _ h => ⟨⟨h.faults, h.ever, h.maxOrderRef⟩, h.malformed⟩
  have hseen : ∀ seen, Reads s { s with dailySystemEventsSeen := seen } :=
    fun _ => ⟨⟨fun _ => le_rfl, Finset.Subset.refl _, UInt64.le_refl _⟩, rfl⟩
  have hdaily : Reads s (if code ∈ kDailySystemEvents then
      if kDailySystemEvents[s.dailySystemEventsSeen]? ≠ some code then
        s.bump .systemEventSequenceErrors
      else { s with dailySystemEventsSeen := s.dailySystemEventsSeen + 1 }
      else if code = byte 'A' ∨ code = byte 'R' ∨ code = byte 'B' then s
      else s.bump .unsupportedSystemEventCodes) :=
    reads_ite (fun _ => reads_ite (fun _ => (frame_bump s (by decide)).toReads) fun _ => hseen _)
      fun _ => reads_ite (fun _ => (frame_refl s).toReads) fun _ =>
        (frame_bump s (by decide)).toReads
  unfold observeSystemEvent
  exact reads_ite (fun _ => hkeep _ _ _ _ hdaily) fun _ =>
    reads_ite (fun _ => hkeep _ _ _ _ hdaily) fun _ =>
      reads_ite (fun _ => hkeep _ _ _ _ hdaily) fun _ => hdaily

theorem ifLong_of_le {n : ℕ} (h : n ≤ msg.length) (f : Stats → Stats) :
    s.ifLong msg n f = f s := if_neg (Nat.not_lt.2 h)

theorem reads_ifLong {n : ℕ} (h : n ≤ msg.length) {f : Stats → Stats} (hf : Reads s (f s)) :
    Reads s (s.ifLong msg n f) := by
  rw [ifLong_of_le h]
  exact hf

theorem reads_observeType (s : Stats) (hsize : WellSized msg) (l : UInt16) :
    Reads s (s.observeType msg (byteAt msg 0) l) := by
  have hseen := frame_observeOrderRef s (readU64BE msg 11)
  have hlen : ∀ n {c : Char}, byteAt msg 0 = byte c →
      n ≤ expectedItchMessageLength (byte c) → n ≤ msg.length := by
    intro n c hbyte hn
    rw [hsize.2, hbyte]
    exact hn
  unfold observeType
  refine reads_ite (fun h => reads_ifLong ?_ ?_) fun _ =>
    reads_ite (fun h => reads_ifLong (hlen 31 h (by decide)) ?_) fun _ =>
    reads_ite (fun h => reads_ifLong (hlen 36 h (by decide)) ?_) fun _ =>
    reads_ite (fun h => reads_ifLong (hlen 23 h (by decide)) ?_) fun _ =>
    reads_ite (fun h => reads_ifLong (hlen 19 h (by decide)) ?_) fun _ =>
    reads_ite (fun h => reads_ifLong (hlen 35 h (by decide)) ?_) fun _ =>
    reads_ite (fun h => reads_ifLong (hlen 19 h (by decide)) (frame_refl s).toReads) fun _ =>
    reads_ite (fun h => reads_ifLong (hlen 39 h (by decide)) ?_) fun _ =>
    reads_ite (fun h => reads_ifLong (hlen 12 h (by decide)) ?_) fun _ => (frame_refl s).toReads
  · rcases h with h | h <;> rw [h]
    · exact hlen 36 h (by decide)
    · exact hlen 40 h (by decide)
  · exact (hseen.trans ((frame_observePrice _ _).trans ((frame_observeAddIdentity _ _ _).trans
      (frame_profileAdd _ _ _ _ _ _)))).toReads
  · exact (hseen.trans (frame_profileExecution _ _ _ _)).toReads
  · exact (hseen.trans ((frame_profileExecution _ _ _ _).trans (frame_observePrice _ _))).toReads
  · exact (hseen.trans (frame_profileCancel _ _ _ _)).toReads
  · exact (hseen.trans (frame_profileDelete _ _ _)).toReads
  · exact (hseen.trans ((frame_observeOrderRef _ _).trans ((frame_observePrice _ _).trans
      (frame_profileReplace _ _ _ _ _ _)))).toReads
  · exact reads_observeDirectory _ _ _
  · exact reads_observeSystemEvent _ _

/-- A message of its type's length is not counted as malformed. -/
theorem reads_observeMessage (s : Stats) (hsize : WellSized msg) :
    Reads s (s.observeMessage msg) := by
  have hlen : msg.length ≠ 0 := mt List.length_eq_zero_iff.1 hsize.1
  unfold observeMessage
  rw [if_neg hlen]
  dsimp only
  rw [if_neg (by rw [← hsize.2]; simp [hlen])]
  exact ((frame_countIf s (by decide) _).trans ((frame_countIf _ (by decide) _).trans
    (frame_countIf _ (by decide) _))).toReads.trans (reads_observeType _ hsize _)

theorem grows_observeMessage (s : Stats) (msg : List UInt8) : Grows s (s.observeMessage msg) := by
  by_cases hsize : WellSized msg
  · exact (reads_observeMessage s hsize).toGrows
  unfold observeMessage
  by_cases hnil : msg.length = 0
  · rw [if_pos hnil]
    exact Grows.refl s
  · rw [if_neg hnil]
    dsimp only
    by_cases hbad : expectedItchMessageLength (byteAt msg 0) = 0 ∨
        msg.length ≠ expectedItchMessageLength (byteAt msg 0)
    · rw [if_pos hbad]
      exact grows_bump _ _
    · rw [not_or, not_not] at hbad
      exact absurd ⟨mt List.length_eq_zero_iff.2 hnil, hbad.2⟩ hsize

theorem grows_observeAll (s : Stats) (messages : List (List UInt8)) :
    Grows s (s.observeAll messages) := by
  induction messages generalizing s with
  | nil => exact Grows.refl s
  | cons msg messages ih => exact (grows_observeMessage s msg).trans (ih _)

/-! ## The observer of a type -/

/-- What a message without a fault passed before its type was looked at. -/
structure Observed (s : Stats) (msg : List UInt8) : Prop where
  sized : WellSized msg
  timestamp : readU48BE msg kTimestampOffset < kNanosecondsPerDay
  late : s.systemHoursEnded = true → IsType msg ['X', 'D', 'B'] ∨ IsEvent msg 'C'
  started : IsOrderMessage msg → s.systemHoursStarted = true
  eq : s.observeMessage msg = s.observeType msg (byteAt msg 0) (readU16BE msg 1)

theorem observeMessage_spec (hne : msg ≠ []) (hf : (s.observeMessage msg).Faultless) :
    Observed s msg := by
  have hlen : msg.length ≠ 0 := mt List.length_eq_zero_iff.1 hne
  unfold observeMessage at hf
  rw [if_neg hlen] at hf
  dsimp only at hf
  obtain ⟨hsize, heq⟩ := ite_faultless hf
  rw [heq] at hf
  rw [not_or, not_not] at hsize
  have hlocate : ¬ msg.length < 3 := by
    have := (show WellSized msg from ⟨hne, hsize.2⟩).length_bounds.1
    omega
  rw [if_pos (Nat.not_lt.1 hlocate)] at hf heq
  have hcounted := (reads_observeType _ ⟨hne, hsize.2⟩ _).toGrows.faultless hf
  obtain ⟨hstarted, hs3⟩ := countIf_faultless hcounted
  rw [hs3] at hcounted hf
  obtain ⟨hended, hs2⟩ := countIf_faultless hcounted
  rw [hs2] at hcounted hf
  obtain ⟨htime, hs1⟩ := countIf_faultless hcounted
  rw [hs1] at hstarted hended hs2 hs3
  rw [hs2] at hstarted hs3
  refine ⟨⟨hne, hsize.2⟩, UInt64.not_le.1 (of_decide_eq_false htime), fun hend => ?_,
    fun horder => ?_, ?_⟩
  · rw [hend, Bool.true_and, decide_eq_false_iff_not] at hended
    by_contra hno
    refine hended ⟨fun h => hno (.inl ⟨_, by simp, h⟩), fun h => hno (.inl ⟨_, by simp, h⟩),
      fun h => hno (.inl ⟨_, by simp, h⟩), fun h => hno (.inr h)⟩
  · obtain ⟨c, hc, htype⟩ := horder
    have hall : ∀ c ∈ ['A', 'F', 'E', 'C', 'X', 'D', 'U'], byte c = byte 'A' ∨ byte c = byte 'F'
        ∨ byte c = byte 'E' ∨ byte c = byte 'C' ∨ byte c = byte 'X' ∨ byte c = byte 'D'
        ∨ byte c = byte 'U' := by decide
    by_contra hno
    rw [Bool.not_eq_true] at hno
    rw [hno, Bool.not_false, Bool.true_and, decide_eq_false_iff_not, htype] at hstarted
    exact hstarted (hall c hc)
  · unfold observeMessage
    rw [if_neg hlen]
    dsimp only
    rw [if_pos (Nat.not_lt.1 hlocate), heq, hs1, hs2, hs3]

/-! ## Messages about orders -/

theorem valid_of_observePrice {x : UInt32} (h : (s.observePrice x).Faultless) :
    isValidItchPrice4 x.toUInt64 = true ∧ s.observePrice x = s := by
  obtain ⟨hx, heq⟩ := countIf_faultless h
  refine ⟨decide_eq_true ?_, heq⟩
  have hle := UInt32.not_lt.1 (of_decide_eq_false hx)
  rw [UInt64.le_iff_toNat_le, UInt32.toNat_toUInt64, UInt32.toNat_toUInt64]
  exact UInt32.le_iff_toNat_le.1 hle

theorem stock_of_observeAddIdentity (h : (s.observeAddIdentity l msg).Faultless) :
    s.directory l = ⟨stockField msg kAddStockOffset, true⟩ ∧ s.observeAddIdentity l msg = s := by
  unfold observeAddIdentity at h ⊢
  obtain ⟨hseen, heq⟩ := ite_faultless h
  rw [heq] at h ⊢
  obtain ⟨hmatch, heq⟩ := countIf_faultless h
  refine ⟨?_, heq⟩
  rw [Bool.not_eq_false', tickerMatches, beq_iff_eq] at hmatch
  have hseen : (s.directory l).seen = true := by simpa using hseen
  cases hdir : s.directory l with
  | mk ticker seen =>
    rw [hdir] at hmatch hseen
    exact congrArg₂ _ hmatch hseen

theorem Ok.observeOrderRef (h : s.Ok) (r : UInt64) : (s.observeOrderRef r).Ok := by
  unfold Stats.observeOrderRef
  split_ifs
  · exact ⟨h.side, h.levels, h.pages.level, h.pages.page⟩
  · exact h

/-- The references a day has shown do not matter to the books. -/
theorem Applies.of_observeOrderRef {op : BookOp} {r : UInt64}
    (h : Applies (s.observeOrderRef r) op s') : Applies s op s' := by
  unfold observeOrderRef at h
  split_ifs at h
  · exact ⟨h.faultless, h.admits, h.live, h.used, h.ever, h.ok⟩
  · exact h

/-- The stats have changed by the operation of the message. -/
def Performs (s : Stats) (msg : List UInt8) (s' : Stats) : Prop :=
  ∃ op, Asks s msg op ∧ Applies s op s' ∧ Frame s s' ∧ ∀ r ∈ op.newReference, r ≤ s'.maxOrderRef

theorem performs_add (hok : s.Ok) (htype : IsType msg ['A', 'F']) (heq : s' =
      (((s.observeOrderRef (readU64BE msg 11)).observePrice (readU32BE msg 32)).observeAddIdentity
        (readU16BE msg 1) msg).profileAdd (readU16BE msg 1) (readU64BE msg 11) (readU32BE msg 32)
        (readU32BE msg 20) (byteAt msg 19)) (hf : s'.Faultless) (hb : s'.Bounded) :
    Performs s msg s' := by
  rw [heq] at hf hb ⊢
  have hid := (frame_profileAdd _ _ _ _ _ _).faultless hf
  obtain ⟨hstock, heq⟩ := stock_of_observeAddIdentity hid
  rw [heq] at hid hf hb ⊢
  obtain ⟨hx, heq⟩ := valid_of_observePrice hid
  rw [heq] at hstock hf hb ⊢
  rw [(frame_observeOrderRef s _).directory] at hstock
  have happ := applies_profileAdd (hok.observeOrderRef _) hx (readU48BE msg kTimestampOffset) hf hb
  refine ⟨_, .add htype hstock, happ.of_observeOrderRef,
    (frame_observeOrderRef _ _).trans (frame_profileAdd _ _ _ _ _ _), ?_⟩
  rintro _ ⟨⟩
  exact UInt64.le_trans (le_observeOrderRef s _) (frame_profileAdd _ _ _ _ _ _).maxOrderRef

theorem performs_execute (hok : s.Ok) (htype : IsType msg ['E', 'C'])
    (hprice : byteAt msg 0 = byte 'C' → isValidItchPrice4 (readU32BE msg 32).toUInt64 = true)
    (heq : s' = (s.observeOrderRef (readU64BE msg 11)).profileExecution (readU16BE msg 1)
      (readU64BE msg 11) (readU32BE msg 19)) (hf : s'.Faultless) : Performs s msg s' := by
  rw [heq] at hf ⊢
  have happ := applies_profileExecution (hok.observeOrderRef _) (readU48BE msg kTimestampOffset) hf
  exact ⟨_, .execute htype hprice, happ.of_observeOrderRef,
    (frame_observeOrderRef _ _).trans (frame_profileExecution _ _ _ _), by rintro _ ⟨⟩⟩

theorem performs_cancel (hok : s.Ok) (htype : IsType msg ['X'])
    (heq : s' = (s.observeOrderRef (readU64BE msg 11)).profileCancel (readU16BE msg 1)
      (readU64BE msg 11) (readU32BE msg 19)) (hf : s'.Faultless) : Performs s msg s' := by
  rw [heq] at hf ⊢
  have happ := applies_profileCancel (hok.observeOrderRef _) (readU48BE msg kTimestampOffset) hf
  exact ⟨_, .cancel htype, happ.of_observeOrderRef,
    (frame_observeOrderRef _ _).trans (frame_profileCancel _ _ _ _), by rintro _ ⟨⟩⟩

theorem performs_delete (hok : s.Ok) (htype : IsType msg ['D'])
    (heq : s' = (s.observeOrderRef (readU64BE msg 11)).profileDelete (readU16BE msg 1)
      (readU64BE msg 11)) (hf : s'.Faultless) : Performs s msg s' := by
  rw [heq] at hf ⊢
  have happ := applies_profileDelete (hok.observeOrderRef _) (readU48BE msg kTimestampOffset) hf
  exact ⟨_, .delete htype, happ.of_observeOrderRef,
    (frame_observeOrderRef _ _).trans (frame_profileDelete _ _ _), by rintro _ ⟨⟩⟩

theorem performs_replace (hok : s.Ok) (htype : IsType msg ['U']) (heq : s' =
      (((s.observeOrderRef (readU64BE msg 11)).observeOrderRef (readU64BE msg 19)).observePrice
        (readU32BE msg 31)).profileReplace (readU16BE msg 1) (readU64BE msg 11)
        (readU64BE msg 19) (readU32BE msg 31) (readU32BE msg 27))
    (hf : s'.Faultless) (hb : s'.Bounded) : Performs s msg s' := by
  rw [heq] at hf hb ⊢
  obtain ⟨hx, heq⟩ := valid_of_observePrice ((frame_profileReplace _ _ _ _ _ _).faultless hf)
  rw [heq] at hf hb ⊢
  obtain ⟨hne, happ⟩ := applies_profileReplace ((hok.observeOrderRef _).observeOrderRef _) hx
    (readU48BE msg kTimestampOffset) hf hb
  refine ⟨_, .replace htype hne, happ.of_observeOrderRef.of_observeOrderRef,
    ((frame_observeOrderRef _ _).trans (frame_observeOrderRef _ _)).trans
      (frame_profileReplace _ _ _ _ _ _), ?_⟩
  rintro _ ⟨⟩
  exact UInt64.le_trans (le_observeOrderRef _ _) (frame_profileReplace _ _ _ _ _ _).maxOrderRef

/-- A message about orders that leaves no fault stands for an operation that the stats have changed
by. -/
theorem Observed.performs (h : Observed s msg) (hok : s.Ok) (horder : IsOrderMessage msg)
    (hf : (s.observeMessage msg).Faultless) (hb : (s.observeMessage msg).Bounded) :
    Performs s msg (s.observeMessage msg) := by
  have hlen : ∀ n {c : Char}, byteAt msg 0 = byte c →
      n ≤ expectedItchMessageLength (byte c) → n ≤ msg.length := by
    intro n c hbyte hn
    rw [h.sized.2, hbyte]
    exact hn
  obtain ⟨c, hc, htype⟩ := horder
  have heq := h.eq
  rw [htype] at heq
  unfold observeType at heq
  simp only [List.mem_cons, List.not_mem_nil, or_false] at hc
  rcases hc with rfl | rfl | rfl | rfl | rfl | rfl | rfl
  · rw [if_pos (by decide),
      ifLong_of_le (hlen (if byte 'A' = byte 'F' then 40 else 36) htype (by decide))] at heq
    exact performs_add hok ⟨_, by simp, htype⟩ heq hf hb
  · rw [if_pos (by decide),
      ifLong_of_le (hlen (if byte 'F' = byte 'F' then 40 else 36) htype (by decide))] at heq
    exact performs_add hok ⟨_, by simp, htype⟩ heq hf hb
  · rw [if_neg (by decide), if_pos rfl, ifLong_of_le (hlen 31 htype (by decide))] at heq
    refine performs_execute hok ⟨_, by simp, htype⟩ ?_ heq hf
    rw [htype]
    exact fun h => absurd h (by decide)
  · rw [if_neg (by decide), if_neg (by decide), if_pos rfl,
      ifLong_of_le (hlen 36 htype (by decide))] at heq
    have hprice := hf
    rw [heq] at hprice
    obtain ⟨hx, hsame⟩ := valid_of_observePrice hprice
    exact performs_execute hok ⟨_, by simp, htype⟩ (fun _ => hx) (heq.trans hsame) hf
  · rw [if_neg (by decide), if_neg (by decide), if_neg (by decide), if_pos rfl,
      ifLong_of_le (hlen 23 htype (by decide))] at heq
    exact performs_cancel hok ⟨_, by simp, htype⟩ heq hf
  · rw [if_neg (by decide), if_neg (by decide), if_neg (by decide), if_neg (by decide), if_pos rfl,
      ifLong_of_le (hlen 19 htype (by decide))] at heq
    exact performs_delete hok ⟨_, by simp, htype⟩ heq hf
  · rw [if_neg (by decide), if_neg (by decide), if_neg (by decide), if_neg (by decide),
      if_neg (by decide), if_pos rfl, ifLong_of_le (hlen 35 htype (by decide))] at heq
    exact performs_replace hok ⟨_, by simp, htype⟩ heq hf hb

/-! ## Other messages -/

/-- What a directory message without a fault does. A repeated one does nothing. -/
structure Directs (s : Stats) (l : UInt16) (msg : List UInt8) (s' : Stats) : Prop where
  locate : l ≠ 0
  identity : tickerHasIdentity msg 11 = true
  same : (s.directory l).seen = true → s.directory l = ⟨stockField msg 11, true⟩ ∧ s' = s
  fresh : (s.directory l).seen = false → (∀ l' ∈ s.directoryTickerLocates.lookup (tickerKey msg 11),
      l' = l) ∧ ∃ tickers : UnorderedMap UInt64 UInt16, s' = { s with
        directory := update s.directory l ⟨stockField msg 11, true⟩
        directoryTickerLocates := tickers }
      ∧ tickers.lookup (tickerKey msg 11) = some l
      ∧ ∀ k ≠ tickerKey msg 11, tickers.lookup k = s.directoryTickerLocates.lookup k

theorem observeDirectory_spec (hf : (s.observeDirectory l msg).Faultless) :
    Directs s l msg (s.observeDirectory l msg) := by
  unfold observeDirectory at hf ⊢
  dsimp only at hf ⊢
  obtain ⟨hidentity, heq⟩ := ite_faultless hf
  rw [heq] at hf ⊢
  rw [not_or, Bool.not_eq_true', Bool.not_eq_false] at hidentity
  rcases hseen : (s.directory l).seen with _ | _
  · rw [hseen] at hf
    have hcount : ∀ fault, s.countIf fault false = s := fun _ => rfl
    simp only [Bool.false_and, Bool.and_false, hcount, Bool.false_eq_true, if_false] at hf ⊢
    refine ⟨hidentity.1, hidentity.2, fun h => ?_, fun _ => ?_⟩
    · rw [hseen] at h
      cases h
    rcases hlookup : s.directoryTickerLocates.lookup (tickerKey msg 11) with _ | other
    · refine ⟨by rintro _ ⟨⟩, _, rfl, AList.lookup_insert _, fun k hk => AList.lookup_insert_ne hk⟩
    · rw [hlookup] at hf
      obtain ⟨hother, hsame⟩ := @countIf_faultless s .duplicateDirectoryTickers _ hf
      have hother : other = l := not_not.1 (of_decide_eq_false hother)
      rw [hother] at hlookup hsame ⊢
      dsimp only
      rw [hsame]
      refine ⟨fun l' hl' => (Option.some.inj hl').symm, _, rfl, hlookup, fun _ _ => rfl⟩
  · rw [hseen] at hf
    simp only [Bool.true_and, if_true] at hf ⊢
    have hcounted := (frame_countIf _ (by decide) _).toGrows.faultless hf
    obtain ⟨hmatch, hsame⟩ := countIf_faultless hcounted
    rw [hsame] at hf ⊢
    rw [hmatch, Bool.and_false] at hf ⊢
    refine ⟨hidentity.1, hidentity.2, fun _ => ⟨?_, rfl⟩, fun h => ?_⟩
    · rw [Bool.not_eq_false', tickerMatches, beq_iff_eq] at hmatch
      cases hdir : s.directory l with
      | mk ticker seen =>
        rw [hdir] at hmatch hseen
        exact congrArg₂ _ hmatch hseen
    · rw [hseen] at h
      cases h

/-- What a System Event without a fault does: it is the daily event that is due, or an emergency. -/
inductive Turns (s : Stats) (code : UInt8) : Stats → Prop
  | daily {c : Char} (hcode : code = byte c)
      (hdue : dailyEvents[s.dailySystemEventsSeen]? = some c) : Turns s code { s with
        systemEventE := if c = 'E' then s.systemEventE + 1 else s.systemEventE
        dailySystemEventsSeen := s.dailySystemEventsSeen + 1
        systemHoursStarted := if c = 'S' then true else s.systemHoursStarted
        systemHoursEnded :=
          if c = 'E' then true else if c = 'C' then false else s.systemHoursEnded }
  | emergency (hcode : code = byte 'A' ∨ code = byte 'R' ∨ code = byte 'B') : Turns s code s

theorem observeSystemEvent_spec {code : UInt8} (hf : (s.observeSystemEvent code).Faultless) :
    Turns s code (s.observeSystemEvent code) := by
  unfold observeSystemEvent at hf ⊢
  dsimp only at hf ⊢
  by_cases hdaily : code ∈ kDailySystemEvents
  · rw [if_pos hdaily] at hf ⊢
    -- the flags have nothing to do with the faults
    have hstats : (if kDailySystemEvents[s.dailySystemEventsSeen]? ≠ some code then
        s.bump .systemEventSequenceErrors
        else { s with dailySystemEventsSeen := s.dailySystemEventsSeen + 1 }).Faultless := by
      split_ifs at hf ⊢ <;> exact hf
    obtain ⟨hdue, heq⟩ := ite_faultless hstats
    rw [heq]
    have hmap : kDailySystemEvents = dailyEvents.map byte := rfl
    rw [not_not, hmap, List.getElem?_map, Option.map_eq_some_iff] at hdue
    obtain ⟨c, hdue, rfl⟩ := hdue
    have hturn := Turns.daily (s := s) rfl hdue
    have hmem := List.mem_of_getElem? hdue
    simp only [dailyEvents, List.mem_cons, List.not_mem_nil, or_false] at hmem
    rcases hmem with rfl | rfl | rfl | rfl | rfl | rfl <;> exact hturn
  · have hne : ∀ c ∈ dailyEvents, code ≠ byte c := by
      rintro c hc rfl
      exact hdaily (List.mem_map_of_mem hc)
    rw [if_neg hdaily, if_neg (hne 'S' (by decide)), if_neg (hne 'E' (by decide)),
      if_neg (hne 'C' (by decide))] at hf ⊢
    split_ifs at hf ⊢ with hcode
    · exact .emergency hcode
    · exact absurd hf (not_faultless_bump _ _)

theorem Observed.directs (h : Observed s msg) (htype : byteAt msg 0 = byte 'R')
    (hf : (s.observeMessage msg).Faultless) :
    Directs s (readU16BE msg 1) msg (s.observeMessage msg) := by
  have hlen : 39 ≤ msg.length := by
    rw [h.sized.2, htype]
    decide
  have heq := h.eq
  rw [htype] at heq
  unfold observeType at heq
  rw [if_neg (by decide), if_neg (by decide), if_neg (by decide), if_neg (by decide),
    if_neg (by decide), if_neg (by decide), if_neg (by decide), if_pos rfl,
    ifLong_of_le hlen] at heq
  rw [heq] at hf ⊢
  exact observeDirectory_spec hf

theorem Observed.turns (h : Observed s msg) (htype : byteAt msg 0 = byte 'S')
    (hf : (s.observeMessage msg).Faultless) :
    Turns s (byteAt msg kSystemEventCodeOffset) (s.observeMessage msg) := by
  have hlen : 12 ≤ msg.length := by
    rw [h.sized.2, htype]
    decide
  have heq := h.eq
  rw [htype] at heq
  unfold observeType at heq
  rw [if_neg (by decide), if_neg (by decide), if_neg (by decide), if_neg (by decide),
    if_neg (by decide), if_neg (by decide), if_neg (by decide), if_neg (by decide), if_pos rfl,
    ifLong_of_le hlen] at heq
  rw [heq] at hf ⊢
  exact observeSystemEvent_spec hf

/-- The other types are not looked at. -/
theorem Observed.ignores (h : Observed s msg) (horder : ¬ IsOrderMessage msg)
    (hR : byteAt msg 0 ≠ byte 'R') (hS : byteAt msg 0 ≠ byte 'S') : s.observeMessage msg = s := by
  have hnot : ∀ c ∈ ['A', 'F', 'E', 'C', 'X', 'D', 'U'], byteAt msg 0 ≠ byte c :=
    fun c hc htype => horder ⟨c, hc, htype⟩
  rw [h.eq]
  unfold observeType
  rw [if_neg (not_or.2 ⟨hnot 'A' (by simp), hnot 'F' (by simp)⟩), if_neg (hnot 'E' (by simp)),
    if_neg (hnot 'C' (by simp)), if_neg (hnot 'X' (by simp)), if_neg (hnot 'D' (by simp)),
    if_neg (hnot 'U' (by simp)), if_neg hR, if_neg hS]
  split_ifs with hB
  · refine ifLong_of_le ?_ _
    rw [h.sized.2, hB]
    decide
  · rfl

end Stats

end ItchTraceProfile

end AstraFeed
