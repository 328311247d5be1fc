import AstraFeed.StockDirectoryRun

/-!
# The directory is a bijection

A ticker leads back to the one locate it is registered with (`directory_bijection`): the reverse
index is never more than half full, so a probe meets a free slot before it is round.
-/

namespace AstraFeed

open Function

namespace StockDirectory

/-! ## Tickers -/

section Tickers

variable {e : StockDirectoryEntry}

theorem tickerView_isPrefix (e : StockDirectoryEntry) : tickerView e <+: e.ticker.chars :=
  (List.takeWhile_prefix _).trans (List.take_prefix 8 _)

theorem length_tickerView (e : StockDirectoryEntry) : (tickerView e).length ≤ 8 :=
  ((List.takeWhile_prefix _).length_le).trans (List.length_take_le 8 _)

theorem ne_zero_of_mem_tickerView {c : UInt8} (h : c ∈ tickerView e) : c ≠ 0 := by
  have hall := List.all_takeWhile (l := e.ticker.chars.take 8) (p := (· ≠ 0))
  simpa using List.all_eq_true.1 hall c h

/-- The first character decides whether there is a ticker. -/
theorem tickerView_ne_nil : tickerView e ≠ [] ↔ e.ticker.chars.getD 0 0 ≠ 0 := by
  have hlen := e.ticker.length_eq
  unfold tickerView
  cases hchars : e.ticker.chars with
  | nil =>
    rw [hchars] at hlen
    cases hlen
  | cons c cs =>
    rw [List.take_succ_cons, List.takeWhile_cons, List.getD_cons_zero]
    by_cases hc : c = 0
    · simp [hc]
    · simp [hc]

theorem canonicalEntry_chars (l : UInt16) (e : StockDirectoryEntry) :
    (canonicalEntry l e (tickerView e)).ticker.chars
      = tickerView e ++ List.replicate (9 - (tickerView e).length) 0 := by
  have hlen := length_tickerView e
  have htake : e.ticker.chars.take (tickerView e).length = tickerView e :=
    (List.prefix_iff_eq_take.1 (tickerView_isPrefix e)).symm
  show (e.ticker.chars.take (tickerView e).length).take 9
    ++ List.replicate (9 - (e.ticker.chars.take (tickerView e).length).length) 0 = _
  rw [htake, List.take_of_length_le (by omega)]

theorem takeWhile_tickerView_append (e : StockDirectoryEntry) (n : ℕ) :
    (tickerView e ++ List.replicate n 0).takeWhile (· ≠ 0) = tickerView e := by
  rw [List.takeWhile_append_of_pos]
  · cases n <;> simp
  · intro c hc
    simpa using ne_zero_of_mem_tickerView hc

/-- What is stored of a ticker is the ticker. -/
theorem tickerView_canonicalEntry (l : UInt16) (e : StockDirectoryEntry) :
    tickerView (canonicalEntry l e (tickerView e)) = tickerView e := by
  rw [tickerView, canonicalEntry_chars, List.take_append,
    List.take_of_length_le (length_tickerView e), List.take_replicate, takeWhile_tickerView_append]

theorem cString_canonicalEntry (l : UInt16) (e : StockDirectoryEntry) :
    (canonicalEntry l e (tickerView e)).ticker.cString = tickerView e := by
  rw [Ticker.cString, canonicalEntry_chars, takeWhile_tickerView_append]

end Tickers

variable {d : StockDirectory} {l : UInt16} {e : StockDirectoryEntry} {t : List UInt8}

theorem isRegistered_iff :
    d.isRegistered l = true ↔ isValidStockLocate l = true ∧ d.tickerAt l ≠ [] := by
  rw [tickerAt, tickerView_ne_nil]
  simp [isRegistered]

theorem registeredAs_iff : d.RegisteredAs l t ↔ d.isRegistered l = true ∧ d.tickerAt l = t := by
  unfold RegisteredAs get tickerAt
  constructor
  · rintro ⟨e, he, ht⟩
    split_ifs at he with hreg
    rw [← Option.some_inj.1 he] at ht
    exact ⟨hreg, ht⟩
  · rintro ⟨hreg, ht⟩
    exact ⟨d.entries l, if_pos hreg, ht⟩

theorem reverse_eq_none {slot : ℕ} : d.reverse slot = none ↔ d.tickerIndex slot = 0 := by
  unfold reverse
  split_ifs with h
  · exact iff_of_true rfl h
  · exact iff_of_false (by simp) h

theorem reverse_eq_some {slot : ℕ} :
    d.reverse slot = some l ↔ d.tickerIndex slot = l ∧ l ≠ 0 := by
  unfold reverse
  split_ifs with h
  · refine iff_of_false (by simp) ?_
    rintro ⟨rfl, hne⟩
    exact hne h
  · rw [Option.some_inj]
    refine ⟨fun heq => ⟨heq, heq ▸ h⟩, fun heq => heq.1⟩

/-! ## Storing an entry -/

/-- The directory with an entry stored. -/
def stored (d : StockDirectory) (l : UInt16) (e : StockDirectoryEntry) : StockDirectory :=
  { d with entries := update d.entries l (canonicalEntry l e (tickerView e)) }

theorem tickerAt_stored (d : StockDirectory) (l l' : UInt16) (e : StockDirectoryEntry) :
    (d.stored l e).tickerAt l' = if l' = l then tickerView e else d.tickerAt l' := by
  unfold tickerAt stored
  dsimp only
  rw [update_apply]
  split_ifs
  · exact tickerView_canonicalEntry l e
  · rfl

/-- Storing an entry registers its locate. -/
theorem isRegistered_stored (hl : isValidStockLocate l = true) (ht : tickerView e ≠ [])
    (l' : UInt16) : (d.stored l e).isRegistered l' = true ↔ l' = l ∨ d.isRegistered l' = true := by
  rw [isRegistered_iff, isRegistered_iff, tickerAt_stored]
  by_cases hne : l' = l
  · rw [if_pos hne, hne]
    exact iff_of_true ⟨hl, ht⟩ (.inl rfl)
  · rw [if_neg hne]
    exact (or_iff_right hne).symm

theorem set_cases (d : StockDirectory) (l : UInt16) (e : StockDirectoryEntry) :
    d.set l e = (false, d)
    ∨ isValidStockLocate l = true ∧ tickerView e ≠ [] ∧ (d.set l e).1 = true
      ∧ (d.set l e).2.entries
        = update d.entries l (canonicalEntry l e (tickerView e)) := by
  unfold set
  by_cases hv : isValidStockLocate l = true
  swap
  · rw [if_pos (by simpa using hv)]
    exact .inl rfl
  rw [if_neg (by simp [hv])]
  dsimp only
  by_cases ht : tickerView e = []
  · rw [if_pos ht]
    exact .inl rfl
  rw [if_neg ht]
  cases d.get l with
  | some existing =>
    dsimp only
    split_ifs
    · exact .inl rfl
    · exact .inr ⟨hv, ht, rfl, rfl⟩
  | none =>
    dsimp only
    split_ifs
    · exact .inl rfl
    · exact .inl rfl
    · exact .inr ⟨hv, ht, rfl, rfl⟩

/-- A locate that is registered with the ticker is refreshed. -/
theorem set_of_registeredAs (h : d.RegisteredAs l (tickerView e)) :
    d.set l e = (true, d.stored l e) := by
  obtain ⟨hreg, ht⟩ := registeredAs_iff.1 h
  obtain ⟨hvalid, hnil⟩ := isRegistered_iff.1 hreg
  rw [ht] at hnil
  have hget : d.get l = some (d.entries l) := if_pos hreg
  have hsame : tickerView (d.entries l) = tickerView e := ht
  unfold set
  rw [if_neg (by simp [hvalid])]
  dsimp only
  rw [if_neg hnil, hget]
  dsimp only
  rw [if_neg (not_not.2 hsame)]
  rfl

/-- Storing what is stored changes nothing. -/
theorem stored_eq_self (h : d.entries l = canonicalEntry l e (tickerView e)) :
    d.stored l e = d := by
  unfold stored
  rw [← h, update_eq_self]

/-- A call that is carried out registers its locate. -/
theorem isRegistered_set_iff (h : (d.set l e).1 = true) (l' : UInt16) :
    (d.set l e).2.isRegistered l' = true ↔ l' = l ∨ d.isRegistered l' = true := by
  rcases set_cases d l e with hs | ⟨hv, ht, _, hentries⟩
  · rw [hs] at h
    cases h
  · rw [← isRegistered_stored hv ht]
    unfold isRegistered
    rw [hentries]
    rfl

theorem registeredAs_of_set (h : (d.set l e).1 = true) :
    (d.set l e).2.RegisteredAs l (tickerView e) := by
  refine registeredAs_iff.2 ⟨(isRegistered_set_iff h l).2 (.inl rfl), ?_⟩
  rcases set_cases d l e with hs | ⟨_, _, _, hentries⟩
  · rw [hs] at h
    cases h
  · rw [tickerAt, hentries, update_self]
    exact tickerView_canonicalEntry l e

theorem isRegistered_of_set (h : (d.set l e).2.isRegistered l' = true) :
    l' = l ∨ d.isRegistered l' = true := by
  rcases set_cases d l e with hs | ⟨_, _, hset, _⟩
  · rw [hs] at h
    exact .inr h
  · exact (isRegistered_set_iff hset l').1 h

/-! ## Probing -/

theorem land_kTickerIndexMask (x : ℕ) : x &&& kTickerIndexMask = x % kTickerIndexCapacity :=
  Nat.and_two_pow_sub_one_eq_mod x 17

theorem firstSlot_lt (t : List UInt8) : firstSlot t < kTickerIndexCapacity := by
  rw [firstSlot, land_kTickerIndexMask]
  exact Nat.mod_lt _ (by decide)

theorem mod_eq_walk (t : List UInt8) {k : ℕ} (hk : k < kTickerIndexCapacity) :
    (firstSlot t + k) % kTickerIndexCapacity = Probe.walk kTickerIndexCapacity (firstSlot t) k := by
  have hf := firstSlot_lt t
  unfold Probe.walk
  split_ifs with h
  · exact Nat.mod_eq_of_lt h
  · rw [Nat.mod_eq_sub_mod (by omega), Nat.mod_eq_of_lt (by omega)]

theorem next_slot (start k : ℕ) :
    ((start + k) % kTickerIndexCapacity + 1) &&& kTickerIndexMask
      = (start + (k + 1)) % kTickerIndexCapacity := by
  rw [land_kTickerIndexMask, Nat.mod_add_mod, Nat.add_assoc]

/-- What the lookup of a ticker finds: its locate, or none that has it. -/
inductive Found (d : StockDirectory) (t : List UInt8) : UInt16 → Prop
  | found {l : UInt16} (hl : l ≠ 0) (hreg : d.isRegistered l = true) (ht : d.tickerAt l = t) :
      Found d t l
  | missing (h : ∀ l, d.isRegistered l = true → d.tickerAt l ≠ t) : Found d t 0

theorem Ok.locateForTickerLoop_found (h : d.Ok) {probes k : ℕ}
    (hk : k + probes = kTickerIndexCapacity)
    (hbefore : ∀ k' < k, ∀ l, d.reverse (Probe.walk kTickerIndexCapacity (firstSlot t) k') = some l →
      d.tickerAt l ≠ t) :
    Found d t (d.locateForTickerLoop t probes ((firstSlot t + k) % kTickerIndexCapacity)) := by
  induction probes generalizing k with
  | zero =>
    refine .missing fun l hreg => ?_
    exact Probe.absent_of_round firstSlot_lt (fun k' hk' => hbefore k' (by omega))
      ((h.has_iff l).2 hreg)
  | succ probes ih =>
    have hwalk := mod_eq_walk t (k := k) (by omega)
    rw [locateForTickerLoop]
    split_ifs with hfree htick
    · refine .missing fun l hreg => ?_
      refine h.table.absent_of_free firstSlot_lt (d := k) ?_ hbefore ((h.has_iff l).2 hreg)
      rw [← hwalk]
      exact reverse_eq_none.2 hfree
    · refine .found hfree ((h.has_iff _).1 ?_) htick
      exact ⟨_, Nat.mod_lt _ (by decide), reverse_eq_some.2 ⟨rfl, hfree⟩⟩
    · rw [next_slot]
      refine ih (by omega) fun k' hk' l hl => ?_
      rcases Nat.lt_succ_iff_lt_or_eq.1 hk' with hlt | rfl
      · exact hbefore k' hlt l hl
      · rw [← hwalk, reverse_eq_some] at hl
        rw [← hl.1]
        exact htick

theorem Ok.locateForTicker_found (h : d.Ok) (t : List UInt8) : Found d t (d.locateForTicker t) := by
  unfold locateForTicker
  split_ifs with ht
  · refine .missing fun l hreg => ?_
    rw [ht]
    exact (isRegistered_iff.1 hreg).2
  · have hloop := h.locateForTickerLoop_found (t := t) (k := 0) (Nat.zero_add _)
      fun k' hk' => absurd hk' (Nat.not_lt_zero k')
    rwa [Nat.add_zero, Nat.mod_eq_of_lt (firstSlot_lt t)] at hloop

/-- Two locates do not share a ticker. -/
theorem Ok.ticker_inj (h : d.Ok) {l' : UInt16} (hl : d.isRegistered l = true)
    (hl' : d.isRegistered l' = true) (ht : d.tickerAt l = d.tickerAt l') : l = l' := by
  obtain ⟨i, hi, hs⟩ := (h.has_iff l).2 hl
  obtain ⟨j, hj, hs'⟩ := (h.has_iff l').2 hl'
  obtain rfl := h.table.unique i hi j hj l l' hs hs' ht
  rw [hs] at hs'
  exact Option.some_inj.1 hs'

theorem ne_zero_of_registered (h : d.isRegistered l = true) : l ≠ 0 :=
  bne_iff_ne.1 (isRegistered_iff.1 h).1

theorem Ok.locateForTicker_iff (h : d.Ok) (hl : isValidStockLocate l = true) :
    d.locateForTicker t = l ↔ d.RegisteredAs l t := by
  have hne : l ≠ 0 := bne_iff_ne.1 hl
  rw [registeredAs_iff]
  have hfound := h.locateForTicker_found t
  constructor
  · intro heq
    rw [heq] at hfound
    cases hfound with
    | found _ hreg ht => exact ⟨hreg, ht⟩
    | missing _ => exact absurd rfl hne
  · rintro ⟨hreg, ht⟩
    generalize d.locateForTicker t = found at hfound
    cases hfound with
    | found _ hreg' ht' => exact h.ticker_inj hreg' hreg (ht'.trans ht.symm)
    | missing hnone => exact absurd ht (hnone l hreg)

theorem Ok.locateForTicker_eq_zero (h : d.Ok) :
    d.locateForTicker t = 0 ↔ ∀ l, ¬ d.RegisteredAs l t := by
  have hfound := h.locateForTicker_found t
  constructor
  · intro h0 l hl
    have hreg := (registeredAs_iff.1 hl).1
    have hat := (h.locateForTicker_iff (isRegistered_iff.1 hreg).1).2 hl
    exact ne_zero_of_registered hreg (hat.symm.trans h0)
  · intro hnone
    generalize d.locateForTicker t = found at hfound
    cases hfound with
    | found _ hreg ht => exact absurd (registeredAs_iff.2 ⟨hreg, ht⟩) (hnone _)
    | missing _ => rfl

/-! ## The free slot -/

theorem finite_locates (S : Set UInt16) : S.Finite :=
  have : Finite UInt16 := .of_injective UInt16.toFin fun _ _ h => UInt16.toFin_inj.1 h
  Set.toFinite S

theorem ncard_locates_le (S : Set UInt16) : S.ncard ≤ kStockLocateSlots := by
  have hinj : Set.InjOn UInt16.toNat S := fun _ _ _ _ h => UInt16.toNat_inj.1 h
  rw [← hinj.ncard_image]
  have hsub : UInt16.toNat '' S ⊆ ↑(Finset.range kStockLocateSlots) := by
    rintro _ ⟨l, _, rfl⟩
    exact Finset.mem_coe.2 (Finset.mem_range.2 l.toNat_lt)
  refine (Set.ncard_le_ncard hsub (Finset.finite_toSet _)).trans_eq ?_
  rw [Set.ncard_coe_finset, Finset.card_range]

theorem Ok.exists_free (h : d.Ok) (t : List UInt8) :
    ∃ k < kTickerIndexCapacity,
      d.tickerIndex ((firstSlot t + k) % kTickerIndexCapacity) = kInvalidStockLocate := by
  have hlt : Probe.count kTickerIndexCapacity d.reverse < kTickerIndexCapacity := by
    rw [← h.count_reverse, h.count_registered]
    exact (ncard_locates_le _).trans_lt (by decide)
  obtain ⟨i, hi, hfree⟩ := Probe.exists_free hlt
  have hd := Probe.dist_lt (firstSlot_lt t) hi
  refine ⟨_, hd, ?_⟩
  rw [mod_eq_walk t hd, Probe.walk_dist (firstSlot_lt t) hi]
  exact reverse_eq_none.1 hfree

theorem emptyReverseSlotLoop_spec {probes k : ℕ} (hk : k + probes = kTickerIndexCapacity)
    (hbefore : ∀ k' < k, d.reverse (Probe.walk kTickerIndexCapacity (firstSlot t) k') ≠ none)
    (hfree : ∃ k' < kTickerIndexCapacity,
      d.tickerIndex ((firstSlot t + k') % kTickerIndexCapacity) = kInvalidStockLocate) :
    ∃ n < kTickerIndexCapacity,
      d.emptyReverseSlotLoop probes ((firstSlot t + k) % kTickerIndexCapacity)
        = Probe.walk kTickerIndexCapacity (firstSlot t) n
      ∧ d.reverse (Probe.walk kTickerIndexCapacity (firstSlot t) n) = none
      ∧ ∀ k' < n, d.reverse (Probe.walk kTickerIndexCapacity (firstSlot t) k') ≠ none := by
  induction probes generalizing k with
  | zero =>
    obtain ⟨k', hk', h0⟩ := hfree
    rw [mod_eq_walk t hk'] at h0
    exact absurd (reverse_eq_none.2 h0) (hbefore k' (by omega))
  | succ probes ih =>
    have hwalk := mod_eq_walk t (k := k) (by omega)
    rw [emptyReverseSlotLoop]
    split_ifs with h0
    · rw [hwalk] at h0 ⊢
      exact ⟨k, by omega, rfl, reverse_eq_none.2 h0, hbefore⟩
    · rw [next_slot]
      refine ih (by omega) fun k' hk' => ?_
      rcases Nat.lt_succ_iff_lt_or_eq.1 hk' with hlt | rfl
      · exact hbefore k' hlt
      · rw [← hwalk]
        exact reverse_eq_none.not.2 h0

theorem Ok.emptyReverseSlot_spec (h : d.Ok) (t : List UInt8) :
    ∃ n < kTickerIndexCapacity,
      d.emptyReverseSlot t = Probe.walk kTickerIndexCapacity (firstSlot t) n
      ∧ d.reverse (Probe.walk kTickerIndexCapacity (firstSlot t) n) = none
      ∧ ∀ k' < n, d.reverse (Probe.walk kTickerIndexCapacity (firstSlot t) k') ≠ none := by
  have hloop := emptyReverseSlotLoop_spec (d := d) (t := t) (k := 0) (Nat.zero_add _)
    (fun k' hk' => absurd hk' (Nat.not_lt_zero k')) (h.exists_free t)
  rwa [Nat.add_zero, Nat.mod_eq_of_lt (firstSlot_lt t)] at hloop

/-! ## Registering -/

/-- Which calls are carried out. -/
def Registrable (d : StockDirectory) (l : UInt16) (e : StockDirectoryEntry) : Prop :=
  isValidStockLocate l = true ∧ tickerView e ≠ []
    ∧ (d.isRegistered l = false ∨ d.RegisteredAs l (tickerView e))
    ∧ ∀ l' ≠ l, ¬ d.RegisteredAs l' (tickerView e)

/-- A call is refused, refreshes an entry, or registers one in the first free slot. -/
theorem Ok.set_cases (h : d.Ok) (l : UInt16) (e : StockDirectoryEntry) :
    ¬ d.Registrable l e ∧ d.set l e = (false, d)
    ∨ d.Registrable l e ∧ d.RegisteredAs l (tickerView e) ∧ d.set l e = (true, d.stored l e)
    ∨ d.Registrable l e ∧ d.isRegistered l = false
      ∧ ∃ n < kTickerIndexCapacity,
        let slot := Probe.walk kTickerIndexCapacity (firstSlot (tickerView e)) n
        d.reverse slot = none
        ∧ (∀ k < n, d.reverse
          (Probe.walk kTickerIndexCapacity (firstSlot (tickerView e)) k) ≠ none)
        ∧ d.set l e = (true, { d.stored l e with
          tickerIndex := update d.tickerIndex slot l
          count := d.count + 1 }) := by
  unfold set
  by_cases hvalid : isValidStockLocate l = true
  swap
  · rw [if_pos (by simpa using hvalid)]
    exact .inl ⟨fun hr => hvalid hr.1, rfl⟩
  rw [if_neg (by simpa using hvalid)]
  dsimp only
  by_cases hnil : tickerView e = []
  · rw [if_pos hnil]
    exact .inl ⟨fun hr => hr.2.1 hnil, rfl⟩
  rw [if_neg hnil]
  by_cases hreg : d.isRegistered l = true
  · have hget : d.get l = some (d.entries l) := if_pos hreg
    rw [hget]
    dsimp only
    by_cases ht : tickerView (d.entries l) = tickerView e
    · have has : d.RegisteredAs l (tickerView e) := ⟨_, hget, ht⟩
      rw [if_neg (not_not.2 ht)]
      refine .inr (.inl ⟨⟨hvalid, hnil, .inr has, fun l' hne has' => hne ?_⟩, has, rfl⟩)
      obtain ⟨hreg', ht'⟩ := registeredAs_iff.1 has'
      exact h.ticker_inj hreg' hreg (ht'.trans ht.symm)
    · rw [if_pos ht]
      refine .inl ⟨fun hr => ?_, rfl⟩
      rcases hr.2.2.1 with hno | has
      · rw [hreg] at hno
        cases hno
      · exact ht (registeredAs_iff.1 has).2
  · have hget : d.get l = none := if_neg hreg
    rw [hget]
    dsimp only
    by_cases h0 : d.locateForTicker (tickerView e) = kInvalidStockLocate
    · obtain ⟨n, hn, hslot, hfree, hbefore⟩ := h.emptyReverseSlot_spec (tickerView e)
      have hlt := Probe.walk_lt (firstSlot_lt (tickerView e)) hn
      rw [if_neg (not_not.2 h0), hslot, if_neg hlt.ne]
      refine .inr (.inr ⟨⟨hvalid, hnil, .inl (by simpa using hreg), fun l' _ => ?_⟩,
        by simpa using hreg, n, hn, hfree, hbefore, rfl⟩)
      exact h.locateForTicker_eq_zero.1 h0 l'
    · rw [if_pos h0]
      refine .inl ⟨fun hr => h0 (h.locateForTicker_eq_zero.2 fun l' has => ?_), rfl⟩
      by_cases hl : l' = l
      · rw [hl] at has
        exact hreg (registeredAs_iff.1 has).1
      · exact hr.2.2.2 l' hl has

theorem Ok.refresh (h : d.Ok) (hreg : d.RegisteredAs l (tickerView e)) : (d.stored l e).Ok := by
  obtain ⟨hl, ht⟩ := registeredAs_iff.1 hreg
  have hnil : tickerView e ≠ [] := by
    rw [← ht]
    exact (isRegistered_iff.1 hl).2
  have hat : (d.stored l e).tickerAt = d.tickerAt := by
    funext l'
    rw [tickerAt_stored]
    split_ifs with hl'
    · rw [hl', ht]
    · rfl
  have hiff : ∀ l', (d.stored l e).isRegistered l' = true ↔ d.isRegistered l' = true := by
    intro l'
    rw [isRegistered_stored (isRegistered_iff.1 hl).1 hnil]
    exact or_iff_right_of_imp fun heq => heq ▸ hl
  refine ⟨?_, fun l' => (h.has_iff l').trans (hiff l').symm, h.count_reverse, ?_⟩
  · rw [hat]
    exact h.table
  · rw [Set.ext hiff]
    exact h.count_registered

theorem Ok.register (h : d.Ok) (hl : isValidStockLocate l = true) (ht : tickerView e ≠ [])
    (hreg : d.isRegistered l = false) (hnone : ∀ l' ≠ l, ¬ d.RegisteredAs l' (tickerView e)) {n : ℕ}
    (hn : n < kTickerIndexCapacity)
    (hfree : d.reverse (Probe.walk kTickerIndexCapacity (firstSlot (tickerView e)) n) = none)
    (hbefore : ∀ k < n, d.reverse
      (Probe.walk kTickerIndexCapacity (firstSlot (tickerView e)) k) ≠ none) :
    Ok { d.stored l e with
      tickerIndex := update d.tickerIndex
        (Probe.walk kTickerIndexCapacity (firstSlot (tickerView e)) n) l
      count := d.count + 1 } := by
  have hl0 : l ≠ 0 := bne_iff_ne.1 hl
  have hlt := Probe.walk_lt (firstSlot_lt (tickerView e)) hn
  -- the locate is not in the table yet, so its new ticker changes no key of it
  have habsent : ∀ l', Probe.Has kTickerIndexCapacity d.reverse l' → l' ≠ l := by
    rintro l' hhas rfl
    rw [(h.has_iff l').1 hhas] at hreg
    cases hreg
  have hkey : (d.stored l e).tickerAt l = tickerView e := by
    rw [tickerAt_stored, if_pos rfl]
  have hkeys : ∀ l', Probe.Has kTickerIndexCapacity d.reverse l' →
      (d.stored l e).tickerAt l' = d.tickerAt l' := by
    intro l' hhas
    rw [tickerAt_stored, if_neg (habsent l' hhas)]
  have hreverse : StockDirectory.reverse { d.stored l e with
      tickerIndex := update d.tickerIndex
        (Probe.walk kTickerIndexCapacity (firstSlot (tickerView e)) n) l
      count := d.count + 1 }
      = update d.reverse (Probe.walk kTickerIndexCapacity (firstSlot (tickerView e)) n)
        (some l) := by
    funext slot
    by_cases hs : slot = Probe.walk kTickerIndexCapacity (firstSlot (tickerView e)) n
    · rw [hs, update_self]
      exact reverse_eq_some.2 ⟨update_self .., hl0⟩
    · rw [update_of_ne hs]
      unfold reverse
      simp only [update_of_ne hs]
  have hplaced := (h.table.of_key hkeys).place firstSlot_lt (e := l) hn
    (by rw [hkey]; exact hbefore) fun l' hhas hk => by
      rw [hkey, hkeys l' hhas] at hk
      exact hnone l' (habsent l' hhas) (registeredAs_iff.2 ⟨(h.has_iff l').1 hhas, hk⟩)
  rw [hkey] at hplaced
  refine ⟨?_, fun l' => ?_, ?_, ?_⟩
  · rw [hreverse]
    exact hplaced
  · rw [hreverse, Probe.has_update_some hlt hfree, h.has_iff]
    exact (isRegistered_stored hl ht l').symm
  · rw [hreverse, Probe.count_update_some hlt hfree, h.count_reverse]
  · have hset : {l' | (d.stored l e).isRegistered l' = true}
        = insert l {l' | d.isRegistered l' = true} := Set.ext (isRegistered_stored hl ht)
    show d.count + 1 = {l' | (d.stored l e).isRegistered l' = true}.ncard
    have hnot : l ∉ {l' | d.isRegistered l' = true} := by
      rw [Set.mem_ofPred_eq, hreg]
      simp
    rw [hset, Set.ncard_insert_of_notMem hnot (finite_locates _), h.count_registered]

theorem Ok.set (h : d.Ok) (l : UInt16) (e : StockDirectoryEntry) : (d.set l e).2.Ok := by
  rcases h.set_cases l e with ⟨_, hset⟩ | ⟨_, has, hset⟩
    | ⟨hr, hreg, n, hn, hfree, hbefore, hset⟩
  · rw [hset]
    exact h
  · rw [hset]
    exact h.refresh has
  · rw [hset]
    exact h.register hr.1 hr.2.1 hreg hr.2.2.2 hn hfree hbefore

theorem fresh_ok : fresh.Ok := by
  have hreverse : ∀ slot, fresh.reverse slot = none := fun _ => rfl
  have hhas : ∀ l, ¬ Probe.Has kTickerIndexCapacity fresh.reverse l := by
    rintro l ⟨i, _, hi⟩
    cases hi
  have hreg : ∀ l, ¬ fresh.isRegistered l = true := by
    intro l hl
    exact (isRegistered_iff.1 hl).2 rfl
  refine ⟨⟨fun i _ _ _ a _ ha => absurd ha (by simp [hreverse]),
    fun j _ l hl => absurd hl (by simp [hreverse])⟩,
    fun l => iff_of_false (hhas l) (hreg l), (Probe.count_eq_zero.2 hhas).symm, ?_⟩
  have hempty : {l | fresh.isRegistered l = true} = ∅ := Set.eq_empty_iff_forall_notMem.2 hreg
  rw [hempty, Set.ncard_empty]
  rfl

/-- A registered locate keeps its ticker. -/
theorem Ok.registeredAs_set (h : d.Ok) {l' : UInt16} (has : d.RegisteredAs l t)
    (e : StockDirectoryEntry) : (d.set l' e).2.RegisteredAs l t := by
  obtain ⟨hreg, ht⟩ := registeredAs_iff.1 has
  -- whatever is stored at the locate has its ticker
  have hkeep : d.Registrable l' e → (d.stored l' e).RegisteredAs l t := by
    rintro ⟨hvalid, hnil, hsame, _⟩
    rw [registeredAs_iff, isRegistered_stored hvalid hnil, tickerAt_stored]
    refine ⟨.inr hreg, ?_⟩
    split_ifs with hl
    · rw [← hl] at hsame
      rcases hsame with hno | hsame
      · rw [hreg] at hno
        cases hno
      · exact (registeredAs_iff.1 hsame).2.symm.trans ht
    · exact ht
  rcases h.set_cases l' e with ⟨_, hset⟩ | ⟨hr, _, hset⟩ | ⟨hr, _, n, _, _, _, hset⟩
  · rw [hset]
    exact has
  · rw [hset]
    exact hkeep hr
  · rw [hset]
    exact hkeep hr

theorem Ok.run (h : d.Ok) (calls : List (UInt16 × StockDirectoryEntry)) : (d.run calls).Ok := by
  induction calls generalizing d with
  | nil => exact h
  | cons call calls ih => exact ih (h.set call.1 call.2)

theorem Ok.registeredAs_run (h : d.Ok) (has : d.RegisteredAs l t)
    (calls : List (UInt16 × StockDirectoryEntry)) : (d.run calls).RegisteredAs l t := by
  induction calls generalizing d with
  | nil => exact has
  | cons call calls ih => exact ih (h.set call.1 call.2) (h.registeredAs_set has call.2)

/-- After any calls, tickers and registered locates belong together one to one, a probe meets a free
slot, and a call is carried out exactly when it keeps that, and registers its ticker then; a
registered ticker never changes. -/
theorem directory_bijection (calls : List (UInt16 × StockDirectoryEntry)) :
    let d := fresh.run calls
    (∀ t l, isValidStockLocate l = true → (d.locateForTicker t = l ↔ d.RegisteredAs l t))
    ∧ (∀ t l l', d.RegisteredAs l t → d.RegisteredAs l' t → l = l')
    ∧ (∀ t l, d.RegisteredAs l t → ∀ later, (d.run later).RegisteredAs l t)
    ∧ d.size = {l | d.isRegistered l = true}.ncard
    ∧ (∀ t, (∃ k < kTickerIndexCapacity,
        d.tickerIndex ((firstSlot t + k) % kTickerIndexCapacity) = kInvalidStockLocate)
      ∧ d.emptyReverseSlot t < kTickerIndexCapacity)
    ∧ (∀ l e, (d.set l e).1 = true ↔ isValidStockLocate l = true ∧ tickerView e ≠ []
      ∧ (d.isRegistered l = false ∨ d.RegisteredAs l (tickerView e))
      ∧ ∀ l' ≠ l, ¬ d.RegisteredAs l' (tickerView e))
    ∧ (∀ l e, (d.set l e).1 = true → (d.set l e).2.RegisteredAs l (tickerView e))
    ∧ ∀ l e, (d.set l e).1 = false → (d.set l e).2 = d := by
  intro d
  have h : d.Ok := fresh_ok.run calls
  refine ⟨fun t l hl => h.locateForTicker_iff hl, fun t l l' has has' => ?_,
    fun t l has later => h.registeredAs_run has later, h.count_registered,
    fun t => ⟨h.exists_free t, ?_⟩, fun l e => ?_, fun l e hset => registeredAs_of_set hset,
    fun l e hno => ?_⟩
  · obtain ⟨hl, ht⟩ := registeredAs_iff.1 has
    obtain ⟨hl', ht'⟩ := registeredAs_iff.1 has'
    exact h.ticker_inj hl hl' (ht.trans ht'.symm)
  · obtain ⟨n, hn, hslot, _⟩ := h.emptyReverseSlot_spec t
    rw [hslot]
    exact Probe.walk_lt (firstSlot_lt t) hn
  · change _ ↔ d.Registrable l e
    rcases h.set_cases l e with ⟨hr, hset⟩ | ⟨hr, _, hset⟩ | ⟨hr, _, n, _, _, _, hset⟩
    · rw [hset]
      exact iff_of_false (by simp) hr
    · rw [hset]
      exact iff_of_true rfl hr
    · rw [hset]
      exact iff_of_true rfl hr
  · rcases h.set_cases l e with ⟨_, hset⟩ | ⟨_, _, hset⟩ | ⟨_, _, n, _, _, _, hset⟩
    · rw [hset]
    · rw [hset] at hno
      cases hno
    · rw [hset] at hno
      cases hno

end StockDirectory

end AstraFeed
