import AstraFeed.GapBuffer
import AstraFeed.Lib.Probe

/-!
# The gap buffer is a map

`Ok` is the table's invariant. Under it `find` is a finite map from first sequences to packets,
which `insert` extends, unless the sequence is there, and `erase` restricts.
-/

namespace AstraFeed

namespace GapBuffer

open Function Probe

variable {b : GapBuffer} {seq : UInt64} {packet : SequencedPacket}

theorem kCapacity_eq : kCapacity = 1048576 := rfl

theorem land_kMask (x : ℕ) : x &&& kMask = x % kCapacity := Nat.and_two_pow_sub_one_eq_mod x 20

theorem slotFor_lt (seq : UInt64) : slotFor seq < kCapacity := by
  rw [slotFor, land_kMask]
  exact Nat.mod_lt _ (by decide)

theorem probe_eq_walk {start probes : ℕ} (hs : start < kCapacity) (hp : probes < kCapacity) :
    (start + probes) &&& kMask = walk kCapacity start probes := by
  rw [land_kMask]
  rw [kCapacity_eq] at *
  unfold walk
  split_ifs <;> omega

theorem next_eq_walk {gap t : ℕ} (hg : gap < kCapacity) (ht : t + 1 < kCapacity) :
    next (walk kCapacity gap t) = walk kCapacity gap (t + 1) := by
  rw [next, land_kMask]
  rw [kCapacity_eq] at *
  unfold walk
  split_ifs <;> omega

theorem probeDistance_eq_dist {natural slot : ℕ} (hn : natural < kCapacity)
    (hs : slot < kCapacity) : probeDistance natural slot = dist kCapacity natural slot := by
  rw [probeDistance, land_kMask]
  rw [kCapacity_eq] at *
  unfold Probe.dist
  split_ifs <;> omega

/-- Every slot is accounted for in the size. -/
def Sized (b : GapBuffer) : Prop := b.size = count kCapacity b.slots

/-- The table's invariant. -/
structure Ok (b : GapBuffer) : Prop where
  table : Probe.Ok kCapacity slotFor SequencedPacket.seq b.slots
  size : b.size = count kCapacity b.slots

theorem fresh_ok : fresh.Ok where
  table := ⟨fun _ _ _ _ _ _ h => (Option.some_ne_none _ h.symm).elim,
    fun _ _ _ h => (Option.some_ne_none _ h.symm).elim⟩
  size := by
    refine (count_eq_zero.2 ?_).symm
    rintro e ⟨i, _, he⟩
    exact (Option.some_ne_none _ he.symm)

/-! ## Lookups -/

theorem findLoop_eq_some {start remaining probes slot : ℕ} (hs : start < kCapacity)
    (hr : probes + remaining ≤ kCapacity)
    (h : b.findLoop seq start remaining probes = some slot) :
    slot < kCapacity ∧ ∃ stored, b.slots slot = some stored ∧ stored.seq = seq := by
  induction remaining generalizing probes with
  | zero => cases h
  | succ remaining ih =>
    rw [findLoop] at h
    rw [probe_eq_walk hs (by omega)] at h
    cases hslot : b.slots (walk kCapacity start probes) with
    | none =>
      rw [hslot] at h
      cases h
    | some stored =>
      rw [hslot] at h
      dsimp only at h
      split_ifs at h with hseq
      · obtain rfl := Option.some_inj.1 h
        exact ⟨walk_lt hs (by omega), stored, hslot, hseq⟩
      · exact ih (by omega) h

theorem has_of_find (h : b.find seq = some packet) :
    Has kCapacity b.slots packet ∧ packet.seq = seq := by
  obtain ⟨slot, hslot, hs⟩ := Option.bind_eq_some_iff.1 h
  obtain ⟨hlt, stored, hst, hseq⟩ := findLoop_eq_some (slotFor_lt seq) (by omega) hslot
  rw [hst] at hs
  obtain rfl := Option.some_inj.1 hs
  exact ⟨⟨slot, hlt, hst⟩, hseq⟩

theorem Ok.findLoop_eq_none (hb : b.Ok) {remaining probes : ℕ}
    (hr : probes + remaining = kCapacity)
    (hbefore : ∀ d < probes, ∀ e, b.slots (walk kCapacity (slotFor seq) d) = some e → e.seq ≠ seq)
    (h : b.findLoop seq (slotFor seq) remaining probes = none) :
    ∀ e, Has kCapacity b.slots e → e.seq ≠ seq := by
  induction remaining generalizing probes with
  | zero =>
    intro e he
    exact absent_of_round slotFor_lt
      (fun d hd => hbefore d (by omega)) he
  | succ remaining ih =>
    rw [findLoop] at h
    rw [probe_eq_walk (slotFor_lt seq) (by omega)] at h
    cases hslot : b.slots (walk kCapacity (slotFor seq) probes) with
    | none =>
      intro e he
      exact hb.table.absent_of_free slotFor_lt hslot hbefore he
    | some stored =>
      rw [hslot] at h
      dsimp only at h
      split_ifs at h with hseq
      refine ih (by omega) (fun d hd e he => ?_) h
      rcases Nat.lt_succ_iff_lt_or_eq.1 hd with hd | rfl
      · exact hbefore d hd e he
      · rw [hslot] at he
        rwa [← Option.some_inj.1 he]

/-- `find` finds exactly the packets that wait. -/
theorem Ok.find_iff (hb : b.Ok) :
    b.find seq = some packet ↔ Has kCapacity b.slots packet ∧ packet.seq = seq := by
  constructor
  · exact has_of_find
  · rintro ⟨⟨i, hi, hs⟩, hseq⟩
    unfold find
    cases hf : b.findLoop seq (slotFor seq) kCapacity 0 with
    | none =>
      exact absurd hseq (hb.findLoop_eq_none (by omega) (fun d hd => absurd hd (Nat.not_lt_zero d))
        hf packet ⟨i, hi, hs⟩)
    | some slot =>
      obtain ⟨hlt, stored, hst, hseq'⟩ := findLoop_eq_some (slotFor_lt seq) (by omega) hf
      have : i = slot := hb.table.unique i hi slot hlt packet stored hs hst (hseq.trans hseq'.symm)
      rw [Option.bind_some, ← this, hs]

theorem Ok.find_eq_none (hb : b.Ok) :
    b.find seq = none ↔ ∀ e, Has kCapacity b.slots e → e.seq ≠ seq := by
  rw [Option.eq_none_iff_forall_ne_some]
  constructor
  · intro h e he hseq
    exact h e (hb.find_iff.2 ⟨he, hseq⟩)
  · intro h e hf
    obtain ⟨he, hseq⟩ := hb.find_iff.1 hf
    exact h e he hseq

theorem Sized.empty_iff (hb : b.Sized) : b.empty = true ↔ ∀ e, ¬ Has kCapacity b.slots e := by
  unfold empty
  rw [decide_eq_true_eq, hb, count_eq_zero]

theorem Ok.empty_iff (hb : b.Ok) : b.empty = true ↔ ∀ seq, b.find seq = none := by
  rw [Sized.empty_iff hb.size]
  constructor
  · intro h seq
    rw [hb.find_eq_none]
    exact fun e he => absurd he (h e)
  · intro h e he
    exact hb.find_eq_none.1 (h e.seq) e he rfl

/-! ## Inserting -/

/-- How an insertion of a packet that fits ends. -/
theorem Ok.insertLoop_cases (hb : b.Ok) {remaining probes : ℕ}
    (hr : probes + remaining = kCapacity)
    (hocc : ∀ d < probes, b.slots (walk kCapacity (slotFor packet.seq) d) ≠ none)
    (hbefore : ∀ d < probes, ∀ e, b.slots (walk kCapacity (slotFor packet.seq) d) = some e →
      e.seq ≠ packet.seq) :
    (∃ stored, b.find packet.seq = some stored
      ∧ b.insertLoop packet (slotFor packet.seq) remaining probes
        = (if stored.msgCount ≠ packet.msgCount ∨ stored.data ≠ packet.data then
            .conflictingDuplicate else .duplicateIdentical, b))
    ∨ b.find packet.seq = none ∧ b.insertLoop packet (slotFor packet.seq) remaining probes
        = (.capacityExceeded, b) ∧ b.size = kCapacity
    ∨ b.find packet.seq = none ∧ b.size < kCapacity ∧ ∃ b' : GapBuffer, b'.Ok
      ∧ b'.size = b.size + 1
      ∧ (∀ e, Has kCapacity b'.slots e ↔ e = packet ∨ Has kCapacity b.slots e)
      ∧ b.insertLoop packet (slotFor packet.seq) remaining probes = (.inserted, b') := by
  induction remaining generalizing probes with
  | zero =>
    have habsent : ∀ e, Has kCapacity b.slots e → e.seq ≠ packet.seq := fun e he =>
      absent_of_round slotFor_lt (fun d hd => hbefore d (by omega)) he
    refine .inr (.inl ⟨hb.find_eq_none.2 habsent, rfl, ?_⟩)
    rw [hb.size]
    refine Nat.le_antisymm count_le (Nat.le_of_not_lt fun hlt => ?_)
    obtain ⟨i, hi, hfree⟩ := exists_free hlt
    refine hocc (dist kCapacity (slotFor packet.seq) i) ?_ ?_
    · have := dist_lt (slotFor_lt packet.seq) hi
      omega
    · rw [walk_dist (slotFor_lt packet.seq) hi, hfree]
  | succ remaining ih =>
    have hlt : probes < kCapacity := by omega
    rw [insertLoop]
    rw [probe_eq_walk (slotFor_lt packet.seq) hlt]
    cases hslot : b.slots (walk kCapacity (slotFor packet.seq) probes) with
    | none =>
      have hwlt := walk_lt (slotFor_lt packet.seq) hlt
      have habsent : ∀ e, Has kCapacity b.slots e → e.seq ≠ packet.seq := fun e he =>
        hb.table.absent_of_free slotFor_lt hslot hbefore he
      have hcount := count_lt hwlt hslot
      refine .inr (.inr ⟨hb.find_eq_none.2 habsent, hb.size ▸ hcount,
        ⟨update b.slots (walk kCapacity (slotFor packet.seq) probes) (some packet), b.size + 1⟩,
        ⟨hb.table.place slotFor_lt hlt hocc habsent, ?_⟩, rfl, fun e => ?_, rfl⟩)
      · rw [count_update_some hwlt hslot, hb.size]
      · exact has_update_some hwlt hslot
    | some stored =>
      dsimp only
      by_cases hseq : stored.seq = packet.seq
      · rw [if_pos hseq]
        have hhas : Has kCapacity b.slots stored :=
          ⟨_, walk_lt (slotFor_lt packet.seq) hlt, hslot⟩
        refine .inl ⟨stored, hb.find_iff.2 ⟨hhas, hseq⟩, ?_⟩
        split_ifs <;> rfl
      · rw [if_neg hseq]
        refine ih (by omega) (fun d hd => ?_) fun d hd e he => ?_
        · rcases Nat.lt_succ_iff_lt_or_eq.1 hd with hd | rfl
          · exact hocc d hd
          · rw [hslot]
            simp
        · rcases Nat.lt_succ_iff_lt_or_eq.1 hd with hd | rfl
          · exact hbefore d hd e he
          · rw [hslot] at he
            rwa [← Option.some_inj.1 he]

/-- An insertion finds the sequence there, or the table full, or adds the packet. -/
theorem Ok.insert_cases (hb : b.Ok) (packet : SequencedPacket)
    (hlen : packet.data.length ≤ SequencedPacket.kMaxPacketSize) :
    (∃ stored, b.find packet.seq = some stored ∧ b.insert packet
      = (if stored.msgCount ≠ packet.msgCount ∨ stored.data ≠ packet.data then
          .conflictingDuplicate else .duplicateIdentical, b))
    ∨ b.find packet.seq = none ∧ b.insert packet = (.capacityExceeded, b) ∧ b.size = kCapacity
    ∨ b.find packet.seq = none ∧ b.size < kCapacity ∧ ∃ b' : GapBuffer, b'.Ok
      ∧ b'.size = b.size + 1
      ∧ (∀ seq, b'.find seq = if seq = packet.seq then some packet else b.find seq)
      ∧ b.insert packet = (.inserted, b') := by
  unfold insert
  rw [if_neg (Nat.not_lt.2 hlen)]
  rcases hb.insertLoop_cases (Nat.zero_add kCapacity)
    (fun d hd => absurd hd (Nat.not_lt_zero d)) (fun d hd => absurd hd (Nat.not_lt_zero d)) with
    h | h | ⟨hnone, hlt, b', hb', hsize, hhas, hins⟩
  · exact .inl h
  · exact .inr (.inl h)
  · refine .inr (.inr ⟨hnone, hlt, b', hb', hsize, fun seq => ?_, hins⟩)
    ext e
    rw [hb'.find_iff, hhas]
    split_ifs with hs
    · rw [hs]
      constructor
      · rintro ⟨rfl | he, hseq⟩
        · rfl
        · exact absurd hseq (hb.find_eq_none.1 hnone e he)
      · intro he
        obtain rfl := Option.some_inj.1 he
        exact ⟨.inl rfl, rfl⟩
    · rw [hb.find_iff]
      constructor
      · rintro ⟨rfl | he, hseq⟩
        · exact absurd hseq.symm hs
        · exact ⟨he, hseq⟩
      · rintro ⟨he, hseq⟩
        exact ⟨.inr he, hseq⟩

/-- In any table an insertion changes nothing, or adds the packet. -/
theorem insertLoop_has (hb : b.Sized) {start remaining probes : ℕ} (hs : start < kCapacity)
    (hr : probes + remaining ≤ kCapacity) :
    (∃ result, b.insertLoop packet start remaining probes = (result, b)
      ∧ (result = .capacityExceeded ∨ ∃ stored, Has kCapacity b.slots stored
        ∧ (result = .conflictingDuplicate ∨ result = .duplicateIdentical)))
    ∨ ∃ b' : GapBuffer, b.insertLoop packet start remaining probes = (.inserted, b') ∧ b'.Sized
      ∧ ∀ e, Has kCapacity b'.slots e ↔ e = packet ∨ Has kCapacity b.slots e := by
  induction remaining generalizing probes with
  | zero => exact .inl ⟨_, rfl, .inl rfl⟩
  | succ remaining ih =>
    have hwlt := walk_lt hs (by omega : probes < kCapacity)
    rw [insertLoop, probe_eq_walk hs (by omega)]
    cases hslot : b.slots (walk kCapacity start probes) with
    | none =>
      refine .inr ⟨_, rfl, ?_, fun e => has_update_some hwlt hslot⟩
      show b.size + 1 = count kCapacity (update b.slots _ _)
      rw [count_update_some hwlt hslot, hb]
    | some stored =>
      dsimp only
      split_ifs
      · exact .inl ⟨_, rfl, .inr ⟨stored, ⟨_, hwlt, hslot⟩, .inl rfl⟩⟩
      · exact .inl ⟨_, rfl, .inr ⟨stored, ⟨_, hwlt, hslot⟩, .inr rfl⟩⟩
      · exact ih (by omega)

theorem Sized.insert_cases (hb : b.Sized) (packet : SequencedPacket) :
    (∃ result, b.insert packet = (result, b) ∧ result ≠ .inserted
      ∧ (result = .conflictingDuplicate ∨ result = .duplicateIdentical →
        ∃ stored, Has kCapacity b.slots stored))
    ∨ ∃ b' : GapBuffer, b.insert packet = (.inserted, b') ∧ b'.Sized
      ∧ ∀ e, Has kCapacity b'.slots e ↔ e = packet ∨ Has kCapacity b.slots e := by
  unfold insert
  split_ifs
  · exact .inl ⟨_, rfl, by simp, by simp⟩
  rcases insertLoop_has hb (slotFor_lt packet.seq)
    (by omega : 0 + kCapacity ≤ kCapacity) with ⟨result, hout, hcases⟩ | h
  · refine .inl ⟨result, hout, ?_, fun hres => ?_⟩
    · rcases hcases with rfl | ⟨_, _, rfl | rfl⟩ <;> simp
    · rcases hcases with rfl | ⟨stored, hst, _⟩
      · simp at hres
      · exact ⟨stored, hst⟩
  · exact .inr h

/-! ## Erasing -/

/-- Only an insertion changes the table. -/
theorem insertLoop_buffer {start remaining probes : ℕ}
    (h : (b.insertLoop packet start remaining probes).1 ≠ .inserted) :
    (b.insertLoop packet start remaining probes).2 = b := by
  induction remaining generalizing probes with
  | zero => rfl
  | succ remaining ih =>
    rw [insertLoop] at h ⊢
    cases hslot : b.slots ((start + probes) &&& kMask) with
    | none =>
      simp only [hslot] at h
      exact absurd rfl h
    | some stored =>
      simp only [hslot] at h ⊢
      split_ifs at h ⊢ with h1 h2
      · rfl
      · rfl
      · exact ih h

theorem insert_buffer (h : (b.insert packet).1 ≠ .inserted) : (b.insert packet).2 = b := by
  unfold insert at h ⊢
  split_ifs at h ⊢
  · rfl
  · exact insertLoop_buffer h

theorem walk_ne (gap : ℕ) {t : ℕ} (h0 : 0 < t) (ht : t < kCapacity) :
    walk kCapacity gap t ≠ gap := by
  unfold walk
  split_ifs <;> omega

theorem next_eq_walk_one {slot : ℕ} (hs : slot < kCapacity) :
    next slot = walk kCapacity slot 1 := by
  have h := next_eq_walk (t := 0) hs (by decide)
  rwa [show walk kCapacity slot 0 = slot from if_pos hs] at h

/-- The scan keeps the packets of the table with the hole. -/
theorem eraseAtLoop_has (remaining : ℕ) (slots : ℕ → Option SequencedPacket) {gap t : ℕ}
    (hg : gap < kCapacity) (h0 : 0 < t) (ht : t + remaining ≤ kCapacity) :
    (∀ e, Has kCapacity (eraseAtLoop remaining slots gap (walk kCapacity gap t)) e
        ↔ Has kCapacity (update slots gap none) e)
      ∧ count kCapacity (eraseAtLoop remaining slots gap (walk kCapacity gap t))
        = count kCapacity (update slots gap none) := by
  induction remaining generalizing gap t slots with
  | zero => exact ⟨fun _ => Iff.rfl, rfl⟩
  | succ remaining ih =>
    have htn : t < kCapacity := by omega
    have hs := walk_lt hg htn
    have hne := walk_ne gap h0 htn
    rw [eraseAtLoop]
    cases he : slots (walk kCapacity gap t) with
    | none => exact ⟨fun _ => Iff.rfl, rfl⟩
    | some entry =>
      have hslot : update slots gap none (walk kCapacity gap t) = some entry := by
        rw [update_of_ne hne, he]
      have hfree : update slots gap none gap = none := update_self ..
      dsimp only
      split_ifs
      · obtain ⟨hhas, hcount⟩ := ih (update slots gap (some entry)) hs Nat.one_pos (by omega)
        have hshift := fun e => has_shift (a := e) hg hs hne hfree hslot
        have hcshift := count_shift hg hs hne hfree hslot
        rw [update_idem] at hcshift
        simp only [update_idem] at hshift
        rw [next_eq_walk_one hs]
        exact ⟨fun e => (hhas e).trans (hshift e), hcount.trans hcshift⟩
      · by_cases hlast : remaining = 0
        · rw [hlast]
          exact ⟨fun _ => Iff.rfl, rfl⟩
        · rw [next_eq_walk hg (by omega)]
          exact ih slots hg (Nat.succ_pos t) (by omega)

/-- The scan leaves a proper table when it passes a seam `z` in time: no entry after the seam can
move before it, and a hole that the scan has not passed on can only be behind it. -/
theorem eraseAtLoop_ok (remaining : ℕ) {gap t z : ℕ} {slots : ℕ → Option SequencedPacket}
    (hg : gap < kCapacity) (h0 : 0 < t) (ht : t + remaining ≤ kCapacity)
    (hhole : Hole kCapacity slotFor SequencedPacket.seq (update slots gap none) gap t)
    (hz : z < kCapacity)
    (hseam : Seam kCapacity slotFor SequencedPacket.seq (update slots gap none) z)
    (hlt : dist kCapacity gap z < t + remaining) :
    Probe.Ok kCapacity slotFor SequencedPacket.seq
      (eraseAtLoop remaining slots gap (walk kCapacity gap t)) := by
  induction remaining generalizing gap t slots with
  | zero => exact hhole.finish_of_seam slotFor_lt hg hz hseam hlt
  | succ remaining ih =>
    have htn : t < kCapacity := by omega
    have hs := walk_lt hg htn
    have hne := walk_ne gap h0 htn
    have hd := dist_walk hg htn
    rw [eraseAtLoop]
    cases he : slots (walk kCapacity gap t) with
    | none => exact hhole.finish slotFor_lt hg h0 (.inr (by rw [update_of_ne hne, he]))
    | some entry =>
      have hslot : update slots gap none (walk kCapacity gap t) = some entry := by
        rw [update_of_ne hne, he]
      dsimp only
      rw [probeDistance_eq_dist (slotFor_lt _) hg, probeDistance_eq_dist (slotFor_lt _) hs]
      by_cases hmove : dist kCapacity (slotFor entry.seq) gap
          < dist kCapacity (slotFor entry.seq) (walk kCapacity gap t)
      · have hle := hseam.dist_le slotFor_lt hz hg hs hslot hmove
        have hadd := dist_add hg hs hz hle
        have hhole' := hhole.shift hg h0 htn hslot hmove
        have hseam' := hseam.shift hs hslot hmove
        rw [update_idem] at hhole' hseam'
        rw [if_pos hmove, next_eq_walk_one hs]
        exact ih hs Nat.one_pos (by omega) hhole' hseam' (by omega)
      · rw [if_neg hmove]
        by_cases hlast : remaining = 0
        · rw [hlast]
          exact (hhole.skip hg hslot hmove).finish_of_seam slotFor_lt hg hz hseam (by omega)
        · rw [next_eq_walk hg (by omega)]
          exact ih hg (Nat.succ_pos t) (by omega) (hhole.skip hg hslot hmove) hseam (by omega)

/-- Erasing drops the packet that `find` finds, and no other. -/
theorem Sized.erase_cases (hb : b.Sized) (seq : UInt64) :
    b.find seq = none ∧ b.erase seq = b
    ∨ ∃ packet, b.find seq = some packet ∧ (b.erase seq).Sized
      ∧ (b.erase seq).size + 1 = b.size
      ∧ ∀ e, Has kCapacity (b.erase seq).slots e → Has kCapacity b.slots e := by
  unfold find erase
  cases hf : b.findLoop seq (slotFor seq) kCapacity 0 with
  | none => exact .inl ⟨rfl, rfl⟩
  | some slot =>
    obtain ⟨hlt, stored, hst, _⟩ := findLoop_eq_some (slotFor_lt seq) (by omega) hf
    obtain ⟨hhas, hcount⟩ := eraseAtLoop_has (kCapacity - 1) b.slots hlt Nat.one_pos
      (by decide)
    have hnone := count_update_none hlt hst
    rw [← next_eq_walk_one hlt] at hhas hcount
    refine .inr ⟨stored, hst, ?_, ?_, fun e he => ?_⟩
    · show b.size - 1 = count kCapacity (b.eraseAt slot).slots
      rw [eraseAt, hcount, hb]
      omega
    · show b.size - 1 + 1 = b.size
      rw [hb]
      omega
    · obtain ⟨i, hi, hs⟩ := (hhas e).1 he
      rw [update_apply] at hs
      split_ifs at hs
      exact ⟨i, hi, hs⟩

/-- From a table with a seam, erasing removes one key from the map. -/
theorem Ok.erase_of_seam (hb : b.Ok) {z : ℕ} (hz : z < kCapacity)
    (hseam : Seam kCapacity slotFor SequencedPacket.seq b.slots z) (seq : UInt64) :
    (b.erase seq).Ok
      ∧ ∀ r, (b.erase seq).find r = if r = seq then none else b.find r := by
  cases hf : b.findLoop seq (slotFor seq) kCapacity 0 with
  | none =>
    have herase : b.erase seq = b := by
      unfold GapBuffer.erase
      rw [hf]
    have hnone : b.find seq = none := by
      unfold find
      rw [hf]
      rfl
    rw [herase]
    refine ⟨hb, fun r => ?_⟩
    split_ifs with hr
    · rw [hr, hnone]
    · rfl
  | some slot =>
    obtain ⟨hslot, stored, hst, hseq⟩ := findLoop_eq_some (slotFor_lt seq) (by omega) hf
    have herase : b.erase seq = b.eraseAt slot := by
      unfold GapBuffer.erase
      rw [hf]
    have hnone := count_update_none hslot hst
    have hdz := dist_lt hslot hz
    obtain ⟨hhas, hcount⟩ := eraseAtLoop_has (kCapacity - 1) b.slots hslot Nat.one_pos
      (by decide)
    have hok := eraseAtLoop_ok (kCapacity - 1) hslot Nat.one_pos (by decide)
      hb.table.hole hz (hseam.update_none slot) (by omega)
    rw [← next_eq_walk_one hslot] at hhas hcount hok
    have hb' : (b.eraseAt slot).Ok := ⟨hok, by
      show b.size - 1 = count kCapacity (b.eraseAt slot).slots
      rw [eraseAt, hcount, hb.size]
      omega⟩
    rw [herase]
    refine ⟨hb', fun r => ?_⟩
    ext e
    rw [hb'.find_iff]
    have hiff := (hhas e).trans (hb.table.has_update_none hslot hst)
    split_ifs with hr
    · refine iff_of_false (fun ⟨he, hk⟩ => ?_) (by simp)
      exact (hiff.1 he).2 (hk.trans (hr.trans hseq.symm))
    · rw [hb.find_iff]
      refine and_congr_left fun hk => hiff.trans (and_iff_left ?_)
      rw [hk, hseq]
      exact hr

/-- From a table that is not full, erasing removes one key from the map. -/
theorem Ok.erase (hb : b.Ok) (hlt : b.size < kCapacity) (seq : UInt64) :
    (b.erase seq).Ok
      ∧ ∀ r, (b.erase seq).find r = if r = seq then none else b.find r := by
  rw [hb.size] at hlt
  obtain ⟨z, hz, hfree⟩ := exists_free hlt
  exact hb.erase_of_seam hz (hb.table.seam_of_free hfree) seq

end GapBuffer

end AstraFeed
