import AstraFeed.GapBufferRun
import AstraFeed.Proofs.GapBuffer

/-!
# Every history of the gap buffer is that of a map

A table that calls lead to has a seam, full or not, so erasing keeps every other packet within
reach. By induction on the history, call by call at its end, `find` finds the earliest packet taken.
-/

namespace AstraFeed

namespace GapBuffer

open Probe

variable {b : GapBuffer} {ops before : List GapBufferOp} {op : GapBufferOp} {seq : UInt64}
  {packet : SequencedPacket}

/-! ## Tables with a seam -/

/-- The table's invariant, also when it is full. -/
structure Sound (b : GapBuffer) : Prop where
  ok : b.Ok
  seam : ∃ z < kCapacity, Seam kCapacity slotFor SequencedPacket.seq b.slots z

theorem Ok.sound_of_lt (hb : b.Ok) (hlt : b.size < kCapacity) : b.Sound := by
  rw [hb.size] at hlt
  obtain ⟨z, hz, hfree⟩ := exists_free hlt
  exact ⟨hb, z, hz, hb.table.seam_of_free hfree⟩

/-- An insertion fills a free slot of the walk. -/
theorem insertLoop_inserted {remaining probes : ℕ} (hr : probes + remaining ≤ kCapacity)
    (h : (b.insertLoop packet (slotFor packet.seq) remaining probes).1 = .inserted) :
    ∃ d < kCapacity, b.slots (walk kCapacity (slotFor packet.seq) d) = none
      ∧ (b.insertLoop packet (slotFor packet.seq) remaining probes).2.slots
        = Function.update b.slots (walk kCapacity (slotFor packet.seq) d) (some packet) := by
  induction remaining generalizing probes with
  | zero => exact nomatch h
  | succ remaining ih =>
    rw [insertLoop, probe_eq_walk (slotFor_lt packet.seq) (by omega)] at h ⊢
    cases hslot : b.slots (walk kCapacity (slotFor packet.seq) probes) with
    | none => exact ⟨probes, by omega, hslot, rfl⟩
    | some stored =>
      simp only [hslot] at h
      dsimp only
      split_ifs at h ⊢
      exact ih (by omega) h

theorem length_le_of_insert (h : (b.insert packet).1 ≠ .invalidPacket) :
    packet.data.length ≤ SequencedPacket.kMaxPacketSize := by
  by_contra hlt
  refine h ?_
  unfold GapBuffer.insert
  rw [if_pos (not_le.1 hlt)]

theorem Sound.insert (hb : b.Sound) (packet : SequencedPacket) : (b.insert packet).2.Sound := by
  by_cases hins : (b.insert packet).1 = .inserted
  swap
  · rw [insert_buffer hins]
    exact hb
  have hlen := length_le_of_insert (by rw [hins]; exact nofun)
  rcases hb.ok.insert_cases packet hlen with ⟨_, _, h⟩ | ⟨_, h, _⟩ | ⟨_, _, b', hok, _, _, h⟩
  · rw [h] at hins
    split_ifs at hins
  · rw [h] at hins
    exact nomatch hins
  · rw [h]
    refine ⟨hok, ?_⟩
    have heq : b.insertLoop packet (slotFor packet.seq) kCapacity 0 = (.inserted, b') := by
      rw [← h]
      exact (if_neg (not_lt.2 hlen)).symm
    obtain ⟨d, hd, hfree, hslots⟩ := insertLoop_inserted
      (show 0 + kCapacity ≤ kCapacity by omega) (congrArg Prod.fst heq)
    rw [heq] at hslots
    have hplace := hb.ok.table.seam_place slotFor_lt hd hfree
    rw [← hslots] at hplace
    exact ⟨_, walk_lt (slotFor_lt packet.seq) hd, hplace⟩

theorem Sound.find_insert_of_ne (hb : b.Sound) {r : UInt64} (hr : r ≠ packet.seq) :
    (b.insert packet).2.find r = b.find r := by
  by_cases hins : (b.insert packet).1 = .inserted
  swap
  · rw [insert_buffer hins]
  rcases hb.ok.insert_cases packet (length_le_of_insert (by rw [hins]; exact nofun)) with
    ⟨_, _, h⟩ | ⟨_, h, _⟩ | ⟨_, _, b', _, _, hfind, h⟩
  · rw [h]
  · rw [h]
  · rw [h, hfind, if_neg hr]

theorem Sound.erase (hb : b.Sound) (seq : UInt64) : (b.erase seq).Sound := by
  obtain ⟨z, hz, hseam⟩ := hb.seam
  have hok := (hb.ok.erase_of_seam hz hseam seq).1
  rcases Sized.erase_cases hb.ok.size seq with ⟨_, heq⟩ | ⟨_, _, _, hsize, _⟩
  · rw [heq]
    exact hb
  · refine hok.sound_of_lt ?_
    have : count kCapacity b.slots ≤ kCapacity := count_le
    rw [← hb.ok.size] at this
    omega

theorem Sound.find_erase (hb : b.Sound) (seq r : UInt64) :
    (b.erase seq).find r = if r = seq then none else b.find r := by
  obtain ⟨z, hz, hseam⟩ := hb.seam
  exact (hb.ok.erase_of_seam hz hseam seq).2 r

theorem fresh_sound : fresh.Sound := fresh_ok.sound_of_lt (by decide)

theorem Sound.step (hb : b.Sound) (op : GapBufferOp) : (b.step op).Sound := by
  cases op with
  | insert packet => exact hb.insert packet
  | find _ => exact hb
  | erase seq => exact hb.erase seq
  | clear => exact fresh_sound

theorem run_snoc (ops : List GapBufferOp) (op : GapBufferOp) :
    run (ops ++ [op]) = (run ops).step op := by
  simp [run]

theorem sound_run (ops : List GapBufferOp) : (run ops).Sound := by
  induction ops using List.reverseRecOn with
  | nil => exact fresh_sound
  | append_singleton ops op ih =>
    rw [run_snoc]
    exact ih.step op

/-! ## How an insertion ends -/

/-- A stored packet agrees with a new one of its sequence in length, count and bytes. -/
def Agrees (stored packet : SequencedPacket) : Prop :=
  stored.msgCount = packet.msgCount ∧ stored.data = packet.data

/-- The four results of an insertion, each with what it says of the map. -/
theorem Sound.insert_results (hb : b.Sound)
    (hlen : packet.data.length ≤ SequencedPacket.kMaxPacketSize) :
    ((b.insert packet).1 = .duplicateIdentical
        ↔ ∃ stored, b.find packet.seq = some stored ∧ Agrees stored packet)
      ∧ ((b.insert packet).1 = .conflictingDuplicate
        ↔ ∃ stored, b.find packet.seq = some stored ∧ ¬ Agrees stored packet)
      ∧ ((b.insert packet).1 = .capacityExceeded
        ↔ b.find packet.seq = none ∧ b.size = kCapacity)
      ∧ ((b.insert packet).1 = .inserted ↔ b.find packet.seq = none ∧ b.size ≠ kCapacity) := by
  rcases hb.ok.insert_cases packet hlen with ⟨stored, hfind, h⟩ | ⟨hfind, h, hfull⟩
    | ⟨hfind, hlt, b', _, _, _, h⟩
  · have hiff : (stored.msgCount ≠ packet.msgCount ∨ stored.data ≠ packet.data)
        ↔ ¬ Agrees stored packet := by
      unfold Agrees
      tauto
    by_cases hag : Agrees stored packet
    · have hres : (b.insert packet).1 = .duplicateIdentical := by
        rw [h]
        exact if_neg fun hx => hiff.1 hx hag
      simp [hres, hfind, hag]
    · have hres : (b.insert packet).1 = .conflictingDuplicate := by
        rw [h]
        exact if_pos (hiff.2 hag)
      simp [hres, hfind, hag]
  · rw [h]
    simp [hfind, hfull]
  · rw [h]
    simp [hfind, hlt.ne]

/-! ## The earliest packet taken -/

theorem takenAfter_snoc : TakenAfter (ops ++ [op]) seq before packet
    ↔ TakenAfter ops seq before packet ∧ ¬ op.Drops seq
      ∨ before = ops ∧ op = .insert packet ∧ packet.seq = seq ∧ Taken ops packet := by
  constructor
  · rintro ⟨since, heq, hseq, htaken, hkept⟩
    rcases List.eq_nil_or_concat since with rfl | ⟨since, last, rfl⟩
    · obtain ⟨rfl, hop⟩ := List.append_inj' heq rfl
      exact .inr ⟨rfl, List.singleton_inj.1 hop, hseq, htaken⟩
    · rw [List.concat_eq_append] at heq hkept
      rw [← List.cons_append, ← List.append_assoc] at heq
      obtain ⟨rfl, hop⟩ := List.append_inj' heq rfl
      obtain rfl := List.singleton_inj.1 hop
      refine .inl ⟨⟨since, rfl, hseq, htaken, fun x hx => hkept x ?_⟩, hkept op ?_⟩
      · exact List.mem_append_left _ hx
      · simp
  · rintro (⟨⟨since, rfl, hseq, htaken, hkept⟩, hop⟩ | ⟨rfl, rfl, hseq, htaken⟩)
    · refine ⟨since ++ [op], by simp, hseq, htaken, fun x hx => ?_⟩
      rcases List.mem_append.1 hx with hx | hx
      · exact hkept x hx
      · exact List.mem_singleton.1 hx ▸ hop
    · exact ⟨[], rfl, hseq, htaken, by simp⟩

theorem TakenAfter.length_lt (h : TakenAfter ops seq before packet) :
    before.length < ops.length := by
  obtain ⟨since, rfl, _⟩ := h
  simp

/-- Where something was taken, something was taken first. -/
theorem TakenAfter.exists_earliest (h : TakenAfter ops seq before packet) :
    ∃ packet', Earliest ops seq packet' := by
  have hex : ∃ n before packet, TakenAfter ops seq before packet ∧ before.length = n :=
    ⟨_, before, packet, h, rfl⟩
  classical
  obtain ⟨before', packet', htaken, hlen⟩ := Nat.find_spec hex
  exact ⟨packet', before', htaken, fun b p hb => hlen ▸ Nat.find_min' hex ⟨b, p, hb, rfl⟩⟩

/-- A call that takes nothing for `seq` and does not drop it leaves its earliest packet. -/
theorem earliest_snoc_of_not (hdrop : ¬ op.Drops seq)
    (hno : ∀ packet, op = .insert packet → packet.seq = seq → ¬ Taken ops packet) :
    Earliest (ops ++ [op]) seq packet ↔ Earliest ops seq packet := by
  have hiff : ∀ b p, TakenAfter (ops ++ [op]) seq b p ↔ TakenAfter ops seq b p := by
    intro b p
    rw [takenAfter_snoc, and_iff_left hdrop]
    exact or_iff_left fun h => hno p h.2.1 h.2.2.1 h.2.2.2
  simp only [Earliest, hiff]

theorem not_earliest_of_drops (hdrop : op.Drops seq) : ¬ Earliest (ops ++ [op]) seq packet := by
  rintro ⟨before, h, _⟩
  rcases takenAfter_snoc.1 h with ⟨_, hno⟩ | ⟨_, rfl, _⟩
  · exact hno hdrop
  · rcases hdrop with h | h <;> cases h

/-- After an insert that is taken: the earliest packet stays, and without one it is the new one. -/
theorem earliest_snoc_of_taken {new : SequencedPacket} (hseq : new.seq = seq)
    (htaken : Taken ops new) : Earliest (ops ++ [.insert new]) seq packet
      ↔ Earliest ops seq packet ∨ (∀ p, ¬ Earliest ops seq p) ∧ packet = new := by
  have hdrop : ¬ (GapBufferOp.insert new).Drops seq := by rintro (h | h) <;> cases h
  have hnew : TakenAfter (ops ++ [.insert new]) seq ops new :=
    takenAfter_snoc.2 (.inr ⟨rfl, rfl, hseq, htaken⟩)
  have hold : ∀ {b p}, TakenAfter ops seq b p → TakenAfter (ops ++ [.insert new]) seq b p :=
    fun h => takenAfter_snoc.2 (.inl ⟨h, hdrop⟩)
  constructor
  · rintro ⟨before, h, hfirst⟩
    rcases takenAfter_snoc.1 h with ⟨h, _⟩ | ⟨rfl, heq, _⟩
    · exact .inl ⟨before, h, fun b p hb => hfirst b p (hold hb)⟩
    · refine .inr ⟨fun p hp => ?_, (GapBufferOp.insert.inj heq).symm⟩
      obtain ⟨b, hb, _⟩ := hp
      exact absurd (hfirst b p (hold hb)) (not_le.2 hb.length_lt)
  · rintro (⟨before, h, hfirst⟩ | ⟨hno, rfl⟩)
    · refine ⟨before, hold h, fun b p hb => ?_⟩
      rcases takenAfter_snoc.1 hb with ⟨hb, _⟩ | ⟨rfl, _⟩
      · exact hfirst b p hb
      · exact h.length_lt.le
    · refine ⟨ops, hnew, fun b p hb => ?_⟩
      rcases takenAfter_snoc.1 hb with ⟨hb, _⟩ | ⟨rfl, _⟩
      · obtain ⟨p', hp'⟩ := hb.exists_earliest
        exact absurd hp' (hno p')
      · exact le_refl _

/-- The step of the induction for an insert of the sequence itself. -/
theorem find_insert (hb : (run ops).Sound) {new : SequencedPacket}
    (ih : ∀ packet, (run ops).find new.seq = some packet ↔ Earliest ops new.seq packet) :
    ((run ops).insert new).2.find new.seq = some packet
      ↔ Earliest (ops ++ [.insert new]) new.seq packet := by
  have hdrop : ¬ (GapBufferOp.insert new).Drops new.seq := by rintro (h | h) <;> cases h
  by_cases htaken : Taken ops new
  swap
  · have hkeep : ((run ops).insert new).2 = run ops := by
      refine insert_buffer fun hins => htaken ?_
      unfold Taken
      rw [hins]
      exact ⟨nofun, nofun⟩
    rw [hkeep, ih, earliest_snoc_of_not hdrop]
    intro p hp _
    rwa [← GapBufferOp.insert.inj hp]
  rw [earliest_snoc_of_taken rfl htaken, ← ih]
  simp only [← ih]
  rcases hb.ok.insert_cases new (length_le_of_insert htaken.1) with ⟨stored, hfind, h⟩ | ⟨_, h, _⟩
    | ⟨hfind, _, b', _, _, hfind', h⟩
  · rw [h, hfind]
    simp
  · exact absurd (congrArg Prod.fst h) htaken.2
  · rw [h, hfind, hfind' new.seq, if_pos rfl]
    simp [eq_comm]

/-- `find` finds the earliest packet taken for the sequence since it was last dropped. -/
theorem find_run (ops : List GapBufferOp) : ∀ seq packet,
    (run ops).find seq = some packet ↔ Earliest ops seq packet := by
  induction ops using List.reverseRecOn with
  | nil =>
    intro seq packet
    have hnone : (run []).find seq = none := fresh_ok.find_eq_none.2 fun e he => by
      obtain ⟨i, _, hi⟩ := he
      cases hi
    rw [hnone]
    refine iff_of_false nofun ?_
    rintro ⟨before, ⟨since, heq, _⟩, _⟩
    simp at heq
  | append_singleton ops op ih =>
    intro seq packet
    have hb := sound_run ops
    rw [run_snoc]
    cases op with
    | insert new =>
      by_cases hseq : new.seq = seq
      · subst hseq
        exact find_insert hb (ih new.seq)
      · rw [step, hb.find_insert_of_ne (Ne.symm hseq), ih,
          earliest_snoc_of_not (by rintro (h | h) <;> cases h)]
        intro p hp
        rw [← GapBufferOp.insert.inj hp]
        exact fun h => absurd h hseq
    | find _ =>
      rw [step, ih, earliest_snoc_of_not (by rintro (h | h) <;> cases h) (by rintro _ ⟨⟩)]
    | erase dropped =>
      rw [step, hb.find_erase]
      split_ifs with hs
      · subst hs
        exact iff_of_false nofun (not_earliest_of_drops (.inl rfl))
      · rw [ih, earliest_snoc_of_not _ (by rintro _ ⟨⟩)]
        rintro (h | h)
        · exact hs (GapBufferOp.erase.inj h).symm
        · cases h
    | clear =>
      have hnone : fresh.find seq = none := fresh_ok.find_eq_none.2 fun e he => by
        obtain ⟨i, _, hi⟩ := he
        cases hi
      rw [step, hnone]
      exact iff_of_false nofun (not_earliest_of_drops (.inr rfl))

theorem Sound.size_eq (hb : b.Sound) : b.size = {seq | ∃ packet, b.find seq = some packet}.ncard := by
  rw [hb.ok.size, ← hb.ok.table.ncard_keys]
  congr 1
  ext seq
  exact exists_congr fun e => hb.ok.find_iff.symm

/-- After any calls, on a full table too: `find` finds the packet first taken since the sequence was
last dropped, an insert ends as the map says, erasing removes one sequence and no other, and the
size counts the sequences present. -/
theorem exact_map (ops : List GapBufferOp) :
    let b := run ops
    (∀ seq packet, b.find seq = some packet ↔ Earliest ops seq packet)
      ∧ (∀ packet, packet.data.length ≤ SequencedPacket.kMaxPacketSize →
        ((b.insert packet).1 = .duplicateIdentical
          ↔ ∃ stored, b.find packet.seq = some stored ∧ Agrees stored packet)
        ∧ ((b.insert packet).1 = .conflictingDuplicate
          ↔ ∃ stored, b.find packet.seq = some stored ∧ ¬ Agrees stored packet)
        ∧ ((b.insert packet).1 = .capacityExceeded
          ↔ b.find packet.seq = none ∧ b.size = kCapacity)
        ∧ ((b.insert packet).1 = .inserted ↔ b.find packet.seq = none ∧ b.size ≠ kCapacity))
      ∧ (∀ seq r, (b.erase seq).find r = if r = seq then none else b.find r)
      ∧ b.size = {seq | ∃ packet, b.find seq = some packet}.ncard := by
  intro b
  have hb : b.Sound := sound_run ops
  exact ⟨find_run ops, fun packet hlen => hb.insert_results hlen, hb.find_erase, hb.size_eq⟩

end GapBuffer

end AstraFeed
