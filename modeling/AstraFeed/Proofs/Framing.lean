import AstraFeed.ItchMoldUdpSource
import AstraFeed.Proofs.MoldUdpDecoder

/-!
# Messages with their lengths

What is written as bytes is read back, and a sequence of framed messages has one reading only.
-/

namespace AstraFeed

open MoldUdpPacketHeader Wire BigEndian

/-! ## Words -/

theorem writeU16BE_eq (v : UInt16) : writeU16BE v = toBytes 2 v.toNat := by
  have hv := v.toNat_lt
  have hhigh : (v >>> 8 &&& 0xFF).toUInt8 = (v.toNat / 256).toUInt8 := by
    refine UInt8.toNat_inj.1 ?_
    rw [UInt16.toNat_toUInt8, UInt16.toNat_and, UInt16.toNat_shiftRight]
    show (v.toNat >>> 8 &&& 2 ^ 8 - 1) % 2 ^ 8 = (UInt8.ofNat (v.toNat / 256)).toNat
    rw [Nat.and_two_pow_sub_one_eq_mod, Nat.shiftRight_eq_div_pow, UInt8.toNat_ofNat']
    omega
  have hlow : (v &&& 0xFF).toUInt8 = v.toNat.toUInt8 := by
    refine UInt8.toNat_inj.1 ?_
    rw [UInt16.toNat_toUInt8, UInt16.toNat_and]
    show (v.toNat &&& 2 ^ 8 - 1) % 2 ^ 8 = (UInt8.ofNat v.toNat).toNat
    rw [Nat.and_two_pow_sub_one_eq_mod, UInt8.toNat_ofNat']
    omega
  rw [writeU16BE, hhigh, hlow]
  rfl

theorem writeLoop_eq (k : ℕ) (v : UInt64) (bytes : List UInt8) :
    writeLoop k v bytes = toBytes k v.toNat ++ bytes := by
  induction k generalizing v bytes with
  | zero => rfl
  | succ k ih =>
    have hlow : (v &&& 0xFF).toUInt8 = v.toNat.toUInt8 := by
      refine UInt8.toNat_inj.1 ?_
      rw [UInt64.toNat_toUInt8, UInt64.toNat_and]
      show (v.toNat &&& 2 ^ 8 - 1) % 2 ^ 8 = (UInt8.ofNat v.toNat).toNat
      rw [Nat.and_two_pow_sub_one_eq_mod, UInt8.toNat_ofNat']
      omega
    have hshift : (v >>> 8).toNat = v.toNat / 256 := by
      rw [UInt64.toNat_shiftRight]
      exact Nat.shiftRight_eq_div_pow _ _
    rw [writeLoop, ih, hlow, hshift, toBytes, List.append_assoc]
    rfl

theorem writeU64BE_eq (v : UInt64) : writeU64BE v = toBytes 8 v.toNat := by
  rw [writeU64BE, writeLoop_eq, List.append_nil]

theorem byteAt_append (before : List UInt8) (bytes : List UInt8) (i : ℕ) :
    byteAt (before ++ bytes) (before.length + i) = byteAt bytes i := by
  unfold byteAt
  rw [List.getD_eq_getElem?_getD, List.getD_eq_getElem?_getD,
    List.getElem?_append_right (Nat.le_add_right _ _), Nat.add_sub_cancel_left]

theorem byteAt_left {bytes : List UInt8} {i : ℕ} (h : i < bytes.length) (after : List UInt8) :
    byteAt (bytes ++ after) i = byteAt bytes i := by
  unfold byteAt
  rw [List.getD_eq_getElem?_getD, List.getD_eq_getElem?_getD, List.getElem?_append_left h]

theorem readU16BE_toNat (data : List UInt8) (off : ℕ) :
    (readU16BE data off).toNat = ofBytes [byteAt data off, byteAt data (off + 1)] := by
  have h := (byteAt data off).toNat_lt
  unfold readU16BE
  rw [UInt16.toNat_or, UInt16.toNat_shiftLeft, UInt8.toNat_toUInt16, UInt8.toNat_toUInt16,
    show (8 : UInt16).toNat % 16 = 8 from rfl, Nat.mod_eq_of_lt, shiftLeft_or]
  · simp [ofBytes]
  · rw [Nat.shiftLeft_eq]
    omega

/-- A 16-bit field is read as it was written. -/
theorem readU16BE_append (before after : List UInt8) {n : ℕ} (hn : n < 2 ^ 16) :
    (readU16BE (before ++ (toBytes 2 n ++ after)) before.length).toNat = n := by
  have h0 := byteAt_append before (toBytes 2 n ++ after) 0
  have h1 := byteAt_append before (toBytes 2 n ++ after) 1
  rw [Nat.add_zero] at h0
  rw [readU16BE_toNat, h0, h1]
  exact ofBytes_toBytes (k := 2) hn

/-- A 64-bit field is read as it was written. -/
theorem readU64BE_append (before after : List UInt8) {n : ℕ} (hn : n < 2 ^ 64) :
    (readU64BE (before ++ (toBytes 8 n ++ after)) before.length).toNat = n := by
  have hbytes : (List.range 8).map
      (fun i => byteAt (before ++ (toBytes 8 n ++ after)) (before.length + i)) = toBytes 8 n := by
    have hi : ∀ i, byteAt (before ++ (toBytes 8 n ++ after)) (before.length + i)
        = byteAt (toBytes 8 n ++ after) i := byteAt_append before _
    simp only [hi]
    rfl
  have hfold : readU64BE (before ++ (toBytes 8 n ++ after)) before.length
      = (toBytes 8 n).foldl (fun (v : UInt64) b => v <<< 8 ||| b.toUInt64) 0 := by
    conv_rhs => rw [← hbytes, List.foldl_map]
    rfl
  rw [hfold, toNat_foldl_shift (length_toBytes 8 n).le, ofBytes_toBytes hn]

/-! ## Frames -/

section Frames

variable {msg msg' : List UInt8} {msgs : List (List UInt8)} {input rest rest' : List UInt8}

theorem length_framed (msg : List UInt8) : (framed msg).length = msg.length + 2 := by
  rw [framed, List.length_append, length_toBytes, Nat.add_comm]

theorem ite_le {c : Prop} [Decidable c] {a b k : ℕ} (ha : a ≤ k) (hb : b ≤ k) :
    (if c then a else b) ≤ k := by
  split
  · exact ha
  · exact hb

/-- The longest message has `50` bytes. -/
theorem expectedItchMessageLength_le (type : UInt8) : expectedItchMessageLength type ≤ 50 := by
  unfold expectedItchMessageLength
  repeat' refine ite_le (by decide) ?_
  exact Nat.zero_le _

theorem WellSized.length_bounds (h : WellSized msg) : 12 ≤ msg.length ∧ msg.length ≤ 50 := by
  have hmin := expectedItchMessageLength_min (byteAt msg 0)
  have hmax := expectedItchMessageLength_le (byteAt msg 0)
  have hpos := List.length_pos_iff.2 h.1
  rw [← h.2] at hmin hmax
  exact ⟨hmin.resolve_left hpos.ne', hmax⟩

/-- The first message of framed bytes is known from them. -/
theorem framed_append_inj (hm : msg.length < 2 ^ 16) (hm' : msg'.length < 2 ^ 16)
    (h : framed msg ++ rest = framed msg' ++ rest') : msg = msg' ∧ rest = rest' := by
  unfold framed at h
  rw [List.append_assoc, List.append_assoc] at h
  obtain ⟨hlen, h⟩ := List.append_inj h (by rw [length_toBytes, length_toBytes])
  exact List.append_inj h (toBytes_inj hm hm' hlen)

theorem length_readU16BE_framed (before rest : List UInt8) (hm : msg.length < 2 ^ 16) :
    (readU16BE (before ++ (framed msg ++ rest)) before.length).toNat = msg.length := by
  rw [framed, List.append_assoc]
  exact readU16BE_append before (msg ++ rest) hm

theorem drop_framed (before rest : List UInt8) :
    (before ++ (framed msg ++ rest)).drop (before.length + 2) = msg ++ rest := by
  rw [← List.drop_drop, List.drop_left, framed, List.append_assoc]
  exact List.drop_left' (length_toBytes 2 _)

/-- The messages of framed bytes. -/
theorem framedMessages_flatMap (before : List UInt8) (h : ∀ msg ∈ msgs, msg.length < 2 ^ 16) :
    framedMessages (before ++ msgs.flatMap framed) msgs.length before.length = msgs := by
  induction msgs generalizing before with
  | nil => rfl
  | cons msg msgs ih =>
    have hm := h msg List.mem_cons_self
    have hlen := length_readU16BE_framed before (msgs.flatMap framed) hm
    have hbefore : before.length + 2 + msg.length = (before ++ framed msg).length := by
      rw [List.length_append, length_framed]
      omega
    have ih' := ih (before ++ framed msg) fun m hm => h m (List.mem_cons_of_mem _ hm)
    rw [List.append_assoc] at ih'
    rw [List.flatMap_cons, List.length_cons, framedMessages, hlen, drop_framed,
      List.take_left, hbefore, ih']

/-- Framed messages of the right lengths pass the validation. -/
theorem validateLoop_flatMap (before : List UInt8) (h : ∀ msg ∈ msgs, WellSized msg) :
    MoldUdpDecoder.validateLoop (before ++ msgs.flatMap framed) msgs.length before.length
      = .ok := by
  induction msgs generalizing before with
  | nil =>
    rw [List.flatMap_nil, List.append_nil]
    exact if_neg (not_not.2 rfl)
  | cons msg msgs ih =>
    have hsized := h msg List.mem_cons_self
    obtain ⟨hmin, hmax⟩ := hsized.length_bounds
    have hlen := length_readU16BE_framed before (msgs.flatMap framed)
      (show msg.length < 2 ^ 16 by omega)
    have hbefore : before.length + 2 + msg.length = (before ++ framed msg).length := by
      rw [List.length_append, length_framed]
      omega
    have ih' := ih (before ++ framed msg) fun m hm => h m (List.mem_cons_of_mem _ hm)
    rw [List.append_assoc] at ih'
    have hdata : (before ++ (framed msg ++ msgs.flatMap framed)).length
        = before.length + (msg.length + 2) + (msgs.flatMap framed).length := by
      rw [List.length_append, List.length_append, length_framed]
      omega
    have htype : byteAt (before ++ (framed msg ++ msgs.flatMap framed)) (before.length + 2)
        = byteAt msg 0 := by
      rw [byteAt_append before, framed, List.append_assoc]
      have := byteAt_append (toBytes 2 msg.length) (msg ++ msgs.flatMap framed) 0
      rw [length_toBytes] at this
      rw [this, byteAt_left (by omega)]
    rw [List.flatMap_cons, List.length_cons, MoldUdpDecoder.validateLoop]
    dsimp only
    rw [hlen, htype, ← hsized.2, if_neg (by omega), if_neg (by omega), if_neg, hbefore, ih']
    rintro (h0 | h0)
    · omega
    · exact h0 rfl

end Frames

/-! ## Packets -/

/-- A packet as it is sent. -/
structure IsPacket (session : List UInt8) (seq : ℕ) (msgs : List (List UInt8)) (p : PacketView) :
    Prop where
  data : p.data = session ++ (toBytes 8 seq ++ (toBytes 2 msgs.length ++ msgs.flatMap framed))
  session : session.length = kSessionSize
  seq_lt : seq + msgs.length < 2 ^ 64
  nonempty : msgs ≠ []
  count_lt : msgs.length < 2 ^ 16 - 1
  sized : ∀ msg ∈ msgs, WellSized msg

namespace IsPacket

variable {session : List UInt8} {seq : ℕ} {msgs : List (List UInt8)} {p : PacketView}

theorem firstSeq (h : IsPacket session seq msgs p) : p.firstSeq.toNat = seq := by
  have hlt := h.seq_lt
  unfold PacketView.firstSeq
  rw [h.data, show 10 = session.length from h.session.symm]
  exact readU64BE_append session _ (by omega)

theorem msgCount (h : IsPacket session seq msgs p) : p.msgCount.toNat = msgs.length := by
  have hlt := h.count_lt
  have hlen : 18 = (session ++ toBytes 8 seq).length := by
    rw [List.length_append, length_toBytes, h.session]
    rfl
  unfold PacketView.msgCount
  rw [h.data, ← List.append_assoc, hlen]
  exact readU16BE_append _ _ (by omega)

theorem header (h : IsPacket session seq msgs p) : ∃ before : List UInt8,
    before.length = kHeaderSize ∧ p.data = before ++ msgs.flatMap framed := by
  refine ⟨session ++ (toBytes 8 seq ++ toBytes 2 msgs.length), ?_, ?_⟩
  · rw [List.length_append, List.length_append, length_toBytes, length_toBytes, h.session]
    rfl
  · rw [h.data, List.append_assoc, List.append_assoc]

theorem messages (h : IsPacket session seq msgs p) : p.messages = msgs := by
  obtain ⟨before, hlen, hdata⟩ := h.header
  unfold PacketView.messages
  rw [h.msgCount, hdata, ← hlen]
  refine framedMessages_flatMap before fun msg hmsg => ?_
  have := (h.sized msg hmsg).length_bounds
  omega

theorem isData (h : IsPacket session seq msgs p) : p.IsData := by
  obtain ⟨before, hlen, hdata⟩ := h.header
  have hcount := h.msgCount
  have hlt := h.count_lt
  refine ⟨?_, fun h0 => ?_, fun he => ?_, ?_, ?_⟩
  · rw [hdata, List.length_append, hlen]
    exact Nat.le_add_right _ _
  · rw [h0] at hcount
    exact h.nonempty (List.length_eq_zero_iff.1 hcount.symm)
  · rw [he] at hcount
    exact absurd hcount (Nat.ne_of_gt hlt)
  · rw [h.firstSeq, hcount]
    exact h.seq_lt
  · unfold MoldUdpDecoder.validateSequencedPacket
    rw [hcount, hdata, ← hlen]
    exact validateLoop_flatMap before h.sized

theorem endSeq (h : IsPacket session seq msgs p) : p.endSeq.toNat = seq + msgs.length := by
  have hfit := h.isData.endSeq_lt
  unfold PacketView.endSeq
  rw [UInt64.toNat_add, UInt16.toNat_toUInt64, Nat.mod_eq_of_lt hfit, h.firstSeq, h.msgCount]

end IsPacket

end AstraFeed
