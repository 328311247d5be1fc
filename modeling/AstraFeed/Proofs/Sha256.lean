import Mathlib.Data.List.GetD
import Mathlib.Tactic.IntervalCases
import Mathlib.Tactic.Ring
import AstraFeed.Sha256

/-!
# The streaming SHA-256 is the standard's

A transform is the standard's compression (`transform_eq`), and the object stands for the run over
the bytes it was given (`Streams`). The final blocks are what the standard's padding leaves to run
over, so the digest does not depend on how the bytes were cut (`streaming_sha256`).
-/

namespace AstraFeed

namespace Sha256

open Fips180 BlockStream

variable {block : List UInt8}

/-! ## The transform -/

theorem toNat_mod_of_lt {bits : UInt32} (h32 : bits < 32) : (bits.toBitVec % 32).toNat = bits.toNat :=
  Nat.mod_eq_of_lt h32

theorem shiftRight_eq (x : UInt32) {bits : UInt32} (h32 : bits < 32) :
    x >>> bits = shr bits.toNat x := by
  refine UInt32.toBitVec_inj.1 ?_
  rw [UInt32.toBitVec_shiftRight, BitVec.ushiftRight_eq', toNat_mod_of_lt h32]
  rfl

theorem rotateRight_eq (x : UInt32) {bits : UInt32} (h0 : 0 < bits) (h32 : bits < 32) :
    rotateRight x bits = rotr bits.toNat x := by
  have hpos : 0 < bits.toNat := h0
  have hlt : bits.toNat < 32 := h32
  have hsub : (32 - bits).toNat = 32 - bits.toNat := UInt32.toNat_sub_of_le 32 bits (UInt32.le_of_lt h32)
  have hleft : 32 - bits < 32 := by
    refine UInt32.lt_iff_toNat_lt.2 ?_
    rw [hsub]
    exact Nat.sub_lt (by decide) hpos
  unfold rotateRight
  refine UInt32.toBitVec_inj.1 ?_
  rw [UInt32.toBitVec_or, UInt32.toBitVec_shiftRight, UInt32.toBitVec_shiftLeft,
    BitVec.ushiftRight_eq', BitVec.shiftLeft_eq', toNat_mod_of_lt h32, toNat_mod_of_lt hleft, hsub]
  change _ = x.toBitVec.rotateRight bits.toNat
  rw [BitVec.rotateRight_def, Nat.mod_eq_of_lt hlt]

/-- Each function of the standard is the source's expression for it. -/
theorem bigSigma0_eq (x : UInt32) :
    rotateRight x 2 ^^^ rotateRight x 13 ^^^ rotateRight x 22 = bigSigma0 x := by
  rw [rotateRight_eq x (by decide) (by decide), rotateRight_eq x (by decide) (by decide),
    rotateRight_eq x (by decide) (by decide)]
  rfl

theorem bigSigma1_eq (x : UInt32) :
    rotateRight x 6 ^^^ rotateRight x 11 ^^^ rotateRight x 25 = bigSigma1 x := by
  rw [rotateRight_eq x (by decide) (by decide), rotateRight_eq x (by decide) (by decide),
    rotateRight_eq x (by decide) (by decide)]
  rfl

theorem smallSigma0_eq (x : UInt32) :
    rotateRight x 7 ^^^ rotateRight x 18 ^^^ x >>> 3 = smallSigma0 x := by
  rw [rotateRight_eq x (by decide) (by decide), rotateRight_eq x (by decide) (by decide),
    shiftRight_eq x (by decide)]
  rfl

theorem smallSigma1_eq (x : UInt32) :
    rotateRight x 17 ^^^ rotateRight x 19 ^^^ x >>> 10 = smallSigma1 x := by
  rw [rotateRight_eq x (by decide) (by decide), rotateRight_eq x (by decide) (by decide),
    shiftRight_eq x (by decide)]
  rfl

theorem roundConstant_eq {t : ℕ} (h : t < 64) : kRoundConstants.getD t 0 = roundConstant t := by
  have hall : ∀ t < 64, kRoundConstants.getD t 0 = roundConstant t := by decide
  exact hall t h

theorem init_state : init.state = initialHash := by decide

/-- The word at an offset, byte by byte. -/
theorem word_eq (hblock : block.length = 64) {t : ℕ} (ht : t < 16) :
    (block.getD (t * 4) 0).toUInt32 <<< 24 ||| (block.getD (t * 4 + 1) 0).toUInt32 <<< 16
      ||| (block.getD (t * 4 + 2) 0).toUInt32 <<< 8 ||| (block.getD (t * 4 + 3) 0).toUInt32
      = word block t := by
  have hbytes : (block.drop (4 * t)).take 4 = [block.getD (t * 4) 0, block.getD (t * 4 + 1) 0,
      block.getD (t * 4 + 2) 0, block.getD (t * 4 + 3) 0] := by
    refine List.ext_getElem ?_ fun i hi hi' => ?_
    · rw [List.length_take, List.length_drop, hblock, List.length_cons]
      simp
      omega
    · have hi4 : i < 4 := hi'
      have hlt : 4 * t + i < block.length := by omega
      rw [List.getElem_take, List.getElem_drop, ← List.getD_eq_getElem block 0 hlt, Nat.mul_comm]
      interval_cases i <;> rfl
  unfold word
  rw [hbytes]
  exact BigEndian.toUInt32_or ..

theorem schedule_of_lt {t : ℕ} (ht : t < 16) : schedule block t = word block t := by
  rw [schedule, if_pos ht]

theorem schedule_of_le {t : ℕ} (ht : 16 ≤ t) : schedule block t
    = smallSigma1 (schedule block (t - 2)) + schedule block (t - 7)
      + smallSigma0 (schedule block (t - 15)) + schedule block (t - 16) := by
  rw [schedule, if_neg (Nat.not_lt.2 ht)]

/-- The words below `n` are those of the schedule. -/
def Scheduled (block : List UInt8) (n : ℕ) (words : List UInt32) : Prop :=
  words.length = 64 ∧ ∀ t < n, words.getD t 0 = schedule block t

theorem Scheduled.set {n : ℕ} {words : List UInt32} (h : Scheduled block n words) (hn : n < 64)
    {w : UInt32} (hw : w = schedule block n) : Scheduled block (n + 1) (words.set n w) := by
  refine ⟨by rw [List.length_set, h.1], fun t ht => ?_⟩
  rw [List.getD_eq_getElem?_getD]
  by_cases heq : t = n
  · rw [heq, List.getElem?_set_self (by rw [h.1]; exact hn), hw]
    rfl
  · rw [List.getElem?_set_ne (Ne.symm heq), ← List.getD_eq_getElem?_getD]
    exact h.2 t (by omega)

theorem scheduled_load (hblock : block.length = 64) {n : ℕ} (hn : n ≤ 16) :
    Scheduled block n ((List.range n).foldl (loadWord block) (List.replicate 64 0)) := by
  induction n with
  | zero => exact ⟨List.length_replicate, fun t ht => absurd ht (Nat.not_lt_zero t)⟩
  | succ n ih =>
    rw [List.range_succ, List.foldl_append]
    refine (ih (by omega)).set (by omega) ?_
    rw [schedule_of_lt (by omega)]
    exact word_eq hblock (by omega)

theorem scheduled_extend {words : List UInt32} (h : Scheduled block 16 words) {n : ℕ}
    (hn : n ≤ 48) : Scheduled block (16 + n) ((List.range' 16 n).foldl extendWord words) := by
  induction n with
  | zero => exact h
  | succ n ih =>
    have hbefore := ih (by omega)
    rw [List.range'_concat, List.foldl_append, Nat.one_mul]
    refine hbefore.set (by omega) ?_
    dsimp only
    rw [hbefore.2 _ (by omega), hbefore.2 _ (by omega), hbefore.2 _ (by omega),
      hbefore.2 _ (by omega), schedule_of_le (Nat.le_add_right 16 n)]
    rw [smallSigma0_eq, smallSigma1_eq]
    ac_rfl

theorem scheduled_loadWords (hblock : block.length = 64) : Scheduled block 64 (loadWords block) :=
  scheduled_extend (scheduled_load hblock (Nat.le_refl _)) (Nat.le_refl _)

theorem mixWord_eq {words : List UInt32} (h : Scheduled block 64 words) (v : HashWords) {t : ℕ}
    (ht : t < 64) : mixWord words v t = round block v t := by
  unfold mixWord
  dsimp only
  rw [bigSigma0_eq, bigSigma1_eq, roundConstant_eq ht, h.2 t ht]
  rfl

/-- A transform is a compression. -/
theorem transform_eq (hblock : block.length = 64) (state : HashWords) :
    transform block state = compress state block := by
  have hrounds : ∀ n ≤ 64, (List.range n).foldl (mixWord (loadWords block)) state
      = (List.range n).foldl (round block) state := by
    intro n hn
    induction n with
    | zero => rw [List.range_zero, List.foldl_nil, List.foldl_nil]
    | succ n ih =>
      rw [List.range_succ, List.foldl_append, List.foldl_append, ih (by omega), List.foldl_cons,
        List.foldl_cons, List.foldl_nil, List.foldl_nil]
      exact mixWord_eq (scheduled_loadWords hblock) _ (by omega)
  unfold transform compress
  rw [hrounds 64 (Nat.le_refl _)]
  generalize (List.range 64).foldl (round block) state = v
  dsimp only
  rw [UInt32.add_comm v.a, UInt32.add_comm v.b, UInt32.add_comm v.c, UInt32.add_comm v.d,
    UInt32.add_comm v.e, UInt32.add_comm v.f, UInt32.add_comm v.g, UInt32.add_comm v.h]

/-! ## Streaming -/

/-- What the standard's compression makes of a message so far. -/
def absorbed (message : List UInt8) : Buffered HashWords UInt8 :=
  run 64 compress ⟨initialHash, []⟩ message

/-- The object stands for the message it was given. -/
structure Streams (s : Sha256) (message : List UInt8) : Prop where
  finalized : s.finalized = false
  buffer : s.buffer.length = 64
  buffered : s.bufferedBytes < 64
  total : s.totalBytes.toNat = message.length
  small : message.length < 2 ^ 61
  absorbed : absorbed message = ⟨s.state, s.buffer.take s.bufferedBytes⟩

theorem streams_init : Streams init [] where
  finalized := rfl
  buffer := List.length_replicate
  buffered := by decide
  total := rfl
  small := by decide
  absorbed := by
    rw [init_state]
    rfl

theorem length_copyInto {target source : List UInt8} {offset : ℕ}
    (h : offset + source.length ≤ target.length) :
    (copyInto target offset source).length = target.length := by
  unfold copyInto
  rw [List.length_append, List.length_append, List.length_take, List.length_drop]
  omega

theorem take_copyInto {target source : List UInt8} {offset : ℕ}
    (h : offset + source.length ≤ target.length) :
    (copyInto target offset source).take (offset + source.length)
      = target.take offset ++ source := by
  unfold copyInto
  have hlen : (target.take offset ++ source).length = offset + source.length := by
    rw [List.length_append, List.length_take]
    omega
  rw [← hlen, List.take_left]

/-- The whole blocks of an input, and what is left of it. -/
theorem transformBlocks_spec (state : HashWords) (input : List UInt8) :
    run 64 compress ⟨state, []⟩ input
        = ⟨(transformBlocks state input).1, (transformBlocks state input).2⟩
      ∧ (transformBlocks state input).2.length < 64 := by
  fun_induction transformBlocks state input with
  | case1 state input h ih =>
    have hlen : (input.take kBlockBytes).length = 64 := by
      rw [List.length_take]
      exact Nat.min_eq_left h
    rw [transform_eq hlen] at ih ⊢
    rw [← run_block (by decide) hlen, ← run_append, List.take_append_drop] at ih
    exact ih
  | case2 state input h =>
    have hlt : input.length < 64 := Nat.not_le.1 h
    exact ⟨run_of_lt (by simpa using hlt), hlt⟩

theorem updateBlocks_streams {s : Sha256} {message input : List UInt8}
    (hfinalized : s.finalized = false) (hbuffer : s.buffer.length = 64)
    (hempty : absorbed message = ⟨s.state, []⟩)
    (htotal : s.totalBytes.toNat = (message ++ input).length)
    (hsmall : (message ++ input).length < 2 ^ 61) :
    Streams (updateBlocks s input) (message ++ input) := by
  obtain ⟨hrun, hlt⟩ := transformBlocks_spec s.state input
  have hfits : 0 + (transformBlocks s.state input).2.length ≤ s.buffer.length := by omega
  refine ⟨hfinalized, (length_copyInto hfits).trans hbuffer, hlt, htotal, hsmall, ?_⟩
  have htake := take_copyInto hfits
  rw [Nat.zero_add, List.take_zero, List.nil_append] at htake
  unfold absorbed at hempty ⊢
  rw [run_append, hempty, hrun]
  exact congrArg _ htake.symm

theorem updateBuffer_streams {s : Sha256} {message input : List UInt8}
    (h : Streams s message) (hsmall : (message ++ input).length < 2 ^ 61) :
    Streams (updateBuffer { s with totalBytes := s.totalBytes + input.length.toUInt64 } input)
      (message ++ input) := by
  have htotal : (s.totalBytes + input.length.toUInt64).toNat = (message ++ input).length := by
    rw [List.length_append] at hsmall ⊢
    have hlen : input.length.toUInt64.toNat = input.length := by
      refine UInt64.toNat_ofNat_of_lt' ?_
      change _ < 2 ^ 64
      omega
    rw [UInt64.toNat_add, h.total, hlen]
    omega
  unfold updateBuffer
  dsimp only
  by_cases hempty : s.bufferedBytes = 0
  · rw [if_neg (not_not.2 hempty)]
    refine updateBlocks_streams h.finalized h.buffer ?_ htotal hsmall
    rw [h.absorbed, hempty, List.take_zero]
  rw [if_pos hempty]
  have hbuffer := h.buffer
  have hbuffered := h.buffered
  generalize hcopied : min input.length (kBlockBytes - s.bufferedBytes) = copied
  have hblock : kBlockBytes = 64 := rfl
  have hlen : (input.take copied).length = copied := by
    rw [List.length_take]
    omega
  have hfits : s.bufferedBytes + (input.take copied).length ≤ s.buffer.length := by omega
  have hcopy := length_copyInto hfits
  have htake := take_copyInto hfits
  rw [hlen] at htake
  split_ifs with hfull
  · -- the input ends before the block is full
    have hall : input.take copied = input := List.take_of_length_le (by omega)
    refine ⟨h.finalized, hcopy.trans hbuffer, ?_, htotal, hsmall, ?_⟩
    · dsimp only
      omega
    · have hpending : (s.buffer.take s.bufferedBytes).length + input.length < 64 := by
        rw [List.length_take]
        omega
      have habsorbed := h.absorbed
      unfold absorbed at habsorbed ⊢
      dsimp only
      rw [run_append, habsorbed, run_of_lt hpending, htake, hall]
  · have hfull := not_not.1 hfull
    have hpending : (s.buffer.take s.bufferedBytes).length = s.bufferedBytes := by
      rw [List.length_take]
      omega
    have hwhole : copyInto s.buffer s.bufferedBytes (input.take copied)
        = s.buffer.take s.bufferedBytes ++ input.take copied := by
      have hcovers : (copyInto s.buffer s.bufferedBytes (input.take copied)).length
          ≤ s.bufferedBytes + copied := by omega
      rw [← htake, List.take_of_length_le hcovers]
    have hmessage : message ++ input = message ++ input.take copied ++ input.drop copied := by
      rw [List.append_assoc, List.take_append_drop]
    rw [hmessage] at htotal hsmall ⊢
    refine updateBlocks_streams h.finalized (hcopy.trans hbuffer) ?_ htotal hsmall
    have habsorbed := h.absorbed
    unfold absorbed at habsorbed ⊢
    have hlt : (s.buffer.take s.bufferedBytes).length < 64 := by omega
    have hfill : (s.buffer.take s.bufferedBytes).length + (input.take copied).length = 64 := by
      omega
    rw [run_append, habsorbed, run_of_fill hlt hfill, ← hwhole]
    dsimp only
    rw [transform_eq (hcopy.trans hbuffer)]

/-- An update within the bound is carried out. -/
theorem Streams.update {s : Sha256} {message : List UInt8} (h : Streams s message)
    (input : List UInt8) (hsmall : (message ++ input).length < 2 ^ 61) :
    (s.update input).1 = none ∧ Streams (s.update input).2 (message ++ input) := by
  have hroom : ¬ (kMaximumBytes - s.totalBytes).toNat < input.length := by
    have hmax : kMaximumBytes.toNat = 2 ^ 61 - 1 := rfl
    have hle : s.totalBytes ≤ kMaximumBytes := by
      refine UInt64.le_iff_toNat_le.2 ?_
      rw [h.total, hmax]
      exact Nat.le_sub_one_of_lt h.small
    rw [UInt64.toNat_sub_of_le _ _ hle, h.total, hmax]
    rw [List.length_append] at hsmall
    omega
  have hout := updateBuffer_streams h hsmall
  unfold Sha256.update
  rw [if_neg (by rw [h.finalized]; exact Bool.false_ne_true), if_neg hroom]
  exact ⟨rfl, hout⟩

/-! ## The final blocks -/

theorem toUInt8_shiftRight (v : UInt64) {index : ℕ} (h : index < 8) :
    (v >>> (index * 8).toUInt64).toUInt8 = (v.toNat / 256 ^ index).toUInt8 := by
  have hshift : (index * 8).toUInt64.toNat = index * 8 :=
    UInt64.toNat_ofNat_of_lt' (lt_of_lt_of_le (by omega : index * 8 < 64) (by decide))
  have hmod : index * 8 % 64 = 8 * index := by omega
  refine UInt8.toNat_inj.1 ?_
  rw [UInt64.toNat_toUInt8, UInt64.toNat_shiftRight, hshift, hmod, Nat.shiftRight_eq_div_pow,
    Nat.pow_mul]
  exact UInt8.toNat_ofNat'.symm

theorem set_append_cons {α : Type*} (xs ys : List α) (x y : α) :
    (xs ++ y :: ys).set xs.length x = xs ++ x :: ys := by
  rw [List.set_append_right _ _ (Nat.le_refl _), Nat.sub_self, List.set_cons_zero]

/-- The length is written most significant byte first, before the end of the counted bytes. -/
theorem putLength_eq {blocks : List UInt8} {finalBytes : ℕ} (h8 : 8 ≤ finalBytes)
    (hle : finalBytes ≤ blocks.length) (bitLength : UInt64) :
    putLength blocks finalBytes bitLength = blocks.take (finalBytes - 8)
      ++ BigEndian.toBytes 8 bitLength.toNat ++ blocks.drop finalBytes := by
  have hsteps : ∀ n ≤ 8, (List.range n).foldl (fun blocks index =>
      blocks.set (finalBytes - 1 - index) (bitLength >>> (index * 8).toUInt64).toUInt8) blocks
      = blocks.take (finalBytes - n)
        ++ (BigEndian.toBytes n bitLength.toNat ++ blocks.drop finalBytes) := by
    intro n hn
    induction n with
    | zero =>
      change blocks = blocks.take finalBytes ++ ([] ++ blocks.drop finalBytes)
      rw [List.nil_append, List.take_append_drop]
    | succ n ih =>
      have hlt : finalBytes - 1 - n < blocks.length := by omega
      have hnext : finalBytes - n = finalBytes - 1 - n + 1 := by omega
      have hlen : (blocks.take (finalBytes - 1 - n)).length = finalBytes - 1 - n := by
        rw [List.length_take]
        omega
      rw [List.range_succ, List.foldl_append, ih (by omega), List.foldl_cons, List.foldl_nil,
        hnext, List.take_succ_eq_append_getElem hlt, List.append_assoc, List.singleton_append,
        toUInt8_shiftRight _ (by omega), BigEndian.toBytes_succ]
      have hset := set_append_cons (blocks.take (finalBytes - 1 - n))
        (BigEndian.toBytes n bitLength.toNat ++ blocks.drop finalBytes)
        (bitLength.toNat / 256 ^ n).toUInt8 blocks[finalBytes - 1 - n]
      rw [hlen] at hset
      rw [hset, Nat.sub_sub, Nat.add_comm 1 n]
      rfl
  rw [List.append_assoc]
  exact hsteps 8 (Nat.le_refl _)

/-- What the padding adds to a message. -/
def padding (message : List UInt8) : List UInt8 :=
  0x80 :: List.replicate (zeroBytes message.length) 0 ++ BigEndian.toBytes 8 (8 * message.length)

theorem pad_eq (message : List UInt8) : pad message = message ++ padding message := by
  unfold pad padding
  rw [List.append_assoc]

/-- Behind the buffered bytes the final blocks hold the padding. -/
theorem finalBlocks_eq {s : Sha256} {message : List UInt8} (h : Streams s message)
    {finalBytes : ℕ} (hfinal : finalBytes = if s.bufferedBytes < 56 then 64 else 128) :
    (putLength ((copyInto (List.replicate 128 0) 0 (s.buffer.take s.bufferedBytes)).set
        s.bufferedBytes 0x80) finalBytes (s.totalBytes * 8)).take finalBytes
      = s.buffer.take s.bufferedBytes ++ padding message := by
  have hbuffer := h.buffer
  have hbuffered := h.buffered
  have hsmall := h.small
  generalize hpending : s.buffer.take s.bufferedBytes = pending
  have hlen : pending.length = s.bufferedBytes := by
    rw [← hpending, List.length_take]
    omega
  have hmod : s.bufferedBytes = message.length % 64 := by
    have hcount : (run 64 compress ⟨initialHash, []⟩ message).pending.length = message.length % 64 :=
      length_pending (by decide) initialHash message
    rw [show run 64 compress ⟨initialHash, []⟩ message = _ from h.absorbed, hpending, hlen] at hcount
    exact hcount
  have hbits : (s.totalBytes * 8).toNat = 8 * message.length := by
    rw [UInt64.toNat_mul, h.total, show (8 : UInt64).toNat = 8 from rfl]
    omega
  -- the array of zeros, with the buffered bytes and the closing bit in front
  have hzeros : (copyInto (List.replicate 128 0) 0 pending).set s.bufferedBytes 0x80
      = pending ++ 0x80 :: List.replicate (127 - s.bufferedBytes) 0 := by
    have hrest : 128 - pending.length = 127 - s.bufferedBytes + 1 := by omega
    unfold copyInto
    rw [List.take_zero, List.nil_append, Nat.zero_add, List.drop_replicate, hrest,
      List.replicate_succ, ← hlen, set_append_cons]
  have h8 : 8 ≤ finalBytes := by
    rw [hfinal]
    split <;> omega
  have hbytes : s.bufferedBytes + 9 + zeroBytes message.length = finalBytes := by
    unfold zeroBytes
    rw [← hmod, hfinal]
    split <;> omega
  have hle : finalBytes ≤ (pending ++ 0x80 :: List.replicate (127 - s.bufferedBytes) 0).length := by
    rw [List.length_append, List.length_cons, List.length_replicate, hfinal]
    split <;> omega
  have htake : (pending ++ 0x80 :: List.replicate (127 - s.bufferedBytes) (0 : UInt8)).take
      (finalBytes - 8) = pending ++ 0x80 :: List.replicate (zeroBytes message.length) 0 := by
    have hone : finalBytes - 8 - pending.length = zeroBytes message.length + 1 := by omega
    have hzero : min (zeroBytes message.length) (127 - s.bufferedBytes)
        = zeroBytes message.length := by
      rw [hfinal] at hbytes
      split at hbytes <;> omega
    rw [List.take_append, List.take_of_length_le (by omega), hone, List.take_succ_cons,
      List.take_replicate, hzero]
  rw [hzeros, putLength_eq h8 hle, htake, hbits]
  have hcount : (pending ++ 0x80 :: List.replicate (zeroBytes message.length) (0 : UInt8)
      ++ BigEndian.toBytes 8 (8 * message.length)).length = finalBytes := by
    rw [List.length_append, List.length_append, List.length_cons, List.length_replicate,
      BigEndian.length_toBytes]
    omega
  rw [← hcount, List.take_left]
  unfold padding
  rw [List.append_assoc]

theorem length_putLength (blocks : List UInt8) (finalBytes : ℕ) (bitLength : UInt64) :
    (putLength blocks finalBytes bitLength).length = blocks.length := by
  unfold putLength
  refine List.foldlRecOn (motive := fun out : List UInt8 => out.length = blocks.length) _ _ rfl ?_
  intro out hout index _
  rw [List.length_set, hout]

/-- The final transforms run over the final blocks. -/
theorem run_finalBlocks {finalBlocks : List UInt8} (hlen : finalBlocks.length = 128)
    (state : HashWords) {finalBytes : ℕ} (hfinal : finalBytes = 64 ∨ finalBytes = 128) :
    run 64 compress ⟨state, []⟩ (finalBlocks.take finalBytes)
      = ⟨if finalBytes = 128
          then transform ((finalBlocks.drop 64).take 64) (transform (finalBlocks.take 64) state)
          else transform (finalBlocks.take 64) state, []⟩ := by
  have hfirst : (finalBlocks.take 64).length = 64 := by
    rw [List.length_take]
    omega
  have hsecond : ((finalBlocks.drop 64).take 64).length = 64 := by
    rw [List.length_take, List.length_drop]
    omega
  rw [transform_eq hsecond, transform_eq hfirst]
  rcases hfinal with rfl | rfl
  · rw [if_neg (by decide), run_block (by decide) hfirst]
  · rw [if_pos rfl, show 128 = 64 + 64 from rfl, List.take_add, run_append,
      run_block (by decide) hfirst, run_block (by decide) hsecond]

theorem wordBytes_eq (w : UInt32) : wordBytes w = BigEndian.toBytes 4 w.toNat := by
  have hbyte : ∀ shift : UInt32, shift < 32 →
      (w >>> shift).toUInt8 = (w.toNat / 2 ^ shift.toNat).toUInt8 := by
    intro shift hshift
    have hmod : shift.toNat % 32 = shift.toNat := Nat.mod_eq_of_lt hshift
    refine UInt8.toNat_inj.1 ?_
    rw [UInt32.toNat_toUInt8, UInt32.toNat_shiftRight, hmod, Nat.shiftRight_eq_div_pow]
    exact UInt8.toNat_ofNat'.symm
  unfold wordBytes
  rw [BigEndian.toBytes_succ, BigEndian.toBytes_succ, BigEndian.toBytes_succ,
    BigEndian.toBytes_succ, List.map_cons, List.map_cons, List.map_cons, List.map_cons,
    hbyte 24 (by decide), hbyte 16 (by decide), hbyte 8 (by decide), hbyte 0 (by decide)]
  rfl

/-- The digest of a message that was streamed. -/
theorem Streams.finalize_eq {s : Sha256} {message : List UInt8} (h : Streams s message) :
    s.finalize.1 = sha256 message := by
  have hbuffered := h.buffered
  generalize hfinal : (if s.bufferedBytes < 56 then 64 else 128) = finalBytes
  have htwo : finalBytes = 64 ∨ finalBytes = 128 := by
    rw [← hfinal]
    split
    · exact .inl rfl
    · exact .inr rfl
  have hblocks := finalBlocks_eq h hfinal.symm
  generalize hset : (copyInto (List.replicate 128 0) 0 (s.buffer.take s.bufferedBytes)).set
    s.bufferedBytes 0x80 = start at hblocks
  have hlen : (putLength start finalBytes (s.totalBytes * 8)).length = 128 := by
    have hfits : 0 + (s.buffer.take s.bufferedBytes).length
        ≤ (List.replicate 128 (0 : UInt8)).length := by
      rw [List.length_take, List.length_replicate]
      omega
    rw [length_putLength, ← hset, List.length_set, length_copyInto hfits, List.length_replicate]
  have hrun := run_finalBlocks hlen s.state htwo
  have hpending : (s.buffer.take s.bufferedBytes).length < 64 := by
    rw [List.length_take]
    omega
  have habsorbed : run 64 compress ⟨initialHash, []⟩ message
      = ⟨s.state, s.buffer.take s.bufferedBytes⟩ := h.absorbed
  rw [hblocks, ← run_pending hpending, ← habsorbed, ← run_append, ← pad_eq,
    run_blocks (by decide) (dvd_length_pad message)] at hrun
  have hstate := congrArg Buffered.state hrun
  dsimp only at hstate
  unfold finalize
  rw [if_neg (by rw [h.finalized]; exact Bool.false_ne_true)]
  dsimp only
  rw [hset, hfinal, ← hstate]
  unfold sha256 Words.toBytes
  rw [show wordBytes = fun w => BigEndian.toBytes 4 w.toNat from funext wordBytes_eq]

theorem finalize_done (s : Sha256) :
    s.finalize.2.finalized = true ∧ s.finalize.2.digest = s.finalize.1 := by
  unfold finalize
  by_cases h : s.finalized = true
  · rw [if_pos h]
    exact ⟨h, rfl⟩
  · rw [if_neg h]
    exact ⟨rfl, rfl⟩

/-- The digest stays. -/
theorem finalize_again (s : Sha256) : s.finalize.2.finalize = (s.finalize.1, s.finalize.2) := by
  obtain ⟨hdone, hdigest⟩ := s.finalize_done
  rw [finalize, if_pos hdone, hdigest]

theorem update_finalized (s : Sha256) (input : List UInt8) :
    s.finalize.2.update input = (some .finalized, s.finalize.2) := by
  rw [update, if_pos s.finalize_done.1]

/-- The hexadecimal digest of a message in one piece. -/
theorem sha256Hex_eq {input : List UInt8} (hsmall : input.length < 2 ^ 61) :
    sha256Hex input = some ((sha256 input).flatMap fun b =>
      [kHex.getD (b >>> 4 : UInt8).toNat 0, kHex.getD (b &&& 0x0f).toNat 0]) := by
  obtain ⟨hnone, hnext⟩ := streams_init.update input hsmall
  rw [sha256Hex]
  generalize init.update input = out at hnone hnext
  obtain ⟨error, s⟩ := out
  cases hnone
  rw [List.nil_append] at hnext
  show some (s.finalize.1.flatMap _) = _
  rw [hnext.finalize_eq]

/-- What is too long has no digest. -/
theorem length_lt_of_sha256Hex {input digest : List UInt8} (h : sha256Hex input = some digest) :
    input.length < 2 ^ 61 := by
  by_contra hlong
  have hmax : (kMaximumBytes - init.totalBytes).toNat = 2 ^ 61 - 1 := rfl
  have htoo : (kMaximumBytes - init.totalBytes).toNat < input.length := by omega
  rw [sha256Hex, Sha256.update, if_neg (by decide), if_pos htoo] at h
  cases h

/-! ## A run of updates -/

theorem Streams.updateAll {s : Sha256} {message : List UInt8} (h : Streams s message)
    (chunks : List (List UInt8)) (hsmall : (message ++ chunks.flatten).length < 2 ^ 61) :
    ∃ s', s.updateAll chunks = .ok s' ∧ Streams s' (message ++ chunks.flatten) := by
  induction chunks generalizing s message with
  | nil =>
    rw [List.flatten_nil, List.append_nil]
    exact ⟨s, rfl, h⟩
  | cons chunk chunks ih =>
    rw [List.flatten_cons, ← List.append_assoc] at hsmall ⊢
    have hchunk : (message ++ chunk).length < 2 ^ 61 := by
      rw [List.length_append] at hsmall
      omega
    obtain ⟨hnone, hnext⟩ := h.update chunk hchunk
    rw [Sha256.updateAll]
    generalize s.update chunk = out at hnone hnext
    obtain ⟨error, s'⟩ := out
    cases hnone
    exact ih hnext hsmall

/-- However the bytes are cut, the digest is the standard's; it stays, and nothing joins the message
any more. -/
theorem streaming_sha256 (chunks : List (List UInt8)) (hsmall : chunks.flatten.length < 2 ^ 61) :
    ∃ s, init.updateAll chunks = .ok s ∧ s.finalize.1 = sha256 chunks.flatten
      ∧ s.finalize.2.finalize = (sha256 chunks.flatten, s.finalize.2)
      ∧ ∀ input, s.finalize.2.update input = (some .finalized, s.finalize.2) := by
  obtain ⟨s, hs, hstreams⟩ := streams_init.updateAll chunks hsmall
  have hdigest := hstreams.finalize_eq
  rw [List.nil_append] at hdigest
  refine ⟨s, hs, hdigest, ?_, update_finalized s⟩
  rw [finalize_again, hdigest]

/-- An empty chunk between two others. -/
theorem streaming_sha256_chunks : ∃ s, init.updateAll [[97], [], [98, 99]] = .ok s
    ∧ s.finalize.1 = sha256 [97, 98, 99] := by
  obtain ⟨s, hs, hdigest, _⟩ := streaming_sha256 [[97], [], [98, 99]] (by decide)
  exact ⟨s, hs, hdigest⟩

end Sha256

end AstraFeed
