import Mathlib.Data.List.Basic
import Mathlib.Data.Nat.Bits
import Mathlib.Tactic.Ring

/-!
# ASCII strings

A string of code points as bytes, where all of them are below 128, and back.
-/

namespace Ascii

def encode (s : List Char) : Option (List UInt8) :=
  if s.all fun c => c.toNat < 128 then some (s.map Char.toUInt8) else none

/-- The character of each byte. -/
def decode (bytes : List UInt8) : List Char := bytes.map fun b => Char.ofNat b.toNat

variable {s t : List Char} {xs ys : List UInt8}

theorem toNat_toUInt8 {c : Char} (h : c.toNat < 128) : c.toUInt8.toNat = c.toNat :=
  UInt8.toNat_ofNat_of_lt (show c.toNat < 256 by omega)

theorem ofNat_toUInt8 {c : Char} (h : c.toNat < 128) : Char.ofNat c.toUInt8.toNat = c := by
  rw [toNat_toUInt8 h, Char.ofNat_toNat]

theorem toUInt8_ofNat :
    ∀ n < 128, (Char.ofNat n).toNat = n ∧ (Char.ofNat n).toUInt8 = n.toUInt8 := by
  decide

theorem encode_append (hs : encode s = some xs) (ht : encode t = some ys) :
    encode (s ++ t) = some (xs ++ ys) := by
  unfold encode at *
  split_ifs at hs with h1
  split_ifs at ht with h2
  rw [List.all_append, h1, h2, ← Option.some.inj hs, ← Option.some.inj ht, List.map_append]
  rfl

theorem encode_flatten {ss : List (List Char)} {xss : List (List UInt8)}
    (h : List.Forall₂ (fun s xs => encode s = some xs) ss xss) :
    encode ss.flatten = some xss.flatten := by
  induction h with
  | nil => rfl
  | cons h _ ih => exact encode_append h ih

theorem decode_of_encode (h : encode s = some xs) : decode xs = s := by
  unfold encode at h
  split_ifs at h with hall
  rw [← Option.some.inj h, decode, List.map_map]
  simp only [List.all_eq_true, decide_eq_true_eq] at hall
  exact (List.map_congr_left fun c hc => ofNat_toUInt8 (hall c hc)).trans (List.map_id s)

theorem encode_decode (h : ∀ b ∈ xs, b.toNat < 128) : encode (decode xs) = some xs := by
  have hall : (decode xs).all fun c => c.toNat < 128 := by
    simp only [decode, List.all_eq_true, List.mem_map, decide_eq_true_eq]
    rintro c ⟨b, hb, rfl⟩
    rw [(toUInt8_ofNat _ (h b hb)).1]
    exact h b hb
  rw [encode, if_pos hall, decode, List.map_map]
  refine congrArg some ((List.map_congr_left fun b hb => ?_).trans (List.map_id xs))
  show (Char.ofNat b.toNat).toUInt8 = b
  rw [(toUInt8_ofNat _ (h b hb)).2]
  exact UInt8.ofNat_toNat

/-- The bytes are in the order of their characters. -/
theorem toUInt8_le {a c : Char} (ha : a.toNat < 128) (hc : c.toNat < 128) :
    a.toUInt8 ≤ c.toUInt8 ↔ a ≤ c := by
  rw [UInt8.le_iff_toNat_le, toNat_toUInt8 ha, toNat_toUInt8 hc]
  rfl

theorem toUInt8_inj {a c : Char} (ha : a.toNat < 128) (hc : c.toNat < 128) :
    a.toUInt8 = c.toUInt8 ↔ a = c := by
  rw [← UInt8.toNat_inj, toNat_toUInt8 ha, toNat_toUInt8 hc]
  exact Char.toNat_inj

/-- A check made on each byte. -/
theorem forall_byte {p : UInt8 → Bool}
    (h : (List.range 256).all (fun n => p n.toUInt8) = true) (b : UInt8) : p b = true := by
  rw [List.all_eq_true] at h
  simpa using h b.toNat (List.mem_range.2 b.toNat_lt)

end Ascii
