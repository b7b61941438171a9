import Mathlib.Algebra.Group.Nat.Defs
import Mathlib.Data.List.Basic
import Mathlib.Tactic.Common

namespace LittleEndian

def encode : Nat → Nat → List UInt8
  | 0, _ => []
  | width + 1, n => UInt8.ofNat n :: encode width (n / 256)

def decode : List UInt8 → Nat
  | [] => 0
  | b :: bs => b.toNat + 256 * decode bs

@[simp] theorem encode_length (width n : Nat) : (encode width n).length = width := by
  induction width generalizing n with
  | zero => rfl
  | succ width ih => rw [encode, List.length_cons, ih]

theorem decode_encode (width n : Nat) : decode (encode width n) = n % 256 ^ width := by
  induction width generalizing n with
  | zero => rw [Nat.pow_zero, Nat.mod_one]; rfl
  | succ width ih =>
    have hpow : 256 ^ (width + 1) = 256 * 256 ^ width := by rw [Nat.pow_succ, Nat.mul_comm]
    rw [encode, decode, ih, UInt8.toNat_ofNat', hpow, Nat.mod_mul]

theorem decode_encode_of_lt {width n : Nat} (h : n < 256 ^ width) :
    decode (encode width n) = n := by
  rw [decode_encode, Nat.mod_eq_of_lt h]

theorem decode_lt (bs : List UInt8) : decode bs < 256 ^ bs.length := by
  induction bs with
  | nil => exact Nat.one_pos
  | cons b bs ih =>
    have hb := b.toNat_lt
    rw [decode, List.length_cons, Nat.pow_succ]
    omega

theorem decode_append (as bs : List UInt8) :
    decode (as ++ bs) = decode as + 256 ^ as.length * decode bs := by
  induction as with
  | nil => rw [List.nil_append, decode, List.length_nil, Nat.pow_zero, Nat.one_mul, Nat.zero_add]
  | cons a as ih =>
    rw [List.cons_append, decode, decode, ih, List.length_cons, Nat.pow_succ, Nat.mul_add,
      Nat.add_assoc, ← Nat.mul_assoc 256, Nat.mul_comm 256 (256 ^ as.length)]

theorem encode_decode (bs : List UInt8) : encode bs.length (decode bs) = bs := by
  induction bs with
  | nil => rfl
  | cons b bs ih =>
    have hb := b.toNat_lt
    have hdiv : (b.toNat + 256 * decode bs) / 256 = decode bs := by omega
    have hmod : UInt8.ofNat (b.toNat + 256 * decode bs) = b := by
      apply UInt8.toNat_inj.mp
      rw [UInt8.toNat_ofNat']
      omega
    rw [decode, List.length_cons, encode, hdiv, hmod, ih]

theorem encode_mod (width n : Nat) : encode width (n % 256 ^ width) = encode width n := by
  have h := encode_decode (encode width n)
  rwa [encode_length, decode_encode] at h

theorem encode_append_inj {width m n : Nat} (hm : m < 256 ^ width) (hn : n < 256 ^ width)
    {u v : List UInt8} (h : encode width m ++ u = encode width n ++ v) : m = n ∧ u = v := by
  obtain ⟨heq, huv⟩ := List.append_inj h (by rw [encode_length, encode_length])
  refine ⟨?_, huv⟩
  rw [← decode_encode_of_lt hm, heq, decode_encode_of_lt hn]

theorem encode_uint16 (value : UInt16) : encode 2 value.toNat =
    [value.toUInt8, (value >>> 8).toUInt8] := by
  simp only [encode, List.cons.injEq, and_true]
  refine ⟨?_, ?_⟩ <;> apply UInt8.toNat_inj.mp
  · simp
  · simp [Nat.shiftRight_eq_div_pow]

theorem encode_uint32 (value : UInt32) : encode 4 value.toNat =
    [value.toUInt8, (value >>> 8).toUInt8, (value >>> 16).toUInt8, (value >>> 24).toUInt8] := by
  simp only [encode, List.cons.injEq, and_true]
  refine ⟨?_, ?_, ?_, ?_⟩ <;> apply UInt8.toNat_inj.mp
  · simp
  · simp [Nat.shiftRight_eq_div_pow]
  · simp [Nat.shiftRight_eq_div_pow, Nat.div_div_eq_div_mul]
  · simp [Nat.shiftRight_eq_div_pow, Nat.div_div_eq_div_mul]

theorem encode_uint64 (value : UInt64) : encode 8 value.toNat =
    [value.toUInt8, (value >>> 8).toUInt8, (value >>> 16).toUInt8, (value >>> 24).toUInt8,
      (value >>> 32).toUInt8, (value >>> 40).toUInt8, (value >>> 48).toUInt8,
      (value >>> 56).toUInt8] := by
  simp only [encode, List.cons.injEq, and_true]
  refine ⟨?_, ?_, ?_, ?_, ?_, ?_, ?_, ?_⟩ <;> apply UInt8.toNat_inj.mp <;>
    simp [Nat.shiftRight_eq_div_pow, Nat.div_div_eq_div_mul]

theorem encode_uint32_ofNat (n : Nat) :
    encode 4 (UInt32.ofNat n).toNat = encode 4 n := by
  have hpow : 2 ^ 32 = 256 ^ 4 := by decide
  rw [UInt32.toNat_ofNat', hpow, encode_mod]

theorem encode_uint16_ofNat (n : Nat) :
    encode 2 (UInt16.ofNat n).toNat = encode 2 n := by
  have hpow : 2 ^ 16 = 256 ^ 2 := by decide
  rw [UInt16.toNat_ofNat', hpow, encode_mod]

theorem encode_uint64_ofNat (n : Nat) : encode 8 (UInt64.ofNat n).toNat = encode 8 n := by
  have hpow : 2 ^ 64 = 256 ^ 8 := by decide
  rw [UInt64.toNat_ofNat', hpow, encode_mod]

end LittleEndian
