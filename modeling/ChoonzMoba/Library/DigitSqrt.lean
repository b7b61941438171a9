import Mathlib.Data.Nat.Sqrt
import Mathlib.Tactic.Ring

namespace DigitSqrt

-- `q` is the root found so far, in units of `2 ^ e`
structure Inv (total e n res : Nat) : Prop where
  root : ∃ q, res = q * 4 ^ e ∧ n + q * q * 4 ^ e = total ∧ total < (q + 1) * (q + 1) * 4 ^ e

theorem Inv.start {total e : Nat} (h : total < 4 ^ e) : Inv total e total 0 := by
  refine ⟨0, (Nat.zero_mul _).symm, ?_, ?_⟩
  · rw [Nat.zero_mul, Nat.add_zero]
  · rwa [Nat.one_mul]

theorem Inv.accept {total e n res : Nat} (h : Inv total (e + 1) n res) (hfit : res + 4 ^ e ≤ n) :
    Inv total e (n - (res + 4 ^ e)) (res / 2 + 4 ^ e) := by
  obtain ⟨q, rfl, hrest, hlt⟩ := h
  rw [Nat.pow_succ] at hfit hrest hlt ⊢
  refine ⟨2 * q + 1, ?_⟩
  generalize 4 ^ e = unit at hfit hrest hlt ⊢
  refine ⟨?_, ?_, ?_⟩
  · have hhalf : q * (unit * 4) = 2 * (2 * q * unit) := by ring
    rw [hhalf, Nat.mul_div_cancel_left _ Nat.two_pos]
    ring
  · have hsquare : (2 * q + 1) * (2 * q + 1) * unit =
        q * q * (unit * 4) + (q * (unit * 4) + unit) := by ring
    omega
  · have hnext : (2 * q + 1 + 1) * (2 * q + 1 + 1) * unit = (q + 1) * (q + 1) * (unit * 4) := by
      ring
    rwa [hnext]

theorem Inv.reject {total e n res : Nat} (h : Inv total (e + 1) n res) (hover : n < res + 4 ^ e) :
    Inv total e n (res / 2) := by
  obtain ⟨q, rfl, hrest, hlt⟩ := h
  rw [Nat.pow_succ] at hover hrest hlt ⊢
  refine ⟨2 * q, ?_⟩
  generalize 4 ^ e = unit at hover hrest hlt ⊢
  refine ⟨?_, ?_, ?_⟩
  · have hhalf : q * (unit * 4) = 2 * (2 * q * unit) := by ring
    rw [hhalf, Nat.mul_div_cancel_left _ Nat.two_pos]
  · have hsquare : 2 * q * (2 * q) * unit = q * q * (unit * 4) := by ring
    rwa [hsquare]
  · have hnext : (2 * q + 1) * (2 * q + 1) * unit =
        q * q * (unit * 4) + (q * (unit * 4) + unit) := by ring
    omega

theorem Inv.add_lt {total e n res width : Nat} (h : Inv total (e + 1) n res)
    (htotal : total < 4 ^ width) (hwidth : e + 1 ≤ width) : res + 4 ^ e < 4 ^ width := by
  obtain ⟨q, rfl, hrest, -⟩ := h
  obtain ⟨k, rfl⟩ := Nat.exists_eq_add_of_le hwidth
  have hunit : 4 ^ e < 4 ^ (e + 1) := Nat.pow_lt_pow_right (by decide) (Nat.lt_succ_self e)
  rw [Nat.pow_add 4 (e + 1) k] at htotal ⊢
  generalize 4 ^ (e + 1) = unit at *
  have hsquare : q * q < 4 ^ k := by
    refine Nat.lt_of_mul_lt_mul_left (a := unit) ?_
    rw [Nat.mul_comm unit (q * q)]
    omega
  have hq : q + 1 ≤ 4 ^ k := Nat.lt_of_le_of_lt (Nat.le_mul_self q) hsquare
  calc q * unit + 4 ^ e < q * unit + unit := Nat.add_lt_add_left hunit _
    _ = unit * (q + 1) := by ring
    _ ≤ unit * 4 ^ k := Nat.mul_le_mul_left unit hq

theorem Inv.sqrt {total n res : Nat} (h : Inv total 0 n res) : res = Nat.sqrt total := by
  obtain ⟨q, rfl, hrest, hlt⟩ := h
  rw [Nat.pow_zero, Nat.mul_one] at *
  exact Nat.eq_sqrt.mpr ⟨by omega, hlt⟩

end DigitSqrt
