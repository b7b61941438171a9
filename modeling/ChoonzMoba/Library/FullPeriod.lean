import Mathlib.Algebra.Ring.GeomSum
import Mathlib.Data.Nat.ModEq
import Mathlib.Data.ZMod.Basic
import Mathlib.Dynamics.PeriodicPts.Defs
import Mathlib.Tactic.LinearCombination
import Mathlib.Tactic.Ring

open Finset Function

namespace Affine

def step {R : Type} [CommRing R] (a c x : R) : R := a * x + c

theorem iterate_step {R : Type} [CommRing R] (a c x : R) (n : ℕ) :
    (step a c)^[n] x = x + (∑ i ∈ range n, a ^ i) * ((a - 1) * x + c) := by
  induction n with
  | zero => simp
  | succ n ih =>
    have hgeom := mul_geom_sum a n
    rw [iterate_succ_apply', ih, step, sum_range_succ]
    linear_combination (x * (a - 1) + c) * hgeom

section

variable {a c k n : ℕ}

theorem pow_mod_four (ha : a % 4 = 1) (n : ℕ) : a ^ n % 4 = 1 := by
  rw [Nat.pow_mod, ha, one_pow]
  rfl

theorem geom_sum_mod_two (ha : a % 4 = 1) (n : ℕ) : (∑ i ∈ range n, a ^ i) % 2 = n % 2 := by
  induction n with
  | zero => rfl
  | succ n ih =>
    have hpow := pow_mod_four ha n
    rw [sum_range_succ]
    omega

theorem geom_sum_two_mul (a m : ℕ) :
    ∑ i ∈ range (2 * m), a ^ i = (∑ i ∈ range m, a ^ i) * (a ^ m + 1) := by
  have hshift : ∑ i ∈ range m, a ^ (m + i) = a ^ m * ∑ i ∈ range m, a ^ i := by
    rw [mul_sum]
    exact sum_congr rfl fun i _ => pow_add a m i
  rw [two_mul, sum_range_add, hshift]
  ring

theorem two_pow_dvd_geom_sum (ha : a % 4 = 1) (k n : ℕ) :
    2 ^ k ∣ ∑ i ∈ range n, a ^ i ↔ 2 ^ k ∣ n := by
  induction k generalizing n with
  | zero => simp
  | succ k ih =>
    rcases Nat.even_or_odd' n with ⟨m, rfl | rfl⟩
    · have hpow := pow_mod_four ha m
      obtain ⟨q, hq⟩ : ∃ q, a ^ m + 1 = 2 * (2 * q + 1) := ⟨(a ^ m + 1) / 4, by omega⟩
      have hodd : (2 ^ k).Coprime (2 * q + 1) :=
        Nat.Coprime.pow_left k (Nat.coprime_two_left.mpr (odd_two_mul_add_one q))
      rw [geom_sum_two_mul, hq, pow_succ', mul_left_comm, Nat.mul_dvd_mul_iff_left two_pos,
        Nat.mul_dvd_mul_iff_left two_pos, hodd.dvd_mul_right, ih]
    · have hsum := geom_sum_mod_two ha (2 * m + 1)
      rw [pow_succ']
      refine iff_of_false (fun h => ?_) fun h => ?_
      · have := Nat.mod_eq_zero_of_dvd (dvd_of_mul_right_dvd h)
        omega
      · have := Nat.mod_eq_zero_of_dvd (dvd_of_mul_right_dvd h)
        omega

theorem iterate_eq_self_iff (ha : a % 4 = 1) (hc : c % 2 = 1) (n : ℕ) (x : ZMod (2 ^ k)) :
    (step (a : ZMod (2 ^ k)) c)^[n] x = x ↔ 2 ^ k ∣ n := by
  obtain ⟨q, rfl⟩ : ∃ q, a = 4 * q + 1 := ⟨a / 4, by omega⟩
  have hdrift : ((4 * q + 1 : ℕ) - 1 : ZMod (2 ^ k)) * x + c =
      ((4 * q * x.val + c : ℕ) : ZMod (2 ^ k)) := by
    push_cast
    rw [ZMod.natCast_zmod_val]
    ring
  have hodd : Odd (4 * q * x.val + c) := Nat.odd_iff.mpr (by rw [mul_assoc]; omega)
  have hunit : IsUnit ((4 * q * x.val + c : ℕ) : ZMod (2 ^ k)) :=
    (ZMod.isUnit_iff_coprime _ _).mpr (Nat.Coprime.pow_right k (Nat.coprime_two_right.mpr hodd))
  rw [iterate_step, hdrift, add_eq_left, hunit.mul_left_eq_zero, ← two_pow_dvd_geom_sum ha,
    ← ZMod.natCast_eq_zero_iff]
  push_cast
  rfl

theorem minimalPeriod_step (ha : a % 4 = 1) (hc : c % 2 = 1) (x : ZMod (2 ^ k)) :
    minimalPeriod (step (a : ZMod (2 ^ k)) c) x = 2 ^ k := by
  refine Nat.dvd_antisymm ?_ ((iterate_eq_self_iff ha hc _ x).mp iterate_minimalPeriod)
  exact isPeriodicPt_iff_minimalPeriod_dvd.mp ((iterate_eq_self_iff ha hc _ x).mpr dvd_rfl)

theorem exists_iterate_eq (ha : a % 4 = 1) (hc : c % 2 = 1) (x y : ZMod (2 ^ k)) :
    ∃ n < 2 ^ k, (step (a : ZMod (2 ^ k)) c)^[n] x = y := by
  have hinjective : Injective fun n : Fin (2 ^ k) => (step (a : ZMod (2 ^ k)) c)^[n] x := by
    intro m n h
    refine Fin.ext (iterate_injOn_Iio_minimalPeriod ?_ ?_ h)
    · rw [minimalPeriod_step ha hc]
      exact m.isLt
    · rw [minimalPeriod_step ha hc]
      exact n.isLt
  have hcard : Nat.card (ZMod (2 ^ k)) ≤ Nat.card (Fin (2 ^ k)) := by simp
  obtain ⟨n, hn⟩ := (hinjective.bijective_of_nat_card_le hcard).surjective y
  exact ⟨n, n.isLt, hn⟩

theorem natCast_iterate_mod (a c k n x : ℕ) :
    (((fun y => (a * y + c) % 2 ^ k)^[n] x : ℕ) : ZMod (2 ^ k)) =
      (step (a : ZMod (2 ^ k)) c)^[n] x := by
  have hsemiconj : Semiconj (Nat.cast : ℕ → ZMod (2 ^ k)) (fun y => (a * y + c) % 2 ^ k)
      (step (a : ZMod (2 ^ k)) c) := fun y => by
    rw [ZMod.natCast_mod, step]
    push_cast
    rfl
  exact (hsemiconj.iterate_right n).eq x

theorem exists_iterate_mod_eq (ha : a % 4 = 1) (hc : c % 2 = 1) {x y : ℕ} (hx : x < 2 ^ k)
    (hy : y < 2 ^ k) : ∃ n < 2 ^ k, (fun z => (a * z + c) % 2 ^ k)^[n] x = y := by
  obtain ⟨n, hn, heq⟩ := exists_iterate_eq (k := k) ha hc x y
  rw [← natCast_iterate_mod, ZMod.natCast_eq_natCast_iff', Nat.mod_eq_of_lt hy] at heq
  refine ⟨n, hn, (Nat.mod_eq_of_lt ?_).symm.trans heq⟩
  cases n with
  | zero => exact hx
  | succ n =>
    rw [iterate_succ_apply']
    exact Nat.mod_lt _ (Nat.two_pow_pos k)

end

end Affine
