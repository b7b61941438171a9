import ChoonzMoba.Library.Checked
import ChoonzMoba.Math.Fix

open Checked

namespace ChoonzMoba

def fixLerp (a b t : Fix) : Option Fix := do
  let diff ← int64 (b.toInt - a.toInt)
  let prod ← int64 (diff * t.toInt)
  let step : Fix := Int32.ofInt (prod >>> (16 : Nat))
  let sum ← int32 (a.toInt + step.toInt)
  some (Int32.ofInt sum)

def lerpStep (a b t : Fix) : Int := (b.toInt - a.toInt) * t.toInt / 65536

structure LerpExact (a b t value : Fix) : Prop where
  run : fixLerp a b t = some value
  exact : value.toInt = a.toInt + lerpStep a b t
  lower : min a.toInt b.toInt ≤ value.toInt
  upper : value.toInt ≤ max a.toInt b.toInt
  first : t = 0 → value = a
  last : t.toInt = fixOne → value = b

theorem lerp_prod_bounds (a b : Fix) {t : Fix} (ht : 0 ≤ t.toInt) (ht' : t.toInt ≤ fixOne) :
    -2 ^ 48 ≤ (b.toInt - a.toInt) * t.toInt ∧ (b.toInt - a.toInt) * t.toInt < 2 ^ 48 := by
  have ha := a.le_toInt
  have ha' := a.toInt_lt
  have hb := b.le_toInt
  have hb' := b.toInt_lt
  rw [fixOne] at ht'
  constructor
  · nlinarith
  · nlinarith

theorem fixLerp_eq {a b t : Fix} (ht : 0 ≤ t.toInt) (ht' : t.toInt ≤ fixOne) : fixLerp a b t =
    (int32 (a.toInt + Int.bmod (lerpStep a b t) (2 ^ 32))).bind fun sum => some (Int32.ofInt sum) := by
  have ha := a.le_toInt
  have ha' := a.toInt_lt
  have hb := b.le_toInt
  have hb' := b.toInt_lt
  obtain ⟨hlower, hupper⟩ := lerp_prod_bounds a b ht ht'
  rw [fixLerp, int64_eq_some (by omega) (by omega), Option.bind_eq_bind, Option.bind_some,
    int64_eq_some (by omega) (by omega), Option.bind_some, Int.shiftRight_eq_div_pow]
  dsimp only
  rw [Int32.toInt_ofInt]
  rfl

theorem add_lerpStep_bounds (a b : Fix) {t : Fix} (ht : 0 ≤ t.toInt) (ht' : t.toInt ≤ fixOne) :
    min a.toInt b.toInt ≤ a.toInt + lerpStep a b t ∧
      a.toInt + lerpStep a b t ≤ max a.toInt b.toInt := by
  rw [fixOne] at ht'
  rw [lerpStep]
  rcases Int.le_total a.toInt b.toInt with hab | hab
  · have hlower : 0 ≤ (b.toInt - a.toInt) * t.toInt := mul_nonneg (by omega) ht
    have hupper : (b.toInt - a.toInt) * t.toInt ≤ (b.toInt - a.toInt) * 65536 :=
      mul_le_mul_of_nonneg_left ht' (by omega)
    rw [min_eq_left hab, max_eq_right hab]
    omega
  · have hlower : (b.toInt - a.toInt) * 65536 ≤ (b.toInt - a.toInt) * t.toInt :=
      mul_le_mul_of_nonpos_left ht' (by omega)
    have hupper : (b.toInt - a.toInt) * t.toInt ≤ 0 :=
      mul_nonpos_of_nonpos_of_nonneg (by omega) ht
    rw [min_eq_right hab, max_eq_left hab]
    omega

theorem add_lerpStep_range (a b : Fix) {t : Fix} (ht : 0 ≤ t.toInt) (ht' : t.toInt ≤ fixOne) :
    -2 ^ 31 ≤ a.toInt + lerpStep a b t ∧ a.toInt + lerpStep a b t < 2 ^ 31 := by
  have ha := a.le_toInt
  have ha' := a.toInt_lt
  have hb := b.le_toInt
  have hb' := b.toInt_lt
  obtain ⟨hlower, hupper⟩ := add_lerpStep_bounds a b ht ht'
  omega

theorem fixLerp_exact {a b t : Fix} (ht : 0 ≤ t.toInt) (ht' : t.toInt ≤ fixOne)
    (hlower : -2 ^ 31 ≤ lerpStep a b t) (hupper : lerpStep a b t < 2 ^ 31) :
    ∃ value, LerpExact a b t value := by
  obtain ⟨hrange, hrange'⟩ := add_lerpStep_range a b ht ht'
  obtain ⟨hmin, hmax⟩ := add_lerpStep_bounds a b ht ht'
  have hvalue := Int32.toInt_ofInt_of_le hrange hrange'
  refine ⟨Int32.ofInt (a.toInt + lerpStep a b t), ?_, hvalue, ?_, ?_, ?_, ?_⟩
  · rw [fixLerp_eq ht ht', Int.bmod_eq_of_le (by omega) (by omega), int32_eq_some hrange hrange',
      Option.bind_some]
  · rwa [hvalue]
  · rwa [hvalue]
  · rintro rfl
    rw [← Int32.toInt_inj, hvalue, lerpStep, Int32.toInt_zero]
    omega
  · intro hone
    rw [← Int32.toInt_inj, hvalue, lerpStep, hone, fixOne]
    omega

theorem fixLerp_overflow {a b t : Fix} (ht : 0 ≤ t.toInt) (ht' : t.toInt ≤ fixOne) {value : Fix}
    (hrun : fixLerp a b t = some value) :
    -2 ^ 31 ≤ lerpStep a b t ∧ lerpStep a b t < 2 ^ 31 := by
  rw [fixLerp_eq ht ht', Option.bind_eq_some_iff] at hrun
  obtain ⟨sum, hsum, -⟩ := hrun
  obtain ⟨-, hlower, hupper⟩ := int32_eq_some_iff.mp hsum
  obtain ⟨hrange, hrange'⟩ := add_lerpStep_range a b ht ht'
  have ha := a.le_toInt
  have ha' := a.toInt_lt
  have hwrap := Int.bmod_add_bdiv (lerpStep a b t) (2 ^ 32)
  have hstep : -(2 ^ 32 / 2) ≤ Int.bmod (lerpStep a b t) (2 ^ 32) := Int.le_bmod (by decide)
  have hstep' : Int.bmod (lerpStep a b t) (2 ^ 32) < (2 ^ 32 + 1) / 2 := Int.bmod_lt (by decide)
  omega

theorem fixLerp_exact_iff (a b t : Fix) (ht : 0 ≤ t.toInt) (ht' : t.toInt ≤ fixOne) :
    (∃ value, LerpExact a b t value) ↔
      -2 ^ 47 ≤ (b.toInt - a.toInt) * t.toInt ∧ (b.toInt - a.toInt) * t.toInt < 2 ^ 47 := by
  constructor
  · rintro ⟨value, hexact⟩
    obtain ⟨hlower, hupper⟩ := fixLerp_overflow ht ht' hexact.run
    rw [lerpStep] at hlower hupper
    omega
  · rintro ⟨hlower, hupper⟩
    exact fixLerp_exact ht ht' (by rw [lerpStep]; omega) (by rw [lerpStep]; omega)

theorem fixLerp_exact_iff_half : ∃ value, LerpExact 0 131072 32768 value :=
  (fixLerp_exact_iff 0 131072 32768 (by decide) (by decide)).mpr (by decide)

theorem fixLerp_not_exact :
    ¬ ∀ a b t : Fix, 0 ≤ t.toInt → t.toInt ≤ fixOne → ∃ value, LerpExact a b t value := by
  intro h
  obtain ⟨value, hexact⟩ := h (-2147483648) 2147483647 65536 (by decide) (by decide)
  have hundefined : fixLerp (-2147483648) 2147483647 65536 = none := by decide
  have hrun := hexact.run
  rw [hundefined] at hrun
  cases hrun

end ChoonzMoba
