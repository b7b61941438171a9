import ChoonzMoba.Math.FixSin

open Checked

namespace ChoonzMoba

theorem fixSinTab_length : fixSinTab.length = 1024 := by decide +kernel

theorem fixSinTab_bounds : ∀ entry ∈ fixSinTab, -fixOne ≤ entry ∧ entry ≤ fixOne := by
  decide +kernel

def fixSinEntry (i : Nat) : Int := fixSinTab.getD (i % 1024) 0

theorem fixSinEntry_rising : ∀ i < 256, fixSinEntry i ≤ fixSinEntry (i + 1) := by
  decide +kernel

theorem fixSinEntry_mem (i : Nat) : fixSinEntry i ∈ fixSinTab := by
  have hlt : i % 1024 < fixSinTab.length := by
    rw [fixSinTab_length]
    exact Nat.mod_lt i (by decide)
  rw [fixSinEntry, List.getD_eq_getElem _ _ hlt]
  exact List.getElem_mem hlt

theorem fixSinTab_getElem? {i : Nat} (hi : i < 1024) : fixSinTab[i]? = some (fixSinEntry i) := by
  have hlt : i < fixSinTab.length := by rwa [fixSinTab_length]
  rw [fixSinEntry, Nat.mod_eq_of_lt hi, List.getD_eq_getElem _ _ hlt, List.getElem?_eq_getElem hlt]

theorem fixSinRead_entry {i : Nat} (hi : i < 1024) : fixSinRead i = some (fixSinEntry i) := by
  rw [fixSinRead, if_neg (by omega), Int.toNat_natCast, fixSinTab_getElem? hi]

theorem fixSinRead_around (i : Nat) : fixSinRead (i % 1024 : Nat) = some (fixSinEntry i) := by
  rw [fixSinRead_entry (Nat.mod_lt i (by decide)), fixSinEntry, Nat.mod_mod]
  rfl

theorem land_fixSinN (i : Nat) : Int.land i (fixSinN - 1) = (i % 1024 : Nat) := by
  have hmask : fixSinN - 1 = (2 ^ 10 - 1 : Nat) := by decide
  rw [hmask, ← Nat.and_two_pow_sub_one_eq_mod i 10]
  rfl

/-- Where the angle stands on the circle, in `fixTwoPi` parts of a cell. -/
def fixSinPosition (rad : Fix) : Nat := (rad.toInt % fixTwoPi).toNat * 1024

-- the truncated remainder of a negative angle is a turn short
theorem fixSinPos_eq (rad : Fix) : fixSinPos rad = some (fixSinPosition rad : Int) := by
  have hnonneg : 0 ≤ rad.toInt % fixTwoPi := Int.emod_nonneg _ (by decide)
  have hlt : rad.toInt % fixTwoPi < fixTwoPi := Int.emod_lt_of_pos _ (by decide)
  have hturn : (if rad.toInt.tmod fixTwoPi < 0 then int64 (rad.toInt.tmod fixTwoPi + fixTwoPi)
      else some (rad.toInt.tmod fixTwoPi)) = some (rad.toInt % fixTwoPi) := by
    have hturns : (fixTwoPi.natAbs : Int) = fixTwoPi := by decide
    rw [Int.tmod_eq_emod]
    rcases Classical.em (0 ≤ rad.toInt ∨ fixTwoPi ∣ rad.toInt) with hkept | hshort
    · rw [if_pos hkept, Nat.cast_zero, Int.sub_zero, if_neg (Int.not_lt.mpr hnonneg)]
    · rw [if_neg hshort, hturns, if_pos (Int.sub_neg_of_lt hlt), Int.sub_add_cancel]
      rw [fixTwoPi] at hnonneg hlt ⊢
      exact int64_eq_some (by omega) (by omega)
  rw [fixSinPos, hturn, Option.bind_eq_bind, Option.bind_some, fixSinPosition, fixSinN]
  rw [fixTwoPi] at hnonneg hlt ⊢
  rw [int64_eq_some (by omega) (by omega)]
  congr 1
  omega

theorem fixSinPosition_lt (rad : Fix) : fixSinPosition rad / 411775 < 1024 := by
  have hlt : rad.toInt % fixTwoPi < fixTwoPi := Int.emod_lt_of_pos _ (by decide)
  rw [Nat.div_lt_iff_lt_mul (by decide), fixSinPosition]
  rw [fixTwoPi] at hlt ⊢
  omega

theorem fixSinEntry_bounds (i : Nat) : -65536 ≤ fixSinEntry i ∧ fixSinEntry i ≤ 65536 :=
  fixSinTab_bounds _ (fixSinEntry_mem i)

theorem fixSinTable_bounds (pos : Nat) :
    -65536 ≤ Interpolation.table fixSinEntry 411775 pos ∧
      Interpolation.table fixSinEntry 411775 pos ≤ 65536 := by
  obtain ⟨ha, ha'⟩ := fixSinEntry_bounds (pos / 411775)
  obtain ⟨hb, hb'⟩ := fixSinEntry_bounds (pos / 411775 + 1)
  obtain ⟨hlower, hupper⟩ := Interpolation.min_le_between (fixSinEntry (pos / 411775))
    (fixSinEntry (pos / 411775 + 1)) (Nat.mod_lt pos (by decide : 0 < 411775))
  exact ⟨Int.le_trans (le_min ha hb) hlower, Int.le_trans hupper (max_le ha' hb')⟩

theorem gap_mul_bounds {a b : Int} (ha : -65536 ≤ a ∧ a ≤ 65536) (hb : -65536 ≤ b ∧ b ≤ 65536)
    {frac : Nat} (hfrac : frac < 411775) : -2 ^ 63 ≤ (b - a) * frac ∧ (b - a) * frac < 2 ^ 63 := by
  have hnonneg : (0 : Int) ≤ frac := Int.natCast_nonneg frac
  have hlt : (frac : Int) < 411775 := Int.ofNat_lt.mpr hfrac
  constructor
  · nlinarith
  · nlinarith

theorem fixSin_eq (rad : Fix) : fixSin rad =
    some (Int32.ofInt (Interpolation.table fixSinEntry 411775 (fixSinPosition rad))) := by
  have hunit : fixTwoPi = (411775 : Nat) := rfl
  have hcell := fixSinPosition_lt rad
  have hvalue := fixSinTable_bounds (fixSinPosition rad)
  have ha := fixSinEntry_bounds (fixSinPosition rad / 411775)
  have hb := fixSinEntry_bounds (fixSinPosition rad / 411775 + 1)
  have hfrac : fixSinPosition rad % 411775 < 411775 := Nat.mod_lt _ (by decide)
  obtain ⟨hprod, hprod'⟩ := gap_mul_bounds ha hb hfrac
  rw [Interpolation.table, Interpolation.between] at hvalue ⊢
  have hnext : ((fixSinPosition rad / 411775 : Nat) : Int) + 1 =
      (fixSinPosition rad / 411775 + 1 : Nat) := rfl
  rw [fixSin, fixSinPos_eq, Option.bind_eq_bind, Option.bind_some]
  dsimp only
  rw [hunit, ← Int.ofNat_tdiv, ← Int.ofNat_tmod, fixSinRead_entry hcell, Option.bind_some,
    int64_eq_some (by omega) (by omega), Option.bind_some, hnext, land_fixSinN,
    fixSinRead_around, Option.bind_some, int32_eq_some (by omega) (by omega), Option.bind_some,
    int64_eq_some hprod hprod', Option.bind_some, int64_eq_some (by omega) (by omega),
    Option.bind_some]

theorem fixSin_congr {r r' : Fix} (h : r.toInt % fixTwoPi = r'.toInt % fixTwoPi) :
    fixSin r = fixSin r' := by
  rw [fixSin_eq, fixSin_eq, fixSinPosition, fixSinPosition, h]

theorem fixSin_value (rad : Fix) : ∃ value, fixSin rad = some value ∧
    value.toInt = Interpolation.table fixSinEntry 411775 (fixSinPosition rad) := by
  obtain ⟨hlower, hupper⟩ := fixSinTable_bounds (fixSinPosition rad)
  exact ⟨_, fixSin_eq rad, Int32.toInt_ofInt_of_le (by omega) (by omega)⟩

theorem fixSin_mono {r r' : Fix} (hnonneg : 0 ≤ r.toInt) (hle : r.toInt ≤ r'.toInt)
    (hquarter : r'.toInt ≤ 102943) :
    ∃ value value', fixSin r = some value ∧ fixSin r' = some value' ∧
      value.toInt ≤ value'.toInt := by
  obtain ⟨value, hvalue, heq⟩ := fixSin_value r
  obtain ⟨value', hvalue', heq'⟩ := fixSin_value r'
  have hpos : fixSinPosition r = r.toInt.toNat * 1024 := by
    rw [fixSinPosition, fixTwoPi, Int.emod_eq_of_lt hnonneg (by omega)]
  have hpos' : fixSinPosition r' = r'.toInt.toNat * 1024 := by
    rw [fixSinPosition, fixTwoPi, Int.emod_eq_of_lt (by omega) (by omega)]
  refine ⟨value, value', hvalue, hvalue', ?_⟩
  rw [heq, heq', hpos, hpos']
  exact Interpolation.table_mono (by decide) fixSinEntry_rising (by omega) (by omega)

theorem fixCos_eq {r s : Fix} (h : s.toInt % fixTwoPi = (r.toInt + fixHalfPi) % fixTwoPi) :
    fixCos r = fixSin s := by
  have hlower := r.le_toInt
  have hupper := r.toInt_lt
  have hrem : (r.toInt + fixHalfPi).tmod fixTwoPi < 411775 := Int.tmod_lt_of_pos _ (by decide)
  have hrem' : -411775 < (r.toInt + fixHalfPi).tmod fixTwoPi := Int.lt_tmod_of_pos _ (by decide)
  rw [fixCos, int64_eq_some (by rw [fixHalfPi]; omega) (by rw [fixHalfPi]; omega),
    Option.bind_eq_bind, Option.bind_some]
  refine fixSin_congr ?_
  rw [Int32.toInt_ofInt_of_le (by omega) (by omega), h, Int.tmod_def,
    Int.sub_mul_emod_self_left]

theorem fixSin_safe :
    (∀ rad : Fix, ∃ pos idx a b value,
      fixSinPos rad = some pos ∧ pos.tdiv fixTwoPi = (idx : Nat) ∧ idx < 1024 ∧
      fixSinTab[idx]? = some a ∧ fixSinTab[(idx + 1) % 1024]? = some b ∧
      fixSin rad = some value ∧ min a b ≤ value.toInt ∧ value.toInt ≤ max a b ∧
      -fixOne ≤ value.toInt ∧ value.toInt ≤ fixOne) ∧
    (∀ r r' : Fix, r.toInt % fixTwoPi = r'.toInt % fixTwoPi → fixSin r = fixSin r') ∧
    (∀ r r' : Fix, 0 ≤ r.toInt → r.toInt ≤ r'.toInt → r'.toInt ≤ 102943 →
      ∃ value value', fixSin r = some value ∧ fixSin r' = some value' ∧
        value.toInt ≤ value'.toInt) ∧
    ∀ r s : Fix, s.toInt % fixTwoPi = (r.toInt + fixHalfPi) % fixTwoPi →
      fixCos r = fixSin s := by
  refine ⟨fun rad => ?_, fun r r' => fixSin_congr, fun r r' => fixSin_mono, fun r s => fixCos_eq⟩
  obtain ⟨value, hvalue, heq⟩ := fixSin_value rad
  have hcell := fixSinPosition_lt rad
  have hnext : (fixSinPosition rad / 411775 + 1) % 1024 < 1024 := Nat.mod_lt _ (by decide)
  obtain ⟨hlower, hupper⟩ := Interpolation.min_le_between
    (fixSinEntry (fixSinPosition rad / 411775)) (fixSinEntry (fixSinPosition rad / 411775 + 1))
    (Nat.mod_lt (fixSinPosition rad) (by decide : 0 < 411775))
  obtain ⟨hmin, hmax⟩ := fixSinTable_bounds (fixSinPosition rad)
  have haround : fixSinEntry ((fixSinPosition rad / 411775 + 1) % 1024) =
      fixSinEntry (fixSinPosition rad / 411775 + 1) := by
    rw [fixSinEntry, Nat.mod_mod]
    rfl
  refine ⟨_, fixSinPosition rad / 411775, _, _, value, fixSinPos_eq rad, rfl, hcell,
    fixSinTab_getElem? hcell, fixSinTab_getElem? hnext, hvalue, ?_⟩
  rw [heq, haround]
  exact ⟨hlower, hupper, hmin, hmax⟩

theorem fixSin_safe_turn : fixSin 123 = fixSin 411898 ∧ fixCos 2147483647 = fixSin 179966 :=
  ⟨fixSin_safe.2.1 123 411898 (by decide), fixSin_safe.2.2.2 2147483647 179966 (by decide)⟩

end ChoonzMoba
