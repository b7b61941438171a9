import ChoonzMoba.Math.FixSqrt

namespace ChoonzMoba

structure FVec2 where
  x : Fix
  y : Fix
deriving DecidableEq, Repr

def fvec2Dot (a b : FVec2) : Fix :=
  ((fixMul a.x b.x).toInt64 + (fixMul a.y b.y).toInt64).toInt32

def fvec2Len (a : FVec2) : Fix := fixSqrt (fvec2Dot a a)

theorem fvec2Dot_toInt (a b : FVec2) : (fvec2Dot a b).toInt =
    Int.bmod (a.x.toInt * b.x.toInt / 65536 + a.y.toInt * b.y.toInt / 65536) (2 ^ 32) := by
  have hx := (fixMul a.x b.x).le_toInt
  have hx' := (fixMul a.x b.x).toInt_lt
  have hy := (fixMul a.y b.y).le_toInt
  have hy' := (fixMul a.y b.y).toInt_lt
  have hsum : Int.bmod ((fixMul a.x b.x).toInt + (fixMul a.y b.y).toInt) (2 ^ 64) =
      (fixMul a.x b.x).toInt + (fixMul a.y b.y).toInt :=
    Int.bmod_eq_of_le (by omega) (by omega)
  rw [fvec2Dot, Int64.toInt_toInt32, Int64.toInt_add, Int32.toInt_toInt64, Int32.toInt_toInt64,
    hsum, fixMul_toInt, fixMul_toInt, Int.bmod_add_bmod, Int.add_bmod_bmod]

/-- What the length is worth as a distance: the true length rounded down, up to the two floors. -/
structure Euclidean (a : FVec2) : Prop where
  x_kept : (fixMul a.x a.x).toInt = a.x.toInt * a.x.toInt / 65536
  y_kept : (fixMul a.y a.y).toInt = a.y.toInt * a.y.toInt / 65536
  lower : (fvec2Len a).toInt * (fvec2Len a).toInt ≤ a.x.toInt * a.x.toInt + a.y.toInt * a.y.toInt
  upper : a.x.toInt * a.x.toInt + a.y.toInt * a.y.toInt <
    ((fvec2Len a).toInt + 1) * ((fvec2Len a).toInt + 1) + 131072

theorem fixMul_self_kept {x : Fix} (h : x.toInt * x.toInt / 65536 < 2 ^ 31) :
    (fixMul x x).toInt = x.toInt * x.toInt / 65536 := by
  have hnonneg : 0 ≤ x.toInt * x.toInt := mul_self_nonneg _
  rw [fixMul_toInt]
  exact Int.bmod_eq_of_le (by omega) (by omega)

theorem fixSqrt_bounds {d : Fix} (hd : 0 ≤ d.toInt) :
    (fixSqrt d).toInt * (fixSqrt d).toInt ≤ d.toInt * 65536 ∧
      d.toInt * 65536 < ((fixSqrt d).toInt + 1) * ((fixSqrt d).toInt + 1) := by
  rcases Int32.lt_or_le 0 d with hpos | hzero
  · have hroot : ((d.toInt * 65536).toNat : Int) = d.toInt * 65536 := by omega
    have hlower := Int.ofNat_le.mpr (Nat.sqrt_le (d.toInt * 65536).toNat)
    have hupper := Int.ofNat_lt.mpr (Nat.lt_succ_sqrt (d.toInt * 65536).toNat)
    rw [hroot] at hlower hupper
    rw [fixSqrt_toInt hpos]
    exact ⟨hlower, hupper⟩
  · have heq : d.toInt = 0 := Int.le_antisymm (Int32.le_iff_toInt_le.mp hzero) hd
    rw [fixSqrt_of_nonpos hzero, heq]
    decide

theorem fvec2Len_euclidean {a : FVec2}
    (h : a.x.toInt * a.x.toInt / 65536 + a.y.toInt * a.y.toInt / 65536 < 2 ^ 31) :
    Euclidean a := by
  have hx : 0 ≤ a.x.toInt * a.x.toInt := mul_self_nonneg _
  have hy : 0 ≤ a.y.toInt * a.y.toInt := mul_self_nonneg _
  have hdot : (fvec2Dot a a).toInt =
      a.x.toInt * a.x.toInt / 65536 + a.y.toInt * a.y.toInt / 65536 := by
    rw [fvec2Dot_toInt]
    exact Int.bmod_eq_of_le (by omega) (by omega)
  obtain ⟨hlower, hupper⟩ := fixSqrt_bounds (d := fvec2Dot a a) (by omega)
  rw [hdot] at hlower hupper
  refine ⟨fixMul_self_kept (by omega), fixMul_self_kept (by omega), ?_, ?_⟩
  · rw [fvec2Len]
    omega
  · rw [fvec2Len]
    omega

theorem fvec2Len_wrapped {a : FVec2} (h : Euclidean a) :
    a.x.toInt * a.x.toInt / 65536 + a.y.toInt * a.y.toInt / 65536 < 2 ^ 31 := by
  refine Int.lt_of_not_ge fun hwrap => ?_
  have hx := (fixMul a.x a.x).toInt_lt
  have hy := (fixMul a.y a.y).toInt_lt
  rw [h.x_kept] at hx
  rw [h.y_kept] at hy
  have hdot : (fvec2Dot a a).toInt =
      a.x.toInt * a.x.toInt / 65536 + a.y.toInt * a.y.toInt / 65536 - 2 ^ 32 := by
    rw [fvec2Dot_toInt, ← Int.sub_bmod_right]
    exact Int.bmod_eq_of_le (by omega) (by omega)
  have hneg : fvec2Dot a a ≤ 0 := by
    rw [Int32.le_iff_toInt_le, hdot]
    exact Int.le_of_lt (by rw [Int32.toInt_zero]; omega)
  have hupper := h.upper
  rw [fvec2Len, fixSqrt_of_nonpos hneg, Int32.toInt_zero] at hupper
  omega

theorem fvec2Len_euclidean_iff (a : FVec2) :
    Euclidean a ↔
      a.x.toInt * a.x.toInt / 65536 + a.y.toInt * a.y.toInt / 65536 < 2 ^ 31 :=
  ⟨fvec2Len_wrapped, fvec2Len_euclidean⟩

theorem fvec2Len_not_euclidean :
    ¬ ∀ a : FVec2, |a.x.toInt| ≤ 512 * 65536 → |a.y.toInt| ≤ 512 * 65536 → Euclidean a := by
  intro h
  have hfar := (h ⟨33554432, 0⟩ (by decide) (by decide)).x_kept
  exact absurd hfar (by decide)

end ChoonzMoba
