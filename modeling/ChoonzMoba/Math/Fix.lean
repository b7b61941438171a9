import Mathlib.Tactic.Common
import Mathlib.Tactic.Linarith

namespace ChoonzMoba

abbrev Fix := Int32

def fixOne : Int := 65536

def fixFromInt (v : Int32) : Fix := (v.toUInt32 <<< 16).toInt32

def fixMul (a b : Fix) : Fix := ((a.toInt64 * b.toInt64) >>> 16).toInt32

def simHz : Int := 30

def simDtFixed : Fix := Int32.ofInt (fixOne / simHz)

def fixAddWrap (a b : Fix) : Fix := (a.toUInt32 + b.toUInt32).toInt32

theorem int64_shiftRight_floor (x : Int64) : (x >>> 16).toInt = x.toInt / 65536 := by
  have h : (x >>> 16).toBitVec = x.toBitVec.sshiftRight 16 := rfl
  rw [← Int64.toInt_toBitVec, h, BitVec.toInt_sshiftRight, Int64.toInt_toBitVec,
    Int.shiftRight_eq_div_pow]
  rfl

theorem fixMul_toInt (a b : Fix) :
    (fixMul a b).toInt = Int.bmod (a.toInt * b.toInt / 65536) (2 ^ 32) := by
  have ha := a.le_toInt
  have ha' := a.toInt_lt
  have hb := b.le_toInt
  have hb' := b.toInt_lt
  rw [fixMul, Int64.toInt_toInt32, int64_shiftRight_floor, Int64.toInt_mul, Int32.toInt_toInt64,
    Int32.toInt_toInt64]
  have hlo : -(2 ^ 31) * 2 ^ 31 ≤ a.toInt * b.toInt := by nlinarith
  have hhi : a.toInt * b.toInt ≤ 2 ^ 31 * 2 ^ 31 := by nlinarith
  congr 2
  generalize a.toInt * b.toInt = x at hlo hhi
  rw [Int.bmod_eq_of_le] <;> omega

theorem fixAddWrap_toInt (a b : Fix) :
    (fixAddWrap a b).toInt = Int.bmod (a.toInt + b.toInt) (2 ^ 32) := by
  have h : fixAddWrap a b = a + b := by simp [fixAddWrap]
  rw [h, Int32.toInt_add]

end ChoonzMoba
