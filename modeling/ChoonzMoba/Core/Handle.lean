import Mathlib.Algebra.Group.Nat.Defs
import Mathlib.Data.List.Basic
import Mathlib.Tactic.Common

namespace ChoonzMoba

abbrev Handle := UInt32

def handleIndexMask : UInt32 := ((1 : UInt32) <<< 18) - 1

def handleGenMask : UInt32 := ((1 : UInt32) <<< 14) - 1

def handleNull : Handle := 0

def handleIndex (h : Handle) : Nat := (h &&& handleIndexMask).toNat

def handleGen (h : Handle) : Nat := ((h >>> 18) &&& handleGenMask).toNat

def handleMake (idx gen : Nat) : Handle :=
  ((UInt32.ofNat gen &&& handleGenMask) <<< 18) ||| (UInt32.ofNat idx &&& handleIndexMask)

def handleIsNull (h : Handle) : Bool := h == handleNull

structure EntityId where
  h : Handle
deriving DecidableEq, Repr

def EntityId.null : EntityId := ⟨handleNull⟩

@[simp] theorem handleIndexMask_toNat : handleIndexMask.toNat = 2 ^ 18 - 1 := by decide

@[simp] theorem handleGenMask_toNat : handleGenMask.toNat = 2 ^ 14 - 1 := by decide

theorem handleIndex_eq_mod (h : Handle) : handleIndex h = h.toNat % 2 ^ 18 := by
  rw [handleIndex, UInt32.toNat_and, handleIndexMask_toNat, Nat.and_two_pow_sub_one_eq_mod]

theorem handleGen_eq_div (h : Handle) : handleGen h = h.toNat / 2 ^ 18 := by
  have hlt : h.toNat < 2 ^ 32 := h.toNat_lt
  have hshift : (18 : UInt32).toNat % 32 = 18 := by decide
  rw [handleGen, UInt32.toNat_and, handleGenMask_toNat, Nat.and_two_pow_sub_one_eq_mod,
    UInt32.toNat_shiftRight, hshift, Nat.shiftRight_eq_div_pow, Nat.mod_eq_of_lt]
  omega

theorem handleMake_toNat {idx gen : Nat} (hi : idx < 2 ^ 18) (hg : gen < 2 ^ 14) :
    (handleMake idx gen).toNat = gen * 2 ^ 18 + idx := by
  have hshift : (18 : UInt32).toNat % 32 = 18 := by decide
  have hgen : (UInt32.ofNat gen).toNat = gen :=
    UInt32.toNat_ofNat_of_lt' (by simp only [UInt32.size]; omega)
  have hidx : (UInt32.ofNat idx).toNat = idx :=
    UInt32.toNat_ofNat_of_lt' (by simp only [UInt32.size]; omega)
  have hfit : gen <<< 18 < 2 ^ 32 := by rw [Nat.shiftLeft_eq]; omega
  rw [handleMake, UInt32.toNat_or, UInt32.toNat_shiftLeft, UInt32.toNat_and, UInt32.toNat_and,
    handleGenMask_toNat, handleIndexMask_toNat, Nat.and_two_pow_sub_one_eq_mod,
    Nat.and_two_pow_sub_one_eq_mod, hgen, hidx, hshift, Nat.mod_eq_of_lt hi, Nat.mod_eq_of_lt hg,
    Nat.mod_eq_of_lt hfit, Nat.shiftLeft_eq, Nat.mul_comm, Nat.two_pow_add_eq_or_of_lt hi]

theorem handleIndex_lt (h : Handle) : handleIndex h < 2 ^ 18 := by
  rw [handleIndex_eq_mod]
  exact Nat.mod_lt _ (by decide)

theorem handleGen_lt (h : Handle) : handleGen h < 2 ^ 14 := by
  have hlt : h.toNat < 2 ^ 32 := h.toNat_lt
  rw [handleGen_eq_div]
  omega

theorem handleIndex_make {idx gen : Nat} (hi : idx < 2 ^ 18) (hg : gen < 2 ^ 14) :
    handleIndex (handleMake idx gen) = idx := by
  rw [handleIndex_eq_mod, handleMake_toNat hi hg]
  omega

theorem handleGen_make {idx gen : Nat} (hi : idx < 2 ^ 18) (hg : gen < 2 ^ 14) :
    handleGen (handleMake idx gen) = gen := by
  rw [handleGen_eq_div, handleMake_toNat hi hg]
  omega

theorem handle_ext {a b : Handle} (hi : handleIndex a = handleIndex b)
    (hg : handleGen a = handleGen b) : a = b := by
  rw [handleIndex_eq_mod, handleIndex_eq_mod] at hi
  rw [handleGen_eq_div, handleGen_eq_div] at hg
  apply UInt32.toNat_inj.mp
  omega

theorem handleMake_index_gen (h : Handle) : handleMake (handleIndex h) (handleGen h) = h :=
  handle_ext (handleIndex_make (handleIndex_lt h) (handleGen_lt h))
    (handleGen_make (handleIndex_lt h) (handleGen_lt h))

@[simp] theorem handleGen_null : handleGen handleNull = 0 := by decide

theorem handleMake_ne_null {idx gen : Nat} (hi : idx < 2 ^ 18) (hpos : 0 < gen)
    (hg : gen < 2 ^ 14) : handleMake idx gen ≠ handleNull := by
  intro hnull
  have hgen := handleGen_make hi hg
  rw [hnull, handleGen_null] at hgen
  exact absurd hgen (Nat.ne_of_lt hpos)

theorem EntityId.ext_of_index_gen {a b : EntityId} (hi : handleIndex a.h = handleIndex b.h)
    (hg : handleGen a.h = handleGen b.h) : a = b := by
  cases a; cases b
  exact congrArg EntityId.mk (handle_ext hi hg)

end ChoonzMoba
