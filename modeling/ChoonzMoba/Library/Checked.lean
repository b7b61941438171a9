import Mathlib.Algebra.Ring.Int.Defs

namespace Checked

-- `none` is a signed overflow, which has no meaning
def signed (bits : Nat) (x : Int) : Option Int :=
  if -2 ^ bits ≤ x ∧ x < 2 ^ bits then some x else none

def int32 (x : Int) : Option Int := signed 31 x

def int64 (x : Int) : Option Int := signed 63 x

theorem signed_eq_some_iff {bits : Nat} {x y : Int} :
    signed bits x = some y ↔ x = y ∧ -2 ^ bits ≤ x ∧ x < 2 ^ bits := by
  rw [signed]
  split
  · next h => exact ⟨fun heq => ⟨Option.some.inj heq, h⟩, fun heq => congrArg some heq.1⟩
  · next h => exact ⟨fun heq => (by cases heq), fun heq => absurd heq.2 h⟩

theorem int32_eq_some_iff {x y : Int} : int32 x = some y ↔ x = y ∧ -2 ^ 31 ≤ x ∧ x < 2 ^ 31 :=
  signed_eq_some_iff

theorem int32_eq_some {x : Int} (hlower : -2 ^ 31 ≤ x) (hupper : x < 2 ^ 31) : int32 x = some x :=
  int32_eq_some_iff.mpr ⟨rfl, hlower, hupper⟩

theorem int64_eq_some {x : Int} (hlower : -2 ^ 63 ≤ x) (hupper : x < 2 ^ 63) : int64 x = some x :=
  signed_eq_some_iff.mpr ⟨rfl, hlower, hupper⟩

end Checked
