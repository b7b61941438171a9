import Mathlib.Tactic.Common

/-- The computation returns something that satisfies `P`, or stops with an error of `E`. -/
inductive Attempt {ε α : Type} (E : ε → Prop) (P : α → Prop) : Except ε α → Prop
  | ok {a : α} : P a → Attempt E P (.ok a)
  | error {e : ε} : E e → Attempt E P (.error e)

namespace Attempt

variable {ε α β : Type} {E E' : ε → Prop} {P P' : α → Prop} {R : β → Prop} {x : Except ε α}

theorem imp (h : Attempt E P x) (hE : ∀ e, E e → E' e) (hP : ∀ a, P a → P' a) :
    Attempt E' P' x := by
  cases h with
  | ok ha => exact .ok (hP _ ha)
  | error he => exact .error (hE _ he)

theorem bind {f : α → Except ε β} (h : Attempt E P x) (hf : ∀ a, P a → Attempt E R (f a)) :
    Attempt E R (x >>= f) := by
  cases h with
  | ok ha => exact hf _ ha
  | error he => exact .error he

theorem exists_ok (h : Attempt E P x) (hE : ∀ e, ¬ E e) : ∃ a, x = .ok a ∧ P a := by
  cases h with
  | ok ha => exact ⟨_, rfl, ha⟩
  | error he => exact absurd he (hE _)

end Attempt
