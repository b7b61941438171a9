import ChoonzMoba.Library.Loop
import Mathlib.Data.Option.Basic

/-- The computation returns something that satisfies `P`, or it aborts and `aborts` holds. -/
inductive Outcome {α : Type} (aborts : Prop) (P : α → Prop) : Option α → Prop
  | returned {a : α} : P a → Outcome aborts P (some a)
  | aborted : aborts → Outcome aborts P none

namespace Outcome

variable {α β : Type} {q q' : Prop} {P P' : α → Prop} {R : β → Prop} {x : Option α} {a : α}

theorem returns (h : Outcome q P x) (hx : x = some a) : P a := by
  cases h with
  | returned ha =>
    cases hx
    exact ha
  | aborted _ => cases hx

theorem total (h : Outcome q P x) (hq : ¬ q) : ∃ a, x = some a ∧ P a := by
  cases h with
  | returned ha => exact ⟨_, rfl, ha⟩
  | aborted haborts => exact absurd haborts hq

theorem any (x : Option α) : Outcome True (fun _ => True) x := by
  cases x with
  | none => exact .aborted trivial
  | some a => exact .returned trivial

theorem imp (h : Outcome q P x) (hq : q → q') (hP : ∀ a, P a → P' a) : Outcome q' P' x := by
  cases h with
  | returned ha => exact .returned (hP _ ha)
  | aborted haborts => exact .aborted (hq haborts)

theorem bind_eq {f : α → Option β} (h : Outcome q P x)
    (hf : ∀ a, x = some a → P a → Outcome q R (f a)) : Outcome q R (x.bind f) := by
  cases h with
  | returned ha => exact hf _ rfl ha
  | aborted haborts => exact .aborted haborts

theorem bind {f : α → Option β} (h : Outcome q P x) (hf : ∀ a, P a → Outcome q R (f a)) :
    Outcome q R (x.bind f) :=
  h.bind_eq fun a _ => hf a

theorem map {f : α → β} (h : Outcome q P x) (hf : ∀ a, P a → R (f a)) : Outcome q R (x.map f) := by
  cases h with
  | returned ha => exact .returned (hf _ ha)
  | aborted haborts => exact .aborted haborts

theorem forRangeM {σ : Type} {n : Nat} {f : σ → Nat → Option σ} {s : σ} (P : Nat → σ → Prop)
    (start : P 0 s) (keep : ∀ i t, i < n → P i t → Outcome q (P (i + 1)) (f t i)) :
    Outcome q (P n) (Loop.forRangeM n f s) := by
  induction n with
  | zero => exact .returned start
  | succ n ih =>
    rw [Loop.forRangeM_succ]
    exact (ih fun i t hi => keep i t (Nat.lt_succ_of_lt hi)).bind fun t ht =>
      keep n t n.lt_succ_self ht

end Outcome
