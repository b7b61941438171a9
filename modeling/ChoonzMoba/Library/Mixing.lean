import Mathlib.Data.Int.CardIntervalMod
import Mathlib.Data.Nat.Bitwise
import Mathlib.Data.Nat.Periodic
import Mathlib.Data.Set.Card
import Mathlib.SetTheory.Cardinal.Finite

open Function

namespace Mixing

theorem xor_shiftRight_injective {k : ℕ} (hk : 0 < k) : Injective fun x : ℕ => x ^^^ (x >>> k) := by
  intro x y h
  have hfixed : (x ^^^ y) >>> k = x ^^^ y := by
    have hy : y >>> k = y ^^^ (x ^^^ x >>> k) :=
      (Nat.xor_xor_cancel_left _ _).symm.trans (congrArg (y ^^^ ·) h.symm)
    rw [Nat.shiftRight_xor_distrib, hy, Nat.xor_comm, Nat.xor_assoc, Nat.xor_xor_cancel_right,
      Nat.xor_comm]
  have hsmall : (x ^^^ y) / 2 ^ k = x ^^^ y := by rwa [← Nat.shiftRight_eq_div_pow]
  have hzero : x ^^^ y = 0 := by
    by_contra hne
    have hlt := Nat.div_lt_self (Nat.pos_of_ne_zero hne) (Nat.one_lt_two_pow hk.ne')
    omega
  exact Nat.xor_eq_zero_iff.mp hzero

theorem rotateRight_injective {w r : ℕ} (hr : r < w) :
    Injective fun x : BitVec w => x.rotateRight r := by
  intro x y h
  refine BitVec.eq_of_getLsbD_eq fun i hi => ?_
  by_cases hlow : i < r
  · have hbit := congrArg (fun z : BitVec w => z.getLsbD (i + (w - r))) h
    simp only [BitVec.getLsbD_rotateRight_of_lt hr] at hbit
    have hhigh : ¬ i + (w - r) < w - r := by omega
    have hinside : i + (w - r) < w := by omega
    simpa [hhigh, hinside] using hbit
  · have hbit := congrArg (fun z : BitVec w => z.getLsbD (i - r)) h
    simp only [BitVec.getLsbD_rotateRight_of_lt hr] at hbit
    have hhigh : i - r < w - r := by omega
    have hback : r + (i - r) = i := by omega
    simpa [hhigh, hback] using hbit

theorem ncard_output {α β γ : Type} {f : α → β × γ} (hf : Bijective f) (outputs : Set β) :
    {a | (f a).1 ∈ outputs}.ncard = outputs.ncard * Nat.card γ := by
  have hset : {a | (f a).1 ∈ outputs} = Set.preimage f (outputs ×ˢ Set.univ) := by
    ext a
    simp
  rw [hset, Set.ncard_preimage_of_injective_subset_range hf.injective
    (by rw [hf.surjective.range_eq]; exact Set.subset_univ _), Set.ncard_prod, Set.ncard_univ]

theorem card_residue {b r : ℕ} (hr : r < b) (start periods : ℕ) :
    ((Finset.Ico start (start + periods * b)).filter fun x => x % b = r).card = periods := by
  have hperiodic : Function.Periodic (fun x => x % b = r) (periods * b) := by
    intro x
    simp
  rw [Nat.filter_Ico_card_eq_of_periodic start _ _ hperiodic]
  have hcount := Nat.count_modEq_card (periods * b) (Nat.zero_lt_of_lt hr) r
  rw [Nat.mul_div_cancel _ (Nat.zero_lt_of_lt hr), Nat.mul_mod_left, if_neg (Nat.not_lt_zero _),
    Nat.add_zero] at hcount
  simp only [Nat.ModEq, Nat.mod_eq_of_lt hr] at hcount
  exact hcount

end Mixing
