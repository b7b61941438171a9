import Mathlib.Data.List.Sort

namespace Comparator

variable {α ρ : Type} [LinearOrder ρ]

structure Consistent (compare : α → α → Int) : Prop where
  swap : ∀ a b, compare a b < 0 ↔ 0 < compare b a
  trans : ∀ a b c, compare a b ≤ 0 → compare b c ≤ 0 → compare a c ≤ 0

structure Sorts (sort : (α → α → Int) → List α → List α) : Prop where
  perm : ∀ compare list, Consistent compare → (sort compare list).Perm list
  ascending : ∀ compare list, Consistent compare →
    (sort compare list).Pairwise fun a b => compare a b ≤ 0

structure RanksBy (compare : α → α → Int) (rank : α → ρ) : Prop where
  lt : ∀ a b, compare a b < 0 ↔ rank a < rank b
  gt : ∀ a b, 0 < compare a b ↔ rank b < rank a

variable {compare : α → α → Int} {rank : α → ρ} {sort : (α → α → Int) → List α → List α}

theorem RanksBy.le (h : RanksBy compare rank) (a b : α) : compare a b ≤ 0 ↔ rank a ≤ rank b := by
  rw [← not_lt, ← not_lt, h.gt]

theorem RanksBy.consistent (h : RanksBy compare rank) : Consistent compare where
  swap a b := by rw [h.lt, h.gt]
  trans a b c hab hbc := by
    rw [h.le] at hab hbc ⊢
    exact hab.trans hbc

theorem RanksBy.pairwise_lt (h : RanksBy compare rank) {list : List α} (hnodup : list.Nodup)
    (hrank : ∀ a ∈ list, ∀ b ∈ list, rank a = rank b → a = b)
    (hle : list.Pairwise fun a b => compare a b ≤ 0) :
    list.Pairwise fun a b => rank a < rank b := by
  refine (hle.and hnodup).imp_of_mem fun {a b} ha hb hab => ?_
  have hrank_le := (h.le a b).mp hab.1
  exact lt_of_le_of_ne hrank_le fun heq => hab.2 (hrank a ha b hb heq)

theorem eq_of_pairwise_lt {list other : List α} (hlist : list.Pairwise fun a b => rank a < rank b)
    (hother : other.Pairwise fun a b => rank a < rank b) (hperm : list.Perm other) :
    list = other :=
  hperm.eq_of_pairwise (fun _ _ _ _ hab hba => (hab.trans hba).false.elim) hlist hother

theorem mergeSort_sorts :
    Sorts fun (compare : α → α → Int) list => list.mergeSort fun a b => decide (compare a b ≤ 0)
    where
  perm compare list _ := List.mergeSort_perm list _
  ascending compare list h := by
    refine (List.pairwise_mergeSort ?_ ?_ list).imp fun hab => of_decide_eq_true hab
    · intro a b c hab hbc
      exact decide_eq_true (h.trans a b c (of_decide_eq_true hab) (of_decide_eq_true hbc))
    · intro a b
      have := h.swap b a
      simp only [Bool.or_eq_true, decide_eq_true_eq]
      omega

end Comparator
