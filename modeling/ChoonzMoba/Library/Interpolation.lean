import Mathlib.Algebra.Order.Ring.Int

namespace Interpolation

-- the quotient is the truncating one
def between (a b : Int) (unit frac : Nat) : Int := a + ((b - a) * frac).tdiv unit

def table (entry : Nat → Int) (unit pos : Nat) : Int :=
  between (entry (pos / unit)) (entry (pos / unit + 1)) unit (pos % unit)

theorem between_of_le {a b : Int} (h : a ≤ b) (unit frac : Nat) :
    between a b unit frac = a + (b - a) * frac / unit := by
  rw [between, Int.tdiv_eq_ediv_of_nonneg (mul_nonneg (by omega) (Int.natCast_nonneg _))]

theorem between_of_ge {a b : Int} (h : b ≤ a) (unit frac : Nat) :
    between a b unit frac = a - (a - b) * frac / unit := by
  have hneg : (b - a) * (frac : Int) = -((a - b) * frac) := by rw [← neg_mul, neg_sub]
  rw [between, hneg, Int.neg_tdiv,
    Int.tdiv_eq_ediv_of_nonneg (mul_nonneg (by omega) (Int.natCast_nonneg _)), ← sub_eq_add_neg]

theorem gap_le {gap : Int} (hgap : 0 ≤ gap) {unit frac : Nat} (hfrac : frac < unit) :
    0 ≤ gap * frac / unit ∧ gap * frac / unit ≤ gap := by
  have hunit : (0 : Int) < unit := Int.natCast_pos.mpr (Nat.zero_lt_of_lt hfrac)
  refine ⟨Int.ediv_nonneg (mul_nonneg hgap (Int.natCast_nonneg _)) (Int.le_of_lt hunit), ?_⟩
  refine Int.ediv_le_of_le_mul hunit (mul_le_mul_of_nonneg_left ?_ hgap)
  exact Int.ofNat_le.mpr (Nat.le_of_lt hfrac)

theorem min_le_between (a b : Int) {unit frac : Nat} (hfrac : frac < unit) :
    min a b ≤ between a b unit frac ∧ between a b unit frac ≤ max a b := by
  rcases Int.le_total a b with h | h
  · obtain ⟨hlower, hupper⟩ := gap_le (Int.sub_nonneg_of_le h) hfrac
    rw [between_of_le h, min_eq_left h, max_eq_right h]
    omega
  · obtain ⟨hlower, hupper⟩ := gap_le (Int.sub_nonneg_of_le h) hfrac
    rw [between_of_ge h, min_eq_right h, max_eq_left h]
    omega

theorem between_mono {a b : Int} (h : a ≤ b) {unit frac frac' : Nat} (hunit : 0 < unit)
    (hle : frac ≤ frac') : between a b unit frac ≤ between a b unit frac' := by
  rw [between_of_le h, between_of_le h]
  refine Int.add_le_add_left ?_ a
  refine Int.ediv_le_ediv (Int.natCast_pos.mpr hunit) ?_
  exact mul_le_mul_of_nonneg_left (Int.ofNat_le.mpr hle) (Int.sub_nonneg_of_le h)

theorem entry_mono {entry : Nat → Int} {last : Nat} (h : ∀ i < last, entry i ≤ entry (i + 1))
    {i j : Nat} (hij : i ≤ j) (hj : j ≤ last) : entry i ≤ entry j := by
  induction j with
  | zero =>
    obtain rfl := Nat.le_zero.mp hij
    exact Int.le_refl _
  | succ j ih =>
    rcases Nat.eq_or_lt_of_le hij with rfl | hlt
    · exact Int.le_refl _
    · exact Int.le_trans (ih (Nat.le_of_lt_succ hlt) (Nat.le_of_succ_le hj)) (h j hj)

theorem table_mono {entry : Nat → Int} {last unit : Nat} (hunit : 0 < unit)
    (hentry : ∀ i < last, entry i ≤ entry (i + 1)) {pos pos' : Nat} (hle : pos ≤ pos')
    (hlast : pos' / unit < last) : table entry unit pos ≤ table entry unit pos' := by
  have hcell : pos / unit ≤ pos' / unit := Nat.div_le_div_right hle
  rcases Nat.eq_or_lt_of_le hcell with hsame | hbefore
  · rw [table, table, hsame]
    refine between_mono (hentry _ hlast) hunit ?_
    have hpos := Nat.div_add_mod pos unit
    have hpos' := Nat.div_add_mod pos' unit
    rw [hsame] at hpos
    omega
  · have hgap := hentry (pos / unit) (Nat.lt_trans hbefore hlast)
    have hgap' := hentry (pos' / unit) hlast
    calc table entry unit pos
        ≤ entry (pos / unit + 1) := by
          have hbound := (min_le_between (entry (pos / unit)) (entry (pos / unit + 1))
            (Nat.mod_lt pos hunit)).2
          rwa [max_eq_right hgap] at hbound
      _ ≤ entry (pos' / unit) := entry_mono hentry hbefore (Nat.le_of_lt hlast)
      _ ≤ table entry unit pos' := by
          have hbound := (min_le_between (entry (pos' / unit)) (entry (pos' / unit + 1))
            (Nat.mod_lt pos' hunit)).1
          rwa [min_eq_left hgap'] at hbound

end Interpolation
