import ChoonzMoba.Library.DigitSqrt
import ChoonzMoba.Math.Fix

open Function

namespace ChoonzMoba

structure IsqrtState where
  n : UInt64
  res : UInt64
  bit : UInt64
deriving DecidableEq, Repr

theorem shiftRight_one_toNat (res : UInt64) : (res >>> 1).toNat = res.toNat / 2 := by
  rw [UInt64.toNat_shiftRight]
  change res.toNat >>> 1 = _
  rw [Nat.shiftRight_eq_div_pow]

theorem shiftRight_two_toNat (bit : UInt64) : (bit >>> 2).toNat = bit.toNat / 4 := by
  rw [UInt64.toNat_shiftRight]
  change bit.toNat >>> 2 = _
  rw [Nat.shiftRight_eq_div_pow]

theorem shiftRight_two_lt {bit : UInt64} (h : 0 < bit.toNat) : (bit >>> 2).toNat < bit.toNat := by
  rw [shiftRight_two_toNat]
  exact Nat.div_lt_self h (by decide)

-- while (bit > n) bit >>= 2
def fixIsqrtAlign (n bit : UInt64) : UInt64 :=
  if n < bit then fixIsqrtAlign n (bit >>> 2) else bit
termination_by bit.toNat
decreasing_by exact shiftRight_two_lt (Nat.zero_lt_of_lt (UInt64.lt_iff_toNat_lt.mp ‹_›))

def fixIsqrtStep (s : IsqrtState) : IsqrtState :=
  if s.res + s.bit ≤ s.n then
    { n := s.n - (s.res + s.bit), res := (s.res >>> 1) + s.bit, bit := s.bit >>> 2 }
  else
    { n := s.n, res := s.res >>> 1, bit := s.bit >>> 2 }

theorem fixIsqrtStep_bit (s : IsqrtState) : (fixIsqrtStep s).bit = s.bit >>> 2 := by
  rw [fixIsqrtStep]
  split
  · rfl
  · rfl

-- while (bit) { ... }
def fixIsqrtLoop (s : IsqrtState) : IsqrtState :=
  if s.bit = 0 then s else fixIsqrtLoop (fixIsqrtStep s)
termination_by s.bit.toNat
decreasing_by
  rw [fixIsqrtStep_bit]
  exact shiftRight_two_lt (Nat.pos_of_ne_zero fun h => ‹¬_› (UInt64.toNat_inj.mp h))

def fixIsqrtStart (n : UInt64) : IsqrtState :=
  { n := n, res := 0, bit := fixIsqrtAlign n ((1 : UInt64) <<< 62) }

def fixIsqrt64 (n : UInt64) : UInt64 := (fixIsqrtLoop (fixIsqrtStart n)).res

def fixSqrt (x : Fix) : Fix :=
  if x ≤ 0 then 0 else (fixIsqrt64 (x.toUInt32.toUInt64 <<< 16)).toUInt32.toInt32

structure IsqrtInv (total : Nat) (e : Nat) (s : IsqrtState) : Prop where
  bit : s.bit.toNat = 4 ^ e / 4
  digits : DigitSqrt.Inv total e s.n.toNat s.res.toNat

theorem pow_four_succ_div (e : Nat) : 4 ^ (e + 1) / 4 = 4 ^ e := by
  rw [Nat.pow_succ]
  exact Nat.mul_div_cancel _ (by decide)

theorem fixIsqrtAlign_spec (n : UInt64) (e : Nat) (bit : UInt64) (hbit : bit.toNat = 4 ^ e / 4)
    (hn : n.toNat < 4 ^ e) :
    ∃ e' ≤ e, (fixIsqrtAlign n bit).toNat = 4 ^ e' / 4 ∧ n.toNat < 4 ^ e' := by
  induction e generalizing bit with
  | zero =>
    have hstop : ¬n < bit := by
      rw [UInt64.lt_iff_toNat_lt, hbit]
      exact Nat.not_lt_zero _
    rw [fixIsqrtAlign, if_neg hstop]
    exact ⟨0, Nat.le_refl 0, hbit, hn⟩
  | succ e ih =>
    rw [fixIsqrtAlign]
    split
    · next hlt =>
      rw [pow_four_succ_div] at hbit
      rw [UInt64.lt_iff_toNat_lt, hbit] at hlt
      obtain ⟨e', he', hspec⟩ := ih (bit >>> 2) (by rw [shiftRight_two_toNat, hbit]) hlt
      exact ⟨e', Nat.le_succ_of_le he', hspec⟩
    · exact ⟨e + 1, Nat.le_refl _, hbit, hn⟩

theorem fixIsqrtStart_inv (n : UInt64) : ∃ e ≤ 32, IsqrtInv n.toNat e (fixIsqrtStart n) := by
  obtain ⟨e, he, hbit, hn⟩ :=
    fixIsqrtAlign_spec n 32 ((1 : UInt64) <<< 62) (by decide) (by exact n.toNat_lt)
  exact ⟨e, he, hbit, DigitSqrt.Inv.start hn⟩

theorem IsqrtInv.add_lt {n : UInt64} {e : Nat} {s : IsqrtState} (h : IsqrtInv n.toNat e s)
    (he : e ≤ 32) (hbit : s.bit ≠ 0) : s.res.toNat + s.bit.toNat < 2 ^ 64 := by
  obtain ⟨hpow, hdigits⟩ := h
  cases e with
  | zero => exact absurd (UInt64.toNat_inj.mp hpow) hbit
  | succ e =>
    rw [hpow, pow_four_succ_div]
    exact DigitSqrt.Inv.add_lt hdigits (by exact n.toNat_lt : n.toNat < 4 ^ 32) he

theorem IsqrtInv.step {n : UInt64} {e : Nat} {s : IsqrtState} (h : IsqrtInv n.toNat (e + 1) s)
    (he : e + 1 ≤ 32) : IsqrtInv n.toNat e (fixIsqrtStep s) := by
  have hbit : s.bit.toNat = 4 ^ e := by rw [h.bit, pow_four_succ_div]
  have hfit := h.add_lt he fun hzero => by
    rw [hzero] at hbit
    exact Nat.ne_of_lt (Nat.pow_pos (by decide)) hbit
  have hsum : (s.res + s.bit).toNat = s.res.toNat + 4 ^ e := by
    rw [UInt64.toNat_add, Nat.mod_eq_of_lt hfit, hbit]
  refine ⟨by rw [fixIsqrtStep_bit, shiftRight_two_toNat, hbit], ?_⟩
  rw [fixIsqrtStep]
  split
  · next hle =>
    have hhalf : (s.res >>> 1 + s.bit).toNat = s.res.toNat / 2 + 4 ^ e := by
      rw [UInt64.toNat_add, shiftRight_one_toNat, Nat.mod_eq_of_lt (by omega), hbit]
    have hrest := UInt64.toNat_sub_of_le _ _ hle
    rw [UInt64.le_iff_toNat_le, hsum] at hle
    rw [hsum] at hrest
    dsimp only
    rw [hrest, hhalf]
    exact h.digits.accept hle
  · next hlt =>
    rw [UInt64.le_iff_toNat_le, hsum] at hlt
    dsimp only
    rw [shiftRight_one_toNat]
    exact h.digits.reject (Nat.lt_of_not_le hlt)

theorem IsqrtInv.iterate {n : UInt64} {e : Nat} {s : IsqrtState} (h : IsqrtInv n.toNat e s)
    (he : e ≤ 32) (k : Nat) (hk : k ≤ e) : IsqrtInv n.toNat (e - k) (fixIsqrtStep^[k] s) := by
  induction k with
  | zero => exact h
  | succ k ih =>
    rw [iterate_succ_apply']
    have hleft : e - k = e - (k + 1) + 1 := by omega
    have hround := ih (Nat.le_of_succ_le hk)
    rw [hleft] at hround
    exact hround.step (by omega)

theorem IsqrtInv.bit_eq_zero {total e : Nat} {s : IsqrtState} (h : IsqrtInv total e s) :
    s.bit = 0 ↔ e = 0 := by
  constructor
  · intro hzero
    cases e with
    | zero => rfl
    | succ e =>
      have hbit := h.bit
      rw [hzero, pow_four_succ_div] at hbit
      exact absurd hbit (Nat.ne_of_lt (Nat.pow_pos (by decide)))
  · rintro rfl
    exact UInt64.toNat_inj.mp h.bit

theorem fixIsqrtLoop_eq {n : UInt64} {e : Nat} {s : IsqrtState} (h : IsqrtInv n.toNat e s)
    (he : e ≤ 32) : fixIsqrtLoop s = fixIsqrtStep^[e] s := by
  induction e generalizing s with
  | zero => rw [fixIsqrtLoop, if_pos (h.bit_eq_zero.mpr rfl), iterate_zero_apply]
  | succ e ih =>
    have hbit : s.bit ≠ 0 := fun hzero => Nat.succ_ne_zero e (h.bit_eq_zero.mp hzero)
    rw [fixIsqrtLoop, if_neg hbit, iterate_succ_apply]
    exact ih (h.step he) (Nat.le_of_succ_le he)

theorem fixIsqrt64_rounds (n : UInt64) :
    ∃ rounds ≤ 32, fixIsqrtLoop (fixIsqrtStart n) = fixIsqrtStep^[rounds] (fixIsqrtStart n) ∧
      ∀ k ≤ rounds, IsqrtInv n.toNat (rounds - k) (fixIsqrtStep^[k] (fixIsqrtStart n)) := by
  obtain ⟨e, he, hstart⟩ := fixIsqrtStart_inv n
  exact ⟨e, he, fixIsqrtLoop_eq hstart he, hstart.iterate he⟩

theorem fixIsqrt64_toNat (n : UInt64) : (fixIsqrt64 n).toNat = Nat.sqrt n.toNat := by
  obtain ⟨rounds, -, hloop, hround⟩ := fixIsqrt64_rounds n
  have hlast := hround rounds (Nat.le_refl _)
  rw [Nat.sub_self] at hlast
  rw [fixIsqrt64, hloop]
  exact hlast.digits.sqrt

theorem fixSqrt_of_nonpos {x : Fix} (hx : x ≤ 0) : fixSqrt x = 0 := if_pos hx

theorem fixSqrt_toInt {x : Fix} (hx : 0 < x) :
    (fixSqrt x).toInt = Nat.sqrt (x.toInt * 65536).toNat := by
  have hpos : 0 < x.toInt := Int32.lt_iff_toInt_lt.mp hx
  have hlt := x.toInt_lt
  have hshift : (x.toUInt32.toUInt64 <<< 16).toNat = (x.toInt * 65536).toNat := by
    rw [UInt64.toNat_shiftLeft, UInt32.toNat_toUInt64, Int32.toNat_toUInt32_of_le (Int32.le_of_lt hx)]
    change x.toInt.toNat <<< 16 % 2 ^ 64 = _
    rw [Nat.shiftLeft_eq]
    omega
  have hroot : Nat.sqrt (x.toInt * 65536).toNat < 2 ^ 24 := by
    rw [Nat.sqrt_lt]
    omega
  rw [fixSqrt, if_neg (by rwa [Int32.not_le]), ← Int32.toInt_toBitVec,
    UInt32.toBitVec_toInt32, BitVec.toInt_eq_toNat_bmod, UInt32.toNat_toBitVec,
    UInt64.toNat_toUInt32, fixIsqrt64_toNat, hshift, Nat.mod_eq_of_lt (by omega),
    Int.bmod_eq_of_le (by omega) (by omega)]

theorem fixSqrt_nonneg (x : Fix) : 0 ≤ (fixSqrt x).toInt := by
  rcases Int32.lt_or_le 0 x with hx | hx
  · rw [fixSqrt_toInt hx]
    exact Int.natCast_nonneg _
  · rw [fixSqrt_of_nonpos hx]
    decide

theorem fixSqrt_mono {x y : Fix} (h : x ≤ y) : fixSqrt x ≤ fixSqrt y := by
  rw [Int32.le_iff_toInt_le]
  rcases Int32.lt_or_le 0 x with hx | hx
  · rw [fixSqrt_toInt hx, fixSqrt_toInt (Int32.lt_of_lt_of_le hx h)]
    rw [Int32.le_iff_toInt_le] at h
    exact Int.ofNat_le.mpr (Nat.sqrt_le_sqrt (by omega))
  · rw [fixSqrt_of_nonpos hx]
    exact fixSqrt_nonneg y

theorem fixSqrt_exact :
    (∀ n : UInt64,
      (∃ rounds ≤ 32, fixIsqrtLoop (fixIsqrtStart n) = fixIsqrtStep^[rounds] (fixIsqrtStart n) ∧
        ∀ k < rounds, ∃ s, fixIsqrtStep^[k] (fixIsqrtStart n) = s ∧ s.bit ≠ 0 ∧
          s.res.toNat + s.bit.toNat < 2 ^ 64 ∧ (s.res >>> 1).toNat + s.bit.toNat < 2 ^ 64) ∧
      (fixIsqrt64 n).toNat * (fixIsqrt64 n).toNat ≤ n.toNat ∧
      n.toNat < ((fixIsqrt64 n).toNat + 1) * ((fixIsqrt64 n).toNat + 1)) ∧
    (∀ x : Fix, 0 < x → (fixSqrt x).toInt = Nat.sqrt (x.toInt * 65536).toNat) ∧
    (∀ x : Fix, 0 ≤ (fixSqrt x).toInt) ∧
    ∀ x y : Fix, x ≤ y → fixSqrt x ≤ fixSqrt y := by
  refine ⟨fun n => ⟨?_, ?_⟩, fun x => fixSqrt_toInt, fixSqrt_nonneg, fun x y => fixSqrt_mono⟩
  · obtain ⟨rounds, hrounds, hloop, hinv⟩ := fixIsqrt64_rounds n
    refine ⟨rounds, hrounds, hloop, fun k hk => ⟨_, rfl, ?_⟩⟩
    have hround := hinv k (Nat.le_of_lt hk)
    have hbit : (fixIsqrtStep^[k] (fixIsqrtStart n)).bit ≠ 0 := fun hzero => by
      have := hround.bit_eq_zero.mp hzero
      omega
    have hsum := hround.add_lt (by omega) hbit
    refine ⟨hbit, hsum, ?_⟩
    rw [shiftRight_one_toNat]
    omega
  · rw [fixIsqrt64_toNat]
    exact ⟨Nat.sqrt_le _, Nat.lt_succ_sqrt _⟩

theorem fixSqrt_exact_two :
    (fixSqrt 131072).toInt = Nat.sqrt 8589934592 ∧ fixSqrt 65536 ≤ fixSqrt 131072 :=
  ⟨fixSqrt_exact.2.1 131072 (by decide), fixSqrt_exact.2.2.2 65536 131072 (by decide)⟩

end ChoonzMoba
