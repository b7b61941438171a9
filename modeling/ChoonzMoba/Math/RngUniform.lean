import ChoonzMoba.Library.Mixing
import ChoonzMoba.Math.Rng

open Function

namespace ChoonzMoba

def pcg32Xorshift (old : UInt64) : UInt64 := (old >>> 18) ^^^ old

def pcg32Rotate (xorshifted rot : UInt32) : UInt32 :=
  (xorshifted >>> rot) ||| (xorshifted <<< ((0 - rot) &&& 31))

theorem pcg32Next_output (r : Pcg32) : (pcg32Next r).1 =
    pcg32Rotate (pcg32Xorshift r.state >>> 27).toUInt32 (r.state >>> 59).toUInt32 := rfl

theorem pcg32Xorshift_toNat (old : UInt64) :
    (pcg32Xorshift old).toNat = old.toNat ^^^ (old.toNat >>> 18) := by
  rw [pcg32Xorshift, UInt64.toNat_xor, UInt64.toNat_shiftRight, Nat.xor_comm]
  rfl

theorem pcg32Xorshift_injective : Injective pcg32Xorshift := by
  intro x y h
  have hnat := congrArg UInt64.toNat h
  rw [pcg32Xorshift_toNat, pcg32Xorshift_toNat] at hnat
  exact UInt64.toNat_inj.mp (Mixing.xor_shiftRight_injective (by decide) hnat)

theorem pcg32Xorshift_top (old : UInt64) :
    (pcg32Xorshift old).toNat / 2 ^ 59 = old.toNat / 2 ^ 59 := by
  have hhigh : old.toNat >>> (18 + 59) = 0 := by
    rw [Nat.shiftRight_eq_div_pow]
    have hlt := old.toNat_lt
    exact Nat.div_eq_of_lt (by omega)
  rw [pcg32Xorshift_toNat, ← Nat.shiftRight_eq_div_pow, Nat.shiftRight_xor_distrib,
    ← Nat.shiftRight_add, hhigh, Nat.xor_zero, Nat.shiftRight_eq_div_pow]

theorem pcg32Rotate_toBitVec {xorshifted rot : UInt32} (hrot : rot.toNat < 32) :
    (pcg32Rotate xorshifted rot).toBitVec = xorshifted.toBitVec.rotateRight rot.toNat := by
  have hback : ((0 - rot) &&& 31).toNat = (32 - rot.toNat) % 32 := by
    have h31 : (31 : UInt32).toNat = 2 ^ 5 - 1 := rfl
    rw [UInt32.toNat_and, h31, Nat.and_two_pow_sub_one_eq_mod, UInt32.toNat_sub, UInt32.toNat_zero]
    omega
  have hright : (rot.toBitVec % 32).toNat = rot.toNat := Nat.mod_eq_of_lt hrot
  have hleft : ((0 - rot &&& 31).toBitVec % 32).toNat = (32 - rot.toNat) % 32 := by
    rw [BitVec.toNat_umod, UInt32.toNat_toBitVec, hback]
    exact Nat.mod_mod _ _
  rw [pcg32Rotate, BitVec.rotateRight_def, UInt32.toBitVec_or, UInt32.toBitVec_shiftRight,
    UInt32.toBitVec_shiftLeft, BitVec.ushiftRight_eq', BitVec.shiftLeft_eq', hright, hleft,
    Nat.mod_eq_of_lt hrot]
  rcases Nat.eq_zero_or_pos rot.toNat with hzero | hpos
  · simp [hzero]
  · rw [Nat.mod_eq_of_lt (by omega : 32 - rot.toNat < 32)]

theorem pcg32Rotate_injective {rot : UInt32} (hrot : rot.toNat < 32) :
    Injective (pcg32Rotate · rot) := by
  intro x y h
  have hbits := congrArg UInt32.toBitVec h
  dsimp only at hbits
  rw [pcg32Rotate_toBitVec hrot, pcg32Rotate_toBitVec hrot] at hbits
  exact UInt32.toBitVec_inj.mp (Mixing.rotateRight_injective hrot hbits)

theorem shiftRight_59_toNat (old : UInt64) : (old >>> 59).toUInt32.toNat = old.toNat / 2 ^ 59 := by
  have hlt := old.toNat_lt
  rw [UInt64.toNat_toUInt32, UInt64.toNat_shiftRight]
  change old.toNat >>> 59 % 2 ^ 32 = _
  rw [Nat.shiftRight_eq_div_pow]
  omega

theorem shiftRight_27_toNat (z : UInt64) : (z >>> 27).toUInt32.toNat = z.toNat / 2 ^ 27 % 2 ^ 32 := by
  rw [UInt64.toNat_toUInt32, UInt64.toNat_shiftRight]
  change z.toNat >>> 27 % 2 ^ 32 = _
  rw [Nat.shiftRight_eq_div_pow]

def pcg32Split (inc old : UInt64) : UInt32 × (Fin (2 ^ 5) × Fin (2 ^ 27)) :=
  ((pcg32Next ⟨old, inc⟩).1,
    ⟨old.toNat / 2 ^ 59, by have := old.toNat_lt; omega⟩,
    ⟨(pcg32Xorshift old).toNat % 2 ^ 27, Nat.mod_lt _ (by decide)⟩)

theorem pcg32Split_injective (inc : UInt64) : Injective (pcg32Split inc) := by
  intro x y h
  obtain ⟨houtput, hparts⟩ := Prod.mk.inj h
  obtain ⟨htop, hlow⟩ := Prod.mk.inj hparts
  replace htop := Fin.mk.inj htop
  replace hlow := Fin.mk.inj hlow
  have hrot : (x >>> 59).toUInt32 = (y >>> 59).toUInt32 := by
    rw [← UInt32.toNat_inj, shiftRight_59_toNat, shiftRight_59_toNat, htop]
  have hlt : (y >>> 59).toUInt32.toNat < 32 := by
    have := y.toNat_lt
    rw [shiftRight_59_toNat]
    omega
  rw [pcg32Next_output, pcg32Next_output] at houtput
  dsimp only at houtput
  rw [hrot] at houtput
  have hmiddle := congrArg UInt32.toNat (pcg32Rotate_injective hlt houtput)
  rw [shiftRight_27_toNat, shiftRight_27_toNat] at hmiddle
  rw [← pcg32Xorshift_top x, ← pcg32Xorshift_top y] at htop
  refine pcg32Xorshift_injective (UInt64.toNat_inj.mp ?_)
  omega

theorem card_uint64 : Nat.card UInt64 = 2 ^ 64 := by
  have hequiv : UInt64 ≃ Fin (2 ^ 64) :=
    ⟨UInt64.toFin, UInt64.ofFin, fun _ => rfl, fun _ => rfl⟩
  rw [Nat.card_congr hequiv, Nat.card_fin]

theorem card_uint32 : Nat.card UInt32 = 2 ^ 32 := by
  have hequiv : UInt32 ≃ Fin (2 ^ 32) :=
    ⟨UInt32.toFin, UInt32.ofFin, fun _ => rfl, fun _ => rfl⟩
  rw [Nat.card_congr hequiv, Nat.card_fin]

theorem pcg32Split_bijective (inc : UInt64) : Bijective (pcg32Split inc) := by
  have : Finite UInt32 := Nat.finite_of_card_ne_zero (by rw [card_uint32]; decide)
  refine (pcg32Split_injective inc).bijective_of_nat_card_le ?_
  rw [card_uint64, Nat.card_prod, Nat.card_prod, card_uint32, Nat.card_fin, Nat.card_fin]
  decide

theorem ncard_pcg32Next (inc : UInt64) (outputs : Set UInt32) :
    {state : UInt64 | (pcg32Next ⟨state, inc⟩).1 ∈ outputs}.ncard = outputs.ncard * 2 ^ 32 := by
  have hcount := Mixing.ncard_output (pcg32Split_bijective inc) outputs
  rwa [Nat.card_prod, Nat.card_fin, Nat.card_fin] at hcount

theorem pcg32Threshold_toNat {bound : UInt32} (hbound : bound ≠ 0) :
    (pcg32Threshold bound).toNat = 2 ^ 32 % bound.toNat := by
  have hpos : 0 < bound.toNat := Nat.pos_iff_ne_zero.mpr fun h => hbound (UInt32.toNat_inj.mp h)
  have hlt := bound.toNat_lt
  have hneg : (0 - bound).toNat = 2 ^ 32 - bound.toNat := by
    rw [UInt32.toNat_sub, UInt32.toNat_zero]
    omega
  rw [pcg32Threshold, UInt32.toNat_mod, hneg]
  exact (Nat.mod_eq_sub_mod (Nat.le_of_lt hlt)).symm

theorem ncard_accepted {bound r : UInt32} (hbound : bound ≠ 0) (hr : r < bound) :
    {x : UInt32 | pcg32Threshold bound ≤ x ∧ x % bound = r}.ncard = 2 ^ 32 / bound.toNat := by
  have hcount := Mixing.card_residue (UInt32.lt_iff_toNat_lt.mp hr) (2 ^ 32 % bound.toNat)
    (2 ^ 32 / bound.toNat)
  rw [Nat.mul_comm, Nat.mod_add_div] at hcount
  rw [← hcount, ← Set.ncard_coe_finset, ← Set.ncard_image_of_injective _
    (fun x y => UInt32.toNat_inj.mp : Injective UInt32.toNat)]
  congr 1
  ext n
  simp only [Set.mem_image, Set.mem_ofPred_eq, Finset.coe_filter, Finset.mem_Ico]
  constructor
  · rintro ⟨x, ⟨hx, hmod⟩, rfl⟩
    rw [UInt32.le_iff_toNat_le, pcg32Threshold_toNat hbound] at hx
    exact ⟨⟨hx, x.toNat_lt⟩, by rw [← UInt32.toNat_mod, hmod]⟩
  · rintro ⟨⟨hle, hlt⟩, hmod⟩
    have hn : (UInt32.ofNat n).toNat = n := UInt32.toNat_ofNat_of_lt' hlt
    refine ⟨UInt32.ofNat n, ⟨?_, ?_⟩, hn⟩
    · rwa [UInt32.le_iff_toNat_le, pcg32Threshold_toNat hbound, hn]
    · rw [← UInt32.toNat_inj, UInt32.toNat_mod, hn, hmod]

theorem pcg32Range_one {state inc : UInt64} {bound r : UInt32} (hbound : bound ≠ 0) :
    (∃ next, pcg32Range 1 ⟨state, inc⟩ bound = some (r, next)) ↔
      (pcg32Next ⟨state, inc⟩).1 ∈ {x | pcg32Threshold bound ≤ x ∧ x % bound = r} := by
  rw [pcg32Range, if_neg hbound, pcg32RangeLoop]
  dsimp only
  split
  · next haccept => simp [haccept]
  · next hreject => simp [pcg32RangeLoop, hreject]

theorem pcg32_uniform (inc : UInt64) :
    (∀ output, {state : UInt64 | (pcg32Next ⟨state, inc⟩).1 = output}.ncard = 2 ^ 32) ∧
    ∀ bound : UInt32, bound ≠ 0 →
      (pcg32Threshold bound).toNat = 2 ^ 32 % bound.toNat ∧
      ∀ r < bound,
        {x : UInt32 | pcg32Threshold bound ≤ x ∧ x % bound = r}.ncard = 2 ^ 32 / bound.toNat ∧
        {state : UInt64 | ∃ next, pcg32Range 1 ⟨state, inc⟩ bound = some (r, next)}.ncard =
          2 ^ 32 * (2 ^ 32 / bound.toNat) := by
  refine ⟨fun output => ?_, fun bound hbound =>
    ⟨pcg32Threshold_toNat hbound, fun r hr => ⟨ncard_accepted hbound hr, ?_⟩⟩⟩
  · have hcount := ncard_pcg32Next inc {output}
    rwa [Set.ncard_singleton, Nat.one_mul] at hcount
  · simp only [pcg32Range_one hbound]
    rw [ncard_pcg32Next, ncard_accepted hbound hr, Nat.mul_comm]

theorem pcg32_uniform_three :
    (pcg32Threshold 3).toNat = 1 ∧
    {x : UInt32 | pcg32Threshold 3 ≤ x ∧ x % 3 = 2}.ncard = 1431655765 ∧
    {state : UInt64 | ∃ next, pcg32Range 1 ⟨state, 1⟩ 3 = some (2, next)}.ncard =
      2 ^ 32 * 1431655765 := by
  obtain ⟨hthreshold, hresidue⟩ := (pcg32_uniform 1).2 3 (by decide)
  obtain ⟨haccepted, hstates⟩ := hresidue 2 (by decide)
  exact ⟨hthreshold, haccepted, hstates⟩

end ChoonzMoba
