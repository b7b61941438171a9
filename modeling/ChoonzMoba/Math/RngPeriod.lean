import ChoonzMoba.Library.FullPeriod
import ChoonzMoba.Math.RngUniform

open Function

namespace ChoonzMoba

def pcg32Advance (r : Pcg32) : Pcg32 := (pcg32Next r).2

theorem or_one_odd (inc : UInt64) : (inc ||| 1).toNat % 2 = 1 := by
  rw [UInt64.toNat_or]
  change (inc.toNat ||| 1) % 2 = 1
  simp [Nat.or_mod_two_eq_one]

theorem pcg32Advance_toNat (r : Pcg32) : (pcg32Advance r).state.toNat =
    (6364136223846793005 * r.state.toNat + (r.inc ||| 1).toNat) % 2 ^ 64 := by
  rw [Nat.mul_comm]
  simp [pcg32Advance, pcg32Next]

-- the kernel must not compare the product with the state it is made from
theorem pcg32Advance_inc (r : Pcg32) : (pcg32Advance r).inc = r.inc := by
  have hadvance : pcg32Advance r =
      { r with state := r.state * 6364136223846793005 + (r.inc ||| 1) } := rfl
  rw [hadvance]

theorem iterate_pcg32Advance (r : Pcg32) (n : Nat) :
    (pcg32Advance^[n] r).inc = r.inc ∧ (pcg32Advance^[n] r).state.toNat =
      (fun z => (6364136223846793005 * z + (r.inc ||| 1).toNat) % 2 ^ 64)^[n] r.state.toNat := by
  induction n with
  | zero =>
    rw [iterate_zero_apply, iterate_zero_apply]
    exact ⟨rfl, rfl⟩
  | succ n ih =>
    obtain ⟨hinc, hstate⟩ := ih
    rw [iterate_succ_apply', iterate_succ_apply', ← hstate, pcg32Advance_toNat, pcg32Advance_inc,
      hinc]
    exact ⟨rfl, rfl⟩

theorem exists_pcg32Advance_eq (r : Pcg32) (state : UInt64) :
    ∃ n < 2 ^ 64, pcg32Advance^[n] r = { r with state := state } := by
  obtain ⟨n, hn, heq⟩ := Affine.exists_iterate_mod_eq (by decide : 6364136223846793005 % 4 = 1)
    (or_one_odd r.inc) r.state.toNat_lt state.toNat_lt
  obtain ⟨hinc, hstate⟩ := iterate_pcg32Advance r n
  rw [heq, UInt64.toNat_inj] at hstate
  refine ⟨n, hn, ?_⟩
  rw [← hstate, ← hinc]

theorem exists_output (inc : UInt64) (output : UInt32) :
    ∃ state : UInt64, (pcg32Next ⟨state, inc⟩).1 = output := by
  obtain ⟨state, hstate⟩ := (pcg32Split_bijective inc).2 (output, 0, 0)
  exact ⟨state, congrArg Prod.fst hstate⟩

theorem pcg32RangeLoop_accept {threshold bound : UInt32} {r : Pcg32}
    (haccept : threshold ≤ (pcg32Next r).1) (fuel : Nat) :
    pcg32RangeLoop threshold bound (fuel + 1) r =
      some ((pcg32Next r).1 % bound, pcg32Advance r) := by
  rw [pcg32RangeLoop, pcg32Advance]
  generalize pcg32Next r = drawn at haccept ⊢
  exact if_pos haccept

theorem pcg32RangeLoop_reject {threshold bound : UInt32} {r : Pcg32}
    (hreject : ¬threshold ≤ (pcg32Next r).1) (fuel : Nat) :
    pcg32RangeLoop threshold bound (fuel + 1) r =
      pcg32RangeLoop threshold bound fuel (pcg32Advance r) := by
  rw [pcg32RangeLoop, pcg32Advance]
  generalize pcg32Next r = drawn at hreject ⊢
  exact if_neg hreject

theorem pcg32RangeLoop_first {threshold bound : UInt32} {draws : Nat} {r : Pcg32}
    (hreject : ∀ k < draws, ¬threshold ≤ (pcg32Next (pcg32Advance^[k] r)).1)
    (haccept : threshold ≤ (pcg32Next (pcg32Advance^[draws] r)).1) {fuel : Nat}
    (hfuel : draws < fuel) : pcg32RangeLoop threshold bound fuel r =
      some ((pcg32Next (pcg32Advance^[draws] r)).1 % bound, pcg32Advance^[draws + 1] r) := by
  induction draws generalizing r fuel with
  | zero =>
    obtain ⟨fuel, rfl⟩ := Nat.exists_eq_succ_of_ne_zero (Nat.ne_of_gt hfuel)
    rw [iterate_zero_apply] at haccept
    rw [pcg32RangeLoop_accept haccept, iterate_zero_apply, iterate_one]
  | succ draws ih =>
    obtain ⟨fuel, rfl⟩ := Nat.exists_eq_succ_of_ne_zero (Nat.ne_zero_of_lt hfuel)
    have hfirst := hreject 0 (Nat.succ_pos draws)
    rw [iterate_zero_apply] at hfirst
    rw [iterate_succ_apply] at haccept
    rw [pcg32RangeLoop_reject hfirst, iterate_succ_apply, iterate_succ_apply]
    refine ih (fun k hk => ?_) haccept (Nat.lt_of_succ_lt_succ hfuel)
    rw [← iterate_succ_apply]
    exact hreject (k + 1) (Nat.succ_lt_succ hk)

theorem pcg32Range_terminates (r : Pcg32) (bound : UInt32) (hbound : bound ≠ 0) :
    (∀ state, ∃ n < 2 ^ 64, pcg32Advance^[n] r = { r with state := state }) ∧
    (∃ state, pcg32Threshold bound ≤ (pcg32Next { r with state := state }).1) ∧
    ∃ draws < 2 ^ 64, ∃ x, x = (pcg32Next (pcg32Advance^[draws] r)).1 ∧
      pcg32Threshold bound ≤ x ∧
      (∀ k < draws, (pcg32Next (pcg32Advance^[k] r)).1 < pcg32Threshold bound) ∧
      x % bound < bound ∧
      ∀ fuel > draws, pcg32Range fuel r bound = some (x % bound, pcg32Advance^[draws + 1] r) := by
  obtain ⟨state, houtput⟩ := exists_output r.inc (pcg32Threshold bound)
  have hstate : pcg32Threshold bound ≤ (pcg32Next { r with state := state }).1 := by
    rw [houtput]
    exact UInt32.le_refl _
  obtain ⟨n, hn, hreach⟩ := exists_pcg32Advance_eq r state
  refine ⟨exists_pcg32Advance_eq r, ⟨state, hstate⟩, ?_⟩
  have hexists : ∃ k, pcg32Threshold bound ≤ (pcg32Next (pcg32Advance^[k] r)).1 :=
    ⟨n, by rwa [hreach]⟩
  have hle : Nat.find hexists ≤ n := Nat.find_min' hexists (by rwa [hreach])
  refine ⟨Nat.find hexists, Nat.lt_of_le_of_lt hle hn, _, rfl, Nat.find_spec hexists,
    fun k hk => UInt32.not_le.mp (Nat.find_min hexists hk),
    UInt32.mod_lt _ (UInt32.pos_iff_ne_zero.mpr hbound), fun fuel hfuel => ?_⟩
  rw [pcg32Range, if_neg hbound]
  exact pcg32RangeLoop_first (fun _ => Nat.find_min hexists) (Nat.find_spec hexists) hfuel

theorem pcg32Range_terminates_three : ∃ draws < 2 ^ 64, ∃ x : UInt32, 1 ≤ x ∧ x % 3 < 3 ∧
    ∀ fuel > draws,
      pcg32Range fuel ⟨0, 0⟩ 3 = some (x % 3, pcg32Advance^[draws + 1] ⟨0, 0⟩) := by
  obtain ⟨draws, hdraws, x, -, haccepted, -, hmod, hrange⟩ :=
    (pcg32Range_terminates ⟨0, 0⟩ 3 (by decide)).2.2
  exact ⟨draws, hdraws, x, haccepted, hmod, hrange⟩

end ChoonzMoba
