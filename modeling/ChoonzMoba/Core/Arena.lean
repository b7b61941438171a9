import Mathlib.Data.Nat.Bitwise
import Mathlib.Tactic.Common

namespace ChoonzMoba

def sizeMax : Nat := 2 ^ 64 - 1

def uintptrMax : Nat := 2 ^ 64 - 1

def memDefaultAlign : Nat := 16

structure Arena where
  base : Nat
  offset : Nat
  committed : Nat
  reserved : Nat
  highWater : Nat
  commit : Option (Nat → Bool)
  commitGranularity : Nat
  base_le : base ≤ uintptrMax

def arenaInit (base : UInt64) (reserved committed : Nat) (commit : Option (Nat → Bool))
    (commitGranularity : Nat) : Option Arena :=
  if base = 0 ∧ reserved ≠ 0 then none
  else if reserved < committed then none
  else if base ≠ 0 ∧ uintptrMax - base.toNat < reserved then none
  else
    some
      { base := base.toNat
        offset := 0
        committed := committed
        reserved := reserved
        highWater := 0
        commit := commit
        commitGranularity := commitGranularity
        base_le := Nat.le_of_lt_succ base.toNat_lt }

def arenaInitFixed (buffer : UInt64) (size : Nat) : Option Arena := arenaInit buffer size size none 0

def arenaCommit (a : Arena) (stop : Nat) : Option Arena :=
  if stop ≤ a.committed then some a
  else
    match a.commit with
    | none => none
    | some commit =>
      let gran := if a.commitGranularity ≠ 0 then a.commitGranularity else 1
      if sizeMax - stop < gran - 1 then none
      else
        let rounded := (stop + gran - 1) / gran * gran
        let want := if a.reserved < rounded then a.reserved else rounded
        if commit want then some { a with committed := want } else none

/-- The block's address is returned with the advanced arena; `none` is a failed `ENSURE`. -/
def arenaPush (a : Arena) (size align : Nat) : Option (Arena × Nat) :=
  if a.base = 0 then none
  else if align = 0 ∨ align &&& (align - 1) ≠ 0 then none
  else if a.reserved < a.offset ∨ a.reserved < a.committed ∨ a.committed < a.offset then none
  else if uintptrMax - a.base < a.reserved ∨ uintptrMax - a.base < a.offset then none
  else
    let current := a.base + a.offset
    if uintptrMax - current < align - 1 then none
    else
      let aligned := (current + (align - 1)) &&& (uintptrMax - (align - 1))
      if aligned < a.base then none
      else
        let start := aligned - a.base
        if a.reserved < start ∨ a.reserved - start < size then none
        else
          let stop := start + size
          match arenaCommit a stop with
          | none => none
          | some grown =>
            let highWater := if grown.highWater < stop then stop else grown.highWater
            some ({ grown with offset := stop, highWater := highWater }, a.base + start)

def tempEnd (a : Arena) (savedOffset : Nat) : Arena := { a with offset := savedOffset }

def layoutAdvance (a : Arena) (offset size align : Nat) : Option Nat :=
  if a.base = 0 ∨ align = 0 ∨ align &&& (align - 1) ≠ 0 ∨ a.reserved < offset then none
  else if uintptrMax - a.base < offset then none
  else
    let current := a.base + offset
    let padding := (align - (current &&& (align - 1))) &&& (align - 1)
    if sizeMax - offset < padding then none
    else
      let start := offset + padding
      if sizeMax - start < size then none
      else
        let stop := start + size
        if a.reserved < stop then none else some stop

theorem land_not_mask {x k : Nat} (hx : x < 2 ^ 64) (hk : k ≤ 64) :
    x &&& (uintptrMax - (2 ^ k - 1)) = x - x % 2 ^ k := by
  have hmask : uintptrMax - (2 ^ k - 1) = (2 ^ (64 - k) - 1) * 2 ^ k := by
    have hpow : 2 ^ (64 - k) * 2 ^ k = 2 ^ 64 := by rw [← pow_add]; congr 1; omega
    have hpos : 0 < 2 ^ k := Nat.two_pow_pos k
    rw [Nat.sub_mul, hpow, uintptrMax]
    omega
  have hdiv : x - x % 2 ^ k = x / 2 ^ k * 2 ^ k := by
    have := Nat.div_add_mod x (2 ^ k)
    rw [Nat.mul_comm] at this
    omega
  rw [hmask, hdiv]
  apply Nat.eq_of_testBit_eq
  intro i
  rw [Nat.testBit_and, ← Nat.shiftLeft_eq, ← Nat.shiftLeft_eq, Nat.testBit_shiftLeft,
    Nat.testBit_shiftLeft, Nat.testBit_two_pow_sub_one, Nat.testBit_div_two_pow]
  by_cases hik : k ≤ i
  · rw [Nat.sub_add_cancel hik]
    by_cases hi : i < 64
    · simp [hik, show i - k < 64 - k by omega]
    · have hxi : x.testBit i = false :=
        Nat.testBit_lt_two_pow (Nat.lt_of_lt_of_le hx (Nat.pow_le_pow_right (by decide) (by omega)))
      simp [hxi]
  · simp [hik]

structure Arena.Wf (a : Arena) : Prop where
  base_ne : a.base ≠ 0
  offset_le : a.offset ≤ a.committed
  committed_le : a.committed ≤ a.reserved
  address : a.base + a.reserved ≤ uintptrMax

def Arena.CommitSucceeds (a : Arena) : Prop :=
  a.committed = a.reserved ∨
    (a.commitGranularity - 1 ≤ sizeMax - a.reserved ∧
      ∃ commit, a.commit = some commit ∧ ∀ size, commit size = true)

structure Arena.SameBacking (a b : Arena) : Prop where
  base : b.base = a.base
  reserved : b.reserved = a.reserved
  commit : b.commit = a.commit
  commitGranularity : b.commitGranularity = a.commitGranularity

theorem Arena.SameBacking.trans {a b c : Arena} (hab : a.SameBacking b) (hbc : b.SameBacking c) :
    a.SameBacking c :=
  ⟨hbc.base.trans hab.base, hbc.reserved.trans hab.reserved, hbc.commit.trans hab.commit,
    hbc.commitGranularity.trans hab.commitGranularity⟩

theorem arenaCommit_spec {a b : Arena} {stop : Nat} (h : arenaCommit a stop = some b)
    (hstop : stop ≤ a.reserved) (hc : a.committed ≤ a.reserved) :
    ∃ c, b = { a with committed := c } ∧ stop ≤ c ∧ a.committed ≤ c ∧ c ≤ a.reserved := by
  unfold arenaCommit at h
  split at h
  · next hle => cases h; exact ⟨_, rfl, hle, Nat.le_refl _, hc⟩
  · next hgt =>
    split at h
    · cases h
    · dsimp only at h
      generalize hgran : (if a.commitGranularity ≠ 0 then a.commitGranularity else 1) = gran at h
      have hpos : 0 < gran := by rw [← hgran]; split <;> omega
      have hround : stop ≤ (stop + gran - 1) / gran * gran := by
        have := Nat.div_add_mod (stop + gran - 1) gran
        have := Nat.mod_lt (stop + gran - 1) hpos
        rw [Nat.mul_comm]
        omega
      generalize hwant : (if a.reserved < (stop + gran - 1) / gran * gran then a.reserved
        else (stop + gran - 1) / gran * gran) = want at h
      have hfit : stop ≤ want ∧ want ≤ a.reserved := by rw [← hwant]; split <;> omega
      split at h
      · cases h
      · split at h
        · cases h
          exact ⟨_, rfl, hfit.1, by omega, hfit.2⟩
        · cases h

theorem arenaCommit_ok {a : Arena} {stop : Nat} (hs : a.CommitSucceeds) (hstop : stop ≤ a.reserved) :
    ∃ b, arenaCommit a stop = some b := by
  unfold arenaCommit
  by_cases hle : stop ≤ a.committed
  · exact ⟨a, by rw [if_pos hle]⟩
  · rcases hs with hfull | ⟨hgran, commit, hcommit, hall⟩
    · omega
    · have hov : ¬ sizeMax - stop <
          (if a.commitGranularity ≠ 0 then a.commitGranularity else 1) - 1 := by
        split <;> omega
      simp only [if_neg hle, hcommit, if_neg hov, hall, if_true]
      exact ⟨_, rfl⟩

theorem align_up {x k : Nat} (hx : x + (2 ^ k - 1) < 2 ^ 64) (hk : k ≤ 64) :
    x ≤ (x + (2 ^ k - 1)) &&& (uintptrMax - (2 ^ k - 1)) ∧
      (x + (2 ^ k - 1)) &&& (uintptrMax - (2 ^ k - 1)) ≤ x + (2 ^ k - 1) ∧
      2 ^ k ∣ (x + (2 ^ k - 1)) &&& (uintptrMax - (2 ^ k - 1)) := by
  have hpos := Nat.two_pow_pos k
  have hmod := Nat.mod_lt (x + (2 ^ k - 1)) hpos
  rw [land_not_mask hx hk]
  exact ⟨by omega, Nat.sub_le _ _, Nat.dvd_sub_mod _⟩

theorem arenaPush_spec {a b : Arena} {size align address : Nat}
    (h : arenaPush a size align = some (b, address)) :
    a.base ≠ 0 ∧ align ∣ address ∧ a.base + a.offset ≤ address ∧ address + size = a.base + b.offset ∧
      a.SameBacking b ∧ b.offset ≤ b.committed ∧ b.committed ≤ b.reserved ∧
      a.offset ≤ a.committed ∧ a.committed ≤ b.committed ∧ a.base + a.reserved ≤ uintptrMax ∧
      b.highWater = max a.highWater b.offset := by
  unfold arenaPush at h
  split at h
  · cases h
  split at h
  · cases h
  split at h
  · cases h
  split at h
  · cases h
  dsimp only at h
  split at h
  · cases h
  split at h
  · cases h
  split at h
  · cases h
  next hbase halign hoff haddr hadd haligned hroom =>
  simp only [not_or, Nat.not_lt, not_not] at halign hoff haddr hadd haligned hroom
  obtain ⟨k, rfl⟩ := (Nat.and_sub_one_eq_zero_iff_isPowerOfTwo halign.1).mp halign.2
  have hbase_le := a.base_le
  have hbound : a.base + a.offset + (2 ^ k - 1) < 2 ^ 64 := by
    simp only [uintptrMax] at haddr hadd hbase_le
    omega
  have hk : k ≤ 64 := by
    by_contra hgt
    have := Nat.pow_lt_pow_right (a := 2) (by decide) (Nat.lt_of_not_le hgt)
    omega
  obtain ⟨hup, -, hdvd⟩ := align_up hbound hk
  generalize ((a.base + a.offset + (2 ^ k - 1)) &&& (uintptrMax - (2 ^ k - 1))) = aligned at *
  split at h
  · cases h
  · next grown hgrown =>
    obtain ⟨c, rfl, hstop, hold, hc⟩ := arenaCommit_spec hgrown (by omega) hoff.2.1
    cases h
    refine ⟨hbase, ?_, ?_, ?_, ⟨rfl, rfl, rfl, rfl⟩, hstop, hc, hoff.2.2, hold, by omega, ?_⟩
    · rwa [Nat.add_sub_cancel' haligned]
    · omega
    · simp only
      omega
    · simp only
      split <;> omega

theorem land_two_pow_sub_one_self (k : Nat) : 2 ^ k &&& (2 ^ k - 1) = 0 :=
  (Nat.and_sub_one_eq_zero_iff_isPowerOfTwo (Nat.ne_of_gt (Nat.two_pow_pos k))).mpr ⟨k, rfl⟩

theorem arenaPush_ok {a : Arena} (wf : a.Wf) (hs : a.CommitSucceeds) (size : Nat) {k : Nat}
    (hroom : a.offset + (2 ^ k - 1) + size ≤ a.reserved) :
    ∃ b address, arenaPush a size (2 ^ k) = some (b, address) ∧ b.Wf ∧ b.CommitSucceeds ∧
      a.SameBacking b ∧ b.offset ≤ a.offset + (2 ^ k - 1) + size := by
  have haddr := wf.address
  have hoff := wf.offset_le
  have hcom := wf.committed_le
  have hpos := Nat.two_pow_pos k
  have hbound : a.base + a.offset + (2 ^ k - 1) < 2 ^ 64 := by
    simp only [uintptrMax] at haddr
    omega
  have hk : k ≤ 64 := by
    by_contra hgt
    have := Nat.pow_lt_pow_right (a := 2) (by decide) (Nat.lt_of_not_le hgt)
    omega
  obtain ⟨hup, hdown, -⟩ := align_up hbound hk
  unfold arenaPush
  rw [if_neg wf.base_ne, if_neg (by rw [land_two_pow_sub_one_self]; omega), if_neg (by omega),
    if_neg (by omega), if_neg (by simp only [uintptrMax] at *; omega)]
  generalize ((a.base + a.offset + (2 ^ k - 1)) &&& (uintptrMax - (2 ^ k - 1))) = aligned at *
  simp only [if_neg (by omega : ¬ aligned < a.base), if_neg (by omega :
    ¬ (a.reserved < aligned - a.base ∨ a.reserved - (aligned - a.base) < size))]
  have hstop : aligned - a.base + size ≤ a.reserved := by omega
  obtain ⟨grown, hgrown⟩ := arenaCommit_ok hs hstop
  obtain ⟨c, rfl, hle, hold, hc⟩ := arenaCommit_spec hgrown hstop hcom
  rw [hgrown]
  refine ⟨_, _, rfl, ⟨wf.base_ne, hle, hc, haddr⟩, ?_, ⟨rfl, rfl, rfl, rfl⟩, ?_⟩
  · rcases hs with hfull | hgran
    · exact Or.inl (by simp only; omega)
    · exact Or.inr hgran
  · simp only
    omega

theorem layoutAdvance_ok {a : Arena} (wf : a.Wf) {offset : Nat} (size : Nat) {k : Nat}
    (hroom : offset + (2 ^ k - 1) + size ≤ a.reserved) :
    ∃ stop, layoutAdvance a offset size (2 ^ k) = some stop ∧
      stop ≤ offset + (2 ^ k - 1) + size := by
  have haddr := wf.address
  have hpos := Nat.two_pow_pos k
  have hpad : ((2 ^ k - ((a.base + offset) &&& (2 ^ k - 1))) &&& (2 ^ k - 1)) ≤ 2 ^ k - 1 :=
    Nat.and_le_right
  generalize hp : ((2 ^ k - ((a.base + offset) &&& (2 ^ k - 1))) &&& (2 ^ k - 1)) = padding at hpad
  unfold layoutAdvance
  rw [if_neg (by have := wf.base_ne; rw [land_two_pow_sub_one_self]; omega), if_neg (by omega)]
  simp only [hp]
  have hmax : a.reserved ≤ sizeMax := by simp only [sizeMax, uintptrMax] at *; omega
  rw [if_neg (by omega), if_neg (by omega), if_neg (by omega)]
  exact ⟨_, rfl, by omega⟩

theorem arenaInit_ok (base : UInt64) (reserved committed : Nat) (hbase : base ≠ 0)
    (hcommitted : committed ≤ reserved) (haddress : reserved ≤ uintptrMax - base.toNat)
    (commit : Option (Nat → Bool)) (granularity : Nat) :
    ∃ a, arenaInit base reserved committed commit granularity = some a ∧ a.Wf ∧ a.offset = 0 ∧
      a.reserved = reserved ∧ a.committed = committed ∧ a.commit = commit ∧
      a.commitGranularity = granularity := by
  have hne : base.toNat ≠ 0 := fun h => hbase (UInt64.toNat_inj.mp h)
  have hlt := base.toNat_lt
  simp only [arenaInit, hbase, false_and, if_false, ne_eq, not_false_eq_true, true_and,
    if_neg (Nat.not_lt_of_le hcommitted), if_neg (Nat.not_lt_of_le haddress)]
  refine ⟨_, rfl, ⟨hne, Nat.zero_le _, hcommitted, ?_⟩, rfl, rfl, rfl, rfl, rfl⟩
  simp only [uintptrMax] at *
  omega

end ChoonzMoba
