import ChoonzMoba.Sim.ComponentPoolSpec

namespace ChoonzMoba

-- the view once more with every array access guarded by the array's declared length; the outer
-- `none` is an access outside the array, an inner one is the call returning false

def readIn {α : Type} (length : Nat) (array : Nat → α) (i : Nat) : Option α :=
  if i < length then some (array i) else none

def writeIn {α : Type} (length : Nat) (array : Nat → α) (i : Nat) (x : α) : Option (Nat → α) :=
  if i < length then some (Function.update array i x) else none

def boundedObserveStep (pool : ComponentPool) (state : Option Nat) (index : Nat) :
    Option (Option Nat) :=
  match state with
  | none => some none
  | some observed =>
    (readIn pool.entityCapacity pool.sparse index).bind fun encodedDense =>
      if encodedDense = 0 then some (some observed)
      else
        let dense := encodedDense - 1
        if pool.count ≤ dense ∨ pool.capacity ≤ dense then some none
        else
          (readIn pool.capacity pool.denseEntities dense).bind fun entity =>
            if handleGen entity.h = 0 ∨ handleIndex entity.h ≠ index ∨
                pool.capacity ≤ observed then some none
            else some (some (observed + 1))

def boundedRebuildStep (pool : ComponentPool) (cache : (Nat → EntityId) × Nat) (index : Nat) :
    Option ((Nat → EntityId) × Nat) :=
  (readIn pool.entityCapacity pool.sparse index).bind fun encodedDense =>
    if encodedDense ≠ 0 then
      (readIn pool.capacity pool.denseEntities (encodedDense - 1)).bind fun entity =>
        (writeIn pool.capacity cache.1 cache.2 entity).map fun entities => (entities, cache.2 + 1)
    else some cache

def boundedOrderedView (pool : ComponentPool) :
    Option (Option ComponentPoolOrderedView × ComponentPool) :=
  if pool.capacity < pool.count then some (none, pool)
  else if pool.orderedDirty then
    (Loop.forRangeM pool.entityCapacity (boundedObserveStep pool) (some 0)).bind fun
      | none => some (none, pool)
      | some observed =>
        if observed ≠ pool.count then some (none, pool)
        else
          (Loop.forRangeM pool.entityCapacity (boundedRebuildStep pool)
            (pool.orderedEntities, 0)).bind fun (rebuilt, ordered) =>
            (Loop.forRangeM (pool.orderedCount - ordered)
              (fun entities i => writeIn pool.capacity entities (ordered + i) .null)
              rebuilt).map fun cleared =>
              (some ⟨cleared, ordered⟩,
                { pool with
                  orderedEntities := cleared, orderedCount := ordered, orderedDirty := false })
  else some (some ⟨pool.orderedEntities, pool.orderedCount⟩, pool)

namespace ComponentPool

variable {p : ComponentPool}

theorem boundedObserveStep_eq {index : Nat} (h : index < p.entityCapacity) (observed : Nat) :
    boundedObserveStep p (some observed) index = some (orderedObserveStep p observed index) := by
  simp only [boundedObserveStep, orderedObserveStep, readIn, if_pos h, Option.bind_some]
  split
  · rfl
  · by_cases hdense : p.count ≤ p.sparse index - 1 ∨ p.capacity ≤ p.sparse index - 1
    · rw [if_pos hdense, if_pos (hdense.elim Or.inl fun h => Or.inr (Or.inl h))]
    · simp only [not_or, Nat.not_le] at hdense
      simp only [Nat.not_le_of_lt hdense.1, Nat.not_le_of_lt hdense.2, false_or, if_false,
        if_pos hdense.2, Option.bind_some]
      split <;> rfl

theorem boundedObserve_eq {n : Nat} (h : n ≤ p.entityCapacity) :
    Loop.forRangeM n (boundedObserveStep p) (some 0) =
      some (Loop.forRangeM n (orderedObserveStep p) 0) := by
  induction n with
  | zero => rfl
  | succ n ih =>
    rw [Loop.forRangeM_succ, Loop.forRangeM_succ, ih (Nat.le_of_succ_le h), Option.bind_some]
    cases Loop.forRangeM n (orderedObserveStep p) 0 with
    | none => rfl
    | some observed => exact boundedObserveStep_eq h observed

def Checked (p : ComponentPool) (n observed : Nat) : Prop :=
  observed = (p.indicesBelow n).length ∧
    ∀ i < n, p.sparse i ≠ 0 → p.sparse i - 1 < p.capacity

theorem observed_checked {n observed : Nat}
    (h : Loop.forRangeM n (orderedObserveStep p) 0 = some observed) : p.Checked n observed := by
  refine Loop.forRangeM_partial (p.Checked) ⟨rfl, fun i hi => absurd hi (Nat.not_lt_zero i)⟩ ?_ h
  intro i t u _ ht hstep
  by_cases hs : p.sparse i = 0
  · simp only [orderedObserveStep, if_pos hs, Option.some.injEq] at hstep
    subst hstep
    refine ⟨by rw [ht.1, indicesBelow_succ, if_neg (not_not.mpr hs), List.append_nil], ?_⟩
    intro j hj hjs
    exact ht.2 j (Nat.lt_of_le_of_ne (Nat.le_of_lt_succ hj) fun hji => hjs (hji ▸ hs)) hjs
  · simp only [orderedObserveStep, if_neg hs] at hstep
    split at hstep
    · cases hstep
    · next hvalid =>
      simp only [not_or, Nat.not_le] at hvalid
      cases hstep
      refine ⟨by simp [indicesBelow_succ, hs, ht.1], fun j hj hjs => ?_⟩
      rcases Nat.lt_succ_iff_lt_or_eq.mp hj with hlt | rfl
      · exact ht.2 j hlt hjs
      · exact hvalid.2.1

theorem boundedRebuild_eq {n observed : Nat} (h : p.Checked p.entityCapacity observed)
    (hroom : observed ≤ p.capacity) (hn : n ≤ p.entityCapacity) :
    Loop.forRangeM n (boundedRebuildStep p) (p.orderedEntities, 0) =
        some (Loop.forRange n (orderedRebuildStep p) (p.orderedEntities, 0)) ∧
      (Loop.forRange n (orderedRebuildStep p) (p.orderedEntities, 0)).2 =
        (p.indicesBelow n).length := by
  induction n with
  | zero => exact ⟨rfl, rfl⟩
  | succ n ih =>
    obtain ⟨hloop, hlength⟩ := ih (Nat.le_of_succ_le hn)
    have hbelow := indicesBelow_length_le (p := p) hn
    rw [Loop.forRangeM_succ, Loop.forRange_succ, hloop, Option.bind_some, boundedRebuildStep,
      readIn, if_pos (Nat.lt_of_succ_le hn), Option.bind_some]
    by_cases hs : p.sparse n = 0
    · simp [hs, orderedRebuildStep, hlength, indicesBelow_succ]
    · have hdense := h.2 n (Nat.lt_of_succ_le hn) hs
      have hwrite : (p.indicesBelow n).length < p.capacity := by
        rw [← h.1, indicesBelow_succ, if_pos hs, List.length_append, List.length_singleton] at hbelow
        omega
      simp [hs, orderedRebuildStep, hlength, readIn, writeIn, hdense, hwrite, indicesBelow_succ]

theorem boundedClear_eq {entities : Nat → EntityId} {ordered n : Nat}
    (h : ordered + n ≤ p.capacity) :
    Loop.forRangeM n (fun entities i => writeIn p.capacity entities (ordered + i) .null) entities =
      some (Loop.forRange n
        (fun entities i => Function.update entities (ordered + i) .null) entities) := by
  induction n with
  | zero => rfl
  | succ n ih =>
    rw [Loop.forRangeM_succ, Loop.forRange_succ, ih (by omega), Option.bind_some, writeIn,
      if_pos (by omega)]

theorem boundedOrderedView_eq (h : p.orderedCount ≤ p.capacity) :
    boundedOrderedView p = some (componentPoolOrderedView p) := by
  rw [boundedOrderedView, componentPoolOrderedView]
  split
  · rfl
  · next hcount =>
    split
    · rw [boundedObserve_eq (Nat.le_refl _), Option.bind_some, orderedObserve]
      generalize hobserve :
        Loop.forRangeM p.entityCapacity (orderedObserveStep p) 0 = result
      cases result with
      | none => rfl
      | some observed =>
        dsimp only
        split
        · rfl
        · next hobserved =>
          have hroom : observed ≤ p.capacity := by omega
          obtain ⟨hloop, hlength⟩ :=
            boundedRebuild_eq (observed_checked hobserve) hroom (Nat.le_refl _)
          rw [hloop, Option.bind_some, orderedRebuild]
          have hordered := (observed_checked hobserve).1
          rw [boundedClear_eq, Option.map_some]
          rw [hlength, ← hordered]
          omega
    · rfl

theorem orderedView_rejected {q : ComponentPool} (h : componentPoolOrderedView p = (none, q)) :
    q = p := by
  rw [componentPoolOrderedView] at h
  split at h
  · exact (Prod.mk.inj h).2.symm
  · split at h
    · split at h
      · exact (Prod.mk.inj h).2.symm
      · split at h
        · exact (Prod.mk.inj h).2.symm
        · cases (Prod.mk.inj h).1
    · cases (Prod.mk.inj h).1

end ComponentPool

end ChoonzMoba
