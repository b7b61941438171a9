import ChoonzMoba.Core.Handle
import ChoonzMoba.Library.Loop
import Mathlib.Logic.Function.Basic
import Mathlib.Data.List.Nodup
import Mathlib.Data.List.Perm.Subperm
import Mathlib.Data.List.Perm.Lattice

namespace ChoonzMoba

structure ComponentPool where
  sparse : Nat → Nat
  denseEntities : Nat → EntityId
  orderedEntities : Nat → EntityId
  entityCapacity : Nat
  capacity : Nat
  count : Nat
  orderedCount : Nat
  orderedDirty : Bool

structure ComponentPoolRemoveResult where
  removedDense : Nat
  movedFromDense : Nat
  movedEntity : EntityId

structure ComponentPoolOrderedView where
  entities : Nat → EntityId
  count : Nat

def ComponentPool.zeroed (entityCapacity capacity : Nat) : ComponentPool where
  sparse := fun _ => 0
  denseEntities := fun _ => .null
  orderedEntities := fun _ => .null
  entityCapacity := entityCapacity
  capacity := capacity
  count := 0
  orderedCount := 0
  orderedDirty := true

def componentPoolInvalidDense : Nat := 2 ^ 32 - 1

def entityFits (pool : ComponentPool) (entity : EntityId) : Bool :=
  decide (handleGen entity.h ≠ 0) && decide (handleIndex entity.h < pool.entityCapacity)

def componentPoolHas (pool : ComponentPool) (entity : EntityId) : Bool :=
  if !entityFits pool entity then false
  else
    let encodedDense := pool.sparse (handleIndex entity.h)
    if encodedDense = 0 then false
    else
      let dense := encodedDense - 1
      decide (dense < pool.count) && decide (dense < pool.capacity) &&
        decide ((pool.denseEntities dense).h = entity.h)

def componentPoolDenseIndex (pool : ComponentPool) (entity : EntityId) : Nat :=
  if !componentPoolHas pool entity then componentPoolInvalidDense
  else pool.sparse (handleIndex entity.h) - 1

def componentPoolAdd (pool : ComponentPool) (entity : EntityId) : Option Nat × ComponentPool :=
  if !entityFits pool entity || decide (pool.capacity ≤ pool.count) then (none, pool)
  else
    let entityIndex := handleIndex entity.h
    if pool.sparse entityIndex ≠ 0 then (none, pool)
    else
      let dense := pool.count
      (some dense,
        { pool with
          denseEntities := Function.update pool.denseEntities dense entity
          sparse := Function.update pool.sparse entityIndex (dense + 1)
          count := pool.count + 1
          orderedDirty := true })

def componentPoolRemove (pool : ComponentPool) (entity : EntityId) :
    Option ComponentPoolRemoveResult × ComponentPool :=
  if !componentPoolHas pool entity || decide (pool.count = 0) then (none, pool)
  else
    let entityIndex := handleIndex entity.h
    let removedDense := pool.sparse entityIndex - 1
    let lastDense := pool.count - 1
    let moved := if removedDense ≠ lastDense then pool.denseEntities lastDense else .null
    let movedIndex := handleIndex moved.h
    if removedDense ≠ lastDense ∧ (handleGen moved.h = 0 ∨ pool.entityCapacity ≤ movedIndex ∨
        pool.sparse movedIndex ≠ lastDense + 1) then (none, pool)
    else
      let relocated :=
        if removedDense ≠ lastDense then
          { pool with
            denseEntities := Function.update pool.denseEntities removedDense moved
            sparse := Function.update pool.sparse movedIndex (removedDense + 1) }
        else pool
      (some ⟨removedDense, lastDense, moved⟩,
        { relocated with
          denseEntities := Function.update relocated.denseEntities lastDense .null
          sparse := Function.update relocated.sparse entityIndex 0
          count := relocated.count - 1
          orderedDirty := true })

def orderedObserveStep (pool : ComponentPool) (observed index : Nat) : Option Nat :=
  let encodedDense := pool.sparse index
  if encodedDense = 0 then some observed
  else
    let dense := encodedDense - 1
    if pool.count ≤ dense ∨ pool.capacity ≤ dense ∨ handleGen (pool.denseEntities dense).h = 0 ∨
        handleIndex (pool.denseEntities dense).h ≠ index ∨ pool.capacity ≤ observed then none
    else some (observed + 1)

def orderedObserve (pool : ComponentPool) : Option Nat :=
  Loop.forRangeM pool.entityCapacity (orderedObserveStep pool) 0

def orderedRebuildStep (pool : ComponentPool) (cache : (Nat → EntityId) × Nat) (index : Nat) :
    (Nat → EntityId) × Nat :=
  let encodedDense := pool.sparse index
  if encodedDense ≠ 0 then
    (Function.update cache.1 cache.2 (pool.denseEntities (encodedDense - 1)), cache.2 + 1)
  else cache

def orderedRebuild (pool : ComponentPool) : (Nat → EntityId) × Nat :=
  Loop.forRange pool.entityCapacity (orderedRebuildStep pool) (pool.orderedEntities, 0)

def componentPoolOrderedView (pool : ComponentPool) :
    Option ComponentPoolOrderedView × ComponentPool :=
  if pool.capacity < pool.count then (none, pool)
  else if pool.orderedDirty then
    -- the whole mapping is checked before the cache is touched, so the rebuild cannot fail
    match orderedObserve pool with
    | none => (none, pool)
    | some observed =>
      if observed ≠ pool.count then (none, pool)
      else
        let (rebuilt, ordered) := orderedRebuild pool
        let cleared := Loop.forRange (pool.orderedCount - ordered)
          (fun entities i => Function.update entities (ordered + i) .null) rebuilt
        (some ⟨cleared, ordered⟩,
          { pool with orderedEntities := cleared, orderedCount := ordered, orderedDirty := false })
  else (some ⟨pool.orderedEntities, pool.orderedCount⟩, pool)

def ComponentPoolOrderedView.list (view : ComponentPoolOrderedView) : List EntityId :=
  (List.range view.count).map view.entities

namespace ComponentPool

def denseOf (p : ComponentPool) (index : Nat) : EntityId := p.denseEntities (p.sparse index - 1)

def indicesBelow (p : ComponentPool) (n : Nat) : List Nat :=
  (List.range n).filter (fun i => decide (p.sparse i ≠ 0))

def members (p : ComponentPool) : List EntityId :=
  (p.indicesBelow p.entityCapacity).map p.denseOf

structure Inv (p : ComponentPool) : Prop where
  entityCapacity_le : p.entityCapacity ≤ 2 ^ 18
  capacity_le : p.capacity ≤ p.entityCapacity
  count_le : p.count ≤ p.capacity
  dense : ∀ d < p.count, handleGen (p.denseEntities d).h ≠ 0 ∧
    handleIndex (p.denseEntities d).h < p.entityCapacity ∧
    p.sparse (handleIndex (p.denseEntities d).h) = d + 1
  sparse : ∀ i, p.sparse i ≠ 0 → p.sparse i ≤ p.count ∧ handleIndex (p.denseOf i).h = i
  ordered_le : p.orderedCount ≤ p.capacity
  cache : p.orderedDirty = false → (List.range p.orderedCount).map p.orderedEntities = p.members

def Holds (p : ComponentPool) (e : EntityId) : Prop :=
  p.sparse (handleIndex e.h) ≠ 0 ∧ p.denseOf (handleIndex e.h) = e

variable {p : ComponentPool}

theorem Inv.zeroed {entityCapacity capacity : Nat} (hmax : entityCapacity ≤ 2 ^ 18)
    (h : capacity ≤ entityCapacity) : (zeroed entityCapacity capacity).Inv where
  entityCapacity_le := hmax
  capacity_le := h
  count_le := Nat.zero_le _
  dense := by intro d hd; exact absurd hd (Nat.not_lt_zero d)
  sparse := by intro i hi; exact absurd rfl hi
  ordered_le := Nat.zero_le _
  cache := by intro h; exact absurd h (by simp [ComponentPool.zeroed])

theorem Inv.dense_lt (inv : p.Inv) {i : Nat} (h : p.sparse i ≠ 0) : p.sparse i - 1 < p.count := by
  have := (inv.sparse i h).1
  omega

theorem Inv.index_lt (inv : p.Inv) {i : Nat} (h : p.sparse i ≠ 0) : i < p.entityCapacity := by
  have hd := (inv.dense _ (inv.dense_lt h)).2.1
  rwa [show handleIndex (p.denseEntities (p.sparse i - 1)).h = i from (inv.sparse i h).2] at hd

theorem Inv.has_iff (inv : p.Inv) (e : EntityId) : componentPoolHas p e = true ↔ p.Holds e := by
  unfold componentPoolHas
  constructor
  · intro h
    split at h
    · exact absurd h (by simp)
    · dsimp only at h
      split at h
      · exact absurd h (by simp)
      · next hs =>
        simp only [Bool.and_eq_true, decide_eq_true_eq] at h
        refine ⟨hs, ?_⟩
        cases e
        exact congrArg EntityId.mk h.2
  · rintro ⟨hs, he⟩
    have hd := inv.dense_lt hs
    have hdense := inv.dense _ hd
    have hfits : entityFits p e = true := by
      rw [show p.denseEntities (p.sparse (handleIndex e.h) - 1) = e from he] at hdense
      simp [entityFits, hdense.1, hdense.2.1]
    have hcap : p.sparse (handleIndex e.h) - 1 < p.capacity := Nat.lt_of_lt_of_le hd inv.count_le
    have hh : (p.denseEntities (p.sparse (handleIndex e.h) - 1)).h = e.h := congrArg EntityId.h he
    simp [hfits, hs, hd, hcap, hh]

theorem Holds.unique {a b : EntityId} (ha : p.Holds a) (hb : p.Holds b)
    (h : handleIndex a.h = handleIndex b.h) : a = b := by
  rw [← ha.2, ← hb.2, h]

theorem Inv.denseIndex (inv : p.Inv) {e : EntityId} (h : p.Holds e) :
    componentPoolDenseIndex p e = p.sparse (handleIndex e.h) - 1 := by
  simp [componentPoolDenseIndex, (inv.has_iff e).mpr h]

end ComponentPool

end ChoonzMoba
