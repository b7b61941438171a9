import ChoonzMoba.Sim.ComponentPoolSpec

namespace ChoonzMoba

structure TypedPool (V : Type) where
  membership : ComponentPool
  values : Nat → V

section

variable {V : Type}

def TypedPool.zeroed [Zero V] (entityCapacity capacity : Nat) : TypedPool V :=
  ⟨.zeroed entityCapacity capacity, fun _ => 0⟩

def typedPoolAdd (pool : TypedPool V) (entity : EntityId) (value : V) : Bool × TypedPool V :=
  match componentPoolAdd pool.membership entity with
  | (none, membership) => (false, { pool with membership := membership })
  | (some dense, membership) => (true, ⟨membership, Function.update pool.values dense value⟩)

def typedPoolRemove [Zero V] (pool : TypedPool V) (entity : EntityId) : Bool × TypedPool V :=
  match componentPoolRemove pool.membership entity with
  | (none, membership) => (false, { pool with membership := membership })
  | (some result, membership) =>
    let relocated :=
      if result.removedDense ≠ result.movedFromDense then
        Function.update pool.values result.removedDense (pool.values result.movedFromDense)
      else pool.values
    (true, ⟨membership, Function.update relocated result.movedFromDense 0⟩)

def typedPoolHas (pool : TypedPool V) (entity : EntityId) : Bool :=
  componentPoolHas pool.membership entity

def typedPoolGet (pool : TypedPool V) (entity : EntityId) : Option Nat :=
  let dense := componentPoolDenseIndex pool.membership entity
  if dense = componentPoolInvalidDense then none else some dense

def TypedPool.write (pool : TypedPool V) (dense : Nat) (value : V) : TypedPool V :=
  { pool with values := Function.update pool.values dense value }

end

structure Transform where
  positionX : Int32
  positionY : Int32
  facing : Int32
deriving DecidableEq, Repr

structure Velocity where
  velocityX : Int32
  velocityY : Int32
deriving DecidableEq, Repr

structure Health where
  current : Int32
  maximum : Int32
  damageCooldown : UInt32
deriving DecidableEq, Repr

instance : Zero Transform := ⟨⟨0, 0, 0⟩⟩

instance : Zero Velocity := ⟨⟨0, 0⟩⟩

instance : Zero Health := ⟨⟨0, 0, 0⟩⟩

abbrev TransformPool := TypedPool Transform

abbrev VelocityPool := TypedPool Velocity

abbrev HealthPool := TypedPool Health

def transformPoolAdd (pool : TransformPool) (entity : EntityId)
    (positionX positionY facing : Int32) : Bool × TransformPool :=
  typedPoolAdd pool entity ⟨positionX, positionY, facing⟩

def transformPoolRemove (pool : TransformPool) (entity : EntityId) : Bool × TransformPool :=
  typedPoolRemove pool entity

def transformPoolHas (pool : TransformPool) (entity : EntityId) : Bool := typedPoolHas pool entity

def transformPoolGet (pool : TransformPool) (entity : EntityId) : Option Nat :=
  typedPoolGet pool entity

def transformPoolGetConst (pool : TransformPool) (entity : EntityId) : Option Nat :=
  typedPoolGet pool entity

def velocityPoolAdd (pool : VelocityPool) (entity : EntityId) (velocityX velocityY : Int32) :
    Bool × VelocityPool :=
  typedPoolAdd pool entity ⟨velocityX, velocityY⟩

def velocityPoolRemove (pool : VelocityPool) (entity : EntityId) : Bool × VelocityPool :=
  typedPoolRemove pool entity

def velocityPoolHas (pool : VelocityPool) (entity : EntityId) : Bool := typedPoolHas pool entity

def velocityPoolGet (pool : VelocityPool) (entity : EntityId) : Option Nat :=
  typedPoolGet pool entity

def healthPoolAdd (pool : HealthPool) (entity : EntityId) (current maximum : Int32)
    (damageCooldown : UInt32) : Bool × HealthPool :=
  if current < 0 ∨ maximum < 0 ∨ maximum < current then (false, pool)
  else typedPoolAdd pool entity ⟨current, maximum, damageCooldown⟩

def healthPoolRemove (pool : HealthPool) (entity : EntityId) : Bool × HealthPool :=
  typedPoolRemove pool entity

def healthPoolHas (pool : HealthPool) (entity : EntityId) : Bool := typedPoolHas pool entity

def healthPoolGet (pool : HealthPool) (entity : EntityId) : Option Nat := typedPoolGet pool entity

namespace TypedPool

variable {V : Type}

def lookup (p : TypedPool V) (e : EntityId) : Option V :=
  if componentPoolHas p.membership e then
    some (p.values (p.membership.sparse (handleIndex e.h) - 1))
  else none

variable {p : TypedPool V}

theorem lookup_of_holds (inv : p.membership.Inv) {e : EntityId} (h : p.membership.Holds e) :
    p.lookup e = some (p.values (p.membership.sparse (handleIndex e.h) - 1)) := by
  simp [lookup, (inv.has_iff e).mpr h]

theorem lookup_of_not_holds (inv : p.membership.Inv) {e : EntityId}
    (h : ¬ p.membership.Holds e) : p.lookup e = none := by
  rw [← inv.has_iff] at h
  simp [lookup, h]

theorem lookup_isSome (inv : p.membership.Inv) (e : EntityId) :
    (p.lookup e).isSome ↔ p.membership.Holds e := by
  rw [← inv.has_iff]
  by_cases h : componentPoolHas p.membership e <;> simp [lookup, h]

theorem lookup_ne_none (inv : p.membership.Inv) (e : EntityId) :
    p.lookup e ≠ none ↔ p.membership.Holds e := by
  rw [← lookup_isSome inv, Option.isSome_iff_ne_none]

theorem has_eq_isSome (p : TypedPool V) (e : EntityId) :
    typedPoolHas p e = (p.lookup e).isSome := by
  by_cases h : componentPoolHas p.membership e <;> simp [typedPoolHas, lookup, h]

def inserted (p : TypedPool V) (e : EntityId) (v : V) : TypedPool V :=
  ⟨p.membership.inserted e, Function.update p.values p.membership.count v⟩

theorem add_eq {e : EntityId} (hg : handleGen e.h ≠ 0)
    (hi : handleIndex e.h < p.membership.entityCapacity)
    (hroom : p.membership.count < p.membership.capacity)
    (hfree : p.membership.sparse (handleIndex e.h) = 0) (v : V) :
    typedPoolAdd p e v = (true, p.inserted e v) := by
  simp [typedPoolAdd, ComponentPool.add_eq hg hi hroom hfree, inserted]

theorem add_cases (p : TypedPool V) (e : EntityId) (v : V) :
    typedPoolAdd p e v = (false, p) ∨
      (handleGen e.h ≠ 0 ∧ handleIndex e.h < p.membership.entityCapacity ∧
        p.membership.count < p.membership.capacity ∧ p.membership.sparse (handleIndex e.h) = 0 ∧
        typedPoolAdd p e v = (true, p.inserted e v)) := by
  rcases p.membership.add_cases e with h | ⟨hg, hi, hroom, hfree, -⟩
  · exact Or.inl (by simp [typedPoolAdd, h])
  · exact Or.inr ⟨hg, hi, hroom, hfree, add_eq hg hi hroom hfree v⟩

theorem inserted_lookup (inv : p.membership.Inv) {e : EntityId} (hg : handleGen e.h ≠ 0)
    (hi : handleIndex e.h < p.membership.entityCapacity)
    (hroom : p.membership.count < p.membership.capacity)
    (hfree : p.membership.sparse (handleIndex e.h) = 0) (v : V) :
    (p.inserted e v).lookup = Function.update p.lookup e (some v) := by
  have inv' : (p.inserted e v).membership.Inv := inv.inserted hg hi hroom hfree
  have hholds := inv.inserted_holds hfree
  funext a
  by_cases hae : a = e
  · subst hae
    rw [lookup_of_holds inv' ((hholds a).mpr (Or.inl rfl)), Function.update_self]
    simp [inserted]
  · rw [Function.update_of_ne hae]
    by_cases ha : p.membership.Holds a
    · have hidx : handleIndex a.h ≠ handleIndex e.h := fun h => ha.1 (by rw [h, hfree])
      have hne := Nat.ne_of_lt (inv.dense_lt ha.1)
      rw [lookup_of_holds inv' ((hholds a).mpr (Or.inr ha)), lookup_of_holds inv ha]
      simp only [inserted, ComponentPool.inserted_sparse_ne hidx, Function.update_of_ne hne]
    · rw [lookup_of_not_holds inv ha, lookup_of_not_holds inv']
      intro h
      exact ((hholds a).mp h).elim hae ha

def erased [Zero V] (p : TypedPool V) (e : EntityId) : TypedPool V :=
  let removedDense := p.membership.sparse (handleIndex e.h) - 1
  let lastDense := p.membership.count - 1
  ⟨p.membership.erased e, Function.update
    (if removedDense ≠ lastDense then
      Function.update p.values removedDense (p.values lastDense) else p.values) lastDense 0⟩

theorem remove_eq [Zero V] (inv : p.membership.Inv) {e : EntityId} (h : p.membership.Holds e) :
    typedPoolRemove p e = (true, p.erased e) := by
  obtain ⟨moved, hr⟩ := inv.remove_eq h
  simp [typedPoolRemove, hr, erased]

theorem remove_rejected [Zero V] (inv : p.membership.Inv) {e : EntityId} (h : ¬ p.membership.Holds e) :
    typedPoolRemove p e = (false, p) := by
  simp [typedPoolRemove, inv.remove_rejected h]

theorem erased_lookup [Zero V] (inv : p.membership.Inv) {e : EntityId} (h : p.membership.Holds e) :
    (p.erased e).lookup = Function.update p.lookup e none := by
  have inv' : (p.erased e).membership.Inv := inv.erased h
  have hholds := inv.erased_holds h
  funext a
  by_cases hae : a = e
  · subst hae
    rw [Function.update_self, lookup_of_not_holds inv' fun ha => ((hholds a).mp ha).2 rfl]
  · rw [Function.update_of_ne hae]
    by_cases ha : p.membership.Holds a
    · have hidx : handleIndex a.h ≠ handleIndex e.h := fun hi => hae (ha.unique h hi)
      have hle := (inv.sparse _ ha.1).1
      have hs : (p.erased e).membership.sparse (handleIndex a.h) = _ :=
        inv.erased_sparse_ne h hidx ha.1
      rw [lookup_of_holds inv' ((hholds a).mpr ⟨ha, hae⟩), lookup_of_holds inv ha, hs]
      have hdistinct : p.membership.sparse (handleIndex a.h) ≠
          p.membership.sparse (handleIndex e.h) := by
        intro hc
        have heq : p.membership.denseOf (handleIndex a.h) =
            p.membership.denseOf (handleIndex e.h) := by
          rw [ComponentPool.denseOf, ComponentPool.denseOf, hc]
        exact hae (by rw [← ha.2, heq, h.2])
      have hpos := ha.1
      have hpos' := h.1
      have hlt := inv.dense_lt h.1
      congr 1
      by_cases hc : p.membership.sparse (handleIndex a.h) = p.membership.count
      · have hne : p.membership.sparse (handleIndex e.h) - 1 ≠ p.membership.count - 1 := by omega
        simp only [erased, if_pos hc, if_pos hne]
        rw [Function.update_of_ne hne, Function.update_self, hc]
      · have hne : p.membership.sparse (handleIndex a.h) - 1 ≠ p.membership.count - 1 := by omega
        simp only [erased, if_neg hc]
        rw [Function.update_of_ne hne]
        split
        · rw [Function.update_of_ne (by omega)]
        · rfl
    · rw [lookup_of_not_holds inv ha, lookup_of_not_holds inv' fun hc => ha ((hholds a).mp hc).1]

theorem get_eq (inv : p.membership.Inv) {e : EntityId} (h : p.membership.Holds e) :
    typedPoolGet p e = some (p.membership.sparse (handleIndex e.h) - 1) := by
  have hlt := inv.dense_lt h.1
  have hcount := inv.count_le
  have hcap := inv.capacity_le
  have hmax := inv.entityCapacity_le
  have hne : p.membership.sparse (handleIndex e.h) - 1 ≠ componentPoolInvalidDense := by
    simp only [componentPoolInvalidDense]
    omega
  simp [typedPoolGet, inv.denseIndex h, hne]

theorem get_none {e : EntityId} (h : componentPoolHas p.membership e = false) :
    typedPoolGet p e = none := by
  simp [typedPoolGet, componentPoolDenseIndex, h]

theorem write_lookup (inv : p.membership.Inv) {e : EntityId} (h : p.membership.Holds e) (v : V) :
    (p.write (p.membership.sparse (handleIndex e.h) - 1) v).lookup =
      Function.update p.lookup e (some v) := by
  have inv' : (p.write (p.membership.sparse (handleIndex e.h) - 1) v).membership.Inv := inv
  funext a
  by_cases hae : a = e
  · subst hae
    rw [Function.update_self, lookup_of_holds inv' h]
    simp [write]
  · rw [Function.update_of_ne hae]
    by_cases ha : p.membership.Holds a
    · have hidx : handleIndex a.h ≠ handleIndex e.h := fun hi => hae (ha.unique h hi)
      have hne : p.membership.sparse (handleIndex a.h) - 1 ≠
          p.membership.sparse (handleIndex e.h) - 1 := by
        intro hc
        have hda := (inv.sparse _ ha.1).2
        have hde := (inv.sparse _ h.1).2
        rw [ComponentPool.denseOf, hc] at hda
        exact hidx (hda.symm.trans hde)
      rw [lookup_of_holds inv' ha, lookup_of_holds inv ha]
      simp only [write, Function.update_of_ne hne]
    · rw [lookup_of_not_holds inv' ha, lookup_of_not_holds inv ha]

end TypedPool

end ChoonzMoba
