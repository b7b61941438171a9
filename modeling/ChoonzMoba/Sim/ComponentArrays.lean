import ChoonzMoba.Sim.TypedPoolRun

-- the three pools with their value arrays side by side, as the source keeps them

namespace ChoonzMoba.Soa

structure TransformPool where
  membership : ComponentPool
  positionX : Nat → Fix
  positionY : Nat → Fix
  facing : Nat → Fix

-- a view's pointers, as positions in the three arrays
structure TransformView where
  positionX : Nat
  positionY : Nat
  facing : Nat

def transformPoolInit (arena : Arena) (entityCapacity capacity : Nat) :
    Initialized TransformPool :=
  (ChoonzMoba.transformPoolInit arena entityCapacity capacity).map fun (arena, pool) =>
    (arena, pool.map fun staged => ⟨staged.membership, fun _ => 0, fun _ => 0, fun _ => 0⟩)

def transformPoolAdd (pool : TransformPool) (entity : EntityId)
    (positionX positionY facing : Fix) : Bool × TransformPool :=
  match componentPoolAdd pool.membership entity with
  | (none, membership) => (false, { pool with membership := membership })
  | (some dense, membership) =>
    (true,
      { membership := membership
        positionX := Function.update pool.positionX dense positionX
        positionY := Function.update pool.positionY dense positionY
        facing := Function.update pool.facing dense facing })

def transformPoolRemove (pool : TransformPool) (entity : EntityId) : Bool × TransformPool :=
  match componentPoolRemove pool.membership entity with
  | (none, membership) => (false, { pool with membership := membership })
  | (some result, membership) =>
    let relocated : TransformPool :=
      if result.removedDense ≠ result.movedFromDense then
        { membership := membership
          positionX :=
            Function.update pool.positionX result.removedDense (pool.positionX result.movedFromDense)
          positionY :=
            Function.update pool.positionY result.removedDense (pool.positionY result.movedFromDense)
          facing :=
            Function.update pool.facing result.removedDense (pool.facing result.movedFromDense) }
      else { pool with membership := membership }
    (true,
      { relocated with
        positionX := Function.update relocated.positionX result.movedFromDense 0
        positionY := Function.update relocated.positionY result.movedFromDense 0
        facing := Function.update relocated.facing result.movedFromDense 0 })

def transformPoolGet (pool : TransformPool) (entity : EntityId) : Option TransformView :=
  let dense := componentPoolDenseIndex pool.membership entity
  if dense = componentPoolInvalidDense then none else some ⟨dense, dense, dense⟩

def TransformView.read (pool : TransformPool) (view : TransformView) : Transform :=
  ⟨pool.positionX view.positionX, pool.positionY view.positionY, pool.facing view.facing⟩

inductive TransformWrite where
  | positionX (value : Fix)
  | positionY (value : Fix)
  | facing (value : Fix)

def TransformWrite.through (pool : TransformPool) (view : TransformView) :
    TransformWrite → TransformPool
  | .positionX value =>
    { pool with positionX := Function.update pool.positionX view.positionX value }
  | .positionY value =>
    { pool with positionY := Function.update pool.positionY view.positionY value }
  | .facing value => { pool with facing := Function.update pool.facing view.facing value }

def TransformWrite.apply : TransformWrite → Transform → Transform
  | .positionX value, t => { t with positionX := value }
  | .positionY value, t => { t with positionY := value }
  | .facing value, t => { t with facing := value }

structure VelocityPool where
  membership : ComponentPool
  velocityX : Nat → Fix
  velocityY : Nat → Fix

structure VelocityView where
  velocityX : Nat
  velocityY : Nat

def velocityPoolInit (arena : Arena) (entityCapacity capacity : Nat) : Initialized VelocityPool :=
  (ChoonzMoba.velocityPoolInit arena entityCapacity capacity).map fun (arena, pool) =>
    (arena, pool.map fun staged => ⟨staged.membership, fun _ => 0, fun _ => 0⟩)

def velocityPoolAdd (pool : VelocityPool) (entity : EntityId) (velocityX velocityY : Fix) :
    Bool × VelocityPool :=
  match componentPoolAdd pool.membership entity with
  | (none, membership) => (false, { pool with membership := membership })
  | (some dense, membership) =>
    (true,
      { membership := membership
        velocityX := Function.update pool.velocityX dense velocityX
        velocityY := Function.update pool.velocityY dense velocityY })

def velocityPoolRemove (pool : VelocityPool) (entity : EntityId) : Bool × VelocityPool :=
  match componentPoolRemove pool.membership entity with
  | (none, membership) => (false, { pool with membership := membership })
  | (some result, membership) =>
    let relocated : VelocityPool :=
      if result.removedDense ≠ result.movedFromDense then
        { membership := membership
          velocityX :=
            Function.update pool.velocityX result.removedDense (pool.velocityX result.movedFromDense)
          velocityY :=
            Function.update pool.velocityY result.removedDense
              (pool.velocityY result.movedFromDense) }
      else { pool with membership := membership }
    (true,
      { relocated with
        velocityX := Function.update relocated.velocityX result.movedFromDense 0
        velocityY := Function.update relocated.velocityY result.movedFromDense 0 })

def velocityPoolGet (pool : VelocityPool) (entity : EntityId) : Option VelocityView :=
  let dense := componentPoolDenseIndex pool.membership entity
  if dense = componentPoolInvalidDense then none else some ⟨dense, dense⟩

def VelocityView.read (pool : VelocityPool) (view : VelocityView) : Velocity :=
  ⟨pool.velocityX view.velocityX, pool.velocityY view.velocityY⟩

inductive VelocityWrite where
  | velocityX (value : Fix)
  | velocityY (value : Fix)

def VelocityWrite.through (pool : VelocityPool) (view : VelocityView) :
    VelocityWrite → VelocityPool
  | .velocityX value =>
    { pool with velocityX := Function.update pool.velocityX view.velocityX value }
  | .velocityY value =>
    { pool with velocityY := Function.update pool.velocityY view.velocityY value }

def VelocityWrite.apply : VelocityWrite → Velocity → Velocity
  | .velocityX value, v => { v with velocityX := value }
  | .velocityY value, v => { v with velocityY := value }

structure HealthPool where
  membership : ComponentPool
  current : Nat → Int32
  maximum : Nat → Int32
  damageCooldown : Nat → UInt32

structure HealthView where
  current : Nat
  maximum : Nat
  damageCooldown : Nat

def healthPoolInit (arena : Arena) (entityCapacity capacity : Nat) : Initialized HealthPool :=
  (ChoonzMoba.healthPoolInit arena entityCapacity capacity).map fun (arena, pool) =>
    (arena, pool.map fun staged => ⟨staged.membership, fun _ => 0, fun _ => 0, fun _ => 0⟩)

def healthPoolAdd (pool : HealthPool) (entity : EntityId) (current maximum : Int32)
    (damageCooldown : UInt32) : Bool × HealthPool :=
  if current < 0 ∨ maximum < 0 ∨ maximum < current then (false, pool)
  else
    match componentPoolAdd pool.membership entity with
    | (none, membership) => (false, { pool with membership := membership })
    | (some dense, membership) =>
      (true,
        { membership := membership
          current := Function.update pool.current dense current
          maximum := Function.update pool.maximum dense maximum
          damageCooldown := Function.update pool.damageCooldown dense damageCooldown })

def healthPoolRemove (pool : HealthPool) (entity : EntityId) : Bool × HealthPool :=
  match componentPoolRemove pool.membership entity with
  | (none, membership) => (false, { pool with membership := membership })
  | (some result, membership) =>
    let relocated : HealthPool :=
      if result.removedDense ≠ result.movedFromDense then
        { membership := membership
          current :=
            Function.update pool.current result.removedDense (pool.current result.movedFromDense)
          maximum :=
            Function.update pool.maximum result.removedDense (pool.maximum result.movedFromDense)
          damageCooldown :=
            Function.update pool.damageCooldown result.removedDense
              (pool.damageCooldown result.movedFromDense) }
      else { pool with membership := membership }
    (true,
      { relocated with
        current := Function.update relocated.current result.movedFromDense 0
        maximum := Function.update relocated.maximum result.movedFromDense 0
        damageCooldown := Function.update relocated.damageCooldown result.movedFromDense 0 })

def healthPoolGet (pool : HealthPool) (entity : EntityId) : Option HealthView :=
  let dense := componentPoolDenseIndex pool.membership entity
  if dense = componentPoolInvalidDense then none else some ⟨dense, dense, dense⟩

def HealthView.read (pool : HealthPool) (view : HealthView) : Health :=
  ⟨pool.current view.current, pool.maximum view.maximum, pool.damageCooldown view.damageCooldown⟩

inductive HealthWrite where
  | current (value : Int32)
  | maximum (value : Int32)
  | damageCooldown (value : UInt32)

def HealthWrite.through (pool : HealthPool) (view : HealthView) : HealthWrite → HealthPool
  | .current value => { pool with current := Function.update pool.current view.current value }
  | .maximum value => { pool with maximum := Function.update pool.maximum view.maximum value }
  | .damageCooldown value =>
    { pool with damageCooldown := Function.update pool.damageCooldown view.damageCooldown value }

def HealthWrite.apply : HealthWrite → Health → Health
  | .current value, h => { h with current := value }
  | .maximum value, h => { h with maximum := value }
  | .damageCooldown value, h => { h with damageCooldown := value }

end ChoonzMoba.Soa
