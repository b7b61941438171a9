import ChoonzMoba.Core.ArenaBudget
import ChoonzMoba.Sim.World

namespace ChoonzMoba

def entityManagerMemoryRequired (capacity : Nat) : Nat :=
  if capacity = 0 ∨ handleIndexMask.toNat + 1 < capacity then 0
  else 2 * capacity + (2 - 1) + (1 * capacity + (1 - 1)) + (4 * capacity + (4 - 1))

def componentPoolMemoryRequired (entityCapacity capacity : Nat) : Nat :=
  if entityCapacity = 0 ∨ handleIndexMask.toNat + 1 < entityCapacity ∨ capacity = 0 ∨
      entityCapacity < capacity then 0
  else 4 * entityCapacity + (4 - 1) + (4 * capacity + (4 - 1)) + (4 * capacity + (4 - 1))

def addAligned (total bytes alignment : Nat) : Option Nat :=
  if alignment = 0 ∨ sizeMax - (alignment - 1) < bytes ∨
      sizeMax - (bytes + alignment - 1) < total then none
  else some (total + (bytes + alignment - 1))

def typedPoolMemoryRequired (entityCapacity capacity arrayCount elementSize elementAlignment : Nat) :
    Nat :=
  if entityCapacity = 0 ∨ handleIndexMask.toNat + 1 < entityCapacity ∨ capacity = 0 ∨
      entityCapacity < capacity then 0
  else
    (Loop.forRangeM arrayCount
      (fun total _ => addAligned total (elementSize * capacity) elementAlignment)
      (componentPoolMemoryRequired entityCapacity capacity)).getD 0

def transformPoolMemoryRequired (entityCapacity capacity : Nat) : Nat :=
  typedPoolMemoryRequired entityCapacity capacity 3 4 4

def velocityPoolMemoryRequired (entityCapacity capacity : Nat) : Nat :=
  typedPoolMemoryRequired entityCapacity capacity 2 4 4

def healthPoolMemoryRequired (entityCapacity capacity : Nat) : Nat :=
  typedPoolMemoryRequired entityCapacity capacity 3 4 4

def damageEventQueueMemoryRequired (capacity : Nat) : Nat :=
  if capacity = 0 ∨ sizeMax / 12 < capacity then 0
  else
    let bytes := 12 * capacity
    let allocation := bytes + (4 - 1)
    if sizeMax / 2 < allocation then 0 else allocation * 2

def addRequired (total required : Nat) : Option Nat :=
  if required = 0 ∨ sizeMax - total < required then none else some (total + required)

def simWorldMemoryRequired (config : SimWorldConfig) : Nat :=
  let maxEntities := config.maxEntities.toNat
  if !simConfigValid config then 0
  else
    (do
      let total ← addRequired 0 (entityManagerMemoryRequired maxEntities)
      let total ← addRequired total (transformPoolMemoryRequired maxEntities maxEntities)
      let total ← addRequired total (velocityPoolMemoryRequired maxEntities maxEntities)
      let total ← addRequired total (healthPoolMemoryRequired maxEntities maxEntities)
      let total ← addRequired total
        (damageEventQueueMemoryRequired config.damageEventCapacity.toNat)
      let destroyBytes := 4 * maxEntities
      if sizeMax - (4 - 1) < destroyBytes then none
      else addRequired total (destroyBytes + 4 - 1) : Option Nat).getD 0

/-- Initializers return the arena and, on success, the object; the outer `none` is an aborted
`arena_push`. -/
abbrev Initialized (α : Type) := Option (Arena × Option α)

def Initialized.andThen {α β : Type} (first : Initialized α) (next : Arena → α → Initialized β) :
    Initialized β :=
  match first with
  | none => none
  | some (arena, none) => some (arena, none)
  | some (arena, some a) => next arena a

def layoutAll (arena : Arena) (blocks : List (Nat × Nat)) : Option Nat :=
  Loop.forEachM blocks (fun stop block => layoutAdvance arena stop block.1 block.2) arena.offset

def entityManagerInit (arena : Arena) (capacity : Nat) : Initialized EntityManager :=
  let blocks := [(2 * capacity, 2), (1 * capacity, 1), (4 * capacity, 4)]
  if capacity = 0 ∨ handleIndexMask.toNat + 1 < capacity ∨ arena.base = 0 ∨
      arena.reserved < arena.offset then some (arena, none)
  else
    match layoutAll arena blocks with
    | none => some (arena, none)
    | some _ => (pushAll arena blocks).map fun arena => (arena, some (.zeroed capacity))

def componentPoolInit (arena : Arena) (entityCapacity capacity : Nat) : Initialized ComponentPool :=
  let blocks := [(4 * entityCapacity, 4), (4 * capacity, 4), (4 * capacity, 4)]
  if componentPoolMemoryRequired entityCapacity capacity = 0 ∨ arena.base = 0 ∨
      arena.reserved < arena.offset then some (arena, none)
  else
    match layoutAll arena blocks with
    | none => some (arena, none)
    | some _ =>
      (pushAll arena blocks).map fun arena => (arena, some (.zeroed entityCapacity capacity))

def arenaHasBudget (arena : Arena) (required : Nat) : Bool :=
  decide (arena.base ≠ 0) && decide (arena.offset ≤ arena.reserved) &&
    decide (required ≤ arena.reserved - arena.offset)

def typedPoolInit (V : Type) [Zero V] (arena : Arena)
    (entityCapacity capacity required arrayCount elementSize elementAlignment : Nat) :
    Initialized (TypedPool V) :=
  if required = 0 ∨ !arenaHasBudget arena required then some (arena, none)
  else
    match componentPoolInit arena entityCapacity capacity with
    | none => none
    | some (staged, none) => some (tempEnd staged arena.offset, none)
    | some (staged, some membership) =>
      (pushAll staged (List.replicate arrayCount (elementSize * capacity, elementAlignment))).map
        fun arena => (arena, some ⟨membership, fun _ => 0⟩)

def transformPoolInit (arena : Arena) (entityCapacity capacity : Nat) : Initialized TransformPool :=
  typedPoolInit Transform arena entityCapacity capacity
    (transformPoolMemoryRequired entityCapacity capacity) 3 4 4

def velocityPoolInit (arena : Arena) (entityCapacity capacity : Nat) : Initialized VelocityPool :=
  typedPoolInit Velocity arena entityCapacity capacity
    (velocityPoolMemoryRequired entityCapacity capacity) 2 4 4

def healthPoolInit (arena : Arena) (entityCapacity capacity : Nat) : Initialized HealthPool :=
  typedPoolInit Health arena entityCapacity capacity
    (healthPoolMemoryRequired entityCapacity capacity) 3 4 4

def damageEventQueueInit (arena : Arena) (capacity : Nat) : Initialized DamageEventQueue :=
  let required := damageEventQueueMemoryRequired capacity
  let blocks := [(12 * capacity, 4), (12 * capacity, 4)]
  if arena.base = 0 ∨ arena.reserved < arena.offset ∨ required = 0 ∨
      arena.reserved - arena.offset < required then some (arena, none)
  else
    match layoutAll arena blocks with
    | none => some (arena, none)
    | some _ => (pushAll arena blocks).map fun arena => (arena, some (.zeroed capacity))

def simInitUnit (staged : SimWorld) (i : Nat) : Option SimWorld :=
  let created := entityManagerCreate staged.entities
  let entity := created.1
  let gridX := Int32.ofNat (i % 8) - 4
  let gridY := Int32.ofNat (i / 8) - 4
  let transforms := transformPoolAdd staged.transforms entity (fixFromInt gridX) (fixFromInt gridY) 0
  let velocities := velocityPoolAdd staged.velocities entity 0 0
  let health := healthPoolAdd staged.health entity 100 100 0
  if entity.h = handleNull ∨ !transforms.1 ∨ !velocities.1 ∨ !health.1 then none
  else
    some { staged with
      entities := created.2
      transforms := transforms.2
      velocities := velocities.2
      health := health.2
      unitEntities := Function.update staged.unitEntities i entity }

def SimWorld.staged (seed : UInt64) (config : SimWorldConfig) (entities : EntityManager)
    (transforms : TransformPool) (velocities : VelocityPool) (health : HealthPool)
    (damageEvents : DamageEventQueue) : SimWorld where
  tick := 0
  config := config
  rng := pcg32Seed seed 1
  entities := entities
  transforms := transforms
  velocities := velocities
  health := health
  unitEntities := fun _ => .null
  damageEvents := damageEvents
  pendingDestroy := fun _ => .null
  pendingDestroyCount := 0

def simInitPools (arena : Arena) (seed : UInt64) (config : SimWorldConfig) : Initialized SimWorld :=
  let capacity := config.maxEntities.toNat
  (entityManagerInit arena capacity).andThen fun arena entities =>
  (transformPoolInit arena capacity capacity).andThen fun arena transforms =>
  (velocityPoolInit arena capacity capacity).andThen fun arena velocities =>
  (healthPoolInit arena capacity capacity).andThen fun arena health =>
  (damageEventQueueInit arena config.damageEventCapacity.toNat).andThen fun arena damageEvents =>
    some (arena, some (.staged seed config entities transforms velocities health damageEvents))

def simInit (arena : Arena) (seed : UInt64) (config : SimWorldConfig) : Initialized SimWorld :=
  let required := simWorldMemoryRequired config
  if arena.base = 0 ∨ arena.reserved < arena.offset ∨ required = 0 ∨
      arena.reserved - arena.offset < required then some (arena, none)
  else
    match simInitPools arena seed config with
    | none => none
    | some (staged, none) => some (tempEnd staged arena.offset, none)
    | some (staged, some world) =>
      match arenaPush staged (4 * config.maxEntities.toNat) 4 with
      | none => none
      | some (pushed, _) =>
        match Loop.forRangeM config.initialUnitCount.toNat simInitUnit world with
        | none => some (tempEnd pushed arena.offset, none)
        | some world => some (pushed, some world)

end ChoonzMoba
