import ChoonzMoba.Sim.World

namespace ChoonzMoba

def applyCommand (world : SimWorld) (command : SimCommand) : Option SimWorld :=
  let target := world.unitEntities command.unitIndex.toNat
  if command.kind = simCommandSetVelocity then
    match velocityPoolGet world.velocities target with
    | none => none
    | some dense =>
      some { world with
        velocities := world.velocities.write dense ⟨command.valueX, command.valueY⟩ }
  else
    match damageEventQueueAppend world.damageEvents ⟨.null, target, command.amount⟩ with
    | (false, _) => none
    | (true, damageEvents) => some { world with damageEvents := damageEvents }

def sysApplyCommands (world : SimWorld) (commands : Option SimCommandBuffer) :
    Option (Bool × SimWorld) :=
  if !simValidateCommands world commands then some (false, world)
  else
    match commands with
    | none => some (true, world)
    | some buffer => (Loop.forEachM buffer.records applyCommand world).map fun world => (true, world)

def moveEntity (world : SimWorld) (entity : EntityId) : Option SimWorld :=
  match transformPoolGet world.transforms entity with
  | none => none
  | some transform =>
    match velocityPoolGet world.velocities entity with
    | none => some world
    | some velocity =>
      let v := world.velocities.values velocity
      let t := world.transforms.values transform
      let dx := fixMul v.velocityX simDtFixed
      let dy := fixMul v.velocityY simDtFixed
      some { world with
        transforms := world.transforms.write transform
          { t with
            positionX := fixAddWrap t.positionX dx
            positionY := fixAddWrap t.positionY dy } }

def sysMovement (world : SimWorld) : Option (Bool × SimWorld) :=
  match componentPoolOrderedView world.transforms.membership with
  | (none, membership) =>
    some (false, { world with transforms := { world.transforms with membership := membership } })
  | (some ordered, membership) =>
    (Loop.forEachM ordered.list moveEntity
      { world with transforms := { world.transforms with membership := membership } }).map
        fun world => (true, world)

def damageEventResolvable (world : SimWorld) (event : DamageEvent) : Bool :=
  damageEventIsCanonical event && entityManagerIsAlive world.entities event.target &&
    healthPoolHas world.health event.target &&
    (decide (event.source.h = handleNull) || entityManagerIsAlive world.entities event.source)

def resolveEvent (world : SimWorld) (event : DamageEvent) : Option SimWorld :=
  match healthPoolGet world.health event.target with
  | none => none
  | some dense =>
    let h := world.health.values dense
    let current := if h.current ≤ event.amount then 0 else h.current - event.amount
    let damageCooldown := if 0 < event.amount then 3 else h.damageCooldown
    some { world with
      health := world.health.write dense
        { h with current := current, damageCooldown := damageCooldown } }

def sysCombatResolve (world : SimWorld) : Option (Bool × SimWorld) :=
  match damageEventQueueRead world.damageEvents with
  | none => some (false, world)
  | some events =>
    if !events.list.all (damageEventResolvable world) then some (false, world)
    else (Loop.forEachM events.list resolveEvent world).map fun world => (true, world)

def coolEntity (world : SimWorld) (entity : EntityId) : Option SimWorld :=
  match healthPoolGet world.health entity with
  | none => none
  | some dense =>
    let h := world.health.values dense
    if 0 < h.damageCooldown then
      some { world with
        health := world.health.write dense { h with damageCooldown := h.damageCooldown - 1 } }
    else some world

def sysCooldownTick (world : SimWorld) : Option (Bool × SimWorld) :=
  match componentPoolOrderedView world.health.membership with
  | (none, membership) =>
    some (false, { world with health := { world.health with membership := membership } })
  | (some ordered, membership) =>
    (Loop.forEachM ordered.list coolEntity
      { world with health := { world.health with membership := membership } }).map
        fun world => (true, world)

def sysRngAdvance (world : SimWorld) : SimWorld := { world with rng := (pcg32Next world.rng).2 }

def flushComponent {V : Type} [Zero V] (pool : TypedPool V) (entity : EntityId) :
    Option (TypedPool V) :=
  if typedPoolHas pool entity then
    match typedPoolRemove pool entity with
    | (false, _) => none
    | (true, pool) => some pool
  else some pool

def clearUnitSlots (units : Nat → EntityId) (entity : EntityId) : Nat → EntityId :=
  Loop.forRange simMaxUnits (fun units unit =>
    if (units unit).h = entity.h then Function.update units unit .null else units) units

def flushRequest (world : SimWorld) (request : Nat) : Option SimWorld := do
  let entity := world.pendingDestroy request
  let health ← flushComponent world.health entity
  let velocities ← flushComponent world.velocities entity
  let transforms ← flushComponent world.transforms entity
  let unitEntities := clearUnitSlots world.unitEntities entity
  match entityManagerRelease world.entities entity with
  | (false, _) => none
  | (true, entities) =>
    some { world with
      health := health
      velocities := velocities
      transforms := transforms
      unitEntities := unitEntities
      entities := entities
      pendingDestroy := Function.update world.pendingDestroy request .null }

def sysFlushDestroy (world : SimWorld) : Option (Bool × SimWorld) :=
  if world.config.maxEntities.toNat < world.pendingDestroyCount then some (false, world)
  else if !(List.range world.pendingDestroyCount).all (pendingRequestValid world) then
    some (false, world)
  else
    (Loop.forRangeM world.pendingDestroyCount flushRequest world).map
      fun world => (true, { world with pendingDestroyCount := 0 })

def publishDamage (world : SimWorld) : Option (Bool × SimWorld) :=
  let published := damageEventQueuePublish world.damageEvents
  some (published.1, { world with damageEvents := published.2 })

def consumeDamage (world : SimWorld) : Option (Bool × SimWorld) :=
  let consumed := damageEventQueueConsume world.damageEvents
  some (consumed.1, { world with damageEvents := consumed.2 })

/-- `ENSURE` on a phase's result: `none` is the aborted process. -/
def ensured (phase : Option (Bool × SimWorld)) : Option SimWorld :=
  match phase with
  | some (true, world) => some world
  | _ => none

def simTick (world : SimWorld) (commands : Option SimCommandBuffer) : Option (Bool × SimWorld) :=
  if !simValidateCommands world commands then some (false, world)
  else do
    let world ← ensured (sysApplyCommands world commands)
    let world ← ensured (sysMovement world)
    let world ← ensured (publishDamage world)
    let world ← ensured (sysCombatResolve world)
    let world ← ensured (consumeDamage world)
    let world ← ensured (sysCooldownTick world)
    let world := sysRngAdvance world
    let world ← ensured (sysFlushDestroy world)
    some (true, { world with tick := world.tick + 1 })

end ChoonzMoba
