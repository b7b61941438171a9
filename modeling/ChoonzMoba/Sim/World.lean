import ChoonzMoba.Core.Arena
import ChoonzMoba.Math.Fix
import ChoonzMoba.Math.Rng
import ChoonzMoba.Sim.Components
import ChoonzMoba.Sim.Entity
import ChoonzMoba.Sim.Events

namespace ChoonzMoba

def simMaxUnits : Nat := 64

def simMaxPlayers : Nat := 10

def simMaxCommandsPerTick : Nat := 256

def simDefaultMaxEntities : UInt32 := 16384

def simDefaultDamageEventCapacity : UInt32 := 256

def simCommandSetVelocity : UInt8 := 1

def simCommandDamage : UInt8 := 2

structure SimCommand where
  kind : UInt8
  playerId : UInt8
  unitIndex : UInt16
  valueX : Fix
  valueY : Fix
  amount : Int32
deriving DecidableEq, Repr

structure SimCommandBuffer where
  count : Nat
  commands : Option (Vector SimCommand count)

def SimCommandBuffer.records (buffer : SimCommandBuffer) : List SimCommand :=
  match buffer.commands with
  | none => []
  | some commands => commands.toList

def SimCommandBuffer.ofList (commands : List SimCommand) : SimCommandBuffer :=
  ⟨commands.length, some ⟨commands.toArray, List.size_toArray⟩⟩

structure SimWorldConfig where
  maxEntities : UInt32
  initialUnitCount : UInt32
  damageEventCapacity : UInt32
deriving DecidableEq, Repr

structure SimWorld where
  tick : UInt64
  config : SimWorldConfig
  rng : Pcg32
  entities : EntityManager
  transforms : TransformPool
  velocities : VelocityPool
  health : HealthPool
  unitEntities : Nat → EntityId
  damageEvents : DamageEventQueue
  pendingDestroy : Nat → EntityId
  pendingDestroyCount : Nat

def simConfigValid (config : SimWorldConfig) : Bool :=
  decide (0 < config.maxEntities.toNat) &&
    decide (config.maxEntities.toNat ≤ handleIndexMask.toNat + 1) &&
    decide (config.initialUnitCount.toNat ≤ simMaxUnits) &&
    decide (config.initialUnitCount.toNat ≤ config.maxEntities.toNat) &&
    decide (0 < config.damageEventCapacity.toNat)

def simWorldConfigDefault : SimWorldConfig :=
  ⟨simDefaultMaxEntities, UInt32.ofNat simMaxUnits, simDefaultDamageEventCapacity⟩

def simCommandIsCanonical (command : SimCommand) (playerCount unitCount : Nat) : Bool :=
  if playerCount = 0 ∨ simMaxPlayers < playerCount ∨ simMaxUnits < unitCount ∨
      playerCount ≤ command.playerId.toNat ∨ unitCount ≤ command.unitIndex.toNat then false
  else if command.kind = simCommandSetVelocity then decide (command.amount = 0)
  else if command.kind = simCommandDamage then
    decide (command.valueX = 0) && decide (command.valueY = 0) && decide (0 ≤ command.amount)
  else false

def simDestroyDeferred (world : SimWorld) (entity : EntityId) : Bool × SimWorld :=
  if !simConfigValid world.config || !entityManagerIsAlive world.entities entity ||
      decide (world.config.maxEntities.toNat ≤ world.pendingDestroyCount) then (false, world)
  else if (List.range world.pendingDestroyCount).any
      (fun i => decide ((world.pendingDestroy i).h = entity.h)) then (false, world)
  else
    (true,
      { world with
        pendingDestroy := Function.update world.pendingDestroy world.pendingDestroyCount entity
        pendingDestroyCount := world.pendingDestroyCount + 1 })

def unitSlotValid (world : SimWorld) (i : Nat) : Bool :=
  let entity := world.unitEntities i
  decide (entity.h = handleNull) ||
    (decide (i < world.config.initialUnitCount.toNat) &&
      entityManagerIsAlive world.entities entity && transformPoolHas world.transforms entity &&
      velocityPoolHas world.velocities entity && healthPoolHas world.health entity)

def pendingRequestValid (world : SimWorld) (i : Nat) : Bool :=
  let entity := world.pendingDestroy i
  entityManagerIsAlive world.entities entity &&
    (List.range i).all (fun previous => decide ((world.pendingDestroy previous).h ≠ entity.h))

def simCommandAccepted (world : SimWorld) (command : SimCommand) : Bool :=
  simCommandIsCanonical command simMaxPlayers simMaxUnits &&
    decide ((world.unitEntities command.unitIndex.toNat).h ≠ handleNull)

def simBufferAccepted (world : SimWorld) (buffer : SimCommandBuffer) : Bool :=
  decide (buffer.count ≤ simMaxCommandsPerTick) &&
    (decide (buffer.count = 0) || buffer.commands.isSome) &&
    buffer.records.all (simCommandAccepted world) &&
    decide (buffer.records.countP (fun command => decide (command.kind = simCommandDamage)) ≤
      world.damageEvents.capacity)

def simWorldShapeValid (world : SimWorld) : Bool :=
  let maxEntities := world.config.maxEntities.toNat
  let queue := world.damageEvents
  simConfigValid world.config && decide (world.entities.capacity = maxEntities) &&
    decide (world.transforms.membership.capacity = maxEntities) &&
    decide (world.velocities.membership.capacity = maxEntities) &&
    decide (world.health.membership.capacity = maxEntities) && damageEventQueueIsValid queue &&
    decide (queue.capacity = world.config.damageEventCapacity.toNat) &&
    decide (queue.counts queue.readIndex = 0) && decide (queue.counts queue.writeIndex = 0) &&
    decide (world.pendingDestroyCount ≤ maxEntities)

def simValidateCommands (world : SimWorld) (commands : Option SimCommandBuffer) : Bool :=
  simWorldShapeValid world && (List.range simMaxUnits).all (unitSlotValid world) &&
    (List.range world.pendingDestroyCount).all (pendingRequestValid world) &&
    match commands with
    | none => true
    | some buffer => simBufferAccepted world buffer

end ChoonzMoba
