import ChoonzMoba.Sim.World

namespace ChoonzMoba

def fnv1a64Offset : UInt64 := 14695981039346656037

def fnv1a64Prime : UInt64 := 1099511628211

def hashU8 (hash : UInt64) (value : UInt8) : UInt64 := (hash ^^^ value.toUInt64) * fnv1a64Prime

section

-- the walk is written once over its byte step, so that the bytes it absorbs can be collected too
variable {σ : Type} (u8 : σ → UInt8 → σ)

def hashU16Le (hash : σ) (value : UInt16) : σ := u8 (u8 hash value.toUInt8) (value >>> 8).toUInt8

def hashU32Le (hash : σ) (value : UInt32) : σ :=
  Loop.forRange 4 (fun hash i => u8 hash (value >>> UInt32.ofNat (i * 8)).toUInt8) hash

def hashU64Le (hash : σ) (value : UInt64) : σ :=
  Loop.forRange 8 (fun hash i => u8 hash (value >>> UInt64.ofNat (i * 8)).toUInt8) hash

end

def i32Bits (value : Int32) : UInt32 := value.toUInt32

def configValid (config : SimWorldConfig) : Bool :=
  decide (0 < config.maxEntities.toNat) &&
    decide (config.maxEntities.toNat ≤ handleIndexMask.toNat + 1) &&
    decide (config.initialUnitCount.toNat ≤ simMaxUnits) &&
    decide (config.initialUnitCount.toNat ≤ config.maxEntities.toNat) &&
    decide (0 < config.damageEventCapacity.toNat)

def entityManagerObserveStep (manager : EntityManager) (observedLive index : Nat) : Option Nat :=
  let generation := manager.generations index
  let live := manager.liveness index
  if generation = 0 ∨ handleGenMask.toNat < generation ∨ 1 < live then none
  else some (observedLive + live)

def entityManagerValid (manager : EntityManager) (capacity : Nat) : Bool :=
  if manager.capacity ≠ capacity ∨ capacity < manager.nextFresh ∨
      manager.nextFresh < manager.liveCount ∨ manager.nextFresh < manager.freeCount ∨
      manager.liveCount + manager.freeCount ≠ manager.nextFresh then false
  else
    match Loop.forRangeM manager.nextFresh (entityManagerObserveStep manager) 0 with
    | none => false
    | some observedLive =>
      if observedLive ≠ manager.liveCount then false
      else (List.range manager.freeCount).all fun ordinal =>
        let index := manager.freeStack ordinal
        decide (index < manager.nextFresh) && decide (manager.liveness index = 0)

def membershipObserveStep (pool : ComponentPool) (manager : EntityManager) (observed index : Nat) :
    Option Nat :=
  let encoded := pool.sparse index
  if encoded = 0 then some observed
  else
    let dense := encoded - 1
    if pool.count ≤ dense ∨ handleIndex (pool.denseEntities dense).h ≠ index ∨
        !entityManagerIsAlive manager (pool.denseEntities dense) then none
    else some (observed + 1)

def membershipValid (pool : ComponentPool) (manager : EntityManager) (capacity : Nat) : Bool :=
  if pool.entityCapacity ≠ capacity ∨ pool.capacity ≠ capacity ∨ capacity < pool.count then false
  else if !(List.range pool.count).all (fun dense =>
      let entity := pool.denseEntities dense
      let index := handleIndex entity.h
      entityManagerIsAlive manager entity && decide (index < manager.nextFresh) &&
        decide (pool.sparse index = dense + 1)) then false
  else
    match Loop.forRangeM manager.nextFresh (membershipObserveStep pool manager) 0 with
    | none => false
    | some observed => decide (observed = pool.count)

def damageEventValidForWorld (world : SimWorld) (event : DamageEvent) : Bool :=
  damageEventIsCanonical event && entityManagerIsAlive world.entities event.target &&
    healthPoolHas world.health event.target &&
    (decide (event.source.h = handleNull) || entityManagerIsAlive world.entities event.source)

def damageQueueValidForWorld (world : SimWorld) : Bool :=
  let queue := world.damageEvents
  if !damageEventQueueIsValid queue ||
      decide (queue.capacity ≠ world.config.damageEventCapacity.toNat) then false
  else
    [queue.readIndex, queue.writeIndex].all fun buffer =>
      (List.range (queue.counts buffer)).all fun ordinal =>
        damageEventValidForWorld world (queue.buffers buffer ordinal)

def canonicalWorldValid (world : SimWorld) : Bool :=
  let maxEntities := world.config.maxEntities.toNat
  configValid world.config && entityManagerValid world.entities maxEntities &&
    membershipValid world.transforms.membership world.entities maxEntities &&
    membershipValid world.velocities.membership world.entities maxEntities &&
    membershipValid world.health.membership world.entities maxEntities &&
    damageQueueValidForWorld world && decide (world.pendingDestroyCount ≤ maxEntities) &&
    (List.range simMaxUnits).all (unitSlotValid world) &&
    (List.range world.pendingDestroyCount).all (pendingRequestValid world)

def entityAt (manager : EntityManager) (index : Nat) : EntityId :=
  ⟨handleMake index (manager.generations index)⟩

section

variable {σ : Type} (u8 : σ → UInt8 → σ)

def hashComponents {V : Type} (record : σ → V → σ) (pool : TypedPool V) (hash : σ)
    (world : SimWorld) : σ :=
  Loop.forRange world.entities.nextFresh (fun hash index =>
    let entity := entityAt world.entities index
    if typedPoolHas pool entity then
      let dense := componentPoolDenseIndex pool.membership entity
      record (hashU32Le u8 (u8 hash 1) entity.h) (pool.values dense)
    else u8 hash 0) (hashU32Le u8 hash (UInt32.ofNat pool.membership.count))

def hashTransform (hash : σ) (world : SimWorld) : σ :=
  hashComponents u8 (fun hash t =>
    hashU32Le u8 (hashU32Le u8 (hashU32Le u8 hash (i32Bits t.positionX)) (i32Bits t.positionY))
      (i32Bits t.facing)) world.transforms hash world

def hashVelocity (hash : σ) (world : SimWorld) : σ :=
  hashComponents u8 (fun hash v =>
    hashU32Le u8 (hashU32Le u8 hash (i32Bits v.velocityX)) (i32Bits v.velocityY))
    world.velocities hash world

def hashHealth (hash : σ) (world : SimWorld) : σ :=
  hashComponents u8 (fun hash h =>
    hashU32Le u8 (hashU32Le u8 (hashU32Le u8 hash (i32Bits h.current)) (i32Bits h.maximum))
      h.damageCooldown) world.health hash world

def hashDamageEvent (hash : σ) (event : DamageEvent) : σ :=
  hashU32Le u8 (hashU32Le u8 (hashU32Le u8 hash event.source.h) event.target.h)
    (i32Bits event.amount)

def hashDamagePhase (buffer : Nat) (hash : σ) (queue : DamageEventQueue) : σ :=
  Loop.forRange (queue.counts buffer)
    (fun hash ordinal => hashDamageEvent u8 hash (queue.buffers buffer ordinal))
    (hashU32Le u8 hash (UInt32.ofNat (queue.counts buffer)))

def hashDamageEvents (hash : σ) (world : SimWorld) : σ :=
  let hash := hashDamagePhase u8 world.damageEvents.readIndex hash world.damageEvents
  hashDamagePhase u8 world.damageEvents.writeIndex hash world.damageEvents

def hashScalars (hash : σ) (world : SimWorld) : σ :=
  let hash := hashU64Le u8 hash world.tick
  let hash := hashU32Le u8 hash world.config.maxEntities
  let hash := hashU32Le u8 hash world.config.initialUnitCount
  let hash := hashU32Le u8 hash world.config.damageEventCapacity
  let hash := hashU64Le u8 hash world.rng.state
  let hash := hashU64Le u8 hash world.rng.inc
  let hash := hashU32Le u8 hash (UInt32.ofNat world.entities.capacity)
  let hash := hashU32Le u8 hash (UInt32.ofNat world.entities.liveCount)
  let hash := hashU32Le u8 hash (UInt32.ofNat world.entities.nextFresh)
  hashU32Le u8 hash (UInt32.ofNat world.entities.freeCount)

def hashWorld (hash : σ) (world : SimWorld) : σ :=
  let hash := hashScalars u8 hash world
  let hash := Loop.forRange world.entities.nextFresh (fun hash index =>
    hashU16Le u8 hash (UInt16.ofNat (world.entities.generations index))) hash
  let hash := Loop.forRange world.entities.nextFresh (fun hash index =>
    u8 hash (UInt8.ofNat (world.entities.liveness index))) hash
  let hash := Loop.forRange world.entities.freeCount (fun hash ordinal =>
    hashU32Le u8 hash (UInt32.ofNat (world.entities.freeStack ordinal))) hash
  let hash := Loop.forRange simMaxUnits (fun hash unit =>
    hashU32Le u8 hash (world.unitEntities unit).h) hash
  let hash := hashU32Le u8 hash (UInt32.ofNat world.pendingDestroyCount)
  let hash := Loop.forRange world.pendingDestroyCount (fun hash ordinal =>
    hashU32Le u8 hash (world.pendingDestroy ordinal).h) hash
  let hash := hashDamageEvents u8 hash world
  let hash := hashTransform u8 hash world
  let hash := hashVelocity u8 hash world
  hashHealth u8 hash world

end

def simHashState (world : SimWorld) : UInt64 :=
  if !canonicalWorldValid world then 0 else hashWorld hashU8 fnv1a64Offset world

def simHashBytes (world : SimWorld) : List UInt8 := hashWorld (fun bytes b => bytes ++ [b]) [] world

inductive SimStateField
  | none
  | invalid
  | tick
  | configMaxEntities
  | configInitialUnitCount
  | configDamageEventCapacity
  | rngState
  | rngInc
  | entityCapacity
  | entityLiveCount
  | entityNextFresh
  | entityFreeCount
  | entityGeneration
  | entityLiveness
  | entityFreeStack
  | unitEntity
  | pendingDestroyCount
  | pendingDestroyEntity
  | damageEventReadCount
  | damageEventReadSource
  | damageEventReadTarget
  | damageEventReadAmount
  | damageEventWriteCount
  | damageEventWriteSource
  | damageEventWriteTarget
  | damageEventWriteAmount
  | transformCount
  | transformEntity
  | positionX
  | positionY
  | facing
  | velocityCount
  | velocityEntity
  | velocityX
  | velocityY
  | healthCount
  | healthEntity
  | healthCurrent
  | healthMaximum
  | damageCooldown
deriving DecidableEq, Repr

def simStateDiffNoIndex : Nat := 2 ^ 32 - 1

structure SimStateDiff where
  field : SimStateField
  index : Nat
  expectedValue : Nat
  actualValue : Nat
deriving DecidableEq, Repr

def diffAt (field : SimStateField) (index expected actual : Nat) : Option SimStateDiff :=
  if expected ≠ actual then some ⟨field, index, expected, actual⟩ else none

def diffScalar (field : SimStateField) (expected actual : Nat) : Option SimStateDiff :=
  diffAt field simStateDiffNoIndex expected actual

def diffLoop (n : Nat) (f : Nat → Option SimStateDiff) : Option SimStateDiff :=
  (List.range n).findSome? f

structure DamageEventFields where
  count : SimStateField
  source : SimStateField
  target : SimStateField
  amount : SimStateField

def readFields : DamageEventFields :=
  ⟨.damageEventReadCount, .damageEventReadSource, .damageEventReadTarget, .damageEventReadAmount⟩

def writeFields : DamageEventFields :=
  ⟨.damageEventWriteCount, .damageEventWriteSource, .damageEventWriteTarget,
    .damageEventWriteAmount⟩

def diffDamageEventRecord (expected actual : DamageEvent) (ordinal : Nat)
    (fields : DamageEventFields) : Option SimStateDiff :=
  diffAt fields.source ordinal expected.source.h.toNat actual.source.h.toNat <|>
  diffAt fields.target ordinal expected.target.h.toNat actual.target.h.toNat <|>
  diffAt fields.amount ordinal (i32Bits expected.amount).toNat (i32Bits actual.amount).toNat

def diffDamagePhase (fields : DamageEventFields) (expected actual : DamageEventQueue)
    (expectedBuffer actualBuffer : Nat) : Option SimStateDiff :=
  diffScalar fields.count (expected.counts expectedBuffer) (actual.counts actualBuffer) <|>
  diffLoop (expected.counts expectedBuffer) fun ordinal =>
    diffDamageEventRecord (expected.buffers expectedBuffer ordinal)
      (actual.buffers actualBuffer ordinal) ordinal fields

def diffDamageEvents (expected actual : SimWorld) : Option SimStateDiff :=
  diffDamagePhase readFields expected.damageEvents actual.damageEvents
    expected.damageEvents.readIndex actual.damageEvents.readIndex <|>
  diffDamagePhase writeFields expected.damageEvents actual.damageEvents
    expected.damageEvents.writeIndex actual.damageEvents.writeIndex

def diffComponents {V : Type} (count entity : SimStateField)
    (record : Nat → V → V → Option SimStateDiff) (expected actual : SimWorld)
    (expectedPool actualPool : TypedPool V) : Option SimStateDiff :=
  diffScalar count expectedPool.membership.count actualPool.membership.count <|>
  diffLoop expected.entities.nextFresh fun index =>
    let expectedEntity := entityAt expected.entities index
    let actualEntity := entityAt actual.entities index
    let expectedPresent := typedPoolHas expectedPool expectedEntity
    let actualPresent := typedPoolHas actualPool actualEntity
    if expectedPresent ≠ actualPresent then
      some ⟨entity, index, if expectedPresent then expectedEntity.h.toNat else 0,
        if actualPresent then actualEntity.h.toNat else 0⟩
    else if !expectedPresent then none
    else if expectedEntity.h ≠ actualEntity.h then
      some ⟨entity, index, expectedEntity.h.toNat, actualEntity.h.toNat⟩
    else
      record index (expectedPool.values (componentPoolDenseIndex expectedPool.membership expectedEntity))
        (actualPool.values (componentPoolDenseIndex actualPool.membership actualEntity))

def diffTransform (expected actual : SimWorld) : Option SimStateDiff :=
  diffComponents .transformCount .transformEntity (fun index e a =>
    diffAt .positionX index (i32Bits e.positionX).toNat (i32Bits a.positionX).toNat <|>
    diffAt .positionY index (i32Bits e.positionY).toNat (i32Bits a.positionY).toNat <|>
    diffAt .facing index (i32Bits e.facing).toNat (i32Bits a.facing).toNat)
    expected actual expected.transforms actual.transforms

def diffVelocity (expected actual : SimWorld) : Option SimStateDiff :=
  diffComponents .velocityCount .velocityEntity (fun index e a =>
    diffAt .velocityX index (i32Bits e.velocityX).toNat (i32Bits a.velocityX).toNat <|>
    diffAt .velocityY index (i32Bits e.velocityY).toNat (i32Bits a.velocityY).toNat)
    expected actual expected.velocities actual.velocities

def diffHealth (expected actual : SimWorld) : Option SimStateDiff :=
  diffComponents .healthCount .healthEntity (fun index e a =>
    diffAt .healthCurrent index (i32Bits e.current).toNat (i32Bits a.current).toNat <|>
    diffAt .healthMaximum index (i32Bits e.maximum).toNat (i32Bits a.maximum).toNat <|>
    diffAt .damageCooldown index e.damageCooldown.toNat a.damageCooldown.toNat)
    expected actual expected.health actual.health

def diffWorld (expected actual : SimWorld) : Option SimStateDiff :=
  diffScalar .tick expected.tick.toNat actual.tick.toNat <|>
  diffScalar .configMaxEntities expected.config.maxEntities.toNat
    actual.config.maxEntities.toNat <|>
  diffScalar .configInitialUnitCount expected.config.initialUnitCount.toNat
    actual.config.initialUnitCount.toNat <|>
  diffScalar .configDamageEventCapacity expected.config.damageEventCapacity.toNat
    actual.config.damageEventCapacity.toNat <|>
  diffScalar .rngState expected.rng.state.toNat actual.rng.state.toNat <|>
  diffScalar .rngInc expected.rng.inc.toNat actual.rng.inc.toNat <|>
  diffScalar .entityCapacity expected.entities.capacity actual.entities.capacity <|>
  diffScalar .entityLiveCount expected.entities.liveCount actual.entities.liveCount <|>
  diffScalar .entityNextFresh expected.entities.nextFresh actual.entities.nextFresh <|>
  diffScalar .entityFreeCount expected.entities.freeCount actual.entities.freeCount <|>
  diffLoop expected.entities.nextFresh (fun index => diffAt .entityGeneration index
    (expected.entities.generations index) (actual.entities.generations index)) <|>
  diffLoop expected.entities.nextFresh (fun index => diffAt .entityLiveness index
    (expected.entities.liveness index) (actual.entities.liveness index)) <|>
  diffLoop expected.entities.freeCount (fun ordinal => diffAt .entityFreeStack ordinal
    (expected.entities.freeStack ordinal) (actual.entities.freeStack ordinal)) <|>
  diffLoop simMaxUnits (fun unit => diffAt .unitEntity unit
    (expected.unitEntities unit).h.toNat (actual.unitEntities unit).h.toNat) <|>
  diffScalar .pendingDestroyCount expected.pendingDestroyCount actual.pendingDestroyCount <|>
  diffLoop expected.pendingDestroyCount (fun ordinal => diffAt .pendingDestroyEntity ordinal
    (expected.pendingDestroy ordinal).h.toNat (actual.pendingDestroy ordinal).h.toNat) <|>
  diffDamageEvents expected actual <|>
  diffTransform expected actual <|>
  diffVelocity expected actual <|>
  diffHealth expected actual

def simDiffState (expected actual : SimWorld) : Bool × SimStateDiff :=
  if !canonicalWorldValid expected || !canonicalWorldValid actual then
    (true, ⟨.invalid, simStateDiffNoIndex, 0, 0⟩)
  else
    match diffWorld expected actual with
    | some diff => (true, diff)
    | none => (false, ⟨.none, simStateDiffNoIndex, 0, 0⟩)

end ChoonzMoba
