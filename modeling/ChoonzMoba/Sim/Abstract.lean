import ChoonzMoba.Sim.Systems

namespace ChoonzMoba

/-- The simulation without its storage: components by entity, events and requests as lists. -/
@[ext]
structure World where
  tick : UInt64
  config : SimWorldConfig
  rng : Pcg32
  entities : EntityTable
  transforms : EntityId → Option Transform
  velocities : EntityId → Option Velocity
  health : EntityId → Option Health
  units : Nat → EntityId
  reading : List DamageEvent
  writing : List DamageEvent
  pending : List EntityId

namespace World

def aimed (w : World) (commands : List SimCommand) (kind : UInt8) (e : EntityId) :
    List SimCommand :=
  commands.filter fun c => decide (c.kind = kind ∧ w.units c.unitIndex.toNat = e)

def velocityAfter (w : World) (commands : List SimCommand) (e : EntityId) (v : Velocity) :
    Velocity :=
  match (w.aimed commands simCommandSetVelocity e).getLast? with
  | some c => ⟨c.valueX, c.valueY⟩
  | none => v

def damageTo (w : World) (commands : List SimCommand) (e : EntityId) : Int :=
  ((w.aimed commands simCommandDamage e).map fun c => c.amount.toInt).sum

def hurt (w : World) (commands : List SimCommand) (e : EntityId) : Bool :=
  (w.aimed commands simCommandDamage e).any fun c => decide (0 < c.amount)

def displaced (x v : Int32) : Int32 := Int32.ofInt (x.toInt + v.toInt * simDtFixed.toInt / fixOne)

def advanced (t : Transform) (v : Option Velocity) : Transform :=
  match v with
  | none => t
  | some v =>
    { t with
      positionX := displaced t.positionX v.velocityX
      positionY := displaced t.positionY v.velocityY }

def cooled (cooldown : UInt32) : UInt32 := if 0 < cooldown then cooldown - 1 else cooldown

def rested (h : Health) : Health := { h with damageCooldown := cooled h.damageCooldown }

def struck (damage : Int) (hit : Bool) (h : Health) : Health :=
  { h with
    current := Int32.ofInt (max 0 (h.current.toInt - damage))
    damageCooldown := if hit then 3 else h.damageCooldown }

def damaged (damage : Int) (hit : Bool) (h : Health) : Health := rested (struck damage hit h)

def destroy (w : World) (e : EntityId) : World :=
  { w with
    entities := w.entities.release e
    transforms := Function.update w.transforms e none
    velocities := Function.update w.velocities e none
    health := Function.update w.health e none
    units := fun i => if w.units i = e then .null else w.units i }

def integrate (w : World) (commands : List SimCommand) : World :=
  let velocities := fun e => (w.velocities e).map (w.velocityAfter commands e)
  { w with
    tick := w.tick + 1
    rng := (pcg32Next w.rng).2
    velocities := velocities
    transforms := fun e => (w.transforms e).map fun t => advanced t (velocities e)
    health := fun e =>
      (w.health e).map (damaged (w.damageTo commands e) (w.hurt commands e)) }

def tickWith (w : World) (commands : List SimCommand) : World :=
  { w.pending.foldl destroy (w.integrate commands) with pending := [] }

def request (w : World) (e : EntityId) : Bool × World :=
  if w.entities.Alive e ∧ e ∉ w.pending then (true, { w with pending := w.pending ++ [e] })
  else (false, w)

def create (w : World) : EntityId × World :=
  (w.entities.create.1, { w with entities := w.entities.create.2 })

def Accepts (w : World) (commands : Option SimCommandBuffer) : Prop :=
  match commands with
  | none => True
  | some buffer =>
    buffer.count ≤ simMaxCommandsPerTick ∧ (buffer.count = 0 ∨ buffer.commands.isSome = true) ∧
      (∀ c ∈ buffer.records, simCommandIsCanonical c simMaxPlayers simMaxUnits = true ∧
        w.units c.unitIndex.toNat ≠ .null) ∧
      buffer.records.countP (fun c => decide (c.kind = simCommandDamage)) ≤
        w.config.damageEventCapacity.toNat

end World

def commandRecords (commands : Option SimCommandBuffer) : List SimCommand :=
  match commands with
  | none => []
  | some buffer => buffer.records

def SimWorld.pendingList (w : SimWorld) : List EntityId :=
  (List.range w.pendingDestroyCount).map w.pendingDestroy

/-- What the simulation state means once dense order, caches, buffer roles and stale storage are
forgotten. -/
def SimWorld.abstract (w : SimWorld) : World where
  tick := w.tick
  config := w.config
  rng := w.rng
  entities := w.entities.table
  transforms := w.transforms.lookup
  velocities := w.velocities.lookup
  health := w.health.lookup
  units := w.unitEntities
  reading := w.damageEvents.readList
  writing := w.damageEvents.writeList
  pending := w.pendingList

end ChoonzMoba
