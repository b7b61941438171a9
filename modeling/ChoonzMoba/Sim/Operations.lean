import ChoonzMoba.Library.System
import ChoonzMoba.Sim.Init
import ChoonzMoba.Sim.TickSpec

namespace ChoonzMoba

inductive Op
  | tick (commands : Option SimCommandBuffer)
  | destroyDeferred (entity : EntityId)
  | create
  | transformAdd (entity : EntityId) (positionX positionY facing : Int32)
  | velocityAdd (entity : EntityId) (velocityX velocityY : Int32)
  | healthAdd (entity : EntityId) (current maximum : Int32) (damageCooldown : UInt32)

/-- Everything else the headers export, with no promise from the caller. -/
inductive RawOp
  | legal (op : Op)
  | release (entity : EntityId)
  | transformRemove (entity : EntityId)
  | velocityRemove (entity : EntityId)
  | healthRemove (entity : EntityId)
  | append (event : DamageEvent)
  | publish
  | consume

inductive OpResult
  | bool (ok : Bool)
  | entity (entity : EntityId)
deriving DecidableEq

namespace Op

def run (w : SimWorld) : Op → Option (OpResult × SimWorld)
  | tick commands => (simTick w commands).map fun r => (.bool r.1, r.2)
  | destroyDeferred entity =>
    let r := simDestroyDeferred w entity
    some (.bool r.1, r.2)
  | create =>
    let r := entityManagerCreate w.entities
    some (.entity r.1, { w with entities := r.2 })
  | transformAdd entity positionX positionY facing =>
    let r := transformPoolAdd w.transforms entity positionX positionY facing
    some (.bool r.1, { w with transforms := r.2 })
  | velocityAdd entity velocityX velocityY =>
    let r := velocityPoolAdd w.velocities entity velocityX velocityY
    some (.bool r.1, { w with velocities := r.2 })
  | healthAdd entity current maximum damageCooldown =>
    let r := healthPoolAdd w.health entity current maximum damageCooldown
    some (.bool r.1, { w with health := r.2 })

def Legal (w : SimWorld) : Op → Prop
  | transformAdd entity .. => entityManagerIsAlive w.entities entity = true
  | velocityAdd entity .. => entityManagerIsAlive w.entities entity = true
  | healthAdd entity .. => entityManagerIsAlive w.entities entity = true
  | _ => True

end Op

def RawOp.run (w : SimWorld) : RawOp → Option (OpResult × SimWorld)
  | legal op => op.run w
  | release entity =>
    let r := entityManagerRelease w.entities entity
    some (.bool r.1, { w with entities := r.2 })
  | transformRemove entity =>
    let r := transformPoolRemove w.transforms entity
    some (.bool r.1, { w with transforms := r.2 })
  | velocityRemove entity =>
    let r := velocityPoolRemove w.velocities entity
    some (.bool r.1, { w with velocities := r.2 })
  | healthRemove entity =>
    let r := healthPoolRemove w.health entity
    some (.bool r.1, { w with health := r.2 })
  | append event =>
    let r := damageEventQueueAppend w.damageEvents event
    some (.bool r.1, { w with damageEvents := r.2 })
  | publish =>
    let r := damageEventQueuePublish w.damageEvents
    some (.bool r.1, { w with damageEvents := r.2 })
  | consume =>
    let r := damageEventQueueConsume w.damageEvents
    some (.bool r.1, { w with damageEvents := r.2 })

def SimWorld.Started (w : SimWorld) : Prop :=
  ∃ arena seed config pushed, simInit arena seed config = some (pushed, some w)

/-- Runs of legal use: components are only added to live entities. -/
def legalRuns : System SimWorld Op where
  initial := SimWorld.Started
  next w op u := op.Legal w ∧ ∃ r, op.run w = some (r, u)

def anyRuns : System SimWorld RawOp where
  initial := SimWorld.Started
  next w op u := ∃ r, op.run w = some (r, u)

instance (w : SimWorld) (op : Op) : Decidable (op.Legal w) :=
  match op with
  | .transformAdd entity .. => inferInstanceAs (Decidable (entityManagerIsAlive w.entities entity = true))
  | .velocityAdd entity .. => inferInstanceAs (Decidable (entityManagerIsAlive w.entities entity = true))
  | .healthAdd entity .. => inferInstanceAs (Decidable (entityManagerIsAlive w.entities entity = true))
  | .tick _ | .destroyDeferred _ | .create => .isTrue trivial

def Op.attempt (w : SimWorld) (op : Op) : Option SimWorld :=
  if op.Legal w then (op.run w).map Prod.snd else none

def RawOp.attempt (w : SimWorld) (op : RawOp) : Option SimWorld := (op.run w).map Prod.snd

theorem Op.attempt_next (w : SimWorld) (op : Op) (u : SimWorld) (h : op.attempt w = some u) :
    legalRuns.next w op u := by
  rw [Op.attempt] at h
  split at h
  · next legal =>
    obtain ⟨⟨r, _⟩, hrun, rfl⟩ := Option.map_eq_some_iff.mp h
    exact ⟨legal, r, hrun⟩
  · cases h

theorem RawOp.attempt_next (w : SimWorld) (op : RawOp) (u : SimWorld) (h : op.attempt w = some u) :
    anyRuns.next w op u := by
  obtain ⟨⟨r, _⟩, hrun, rfl⟩ := Option.map_eq_some_iff.mp h
  exact ⟨r, hrun⟩

namespace World

instance (w : World) (commands : Option SimCommandBuffer) : Decidable (w.Accepts commands) :=
  match commands with
  | none => .isTrue trivial
  | some _ => inferInstanceAs (Decidable (_ ∧ _ ∧ _ ∧ _))

def added {V : Type} (components : EntityId → Option V) (e : EntityId) (v : V) :
    Bool × (EntityId → Option V) :=
  if components e = none then (true, Function.update components e (some v)) else (false, components)

end World

end ChoonzMoba
