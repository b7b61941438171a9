import ChoonzMoba.Sim.Canonical
import ChoonzMoba.Sim.Refinement

namespace ChoonzMoba

namespace DamageEventQueue

variable {q : DamageEventQueue}

theorem Valid.append (h : q.Valid) (event : DamageEvent) :
    (damageEventQueueAppend q event).2.Valid ∧
      (damageEventQueueAppend q event).2.capacity = q.capacity := by
  by_cases hok : q.Valid ∧ damageEventIsCanonical event = true ∧ q.writeList.length < q.capacity
  · obtain ⟨q', hq, hvalid, hcap, -⟩ := append_spec h hok.2.1 hok.2.2
    rw [hq]
    exact ⟨hvalid, hcap⟩
  · rw [append_rejected q hok]
    exact ⟨h, rfl⟩

theorem Valid.publish (h : q.Valid) : (damageEventQueuePublish q).2.Valid ∧
    (damageEventQueuePublish q).2.capacity = q.capacity := by
  by_cases hok : q.Valid ∧ q.readList = []
  · obtain ⟨q', hq, hvalid, hcap, -⟩ := publish_spec h hok.2
    rw [hq]
    exact ⟨hvalid, hcap⟩
  · rw [publish_rejected q hok]
    exact ⟨h, rfl⟩

theorem Valid.consume (h : q.Valid) : (damageEventQueueConsume q).2.Valid ∧
    (damageEventQueueConsume q).2.capacity = q.capacity := by
  obtain ⟨q', hq, hvalid, hcap, -⟩ := consume_spec h
  rw [hq]
  exact ⟨hvalid, hcap⟩

end DamageEventQueue

namespace SimWorld

variable {w u : SimWorld}

theorem CoreInv.with_entities (inv : w.CoreInv) {m : EntityManager} (hm : m.Inv)
    (hcap : m.capacity = w.entities.capacity) : { w with entities := m }.CoreInv :=
  ⟨inv.config, hm, hcap.trans inv.entities_capacity, inv.transforms, inv.velocities, inv.health,
    inv.health_legal, inv.events, inv.events_capacity, inv.units_unused⟩

theorem CoreInv.with_transforms (inv : w.CoreInv) {p : TransformPool}
    (hp : p.Shaped w.config.maxEntities.toNat) : { w with transforms := p }.CoreInv :=
  ⟨inv.config, inv.entities, inv.entities_capacity, hp, inv.velocities, inv.health,
    inv.health_legal, inv.events, inv.events_capacity, inv.units_unused⟩

theorem CoreInv.with_velocities (inv : w.CoreInv) {p : VelocityPool}
    (hp : p.Shaped w.config.maxEntities.toNat) : { w with velocities := p }.CoreInv :=
  ⟨inv.config, inv.entities, inv.entities_capacity, inv.transforms, hp, inv.health,
    inv.health_legal, inv.events, inv.events_capacity, inv.units_unused⟩

theorem CoreInv.create (inv : w.CoreInv) :
    { w with entities := (entityManagerCreate w.entities).2 }.CoreInv := by
  refine inv.with_entities inv.entities.create ?_
  exact (congrArg EntityTable.capacity inv.entities.create_table.2).trans
    (EntityTable.create_capacity _)

theorem CoreInv.release (inv : w.CoreInv) (e : EntityId) :
    { w with entities := (entityManagerRelease w.entities e).2 }.CoreInv := by
  by_cases halive : w.entities.table.Alive e
  · obtain ⟨m, hm, hinv, htable⟩ := inv.entities.release_alive halive
    rw [hm]
    exact inv.with_entities hinv (congrArg EntityTable.capacity htable)
  · rw [inv.entities.release_dead halive]
    exact inv

theorem CoreInv.healthAdd (inv : w.CoreInv) (e : EntityId) (current maximum : Int32)
    (cooldown : UInt32) :
    { w with health := (healthPoolAdd w.health e current maximum cooldown).2 }.CoreInv := by
  unfold healthPoolAdd
  split
  · exact inv
  · next hlegal =>
    simp only [not_or, Int32.not_lt] at hlegal
    obtain ⟨ok, p, hp, hshape, hlook | ⟨-, rfl⟩⟩ := inv.health.add e ⟨current, maximum, cooldown⟩
    · rw [hp]
      refine inv.with_health hshape fun a h hh => ?_
      rw [hlook.2] at hh
      by_cases hae : a = e
      · subst hae
        rw [Function.update_self] at hh
        cases hh
        exact ⟨hlegal.1, hlegal.2.2⟩
      · rw [Function.update_of_ne hae] at hh
        exact inv.health_legal a h hh
    · rw [hp]
      exact inv

theorem CoreInv.op (inv : w.CoreInv) {op : Op} {r : OpResult} (h : op.run w = some (r, u)) :
    u.CoreInv := by
  cases op with
  | tick commands =>
    obtain ⟨⟨ok, v⟩, hv, heq⟩ := Option.map_eq_some_iff.mp h
    cases heq
    by_cases hvalid : simValidateCommands w commands = true
    · obtain ⟨ready, hacc⟩ := (inv.validate_iff commands).mp hvalid
      obtain ⟨v', hv', hinv, -⟩ := inv.tick ready hacc
      rw [hv] at hv'
      cases hv'
      exact hinv
    · rw [tick_rejected hvalid] at hv
      cases hv
      exact inv
  | destroyDeferred entity =>
    cases h
    rcases w.destroyDeferred_cases entity with ⟨hrun, -⟩ | ⟨hrun, -⟩
    · simpa only [hrun] using inv.requested entity
    · simpa only [hrun] using inv
  | create =>
    cases h
    exact inv.create
  | transformAdd entity positionX positionY facing =>
    cases h
    obtain ⟨ok, p, hp, hshape, -⟩ := inv.transforms.add entity ⟨positionX, positionY, facing⟩
    simp only [transformPoolAdd, hp]
    exact inv.with_transforms hshape
  | velocityAdd entity velocityX velocityY =>
    cases h
    obtain ⟨ok, p, hp, hshape, -⟩ := inv.velocities.add entity ⟨velocityX, velocityY⟩
    simp only [velocityPoolAdd, hp]
    exact inv.with_velocities hshape
  | healthAdd entity current maximum damageCooldown =>
    cases h
    exact inv.healthAdd entity current maximum damageCooldown

theorem CoreInv.rawOp (inv : w.CoreInv) {op : RawOp} {r : OpResult} (h : op.run w = some (r, u)) :
    u.CoreInv := by
  cases op with
  | legal op => exact inv.op h
  | release entity =>
    cases h
    exact inv.release entity
  | transformRemove entity =>
    cases h
    obtain ⟨ok, p, hp, hshape, -⟩ := inv.transforms.remove entity
    simp only [transformPoolRemove, hp]
    exact inv.with_transforms hshape
  | velocityRemove entity =>
    cases h
    obtain ⟨ok, p, hp, hshape, -⟩ := inv.velocities.remove entity
    simp only [velocityPoolRemove, hp]
    exact inv.with_velocities hshape
  | healthRemove entity =>
    cases h
    obtain ⟨ok, p, hp, hshape, hlook⟩ := inv.health.remove entity
    simp only [healthPoolRemove, hp]
    refine inv.with_health hshape ?_
    rw [hlook]
    exact Legal.update inv.health_legal entity
  | append event =>
    cases h
    exact inv.with_events (inv.events.append event).1 (inv.events.append event).2
  | publish =>
    cases h
    exact inv.with_events inv.events.publish.1 inv.events.publish.2
  | consume =>
    cases h
    exact inv.with_events inv.events.consume.1 inv.events.consume.2

theorem coreInv_invariant : anyRuns.Invariant CoreInv where
  initial _ h := h.legal.core
  next := by
    rintro w op u inv ⟨r, hrun⟩
    exact inv.rawOp hrun

theorem CoreInv.tick_total (inv : w.CoreInv) (commands : Option SimCommandBuffer) :
    simTick w commands = some (false, w) ∨ ∃ u, simTick w commands = some (true, u) := by
  by_cases hvalid : simValidateCommands w commands = true
  · obtain ⟨ready, hacc⟩ := (inv.validate_iff commands).mp hvalid
    obtain ⟨u, hu, -⟩ := inv.tick ready hacc
    exact Or.inr ⟨u, hu⟩
  · exact Or.inl (tick_rejected hvalid)

end SimWorld

theorem simTick_all_or_nothing {w : SimWorld} (reachable : anyRuns.Reachable w)
    (commands : Option SimCommandBuffer) :
    simTick w commands = some (false, w) ∨ ∃ u, simTick w commands = some (true, u) :=
  (SimWorld.coreInv_invariant.reachable reachable).tick_total commands

def smallWorld : Option SimWorld :=
  (simInit ⟨16, 0, 4096, 4096, 0, none, 0, by decide⟩ 7 ⟨4, 1, 8⟩).bind Prod.snd

def unitId : EntityId := ⟨handleMake 0 1⟩

def firstId : EntityId := ⟨handleMake 1 1⟩

def secondId : EntityId := ⟨handleMake 2 1⟩

theorem smallWorld_started {w : SimWorld} (h : smallWorld = some w) : w.Started := by
  obtain ⟨⟨pushed, _⟩, hinit, rfl⟩ := Option.bind_eq_some_iff.mp h
  exact ⟨_, _, _, pushed, hinit⟩

-- an entity is released with its components and without them, and a unit loses one of its own
def misuses : List RawOp :=
  [.legal .create, .legal .create, .legal (.transformAdd firstId 1 2 3),
    .legal (.healthAdd firstId 5 9 0), .release firstId, .release secondId, .release firstId,
    .legal (.velocityAdd firstId 4 4), .append ⟨unitId, firstId, 3⟩, .legal (.tick none),
    .publish, .consume, .transformRemove secondId, .healthRemove firstId]

-- what no tick accepts in the end is a unit that has lost its velocity
theorem simTick_all_or_nothing_misused : ∃ w v, anyRuns.Reachable w ∧ anyRuns.Reachable v ∧
    (∃ u, simTick w none = some (true, u)) ∧ simTick v none = some (false, v) := by
  have hrun : (smallWorld.bind fun s => (System.tryAll RawOp.attempt s misuses).bind fun w =>
      ((RawOp.velocityRemove unitId).attempt w).map fun v =>
        ((simTick w none).map Prod.fst, (simTick v none).map Prod.fst)) =
          some (some true, some false) := by decide +kernel
  obtain ⟨s, hs, hrun⟩ := Option.bind_eq_some_iff.mp hrun
  obtain ⟨w, hw, hrun⟩ := Option.bind_eq_some_iff.mp hrun
  obtain ⟨v, hv, hticks⟩ := Option.map_eq_some_iff.mp hrun
  obtain ⟨hwTick, hvTick⟩ := Prod.mk.inj hticks
  have hreachable : anyRuns.Reachable w :=
    (System.Reachable.initial (smallWorld_started hs)).tryAll RawOp.attempt_next hw
  have hmisused : System.tryAll RawOp.attempt w [.velocityRemove unitId] = some v :=
    Option.bind_eq_some_iff.mpr ⟨v, hv, rfl⟩
  have hreachable' := hreachable.tryAll RawOp.attempt_next hmisused
  refine ⟨w, v, hreachable, hreachable', ?_, ?_⟩
  · refine (simTick_all_or_nothing hreachable none).resolve_left fun h => ?_
    rw [h] at hwTick
    cases hwTick
  · refine (simTick_all_or_nothing hreachable' none).resolve_right fun ⟨u, h⟩ => ?_
    rw [h] at hvTick
    cases hvTick

structure FreshlyUsable (w : SimWorld) (e : EntityId) : Prop where
  transform_absent : transformPoolHas w.transforms e = false
  velocity_absent : velocityPoolHas w.velocities e = false
  health_absent : healthPoolHas w.health e = false
  transform_add : ∀ positionX positionY facing,
    (transformPoolAdd w.transforms e positionX positionY facing).1 = true
  velocity_add : ∀ velocityX velocityY,
    (velocityPoolAdd w.velocities e velocityX velocityY).1 = true
  health_add : ∀ current maximum damageCooldown, 0 ≤ current → current ≤ maximum →
    (healthPoolAdd w.health e current maximum damageCooldown).1 = true

namespace SimWorld

variable {w u : SimWorld}

theorem LegalInv.fresh (inv : w.LegalInv) {e : EntityId}
    (h : Op.create.run w = some (.entity e, u)) (hne : e ≠ .null) : FreshlyUsable u e := by
  simp only [Op.run, Option.some.injEq, Prod.mk.injEq, OpResult.entity.injEq] at h
  obtain ⟨rfl, rfl⟩ := h
  obtain ⟨htr, hvel, hhealth⟩ := inv.create_lookup hne
  have halive := inv.core.entities.create_alive hne
  obtain ⟨-, hinv, -⟩ := inv.create
  refine ⟨?_, ?_, ?_, fun x y f => ?_, fun x y => ?_, fun current maximum cooldown hc hm => ?_⟩
  · rw [transformPoolHas, TypedPool.has_eq_isSome, htr]
    rfl
  · rw [velocityPoolHas, TypedPool.has_eq_isSome, hvel]
    rfl
  · rw [healthPoolHas, TypedPool.has_eq_isSome, hhealth]
    rfl
  · obtain ⟨q, hq, -⟩ := hinv.transformAdd halive ⟨x, y, f⟩
    rw [transformPoolAdd, hq]
    exact World.added_none htr
  · obtain ⟨q, hq, -⟩ := hinv.velocityAdd halive ⟨x, y⟩
    rw [velocityPoolAdd, hq]
    exact World.added_none hvel
  · obtain ⟨q, hq, -⟩ := hinv.healthAdd halive current maximum cooldown
    have hmax : 0 ≤ maximum := Int32.le_trans hc hm
    have hbad : ¬ (current < 0 ∨ maximum < 0 ∨ maximum < current) := by
      simp only [not_or, Int32.not_lt]
      exact ⟨hc, hmax, hm⟩
    rw [hq, World.addHealth, if_neg hbad]
    exact World.added_none hhealth

end SimWorld

theorem legal_use_stays_usable {w : SimWorld} (reachable : legalRuns.Reachable w) :
    canonicalWorldValid w = true ∧ simValidateCommands w none = true ∧
      ∀ e u, Op.create.run w = some (.entity e, u) → e ≠ .null → FreshlyUsable u e := by
  have inv := SimWorld.reachable_legal reachable
  exact ⟨inv.canonical, (inv.validate_iff none).mpr trivial, fun _ _ h hne => inv.fresh h hne⟩

def uses : List Op :=
  [.create, .create, .transformAdd firstId 1 2 3, .velocityAdd firstId 4 5,
    .healthAdd firstId 5 9 0, .tick none, .destroyDeferred firstId, .destroyDeferred unitId,
    .tick none, .healthAdd secondId 1 1 0, .destroyDeferred secondId, .tick none, .create]

theorem legal_use_stays_usable_reused : ∃ w u, legalRuns.Reachable w ∧
    canonicalWorldValid w = true ∧ simValidateCommands w none = true ∧
      Op.create.run w = some (.entity ⟨handleMake 0 2⟩, u) ∧ FreshlyUsable u ⟨handleMake 0 2⟩ := by
  have hrun : (smallWorld.bind fun s => (System.tryAll Op.attempt s uses).bind fun w =>
      (Op.create.run w).map Prod.fst) = some (.entity ⟨handleMake 0 2⟩) := by decide +kernel
  obtain ⟨s, hs, hrun⟩ := Option.bind_eq_some_iff.mp hrun
  obtain ⟨w, hw, hrun⟩ := Option.bind_eq_some_iff.mp hrun
  obtain ⟨⟨_, u⟩, hcreate, rfl⟩ := Option.map_eq_some_iff.mp hrun
  have hreachable : legalRuns.Reachable w :=
    (System.Reachable.initial (smallWorld_started hs)).tryAll Op.attempt_next hw
  obtain ⟨hcanonical, hvalid, hfresh⟩ := legal_use_stays_usable hreachable
  exact ⟨w, u, hreachable, hcanonical, hvalid, hcreate, hfresh _ u hcreate (by decide)⟩

end ChoonzMoba
