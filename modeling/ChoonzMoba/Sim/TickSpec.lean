import ChoonzMoba.Sim.FlushSpec

namespace ChoonzMoba

namespace World

def directed (w : World) (commands : List SimCommand) : World :=
  { w with
    velocities := fun e => (w.velocities e).map (w.velocityAfter commands e)
    writing := w.damageEvents commands }

def moved (w : World) : World :=
  { w with
    transforms := fun e => (w.transforms e).map fun t => advanced t (w.velocities e) }

def published (w : World) : World := { w with reading := w.writing, writing := [] }

def fought (w : World) : World :=
  { w with
    health := fun e => (w.health e).map (struck (dealt w.reading e) (wounded w.reading e)) }

def consumed (w : World) : World := { w with reading := [] }

def cooledDown (w : World) : World := { w with health := fun e => (w.health e).map rested }

def drawn (w : World) : World := { w with rng := (pcg32Next w.rng).2 }

theorem phases_eq_integrate (w : World) (hr : w.reading = []) (hw : w.writing = [])
    (commands : List SimCommand) :
    (w.directed commands).moved.published.fought.consumed.cooledDown.drawn =
      (w.integrate commands).clocked w.tick := by
  have hhealth : (fun e => ((w.health e).map (struck (dealt (w.damageEvents commands) e)
      (wounded (w.damageEvents commands) e))).map rested) =
      fun e => (w.health e).map (damaged (w.damageTo commands e) (w.hurt commands e)) := by
    funext e
    rw [dealt_damageEvents, wounded_damageEvents, Option.map_map]
    rfl
  simp only [directed, moved, published, fought, consumed, cooledDown, drawn, integrate, clocked,
    hr, hw, hhealth]

end World

namespace SimWorld

variable {w : SimWorld}

theorem Legal.struck {health : EntityId → Option Health} (h : Legal health)
    {events : List DamageEvent} (hevents : ∀ event ∈ events, 0 ≤ event.amount) :
    Legal fun e => (health e).map
      (World.struck (World.dealt events e) (World.wounded events e)) := by
  intro e v hv
  obtain ⟨u, hu, rfl⟩ := Option.map_eq_some_iff.mp hv
  obtain ⟨hcur, hmax⟩ := h e u hu
  have hd := World.dealt_nonneg hevents e
  have hstruck := World.struck_current hcur hd (World.wounded events e)
  have hmax' := Int32.le_iff_toInt_le.mp hmax
  have hcur' := Int32.le_iff_toInt_le.mp hcur
  rw [Int32.toInt_zero] at hcur'
  refine ⟨Int32.le_iff_toInt_le.mpr ?_, Int32.le_iff_toInt_le.mpr ?_⟩
  · rw [hstruck, Int32.toInt_zero]
    exact le_max_left _ _
  · rw [hstruck]
    change _ ≤ u.maximum.toInt
    omega

theorem Legal.rested {health : EntityId → Option Health} (h : Legal health) :
    Legal fun e => (health e).map World.rested := by
  intro e v hv
  obtain ⟨u, hu, rfl⟩ := Option.map_eq_some_iff.mp hv
  exact h e u hu

theorem Ready.damage_resolvable (ready : w.Ready) {commands : Option SimCommandBuffer}
    (hacc : w.abstract.Accepts commands) :
    ∀ event ∈ w.abstract.damageEvents (commandRecords commands),
      damageEventIsCanonical event = true ∧ event.source = .null ∧
        w.abstract.entities.Alive event.target ∧ (w.abstract.health event.target).isSome := by
  intro event hevent
  obtain ⟨c, hc, rfl⟩ := List.mem_map.mp hevent
  obtain ⟨hc, hkind⟩ := List.mem_filter.mp hc
  cases commands with
  | none => cases hc
  | some buffer =>
    obtain ⟨hcanon, hslot⟩ := hacc.2.2.1 c hc
    obtain ⟨halive, -, hhealth⟩ := ready.target hslot
    have hne : c.kind ≠ simCommandSetVelocity := by
      rw [of_decide_eq_true hkind]
      decide
    have hamount := (simCommand_kind hcanon hne).2
    exact ⟨damageEvent_canonical halive.1 hamount, rfl, halive, hhealth⟩

theorem CoreInv.directed (inv : w.CoreInv) {commands : Option SimCommandBuffer}
    (hv : simValidateCommands w commands = true) :
    ∃ u, sysApplyCommands w commands = some (true, u) ∧ u.CoreInv ∧
      u.abstract = w.abstract.directed (commandRecords commands) := by
  have hreading := ((inv.validate_iff commands).mp hv).1.reading
  obtain ⟨u, hu, hframe, hmem, hvel, hevents, hcap, hread, hwrite⟩ := inv.apply hv
  refine ⟨u, hu, ?_, ?_⟩
  · rw [hframe]
    exact ⟨inv.config, inv.entities, inv.entities_capacity, inv.transforms,
      inv.velocities.of_membership hmem, inv.health, inv.health_legal, hevents,
      hcap.trans inv.events_capacity, inv.units_unused⟩
  · rw [hframe]
    simp only [abstract, World.directed, hvel, hread, hwrite, hreading]
    rfl

theorem CoreInv.movement (inv : w.CoreInv) :
    ∃ u, sysMovement w = some (true, u) ∧ u.CoreInv ∧ u.abstract = w.abstract.moved := by
  obtain ⟨u, hu, hframe, hshape, hlook⟩ := sysMovement_spec inv.transforms inv.velocities
  refine ⟨u, hu, ?_, ?_⟩
  · rw [hframe]
    exact ⟨inv.config, inv.entities, inv.entities_capacity, hshape, inv.velocities, inv.health,
      inv.health_legal, inv.events, inv.events_capacity, inv.units_unused⟩
  · rw [hframe]
    simp only [abstract, World.moved, hlook]
    rfl

theorem CoreInv.with_events (inv : w.CoreInv) {q : DamageEventQueue} (hq : q.Valid)
    (hcap : q.capacity = w.damageEvents.capacity) : { w with damageEvents := q }.CoreInv :=
  ⟨inv.config, inv.entities, inv.entities_capacity, inv.transforms, inv.velocities, inv.health,
    inv.health_legal, hq, hcap.trans inv.events_capacity, inv.units_unused⟩

theorem CoreInv.publish (inv : w.CoreInv) (hread : w.abstract.reading = []) :
    ∃ u, publishDamage w = some (true, u) ∧ u.CoreInv ∧ u.abstract = w.abstract.published := by
  obtain ⟨q, hq, hvalid, hcap, hr, hw⟩ := DamageEventQueue.publish_spec inv.events hread
  refine ⟨_, by rw [publishDamage, hq], inv.with_events hvalid hcap, ?_⟩
  simp only [abstract, World.published, hr, hw]
  rfl

theorem CoreInv.consume (inv : w.CoreInv) :
    ∃ u, consumeDamage w = some (true, u) ∧ u.CoreInv ∧ u.abstract = w.abstract.consumed := by
  obtain ⟨q, hq, hvalid, hcap, hr, hw⟩ := DamageEventQueue.consume_spec inv.events
  refine ⟨_, by rw [consumeDamage, hq], inv.with_events hvalid hcap, ?_⟩
  simp only [abstract, World.consumed, hr, hw]
  rfl

theorem CoreInv.with_health (inv : w.CoreInv) {health : HealthPool}
    (hshape : health.Shaped w.config.maxEntities.toNat) (hlegal : Legal health.lookup) :
    { w with health }.CoreInv :=
  ⟨inv.config, inv.entities, inv.entities_capacity, inv.transforms, inv.velocities, hshape,
    hlegal, inv.events, inv.events_capacity, inv.units_unused⟩

theorem CoreInv.fought (inv : w.CoreInv)
    (hevents : ∀ event ∈ w.abstract.reading, damageEventIsCanonical event = true ∧
      event.source = .null ∧ w.abstract.entities.Alive event.target ∧
      (w.abstract.health event.target).isSome) :
    ∃ u, sysCombatResolve w = some (true, u) ∧ u.CoreInv ∧ u.abstract = w.abstract.fought := by
  obtain ⟨u, hu, hframe, hmem, hlook⟩ := inv.combat rfl hevents
  refine ⟨u, hu, ?_, ?_⟩
  · rw [hframe]
    refine inv.with_health (inv.health.of_membership hmem) ?_
    rw [hlook]
    exact Legal.struck inv.health_legal fun event he =>
      damageEventIsCanonical_amount (hevents event he).1
  · rw [hframe]
    simp only [abstract, World.fought, hlook]
    rfl

theorem CoreInv.cooldown (inv : w.CoreInv) :
    ∃ u, sysCooldownTick w = some (true, u) ∧ u.CoreInv ∧ u.abstract = w.abstract.cooledDown := by
  obtain ⟨u, hu, hframe, hshape, hlook⟩ := sysCooldownTick_spec inv.health
  refine ⟨u, hu, ?_, ?_⟩
  · rw [hframe]
    refine inv.with_health hshape ?_
    rw [hlook]
    exact Legal.rested inv.health_legal
  · rw [hframe]
    simp only [abstract, World.cooledDown, hlook]
    rfl

theorem CoreInv.with_rng (inv : w.CoreInv) (rng : Pcg32) : { w with rng }.CoreInv :=
  ⟨inv.config, inv.entities, inv.entities_capacity, inv.transforms, inv.velocities, inv.health,
    inv.health_legal, inv.events, inv.events_capacity, inv.units_unused⟩

theorem abstract_with_rng (w : SimWorld) (rng : Pcg32) :
    { w with rng }.abstract = { w.abstract with rng } := rfl

theorem CoreInv.drawn (inv : w.CoreInv) :
    (sysRngAdvance w).CoreInv ∧ (sysRngAdvance w).abstract = w.abstract.drawn := by
  have hrng : w.abstract.rng = w.rng := rfl
  rw [sysRngAdvance, abstract_with_rng, World.drawn, hrng]
  generalize (pcg32Next w.rng).2 = rng
  exact ⟨inv.with_rng rng, rfl⟩

theorem pendingList_length (w : SimWorld) : w.pendingList.length = w.pendingDestroyCount := by
  simp [pendingList]

theorem CoreInv.tick (inv : w.CoreInv) (ready : w.Ready) {commands : Option SimCommandBuffer}
    (hacc : w.abstract.Accepts commands) :
    ∃ u, simTick w commands = some (true, u) ∧ u.CoreInv ∧ u.pendingDestroyCount = 0 ∧
      u.abstract = w.abstract.tickWith (commandRecords commands) := by
  have hv := (inv.validate_iff commands).mpr ⟨ready, hacc⟩
  obtain ⟨a, ha, ainv, aabs⟩ := inv.directed hv
  obtain ⟨b, hb, binv, babs⟩ := ainv.movement
  have hread : b.abstract.reading = [] := by
    rw [babs, aabs]
    exact ready.reading
  obtain ⟨c, hc, cinv, cabs⟩ := binv.publish hread
  rw [babs, aabs] at cabs
  have hevents : ∀ event ∈ c.abstract.reading, damageEventIsCanonical event = true ∧
      event.source = .null ∧ c.abstract.entities.Alive event.target ∧
      (c.abstract.health event.target).isSome := by
    rw [cabs]
    exact ready.damage_resolvable hacc
  obtain ⟨d, hd, dinv, dabs⟩ := cinv.fought hevents
  obtain ⟨f, hf, finv, fabs⟩ := dinv.consume
  obtain ⟨g, hg, ginv, gabs⟩ := finv.cooldown
  obtain ⟨hinv, habs⟩ := ginv.drawn
  rw [gabs, fabs, dabs, cabs,
    World.phases_eq_integrate _ ready.reading ready.writing] at habs
  have hpending : (sysRngAdvance g).pendingList = w.pendingList := congrArg World.pending habs
  have htable : (sysRngAdvance g).entities.table = w.entities.table := congrArg World.entities habs
  have hconfig : (sysRngAdvance g).config = w.config := congrArg World.config habs
  obtain ⟨i, hi, iinv, icount, iabs⟩ := hinv.flush
    (by rw [← pendingList_length, hpending, hconfig, pendingList_length]; exact ready.pending_le)
    (by rw [hpending, htable]; exact ready.pending_alive)
    (by rw [hpending]; exact ready.pending_nodup)
  rw [habs, World.foldl_destroy_clocked] at iabs
  refine ⟨{ i with tick := i.tick + 1 }, ?_, ?_, icount, ?_⟩
  · simp only [simTick, hv, ha, hb, hc, hd, hf, hg, hi, ensured, Bool.not_true, Bool.false_eq_true,
      if_false, Option.bind_eq_bind, Option.bind_some]
  · exact ⟨iinv.config, iinv.entities, iinv.entities_capacity, iinv.transforms, iinv.velocities,
      iinv.health, iinv.health_legal, iinv.events, iinv.events_capacity, iinv.units_unused⟩
  · have htick : i.tick = w.tick := congrArg World.tick iabs
    have hclock : ({ i with tick := i.tick + 1 } : SimWorld).abstract =
        i.abstract.clocked (w.tick + 1) := by
      rw [← htick]
      rfl
    have hfold : ((w.abstract.integrate (commandRecords commands)).pending.foldl World.destroy
        (w.abstract.integrate (commandRecords commands))).tick = w.tick + 1 :=
      World.foldl_destroy_tick _ _
    rw [hclock, iabs]
    exact World.ext hfold.symm rfl rfl rfl rfl rfl rfl rfl rfl rfl rfl

theorem tick_rejected {commands : Option SimCommandBuffer}
    (h : ¬ simValidateCommands w commands = true) : simTick w commands = some (false, w) := by
  simp [simTick, h]

end SimWorld

end ChoonzMoba
