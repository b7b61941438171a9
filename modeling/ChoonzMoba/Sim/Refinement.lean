import ChoonzMoba.Sim.InitTotal

namespace ChoonzMoba

def slotCommands (commands : List SimCommand) (kind : UInt8) (slot : Nat) : List SimCommand :=
  commands.filter fun c => decide (c.kind = kind ∧ c.unitIndex.toNat = slot)

def lastVelocity (commands : List SimCommand) (slot : Nat) (v : Velocity) : Velocity :=
  match (slotCommands commands simCommandSetVelocity slot).getLast? with
  | some c => ⟨c.valueX, c.valueY⟩
  | none => v

def slotDamage (commands : List SimCommand) (slot : Nat) : Int :=
  ((slotCommands commands simCommandDamage slot).map fun c => c.amount.toInt).sum

def slotHurt (commands : List SimCommand) (slot : Nat) : Bool :=
  (slotCommands commands simCommandDamage slot).any fun c => decide (0 < c.amount)

structure TickEffect (w u : SimWorld) (commands : List SimCommand) : Prop where
  refines : u.abstract = w.abstract.tickWith commands
  commanded : ∀ slot e v, w.unitEntities slot = e → e ≠ .null → e ∉ w.pendingList →
    w.velocities.lookup e = some v →
      u.velocities.lookup e = some (lastVelocity commands slot v)
  uncommanded : ∀ e, (∀ slot, w.unitEntities slot ≠ e) → e ∉ w.pendingList →
    u.velocities.lookup e = w.velocities.lookup e
  moved : ∀ e t v', e ∉ w.pendingList → w.transforms.lookup e = some t →
    u.velocities.lookup e = some v' → ∃ t', u.transforms.lookup e = some t' ∧
      t'.positionX.toInt = (t.positionX.toInt +
        v'.velocityX.toInt * simDtFixed.toInt / fixOne).bmod (2 ^ 32) ∧
      t'.positionY.toInt = (t.positionY.toInt +
        v'.velocityY.toInt * simDtFixed.toInt / fixOne).bmod (2 ^ 32) ∧
      t'.facing = t.facing
  still : ∀ e, e ∉ w.pendingList → u.velocities.lookup e = none →
    u.transforms.lookup e = w.transforms.lookup e
  damaged : ∀ slot e h, w.unitEntities slot = e → e ≠ .null → e ∉ w.pendingList →
    w.health.lookup e = some h → ∃ h', u.health.lookup e = some h' ∧
      h'.current.toInt = max 0 (h.current.toInt - slotDamage commands slot) ∧
      h'.maximum = h.maximum ∧ h'.damageCooldown =
        World.cooled (if slotHurt commands slot then 3 else h.damageCooldown)
  undamaged : ∀ e h, (∀ slot, w.unitEntities slot ≠ e) → e ∉ w.pendingList →
    w.health.lookup e = some h → ∃ h', u.health.lookup e = some h' ∧
      h'.current = h.current ∧ h'.maximum = h.maximum ∧
      h'.damageCooldown = World.cooled h.damageCooldown
  bounded : ∀ e h, u.health.lookup e = some h → 0 ≤ h.current ∧ h.current ≤ h.maximum
  absent : ∀ e, w.velocities.lookup e = none → u.velocities.lookup e = none
  destroyed : ∀ e ∈ w.pendingList, u.transforms.lookup e = none ∧ u.velocities.lookup e = none ∧
    u.health.lookup e = none
  alive : ∀ e, entityManagerIsAlive u.entities e = true ↔
    entityManagerIsAlive w.entities e = true ∧ e ∉ w.pendingList
  slots : ∀ slot, u.unitEntities slot =
    if w.unitEntities slot ∈ w.pendingList then .null else w.unitEntities slot
  drained : u.pendingList = []
  clock : u.tick = w.tick + 1 ∧ u.rng = (pcg32Next w.rng).2 ∧ u.config = w.config

namespace SimWorld

variable {w : SimWorld} {commands : List SimCommand}

theorem aimed_slot (inv : w.LegalInv) {slot : Nat} (h : w.unitEntities slot ≠ .null)
    (kind : UInt8) : w.abstract.aimed commands kind (w.unitEntities slot) =
      slotCommands commands kind slot := by
  apply List.filter_congr
  intro c _
  have hslot : w.abstract.units c.unitIndex.toNat = w.unitEntities slot ↔
      c.unitIndex.toNat = slot := by
    constructor
    · exact fun heq => (inv.slots_distinct slot _ h heq.symm).symm
    · rintro rfl
      rfl
  simp only [hslot]

theorem aimed_none {e : EntityId} (h : ∀ slot, w.unitEntities slot ≠ e) (kind : UInt8) :
    w.abstract.aimed commands kind e = [] := by
  apply List.filter_eq_nil_iff.mpr
  intro c _
  have hne : ¬ w.abstract.units c.unitIndex.toNat = e := h _
  simp [hne]

theorem velocityAfter_none {e : EntityId} (h : ∀ slot, w.unitEntities slot ≠ e) :
    w.abstract.velocityAfter commands e = id := by
  funext v
  rw [World.velocityAfter, aimed_none h]
  rfl

theorem displaced_toInt (x v : Int32) : (World.displaced x v).toInt =
    (x.toInt + v.toInt * simDtFixed.toInt / fixOne).bmod (2 ^ 32) := by
  rw [World.displaced, Int32.toInt_ofInt]
  rfl

theorem damaged_current {h : Health} (hc : 0 ≤ h.current) {damage : Int} (hd : 0 ≤ damage)
    (hit : Bool) : (World.damaged damage hit h).current.toInt = max 0 (h.current.toInt - damage) :=
  World.struck_current hc hd hit

theorem LegalInv.damageTo_nonneg (inv : w.LegalInv) {buffer : Option SimCommandBuffer}
    (hacc : w.abstract.Accepts buffer) (e : EntityId) :
    0 ≤ w.abstract.damageTo (commandRecords buffer) e := by
  rw [← World.dealt_damageEvents]
  exact World.dealt_nonneg (fun event he =>
    damageEventIsCanonical_amount (inv.ready.damage_resolvable hacc event he).1) e

theorem LegalInv.effect (inv : w.LegalInv) {buffer : Option SimCommandBuffer} {u : SimWorld}
    (h : simTick w buffer = some (true, u)) : TickEffect w u (commandRecords buffer) := by
  have hacc : w.abstract.Accepts buffer := by
    by_contra hrej
    rw [tick_rejected fun hv => hrej ((inv.validate_iff buffer).mp hv)] at h
    cases h
  obtain ⟨u', hu, uinv, uabs⟩ := inv.tick hacc
  rw [h] at hu
  cases hu
  have heq := uabs
  rw [World.tickWith, World.foldl_destroy_eq] at heq
  have hkept : ∀ e, e ∉ w.pendingList →
      u.velocities.lookup e =
        (w.velocities.lookup e).map (w.abstract.velocityAfter (commandRecords buffer) e) ∧
      u.transforms.lookup e =
        (w.transforms.lookup e).map (fun t => World.advanced t (u.velocities.lookup e)) ∧
      u.health.lookup e = (w.health.lookup e).map (World.damaged
        (w.abstract.damageTo (commandRecords buffer) e)
        (w.abstract.hurt (commandRecords buffer) e)) := by
    intro e he
    have hvel : u.velocities.lookup e = _ :=
      (congrFun (congrArg World.velocities heq) e).trans (if_neg he)
    refine ⟨hvel, ?_, (congrFun (congrArg World.health heq) e).trans (if_neg he)⟩
    rw [hvel]
    exact (congrFun (congrArg World.transforms heq) e).trans (if_neg he)
  have hgone : ∀ e ∈ w.pendingList, u.transforms.lookup e = none ∧ u.velocities.lookup e = none ∧
      u.health.lookup e = none := fun e he =>
    ⟨(congrFun (congrArg World.transforms heq) e).trans (if_pos he),
      (congrFun (congrArg World.velocities heq) e).trans (if_pos he),
      (congrFun (congrArg World.health heq) e).trans (if_pos he)⟩
  have hentities : u.entities.table = (w.pendingList.foldl World.destroy
      (w.abstract.integrate (commandRecords buffer))).entities := congrArg World.entities heq
  refine ⟨uabs, ?_, ?_, ?_, ?_, ?_, ?_, uinv.core.health_legal, ?_, hgone, ?_,
    congrFun (congrArg World.units heq), congrArg World.pending heq,
    congrArg World.tick heq, congrArg World.rng heq, congrArg World.config heq⟩
  · rintro slot e v rfl hne he hv
    rw [(hkept _ he).1, hv, Option.map_some, World.velocityAfter, aimed_slot inv hne]
    rfl
  · intro e hslot he
    rw [(hkept e he).1, velocityAfter_none hslot, Option.map_id, id]
  · intro e t v' he ht hv'
    refine ⟨World.advanced t (some v'), by rw [(hkept e he).2.1, ht, hv']; rfl, ?_, ?_, rfl⟩
    · exact displaced_toInt t.positionX v'.velocityX
    · exact displaced_toInt t.positionY v'.velocityY
  · intro e he hv'
    rw [(hkept e he).2.1, hv']
    exact Option.map_id'
  · rintro slot e v rfl hne he hv
    refine ⟨World.damaged _ _ v, by rw [(hkept _ he).2.2, hv, Option.map_some], ?_, rfl, ?_⟩
    · rw [damaged_current (inv.core.health_legal _ v hv).1 (inv.damageTo_nonneg hacc _),
        World.damageTo, aimed_slot inv hne]
      rfl
    · rw [World.hurt, aimed_slot inv hne]
      rfl
  · intro e v hslot he hv
    refine ⟨World.damaged _ _ v, by rw [(hkept e he).2.2, hv, Option.map_some], ?_, rfl, ?_⟩
    · have hlegal := (inv.core.health_legal _ v hv).1
      have hpos := Int32.le_iff_toInt_le.mp hlegal
      apply Int32.toInt_inj.mp
      rw [damaged_current hlegal (inv.damageTo_nonneg hacc _), World.damageTo, aimed_none hslot]
      rw [Int32.toInt_zero] at hpos
      simpa using hpos
    · rw [World.hurt, aimed_none hslot]
      rfl
  · intro e hv
    by_cases he : e ∈ w.pendingList
    · exact (hgone e he).2.1
    · rw [(hkept e he).1, hv]
      rfl
  · intro e
    rw [uinv.core.alive_iff, inv.core.alive_iff, hentities]
    exact World.foldl_destroy_alive inv.ready.pending_nodup inv.ready.pending_alive e

theorem started_exists : ∃ w arena pushed, simInit arena 7 ⟨4, 1, 8⟩ = some (pushed, some w) := by
  have hconfig : simConfigValid ⟨4, 1, 8⟩ = true := by decide
  have hsize : simWorldMemoryRequired ⟨4, 1, 8⟩ ≤ 4096 := by decide
  obtain ⟨arena, -, hwf, hoff, hres, hcom, -⟩ :=
    arenaInit_ok 16 4096 4096 (by decide) (Nat.le_refl _) (by decide) none 0
  obtain ⟨pushed, w, hw⟩ := init_ok hconfig 7 (a := arena) ⟨hwf, Or.inl (hcom.trans hres.symm)⟩
    (by rw [hoff, hres, Nat.zero_add]; exact hsize)
  exact ⟨w, arena, pushed, hw⟩

end SimWorld

theorem simTick_refines_spec {w u : SimWorld} (reachable : legalRuns.Reachable w)
    {buffer : Option SimCommandBuffer} (accepted : simTick w buffer = some (true, u)) :
    TickEffect w u (commandRecords buffer) :=
  (SimWorld.reachable_legal reachable).effect accepted

theorem simTick_refines_spec_first : ∃ w u buffer, legalRuns.Reachable w ∧
    commandRecords buffer = [⟨1, 0, 0, 65536, 0, 0⟩, ⟨2, 1, 0, 0, 0, 7⟩] ∧
      TickEffect w u (commandRecords buffer) := by
  obtain ⟨w, arena, pushed, hw⟩ := SimWorld.started_exists
  have hpop := SimWorld.populated_of_init hw
  have hunit : w.unitEntities 0 ≠ .null := (hpop.units 0).mpr (by decide)
  let buffer := SimCommandBuffer.ofList [⟨1, 0, 0, 65536, 0, 0⟩, ⟨2, 1, 0, 0, 0, 7⟩]
  have hacc : w.abstract.Accepts (some buffer) := by
    refine ⟨by decide, by decide, ?_, ?_⟩
    · intro c hc
      have hc' : c = ⟨1, 0, 0, 65536, 0, 0⟩ ∨ c = ⟨2, 1, 0, 0, 0, 7⟩ := by
        simpa [buffer, SimCommandBuffer.ofList, SimCommandBuffer.records] using hc
      rcases hc' with rfl | rfl
      · exact ⟨by decide, hunit⟩
      · exact ⟨by decide, hunit⟩
    · rw [show w.abstract.config = _ from hpop.config_eq]
      decide
  obtain ⟨u, hu, -⟩ := hpop.legal.tick hacc
  have reachable : legalRuns.Reachable w := .initial ⟨arena, 7, _, pushed, hw⟩
  exact ⟨w, u, some buffer, reachable, rfl, simTick_refines_spec reachable hu⟩

end ChoonzMoba
