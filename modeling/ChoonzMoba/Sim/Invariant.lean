import ChoonzMoba.Sim.Abstract

namespace ChoonzMoba

structure TypedPool.Shaped {V : Type} (p : TypedPool V) (n : Nat) : Prop where
  inv : p.membership.Inv
  entityCapacity : p.membership.entityCapacity = n
  capacity : p.membership.capacity = n

/-- What every run of public operations keeps, however they are misused. -/
structure SimWorld.CoreInv (w : SimWorld) : Prop where
  config : simConfigValid w.config = true
  entities : w.entities.Inv
  entities_capacity : w.entities.capacity = w.config.maxEntities.toNat
  transforms : w.transforms.Shaped w.config.maxEntities.toNat
  velocities : w.velocities.Shaped w.config.maxEntities.toNat
  health : w.health.Shaped w.config.maxEntities.toNat
  health_legal : ∀ e h, w.health.lookup e = some h → 0 ≤ h.current ∧ h.current ≤ h.maximum
  events : w.damageEvents.Valid
  events_capacity : w.damageEvents.capacity = w.config.damageEventCapacity.toNat
  units_unused : ∀ i, simMaxUnits ≤ i → w.unitEntities i = .null

structure SimWorld.Ready (w : SimWorld) : Prop where
  reading : w.damageEvents.readList = []
  writing : w.damageEvents.writeList = []
  units : ∀ i, w.unitEntities i ≠ .null → i < w.config.initialUnitCount.toNat ∧
    w.entities.table.Alive (w.unitEntities i) ∧ (w.transforms.lookup (w.unitEntities i)).isSome ∧
    (w.velocities.lookup (w.unitEntities i)).isSome ∧ (w.health.lookup (w.unitEntities i)).isSome
  pending_le : w.pendingDestroyCount ≤ w.config.maxEntities.toNat
  pending_alive : ∀ e ∈ w.pendingList, w.entities.table.Alive e
  pending_nodup : w.pendingList.Nodup

theorem EntityId.h_eq_null (e : EntityId) : e.h = handleNull ↔ e = .null := by
  cases e
  simp [EntityId.null]

theorem EntityId.h_inj {a b : EntityId} : a.h = b.h ↔ a = b := by
  cases a; cases b
  simp

theorem pending_all_iff (f : Nat → EntityId) (n : Nat) (good : EntityId → Prop) :
    (∀ i < n, good (f i) ∧ ∀ j < i, f j ≠ f i) ↔
      (∀ e ∈ (List.range n).map f, good e) ∧ ((List.range n).map f).Nodup := by
  constructor
  · intro h
    refine ⟨?_, ?_⟩
    · intro e he
      obtain ⟨i, hi, rfl⟩ := List.mem_map.mp he
      exact (h i (List.mem_range.mp hi)).1
    · apply List.Nodup.map_on _ List.nodup_range
      intro i hi j hj hij
      by_contra hne
      rcases Nat.lt_or_gt_of_ne hne with hlt | hgt
      · exact (h j (List.mem_range.mp hj)).2 i hlt hij
      · exact (h i (List.mem_range.mp hi)).2 j hgt hij.symm
  · rintro ⟨hall, hnd⟩ i hi
    refine ⟨hall _ (List.mem_map.mpr ⟨i, List.mem_range.mpr hi, rfl⟩), fun j hj hij => ?_⟩
    have hinj := List.inj_on_of_nodup_map hnd
    exact Nat.ne_of_lt hj
      (hinj (List.mem_range.mpr (Nat.lt_trans hj hi)) (List.mem_range.mpr hi) hij)

namespace SimWorld

variable {w : SimWorld}

theorem CoreInv.alive_iff (inv : w.CoreInv) (e : EntityId) :
    entityManagerIsAlive w.entities e = true ↔ w.entities.table.Alive e :=
  inv.entities.isAlive_iff e

theorem CoreInv.pending_iff (inv : w.CoreInv) :
    (List.range w.pendingDestroyCount).all (pendingRequestValid w) = true ↔
      (∀ e ∈ w.pendingList, w.entities.table.Alive e) ∧ w.pendingList.Nodup := by
  rw [pendingList, ← pending_all_iff, List.all_eq_true]
  simp only [pendingRequestValid, Bool.and_eq_true, List.all_eq_true, List.mem_range,
    decide_eq_true_eq, inv.alive_iff, ne_eq, EntityId.h_inj]

theorem CoreInv.slot_iff (inv : w.CoreInv) (i : Nat) :
    unitSlotValid w i = true ↔ (w.unitEntities i ≠ .null → i < w.config.initialUnitCount.toNat ∧
      w.entities.table.Alive (w.unitEntities i) ∧ (w.transforms.lookup (w.unitEntities i)).isSome ∧
      (w.velocities.lookup (w.unitEntities i)).isSome ∧
      (w.health.lookup (w.unitEntities i)).isSome) := by
  simp only [unitSlotValid, Bool.or_eq_true, decide_eq_true_eq, Bool.and_eq_true,
    EntityId.h_eq_null, inv.alive_iff, transformPoolHas, velocityPoolHas, healthPoolHas,
    TypedPool.has_eq_isSome]
  by_cases h : w.unitEntities i = .null
  · simp [h]
  · simp only [h, false_or, ne_eq, not_false_eq_true, forall_true_left]
    tauto

theorem CoreInv.units_iff (inv : w.CoreInv) :
    (List.range simMaxUnits).all (unitSlotValid w) = true ↔
      ∀ i, w.unitEntities i ≠ .null → i < w.config.initialUnitCount.toNat ∧
        w.entities.table.Alive (w.unitEntities i) ∧
        (w.transforms.lookup (w.unitEntities i)).isSome ∧
        (w.velocities.lookup (w.unitEntities i)).isSome ∧
        (w.health.lookup (w.unitEntities i)).isSome := by
  simp only [List.all_eq_true, List.mem_range, inv.slot_iff]
  constructor
  · intro h i
    rcases Nat.lt_or_ge i simMaxUnits with hi | hi
    · exact h i hi
    · exact fun hne => absurd (inv.units_unused i hi) hne
  · exact fun h i _ => h i

theorem CoreInv.shape_iff (inv : w.CoreInv) : simWorldShapeValid w = true ↔
    w.damageEvents.readList = [] ∧ w.damageEvents.writeList = [] ∧
      w.pendingDestroyCount ≤ w.config.maxEntities.toNat := by
  simp only [simWorldShapeValid, Bool.and_eq_true, decide_eq_true_eq, inv.config,
    inv.entities_capacity, inv.transforms.capacity, inv.velocities.capacity, inv.health.capacity,
    (DamageEventQueue.isValid_iff w.damageEvents).mpr inv.events, inv.events_capacity, true_and,
    DamageEventQueue.readList_eq_nil, DamageEventQueue.writeList_eq_nil, and_assoc]

theorem CoreInv.buffer_iff (inv : w.CoreInv) (buffer : SimCommandBuffer) :
    simBufferAccepted w buffer = true ↔ w.abstract.Accepts (some buffer) := by
  simp only [simBufferAccepted, World.Accepts, Bool.and_eq_true, decide_eq_true_eq,
    Bool.or_eq_true, List.all_eq_true, simCommandAccepted, ne_eq, EntityId.h_eq_null,
    inv.events_capacity, abstract, and_assoc]

theorem CoreInv.validate_iff (inv : w.CoreInv) (commands : Option SimCommandBuffer) :
    simValidateCommands w commands = true ↔ w.Ready ∧ w.abstract.Accepts commands := by
  simp only [simValidateCommands, Bool.and_eq_true, inv.shape_iff, inv.units_iff, inv.pending_iff]
  constructor
  · rintro ⟨⟨⟨⟨hr, hw, hp⟩, hu⟩, ha, hn⟩, hc⟩
    refine ⟨⟨hr, hw, hu, hp, ha, hn⟩, ?_⟩
    cases commands with
    | none => trivial
    | some buffer => exact (inv.buffer_iff buffer).mp hc
  · rintro ⟨hready, hc⟩
    refine ⟨⟨⟨⟨hready.reading, hready.writing, hready.pending_le⟩, hready.units⟩,
      hready.pending_alive, hready.pending_nodup⟩, ?_⟩
    cases commands with
    | none => rfl
    | some buffer => exact (inv.buffer_iff buffer).mpr hc

end SimWorld

end ChoonzMoba
