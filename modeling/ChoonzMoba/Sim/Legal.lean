import ChoonzMoba.Sim.Operations

namespace ChoonzMoba

/-- What every run of legal operations keeps. -/
structure SimWorld.LegalInv (w : SimWorld) : Prop where
  core : w.CoreInv
  ready : w.Ready
  transforms_alive : ∀ e, (w.transforms.lookup e).isSome → w.entities.table.Alive e
  velocities_alive : ∀ e, (w.velocities.lookup e).isSome → w.entities.table.Alive e
  health_alive : ∀ e, (w.health.lookup e).isSome → w.entities.table.Alive e
  slots_distinct : ∀ i j, w.unitEntities i ≠ .null → w.unitEntities i = w.unitEntities j → i = j

theorem EntityTable.create_alive {t : EntityTable} (hfree : ∀ i ∈ t.free, t.live i = false)
    (hfresh : t.live t.fresh = false) {a : EntityId} (h : t.Alive a) : t.create.2.Alive a := by
  have issue_alive : ∀ (s : EntityTable) (i : Nat), s.live i = false → s.Alive a →
      (s.issue i).2.Alive a := by
    intro s i hi ha
    have hne : handleIndex a.h ≠ i := by
      rintro rfl
      rw [ha.2.1] at hi
      cases hi
    simpa [EntityTable.Alive, issue, Function.update_of_ne hne] using ha
  unfold create
  split
  · next index rest hlist => exact issue_alive _ index (hfree index (by simp [hlist])) h
  · split
    · exact issue_alive _ _ hfresh h
    · exact h

theorem EntityTable.create_capacity (t : EntityTable) : t.create.2.capacity = t.capacity := by
  unfold create
  split
  · rfl
  · split <;> rfl

namespace EntityManager

variable {m : EntityManager}

theorem Inv.table_free_dead (inv : m.Inv) : ∀ i ∈ m.table.free, m.table.live i = false := by
  intro i hi
  have := ((inv.mem_free i).mp (List.mem_reverse.mp hi)).2
  simp [table, this]

theorem Inv.table_fresh_dead (inv : m.Inv) : m.table.live m.table.fresh = false := by
  have := (inv.unissued m.nextFresh (Nat.le_refl _)).2
  simp [table, this]

theorem Inv.alive_index_lt (inv : m.Inv) {e : EntityId} (h : m.table.Alive e) :
    handleIndex e.h < m.nextFresh :=
  inv.live_lt (by simpa [table] using h.2.1)

theorem Inv.create_spec (inv : m.Inv) :
    (entityManagerCreate m).1 = .null ∧ m.freeCount = 0 ∧ m.capacity ≤ m.nextFresh ∨
      (entityManagerCreate m).2.table.Alive (entityManagerCreate m).1 ∧
        ∀ a, m.table.Alive a → handleIndex a.h ≠ handleIndex (entityManagerCreate m).1.h := by
  have issued : ∀ (s : EntityManager) (i : Nat), s.Reserved i → s.liveness = m.liveness →
      (entityManagerIssue s i).2.table.Alive (entityManagerIssue s i).1 ∧
        ∀ a, m.table.Alive a → handleIndex a.h ≠ handleIndex (entityManagerIssue s i).1.h := by
    intro s i res hlive
    have hi : i < 2 ^ 18 :=
      Nat.lt_of_lt_of_le res.index_lt (Nat.le_trans res.fresh_le res.capacity_le)
    have hg := res.generation_lt
    have hgen : (if s.generations i = 0 then 1 else s.generations i) < 2 ^ 14 := by
      split
      · decide
      · exact hg
    have hidx := handleIndex_make hi hgen
    have hgenOf := handleGen_make hi hgen
    refine ⟨⟨?_, ?_, ?_⟩, ?_⟩
    · simp only [entityManagerIssue, hgenOf]
      split
      · decide
      · assumption
    · simp [entityManagerIssue, table, hidx]
    · simp [entityManagerIssue, table, hidx, hgenOf]
    · intro a ha
      rw [entityManagerIssue, hidx]
      rintro rfl
      have hdead := res.dead
      rw [hlive] at hdead
      simpa [table, hdead] using ha.2.1
  rcases Nat.eq_zero_or_pos m.freeCount with hz | hpos
  · rcases Nat.lt_or_ge m.nextFresh m.capacity with hlt | hge
    · rw [create_fresh hz hlt]
      exact Or.inr (issued _ _ (inv.reserve_fresh hlt) rfl)
    · rw [create_full hz hge]
      exact Or.inl ⟨rfl, hz, hge⟩
  · rw [inv.create_recycled hpos]
    exact Or.inr (issued _ _ (inv.reserve_recycled hpos) rfl)

theorem Inv.create_fresh_index (inv : m.Inv) (h : (entityManagerCreate m).1 ≠ .null) :
    ∀ a, m.table.Alive a → handleIndex a.h ≠ handleIndex (entityManagerCreate m).1.h :=
  inv.create_spec.elim (fun hnull => absurd hnull.1 h) fun halive => halive.2

theorem Inv.create_alive (inv : m.Inv) (h : (entityManagerCreate m).1 ≠ .null) :
    (entityManagerCreate m).2.table.Alive (entityManagerCreate m).1 :=
  inv.create_spec.elim (fun hnull => absurd hnull.1 h) fun halive => halive.1

theorem Inv.create_ne_null (inv : m.Inv) (h : m.nextFresh < m.capacity) :
    (entityManagerCreate m).1 ≠ .null := by
  rcases inv.create_spec with ⟨-, -, hfull⟩ | ⟨halive, -⟩
  · exact absurd h (Nat.not_lt_of_le hfull)
  · intro hnull
    rw [hnull] at halive
    exact halive.1 handleGen_null

end EntityManager

namespace TypedPool

variable {V : Type} {p : TypedPool V} {n : Nat}

theorem Shaped.add (h : p.Shaped n) (e : EntityId) (v : V) :
    ∃ ok q, typedPoolAdd p e v = (ok, q) ∧ q.Shaped n ∧
      (ok = true ∧ q.lookup = Function.update p.lookup e (some v) ∨ ok = false ∧ q = p) := by
  rcases p.add_cases e v with hadd | ⟨hg, hi, hroom, hfree, hadd⟩
  · exact ⟨false, p, hadd, h, Or.inr ⟨rfl, rfl⟩⟩
  · exact ⟨true, _, hadd, ⟨h.inv.inserted hg hi hroom hfree, h.entityCapacity, h.capacity⟩,
      Or.inl ⟨rfl, inserted_lookup h.inv hg hi hroom hfree v⟩⟩

theorem Shaped.remove [Zero V] (h : p.Shaped n) (e : EntityId) :
    ∃ ok q, typedPoolRemove p e = (ok, q) ∧ q.Shaped n ∧
      q.lookup = Function.update p.lookup e none := by
  by_cases he : p.membership.Holds e
  · exact ⟨true, _, remove_eq h.inv he, ⟨h.inv.erased he, h.entityCapacity, h.capacity⟩,
      erased_lookup h.inv he⟩
  · refine ⟨false, p, remove_rejected h.inv he, h, ?_⟩
    rw [← lookup_of_not_holds h.inv he, Function.update_eq_self]

theorem Shaped.add_alive (h : p.Shaped n) {t : EntityTable}
    (halive : ∀ a, (p.lookup a).isSome → t.Alive a) {e : EntityId} (he : t.Alive e)
    (hi : handleIndex e.h < n) (v : V) :
    ∃ q, typedPoolAdd p e v = ((World.added p.lookup e v).1, q) ∧ q.Shaped n ∧
      q.lookup = (World.added p.lookup e v).2 := by
  have hsparse : p.membership.sparse (handleIndex e.h) = 0 ↔ p.lookup e = none := by
    constructor
    · intro hz
      exact lookup_of_not_holds h.inv fun hh => hh.1 hz
    · intro hnone
      by_contra hs
      have hidx := (h.inv.sparse _ hs).2
      have hholds : p.membership.Holds (p.membership.denseOf (handleIndex e.h)) :=
        ⟨by rwa [hidx], by rw [hidx]⟩
      have heq := (halive _ ((lookup_isSome h.inv _).mpr hholds)).unique he hidx
      rw [heq] at hholds
      exact (lookup_ne_none h.inv e).mpr hholds hnone
  by_cases hnone : p.lookup e = none
  · have hfree := hsparse.mpr hnone
    have hi' : handleIndex e.h < p.membership.entityCapacity := by rwa [h.entityCapacity]
    have hroom := h.inv.room (h.capacity.trans h.entityCapacity.symm) hi' hfree
    refine ⟨p.inserted e v, ?_, ⟨h.inv.inserted he.1 hi' hroom hfree, h.entityCapacity, h.capacity⟩, ?_⟩
    · simp [World.added, hnone, add_eq he.1 hi' hroom hfree]
    · rw [inserted_lookup h.inv he.1 hi' hroom hfree, World.added, if_pos hnone]
  · refine ⟨p, ?_, h, ?_⟩
    · have hne : p.membership.sparse (handleIndex e.h) ≠ 0 := fun hz => hnone (hsparse.mp hz)
      rw [World.added, if_neg hnone, typedPoolAdd,
        ComponentPool.add_rejected (Or.inr (Or.inr (Or.inr hne)))]
    · rw [World.added, if_neg hnone]

end TypedPool

namespace World

def addTransform (w : World) (e : EntityId) (t : Transform) : Bool × World :=
  ((added w.transforms e t).1, { w with transforms := (added w.transforms e t).2 })

def addVelocity (w : World) (e : EntityId) (v : Velocity) : Bool × World :=
  ((added w.velocities e v).1, { w with velocities := (added w.velocities e v).2 })

def addHealth (w : World) (e : EntityId) (h : Health) : Bool × World :=
  if h.current < 0 ∨ h.maximum < 0 ∨ h.maximum < h.current then (false, w)
  else ((added w.health e h).1, { w with health := (added w.health e h).2 })

def run (w : World) : Op → OpResult × World
  | .tick commands =>
    if w.Accepts commands then (.bool true, w.tickWith (commandRecords commands))
    else (.bool false, w)
  | .destroyDeferred entity => (.bool (w.request entity).1, (w.request entity).2)
  | .create => (.entity w.create.1, w.create.2)
  | .transformAdd entity positionX positionY facing =>
    let r := w.addTransform entity ⟨positionX, positionY, facing⟩
    (.bool r.1, r.2)
  | .velocityAdd entity velocityX velocityY =>
    let r := w.addVelocity entity ⟨velocityX, velocityY⟩
    (.bool r.1, r.2)
  | .healthAdd entity current maximum damageCooldown =>
    let r := w.addHealth entity ⟨current, maximum, damageCooldown⟩
    (.bool r.1, r.2)

theorem added_none {V : Type} {components : EntityId → Option V} {e : EntityId} {v : V}
    (h : components e = none) : (added components e v).1 = true := by
  rw [added, if_pos h]

theorem added_isSome {V : Type} {components : EntityId → Option V} {e : EntityId} {v : V}
    {a : EntityId} (h : (components a).isSome) : ((added components e v).2 a).isSome := by
  unfold added
  split
  · by_cases hae : a = e
    · subst hae
      simp
    · simpa [Function.update_of_ne hae] using h
  · exact h

theorem added_cases {V : Type} {components : EntityId → Option V} {e : EntityId} {v : V}
    {a : EntityId} {u : V} (h : (added components e v).2 a = some u) :
    components a = some u ∨ a = e ∧ u = v := by
  unfold added at h
  split at h
  · by_cases hae : a = e
    · subst hae
      simp only [Function.update_self, Option.some.injEq] at h
      exact Or.inr ⟨rfl, h.symm⟩
    · simp only [Function.update_of_ne hae] at h
      exact Or.inl h
  · exact Or.inl h

end World

namespace SimWorld

variable {w : SimWorld}

theorem LegalInv.alive_index_lt (inv : w.LegalInv) {e : EntityId} (h : w.entities.table.Alive e) :
    handleIndex e.h < w.config.maxEntities.toNat := by
  rw [← inv.core.entities_capacity]
  exact Nat.lt_of_lt_of_le (inv.core.entities.alive_index_lt h) inv.core.entities.fresh_le

theorem LegalInv.validate_iff (inv : w.LegalInv) (commands : Option SimCommandBuffer) :
    simValidateCommands w commands = true ↔ w.abstract.Accepts commands :=
  (inv.core.validate_iff commands).trans (and_iff_right inv.ready)

theorem LegalInv.pending_room (inv : w.LegalInv) {e : EntityId} (he : w.entities.table.Alive e)
    (hnew : e ∉ w.pendingList) : w.pendingDestroyCount < w.config.maxEntities.toNat := by
  have halive : ∀ a ∈ e :: w.pendingList, w.entities.table.Alive a := by
    intro a ha
    rcases List.mem_cons.mp ha with rfl | ha
    · exact he
    · exact inv.ready.pending_alive a ha
  have hnd : ((e :: w.pendingList).map fun a => handleIndex a.h).Nodup := by
    refine List.Nodup.map_on ?_ (List.nodup_cons.mpr ⟨hnew, inv.ready.pending_nodup⟩)
    exact fun a ha b hb hab => (halive a ha).unique (halive b hb) hab
  have hsub : ((e :: w.pendingList).map fun a => handleIndex a.h) ⊆
      List.range w.config.maxEntities.toNat := by
    intro i hi
    obtain ⟨a, ha, rfl⟩ := List.mem_map.mp hi
    exact List.mem_range.mpr (inv.alive_index_lt (halive a ha))
  have hlen := (List.subperm_of_subset hnd hsub).length_le
  simp only [List.length_map, List.length_cons, List.length_range, pendingList_length] at hlen
  exact hlen

theorem pendingList_push (w : SimWorld) (e : EntityId) :
    (List.range (w.pendingDestroyCount + 1)).map
      (Function.update w.pendingDestroy w.pendingDestroyCount e) = w.pendingList ++ [e] := by
  rw [List.range_succ, List.map_append, pendingList]
  congr 1
  · apply List.map_congr_left
    intro k hk
    exact Function.update_of_ne (Nat.ne_of_lt (List.mem_range.mp hk)) _ _
  · simp

theorem mem_pendingList (w : SimWorld) (e : EntityId) : e ∈ w.pendingList ↔
    (List.range w.pendingDestroyCount).any (fun i => decide ((w.pendingDestroy i).h = e.h)) = true := by
  simp only [pendingList, List.mem_map, List.any_eq_true, decide_eq_true_eq, EntityId.h_inj]

def requested (w : SimWorld) (e : EntityId) : SimWorld :=
  { w with
    pendingDestroy := Function.update w.pendingDestroy w.pendingDestroyCount e
    pendingDestroyCount := w.pendingDestroyCount + 1 }

theorem requested_abstract (w : SimWorld) (e : EntityId) :
    (w.requested e).abstract = { w.abstract with pending := w.pendingList ++ [e] } := by
  simp only [abstract, pendingList, requested, pendingList_push]

theorem destroyDeferred_cases (w : SimWorld) (e : EntityId) :
    simDestroyDeferred w e = (true, w.requested e) ∧ simConfigValid w.config = true ∧
        entityManagerIsAlive w.entities e = true ∧ e ∉ w.pendingList ∧
        w.pendingDestroyCount < w.config.maxEntities.toNat ∨
      simDestroyDeferred w e = (false, w) ∧ ¬ (simConfigValid w.config = true ∧
        entityManagerIsAlive w.entities e = true ∧ e ∉ w.pendingList ∧
        w.pendingDestroyCount < w.config.maxEntities.toNat) := by
  unfold simDestroyDeferred
  split
  · next h =>
    simp only [Bool.or_eq_true, Bool.not_eq_true', decide_eq_true_eq] at h
    refine Or.inr ⟨rfl, ?_⟩
    rintro ⟨hconfig, halive, -, hroom⟩
    simp [hconfig, halive, Nat.not_le_of_lt hroom] at h
  · next h =>
    simp only [Bool.or_eq_true, Bool.not_eq_true', decide_eq_true_eq, not_or, Bool.not_eq_false,
      Nat.not_le] at h
    split
    · next hdup =>
      rw [← mem_pendingList] at hdup
      exact Or.inr ⟨rfl, fun hall => hall.2.2.1 hdup⟩
    · next hdup =>
      rw [← mem_pendingList] at hdup
      exact Or.inl ⟨rfl, h.1.1, h.1.2, hdup, h.2⟩

theorem CoreInv.requested (inv : w.CoreInv) (e : EntityId) : (w.requested e).CoreInv :=
  ⟨inv.config, inv.entities, inv.entities_capacity, inv.transforms, inv.velocities, inv.health,
    inv.health_legal, inv.events, inv.events_capacity, inv.units_unused⟩

theorem LegalInv.requested (inv : w.LegalInv) {e : EntityId} (he : w.entities.table.Alive e)
    (hnew : e ∉ w.pendingList) (hroom : w.pendingDestroyCount < w.config.maxEntities.toNat) :
    (w.requested e).LegalInv := by
  have hlist : (w.requested e).pendingList = w.pendingList ++ [e] :=
    congrArg World.pending (requested_abstract w e)
  refine ⟨inv.core.requested e, ⟨inv.ready.reading, inv.ready.writing, inv.ready.units, hroom,
    ?_, ?_⟩, inv.transforms_alive, inv.velocities_alive, inv.health_alive, inv.slots_distinct⟩
  · intro a ha
    rw [hlist, List.mem_append, List.mem_singleton] at ha
    rcases ha with ha | rfl
    · exact inv.ready.pending_alive a ha
    · exact he
  · rw [hlist, List.nodup_append]
    refine ⟨inv.ready.pending_nodup, List.nodup_singleton e, ?_⟩
    rintro a ha b hb rfl
    exact hnew (List.mem_singleton.mp hb ▸ ha)

theorem LegalInv.destroyDeferred (inv : w.LegalInv) (e : EntityId) :
    ∃ u, simDestroyDeferred w e = ((w.abstract.request e).1, u) ∧ u.LegalInv ∧
      u.abstract = (w.abstract.request e).2 := by
  have hrequest : w.entities.table.Alive e ∧ e ∉ w.pendingList ↔
      (simConfigValid w.config = true ∧ entityManagerIsAlive w.entities e = true ∧
        e ∉ w.pendingList ∧ w.pendingDestroyCount < w.config.maxEntities.toNat) := by
    rw [inv.core.alive_iff]
    exact ⟨fun h => ⟨inv.core.config, h.1, h.2, inv.pending_room h.1 h.2⟩, fun h => ⟨h.2.1, h.2.2.1⟩⟩
  rcases w.destroyDeferred_cases e with ⟨hrun, hall⟩ | ⟨hrun, hnot⟩
  · have habs := hrequest.mpr hall
    have hreq : w.abstract.request e = (true, { w.abstract with pending := w.pendingList ++ [e] }) :=
      if_pos habs
    rw [hreq, hrun]
    exact ⟨_, rfl, inv.requested habs.1 habs.2 hall.2.2.2, requested_abstract w e⟩
  · have hreq : w.abstract.request e = (false, w.abstract) := if_neg fun h => hnot (hrequest.mp h)
    rw [hreq, hrun]
    exact ⟨w, rfl, inv, rfl⟩

theorem LegalInv.create (inv : w.LegalInv) :
    (entityManagerCreate w.entities).1 = w.abstract.create.1 ∧
      { w with entities := (entityManagerCreate w.entities).2 }.LegalInv ∧
      ({ w with entities := (entityManagerCreate w.entities).2 } : SimWorld).abstract =
        w.abstract.create.2 := by
  obtain ⟨hid, htable⟩ := inv.core.entities.create_table
  have hkeep : ∀ e, w.entities.table.Alive e → (entityManagerCreate w.entities).2.table.Alive e := by
    intro e he
    rw [htable]
    exact EntityTable.create_alive inv.core.entities.table_free_dead
      inv.core.entities.table_fresh_dead he
  have hcapacity : (entityManagerCreate w.entities).2.capacity = w.config.maxEntities.toNat := by
    rw [← inv.core.entities_capacity]
    exact (congrArg EntityTable.capacity htable).trans (EntityTable.create_capacity _)
  refine ⟨hid, ⟨⟨inv.core.config,
    inv.core.entities.create, hcapacity, inv.core.transforms, inv.core.velocities, inv.core.health,
    inv.core.health_legal, inv.core.events, inv.core.events_capacity, inv.core.units_unused⟩,
    ⟨inv.ready.reading, inv.ready.writing, fun i hi => ?_, inv.ready.pending_le,
      fun e he => hkeep e (inv.ready.pending_alive e he), inv.ready.pending_nodup⟩,
    fun e he => hkeep e (inv.transforms_alive e he),
    fun e he => hkeep e (inv.velocities_alive e he),
    fun e he => hkeep e (inv.health_alive e he), inv.slots_distinct⟩, ?_⟩
  · obtain ⟨hlt, halive, hcomponents⟩ := inv.ready.units i hi
    exact ⟨hlt, hkeep _ halive, hcomponents⟩
  · simp only [abstract, World.create, htable]
    rfl

theorem LegalInv.create_lookup (inv : w.LegalInv)
    (h : (entityManagerCreate w.entities).1 ≠ .null) :
    w.transforms.lookup (entityManagerCreate w.entities).1 = none ∧
      w.velocities.lookup (entityManagerCreate w.entities).1 = none ∧
      w.health.lookup (entityManagerCreate w.entities).1 = none := by
  have hdead : ¬ w.entities.table.Alive (entityManagerCreate w.entities).1 :=
    fun halive => inv.core.entities.create_fresh_index h _ halive rfl
  refine ⟨?_, ?_, ?_⟩
  · rw [← Option.not_isSome_iff_eq_none]
    exact fun hs => hdead (inv.transforms_alive _ hs)
  · rw [← Option.not_isSome_iff_eq_none]
    exact fun hs => hdead (inv.velocities_alive _ hs)
  · rw [← Option.not_isSome_iff_eq_none]
    exact fun hs => hdead (inv.health_alive _ hs)

theorem LegalInv.with_transforms (inv : w.LegalInv) {q : TransformPool} {e : EntityId}
    {t : Transform} (hq : q.Shaped w.config.maxEntities.toNat) (he : w.entities.table.Alive e)
    (hlook : q.lookup = (World.added w.transforms.lookup e t).2) :
    { w with transforms := q }.LegalInv := by
  refine ⟨⟨inv.core.config, inv.core.entities, inv.core.entities_capacity, hq, inv.core.velocities,
    inv.core.health, inv.core.health_legal, inv.core.events, inv.core.events_capacity,
    inv.core.units_unused⟩, ⟨inv.ready.reading, inv.ready.writing, fun i hi => ?_,
    inv.ready.pending_le, inv.ready.pending_alive, inv.ready.pending_nodup⟩, fun a ha => ?_,
    inv.velocities_alive, inv.health_alive, inv.slots_distinct⟩
  · obtain ⟨hlt, halive, htr, hrest⟩ := inv.ready.units i hi
    refine ⟨hlt, halive, ?_, hrest⟩
    simp only [hlook]
    exact World.added_isSome htr
  · simp only [hlook] at ha
    obtain ⟨u, hu⟩ := Option.isSome_iff_exists.mp ha
    rcases World.added_cases hu with hold | ⟨rfl, -⟩
    · exact inv.transforms_alive a (by rw [hold]; rfl)
    · exact he

theorem LegalInv.with_velocities (inv : w.LegalInv) {q : VelocityPool} {e : EntityId}
    {v : Velocity} (hq : q.Shaped w.config.maxEntities.toNat) (he : w.entities.table.Alive e)
    (hlook : q.lookup = (World.added w.velocities.lookup e v).2) :
    { w with velocities := q }.LegalInv := by
  refine ⟨⟨inv.core.config, inv.core.entities, inv.core.entities_capacity, inv.core.transforms, hq,
    inv.core.health, inv.core.health_legal, inv.core.events, inv.core.events_capacity,
    inv.core.units_unused⟩, ⟨inv.ready.reading, inv.ready.writing, fun i hi => ?_,
    inv.ready.pending_le, inv.ready.pending_alive, inv.ready.pending_nodup⟩,
    inv.transforms_alive, fun a ha => ?_, inv.health_alive, inv.slots_distinct⟩
  · obtain ⟨hlt, halive, htr, hvel, hhealth⟩ := inv.ready.units i hi
    refine ⟨hlt, halive, htr, ?_, hhealth⟩
    simp only [hlook]
    exact World.added_isSome hvel
  · simp only [hlook] at ha
    obtain ⟨u, hu⟩ := Option.isSome_iff_exists.mp ha
    rcases World.added_cases hu with hold | ⟨rfl, -⟩
    · exact inv.velocities_alive a (by rw [hold]; rfl)
    · exact he

theorem LegalInv.with_health (inv : w.LegalInv) {q : HealthPool} {e : EntityId} {h : Health}
    (hq : q.Shaped w.config.maxEntities.toNat) (he : w.entities.table.Alive e)
    (hlook : q.lookup = (World.added w.health.lookup e h).2)
    (hlegal : 0 ≤ h.current ∧ h.current ≤ h.maximum) : { w with health := q }.LegalInv := by
  refine ⟨inv.core.with_health hq fun a v hv => ?_, ⟨inv.ready.reading, inv.ready.writing,
    fun i hi => ?_, inv.ready.pending_le, inv.ready.pending_alive, inv.ready.pending_nodup⟩,
    inv.transforms_alive, inv.velocities_alive, fun a ha => ?_, inv.slots_distinct⟩
  · rw [hlook] at hv
    rcases World.added_cases hv with hold | ⟨-, rfl⟩
    · exact inv.core.health_legal a v hold
    · exact hlegal
  · obtain ⟨hlt, halive, htr, hvel, hhealth⟩ := inv.ready.units i hi
    refine ⟨hlt, halive, htr, hvel, ?_⟩
    simp only [hlook]
    exact World.added_isSome hhealth
  · simp only [hlook] at ha
    obtain ⟨u, hu⟩ := Option.isSome_iff_exists.mp ha
    rcases World.added_cases hu with hold | ⟨rfl, -⟩
    · exact inv.health_alive a (by rw [hold]; rfl)
    · exact he

theorem LegalInv.transformAdd (inv : w.LegalInv) {e : EntityId} (he : w.entities.table.Alive e)
    (t : Transform) : ∃ q, typedPoolAdd w.transforms e t = ((w.abstract.addTransform e t).1, q) ∧
      { w with transforms := q }.LegalInv ∧
      ({ w with transforms := q } : SimWorld).abstract = (w.abstract.addTransform e t).2 := by
  obtain ⟨q, hq, hshape, hlook⟩ := inv.core.transforms.add_alive inv.transforms_alive he
    (inv.alive_index_lt he) t
  refine ⟨q, hq, inv.with_transforms hshape he hlook, ?_⟩
  simp only [abstract, World.addTransform, hlook]
  rfl

theorem LegalInv.velocityAdd (inv : w.LegalInv) {e : EntityId} (he : w.entities.table.Alive e)
    (v : Velocity) : ∃ q, typedPoolAdd w.velocities e v = ((w.abstract.addVelocity e v).1, q) ∧
      { w with velocities := q }.LegalInv ∧
      ({ w with velocities := q } : SimWorld).abstract = (w.abstract.addVelocity e v).2 := by
  obtain ⟨q, hq, hshape, hlook⟩ := inv.core.velocities.add_alive inv.velocities_alive he
    (inv.alive_index_lt he) v
  refine ⟨q, hq, inv.with_velocities hshape he hlook, ?_⟩
  simp only [abstract, World.addVelocity, hlook]
  rfl

theorem LegalInv.healthAdd (inv : w.LegalInv) {e : EntityId} (he : w.entities.table.Alive e)
    (current maximum : Int32) (cooldown : UInt32) :
    ∃ q, healthPoolAdd w.health e current maximum cooldown =
        ((w.abstract.addHealth e ⟨current, maximum, cooldown⟩).1, q) ∧
      { w with health := q }.LegalInv ∧ ({ w with health := q } : SimWorld).abstract =
        (w.abstract.addHealth e ⟨current, maximum, cooldown⟩).2 := by
  by_cases hbad : current < 0 ∨ maximum < 0 ∨ maximum < current
  · refine ⟨w.health, ?_, inv, ?_⟩
    · simp only [healthPoolAdd, World.addHealth, if_pos hbad]
    · simp only [World.addHealth, if_pos hbad]
  · obtain ⟨q, hq, hshape, hlook⟩ := inv.core.health.add_alive inv.health_alive he
      (inv.alive_index_lt he) ⟨current, maximum, cooldown⟩
    have hlegal : 0 ≤ current ∧ current ≤ maximum := by
      simp only [not_or, Int32.not_lt] at hbad
      exact ⟨hbad.1, hbad.2.2⟩
    refine ⟨q, ?_, inv.with_health hshape he hlook hlegal, ?_⟩
    · simp only [healthPoolAdd, World.addHealth, if_neg hbad]
      exact hq
    · simp only [abstract, World.addHealth, if_neg hbad, hlook]
      rfl

end SimWorld

end ChoonzMoba
