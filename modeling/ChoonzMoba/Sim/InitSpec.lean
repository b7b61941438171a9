import ChoonzMoba.Sim.Runs

namespace ChoonzMoba

theorem Initialized.andThen_some {α β : Type} {first : Initialized α}
    {next : Arena → α → Initialized β} {arena : Arena} {b : β}
    (h : first.andThen next = some (arena, some b)) :
    ∃ staged a, first = some (staged, some a) ∧ next staged a = some (arena, some b) := by
  match first, h with
  | some (staged, some a), h => exact ⟨staged, a, rfl, h⟩

theorem entityManagerInit_some {arena pushed : Arena} {capacity : Nat} {m : EntityManager}
    (h : entityManagerInit arena capacity = some (pushed, some m)) : m = .zeroed capacity := by
  simp only [entityManagerInit] at h
  split at h
  · cases h
  · split at h
    · cases h
    · obtain ⟨a, -, ha⟩ := Option.map_eq_some_iff.mp h
      exact (Option.some.inj (congrArg Prod.snd ha)).symm

theorem componentPoolInit_some {arena pushed : Arena} {entityCapacity capacity : Nat}
    {p : ComponentPool}
    (h : componentPoolInit arena entityCapacity capacity = some (pushed, some p)) :
    p = .zeroed entityCapacity capacity := by
  simp only [componentPoolInit] at h
  split at h
  · cases h
  · split at h
    · cases h
    · obtain ⟨a, -, ha⟩ := Option.map_eq_some_iff.mp h
      exact (Option.some.inj (congrArg Prod.snd ha)).symm

theorem typedPoolInit_some {V : Type} [Zero V] {arena pushed : Arena}
    {entityCapacity capacity required arrayCount elementSize elementAlignment : Nat}
    {p : TypedPool V}
    (h : typedPoolInit V arena entityCapacity capacity required arrayCount elementSize
      elementAlignment = some (pushed, some p)) : p = .zeroed entityCapacity capacity := by
  unfold typedPoolInit at h
  split at h
  · cases h
  · split at h
    · cases h
    · cases h
    · next staged membership hpool =>
      obtain ⟨a, -, ha⟩ := Option.map_eq_some_iff.mp h
      rw [componentPoolInit_some hpool] at ha
      exact (Option.some.inj (congrArg Prod.snd ha)).symm

theorem damageEventQueueInit_some {arena pushed : Arena} {capacity : Nat} {q : DamageEventQueue}
    (h : damageEventQueueInit arena capacity = some (pushed, some q)) : q = .zeroed capacity := by
  simp only [damageEventQueueInit] at h
  split at h
  · cases h
  · split at h
    · cases h
    · obtain ⟨a, -, ha⟩ := Option.map_eq_some_iff.mp h
      exact (Option.some.inj (congrArg Prod.snd ha)).symm

def SimWorld.empty (seed : UInt64) (config : SimWorldConfig) : SimWorld :=
  let capacity := config.maxEntities.toNat
  .staged seed config (.zeroed capacity) (.zeroed capacity capacity) (.zeroed capacity capacity)
    (.zeroed capacity capacity) (.zeroed config.damageEventCapacity.toNat)

theorem simInitPools_some {arena pushed : Arena} {seed : UInt64} {config : SimWorldConfig}
    {w : SimWorld} (h : simInitPools arena seed config = some (pushed, some w)) :
    w = .empty seed config := by
  obtain ⟨a1, entities, hentities, h⟩ := Initialized.andThen_some h
  obtain ⟨a2, transforms, htransforms, h⟩ := Initialized.andThen_some h
  obtain ⟨a3, velocities, hvelocities, h⟩ := Initialized.andThen_some h
  obtain ⟨a4, health, hhealth, h⟩ := Initialized.andThen_some h
  obtain ⟨a5, damageEvents, hevents, h⟩ := Initialized.andThen_some h
  rw [entityManagerInit_some hentities, typedPoolInit_some htransforms,
    typedPoolInit_some hvelocities, typedPoolInit_some hhealth,
    damageEventQueueInit_some hevents] at h
  exact (Option.some.inj (congrArg Prod.snd (Option.some.inj h))).symm

theorem simWorldMemoryRequired_config {config : SimWorldConfig}
    (h : simWorldMemoryRequired config ≠ 0) : simConfigValid config = true := by
  by_contra hc
  simp [simWorldMemoryRequired, hc] at h

theorem simInit_some {arena pushed : Arena} {seed : UInt64} {config : SimWorldConfig}
    {w : SimWorld} (h : simInit arena seed config = some (pushed, some w)) :
    simConfigValid config = true ∧
      Loop.forRangeM config.initialUnitCount.toNat simInitUnit (.empty seed config) = some w := by
  simp only [simInit] at h
  split at h
  · cases h
  · next hguard =>
    simp only [not_or] at hguard
    refine ⟨simWorldMemoryRequired_config hguard.2.2.1, ?_⟩
    split at h
    · cases h
    · cases h
    · next staged world hpools =>
      split at h
      · cases h
      · split at h
        · cases h
        · next loop hloop =>
          rw [simInitPools_some hpools] at hloop
          rw [hloop]
          exact congrArg Prod.snd (Option.some.inj h)

namespace SimWorld

variable {w : SimWorld} {config : SimWorldConfig}

theorem config_bounds (h : simConfigValid config = true) :
    0 < config.maxEntities.toNat ∧ config.maxEntities.toNat ≤ 2 ^ 18 ∧
      config.initialUnitCount.toNat ≤ simMaxUnits ∧
      config.initialUnitCount.toNat ≤ config.maxEntities.toNat ∧
      0 < config.damageEventCapacity.toNat := by
  simpa [simConfigValid, and_assoc] using h

theorem zeroed_shaped {V : Type} [Zero V] {n : Nat} (h : n ≤ 2 ^ 18) :
    (TypedPool.zeroed n n : TypedPool V).Shaped n :=
  ⟨ComponentPool.Inv.zeroed h (Nat.le_refl n), rfl, rfl⟩

theorem zeroed_lookup {V : Type} [Zero V] (n : Nat) (e : EntityId) :
    (TypedPool.zeroed n n : TypedPool V).lookup e = none := by
  simp [TypedPool.lookup, TypedPool.zeroed, componentPoolHas, ComponentPool.zeroed]

structure Populated (seed : UInt64) (config : SimWorldConfig) (n : Nat) (w : SimWorld) : Prop where
  legal : w.LegalInv
  config_eq : w.config = config
  tick : w.tick = 0
  rng : w.rng = pcg32Seed seed 1
  pending : w.pendingDestroyCount = 0
  free : w.entities.table.free = []
  fresh : w.entities.table.fresh = n
  units : ∀ i, w.unitEntities i ≠ .null ↔ i < n

theorem empty_populated (seed : UInt64) (h : simConfigValid config = true) :
    Populated seed config 0 (empty seed config) := by
  obtain ⟨-, hmax, -, -, hevents⟩ := config_bounds h
  refine ⟨⟨⟨h, EntityManager.Inv.zeroed hmax, rfl, zeroed_shaped hmax, zeroed_shaped hmax,
    zeroed_shaped hmax, ?_, DamageEventQueue.Valid.zeroed hevents, rfl, fun _ _ => rfl⟩,
    ⟨rfl, rfl, fun i hi => absurd rfl hi, Nat.zero_le _, ?_, List.nodup_nil⟩, ?_, ?_, ?_,
    fun i _ hi => absurd rfl hi⟩, rfl, rfl, rfl, rfl, rfl, rfl, fun i => ?_⟩
  · intro e v hv
    rw [show (empty seed config).health.lookup e = none from zeroed_lookup _ e] at hv
    cases hv
  · intro e he
    cases he
  · intro e he
    rw [show (empty seed config).transforms.lookup e = none from zeroed_lookup _ e] at he
    cases he
  · intro e he
    rw [show (empty seed config).velocities.lookup e = none from zeroed_lookup _ e] at he
    cases he
  · intro e he
    rw [show (empty seed config).health.lookup e = none from zeroed_lookup _ e] at he
    cases he
  · exact ⟨fun hi => absurd rfl hi, fun hi => absurd hi (Nat.not_lt_zero i)⟩

theorem LegalInv.with_unit (inv : w.LegalInv) {i : Nat} {e : EntityId}
    (hi : i < w.config.initialUnitCount.toNat) (halive : w.entities.table.Alive e)
    (ht : (w.transforms.lookup e).isSome) (hv : (w.velocities.lookup e).isSome)
    (hh : (w.health.lookup e).isSome) (hnew : ∀ k, w.unitEntities k ≠ e) :
    { w with unitEntities := Function.update w.unitEntities i e }.LegalInv := by
  obtain ⟨-, -, hunits, -, -⟩ := config_bounds inv.core.config
  refine ⟨⟨inv.core.config, inv.core.entities, inv.core.entities_capacity, inv.core.transforms,
    inv.core.velocities, inv.core.health, inv.core.health_legal, inv.core.events,
    inv.core.events_capacity, fun k hk => ?_⟩, ⟨inv.ready.reading, inv.ready.writing,
    fun k hk => ?_, inv.ready.pending_le, inv.ready.pending_alive, inv.ready.pending_nodup⟩,
    inv.transforms_alive, inv.velocities_alive, inv.health_alive, fun k j hk hkj => ?_⟩
  · have hki : k ≠ i := Nat.ne_of_gt (Nat.lt_of_lt_of_le hi (Nat.le_trans hunits hk))
    simp only [Function.update_of_ne hki]
    exact inv.core.units_unused k hk
  · by_cases hki : k = i
    · subst hki
      simp only [Function.update_self]
      exact ⟨hi, halive, ht, hv, hh⟩
    · simp only [Function.update_of_ne hki] at hk ⊢
      exact inv.ready.units k hk
  · by_cases hki : k = i
    · by_cases hji : j = i
      · rw [hki, hji]
      · subst hki
        simp only [Function.update_self, Function.update_of_ne hji] at hkj
        exact absurd hkj.symm (hnew j)
    · by_cases hji : j = i
      · subst hji
        simp only [Function.update_self, Function.update_of_ne hki] at hkj
        exact absurd hkj (hnew k)
      · simp only [Function.update_of_ne hki, Function.update_of_ne hji] at hk hkj
        exact inv.slots_distinct k j hk hkj

theorem create_append {t : EntityTable} (hfree : t.free = []) (hroom : t.fresh < t.capacity) :
    t.create.2.free = [] ∧ t.create.2.fresh = t.fresh + 1 := by
  simp only [EntityTable.create, hfree, if_pos hroom]
  exact ⟨rfl, rfl⟩

theorem Populated.unit {seed : UInt64} {n : Nat} (h : Populated seed config n w)
    (hn : n < config.initialUnitCount.toNat) :
    ∃ u, simInitUnit w n = some u ∧ Populated seed config (n + 1) u := by
  have hcore := h.legal.core
  have hbound := config_bounds hcore.config
  rw [h.config_eq] at hbound
  have hroom : w.entities.nextFresh < w.entities.capacity := by
    rw [hcore.entities_capacity, h.config_eq, show w.entities.nextFresh = n from h.fresh]
    omega
  have hne := hcore.entities.create_ne_null hroom
  obtain ⟨htr, hvel, hhealth⟩ := h.legal.create_lookup hne
  have halive := hcore.entities.create_alive hne
  have hnew : ∀ k, w.unitEntities k ≠ (entityManagerCreate w.entities).1 := by
    intro k hk
    have hslot := (h.legal.ready.units k (hk ▸ hne)).2.1
    exact hcore.entities.create_fresh_index hne _ hslot (by rw [hk])
  obtain ⟨hfree, hfresh⟩ := create_append h.free hroom
  rw [← hcore.entities.create_table.2] at hfree hfresh
  obtain ⟨-, inv1, -⟩ := h.legal.create
  generalize hcreated : entityManagerCreate w.entities = created at *
  let t : Transform := ⟨fixFromInt (Int32.ofNat (n % 8) - 4), fixFromInt (Int32.ofNat (n / 8) - 4), 0⟩
  obtain ⟨q1, hq1, inv2, habs2⟩ := inv1.transformAdd halive t
  obtain ⟨q2, hq2, inv3, habs3⟩ := inv2.velocityAdd halive ⟨0, 0⟩
  obtain ⟨q3, hq3, inv4, habs4⟩ := inv3.healthAdd halive 100 100 0
  have hlook1 : q1.lookup = Function.update w.transforms.lookup created.1 (some t) := by
    have := congrArg World.transforms habs2
    simpa [World.addTransform, World.added, abstract, htr] using this
  have hlook2 : q2.lookup = Function.update w.velocities.lookup created.1 (some ⟨0, 0⟩) := by
    have := congrArg World.velocities habs3
    simpa [World.addVelocity, World.added, abstract, hvel] using this
  have hlook3 : q3.lookup = Function.update w.health.lookup created.1 (some ⟨100, 100, 0⟩) := by
    have := congrArg World.health habs4
    simpa [World.addHealth, World.added, abstract, hhealth] using this
  have hok1 : typedPoolAdd w.transforms created.1 t = (true, q1) := by
    simpa [World.addTransform, World.added, abstract, htr] using hq1
  have hok2 : typedPoolAdd w.velocities created.1 ⟨0, 0⟩ = (true, q2) := by
    simpa [World.addVelocity, World.added, abstract, hvel] using hq2
  have hok3 : healthPoolAdd w.health created.1 100 100 0 = (true, q3) := by
    simpa [World.addHealth, World.added, abstract, hhealth] using hq3
  refine ⟨_, ?_, inv4.with_unit (i := n) (e := created.1) ?_ halive ?_ ?_ ?_ hnew, h.config_eq,
    h.tick, h.rng, h.pending, hfree, hfresh.trans (congrArg (· + 1) h.fresh), fun i => ?_⟩
  · have hnull : created.1.h ≠ handleNull := fun hc => hne ((EntityId.h_eq_null _).mp hc)
    simp only [simInitUnit, transformPoolAdd, velocityPoolAdd, hcreated, hnull,
      show typedPoolAdd w.transforms created.1 ⟨_, _, 0⟩ = (true, q1) from hok1, hok2, hok3]
    rfl
  · rw [h.config_eq]
    exact hn
  · simp [hlook1]
  · simp [hlook2]
  · simp [hlook3]
  · by_cases hi : i = n
    · subst hi
      simpa using hne
    · simp only [Function.update_of_ne hi, h.units i]
      omega

theorem init_populated (seed : UInt64) (h : simConfigValid config = true) :
    ∃ u, Loop.forRangeM config.initialUnitCount.toNat simInitUnit (empty seed config) = some u ∧
      Populated seed config config.initialUnitCount.toNat u :=
  Loop.forRangeM_total (fun n w => Populated seed config n w) (empty_populated seed h)
    fun _ _ hi hp => hp.unit hi

theorem populated_of_init {arena pushed : Arena} {seed : UInt64}
    (h : simInit arena seed config = some (pushed, some w)) :
    Populated seed config config.initialUnitCount.toNat w := by
  obtain ⟨hconfig, hloop⟩ := simInit_some h
  obtain ⟨u, hu, hpop⟩ := init_populated seed hconfig
  rw [hloop] at hu
  cases hu
  exact hpop

theorem Started.legal (h : w.Started) : w.LegalInv := by
  obtain ⟨arena, seed, config, pushed, hinit⟩ := h
  exact (populated_of_init hinit).legal

theorem legalInv_invariant : legalRuns.Invariant LegalInv where
  initial _ h := h.legal
  next := by
    rintro w op u inv ⟨legal, r, hrun⟩
    obtain ⟨v, hv, hinv, -⟩ := inv.run legal
    rw [hrun] at hv
    cases hv
    exact hinv

theorem reachable_legal (h : legalRuns.Reachable w) : w.LegalInv :=
  legalInv_invariant.reachable h

end SimWorld

end ChoonzMoba
