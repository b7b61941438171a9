import ChoonzMoba.Library.Machine
import ChoonzMoba.Sim.DiffSpec
import ChoonzMoba.Sim.Safety

namespace ChoonzMoba

theorem diffAt_eq_none {field : SimStateField} {i x y : Nat} :
    diffAt field i x y = none ↔ x = y := by
  simp [diffAt]

theorem diffScalar_eq_none {field : SimStateField} {x y : Nat} :
    diffScalar field x y = none ↔ x = y :=
  diffAt_eq_none

theorem diffLoop_eq_none {n : Nat} {f : Nat → Option SimStateDiff} :
    diffLoop n f = none ↔ ∀ i < n, f i = none := by
  simp [diffLoop]

theorem diffOr_eq_none {r s : Option SimStateDiff} : (r <|> s) = none ↔ r = none ∧ s = none := by
  cases r <;> simp

theorem i32Bits_inj {a b : Int32} : i32Bits a = i32Bits b ↔ a = b := by
  constructor
  · intro h
    simpa [i32Bits] using congrArg UInt32.toInt32 h
  · rintro rfl
    rfl

theorem diffDamageEventRecord_eq_none {fields : DamageEventFields} {e a : DamageEvent}
    {ordinal : Nat} : diffDamageEventRecord e a ordinal fields = none ↔ e = a := by
  simp only [diffDamageEventRecord, diffOr_eq_none, diffAt_eq_none, UInt32.toNat_inj,
    EntityId.h_inj, i32Bits_inj]
  cases e; cases a
  simp

theorem map_range_eq_iff {α : Type} {m n : Nat} {f g : Nat → α} :
    (List.range m).map f = (List.range n).map g ↔ m = n ∧ ∀ i < m, f i = g i := by
  constructor
  · intro h
    have hlen : m = n := by simpa using congrArg List.length h
    subst hlen
    exact ⟨rfl, fun i hi => List.map_inj_left.mp h i (List.mem_range.mpr hi)⟩
  · rintro ⟨rfl, h⟩
    exact List.map_inj_left.mpr fun i hi => h i (List.mem_range.mp hi)

theorem diffDamagePhase_eq_none {fields : DamageEventFields} {e a : DamageEventQueue} {i j : Nat} :
    diffDamagePhase fields e a i j = none ↔
      (List.range (e.counts i)).map (e.buffers i) = (List.range (a.counts j)).map (a.buffers j) := by
  rw [diffDamagePhase, diffOr_eq_none, diffScalar_eq_none, diffLoop_eq_none, map_range_eq_iff]
  simp only [diffDamageEventRecord_eq_none]

theorem diffTransformRecord_eq_none {index : Nat} {e a : Transform} :
    (diffAt .positionX index (i32Bits e.positionX).toNat (i32Bits a.positionX).toNat <|>
      diffAt .positionY index (i32Bits e.positionY).toNat (i32Bits a.positionY).toNat <|>
      diffAt .facing index (i32Bits e.facing).toNat (i32Bits a.facing).toNat) = none ↔ e = a := by
  simp only [diffOr_eq_none, diffAt_eq_none, UInt32.toNat_inj, i32Bits_inj]
  cases e; cases a
  simp

theorem diffVelocityRecord_eq_none {index : Nat} {e a : Velocity} :
    (diffAt .velocityX index (i32Bits e.velocityX).toNat (i32Bits a.velocityX).toNat <|>
      diffAt .velocityY index (i32Bits e.velocityY).toNat (i32Bits a.velocityY).toNat) = none ↔
      e = a := by
  simp only [diffOr_eq_none, diffAt_eq_none, UInt32.toNat_inj, i32Bits_inj]
  cases e; cases a
  simp

theorem diffHealthRecord_eq_none {index : Nat} {e a : Health} :
    (diffAt .healthCurrent index (i32Bits e.current).toNat (i32Bits a.current).toNat <|>
      diffAt .healthMaximum index (i32Bits e.maximum).toNat (i32Bits a.maximum).toNat <|>
      diffAt .damageCooldown index e.damageCooldown.toNat a.damageCooldown.toNat) = none ↔
      e = a := by
  simp only [diffOr_eq_none, diffAt_eq_none, UInt32.toNat_inj, i32Bits_inj]
  cases e; cases a
  simp

namespace EntityManager

variable {m : EntityManager}

theorem Inv.entityAt_index (inv : m.Inv) {i : Nat} (hi : i < m.nextFresh) :
    handleIndex (entityAt m i).h = i :=
  handleIndex_make (Nat.lt_of_lt_of_le hi (Nat.le_trans inv.fresh_le inv.capacity_le))
    (inv.generation i hi).2

theorem Inv.eq_entityAt {e : EntityId} (_ : m.Inv) (h : m.table.Alive e) :
    e = entityAt m (handleIndex e.h) := by
  have hgen : m.generations (handleIndex e.h) = handleGen e.h := h.2.2
  rw [entityAt, hgen, handleMake_index_gen]

end EntityManager

namespace TypedPool

variable {V : Type} {p q : TypedPool V} {n k : Nat}

theorem lookup_eq_some_iff (h : p.membership.Inv) {e : EntityId} {v : V} :
    p.lookup e = some v ↔ typedPoolHas p e = true ∧
      p.values (componentPoolDenseIndex p.membership e) = v := by
  constructor
  · intro hv
    have hholds := (lookup_ne_none h e).mp (by rw [hv]; simp)
    rw [lookup_of_holds h hholds] at hv
    rw [h.denseIndex hholds]
    exact ⟨(h.has_iff e).mpr hholds, Option.some.inj hv⟩
  · rintro ⟨hhas, rfl⟩
    have hholds := (h.has_iff e).mp hhas
    rw [lookup_of_holds h hholds, h.denseIndex hholds]

theorem lookup_eq_iff (hp : p.membership.Inv) (hq : q.membership.Inv) (e : EntityId) :
    p.lookup e = q.lookup e ↔ typedPoolHas p e = typedPoolHas q e ∧ (typedPoolHas p e = true →
      p.values (componentPoolDenseIndex p.membership e) =
        q.values (componentPoolDenseIndex q.membership e)) := by
  rw [has_eq_isSome, has_eq_isSome]
  constructor
  · intro h
    refine ⟨by rw [h], fun hsome => ?_⟩
    obtain ⟨v, hv⟩ := Option.isSome_iff_exists.mp hsome
    rw [((lookup_eq_some_iff hp).mp hv).2, ((lookup_eq_some_iff hq).mp (h ▸ hv)).2]
  · rintro ⟨hhas, hvalues⟩
    cases hv : p.lookup e with
    | none =>
      rw [hv] at hhas
      exact (Option.not_isSome_iff_eq_none.mp (by rw [← hhas]; simp)).symm
    | some v =>
      obtain ⟨hp', rfl⟩ := (lookup_eq_some_iff hp).mp hv
      refine ((lookup_eq_some_iff hq).mpr ⟨?_, (hvalues (by rw [hv]; rfl)).symm⟩).symm
      rw [has_eq_isSome, ← hhas, hv]
      rfl

theorem sparse_iff (h : p.Shaped n) {m : EntityManager} (hm : m.Inv)
    (halive : ∀ e, (p.lookup e).isSome → m.table.Alive e) {i : Nat} (hi : i < m.nextFresh) :
    p.membership.sparse i ≠ 0 ↔ (p.lookup (entityAt m i)).isSome := by
  constructor
  · intro hs
    have hidx := (h.inv.sparse i hs).2
    have hholds : p.membership.Holds (p.membership.denseOf i) :=
      ⟨by rwa [hidx], by rw [hidx]⟩
    have hsome := (lookup_isSome h.inv _).mpr hholds
    rwa [hm.eq_entityAt (halive _ hsome), hidx] at hsome
  · intro hsome
    have hs := ((lookup_isSome h.inv _).mp hsome).1
    rwa [hm.entityAt_index hi] at hs

theorem count_eq (h : p.Shaped n) {m : EntityManager} (hm : m.Inv)
    (halive : ∀ e, (p.lookup e).isSome → m.table.Alive e) : p.membership.count =
      ((List.range m.nextFresh).filter fun i => (p.lookup (entityAt m i)).isSome).length := by
  have hbelow : ∀ i, p.membership.sparse i ≠ 0 → i < m.nextFresh := by
    intro i hs
    have hidx := (h.inv.sparse i hs).2
    have hholds : p.membership.Holds (p.membership.denseOf i) := ⟨by rwa [hidx], by rw [hidx]⟩
    have hlt := hm.alive_index_lt (halive _ ((lookup_isSome h.inv _).mpr hholds))
    rwa [hidx] at hlt
  rw [← h.inv.indices_length_of hbelow, ComponentPool.indicesBelow]
  congr 1
  apply List.filter_congr
  intro i hi
  rw [Bool.eq_iff_iff, decide_eq_true_eq]
  exact sparse_iff h hm halive (List.mem_range.mp hi)

theorem diff_eq_none_iff {count entity : SimStateField} {record : Nat → V → V → Option SimStateDiff}
    (hrecord : ∀ i e a, record i e a = none ↔ e = a) {a b : SimWorld}
    (hp : p.Shaped n) (hq : q.Shaped k) (ha : a.entities.Inv) (hb : b.entities.Inv)
    (hpalive : ∀ e, (p.lookup e).isSome → a.entities.table.Alive e)
    (hqalive : ∀ e, (q.lookup e).isSome → b.entities.table.Alive e)
    (htable : a.entities.table = b.entities.table) :
    diffComponents count entity record a b p q = none ↔ p.lookup = q.lookup := by
  have hfresh : a.entities.nextFresh = b.entities.nextFresh := congrArg EntityTable.fresh htable
  have hgen : a.entities.generations = b.entities.generations :=
    congrArg EntityTable.generation htable
  have hat : ∀ i, entityAt b.entities i = entityAt a.entities i := by
    intro i
    rw [entityAt, entityAt, hgen]
  have hstep : diffComponents count entity record a b p q = none ↔
      p.membership.count = q.membership.count ∧ ∀ i < a.entities.nextFresh,
        p.lookup (entityAt a.entities i) = q.lookup (entityAt a.entities i) := by
    rw [diffComponents, diffOr_eq_none, diffScalar_eq_none, diffLoop_eq_none]
    refine and_congr_right fun _ => forall_congr' fun i => imp_congr_right fun _ => ?_
    rw [hat i, lookup_eq_iff hp.inv hq.inv]
    dsimp only
    cases typedPoolHas p (entityAt a.entities i) <;> cases typedPoolHas q (entityAt a.entities i) <;>
      simp [hrecord]
  rw [hstep]
  constructor
  · rintro ⟨-, hall⟩
    funext e
    by_cases he : a.entities.table.Alive e
    · have hlook := hall _ (ha.alive_index_lt he)
      rwa [← ha.eq_entityAt he] at hlook
    · have hnone : p.lookup e = none :=
        Option.not_isSome_iff_eq_none.mp fun hs => he (hpalive e hs)
      have hnone' : q.lookup e = none :=
        Option.not_isSome_iff_eq_none.mp fun hs => he (htable ▸ hqalive e hs)
      rw [hnone, hnone']
  · intro hlook
    refine ⟨?_, fun i _ => by rw [hlook]⟩
    rw [count_eq hp ha hpalive, count_eq hq hb hqalive, hlook, hfresh]
    simp only [hat]

end TypedPool

namespace EntityManager

variable {m k : EntityManager}

theorem freeList_eq_iff : m.table.free = k.table.free ↔
    m.freeCount = k.freeCount ∧ ∀ i < m.freeCount, m.freeStack i = k.freeStack i := by
  rw [table, table, List.reverse_inj]
  exact map_range_eq_iff

theorem Inv.live_eq_iff (hm : m.Inv) (hk : k.Inv) (i : Nat) :
    m.table.live i = k.table.live i ↔ m.liveness i = k.liveness i := by
  have h1 := hm.liveness i
  have h2 := hk.liveness i
  simp only [table, ne_eq, decide_not, Bool.not_eq_eq_eq_not, Bool.not_not, decide_eq_decide]
  omega

theorem Inv.table_eq_iff (hm : m.Inv) (hk : k.Inv) : m.table = k.table ↔
    m.capacity = k.capacity ∧ m.liveCount = k.liveCount ∧ m.nextFresh = k.nextFresh ∧
      m.freeCount = k.freeCount ∧ (∀ i < m.nextFresh, m.generations i = k.generations i) ∧
      (∀ i < m.nextFresh, m.liveness i = k.liveness i) ∧
      ∀ i < m.freeCount, m.freeStack i = k.freeStack i := by
  constructor
  · intro h
    have hfree := freeList_eq_iff.mp (congrArg EntityTable.free h)
    have hfresh : m.nextFresh = k.nextFresh := congrArg EntityTable.fresh h
    have hcm := hm.counts
    have hck := hk.counts
    refine ⟨congrArg EntityTable.capacity h, by omega, hfresh, hfree.1, fun i _ => ?_, fun i _ => ?_,
      hfree.2⟩
    · exact congrFun (congrArg EntityTable.generation h) i
    · exact (hm.live_eq_iff hk i).mp (congrFun (congrArg EntityTable.live h) i)
  · rintro ⟨hcap, -, hfresh, hcount, hgen, hlive, hstack⟩
    refine EntityTable.ext hcap hfresh ?_ ?_ (freeList_eq_iff.mpr ⟨hcount, hstack⟩)
    · funext i
      rcases Nat.lt_or_ge i m.nextFresh with hi | hi
      · exact hgen i hi
      · exact (hm.unissued i hi).1.trans (hk.unissued i (hfresh ▸ hi)).1.symm
    · funext i
      rw [hm.live_eq_iff hk]
      rcases Nat.lt_or_ge i m.nextFresh with hi | hi
      · exact hlive i hi
      · exact (hm.unissued i hi).2.trans (hk.unissued i (hfresh ▸ hi)).2.symm

end EntityManager

namespace SimWorld

variable {a b : SimWorld}

theorem units_eq_iff (ha : a.CoreInv) (hb : b.CoreInv) :
    (∀ i < simMaxUnits, a.unitEntities i = b.unitEntities i) ↔ a.unitEntities = b.unitEntities := by
  constructor
  · intro h
    funext i
    rcases Nat.lt_or_ge i simMaxUnits with hi | hi
    · exact h i hi
    · rw [ha.units_unused i hi, hb.units_unused i hi]
  · intro h i _
    rw [h]

theorem config_eq_iff {c d : SimWorldConfig} : c = d ↔
    c.maxEntities = d.maxEntities ∧ c.initialUnitCount = d.initialUnitCount ∧
      c.damageEventCapacity = d.damageEventCapacity := by
  cases c; cases d
  simp

theorem rng_eq_iff {r s : Pcg32} : r = s ↔ r.state = s.state ∧ r.inc = s.inc := by
  cases r; cases s
  simp

theorem diffDamageEvents_eq_none : diffDamageEvents a b = none ↔
    a.damageEvents.readList = b.damageEvents.readList ∧
      a.damageEvents.writeList = b.damageEvents.writeList := by
  rw [diffDamageEvents, diffOr_eq_none, diffDamagePhase_eq_none, diffDamagePhase_eq_none]
  rfl

theorem LegalInv.diff_eq_none_iff (ha : a.LegalInv) (hb : b.LegalInv) :
    diffWorld a b = none ↔ a.abstract = b.abstract := by
  have htable := ha.core.entities.table_eq_iff hb.core.entities
  have htr : a.entities.table = b.entities.table → (diffTransform a b = none ↔ _) :=
    TypedPool.diff_eq_none_iff (fun _ _ _ => diffTransformRecord_eq_none)
      ha.core.transforms hb.core.transforms ha.core.entities hb.core.entities
      ha.transforms_alive hb.transforms_alive
  have hvel : a.entities.table = b.entities.table → (diffVelocity a b = none ↔ _) :=
    TypedPool.diff_eq_none_iff (fun _ _ _ => diffVelocityRecord_eq_none)
      ha.core.velocities hb.core.velocities ha.core.entities hb.core.entities
      ha.velocities_alive hb.velocities_alive
  have hhealth : a.entities.table = b.entities.table → (diffHealth a b = none ↔ _) :=
    TypedPool.diff_eq_none_iff (fun _ _ _ => diffHealthRecord_eq_none)
      ha.core.health hb.core.health ha.core.entities hb.core.entities
      ha.health_alive hb.health_alive
  have hpending : a.pendingList = b.pendingList ↔ _ := map_range_eq_iff
  simp only [diffWorld, diffOr_eq_none, diffScalar_eq_none, diffLoop_eq_none, diffAt_eq_none,
    UInt64.toNat_inj, UInt32.toNat_inj, EntityId.h_inj, diffDamageEvents_eq_none]
  constructor
  · rintro ⟨tick, maxEntities, initialUnits, eventCapacity, state, inc, capacity, live, fresh, free,
      generations, liveness, stack, units, count, pending, ⟨reading, writing⟩, tr, vel, health⟩
    have table := htable.mpr ⟨capacity, live, fresh, free, generations, liveness, stack⟩
    exact World.ext tick (config_eq_iff.mpr ⟨maxEntities, initialUnits, eventCapacity⟩)
      (rng_eq_iff.mpr ⟨state, inc⟩) table ((htr table).mp tr) ((hvel table).mp vel)
      ((hhealth table).mp health) ((units_eq_iff ha.core hb.core).mp units) reading writing
      (hpending.mpr ⟨count, pending⟩)
  · intro h
    have table : a.entities.table = b.entities.table := congrArg World.entities h
    obtain ⟨capacity, live, fresh, free, generations, liveness, stack⟩ := htable.mp table
    obtain ⟨maxEntities, initialUnits, eventCapacity⟩ :=
      config_eq_iff.mp (congrArg World.config h)
    obtain ⟨state, inc⟩ := rng_eq_iff.mp (congrArg World.rng h)
    obtain ⟨count, pending⟩ := hpending.mp (congrArg World.pending h)
    exact ⟨congrArg World.tick h, maxEntities, initialUnits, eventCapacity, state, inc, capacity,
      live, fresh, free, generations, liveness, stack,
      (units_eq_iff ha.core hb.core).mpr (congrArg World.units h), count, pending,
      ⟨congrArg World.reading h, congrArg World.writing h⟩,
      (htr table).mpr (congrArg World.transforms h), (hvel table).mpr (congrArg World.velocities h),
      (hhealth table).mpr (congrArg World.health h)⟩

structure SameMeaning (a b : SimWorld) : Prop where
  left : a.LegalInv
  right : b.LegalInv
  abstract : a.abstract = b.abstract

theorem SameMeaning.diff (h : SameMeaning a b) :
    (simDiffState a b).1 = false ∧ simHashState a = simHashState b := by
  have hnone := (h.left.diff_eq_none_iff h.right).mpr h.abstract
  have helements := (diffWorld_describes a b).eq_iff.mp hnone
  have hbytes := (elements_eq_iff_bytes h.left.canonical h.right.canonical).mp helements
  refine ⟨?_, ?_⟩
  · simp [simDiffState, h.left.canonical, h.right.canonical, hnone]
  · rw [simHashState_eq h.left.canonical, simHashState_eq h.right.canonical, hbytes]

theorem SameMeaning.of_diff (ha : a.LegalInv) (hb : b.LegalInv)
    (h : (simDiffState a b).1 = false) : SameMeaning a b := by
  refine ⟨ha, hb, (ha.diff_eq_none_iff hb).mp ?_⟩
  simp only [simDiffState, ha.canonical, hb.canonical, Bool.not_true, Bool.or_self,
    Bool.false_eq_true, if_false] at h
  cases hd : diffWorld a b with
  | none => rfl
  | some d =>
    rw [hd] at h
    cases h

theorem SameMeaning.legal (h : SameMeaning a b) {op : Op} (hop : op.Legal a) : op.Legal b := by
  have halive : ∀ e, entityManagerIsAlive a.entities e = true →
      entityManagerIsAlive b.entities e = true := by
    intro e he
    have htable : a.entities.table = b.entities.table := congrArg World.entities h.abstract
    rwa [h.right.core.alive_iff, ← htable, ← h.left.core.alive_iff]
  cases op with
  | transformAdd entity _ _ _ => exact halive entity hop
  | velocityAdd entity _ _ => exact halive entity hop
  | healthAdd entity _ _ _ => exact halive entity hop
  | _ => trivial

end SimWorld

def simMachine : Machine SimWorld Op OpResult where
  allowed w op := op.Legal w
  step w op := op.run w

theorem sameMeaning_bisimulation : simMachine.Bisimulation SimWorld.SameMeaning := by
  intro a b op h hop
  have hop' := h.legal hop
  obtain ⟨a', ha', hinv, habs⟩ := h.left.run hop
  obtain ⟨b', hb', hinv', habs'⟩ := h.right.run hop'
  rw [← h.abstract] at hb' habs'
  exact ⟨hop', _, a', b', ha', hb', hinv, hinv', habs.trans habs'.symm⟩

theorem simDiffState_bisimulation {a b : SimWorld} (ha : legalRuns.Reachable a)
    (hb : legalRuns.Reachable b) (same : (simDiffState a b).1 = false) (ops : List Op)
    (legal : simMachine.AllowedRun a ops) :
    simMachine.AllowedRun b ops ∧ ∃ results a' b', simMachine.run a ops = some (results, a') ∧
      simMachine.run b ops = some (results, b') ∧ (simDiffState a' b').1 = false ∧
      simHashState a' = simHashState b' := by
  have hsame := SimWorld.SameMeaning.of_diff (SimWorld.reachable_legal ha)
    (SimWorld.reachable_legal hb) same
  obtain ⟨hlegal, results, a', b', ha', hb', h⟩ := sameMeaning_bisimulation.run hsame legal
  exact ⟨hlegal, results, a', b', ha', hb', h.diff.1, h.diff.2⟩

theorem simDiffState_bisimulation_reordered : ∃ a b, legalRuns.Reachable a ∧
    legalRuns.Reachable b ∧
    a.transforms.membership.denseEntities 1 ≠ b.transforms.membership.denseEntities 1 ∧
    let ops : List Op := [.healthAdd secondId 3 8 1, .destroyDeferred firstId, .tick none, .create]
    ∃ results a' b', simMachine.run a ops = some (results, a') ∧
      simMachine.run b ops = some (results, b') ∧
      (simDiffState a' b').1 = false ∧ simHashState a' = simHashState b' := by
  have hruns : (smallWorld.bind fun s => (System.tryAll Op.attempt s [.create, .create,
        .transformAdd firstId 1 2 3, .transformAdd secondId 4 5 6]).bind fun a =>
      (System.tryAll Op.attempt s [.create, .create, .transformAdd secondId 4 5 6,
        .transformAdd firstId 1 2 3]).map fun b =>
        (decide (a.transforms.membership.denseEntities 1 ≠ b.transforms.membership.denseEntities 1),
          (simDiffState a b).1, entityManagerIsAlive a.entities secondId)) =
            some (true, false, true) := by decide +kernel
  obtain ⟨s, hs, hruns⟩ := Option.bind_eq_some_iff.mp hruns
  obtain ⟨a, ha, hruns⟩ := Option.bind_eq_some_iff.mp hruns
  obtain ⟨b, hb, hfacts⟩ := Option.map_eq_some_iff.mp hruns
  obtain ⟨horder, hfacts⟩ := Prod.mk.inj hfacts
  obtain ⟨hsame, halive⟩ := Prod.mk.inj hfacts
  have start : legalRuns.Reachable s := .initial (smallWorld_started hs)
  have hreachable := start.tryAll Op.attempt_next ha
  have hreachable' := start.tryAll Op.attempt_next hb
  have legal : simMachine.AllowedRun a
      [.healthAdd secondId 3 8 1, .destroyDeferred firstId, .tick none, .create] :=
    ⟨halive, fun _ _ => ⟨trivial, fun _ _ => ⟨trivial, fun _ _ => ⟨trivial, fun _ _ => trivial⟩⟩⟩⟩
  exact ⟨a, b, hreachable, hreachable', of_decide_eq_true horder,
    (simDiffState_bisimulation hreachable hreachable' hsame _ legal).2⟩

theorem simDiffState_first_difference {a b : SimWorld} (ha : canonicalWorldValid a = true)
    (hb : canonicalWorldValid b = true) :
    simHashBytes a = a.elements.flatMap StateElement.bytes ∧
      simHashBytes b = b.elements.flatMap StateElement.bytes ∧
      simHashState a = (simHashBytes a).foldl hashU8 fnv1a64Offset ∧
      simHashState b = (simHashBytes b).foldl hashU8 fnv1a64Offset ∧
      ((simDiffState a b).1 = false ↔ simHashBytes a = simHashBytes b) ∧
      ((simDiffState a b).1 = false → (simDiffState a b).2.field = .none) ∧
      ((simDiffState a b).1 = true → ∃ front ra rb,
        let d := (simDiffState a b).2
        a.elements = front ++ ((d.field, d.index), d.expectedValue) :: ra ∧
          b.elements = front ++ ((d.field, d.index), d.actualValue) :: rb ∧
          d.expectedValue ≠ d.actualValue) := by
  have hdiff := diffWorld_describes a b
  refine ⟨simHashBytes_eq a, simHashBytes_eq b, simHashState_eq ha, simHashState_eq hb, ?_⟩
  rw [← elements_eq_iff_bytes ha hb]
  simp only [simDiffState, ha, hb, Bool.not_true, Bool.or_self, Bool.false_eq_true, if_false]
  cases hd : diffWorld a b with
  | none =>
    rw [hd] at hdiff
    exact ⟨iff_of_true rfl hdiff, fun _ => rfl, fun h => by cases h⟩
  | some d =>
    have hne : a.elements ≠ b.elements := fun h => by
      rw [(hdiff.eq_iff).mpr h] at hd
      cases hd
    rw [hd] at hdiff
    exact ⟨iff_of_false (by simp) hne, fun h => (by cases h), fun _ => hdiff⟩

theorem simDiffState_first_difference_tick : ∃ a b, canonicalWorldValid a = true ∧
    canonicalWorldValid b = true ∧ simHashBytes a ≠ simHashBytes b ∧
      simHashState b = (simHashBytes b).foldl hashU8 fnv1a64Offset ∧ ∃ front ra rb,
      let d := (simDiffState a b).2
      a.elements = front ++ ((d.field, d.index), d.expectedValue) :: ra ∧
        b.elements = front ++ ((d.field, d.index), d.actualValue) :: rb ∧
        d.expectedValue ≠ d.actualValue := by
  obtain ⟨w, arena, pushed, hw⟩ := SimWorld.started_exists
  have hpop := SimWorld.populated_of_init hw
  obtain ⟨u, -, hu, habs⟩ := hpop.legal.tick (show w.abstract.Accepts none from trivial)
  have hdiff : (simDiffState w u).1 = true := by
    by_contra hne
    have hsame := SimWorld.SameMeaning.of_diff hpop.legal hu (Bool.not_eq_true _ ▸ hne)
    have htick : w.tick = u.tick := congrArg World.tick hsame.abstract
    have hnext : u.tick = w.tick + 1 :=
      (congrArg World.tick habs).trans (World.foldl_destroy_tick _ _)
    rw [hnext, hpop.tick] at htick
    exact absurd htick (by decide)
  obtain ⟨-, -, -, hhash, hiff, -, hfirst⟩ :=
    simDiffState_first_difference hpop.legal.canonical hu.canonical
  refine ⟨w, u, hpop.legal.canonical, hu.canonical, fun hbytes => ?_, hhash, hfirst hdiff⟩
  rw [hiff.mpr hbytes] at hdiff
  cases hdiff

end ChoonzMoba
