import ChoonzMoba.Sim.InitSpec
import ChoonzMoba.Sim.SimHash
import Mathlib.Algebra.BigOperators.Group.List.Basic

namespace ChoonzMoba

namespace EntityManager

variable {m : EntityManager}

def deadBelow (m : EntityManager) (n : Nat) : List Nat :=
  (List.range n).filter fun i => decide (m.liveness i = 0)

theorem deadBelow_succ (n : Nat) :
    m.deadBelow (n + 1) = m.deadBelow n ++ if m.liveness n = 0 then [n] else [] := by
  rw [deadBelow, List.range_succ, List.filter_append]
  by_cases h : m.liveness n = 0 <;> simp [h, deadBelow]

theorem Inv.dead_length (inv : m.Inv) : (m.deadBelow m.nextFresh).length = m.freeCount := by
  have hperm : (m.deadBelow m.nextFresh).Perm m.freeList := by
    refine (List.perm_ext_iff_of_nodup (List.nodup_range.filter _) inv.free_nodup).mpr ?_
    intro i
    rw [inv.mem_free]
    simp
  simpa [freeList] using hperm.length_eq

theorem Inv.observe (inv : m.Inv) :
    Loop.forRangeM m.nextFresh (entityManagerObserveStep m) 0 = some m.liveCount := by
  obtain ⟨t, ht, hp⟩ := Loop.forRangeM_total (n := m.nextFresh) (s := 0)
    (f := entityManagerObserveStep m)
    (fun k observed => observed + (m.deadBelow k).length = k) rfl
    (by
      intro i observed hi hobs
      have hgen := inv.generation i hi
      have hlive := inv.liveness i
      refine ⟨observed + m.liveness i, ?_, ?_⟩
      · simp only [entityManagerObserveStep, handleGenMask_toNat]
        rw [if_neg]
        omega
      · rw [deadBelow_succ, List.length_append]
        split <;> simp <;> omega)
  rw [ht]
  have hlen := inv.dead_length
  have hcounts := inv.counts
  exact congrArg some (by omega)

theorem Inv.valid (inv : m.Inv) {capacity : Nat} (h : m.capacity = capacity) :
    entityManagerValid m capacity = true := by
  have hfresh := inv.fresh_le
  have hcounts := inv.counts
  unfold entityManagerValid
  rw [if_neg (by omega)]
  simp only [inv.observe, ne_eq, not_true_eq_false, if_false, List.all_eq_true, List.mem_range,
    Bool.and_eq_true, decide_eq_true_eq]
  intro ordinal hordinal
  exact (inv.mem_free _).mp (List.mem_map.mpr ⟨ordinal, List.mem_range.mpr hordinal, rfl⟩)

end EntityManager

namespace TypedPool

variable {V : Type} {p : TypedPool V} {n : Nat}

theorem Shaped.dense_holds (h : p.Shaped n) {d : Nat} (hd : d < p.membership.count) :
    p.membership.Holds (p.membership.denseEntities d) := by
  obtain ⟨-, -, hs⟩ := h.inv.dense d hd
  refine ⟨by rw [hs]; exact Nat.succ_ne_zero d, ?_⟩
  rw [ComponentPool.denseOf, hs]
  rfl

theorem Shaped.membershipValid (h : p.Shaped n) {m : EntityManager} (hm : m.Inv)
    (halive : ∀ e, (p.lookup e).isSome → m.table.Alive e) :
    ChoonzMoba.membershipValid p.membership m n = true := by
  have hdense : ∀ d < p.membership.count,
      entityManagerIsAlive m (p.membership.denseEntities d) = true := fun d hd =>
    (hm.isAlive_iff _).mpr (halive _ ((lookup_isSome h.inv _).mpr (h.dense_holds hd)))
  have hindex : ∀ i, p.membership.sparse i ≠ 0 → i < m.nextFresh := by
    intro i hi
    have hlt := hm.alive_index_lt ((hm.isAlive_iff _).mp (hdense _ (h.inv.dense_lt hi)))
    rwa [show handleIndex (p.membership.denseEntities _).h = i from (h.inv.sparse i hi).2] at hlt
  have hobserve : Loop.forRangeM m.nextFresh (membershipObserveStep p.membership m) 0 =
      some p.membership.count := by
    obtain ⟨t, ht, hp⟩ := Loop.forRangeM_total (n := m.nextFresh) (s := 0)
      (f := membershipObserveStep p.membership m)
      (fun k observed => observed = (p.membership.indicesBelow k).length) rfl
      (by
        rintro i observed - rfl
        refine ⟨_, ?_, rfl⟩
        by_cases hs : p.membership.sparse i = 0
        · simp [membershipObserveStep, ComponentPool.indicesBelow_succ, hs]
        · have hd := h.inv.dense_lt hs
          have hidx := (h.inv.sparse i hs).2
          rw [ComponentPool.denseOf] at hidx
          simp [membershipObserveStep, ComponentPool.indicesBelow_succ, hs, Nat.not_le_of_lt hd,
            hidx, hdense _ hd])
    rw [ht, hp, h.inv.indices_length_of hindex]
  unfold ChoonzMoba.membershipValid
  have hcount : p.membership.count ≤ n := by
    rw [← h.capacity]
    exact h.inv.count_le
  rw [if_neg (by simp [h.entityCapacity, h.capacity, hcount])]
  have hall : (List.range p.membership.count).all (fun dense =>
      entityManagerIsAlive m (p.membership.denseEntities dense) &&
        decide (handleIndex (p.membership.denseEntities dense).h < m.nextFresh) &&
        decide (p.membership.sparse (handleIndex (p.membership.denseEntities dense).h) = dense + 1))
      = true := by
    rw [List.all_eq_true]
    intro d hd
    have hd' := List.mem_range.mp hd
    have hlt := hm.alive_index_lt ((hm.isAlive_iff _).mp (hdense d hd'))
    simp [hdense d hd', hlt, (h.inv.dense d hd').2.2]
  simp [hall, hobserve]

end TypedPool

namespace SimWorld

variable {w : SimWorld}

theorem LegalInv.queue_valid (inv : w.LegalInv) : damageQueueValidForWorld w = true := by
  have hvalid := (DamageEventQueue.isValid_iff w.damageEvents).mpr inv.core.events
  have hread := (DamageEventQueue.readList_eq_nil w.damageEvents).mp inv.ready.reading
  have hwrite := (DamageEventQueue.writeList_eq_nil w.damageEvents).mp inv.ready.writing
  simp [damageQueueValidForWorld, hvalid, inv.core.events_capacity, hread, hwrite]

theorem LegalInv.canonical (inv : w.LegalInv) : canonicalWorldValid w = true := by
  have hconfig : configValid w.config = true := inv.core.config
  have hentities := inv.core.entities.valid inv.core.entities_capacity
  have htr := inv.core.transforms.membershipValid inv.core.entities inv.transforms_alive
  have hvel := inv.core.velocities.membershipValid inv.core.entities inv.velocities_alive
  have hhealth := inv.core.health.membershipValid inv.core.entities inv.health_alive
  have hunits := inv.core.units_iff.mpr inv.ready.units
  have hpending := inv.core.pending_iff.mpr ⟨inv.ready.pending_alive, inv.ready.pending_nodup⟩
  simp only [canonicalWorldValid, hconfig, hentities, htr, hvel, hhealth, inv.queue_valid, hunits,
    hpending, inv.ready.pending_le, decide_true, Bool.and_self]

end SimWorld

end ChoonzMoba
