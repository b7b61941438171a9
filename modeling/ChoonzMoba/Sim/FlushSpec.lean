import ChoonzMoba.Sim.SystemsSpec

namespace ChoonzMoba

namespace World

def settled (w : World) : World := { w with pending := [] }

theorem foldl_destroy_settled (w : World) (es : List EntityId) :
    (es.foldl destroy w).settled = es.foldl destroy w.settled := by
  induction es generalizing w with
  | nil => rfl
  | cons e es ih => exact ih (w.destroy e)

def clocked (w : World) (tick : UInt64) : World := { w with tick := tick }

theorem foldl_destroy_clocked (w : World) (es : List EntityId) (tick : UInt64) :
    es.foldl destroy (w.clocked tick) = (es.foldl destroy w).clocked tick := by
  induction es generalizing w with
  | nil => rfl
  | cons e es ih => exact ih (w.destroy e)

theorem foldl_destroy_tick (w : World) (es : List EntityId) :
    (es.foldl destroy w).tick = w.tick := by
  induction es generalizing w with
  | nil => rfl
  | cons e es ih => exact ih (w.destroy e)

def cleared {V : Type} (components : EntityId → Option V) (es : List EntityId) :
    EntityId → Option V :=
  fun e => if e ∈ es then none else components e

theorem cleared_nil {V : Type} (components : EntityId → Option V) :
    cleared components [] = components := by
  funext e
  simp [cleared]

theorem cleared_update {V : Type} (components : EntityId → Option V) (e : EntityId)
    (es : List EntityId) :
    cleared (Function.update components e none) es = cleared components (e :: es) := by
  funext a
  by_cases hae : a = e
  · subst hae
    simp [cleared]
  · simp [cleared, hae]

theorem foldl_destroy_eq (w : World) (es : List EntityId) :
    es.foldl destroy w =
      { w with
        entities := (es.foldl destroy w).entities
        transforms := cleared w.transforms es
        velocities := cleared w.velocities es
        health := cleared w.health es
        units := fun i => if w.units i ∈ es then .null else w.units i } := by
  induction es generalizing w with
  | nil => simp [cleared_nil]
  | cons e es ih =>
    have hunits : (fun i => if (w.destroy e).units i ∈ es then .null else (w.destroy e).units i) =
        fun i => if w.units i ∈ e :: es then EntityId.null else w.units i := by
      funext i
      by_cases he : w.units i = e
      · simp [destroy, he]
      · simp [destroy, he]
    rw [List.foldl_cons, ih]
    simp only [hunits]
    simp only [destroy, cleared_update]

theorem foldl_destroy_alive {w : World} {es : List EntityId} (hnd : es.Nodup)
    (halive : ∀ e ∈ es, w.entities.Alive e) (a : EntityId) :
    (es.foldl destroy w).entities.Alive a ↔ w.entities.Alive a ∧ a ∉ es := by
  induction es generalizing w with
  | nil => simp
  | cons e es ih =>
    obtain ⟨he, hes⟩ := List.nodup_cons.mp hnd
    have hrelease : ∀ b, (w.destroy e).entities.Alive b ↔ w.entities.Alive b ∧ b ≠ e :=
      fun _ => EntityTable.alive_release_iff w.entities (halive e (by simp))
    have hrest : ∀ b ∈ es, (w.destroy e).entities.Alive b := by
      intro b hb
      exact (hrelease b).mpr ⟨halive b (by simp [hb]), fun hbe => he (hbe ▸ hb)⟩
    rw [List.foldl_cons, ih hes hrest, List.mem_cons, not_or, ← and_assoc]
    exact and_congr_left' (hrelease a)

end World

theorem clearUnitSlots_apply (units : Nat → EntityId) (e : EntityId) (i : Nat) :
    clearUnitSlots units e i = if i < simMaxUnits ∧ units i = e then .null else units i := by
  refine Loop.forRange_invariant (fun k (cleared : Nat → EntityId) =>
    ∀ i, cleared i = if i < k ∧ units i = e then .null else units i) ?_ ?_ i
  · intro i
    simp
  · intro k cleared _ hcleared i
    have hk : cleared k = units k := by simpa using hcleared k
    simp only [hk, EntityId.h_inj]
    by_cases hik : i = k
    · subst hik
      by_cases he : units i = e <;> simp [he, hk]
    · have hlt : i < k + 1 ↔ i < k := by omega
      simp only [hlt, ← hcleared i]
      split
      · rw [Function.update_of_ne hik]
      · rfl

theorem flushComponent_spec {V : Type} [Zero V] {p : TypedPool V} {n : Nat} (h : p.Shaped n)
    (e : EntityId) : ∃ q, flushComponent p e = some q ∧ q.Shaped n ∧
      q.lookup = Function.update p.lookup e none := by
  by_cases he : p.membership.Holds e
  · have hhas : typedPoolHas p e = true := (h.inv.has_iff e).mpr he
    refine ⟨p.erased e, ?_, ⟨h.inv.erased he, ?_, ?_⟩, TypedPool.erased_lookup h.inv he⟩
    · simp [flushComponent, hhas, TypedPool.remove_eq h.inv he]
    · rw [← h.entityCapacity]
      rfl
    · rw [← h.capacity]
      rfl
  · have hhas : typedPoolHas p e = false := by
      rw [← Bool.not_eq_true]
      exact fun hc => he ((h.inv.has_iff e).mp hc)
    refine ⟨p, by simp [flushComponent, hhas], h, ?_⟩
    rw [← TypedPool.lookup_of_not_holds h.inv he, Function.update_eq_self]

namespace SimWorld

variable {w : SimWorld}

theorem CoreInv.clearUnits (inv : w.CoreInv) {e : EntityId} (he : e ≠ .null) :
    clearUnitSlots w.unitEntities e = fun i => if w.unitEntities i = e then .null
      else w.unitEntities i := by
  funext i
  rw [clearUnitSlots_apply]
  rcases Nat.lt_or_ge i simMaxUnits with hi | hi
  · simp [hi]
  · have hne : ¬ w.unitEntities i = e := by
      rw [inv.units_unused i hi]
      exact fun h => he h.symm
    simp [hne]

theorem alive_ne_null {t : EntityTable} {e : EntityId} (h : t.Alive e) : e ≠ .null := by
  rintro rfl
  exact h.1 handleGen_null

theorem Legal.update {health : EntityId → Option Health} (h : Legal health) (e : EntityId) :
    Legal (Function.update health e none) := by
  intro a v hv
  by_cases hae : a = e
  · subst hae
    simp at hv
  · rw [Function.update_of_ne hae] at hv
    exact h a v hv

theorem CoreInv.flushRequest (inv : w.CoreInv) {i : Nat}
    (halive : w.entities.table.Alive (w.pendingDestroy i)) :
    ∃ u, ChoonzMoba.flushRequest w i = some u ∧ u.CoreInv ∧
      u.pendingDestroy = Function.update w.pendingDestroy i .null ∧
      u.pendingDestroyCount = w.pendingDestroyCount ∧
      u.abstract.settled = w.abstract.settled.destroy (w.pendingDestroy i) := by
  obtain ⟨health, hhealth, shealth, lhealth⟩ := flushComponent_spec inv.health (w.pendingDestroy i)
  obtain ⟨velocities, hvel, svel, lvel⟩ := flushComponent_spec inv.velocities (w.pendingDestroy i)
  obtain ⟨transforms, htr, str, ltr⟩ := flushComponent_spec inv.transforms (w.pendingDestroy i)
  obtain ⟨entities, hrelease, hinv, htable⟩ := inv.entities.release_alive halive
  have hunits := inv.clearUnits (alive_ne_null halive)
  refine ⟨{ w with health, velocities, transforms, entities
                   unitEntities := clearUnitSlots w.unitEntities (w.pendingDestroy i)
                   pendingDestroy := Function.update w.pendingDestroy i .null },
    ?_, ?_, rfl, rfl, ?_⟩
  · simp only [ChoonzMoba.flushRequest, hhealth, hvel, htr, Option.bind_eq_bind, Option.bind_some,
      hrelease]
  · refine ⟨inv.config, hinv, ?_, str, svel, shealth, ?_, inv.events, inv.events_capacity, ?_⟩
    · exact (congrArg EntityTable.capacity htable).trans inv.entities_capacity
    · rw [lhealth]
      exact Legal.update inv.health_legal _
    · intro k hk
      simp [hunits, inv.units_unused k hk]
  · simp only [World.settled, World.destroy, abstract, htable, lhealth, lvel, ltr, hunits]
    rfl

theorem CoreInv.flush (inv : w.CoreInv) (hle : w.pendingDestroyCount ≤ w.config.maxEntities.toNat)
    (halive : ∀ e ∈ w.pendingList, w.entities.table.Alive e) (hnd : w.pendingList.Nodup) :
    ∃ u, sysFlushDestroy w = some (true, u) ∧ u.CoreInv ∧ u.pendingDestroyCount = 0 ∧
      u.abstract = (w.abstract.pending.foldl World.destroy w.abstract).settled := by
  have hvalid := inv.pending_iff.mpr ⟨halive, hnd⟩
  obtain ⟨t, ht, tinv, tcount, -, tabs⟩ := Loop.forRangeM_total (n := w.pendingDestroyCount)
    (f := ChoonzMoba.flushRequest) (s := w) (fun k t => t.CoreInv ∧
      t.pendingDestroyCount = w.pendingDestroyCount ∧
      (∀ j, k ≤ j → t.pendingDestroy j = w.pendingDestroy j) ∧
      t.abstract.settled = ((List.range k).map w.pendingDestroy).foldl World.destroy
        w.abstract.settled)
    ⟨inv, rfl, fun _ _ => rfl, rfl⟩ (by
      rintro k t hk ⟨tinv, tcount, tpending, tabs⟩
      -- the prefix destroyed so far is a duplicate-free list of entities alive at the start
      have hfront : ((List.range (k + 1)).map w.pendingDestroy).Sublist w.pendingList :=
        (List.range_sublist.mpr (Nat.succ_le_of_lt hk)).map _
      rw [List.range_succ, List.map_append, List.map_singleton] at hfront
      have hnodup := hfront.nodup hnd
      have hsettled : t.entities.table = (((List.range k).map w.pendingDestroy).foldl World.destroy
        w.abstract.settled).entities := congrArg World.entities tabs
      have hcur : t.entities.table.Alive (t.pendingDestroy k) := by
        rw [tpending k (Nat.le_refl k), hsettled, World.foldl_destroy_alive]
        · refine ⟨halive _ (hfront.subset (by simp)), fun hmem => ?_⟩
          exact (List.nodup_append.mp hnodup).2.2 _ hmem _ (List.mem_singleton_self _) rfl
        · exact (List.nodup_append.mp hnodup).1
        · intro e he
          exact halive e (hfront.subset (List.mem_append_left _ he))
      obtain ⟨u, hu, uinv, upending, ucount, uabs⟩ := tinv.flushRequest hcur
      refine ⟨u, hu, uinv, ucount.trans tcount, ?_, ?_⟩
      · intro j hj
        rw [upending, Function.update_of_ne (by omega), tpending j (by omega)]
      · rw [uabs, tabs, tpending k (Nat.le_refl k), List.range_succ, List.map_append,
          List.foldl_append]
        rfl)
  refine ⟨{ t with pendingDestroyCount := 0 }, ?_, ?_, rfl, ?_⟩
  · simp only [sysFlushDestroy, if_neg (Nat.not_lt_of_le hle), hvalid, ht]
    rfl
  · exact ⟨tinv.config, tinv.entities, tinv.entities_capacity, tinv.transforms, tinv.velocities,
      tinv.health, tinv.health_legal, tinv.events, tinv.events_capacity, tinv.units_unused⟩
  · rw [World.foldl_destroy_settled]
    exact tabs

end SimWorld

end ChoonzMoba
