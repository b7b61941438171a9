import ChoonzMoba.Library.Slots
import ChoonzMoba.Sim.InitSpec

namespace ChoonzMoba

inductive EntityEvent where
  | created (e : EntityId)
  | released (e : EntityId) (accepted : Bool)

def entityManagerSystem : System EntityManager EntityEvent where
  initial m := ∃ arena pushed capacity, entityManagerInit arena capacity = some (pushed, some m)
  next m event t :=
    match event with
    | .created e => entityManagerCreate m = (e, t)
    | .released e accepted => entityManagerRelease m e = (accepted, t)

def EntityEvent.slotEvent : EntityEvent → SlotEvent
  | .created e => if e = .null then .idle else .issued (handleIndex e.h) (handleGen e.h)
  | .released e true => .retired (handleIndex e.h)
  | .released _ false => .idle

def EntityEvent.releases (i : Nat) : EntityEvent → Bool
  | .released e accepted => accepted && decide (handleIndex e.h = i)
  | .created _ => false

def releases (i : Nat) (past : List EntityEvent) : Nat := past.countP (EntityEvent.releases i)

def Issued (past : List EntityEvent) (e : EntityId) : Prop := e ≠ .null ∧ .created e ∈ past

def reusableIndices : List EntityEvent → List Nat
  | [] => []
  | .created e :: past =>
    if e = .null then reusableIndices past else (reusableIndices past).erase (handleIndex e.h)
  | .released e true :: past => handleIndex e.h :: reusableIndices past
  | .released _ false :: past => reusableIndices past

def EntityTable.slots (t : EntityTable) : Slots where
  fresh := t.fresh
  generation := t.generation
  live := t.live
  free := t.free

def slotPast (past : List EntityEvent) : List SlotEvent := past.map EntityEvent.slotEvent

variable {past later earlier : List EntityEvent} {m t : EntityManager} {e : EntityId}
  {event : EntityEvent}

theorem retirements_slotPast (i : Nat) (past : List EntityEvent) :
    Slots.retirements i (slotPast past) = releases i past := by
  rw [Slots.retirements, slotPast, releases, List.count, List.countP_map]
  apply List.countP_congr
  intro event _
  cases event with
  | created e =>
    simp only [Function.comp_apply, EntityEvent.slotEvent, EntityEvent.releases]
    split <;> simp
  | released e accepted => cases accepted <;> simp [EntityEvent.slotEvent, EntityEvent.releases]

theorem reusable_slotPast (past : List EntityEvent) :
    Slots.reusable (slotPast past) = reusableIndices past := by
  induction past with
  | nil => rfl
  | cons event past ih =>
    rw [slotPast, List.map_cons, ← slotPast]
    match event with
    | .created e =>
      by_cases h : e = .null
      · simp [EntityEvent.slotEvent, reusableIndices, Slots.reusable, h, ih]
      · simp [EntityEvent.slotEvent, reusableIndices, Slots.reusable, h, ih]
    | .released e true => simp [EntityEvent.slotEvent, reusableIndices, Slots.reusable, ih]
    | .released e false => simp [EntityEvent.slotEvent, reusableIndices, Slots.reusable, ih]

theorem slotEvent_created {e : EntityId} (h : e ≠ .null) :
    (EntityEvent.created e).slotEvent = .issued (handleIndex e.h) (handleGen e.h) :=
  if_neg h

theorem created_ne_null {index generation : Nat} (hindex : index < 2 ^ 18)
    (hpos : 0 < generation) (hlt : generation < 2 ^ 14) :
    (⟨handleMake index generation⟩ : EntityId) ≠ .null :=
  fun hnull => handleMake_ne_null hindex hpos hlt (congrArg EntityId.h hnull)

namespace EntityManager

theorem Inv.free_full (inv : m.Inv) (hfree : m.freeCount = 0) (hfull : m.capacity ≤ m.nextFresh) :
    m.liveCount = m.capacity := by
  have hcounts := inv.counts
  have hle := inv.fresh_le
  omega

inductive Created (m : EntityManager) : EntityId → EntityManager → Prop
  | full : m.liveCount = m.capacity → Created m .null m
  | issued {e : EntityId} {t : EntityManager} : e ≠ .null → m.liveCount ≠ m.capacity → t.Inv →
      Slots.Step handleGenMask.toNat m.table.slots (.issued (handleIndex e.h) (handleGen e.h))
        t.table.slots → Created m e t

theorem Inv.created (inv : m.Inv) (h : entityManagerCreate m = (e, t)) : m.Created e t := by
  have hinv := inv.create
  have htable := inv.create_table
  have hcounts := inv.counts
  have hle := inv.fresh_le
  rcases Nat.eq_zero_or_pos m.freeCount with hfree | hfree
  · have hnil : m.table.free = [] := by simp [table, freeList, hfree]
    rcases Nat.lt_or_ge m.nextFresh m.capacity with hlt | hge
    · have hnew := inv.unissued m.nextFresh (Nat.le_refl _)
      have hindex : m.nextFresh < 2 ^ 18 := Nat.lt_of_lt_of_le hlt inv.capacity_le
      have hcreate : m.table.create =
          EntityTable.issue { m.table with fresh := m.nextFresh + 1 } m.nextFresh := by
        simp only [EntityTable.create, hnil]
        exact if_pos hlt
      have hgen : m.table.generation m.nextFresh = 0 := hnew.1
      rw [h, hcreate] at htable
      simp only [EntityTable.issue, hgen, if_true] at htable
      rw [h] at hinv
      have hnull : (⟨handleMake m.nextFresh 1⟩ : EntityId) ≠ .null :=
        created_ne_null hindex (by decide) (by decide)
      refine .issued (htable.1 ▸ hnull) (by omega) hinv ?_
      rw [htable.1, handleIndex_make hindex (by decide), handleGen_make hindex (by decide),
        htable.2]
      exact .fresh hnil
    · rw [create_full hfree hge] at h
      obtain ⟨rfl, rfl⟩ := Prod.mk.inj h
      exact .full (inv.free_full hfree hge)
  · have res := inv.reserve_recycled hfree
    have hpop : m.table.free = m.freeStack (m.freeCount - 1) ::
        ({ m with freeCount := m.freeCount - 1 } : EntityManager).freeList.reverse := by
      rw [table, freeList_pop hfree]
      simp
    have hgen := inv.generation _ res.index_lt
    have hindex : m.freeStack (m.freeCount - 1) < 2 ^ 18 :=
      Nat.lt_of_lt_of_le (Nat.lt_of_lt_of_le res.index_lt hle) inv.capacity_le
    have hcreate : m.table.create = EntityTable.issue
        ({ m with freeCount := m.freeCount - 1 } : EntityManager).table
        (m.freeStack (m.freeCount - 1)) := by
      simp only [EntityTable.create, hpop]
      rfl
    have hne : m.table.generation (m.freeStack (m.freeCount - 1)) ≠ 0 := Nat.ne_of_gt hgen.1
    have htable' : e = ⟨handleMake (m.freeStack (m.freeCount - 1))
          (m.generations (m.freeStack (m.freeCount - 1)))⟩ ∧
        t.table = { m.table with
          live := Function.update m.table.live (m.freeStack (m.freeCount - 1)) true
          free := ({ m with freeCount := m.freeCount - 1 } : EntityManager).freeList.reverse } := by
      rw [h, hcreate] at htable
      refine ⟨htable.1.trans ?_, htable.2.trans ?_⟩
      · exact congrArg (fun g => (⟨handleMake _ g⟩ : EntityId)) (if_neg hne)
      · refine EntityTable.ext rfl rfl ?_ rfl rfl
        simp only [EntityTable.issue]
        rw [show ({ m with freeCount := m.freeCount - 1 } : EntityManager).table.generation =
          m.table.generation from rfl, if_neg hne, Function.update_eq_self]
    rw [h] at hinv
    refine .issued (htable'.1 ▸ created_ne_null hindex hgen.1 hgen.2) (by omega) hinv ?_
    rw [htable'.1, handleIndex_make hindex hgen.2, handleGen_make hindex hgen.2, htable'.2]
    exact .recycle hpop

theorem Inv.released (inv : m.Inv) {accepted : Bool}
    (h : entityManagerRelease m e = (accepted, t)) :
    (accepted = true ↔ entityManagerIsAlive m e = true) ∧ (accepted = false → t = m) ∧ t.Inv ∧
      Slots.Step handleGenMask.toNat m.table.slots (EntityEvent.released e accepted).slotEvent
        t.table.slots := by
  rw [inv.isAlive_iff]
  by_cases halive : m.table.Alive e
  · obtain ⟨q, hq, hinv, htable⟩ := inv.release_alive halive
    rw [hq] at h
    obtain ⟨rfl, rfl⟩ := Prod.mk.inj h
    refine ⟨iff_of_true rfl halive, Bool.noConfusion, hinv, ?_⟩
    have hlive : m.liveness (handleIndex e.h) ≠ 0 := by simpa [table] using halive.2.1
    have hgen := inv.generation _ (inv.live_lt hlive)
    have hsucc : EntityTable.succGeneration (m.generations (handleIndex e.h)) =
        m.generations (handleIndex e.h) % handleGenMask.toNat + 1 := by
      rw [EntityTable.succGeneration, handleGenMask_toNat]
      split <;> omega
    have hslots : q.table.slots = { m.table.slots with
        generation := Function.update m.table.slots.generation (handleIndex e.h)
          (m.table.slots.generation (handleIndex e.h) % handleGenMask.toNat + 1)
        live := Function.update m.table.slots.live (handleIndex e.h) false
        free := handleIndex e.h :: m.table.slots.free } := by
      rw [htable]
      exact Slots.ext rfl (congrArg (Function.update m.generations (handleIndex e.h)) hsucc) rfl rfl
    rw [hslots]
    exact .retire halive.2.1
  · rw [inv.release_dead halive] at h
    obtain ⟨rfl, rfl⟩ := Prod.mk.inj h
    exact ⟨iff_of_false Bool.false_ne_true halive, fun _ => rfl, inv, .idle⟩

theorem Inv.next (inv : m.Inv) (h : entityManagerSystem.next m event t) :
    t.Inv ∧ Slots.Step handleGenMask.toNat m.table.slots event.slotEvent t.table.slots := by
  match event with
  | .created e =>
    cases inv.created h with
    | full => exact ⟨inv, .idle⟩
    | issued hnull _ hinv hstep =>
      rw [slotEvent_created hnull]
      exact ⟨hinv, hstep⟩
  | .released e accepted => exact (inv.released h).2.2

end EntityManager

theorem entityManagerInit_inv (h : entityManagerSystem.initial m) :
    m.Inv ∧ m.table.slots = Slots.empty := by
  obtain ⟨arena, pushed, capacity, hinit⟩ := h
  have hcapacity : capacity ≤ 2 ^ 18 := by
    simp only [entityManagerInit] at hinit
    split at hinit
    · cases hinit
    · next hvalid =>
      have hmask := handleIndexMask_toNat
      omega
  rw [entityManagerInit_some hinit]
  exact ⟨.zeroed hcapacity, rfl⟩

theorem entityManager_trace (h : entityManagerSystem.Trace past m) :
    m.Inv ∧ (Slots.system handleGenMask.toNat).Trace (slotPast past) m.table.slots := by
  induction h with
  | start h =>
    obtain ⟨hinv, hslots⟩ := entityManagerInit_inv h
    exact ⟨hinv, .start hslots⟩
  | step _ hnext ih =>
    obtain ⟨hinv, hstep⟩ := ih.1.next hnext
    exact ⟨hinv, ih.2.step hstep⟩

section

variable (h : entityManagerSystem.Trace past m)

include h

theorem entityManager_history :
    Slots.History handleGenMask.toNat (slotPast past) m.table.slots :=
  Slots.trace_history (entityManager_trace h).2

theorem isAlive_slots :
    entityManagerIsAlive m e = true ↔
      handleGen e.h ≠ 0 ∧ m.table.slots.Alive (handleIndex e.h) (handleGen e.h) :=
  (entityManager_trace h).1.isAlive_iff e

theorem isAlive_since (he : e ≠ .null) (hpast : past = later ++ .created e :: earlier) :
    entityManagerIsAlive m e = true ↔
      m.liveness (handleIndex e.h) ≠ 0 ∧ handleGenMask.toNat ∣ releases (handleIndex e.h) later := by
  have hhistory := entityManager_history h
  rw [hpast, slotPast, List.map_append, List.map_cons, slotEvent_created he] at hhistory
  have hgen := (hhistory.issued _ _ _ _ rfl).2
  have hlive : m.table.slots.live (handleIndex e.h) = true ↔ m.liveness (handleIndex e.h) ≠ 0 :=
    decide_eq_true_iff
  rw [isAlive_slots h, hhistory.alive_iff, ← slotPast, retirements_slotPast, hlive]
  exact and_iff_right (by omega)

theorem issued_of_isAlive (halive : entityManagerIsAlive m e = true) : Issued past e := by
  obtain ⟨hgen, hslot⟩ := (isAlive_slots h).mp halive
  have hmem := (entityManager_history h).issued_of_alive hslot
  obtain ⟨event, hevent, heq⟩ := List.mem_map.mp hmem
  match event with
  | .created d =>
    by_cases hd : d = .null
    · simp [EntityEvent.slotEvent, hd] at heq
    · rw [slotEvent_created hd] at heq
      have hed : d = e := EntityId.ext_of_index_gen (SlotEvent.issued.inj heq).1
        (SlotEvent.issued.inj heq).2
      rw [← hed]
      exact ⟨hd, hevent⟩
  | .released d true => cases heq
  | .released d false => cases heq

theorem freeList_reverse : m.freeList.reverse = reusableIndices past := by
  rw [← reusable_slotPast]
  exact (entityManager_history h).free

theorem isAlive_unique {a b : EntityId} (ha : entityManagerIsAlive m a = true)
    (hb : entityManagerIsAlive m b = true) (hindex : handleIndex a.h = handleIndex b.h) : a = b :=
  (((entityManager_trace h).1.isAlive_iff a).mp ha).unique
    (((entityManager_trace h).1.isAlive_iff b).mp hb) hindex

theorem alive_enumeration :
    ∃ alive : List EntityId, alive.Nodup ∧ (∀ e, e ∈ alive ↔ entityManagerIsAlive m e = true) ∧
      alive.length = m.liveCount := by
  obtain ⟨inv, htrace⟩ := entityManager_trace h
  have sinv := Slots.trace_inv htrace
  have hbound : ∀ i, m.table.slots.live i = true →
      i < 2 ^ 18 ∧ 0 < m.generations i ∧ m.generations i < 2 ^ 14 := by
    intro i hi
    have hlt := inv.live_lt (of_decide_eq_true hi)
    exact ⟨Nat.lt_of_lt_of_le (Nat.lt_of_lt_of_le hlt inv.fresh_le) inv.capacity_le,
      inv.generation i hlt⟩
  refine ⟨m.table.slots.liveSlots.map fun i => ⟨handleMake i (m.generations i)⟩, ?_, ?_, ?_⟩
  · refine List.Nodup.map_on (fun i hi j hj heq => ?_) (List.nodup_range.filter _)
    have hi' := hbound i (sinv.mem_liveSlots.mp hi)
    have hj' := hbound j (sinv.mem_liveSlots.mp hj)
    rw [← handleIndex_make hi'.1 hi'.2.2, ← handleIndex_make hj'.1 hj'.2.2]
    exact congrArg (fun e : EntityId => handleIndex e.h) heq
  · intro e
    rw [isAlive_slots h, List.mem_map]
    constructor
    · rintro ⟨i, hi, rfl⟩
      have hlive := sinv.mem_liveSlots.mp hi
      have hi' := hbound i hlive
      rw [handleIndex_make hi'.1 hi'.2.2, handleGen_make hi'.1 hi'.2.2]
      exact ⟨Nat.ne_of_gt hi'.2.1, hlive, rfl⟩
    · rintro ⟨-, hlive, hgen⟩
      refine ⟨handleIndex e.h, sinv.mem_liveSlots.mpr hlive, ?_⟩
      exact congrArg EntityId.mk ((congrArg (handleMake _) hgen).trans (handleMake_index_gen e.h))
  · have hcount := sinv.live_add_free
    have hfree : m.table.slots.free.length = m.freeCount := by
      simp [EntityTable.slots, EntityManager.table, EntityManager.freeList]
    have hfresh : m.table.slots.fresh = m.nextFresh := rfl
    have hcounts := inv.counts
    rw [List.length_map]
    omega

theorem isAlive_created {t : EntityManager} (hcreate : entityManagerCreate m = (e, t))
    (he : e ≠ .null) : entityManagerIsAlive t e = true ∧ entityManagerIsAlive m e = false := by
  have hnext : entityManagerSystem.next m (.created e) t := hcreate
  cases (entityManager_trace h).1.created hcreate with
  | full => exact absurd rfl he
  | issued hnull _ hinv hstep =>
    have hpast : EntityEvent.created e :: past = [] ++ .created e :: past := rfl
    have hgen := isAlive_since (h.step hnext) he hpast
    rw [← Bool.not_eq_true, isAlive_slots h]
    obtain ⟨hdead, hlive, -⟩ := (Slots.trace_inv (entityManager_trace h).2).step_issued hstep
    refine ⟨hgen.mpr ⟨of_decide_eq_true hlive, Nat.dvd_zero _⟩, fun halive => ?_⟩
    exact Bool.noConfusion (hdead.symm.trans halive.2.1)

end

theorem entityManager_issues_unique_ids (h : entityManagerSystem.Trace past m) :
    (∀ e later earlier, e ≠ .null → past = later ++ .created e :: earlier →
      (entityManagerIsAlive m e = true ↔
        m.liveness (handleIndex e.h) ≠ 0 ∧
          handleGenMask.toNat ∣ releases (handleIndex e.h) later) ∧
      (0 < releases (handleIndex e.h) later →
        releases (handleIndex e.h) later < handleGenMask.toNat →
          entityManagerIsAlive m e = false)) ∧
    (∀ e, ¬ Issued past e ∨ m.liveness (handleIndex e.h) = 0 ∨ m.nextFresh ≤ handleIndex e.h →
      entityManagerIsAlive m e = false) ∧
    (∀ a b, entityManagerIsAlive m a = true → entityManagerIsAlive m b = true →
      handleIndex a.h = handleIndex b.h → a = b) ∧
    (∃ alive : List EntityId, alive.Nodup ∧ (∀ e, e ∈ alive ↔ entityManagerIsAlive m e = true) ∧
      alive.length = m.liveCount) ∧
    (m.liveCount + m.freeCount = m.nextFresh ∧ m.nextFresh ≤ m.capacity ∧ m.freeList.Nodup ∧
      ∀ i, i ∈ m.freeList ↔ i < m.nextFresh ∧ m.liveness i = 0) ∧
    (∀ e t, entityManagerCreate m = (e, t) →
      (e = .null ↔ m.liveCount = m.capacity) ∧ (e = .null → t = m) ∧
      (e ≠ .null → entityManagerIsAlive t e = true ∧ entityManagerIsAlive m e = false) ∧
      ∀ i rest, reusableIndices past = i :: rest → handleIndex e.h = i) ∧
    (∀ e accepted t, entityManagerRelease m e = (accepted, t) →
      (accepted = true ↔ entityManagerIsAlive m e = true) ∧ (accepted = false → t = m)) := by
  have inv := (entityManager_trace h).1
  refine ⟨fun e later earlier he hpast => ⟨isAlive_since h he hpast, fun hpos hlt => ?_⟩,
    fun e hdead => ?_, fun a b => isAlive_unique h, alive_enumeration h,
    ⟨inv.counts, inv.fresh_le, inv.free_nodup, inv.mem_free⟩, fun e t hcreate => ?_,
    fun e accepted t hrelease => ?_⟩
  · rw [← Bool.not_eq_true, isAlive_since h he hpast]
    exact fun halive => absurd (Nat.le_of_dvd hpos halive.2) (Nat.not_le_of_lt hlt)
  · rw [← Bool.not_eq_true]
    intro halive
    have hlive := of_decide_eq_true ((isAlive_slots h).mp halive).2.1
    rcases hdead with hissued | hslot | hfresh
    · exact hissued (issued_of_isAlive h halive)
    · exact hlive hslot
    · exact Nat.not_lt_of_le hfresh (inv.live_lt hlive)
  · refine ⟨?_, ?_, isAlive_created h hcreate, fun i rest hreuse => ?_⟩
    · cases inv.created hcreate with
      | full hfull => exact iff_of_true rfl hfull
      | issued hnull hroom => exact iff_of_false hnull hroom
    · cases inv.created hcreate with
      | full => exact fun _ => rfl
      | issued hnull => exact fun hnone => absurd hnone hnull
    · have hfree : m.table.slots.free = i :: rest := (freeList_reverse h).trans hreuse
      cases inv.created hcreate with
      | full hfull =>
        have hcounts := inv.counts
        have hle := inv.fresh_le
        have hempty : m.table.slots.free = [] := by
          simp [EntityTable.slots, EntityManager.table, EntityManager.freeList,
            (by omega : m.freeCount = 0)]
        rw [hempty] at hfree
        cases hfree
      | issued _ _ _ hstep =>
        exact ((Slots.trace_inv (entityManager_trace h).2).step_issued hstep).2.2 i rest hfree
  · obtain ⟨haccepted, hrejected, -⟩ := inv.released hrelease
    exact ⟨haccepted, hrejected⟩

theorem entityManager_issues_unique_ids_released :
    entityManagerIsAlive
      (entityManagerRelease (entityManagerCreate (.zeroed 1)).2 ⟨handleMake 0 1⟩).2
      ⟨handleMake 0 1⟩ = false := by
  have hinit : entityManagerSystem.initial (.zeroed 1) :=
    ⟨⟨4096, 0, 64, 64, 0, none, 0, by decide⟩, ⟨4096, 8, 64, 64, 8, none, 0, by decide⟩, 1, rfl⟩
  have htrace : entityManagerSystem.Trace
      [.released ⟨handleMake 0 1⟩ true, .created ⟨handleMake 0 1⟩]
      (entityManagerRelease (entityManagerCreate (.zeroed 1)).2 ⟨handleMake 0 1⟩).2 :=
    .step (.step (.start hinit) rfl) rfl
  exact ((entityManager_issues_unique_ids htrace).1 ⟨handleMake 0 1⟩
    [.released ⟨handleMake 0 1⟩ true] [] (by decide) rfl).2 (by decide) (by decide)

end ChoonzMoba
