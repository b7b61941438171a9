import ChoonzMoba.Core.Handle
import Mathlib.Logic.Function.Basic
import Mathlib.Data.List.Nodup
import Mathlib.Data.List.Lattice
import Mathlib.Data.Finset.Card

namespace ChoonzMoba

structure EntityManager where
  generations : Nat → Nat
  liveness : Nat → Nat
  freeStack : Nat → Nat
  capacity : Nat
  liveCount : Nat
  nextFresh : Nat
  freeCount : Nat

def EntityManager.zeroed (capacity : Nat) : EntityManager where
  generations := fun _ => 0
  liveness := fun _ => 0
  freeStack := fun _ => 0
  capacity := capacity
  liveCount := 0
  nextFresh := 0
  freeCount := 0

def entityManagerIssue (manager : EntityManager) (index : Nat) : EntityId × EntityManager :=
  let generation := if manager.generations index = 0 then 1 else manager.generations index
  (⟨handleMake index generation⟩,
    { manager with
      generations := Function.update manager.generations index generation
      liveness := Function.update manager.liveness index 1
      liveCount := manager.liveCount + 1 })

def entityManagerCreate (manager : EntityManager) : EntityId × EntityManager :=
  if manager.capacity = 0 then (.null, manager)
  else if 0 < manager.freeCount then
    let index := manager.freeStack (manager.freeCount - 1)
    if manager.capacity ≤ index ∨ manager.liveness index ≠ 0 then (.null, manager)
    else entityManagerIssue { manager with freeCount := manager.freeCount - 1 } index
  else if manager.capacity ≤ manager.nextFresh then (.null, manager)
  else entityManagerIssue { manager with nextFresh := manager.nextFresh + 1 } manager.nextFresh

def entityManagerIsAlive (manager : EntityManager) (entity : EntityId) : Bool :=
  let generation := handleGen entity.h
  let index := handleIndex entity.h
  decide (generation ≠ 0) && decide (index < manager.capacity) &&
    decide (manager.liveness index ≠ 0) && decide (manager.generations index = generation)

def entityManagerRelease (manager : EntityManager) (entity : EntityId) : Bool × EntityManager :=
  if !entityManagerIsAlive manager entity || decide (manager.capacity ≤ manager.freeCount) ||
      decide (manager.liveCount = 0) then (false, manager)
  else
    let index := handleIndex entity.h
    let next := manager.generations index + 1
    -- the debug-only ASSERT on the wrap is compiled out: generation 16383 is followed by 1
    let generation := if handleGenMask.toNat < next then 1 else next
    (true,
      { manager with
        generations := Function.update manager.generations index generation
        liveness := Function.update manager.liveness index 0
        freeStack := Function.update manager.freeStack manager.freeCount index
        freeCount := manager.freeCount + 1
        liveCount := manager.liveCount - 1 })

def EntityManager.freeList (m : EntityManager) : List Nat :=
  (List.range m.freeCount).map m.freeStack

structure EntityManager.Inv (m : EntityManager) : Prop where
  capacity_le : m.capacity ≤ 2 ^ 18
  fresh_le : m.nextFresh ≤ m.capacity
  counts : m.liveCount + m.freeCount = m.nextFresh
  generation : ∀ i < m.nextFresh, 0 < m.generations i ∧ m.generations i < 2 ^ 14
  liveness : ∀ i, m.liveness i ≤ 1
  unissued : ∀ i, m.nextFresh ≤ i → m.generations i = 0 ∧ m.liveness i = 0
  free_nodup : m.freeList.Nodup
  mem_free : ∀ i, i ∈ m.freeList ↔ i < m.nextFresh ∧ m.liveness i = 0

@[ext]
structure EntityTable where
  capacity : Nat
  fresh : Nat
  generation : Nat → Nat
  live : Nat → Bool
  free : List Nat

namespace EntityTable

def issue (t : EntityTable) (index : Nat) : EntityId × EntityTable :=
  let generation := if t.generation index = 0 then 1 else t.generation index
  (⟨handleMake index generation⟩,
    { t with
      generation := Function.update t.generation index generation
      live := Function.update t.live index true })

def create (t : EntityTable) : EntityId × EntityTable :=
  match t.free with
  | index :: rest => issue { t with free := rest } index
  | [] => if t.fresh < t.capacity then issue { t with fresh := t.fresh + 1 } t.fresh else (.null, t)

def Alive (t : EntityTable) (e : EntityId) : Prop :=
  handleGen e.h ≠ 0 ∧ t.live (handleIndex e.h) = true ∧ t.generation (handleIndex e.h) = handleGen e.h

instance (t : EntityTable) (e : EntityId) : Decidable (t.Alive e) :=
  inferInstanceAs (Decidable (_ ∧ _ ∧ _))

def succGeneration (g : Nat) : Nat := if handleGenMask.toNat < g + 1 then 1 else g + 1

def release (t : EntityTable) (e : EntityId) : EntityTable :=
  { t with
    generation := Function.update t.generation (handleIndex e.h)
      (succGeneration (t.generation (handleIndex e.h)))
    live := Function.update t.live (handleIndex e.h) false
    free := handleIndex e.h :: t.free }

theorem Alive.unique {t : EntityTable} {a b : EntityId} (ha : t.Alive a) (hb : t.Alive b)
    (h : handleIndex a.h = handleIndex b.h) : a = b :=
  EntityId.ext_of_index_gen h (by rw [← ha.2.2, ← hb.2.2, h])

theorem alive_release_iff (t : EntityTable) {e a : EntityId} (he : t.Alive e) :
    (t.release e).Alive a ↔ t.Alive a ∧ a ≠ e := by
  by_cases h : handleIndex a.h = handleIndex e.h
  · constructor
    · intro ha
      have hl := ha.2.1
      simp [release, h] at hl
    · intro ha
      exact absurd (ha.1.unique he h) ha.2
  · have hne : a ≠ e := fun hae => h (by rw [hae])
    simp [Alive, release, Function.update_of_ne h, hne]

end EntityTable

def EntityManager.table (m : EntityManager) : EntityTable where
  capacity := m.capacity
  fresh := m.nextFresh
  generation := m.generations
  live := fun i => decide (m.liveness i ≠ 0)
  free := m.freeList.reverse

namespace EntityManager

variable {m : EntityManager}

theorem Inv.zeroed {capacity : Nat} (h : capacity ≤ 2 ^ 18) : (zeroed capacity).Inv where
  capacity_le := h
  fresh_le := Nat.zero_le _
  counts := rfl
  generation := by intro i hi; exact absurd hi (Nat.not_lt_zero i)
  liveness := fun _ => Nat.zero_le _
  unissued := fun _ _ => ⟨rfl, rfl⟩
  free_nodup := List.nodup_nil
  mem_free := by simp [freeList, EntityManager.zeroed]

theorem Inv.live_lt (inv : m.Inv) {i : Nat} (h : m.liveness i ≠ 0) : i < m.nextFresh := by
  by_contra hge
  exact h (inv.unissued i (Nat.le_of_not_lt hge)).2

theorem Inv.isAlive_iff (inv : m.Inv) (e : EntityId) :
    entityManagerIsAlive m e = true ↔ m.table.Alive e := by
  simp only [entityManagerIsAlive, EntityTable.Alive, table, Bool.and_eq_true, decide_eq_true_eq]
  constructor
  · rintro ⟨⟨⟨hg, -⟩, hl⟩, hgen⟩
    exact ⟨hg, hl, hgen⟩
  · rintro ⟨hg, hl, hgen⟩
    exact ⟨⟨⟨hg, Nat.lt_of_lt_of_le (inv.live_lt hl) inv.fresh_le⟩, hl⟩, hgen⟩

theorem Inv.freeCount_lt (inv : m.Inv) {i : Nat} (h : m.liveness i ≠ 0) :
    m.freeCount < m.nextFresh := by
  have hi := inv.live_lt h
  have hsub : (i :: m.freeList) ⊆ List.range m.nextFresh := by
    intro j hj
    rcases List.mem_cons.mp hj with rfl | hj
    · exact List.mem_range.mpr hi
    · exact List.mem_range.mpr ((inv.mem_free j).mp hj).1
  have hnd : (i :: m.freeList).Nodup :=
    List.nodup_cons.mpr ⟨fun hmem => h ((inv.mem_free i).mp hmem).2, inv.free_nodup⟩
  have hlen := (List.subperm_of_subset hnd hsub).length_le
  simp only [List.length_cons, freeList, List.length_map, List.length_range] at hlen
  exact hlen

theorem freeList_pop (h : 0 < m.freeCount) :
    m.freeList = ({ m with freeCount := m.freeCount - 1 } : EntityManager).freeList ++
      [m.freeStack (m.freeCount - 1)] := by
  obtain ⟨n, hn⟩ : ∃ n, m.freeCount = n + 1 := ⟨m.freeCount - 1, by omega⟩
  simp [freeList, hn, List.range_succ]

theorem freeList_push (index : Nat) :
    (List.range (m.freeCount + 1)).map (Function.update m.freeStack m.freeCount index) =
      m.freeList ++ [index] := by
  rw [List.range_succ, List.map_append, freeList]
  congr 1
  · apply List.map_congr_left
    intro k hk
    exact Function.update_of_ne (Nat.ne_of_lt (List.mem_range.mp hk)) _ _
  · simp

structure Reserved (m : EntityManager) (index : Nat) : Prop where
  capacity_le : m.capacity ≤ 2 ^ 18
  fresh_le : m.nextFresh ≤ m.capacity
  counts : m.liveCount + m.freeCount + 1 = m.nextFresh
  index_lt : index < m.nextFresh
  dead : m.liveness index = 0
  generation_lt : m.generations index < 2 ^ 14
  generation : ∀ i < m.nextFresh, i ≠ index → 0 < m.generations i ∧ m.generations i < 2 ^ 14
  liveness : ∀ i, m.liveness i ≤ 1
  unissued : ∀ i, m.nextFresh ≤ i → m.generations i = 0 ∧ m.liveness i = 0
  free_nodup : m.freeList.Nodup
  mem_free : ∀ i, i ∈ m.freeList ↔ i < m.nextFresh ∧ m.liveness i = 0 ∧ i ≠ index

theorem Reserved.issue {index : Nat} (res : m.Reserved index) :
    (entityManagerIssue m index).2.Inv where
  capacity_le := res.capacity_le
  fresh_le := res.fresh_le
  counts := by
    have := res.counts
    simp only [entityManagerIssue]
    omega
  generation := by
    intro i hi
    by_cases h : i = index
    · subst h
      simp only [entityManagerIssue, Function.update_self]
      have := res.generation_lt
      split <;> omega
    · simpa only [entityManagerIssue, Function.update_of_ne h] using res.generation i hi h
  liveness := by
    intro i
    by_cases h : i = index
    · subst h; simp [entityManagerIssue]
    · simpa only [entityManagerIssue, Function.update_of_ne h] using res.liveness i
  unissued := by
    intro i hi
    have hne : i ≠ index := Nat.ne_of_gt (Nat.lt_of_lt_of_le res.index_lt hi)
    simpa only [entityManagerIssue, Function.update_of_ne hne] using res.unissued i hi
  free_nodup := res.free_nodup
  mem_free := by
    intro i
    refine (res.mem_free i).trans ?_
    by_cases h : i = index
    · subst h; simp [entityManagerIssue]
    · simp [entityManagerIssue, h]

theorem issue_table (index : Nat) :
    (entityManagerIssue m index).1 = (m.table.issue index).1 ∧
      (entityManagerIssue m index).2.table = (m.table.issue index).2 := by
  have hlive : (fun i => decide (Function.update m.liveness index 1 i ≠ 0)) =
      Function.update (fun i => decide (m.liveness i ≠ 0)) index true := by
    funext i
    by_cases h : i = index
    · subst h; simp
    · simp [Function.update_of_ne h]
  exact ⟨rfl, EntityTable.ext rfl rfl rfl hlive rfl⟩

theorem Inv.reserve_recycled (inv : m.Inv) (h : 0 < m.freeCount) :
    ({ m with freeCount := m.freeCount - 1 } : EntityManager).Reserved
      (m.freeStack (m.freeCount - 1)) := by
  have hpop := freeList_pop h
  have hnd := inv.free_nodup
  rw [hpop, List.nodup_append] at hnd
  have hin := (inv.mem_free (m.freeStack (m.freeCount - 1))).mp (by rw [hpop]; simp)
  have hgen := inv.generation _ hin.1
  refine ⟨inv.capacity_le, inv.fresh_le, ?_, hin.1, hin.2, hgen.2,
    fun i hi _ => inv.generation i hi, inv.liveness, inv.unissued, hnd.1, fun i => ?_⟩
  · have := inv.counts
    simp only
    omega
  · have hmem := inv.mem_free i
    rw [hpop, List.mem_append, List.mem_singleton] at hmem
    constructor
    · intro hi
      have := hmem.mp (Or.inl hi)
      exact ⟨this.1, this.2, hnd.2.2 i hi _ (List.mem_singleton_self _)⟩
    · rintro ⟨hlt, hdead, hne⟩
      exact (hmem.mpr ⟨hlt, hdead⟩).resolve_right hne

theorem Inv.reserve_fresh (inv : m.Inv) (h : m.nextFresh < m.capacity) :
    ({ m with nextFresh := m.nextFresh + 1 } : EntityManager).Reserved m.nextFresh := by
  have hnew := inv.unissued m.nextFresh (Nat.le_refl _)
  refine ⟨inv.capacity_le, h, congrArg (· + 1) inv.counts, Nat.lt_succ_self _, hnew.2, ?_, ?_,
    inv.liveness, fun i hi => inv.unissued i (Nat.le_of_succ_le hi), inv.free_nodup, fun i => ?_⟩
  · simp [hnew.1]
  · intro i hi hne
    exact inv.generation i (Nat.lt_of_le_of_ne (Nat.le_of_lt_succ hi) hne)
  · refine (inv.mem_free i).trans ?_
    simp only
    constructor
    · rintro ⟨hlt, hdead⟩
      exact ⟨Nat.lt_succ_of_lt hlt, hdead, Nat.ne_of_lt hlt⟩
    · rintro ⟨hlt, hdead, hne⟩
      exact ⟨Nat.lt_of_le_of_ne (Nat.le_of_lt_succ hlt) hne, hdead⟩

theorem Inv.create_recycled (inv : m.Inv) (h : 0 < m.freeCount) :
    entityManagerCreate m = entityManagerIssue { m with freeCount := m.freeCount - 1 }
      (m.freeStack (m.freeCount - 1)) := by
  have res := inv.reserve_recycled h
  have hlt : m.freeStack (m.freeCount - 1) < m.capacity :=
    Nat.lt_of_lt_of_le res.index_lt inv.fresh_le
  have hcap : m.capacity ≠ 0 := Nat.ne_of_gt (Nat.lt_of_le_of_lt (Nat.zero_le _) hlt)
  have hdead : m.liveness (m.freeStack (m.freeCount - 1)) = 0 := res.dead
  rw [entityManagerCreate, if_neg hcap, if_pos h]
  simp only [hdead, ne_eq, not_true_eq_false, or_false, if_neg (Nat.not_le_of_lt hlt)]

theorem create_fresh (h : m.freeCount = 0) (hlt : m.nextFresh < m.capacity) :
    entityManagerCreate m =
      entityManagerIssue { m with nextFresh := m.nextFresh + 1 } m.nextFresh := by
  have hcap : m.capacity ≠ 0 := Nat.ne_of_gt (Nat.lt_of_le_of_lt (Nat.zero_le _) hlt)
  rw [entityManagerCreate, if_neg hcap, if_neg (by omega), if_neg (Nat.not_le_of_lt hlt)]

theorem create_full (h : m.freeCount = 0) (hge : m.capacity ≤ m.nextFresh) :
    entityManagerCreate m = (.null, m) := by
  rw [entityManagerCreate, if_neg (by omega : ¬ 0 < m.freeCount), if_pos hge, ite_self]

theorem Inv.create (inv : m.Inv) : (entityManagerCreate m).2.Inv := by
  rcases Nat.eq_zero_or_pos m.freeCount with h | h
  · rcases Nat.lt_or_ge m.nextFresh m.capacity with hlt | hge
    · rw [create_fresh h hlt]
      exact (inv.reserve_fresh hlt).issue
    · rw [create_full h hge]
      exact inv
  · rw [inv.create_recycled h]
    exact (inv.reserve_recycled h).issue

theorem Inv.create_table (inv : m.Inv) :
    (entityManagerCreate m).1 = m.table.create.1 ∧
      (entityManagerCreate m).2.table = m.table.create.2 := by
  rcases Nat.eq_zero_or_pos m.freeCount with h | h
  · have hfree : m.table.free = [] := by simp [table, freeList, h]
    rcases Nat.lt_or_ge m.nextFresh m.capacity with hlt | hge
    · have hcreate : m.table.create =
          EntityTable.issue { m.table with fresh := m.nextFresh + 1 } m.nextFresh := by
        simp only [EntityTable.create, hfree]
        exact if_pos hlt
      rw [create_fresh h hlt, hcreate]
      exact issue_table _
    · have hcreate : m.table.create = (.null, m.table) := by
        simp only [EntityTable.create, hfree]
        exact if_neg (Nat.not_lt_of_le hge)
      rw [create_full h hge, hcreate]
      exact ⟨rfl, rfl⟩
  · have hfree : m.table.free = m.freeStack (m.freeCount - 1) ::
        ({ m with freeCount := m.freeCount - 1 } : EntityManager).freeList.reverse := by
      rw [table, freeList_pop h]
      simp
    have hcreate : m.table.create = EntityTable.issue
        ({ m with freeCount := m.freeCount - 1 } : EntityManager).table
        (m.freeStack (m.freeCount - 1)) := by
      simp only [EntityTable.create, hfree]
      rfl
    rw [inv.create_recycled h, hcreate]
    exact issue_table _

theorem Inv.release_dead (inv : m.Inv) {e : EntityId} (h : ¬ m.table.Alive e) :
    entityManagerRelease m e = (false, m) := by
  have halive : entityManagerIsAlive m e = false := by
    rw [← Bool.not_eq_true, inv.isAlive_iff]
    exact h
  simp [entityManagerRelease, halive]

theorem Inv.release_alive (inv : m.Inv) {e : EntityId} (h : m.table.Alive e) :
    ∃ q, entityManagerRelease m e = (true, q) ∧ q.Inv ∧ q.table = m.table.release e := by
  have halive := (inv.isAlive_iff e).mpr h
  have hlive : m.liveness (handleIndex e.h) ≠ 0 := by simpa [table] using h.2.1
  have hidx := inv.live_lt hlive
  have hfree := inv.freeCount_lt hlive
  have hfull : ¬ m.capacity ≤ m.freeCount := Nat.not_le_of_lt (Nat.lt_of_lt_of_le hfree inv.fresh_le)
  have hcount : m.liveCount ≠ 0 := by
    have := inv.counts
    omega
  have hgen := inv.generation _ hidx
  simp only [entityManagerRelease, halive, hfull, hcount, decide_false, Bool.not_true, Bool.or_self,
    Bool.false_eq_true, if_false]
  refine ⟨_, rfl, ?_, ?_⟩
  · refine ⟨inv.capacity_le, inv.fresh_le, ?_, ?_, ?_, ?_, ?_, ?_⟩
    · have := inv.counts
      simp only
      omega
    · intro i hi
      by_cases hne : i = handleIndex e.h
      · subst hne
        simp only [Function.update_self, handleGenMask_toNat]
        split <;> omega
      · simpa only [Function.update_of_ne hne] using inv.generation i hi
    · intro i
      by_cases hne : i = handleIndex e.h
      · subst hne; simp
      · simpa only [Function.update_of_ne hne] using inv.liveness i
    · intro i hi
      have hne : i ≠ handleIndex e.h := Nat.ne_of_gt (Nat.lt_of_lt_of_le hidx hi)
      simpa only [Function.update_of_ne hne] using inv.unissued i hi
    · rw [freeList, freeList_push, List.nodup_append]
      refine ⟨inv.free_nodup, by simp, fun a ha b hb => ?_⟩
      rw [List.mem_singleton] at hb
      rintro rfl
      exact hlive (hb ▸ ((inv.mem_free a).mp ha).2)
    · intro i
      rw [freeList, freeList_push, List.mem_append, List.mem_singleton, inv.mem_free i]
      by_cases hne : i = handleIndex e.h
      · subst hne; simp [hidx]
      · simp [hne]
  · have hl : (fun i => decide (Function.update m.liveness (handleIndex e.h) 0 i ≠ 0)) =
        Function.update (fun i => decide (m.liveness i ≠ 0)) (handleIndex e.h) false := by
      funext i
      by_cases hne : i = handleIndex e.h
      · subst hne; simp
      · simp [Function.update_of_ne hne]
    exact EntityTable.ext rfl rfl rfl hl (by simp [table, EntityTable.release, freeList, freeList_push])

end EntityManager

end ChoonzMoba
