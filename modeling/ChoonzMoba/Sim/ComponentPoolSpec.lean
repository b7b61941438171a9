import ChoonzMoba.Sim.ComponentPool

namespace ChoonzMoba.ComponentPool

variable {p : ComponentPool}

def inserted (p : ComponentPool) (e : EntityId) : ComponentPool :=
  { p with
    denseEntities := Function.update p.denseEntities p.count e
    sparse := Function.update p.sparse (handleIndex e.h) (p.count + 1)
    count := p.count + 1
    orderedDirty := true }

theorem add_eq {e : EntityId} (hg : handleGen e.h ≠ 0) (hi : handleIndex e.h < p.entityCapacity)
    (hroom : p.count < p.capacity) (hfree : p.sparse (handleIndex e.h) = 0) :
    componentPoolAdd p e = (some p.count, p.inserted e) := by
  have hfull : ¬ p.capacity ≤ p.count := Nat.not_le_of_lt hroom
  simp [componentPoolAdd, entityFits, hg, hi, hfull, hfree, inserted]

theorem add_rejected {e : EntityId} (h : handleGen e.h = 0 ∨ p.entityCapacity ≤ handleIndex e.h ∨
    p.capacity ≤ p.count ∨ p.sparse (handleIndex e.h) ≠ 0) :
    componentPoolAdd p e = (none, p) := by
  rcases h with h | h | h | h
  · simp [componentPoolAdd, entityFits, h]
  · simp [componentPoolAdd, entityFits, Nat.not_lt_of_le h]
  · simp [componentPoolAdd, h]
  · simp [componentPoolAdd, h]

theorem add_cases (p : ComponentPool) (e : EntityId) :
    componentPoolAdd p e = (none, p) ∨
      (handleGen e.h ≠ 0 ∧ handleIndex e.h < p.entityCapacity ∧ p.count < p.capacity ∧
        p.sparse (handleIndex e.h) = 0 ∧ componentPoolAdd p e = (some p.count, p.inserted e)) := by
  by_cases h : handleGen e.h = 0 ∨ p.entityCapacity ≤ handleIndex e.h ∨
      p.capacity ≤ p.count ∨ p.sparse (handleIndex e.h) ≠ 0
  · exact Or.inl (add_rejected h)
  · simp only [not_or, Nat.not_le, not_not] at h
    exact Or.inr ⟨h.1, h.2.1, h.2.2.1, h.2.2.2, add_eq h.1 h.2.1 h.2.2.1 h.2.2.2⟩

def denseIndices (p : ComponentPool) : List Nat :=
  (List.range p.count).map fun d => handleIndex (p.denseEntities d).h

theorem Inv.denseIndices_nodup (inv : p.Inv) : p.denseIndices.Nodup := by
  apply List.Nodup.map_on _ List.nodup_range
  intro a ha b hb hab
  have hda := (inv.dense a (List.mem_range.mp ha)).2.2
  have hdb := (inv.dense b (List.mem_range.mp hb)).2.2
  rw [hab] at hda
  omega

theorem Inv.mem_denseIndices (inv : p.Inv) (i : Nat) : i ∈ p.denseIndices ↔ p.sparse i ≠ 0 := by
  simp only [denseIndices, List.mem_map, List.mem_range]
  constructor
  · rintro ⟨d, hd, rfl⟩
    rw [(inv.dense d hd).2.2]
    exact Nat.succ_ne_zero d
  · intro hs
    exact ⟨p.sparse i - 1, inv.dense_lt hs, (inv.sparse i hs).2⟩

theorem Inv.room (inv : p.Inv) (hcap : p.capacity = p.entityCapacity) {i : Nat}
    (hi : i < p.entityCapacity) (hfree : p.sparse i = 0) : p.count < p.capacity := by
  have hnd : (i :: p.denseIndices).Nodup :=
    List.nodup_cons.mpr ⟨fun h => (inv.mem_denseIndices i).mp h hfree, inv.denseIndices_nodup⟩
  have hsub : (i :: p.denseIndices) ⊆ List.range p.entityCapacity := by
    intro j hj
    rcases List.mem_cons.mp hj with rfl | hj
    · exact List.mem_range.mpr hi
    · exact List.mem_range.mpr (inv.index_lt ((inv.mem_denseIndices j).mp hj))
  have hlen := (List.subperm_of_subset hnd hsub).length_le
  simp only [List.length_cons, denseIndices, List.length_map, List.length_range] at hlen
  omega

theorem inserted_sparse_ne {e : EntityId} {i : Nat} (h : i ≠ handleIndex e.h) :
    (p.inserted e).sparse i = p.sparse i := by
  simp [inserted, h]

theorem Inv.inserted_denseOf_ne (inv : p.Inv) {e : EntityId} {i : Nat} (h : i ≠ handleIndex e.h)
    (hs : p.sparse i ≠ 0) : (p.inserted e).denseOf i = p.denseOf i := by
  have hne : p.sparse i - 1 ≠ p.count := Nat.ne_of_lt (inv.dense_lt hs)
  simp [inserted, denseOf, h, hne]

@[simp] theorem inserted_sparse_self (e : EntityId) :
    (p.inserted e).sparse (handleIndex e.h) = p.count + 1 := by
  simp [inserted]

@[simp] theorem inserted_denseOf_self (e : EntityId) :
    (p.inserted e).denseOf (handleIndex e.h) = e := by
  simp [inserted, denseOf]

theorem Inv.inserted (inv : p.Inv) {e : EntityId} (hg : handleGen e.h ≠ 0)
    (hi : handleIndex e.h < p.entityCapacity) (hroom : p.count < p.capacity)
    (hfree : p.sparse (handleIndex e.h) = 0) : (p.inserted e).Inv where
  entityCapacity_le := inv.entityCapacity_le
  capacity_le := inv.capacity_le
  count_le := hroom
  dense := by
    intro d hd
    by_cases h : d = p.count
    · subst h
      simp [ComponentPool.inserted, hg, hi]
    · have hdense := inv.dense d (Nat.lt_of_le_of_ne (Nat.le_of_lt_succ hd) h)
      have hne : handleIndex (p.denseEntities d).h ≠ handleIndex e.h := by
        intro heq
        rw [heq, hfree] at hdense
        omega
      simpa [ComponentPool.inserted, h, hne] using hdense
  sparse := by
    intro i hs
    by_cases h : i = handleIndex e.h
    · subst h
      simp [ComponentPool.inserted, denseOf]
    · rw [inserted_sparse_ne h] at hs ⊢
      rw [inv.inserted_denseOf_ne h hs]
      exact ⟨Nat.le_succ_of_le (inv.sparse i hs).1, (inv.sparse i hs).2⟩
  ordered_le := inv.ordered_le
  cache := by intro h; exact absurd h (by simp [ComponentPool.inserted])

theorem Inv.inserted_holds (inv : p.Inv) {e : EntityId} (hfree : p.sparse (handleIndex e.h) = 0)
    (a : EntityId) : (p.inserted e).Holds a ↔ a = e ∨ p.Holds a := by
  by_cases h : handleIndex a.h = handleIndex e.h
  · have hold : ¬ p.Holds a := fun ha => ha.1 (by rw [h, hfree])
    simp only [Holds, h, inserted_sparse_self, inserted_denseOf_self] at hold ⊢
    exact ⟨fun ha => Or.inl ha.2.symm, fun ha => ⟨Nat.succ_ne_zero _, (ha.resolve_right hold).symm⟩⟩
  · have hne : a ≠ e := fun hae => h (by rw [hae])
    simp only [Holds, inserted_sparse_ne h, hne, false_or]
    constructor
    · rintro ⟨hs, hd⟩
      exact ⟨hs, by rwa [inv.inserted_denseOf_ne h hs] at hd⟩
    · rintro ⟨hs, hd⟩
      exact ⟨hs, by rwa [inv.inserted_denseOf_ne h hs]⟩

def erased (p : ComponentPool) (e : EntityId) : ComponentPool :=
  let removedDense := p.sparse (handleIndex e.h) - 1
  let lastDense := p.count - 1
  let moved := p.denseEntities lastDense
  { p with
    denseEntities := Function.update
      (if removedDense ≠ lastDense then Function.update p.denseEntities removedDense moved
        else p.denseEntities) lastDense .null
    sparse := Function.update
      (if removedDense ≠ lastDense then
        Function.update p.sparse (handleIndex moved.h) (removedDense + 1) else p.sparse)
      (handleIndex e.h) 0
    count := p.count - 1
    orderedDirty := true }

theorem Inv.remove_eq (inv : p.Inv) {e : EntityId} (h : p.Holds e) :
    ∃ moved, componentPoolRemove p e =
      (some ⟨p.sparse (handleIndex e.h) - 1, p.count - 1, moved⟩, p.erased e) := by
  have hhas := (inv.has_iff e).mpr h
  have hlt := inv.dense_lt h.1
  have hcount : p.count ≠ 0 := by omega
  have hlast := inv.dense (p.count - 1) (by omega)
  unfold componentPoolRemove
  simp only [hhas, hcount, decide_false, Bool.not_true, Bool.or_self, Bool.false_eq_true, if_false]
  by_cases hr : p.sparse (handleIndex e.h) - 1 = p.count - 1
  · simp [hr, erased]
  · have hcap : ¬ p.entityCapacity ≤ handleIndex (p.denseEntities (p.count - 1)).h :=
      Nat.not_le_of_lt hlast.2.1
    simp [hr, hlast.1, hlast.2.2, hcap, erased]

theorem Inv.remove_rejected (inv : p.Inv) {e : EntityId} (h : ¬ p.Holds e) :
    componentPoolRemove p e = (none, p) := by
  have hhas : componentPoolHas p e = false := by
    rw [← Bool.not_eq_true, inv.has_iff]
    exact h
  simp [componentPoolRemove, hhas]

theorem Inv.last_ne (inv : p.Inv) {e : EntityId} (h : p.Holds e)
    (hr : p.sparse (handleIndex e.h) - 1 ≠ p.count - 1) :
    handleIndex (p.denseEntities (p.count - 1)).h ≠ handleIndex e.h := by
  intro heq
  have hlt := inv.dense_lt h.1
  have hlast := (inv.dense (p.count - 1) (by omega)).2.2
  rw [heq] at hlast
  omega

@[simp] theorem erased_sparse_self (e : EntityId) :
    (p.erased e).sparse (handleIndex e.h) = 0 := by
  simp [erased]

theorem Inv.erased_sparse_ne (inv : p.Inv) {e : EntityId} (h : p.Holds e) {i : Nat}
    (hi : i ≠ handleIndex e.h) (hs : p.sparse i ≠ 0) :
    (p.erased e).sparse i =
      if p.sparse i = p.count then p.sparse (handleIndex e.h) else p.sparse i := by
  have hlt := inv.dense_lt h.1
  have hpos : p.sparse (handleIndex e.h) - 1 + 1 = p.sparse (handleIndex e.h) := by
    have := h.1
    omega
  have hlast := inv.dense (p.count - 1) (by omega)
  have hdense := (inv.sparse i hs).2
  have hle := (inv.sparse i hs).1
  simp only [erased, Function.update_of_ne hi]
  split
  · next hr =>
    by_cases hm : i = handleIndex (p.denseEntities (p.count - 1)).h
    · subst hm
      rw [hlast.2.2, Function.update_self, if_pos (by omega), hpos]
    · rw [Function.update_of_ne hm, if_neg]
      intro hc
      rw [denseOf, hc] at hdense
      exact hm hdense.symm
  · next hr =>
    rw [if_neg]
    intro hc
    have heq : p.denseOf i = p.denseOf (handleIndex e.h) := by
      rw [denseOf, denseOf, hc]
      simp only [ne_eq, not_not] at hr
      rw [hr]
    rw [heq, (inv.sparse _ h.1).2] at hdense
    exact hi hdense.symm

theorem erased_sparse_zero {e : EntityId} {i : Nat} (hs : p.sparse i = 0)
    (hlast : p.sparse (handleIndex (p.denseEntities (p.count - 1)).h) ≠ 0) :
    (p.erased e).sparse i = 0 := by
  have hne : i ≠ handleIndex (p.denseEntities (p.count - 1)).h := by
    rintro rfl
    exact hlast hs
  simp only [erased]
  by_cases hi : i = handleIndex e.h
  · rw [hi, Function.update_self]
  · rw [Function.update_of_ne hi]
    split
    · rw [Function.update_of_ne hne, hs]
    · exact hs

theorem Inv.erased_sparse_ne_zero (inv : p.Inv) {e : EntityId} (h : p.Holds e) (i : Nat) :
    (p.erased e).sparse i ≠ 0 ↔ i ≠ handleIndex e.h ∧ p.sparse i ≠ 0 := by
  have hlt := inv.dense_lt h.1
  by_cases hi : i = handleIndex e.h
  · subst hi; simp
  · by_cases hs : p.sparse i = 0
    · have hlast := (inv.dense (p.count - 1) (by omega)).2.2
      simp [erased_sparse_zero hs (by omega : _ ≠ 0), hs]
    · rw [inv.erased_sparse_ne h hi hs]
      have := h.1
      split <;> simp_all

theorem Inv.erased_denseOf_ne (inv : p.Inv) {e : EntityId} (h : p.Holds e) {i : Nat}
    (hi : i ≠ handleIndex e.h) (hs : p.sparse i ≠ 0) :
    (p.erased e).denseOf i = p.denseOf i := by
  have hlt := inv.dense_lt h.1
  have hdense := (inv.sparse i hs).2
  have hle := (inv.sparse i hs).1
  rw [denseOf, inv.erased_sparse_ne h hi hs]
  split
  · next hc =>
    have hr : p.sparse (handleIndex e.h) - 1 ≠ p.count - 1 := by
      intro hr
      have heq : p.denseOf i = p.denseOf (handleIndex e.h) := by rw [denseOf, denseOf, hc, hr]
      rw [heq, (inv.sparse _ h.1).2] at hdense
      exact hi hdense.symm
    simp [erased, hr, denseOf, hc]
  · next hc =>
    have hne : p.sparse i - 1 ≠ p.count - 1 := by omega
    simp only [erased, Function.update_of_ne hne, denseOf]
    split
    · have hr : p.sparse i - 1 ≠ p.sparse (handleIndex e.h) - 1 := by
        intro hr
        have heq : p.denseOf i = p.denseOf (handleIndex e.h) := by rw [denseOf, denseOf, hr]
        rw [heq, (inv.sparse _ h.1).2] at hdense
        exact hi hdense.symm
      rw [Function.update_of_ne hr]
    · rfl

theorem Inv.erased_holds (inv : p.Inv) {e : EntityId} (h : p.Holds e) (a : EntityId) :
    (p.erased e).Holds a ↔ p.Holds a ∧ a ≠ e := by
  by_cases hi : handleIndex a.h = handleIndex e.h
  · constructor
    · intro ha
      exact absurd (by rw [hi]; simp) ha.1
    · rintro ⟨ha, hne⟩
      exact absurd (ha.unique h hi) hne
  · have hne : a ≠ e := fun hae => hi (by rw [hae])
    simp only [Holds, inv.erased_sparse_ne_zero h, hi, ne_eq, not_false_eq_true, true_and, hne,
      and_true]
    constructor
    · rintro ⟨hs, hd⟩
      exact ⟨hs, by rwa [inv.erased_denseOf_ne h hi hs] at hd⟩
    · rintro ⟨hs, hd⟩
      exact ⟨hs, by rwa [inv.erased_denseOf_ne h hi hs]⟩

theorem Inv.erased (inv : p.Inv) {e : EntityId} (h : p.Holds e) : (p.erased e).Inv where
  entityCapacity_le := inv.entityCapacity_le
  capacity_le := inv.capacity_le
  count_le := Nat.le_trans (Nat.sub_le _ _) inv.count_le
  dense := by
    intro d hd
    have hlt := inv.dense_lt h.1
    have hd' : d < p.count - 1 := hd
    have hlast := inv.dense (p.count - 1) (by omega)
    have hold := inv.dense d (by omega)
    by_cases hr : d = p.sparse (handleIndex e.h) - 1
    · have hne : p.sparse (handleIndex e.h) - 1 ≠ p.count - 1 := by omega
      have hmoved := inv.last_ne h hne
      have hdense : (p.erased e).denseEntities d = p.denseEntities (p.count - 1) := by
        simp [ComponentPool.erased, hr, hne]
      rw [hdense]
      refine ⟨hlast.1, hlast.2.1, ?_⟩
      rw [inv.erased_sparse_ne h hmoved (by omega), if_pos (by omega)]
      have := h.1
      omega
    · have hdense : (p.erased e).denseEntities d = p.denseEntities d := by
        simp only [ComponentPool.erased, Function.update_of_ne (Nat.ne_of_lt hd')]
        split
        · rw [Function.update_of_ne hr]
        · rfl
      rw [hdense]
      refine ⟨hold.1, hold.2.1, ?_⟩
      have hne : handleIndex (p.denseEntities d).h ≠ handleIndex e.h := by
        intro heq
        rw [heq] at hold
        omega
      rw [inv.erased_sparse_ne h hne (by omega), if_neg (by omega), hold.2.2]
  sparse := by
    intro i hs
    have hlt := inv.dense_lt h.1
    obtain ⟨hi, hs'⟩ := (inv.erased_sparse_ne_zero h i).mp hs
    rw [inv.erased_denseOf_ne h hi hs', inv.erased_sparse_ne h hi hs']
    refine ⟨?_, (inv.sparse i hs').2⟩
    change _ ≤ p.count - 1
    have hle := (inv.sparse i hs').1
    split
    · next hc =>
      by_contra hgt
      have hd : p.denseOf i = p.denseOf (handleIndex e.h) := by
        rw [denseOf, denseOf]
        congr 1
        omega
      have hdense := (inv.sparse i hs').2
      rw [hd, (inv.sparse _ h.1).2] at hdense
      exact hi hdense.symm
    · omega
  ordered_le := inv.ordered_le
  cache := by intro hc; exact absurd hc (by simp [ComponentPool.erased])

theorem indicesBelow_succ (n : Nat) : p.indicesBelow (n + 1) =
    p.indicesBelow n ++ if p.sparse n ≠ 0 then [n] else [] := by
  rw [indicesBelow, List.range_succ, List.filter_append]
  by_cases h : p.sparse n = 0 <;> simp [indicesBelow, h]

theorem Inv.indices_length_of (inv : p.Inv) {n : Nat} (h : ∀ i, p.sparse i ≠ 0 → i < n) :
    (p.indicesBelow n).length = p.count := by
  have hperm : (p.indicesBelow n).Perm p.denseIndices := by
    refine (List.perm_ext_iff_of_nodup (List.nodup_range.filter _) inv.denseIndices_nodup).mpr ?_
    intro i
    rw [inv.mem_denseIndices]
    simp only [List.mem_filter, List.mem_range, decide_eq_true_eq]
    exact ⟨fun hi => hi.2, fun hi => ⟨h i hi, hi⟩⟩
  simpa [denseIndices] using hperm.length_eq

theorem Inv.indices_length (inv : p.Inv) :
    (p.indicesBelow p.entityCapacity).length = p.count :=
  inv.indices_length_of fun _ hi => inv.index_lt hi

theorem indicesBelow_length_le {m n : Nat} (h : m ≤ n) :
    (p.indicesBelow m).length ≤ (p.indicesBelow n).length := by
  induction h with
  | refl => exact Nat.le_refl _
  | step _ ih =>
    rw [indicesBelow_succ, List.length_append]
    omega

theorem Inv.observeStep (inv : p.Inv) {i : Nat} (hi : i < p.entityCapacity) :
    orderedObserveStep p (p.indicesBelow i).length i = some (p.indicesBelow (i + 1)).length := by
  by_cases hs : p.sparse i = 0
  · simp [orderedObserveStep, indicesBelow_succ, hs]
  · have hd := inv.dense_lt hs
    have hdense := (inv.dense _ hd).1
    have hidx := (inv.sparse i hs).2
    have hcount := inv.count_le
    have hmono := indicesBelow_length_le (p := p) (Nat.succ_le_of_lt hi)
    rw [inv.indices_length, indicesBelow_succ, if_pos hs, List.length_append,
      List.length_singleton] at hmono
    rw [indicesBelow_succ, if_pos hs, List.length_append, List.length_singleton]
    simp only [orderedObserveStep, if_neg hs]
    rw [if_neg]
    simp only [not_or, Nat.not_le, not_not]
    exact ⟨hd, by omega, hdense, hidx, by omega⟩

theorem Inv.observe (inv : p.Inv) : orderedObserve p = some p.count := by
  obtain ⟨t, ht, hp⟩ := Loop.forRangeM_total (n := p.entityCapacity) (s := 0)
    (f := orderedObserveStep p) (fun n observed => observed = (p.indicesBelow n).length) rfl
    (fun i _ hi ho => ⟨_, ho ▸ inv.observeStep hi, rfl⟩)
  rw [orderedObserve, ht, hp, inv.indices_length]

theorem rebuild_spec (p : ComponentPool) :
    (orderedRebuild p).2 = (p.indicesBelow p.entityCapacity).length ∧
      (List.range (orderedRebuild p).2).map (orderedRebuild p).1 = p.members := by
  refine Loop.forRange_invariant (σ := (Nat → EntityId) × Nat)
    (fun n cache => cache.2 = (p.indicesBelow n).length ∧
      (List.range cache.2).map cache.1 = (p.indicesBelow n).map p.denseOf) ⟨rfl, rfl⟩ ?_
  rintro i ⟨entities, ordered⟩ - ⟨hlen, hlist⟩
  simp only at hlen hlist
  by_cases hs : p.sparse i = 0
  · simp [orderedRebuildStep, indicesBelow_succ, hs, hlen, ← hlist]
  · have hkeep : (List.range ordered).map
        (Function.update entities ordered (p.denseEntities (p.sparse i - 1))) =
        (List.range ordered).map entities := by
      apply List.map_congr_left
      intro k hk
      exact Function.update_of_ne (Nat.ne_of_lt (List.mem_range.mp hk)) _ _
    simp only [orderedRebuildStep, indicesBelow_succ, ne_eq, hs, not_false_eq_true, if_true,
      List.length_append, List.length_singleton, List.range_succ, List.map_append, hkeep,
      hlist, List.map_cons, List.map_nil, Function.update_self, denseOf]
    exact ⟨congrArg (· + 1) hlen, trivial⟩

theorem cleared_map (entities : Nat → EntityId) (ordered extra : Nat) :
    (List.range ordered).map (Loop.forRange extra
      (fun entities i => Function.update entities (ordered + i) .null) entities) =
      (List.range ordered).map entities := by
  apply List.map_congr_left
  intro k hk
  refine Loop.forRange_invariant (fun _ (cleared : Nat → EntityId) => cleared k = entities k) rfl ?_
  intro i cleared _ hc
  have hlt := List.mem_range.mp hk
  rw [Function.update_of_ne (by omega), hc]

theorem Inv.orderedView (inv : p.Inv) : ∃ view q, componentPoolOrderedView p = (some view, q) ∧
    view.list = p.members ∧ q.Inv ∧
      q = { p with orderedEntities := view.entities, orderedCount := view.count,
                   orderedDirty := false } := by
  have hcount : ¬ p.capacity < p.count := Nat.not_lt_of_le inv.count_le
  unfold componentPoolOrderedView
  rw [if_neg hcount]
  split
  · next hd =>
    obtain ⟨hlen, hlist⟩ := rebuild_spec p
    have hcleared := cleared_map (orderedRebuild p).1 (orderedRebuild p).2
      (p.orderedCount - (orderedRebuild p).2)
    simp only [inv.observe, ne_eq, not_true_eq_false, if_false]
    refine ⟨_, _, rfl, hcleared.trans hlist, ?_, rfl⟩
    refine ⟨inv.entityCapacity_le, inv.capacity_le, inv.count_le, inv.dense, inv.sparse, ?_,
      fun _ => hcleared.trans hlist⟩
    simp only
    rw [hlen, inv.indices_length]
    exact inv.count_le
  · next hd =>
    have hcache : p.orderedDirty = false := by simpa using hd
    exact ⟨_, _, rfl, inv.cache hcache, inv, by cases p; simp only at hcache; rw [hcache]⟩

theorem Inv.mem_members (inv : p.Inv) (e : EntityId) : e ∈ p.members ↔ p.Holds e := by
  simp only [members, indicesBelow, List.mem_map, List.mem_filter, List.mem_range,
    decide_eq_true_eq]
  constructor
  · rintro ⟨i, ⟨-, hs⟩, rfl⟩
    have hi := (inv.sparse i hs).2
    exact ⟨by rwa [hi], by rw [hi]⟩
  · rintro ⟨hs, hd⟩
    exact ⟨handleIndex e.h, ⟨inv.index_lt hs, hs⟩, hd⟩

theorem Inv.members_nodup (inv : p.Inv) : p.members.Nodup := by
  apply List.Nodup.map_on _ (List.nodup_range.filter _)
  intro i hi j hj hij
  have hi' := (inv.sparse i (by simpa using (List.mem_filter.mp hi).2)).2
  have hj' := (inv.sparse j (by simpa using (List.mem_filter.mp hj).2)).2
  rw [← hi', ← hj', hij]

end ChoonzMoba.ComponentPool
