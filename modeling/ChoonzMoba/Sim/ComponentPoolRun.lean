import ChoonzMoba.Library.System
import ChoonzMoba.Sim.ComponentPoolBounds
import ChoonzMoba.Sim.InitSpec
import Mathlib.Data.List.Sort

namespace ChoonzMoba

inductive ComponentPoolEvent where
  | added (e : EntityId) (dense : Option Nat)
  | removed (e : EntityId) (result : Option ComponentPoolRemoveResult)
  | viewed (view : Option ComponentPoolOrderedView)

def componentPoolSystem : System ComponentPool ComponentPoolEvent where
  initial p := ∃ arena pushed entityCapacity capacity,
    componentPoolInit arena entityCapacity capacity = some (pushed, some p)
  next p event q :=
    match event with
    | .added e dense => componentPoolAdd p e = (dense, q)
    | .removed e result => componentPoolRemove p e = (result, q)
    | .viewed view => componentPoolOrderedView p = (view, q)

def Member : List ComponentPoolEvent → EntityId → Prop
  | [], _ => False
  | .added a dense :: past, e => (dense.isSome ∧ e = a) ∨ Member past e
  | .removed a result :: past, e => Member past e ∧ ¬ (result.isSome ∧ e = a)
  | .viewed _ :: past, e => Member past e

def IndexAscending (l : List EntityId) : Prop :=
  l.Pairwise fun a b => handleIndex a.h < handleIndex b.h

theorem IndexAscending.unique {l l' : List EntityId} (h : IndexAscending l)
    (h' : IndexAscending l') (hmem : ∀ e, e ∈ l ↔ e ∈ l') : l = l' := by
  have : Std.Irrefl fun a b : EntityId => handleIndex a.h < handleIndex b.h :=
    ⟨fun _ => Nat.lt_irrefl _⟩
  have : Std.Antisymm fun a b : EntityId => handleIndex a.h < handleIndex b.h :=
    ⟨fun _ _ hab hba => absurd hab (Nat.lt_asymm hba)⟩
  exact List.Pairwise.eq_of_mem_iff h h' hmem

namespace ComponentPool

variable {p q : ComponentPool} {past : List ComponentPoolEvent} {event : ComponentPoolEvent}

theorem Inv.members_ascending (inv : p.Inv) : IndexAscending p.members := by
  rw [IndexAscending, members, List.pairwise_map]
  have hsorted : (p.indicesBelow p.entityCapacity).Pairwise (· < ·) :=
    List.Pairwise.filter _ List.pairwise_lt_range
  refine hsorted.imp_of_mem fun {i j} hi hj hlt => ?_
  rwa [(inv.sparse i (by simpa using (List.mem_filter.mp hi).2)).2,
    (inv.sparse j (by simpa using (List.mem_filter.mp hj).2)).2]

theorem Inv.sparse_iff (inv : p.Inv) (i d : Nat) :
    p.sparse i = d + 1 ↔ d < p.count ∧ handleIndex (p.denseEntities d).h = i := by
  constructor
  · intro hs
    have hne : p.sparse i ≠ 0 := by omega
    have hentry := inv.sparse i hne
    rw [denseOf, hs, Nat.add_sub_cancel] at hentry
    exact ⟨hentry.1, hentry.2⟩
  · rintro ⟨hd, rfl⟩
    exact (inv.dense d hd).2.2

theorem Inv.holds_iff_dense (inv : p.Inv) (e : EntityId) :
    p.Holds e ↔ ∃ d < p.count, p.denseEntities d = e := by
  constructor
  · rintro ⟨hs, he⟩
    exact ⟨p.sparse (handleIndex e.h) - 1, inv.dense_lt hs, he⟩
  · rintro ⟨d, hd, rfl⟩
    have hs := (inv.dense d hd).2.2
    exact ⟨by omega, by rw [denseOf, hs, Nat.add_sub_cancel]⟩

structure After (past : List ComponentPoolEvent) (p : ComponentPool) : Prop where
  inv : p.Inv
  holds : ∀ e, p.Holds e ↔ Member past e

theorem After.step (h : After past p) (hnext : componentPoolSystem.next p event q) :
    After (event :: past) q := by
  match event with
  | .added e dense =>
    have hadd : componentPoolAdd p e = (dense, q) := hnext
    rcases add_cases p e with hfail | ⟨hg, hi, hroom, hfree, hok⟩
    · rw [hfail] at hadd
      obtain ⟨rfl, rfl⟩ := Prod.mk.inj hadd
      exact ⟨h.inv, fun a => by simp [Member, h.holds a]⟩
    · rw [hok] at hadd
      obtain ⟨rfl, rfl⟩ := Prod.mk.inj hadd
      refine ⟨h.inv.inserted hg hi hroom hfree, fun a => ?_⟩
      rw [h.inv.inserted_holds hfree, h.holds a]
      simp [Member]
  | .removed e result =>
    have hremove : componentPoolRemove p e = (result, q) := hnext
    by_cases hholds : p.Holds e
    · obtain ⟨moved, hok⟩ := h.inv.remove_eq hholds
      rw [hok] at hremove
      obtain ⟨rfl, rfl⟩ := Prod.mk.inj hremove
      refine ⟨h.inv.erased hholds, fun a => ?_⟩
      rw [h.inv.erased_holds hholds, h.holds a]
      simp [Member]
    · rw [h.inv.remove_rejected hholds] at hremove
      obtain ⟨rfl, rfl⟩ := Prod.mk.inj hremove
      exact ⟨h.inv, fun a => by simp [Member, h.holds a]⟩
  | .viewed view =>
    have hview : componentPoolOrderedView p = (view, q) := hnext
    obtain ⟨v, r, hok, -, hinv, hr⟩ := h.inv.orderedView
    rw [hok] at hview
    obtain ⟨rfl, rfl⟩ := Prod.mk.inj hview
    refine ⟨hinv, fun a => ?_⟩
    rw [hr]
    exact h.holds a

theorem after_init (h : componentPoolSystem.initial p) : After [] p := by
  obtain ⟨arena, pushed, entityCapacity, capacity, hinit⟩ := h
  have hvalid : componentPoolMemoryRequired entityCapacity capacity ≠ 0 := by
    intro hzero
    simp [componentPoolInit, hzero] at hinit
  have hbounds : entityCapacity ≤ 2 ^ 18 ∧ capacity ≤ entityCapacity := by
    have hmask := handleIndexMask_toNat
    rw [componentPoolMemoryRequired] at hvalid
    split at hvalid
    · exact absurd rfl hvalid
    · omega
  rw [componentPoolInit_some hinit]
  exact ⟨.zeroed hbounds.1 hbounds.2, fun e => iff_of_false (fun h => h.1 rfl) id⟩

theorem after_trace (h : componentPoolSystem.Trace past p) : After past p := by
  induction h with
  | start h => exact after_init h
  | step _ hnext ih => exact ih.step hnext

theorem After.member_iff (h : After past p) (e : EntityId) : Member past e ↔ e ∈ p.members :=
  (h.holds e).symm.trans (h.inv.mem_members e).symm

theorem After.unique {a b : EntityId} (h : After past p) (ha : Member past a) (hb : Member past b)
    (hindex : handleIndex a.h = handleIndex b.h) : a = b :=
  ((h.holds a).mpr ha).unique ((h.holds b).mpr hb) hindex

theorem After.dense_iff (h : After past p) {e : EntityId} (he : Member past e) (d : Nat) :
    p.sparse (handleIndex e.h) = d + 1 ↔ p.denseEntities d = e ∧ d < p.count := by
  rw [h.inv.sparse_iff]
  constructor
  · rintro ⟨hd, hindex⟩
    have hmember := (h.holds _).mp ((h.inv.holds_iff_dense _).mpr ⟨d, hd, rfl⟩)
    exact ⟨h.unique hmember he hindex, hd⟩
  · rintro ⟨rfl, hd⟩
    exact ⟨hd, rfl⟩

theorem Inv.view_list (inv : p.Inv) {view : ComponentPoolOrderedView}
    (h : componentPoolOrderedView p = (some view, q)) : view.list = p.members := by
  obtain ⟨v, r, hok, hlist, -⟩ := inv.orderedView
  rw [hok] at h
  obtain ⟨hv, -⟩ := Prod.mk.inj h
  rw [← Option.some.inj hv]
  exact hlist

theorem add_none {e : EntityId} (h : componentPoolAdd p e = (none, q)) : q = p := by
  rcases add_cases p e with hfail | ⟨-, -, -, -, hok⟩
  · rw [hfail] at h
    exact (Prod.mk.inj h).2.symm
  · rw [hok] at h
    cases (Prod.mk.inj h).1

theorem Inv.remove_none (inv : p.Inv) {e : EntityId} (h : componentPoolRemove p e = (none, q)) :
    q = p := by
  by_cases hholds : p.Holds e
  · obtain ⟨moved, hok⟩ := inv.remove_eq hholds
    rw [hok] at h
    cases (Prod.mk.inj h).1
  · rw [inv.remove_rejected hholds] at h
    exact (Prod.mk.inj h).2.symm

end ComponentPool

open ComponentPool

variable {past : List ComponentPoolEvent} {p : ComponentPool}

theorem componentPool_sparse_set (h : componentPoolSystem.Trace past p) :
    (∀ i d, p.sparse i = d + 1 ↔ d < p.count ∧ handleIndex (p.denseEntities d).h = i) ∧
    (∀ e, Member past e → ∀ d,
      p.sparse (handleIndex e.h) = d + 1 ↔ p.denseEntities d = e ∧ d < p.count) ∧
    (∀ e, Member past e ↔ ∃ d < p.count, p.denseEntities d = e) ∧
    (∀ a b, Member past a → Member past b → handleIndex a.h = handleIndex b.h → a = b) ∧
    (∀ e q, componentPoolAdd p e = (none, q) → q = p) ∧
    (∀ e q, componentPoolRemove p e = (none, q) → q = p) ∧
    (∃ view q, componentPoolOrderedView p = (some view, q)) ∧
    (∀ view q, componentPoolOrderedView p = (some view, q) →
      IndexAscending view.list ∧ ∀ e, e ∈ view.list ↔ Member past e) ∧
    (∀ past' p' view q view' q', componentPoolSystem.Trace past' p' →
      (∀ e, Member past' e ↔ Member past e) → componentPoolOrderedView p = (some view, q) →
      componentPoolOrderedView p' = (some view', q') → view'.list = view.list) ∧
    (∀ r : ComponentPool, r.orderedDirty = true → r.orderedCount ≤ r.capacity →
      boundedOrderedView r = some (componentPoolOrderedView r) ∧
        ∀ q, componentPoolOrderedView r = (none, q) → q = r) := by
  have hafter := after_trace h
  have inv := hafter.inv
  refine ⟨inv.sparse_iff, fun e he => hafter.dense_iff he,
    fun e => (hafter.holds e).symm.trans (inv.holds_iff_dense e), fun a b => hafter.unique,
    fun e q => add_none, fun e q => inv.remove_none, ?_, fun view q hview => ?_, ?_,
    fun r _ hcount => ⟨boundedOrderedView_eq hcount, fun q => orderedView_rejected⟩⟩
  · obtain ⟨view, q, hview, -⟩ := inv.orderedView
    exact ⟨view, q, hview⟩
  · rw [inv.view_list hview]
    exact ⟨inv.members_ascending, fun e => (hafter.member_iff e).symm⟩
  · intro past' p' view q view' q' h' hmembers hview hview'
    have hafter' := after_trace h'
    rw [inv.view_list hview, hafter'.inv.view_list hview']
    refine hafter'.inv.members_ascending.unique inv.members_ascending fun e => ?_
    rw [← hafter'.member_iff, ← hafter.member_iff, hmembers]

def ComponentPoolEvent.play (p : ComponentPool) :
    ComponentPoolEvent → ComponentPoolEvent × ComponentPool
  | .added e _ => (.added e (componentPoolAdd p e).1, (componentPoolAdd p e).2)
  | .removed e _ => (.removed e (componentPoolRemove p e).1, (componentPoolRemove p e).2)
  | .viewed _ => (.viewed (componentPoolOrderedView p).1, (componentPoolOrderedView p).2)

theorem ComponentPoolEvent.play_next (p : ComponentPool) (event : ComponentPoolEvent) :
    componentPoolSystem.next p (event.play p).1 (event.play p).2 := by
  cases event <;> rfl

-- three members out of order, of which the middle one of the dense array is removed
theorem componentPool_sparse_set_moved :
    let removed := System.playAll ComponentPoolEvent.play
      [.added ⟨handleMake 5 1⟩ none, .added ⟨handleMake 2 1⟩ none, .added ⟨handleMake 3 1⟩ none,
        .viewed none, .removed ⟨handleMake 2 1⟩ none]
      ([], ComponentPool.zeroed 6 4)
    removed.2.denseEntities 1 = ⟨handleMake 3 1⟩ ∧
      (∃ d < removed.2.count, removed.2.denseEntities d = ⟨handleMake 5 1⟩) ∧
      ∃ view q, componentPoolOrderedView removed.2 = (some view, q) ∧
        view.list = [⟨handleMake 3 1⟩, ⟨handleMake 5 1⟩] := by
  intro removed
  have hinit : componentPoolSystem.initial (.zeroed 6 4) :=
    ⟨⟨4096, 0, 256, 256, 0, none, 0, by decide⟩, _, 6, 4, rfl⟩
  have htrace : componentPoolSystem.Trace removed.1 removed.2 :=
    .playAll ComponentPoolEvent.play_next _ (.start hinit)
  have hpast : ∃ view, removed.1 = [.removed ⟨handleMake 2 1⟩ (some ⟨1, 2, ⟨handleMake 3 1⟩⟩),
      .viewed view,
      .added ⟨handleMake 3 1⟩ (some 2), .added ⟨handleMake 2 1⟩ (some 1),
      .added ⟨handleMake 5 1⟩ (some 0)] := ⟨_, rfl⟩
  have hmember : ∀ e, Member removed.1 e ↔ e = ⟨handleMake 3 1⟩ ∨ e = ⟨handleMake 5 1⟩ := by
    obtain ⟨view, hpast⟩ := hpast
    intro e
    have h3 : (⟨handleMake 3 1⟩ : EntityId) ≠ ⟨handleMake 2 1⟩ := by decide
    have h5 : (⟨handleMake 5 1⟩ : EntityId) ≠ ⟨handleMake 2 1⟩ := by decide
    rw [hpast]
    simp only [Member, Option.isSome_some, true_and, or_false]
    constructor
    · rintro ⟨h | h | h, hne⟩
      · exact Or.inl h
      · exact absurd h hne
      · exact Or.inr h
    · rintro (rfl | rfl)
      · exact ⟨Or.inl rfl, h3⟩
      · exact ⟨Or.inr (Or.inr rfl), h5⟩
  obtain ⟨-, hdense, hmembers, -, -, -, ⟨view, q, hview⟩, hlist, -⟩ := componentPool_sparse_set htrace
  obtain ⟨hascending, hviewed⟩ := hlist view q hview
  refine ⟨((hdense _ ((hmember _).mpr (Or.inl rfl)) 1).mp (by decide +kernel)).1,
    (hmembers _).mp ((hmember _).mpr (Or.inr rfl)), view, q, hview, ?_⟩
  refine hascending.unique ?_ fun e => ?_
  · exact List.pairwise_pair.mpr (by decide)
  · rw [hviewed, hmember, List.mem_pair]

-- an id with a member's index and another generation meets the left side only
theorem componentPool_sparse_stale :
    ¬ ∀ past p, componentPoolSystem.Trace past p → ∀ e d,
      p.sparse (handleIndex e.h) = d + 1 ↔ p.denseEntities d = e ∧ d < p.count := by
  intro hsparse
  have hinit : componentPoolSystem.initial (.zeroed 1 1) :=
    ⟨⟨4096, 0, 64, 64, 0, none, 0, by decide⟩, ⟨4096, 12, 64, 64, 12, none, 0, by decide⟩,
      1, 1, rfl⟩
  have htrace : componentPoolSystem.Trace [.added ⟨handleMake 0 1⟩ (some 0)]
      (componentPoolAdd (.zeroed 1 1) ⟨handleMake 0 1⟩).2 :=
    .step (.start hinit) rfl
  have hstale := (hsparse _ _ htrace ⟨handleMake 0 2⟩ 0).mp (by decide)
  exact absurd hstale.1 (by decide)

end ChoonzMoba
