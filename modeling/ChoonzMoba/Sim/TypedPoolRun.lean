import ChoonzMoba.Library.System
import ChoonzMoba.Sim.InitSpec

namespace ChoonzMoba

variable {P V View W : Type}

structure PoolOps (P V View W : Type) where
  init : Arena → Nat → Nat → Initialized P
  membership : P → ComponentPool
  add : P → EntityId → V → Bool × P
  remove : P → EntityId → Bool × P
  get : P → EntityId → Option View
  read : P → View → V
  write : P → View → W → P

inductive PoolEvent (V W : Type) where
  | added (e : EntityId) (v : V) (accepted : Bool)
  | removed (e : EntityId) (accepted : Bool)
  | got (e : EntityId) (found : Bool)
  | wrote (e : EntityId) (w : W)

def PoolOps.system (ops : PoolOps P V View W) :
    System (P × List (EntityId × View)) (PoolEvent V W) where
  initial s := s.2 = [] ∧ ∃ arena pushed entityCapacity capacity,
    ops.init arena entityCapacity capacity = some (pushed, some s.1)
  next s event t :=
    match event with
    | .added e v accepted =>
      ops.add s.1 e v = (accepted, t.1) ∧ t.2 = if accepted then [] else s.2
    | .removed e accepted =>
      ops.remove s.1 e = (accepted, t.1) ∧ t.2 = if accepted then [] else s.2
    | .got e found =>
      t.1 = s.1 ∧ found = (ops.get s.1 e).isSome ∧
        t.2 = ((ops.get s.1 e).map (e, ·)).toList ++ s.2
    | .wrote e w => ∃ view, (e, view) ∈ s.2 ∧ t = (ops.write s.1 view w, s.2)

def PoolOps.play (ops : PoolOps P V View W) (s : P × List (EntityId × View)) :
    PoolEvent V W → PoolEvent V W × P × List (EntityId × View)
  | .added e v _ =>
    (.added e v (ops.add s.1 e v).1, (ops.add s.1 e v).2, if (ops.add s.1 e v).1 then [] else s.2)
  | .removed e _ =>
    (.removed e (ops.remove s.1 e).1, (ops.remove s.1 e).2,
      if (ops.remove s.1 e).1 then [] else s.2)
  | .got e _ =>
    (.got e (ops.get s.1 e).isSome, s.1, ((ops.get s.1 e).map (e, ·)).toList ++ s.2)
  | .wrote e w =>
    match s.2.find? fun r => r.1 = e with
    | some r => (.wrote e w, ops.write s.1 r.2 w, s.2)
    | none => (.got e (ops.get s.1 e).isSome, s.1, ((ops.get s.1 e).map (e, ·)).toList ++ s.2)

theorem PoolOps.play_next (ops : PoolOps P V View W) (s : P × List (EntityId × View))
    (event : PoolEvent V W) : ops.system.next s (ops.play s event).1 (ops.play s event).2 := by
  cases event with
  | added | removed => exact ⟨rfl, rfl⟩
  | got => exact ⟨rfl, rfl, rfl⟩
  | wrote e w =>
    rw [PoolOps.play]
    split
    · next r hfound =>
      have hentity : r.1 = e := by simpa using List.find?_some hfound
      exact ⟨r.2, hentity ▸ List.mem_of_find?_eq_some hfound, rfl⟩
    · exact ⟨rfl, rfl, rfl⟩

def contents (apply : W → V → V) : List (PoolEvent V W) → Nat → Option (EntityId × V)
  | [] => fun _ => none
  | .added e v true :: past =>
    Function.update (contents apply past) (handleIndex e.h) (some (e, v))
  | .added _ _ false :: past => contents apply past
  | .removed e true :: past => Function.update (contents apply past) (handleIndex e.h) none
  | .removed _ false :: past => contents apply past
  | .got _ _ :: past => contents apply past
  | .wrote e w :: past =>
    Function.update (contents apply past) (handleIndex e.h)
      ((contents apply past (handleIndex e.h)).map fun r => (r.1, apply w r.2))

structure PoolLayout [Zero V] (ops : PoolOps P V View W) (valid : V → Prop) (apply : W → V → V) where
  typed : P → TypedPool V
  view : Nat → View
  injective : Function.Injective typed
  membership : ∀ p, ops.membership p = (typed p).membership
  init : ∀ arena pushed entityCapacity capacity p,
    ops.init arena entityCapacity capacity = some (pushed, some p) →
      typed p = .zeroed entityCapacity capacity ∧
        entityCapacity ≤ 2 ^ 18 ∧ capacity ≤ entityCapacity
  add : ∀ p e v, valid v →
    (ops.add p e v).map id typed = typedPoolAdd (typed p) e v
  add_invalid : ∀ p e v, ¬ valid v → ops.add p e v = (false, p)
  remove : ∀ p e, (ops.remove p e).map id typed = typedPoolRemove (typed p) e
  get : ∀ p e, ops.get p e = (typedPoolGet (typed p) e).map view
  read : ∀ p d, ops.read p (view d) = (typed p).values d
  write : ∀ p d w, typed (ops.write p (view d) w) =
    (typed p).write d (apply w ((typed p).values d))

structure PoolAfter [Zero V] {ops : PoolOps P V View W} {valid : V → Prop} {apply : W → V → V}
    (layout : PoolLayout ops valid apply) (past : List (PoolEvent V W))
    (s : P × List (EntityId × View)) : Prop where
  inv : (layout.typed s.1).membership.Inv
  lookup : ∀ i e v, contents apply past i = some (e, v) ↔
    handleIndex e.h = i ∧ (layout.typed s.1).lookup e = some v
  zeros : ∀ d, (layout.typed s.1).membership.count ≤ d →
    (layout.typed s.1).values d = 0
  views : ∀ e view, (e, view) ∈ s.2 → (layout.typed s.1).membership.Holds e ∧
    view = layout.view ((layout.typed s.1).membership.sparse (handleIndex e.h) - 1)

namespace TypedPool

variable {p : TypedPool V} {c : Nat → Option (EntityId × V)}

def Indexes (p : TypedPool V) (c : Nat → Option (EntityId × V)) : Prop :=
  ∀ i e v, c i = some (e, v) ↔ handleIndex e.h = i ∧ p.lookup e = some v

theorem Indexes.holds (h : p.Indexes c) (inv : p.membership.Inv) (e : EntityId) :
    p.membership.Holds e ↔ ∃ v, c (handleIndex e.h) = some (e, v) := by
  rw [← lookup_isSome inv, Option.isSome_iff_exists]
  exact exists_congr fun v => ((h _ e v).trans (and_iff_right rfl)).symm

theorem Indexes.eq_none (h : p.Indexes c) (inv : p.membership.Inv) (i : Nat) :
    c i = none ↔ p.membership.sparse i = 0 := by
  constructor
  · intro hnone
    by_contra hs
    have hindex := (inv.sparse i hs).2
    have hholds : p.membership.Holds (p.membership.denseOf i) := by
      rw [ComponentPool.Holds, hindex]
      exact ⟨hs, rfl⟩
    obtain ⟨v, hv⟩ := (h.holds inv _).mp hholds
    rw [hindex, hnone] at hv
    cases hv
  · intro hs
    cases hc : c i with
    | none => rfl
    | some r =>
      obtain ⟨hindex, hlookup⟩ := (h i r.1 r.2).mp hc
      have hholds := (lookup_isSome inv r.1).mp (by rw [hlookup]; rfl)
      rw [ComponentPool.Holds, hindex] at hholds
      exact absurd hs hholds.1

theorem Indexes.inserted (h : p.Indexes c) (inv : p.membership.Inv) {e : EntityId}
    (hg : handleGen e.h ≠ 0) (hi : handleIndex e.h < p.membership.entityCapacity)
    (hroom : p.membership.count < p.membership.capacity)
    (hfree : p.membership.sparse (handleIndex e.h) = 0) (v : V) :
    (p.inserted e v).Indexes (Function.update c (handleIndex e.h) (some (e, v))) := by
  have hnone := (h.eq_none inv _).mpr hfree
  intro i a u
  rw [inserted_lookup inv hg hi hroom hfree]
  by_cases hae : a = e
  · subst hae
    rw [Function.update_self]
    by_cases hia : i = handleIndex a.h
    · subst hia
      rw [Function.update_self]
      simp
    · rw [Function.update_of_ne hia]
      refine iff_of_false (fun hc => hia ((h i a u).mp hc).1.symm) fun hc => hia hc.1.symm
  · rw [Function.update_of_ne hae]
    by_cases hie : i = handleIndex e.h
    · subst hie
      rw [Function.update_self]
      refine iff_of_false (fun hc => hae (congrArg Prod.fst (Option.some.inj hc)).symm) ?_
      intro hc
      rw [(h _ a u).mpr hc] at hnone
      cases hnone
    · rw [Function.update_of_ne hie]
      exact h i a u

theorem Indexes.erased [Zero V] (h : p.Indexes c) (inv : p.membership.Inv) {e : EntityId}
    (he : p.membership.Holds e) :
    (p.erased e).Indexes (Function.update c (handleIndex e.h) none) := by
  obtain ⟨v, hv⟩ := (h.holds inv e).mp he
  intro i a u
  rw [erased_lookup inv he]
  by_cases hae : a = e
  · subst hae
    rw [Function.update_self]
    refine iff_of_false (fun hc => ?_) (fun hc => by cases hc.2)
    by_cases hia : i = handleIndex a.h
    · rw [hia, Function.update_self] at hc
      cases hc
    · rw [Function.update_of_ne hia] at hc
      exact hia ((h i a u).mp hc).1.symm
  · rw [Function.update_of_ne hae]
    by_cases hie : i = handleIndex e.h
    · subst hie
      rw [Function.update_self]
      refine iff_of_false (fun hc => by cases hc) fun hc => ?_
      rw [(h _ a u).mpr hc] at hv
      exact hae (congrArg Prod.fst (Option.some.inj hv))
    · rw [Function.update_of_ne hie]
      exact h i a u

theorem Indexes.written (h : p.Indexes c) (inv : p.membership.Inv) {e : EntityId}
    (he : p.membership.Holds e) (f : V → V) :
    (p.write (p.membership.sparse (handleIndex e.h) - 1)
        (f (p.values (p.membership.sparse (handleIndex e.h) - 1)))).Indexes
      (Function.update c (handleIndex e.h) ((c (handleIndex e.h)).map fun r => (r.1, f r.2))) := by
  have hvalue := lookup_of_holds inv he
  have hentry := (h _ e _).mpr ⟨rfl, hvalue⟩
  intro i a u
  rw [write_lookup inv he, hentry]
  by_cases hae : a = e
  · subst hae
    rw [Function.update_self]
    by_cases hia : i = handleIndex a.h
    · subst hia
      rw [Function.update_self]
      simp
    · rw [Function.update_of_ne hia]
      refine iff_of_false (fun hc => hia ((h i a u).mp hc).1.symm) fun hc => hia hc.1.symm
  · rw [Function.update_of_ne hae]
    by_cases hie : i = handleIndex e.h
    · subst hie
      rw [Function.update_self]
      refine iff_of_false (fun hc => hae (congrArg Prod.fst (Option.some.inj hc)).symm) ?_
      intro hc
      rw [(h _ a u).mpr hc] at hentry
      exact hae (congrArg Prod.fst (Option.some.inj hentry))
    · rw [Function.update_of_ne hie]
      exact h i a u

theorem inserted_values (e : EntityId) (v : V) {d : Nat} (h : p.membership.count + 1 ≤ d) :
    (p.inserted e v).values d = p.values d :=
  Function.update_of_ne (Nat.ne_of_gt h) _ _

theorem erased_values [Zero V] (inv : p.membership.Inv) {e : EntityId}
    (he : p.membership.Holds e) {d : Nat} (h : p.membership.count - 1 ≤ d) :
    (p.erased e).values d = if d = p.membership.count - 1 then 0 else p.values d := by
  have hlt := inv.dense_lt he.1
  rw [erased]
  dsimp only
  by_cases hd : d = p.membership.count - 1
  · rw [if_pos hd, hd, Function.update_self]
  · rw [if_neg hd, Function.update_of_ne hd]
    split
    · exact Function.update_of_ne (by omega) _ _
    · rfl

end TypedPool

section

variable [Zero V] {ops : PoolOps P V View W} {valid : V → Prop} {apply : W → V → V}
  {layout : PoolLayout ops valid apply} {past : List (PoolEvent V W)}
  {s t : P × List (EntityId × View)} {event : PoolEvent V W} {e : EntityId} {v : V}

theorem PoolAfter.indexes (h : PoolAfter layout past s) :
    (layout.typed s.1).Indexes (contents apply past) := h.lookup

inductive Added (layout : PoolLayout ops valid apply) (p : P) (e : EntityId) (v : V) :
    Bool → P → Prop
  | rejected : ¬ valid v ∨ handleGen e.h = 0 ∨
      (layout.typed p).membership.entityCapacity ≤ handleIndex e.h ∨
      (layout.typed p).membership.capacity ≤ (layout.typed p).membership.count ∨
      (layout.typed p).membership.sparse (handleIndex e.h) ≠ 0 → Added layout p e v false p
  | accepted {q : P} : valid v → handleGen e.h ≠ 0 →
      handleIndex e.h < (layout.typed p).membership.entityCapacity →
      (layout.typed p).membership.count < (layout.typed p).membership.capacity →
      (layout.typed p).membership.sparse (handleIndex e.h) = 0 →
      layout.typed q = (layout.typed p).inserted e v → Added layout p e v true q

theorem PoolLayout.added (layout : PoolLayout ops valid apply) (p : P) (e : EntityId) (v : V) :
    Added layout p e v (ops.add p e v).1 (ops.add p e v).2 := by
  by_cases hv : valid v
  · have hadd := layout.add p e v hv
    by_cases h : handleGen e.h = 0 ∨
        (layout.typed p).membership.entityCapacity ≤ handleIndex e.h ∨
        (layout.typed p).membership.capacity ≤ (layout.typed p).membership.count ∨
        (layout.typed p).membership.sparse (handleIndex e.h) ≠ 0
    · have hfail : typedPoolAdd (layout.typed p) e v = (false, layout.typed p) := by
        simp [typedPoolAdd, ComponentPool.add_rejected h]
      rw [hfail] at hadd
      obtain ⟨hok, hq⟩ := Prod.mk.inj hadd
      rw [show (ops.add p e v).1 = false from hok, layout.injective hq]
      exact .rejected (Or.inr h)
    · simp only [not_or, Nat.not_le, not_not] at h
      rw [TypedPool.add_eq h.1 h.2.1 h.2.2.1 h.2.2.2] at hadd
      obtain ⟨hok, hq⟩ := Prod.mk.inj hadd
      rw [show (ops.add p e v).1 = true from hok]
      exact .accepted hv h.1 h.2.1 h.2.2.1 h.2.2.2 hq
  · rw [layout.add_invalid p e v hv]
    exact .rejected (Or.inl hv)

inductive Removed (layout : PoolLayout ops valid apply) (p : P) (e : EntityId) : Bool → P → Prop
  | rejected : ¬ (layout.typed p).membership.Holds e → Removed layout p e false p
  | accepted {q : P} : (layout.typed p).membership.Holds e →
      layout.typed q = (layout.typed p).erased e → Removed layout p e true q

theorem PoolLayout.removed (layout : PoolLayout ops valid apply) {p : P}
    (inv : (layout.typed p).membership.Inv) (e : EntityId) :
    Removed layout p e (ops.remove p e).1 (ops.remove p e).2 := by
  have hremove := layout.remove p e
  by_cases h : (layout.typed p).membership.Holds e
  · rw [TypedPool.remove_eq inv h] at hremove
    obtain ⟨hok, hq⟩ := Prod.mk.inj hremove
    rw [show (ops.remove p e).1 = true from hok]
    exact .accepted h hq
  · rw [TypedPool.remove_rejected inv h] at hremove
    obtain ⟨hok, hq⟩ := Prod.mk.inj hremove
    rw [show (ops.remove p e).1 = false from hok, layout.injective hq]
    exact .rejected h

theorem PoolLayout.got (layout : PoolLayout ops valid apply) {p : P}
    (inv : (layout.typed p).membership.Inv) (e : EntityId) :
    ops.get p e = if componentPoolHas (layout.typed p).membership e = true then
      some (layout.view ((layout.typed p).membership.sparse (handleIndex e.h) - 1)) else none := by
  rw [layout.get]
  split
  · next h => rw [TypedPool.get_eq inv ((inv.has_iff e).mp h), Option.map_some]
  · next h => rw [TypedPool.get_none (Bool.eq_false_iff.mpr h), Option.map_none]

theorem PoolLayout.read_got (layout : PoolLayout ops valid apply) {p : P}
    (inv : (layout.typed p).membership.Inv) (e : EntityId) :
    (ops.get p e).map (ops.read p) = (layout.typed p).lookup e := by
  rw [layout.got inv, TypedPool.lookup]
  split
  · rw [Option.map_some, layout.read]
  · rfl

theorem PoolAfter.added {accepted : Bool} (h : PoolAfter layout past s)
    (hnext : ops.system.next s (.added e v accepted) t) :
    PoolAfter layout (.added e v accepted :: past) t := by
  obtain ⟨hadd, hviews⟩ := hnext
  have hcases := layout.added s.1 e v
  rw [hadd] at hcases
  generalize hp : s.1 = p at hcases
  generalize hq : t.1 = q at hcases
  cases hcases with
  | rejected =>
    have ht : t = s := Prod.ext (hq.trans hp.symm) (hviews.trans (if_neg Bool.false_ne_true))
    rw [ht]
    exact ⟨h.inv, h.lookup, h.zeros, h.views⟩
  | accepted _ hg hi hroom hfree hq' =>
    subst hp hq
    refine ⟨?_, ?_, fun d hd => ?_, fun a view hview => ?_⟩
    · rw [hq']
      exact h.inv.inserted hg hi hroom hfree
    · rw [hq']
      exact h.indexes.inserted h.inv hg hi hroom hfree v
    · rw [hq'] at hd ⊢
      rw [TypedPool.inserted_values e v hd]
      exact h.zeros d (Nat.le_of_succ_le hd)
    · rw [hviews, if_pos rfl] at hview
      cases hview

theorem PoolAfter.removed {accepted : Bool} (h : PoolAfter layout past s)
    (hnext : ops.system.next s (.removed e accepted) t) :
    PoolAfter layout (.removed e accepted :: past) t := by
  obtain ⟨hremove, hviews⟩ := hnext
  have hcases := layout.removed h.inv e
  rw [hremove] at hcases
  generalize hp : s.1 = p at hcases
  generalize hq : t.1 = q at hcases
  cases hcases with
  | rejected =>
    have ht : t = s := Prod.ext (hq.trans hp.symm) (hviews.trans (if_neg Bool.false_ne_true))
    rw [ht]
    exact ⟨h.inv, h.lookup, h.zeros, h.views⟩
  | accepted he hq' =>
    subst hp hq
    refine ⟨?_, ?_, fun d hd => ?_, fun a view hview => ?_⟩
    · rw [hq']
      exact h.inv.erased he
    · rw [hq']
      exact h.indexes.erased h.inv he
    · rw [hq'] at hd ⊢
      have hd' : (layout.typed s.1).membership.count - 1 ≤ d := hd
      rw [TypedPool.erased_values h.inv he hd']
      split
      · rfl
      · exact h.zeros d (by omega)
    · rw [hviews, if_pos rfl] at hview
      cases hview

theorem PoolAfter.got {found : Bool} (h : PoolAfter layout past s)
    (hnext : ops.system.next s (.got e found) t) : PoolAfter layout (.got e found :: past) t := by
  obtain ⟨hp, -, hviews⟩ := hnext
  refine ⟨hp ▸ h.inv, hp ▸ h.lookup, hp ▸ h.zeros, fun a view hview => ?_⟩
  rw [hp]
  rw [hviews, layout.got h.inv] at hview
  split at hview
  · next hhas =>
    rcases List.mem_cons.mp hview with heq | hview
    · obtain ⟨rfl, rfl⟩ := Prod.mk.inj heq
      exact ⟨(h.inv.has_iff a).mp hhas, rfl⟩
    · exact h.views a view hview
  · exact h.views a view hview

theorem PoolAfter.wrote {w : W} (h : PoolAfter layout past s)
    (hnext : ops.system.next s (.wrote e w) t) : PoolAfter layout (.wrote e w :: past) t := by
  obtain ⟨view, hview, rfl⟩ := hnext
  obtain ⟨he, rfl⟩ := h.views e view hview
  have hq := layout.write s.1 ((layout.typed s.1).membership.sparse (handleIndex e.h) - 1) w
  refine ⟨?_, ?_, fun d hd => ?_, fun a view' hview' => ?_⟩
  · rw [hq]
    exact h.inv
  · rw [hq]
    exact h.indexes.written h.inv he (apply w)
  · rw [hq] at hd ⊢
    have hlt := h.inv.dense_lt he.1
    have hd' : (layout.typed s.1).membership.count ≤ d := hd
    exact (Function.update_of_ne (by omega) _ _).trans (h.zeros d hd')
  · rw [hq]
    exact h.views a view' hview'

theorem PoolAfter.next (h : PoolAfter layout past s) (hnext : ops.system.next s event t) :
    PoolAfter layout (event :: past) t := by
  cases event with
  | added e v accepted => exact h.added hnext
  | removed e accepted => exact h.removed hnext
  | got e found => exact h.got hnext
  | wrote e w => exact h.wrote hnext

theorem PoolAfter.initial (h : ops.system.initial s) : PoolAfter layout [] s := by
  obtain ⟨hviews, arena, pushed, entityCapacity, capacity, hinit⟩ := h
  obtain ⟨htyped, hmax, hle⟩ := layout.init _ _ _ _ _ hinit
  have hinv : (TypedPool.zeroed entityCapacity capacity : TypedPool V).membership.Inv :=
    .zeroed hmax hle
  refine ⟨htyped ▸ hinv, fun i e v => ?_, fun d _ => htyped ▸ rfl, fun e view hview => ?_⟩
  · rw [htyped, TypedPool.lookup_of_not_holds hinv fun h => h.1 rfl]
    exact iff_of_false (fun hc => by cases hc) fun hc => by cases hc.2
  · rw [hviews] at hview
    cases hview

theorem PoolAfter.trace (layout : PoolLayout ops valid apply) (h : ops.system.Trace past s) :
    PoolAfter layout past s := by
  induction h with
  | start h => exact .initial h
  | step _ hnext ih => exact ih.next hnext

def PoolOps.value (ops : PoolOps P V View W) (p : P) (e : EntityId) : Option V :=
  (ops.get p e).map (ops.read p)

structure RefinesMap (ops : PoolOps P V View W) (valid : V → Prop)
    (zeroAt : P → Nat → Prop) (map : Nat → Option (EntityId × V)) (p : P) : Prop where
  get : ∀ e v, ops.value p e = some v ↔ map (handleIndex e.h) = some (e, v)
  add_fails : ∀ e v, (ops.add p e v).1 = false ↔ ¬ valid v ∨ handleGen e.h = 0 ∨
    (ops.membership p).entityCapacity ≤ handleIndex e.h ∨
    (ops.membership p).count = (ops.membership p).capacity ∨ map (handleIndex e.h) ≠ none
  remove_fails : ∀ e, (ops.remove p e).1 = false ↔ ∀ v, map (handleIndex e.h) ≠ some (e, v)
  add_unchanged : ∀ e v, (ops.add p e v).1 = false → (ops.add p e v).2 = p
  remove_unchanged : ∀ e, (ops.remove p e).1 = false → (ops.remove p e).2 = p
  add_others : ∀ e v a, a ≠ e → ops.value (ops.add p e v).2 a = ops.value p a
  remove_others : ∀ e a, a ≠ e → ops.value (ops.remove p e).2 a = ops.value p a
  members : ∃ indices : List Nat, indices.Nodup ∧ (∀ i, i ∈ indices ↔ map i ≠ none) ∧
    indices.length = (ops.membership p).count
  zeros : ∀ d, (ops.membership p).count ≤ d → zeroAt p d

variable {zeroAt : P → Nat → Prop}

theorem PoolAfter.refinesMap (h : PoolAfter layout past s)
    (hzero : ∀ p d, (layout.typed p).values d = 0 → zeroAt p d) :
    RefinesMap ops valid zeroAt (contents apply past) s.1 := by
  have hsparse : ∀ i, contents apply past i ≠ none ↔
      (layout.typed s.1).membership.sparse i ≠ 0 := fun i =>
    not_congr (h.indexes.eq_none h.inv i)
  have hcount := h.inv.count_le
  refine ⟨fun e v => ?_, fun e v => ?_, fun e => ?_, fun e v => ?_, fun e => ?_, fun e v a hae => ?_,
    fun e a hae => ?_, ?_, fun d hd => ?_⟩
  · rw [PoolOps.value, layout.read_got h.inv, h.lookup]
    exact (and_iff_right rfl).symm
  · have hcases := layout.added s.1 e v
    rw [hsparse, layout.membership]
    generalize (ops.add s.1 e v).1 = accepted, (ops.add s.1 e v).2 = q at hcases
    cases hcases with
    | rejected hreason =>
      refine iff_of_true rfl (hreason.imp_right (Or.imp_right (Or.imp_right (Or.imp_left ?_))))
      exact fun hfull => Nat.le_antisymm hcount hfull
    | accepted hv hg hi hroom hfree =>
      refine iff_of_false Bool.noConfusion ?_
      rintro (hv' | hg' | hi' | hfull | hused)
      · exact hv' hv
      · exact hg hg'
      · exact Nat.not_lt_of_le hi' hi
      · exact Nat.ne_of_lt hroom hfull
      · exact hused hfree
  · have hcases := layout.removed h.inv e
    have hholds := h.indexes.holds h.inv e
    generalize (ops.remove s.1 e).1 = accepted, (ops.remove s.1 e).2 = q at hcases
    cases hcases with
    | rejected hno => exact iff_of_true rfl fun v hv => hno (hholds.mpr ⟨v, hv⟩)
    | accepted hyes =>
      obtain ⟨v, hv⟩ := hholds.mp hyes
      exact iff_of_false Bool.noConfusion fun hall => hall v hv
  · have hcases := layout.added s.1 e v
    generalize (ops.add s.1 e v).1 = accepted, (ops.add s.1 e v).2 = q at hcases ⊢
    cases hcases with
    | rejected => exact fun _ => rfl
    | accepted => exact Bool.noConfusion
  · have hcases := layout.removed h.inv e
    generalize (ops.remove s.1 e).1 = accepted, (ops.remove s.1 e).2 = q at hcases ⊢
    cases hcases with
    | rejected => exact fun _ => rfl
    | accepted => exact Bool.noConfusion
  · have hcases := layout.added s.1 e v
    generalize (ops.add s.1 e v).1 = accepted, (ops.add s.1 e v).2 = q at hcases ⊢
    cases hcases with
    | rejected => rfl
    | accepted _ hg hi hroom hfree hq =>
      have hinv : (layout.typed q).membership.Inv := hq ▸ h.inv.inserted hg hi hroom hfree
      rw [PoolOps.value, PoolOps.value, layout.read_got hinv, layout.read_got h.inv, hq,
        TypedPool.inserted_lookup h.inv hg hi hroom hfree, Function.update_of_ne hae]
  · have hcases := layout.removed h.inv e
    generalize (ops.remove s.1 e).1 = accepted, (ops.remove s.1 e).2 = q at hcases ⊢
    cases hcases with
    | rejected => rfl
    | accepted he hq =>
      have hinv : (layout.typed q).membership.Inv := hq ▸ h.inv.erased he
      rw [PoolOps.value, PoolOps.value, layout.read_got hinv, layout.read_got h.inv, hq,
        TypedPool.erased_lookup h.inv he, Function.update_of_ne hae]
  · refine ⟨(layout.typed s.1).membership.denseIndices, h.inv.denseIndices_nodup, fun i => ?_, ?_⟩
    · rw [h.inv.mem_denseIndices, hsparse]
    · rw [layout.membership, ComponentPool.denseIndices, List.length_map, List.length_range]
  · rw [layout.membership] at hd
    exact hzero _ d (h.zeros d hd)

end

end ChoonzMoba
