import ChoonzMoba.Core.HashMapSpec
import ChoonzMoba.Library.Machine

namespace ChoonzMoba

inductive HashMapOp (K V : Type) where
  | set (key : K) (val : V)
  | get (key : K)
  | remove (key : K)
  | clear

inductive HashMapAnswer (V : Type) where
  | done
  | value (found : Option V)
  | removed (present : Bool)
deriving DecidableEq

section

variable {K V : Type} [HashMapKey K]

/-- The value of the last set of a key since it was last removed or cleared; the latest operation
comes first. -/
def lastSet : List (HashMapOp K V) → K → Option V
  | [], _ => none
  | .set key val :: past, k => if hashmapEq key k = true then some val else lastSet past k
  | .get _ :: past, k => lastSet past k
  | .remove key :: past, k => if hashmapEq key k = true then none else lastSet past k
  | .clear :: _, _ => none

def answer (past : List (HashMapOp K V)) : HashMapOp K V → HashMapAnswer V
  | .set _ _ => .done
  | .get key => .value (lastSet past key)
  | .remove key => .removed (lastSet past key).isSome
  | .clear => .done

def answers : List (HashMapOp K V) → List (HashMapOp K V) → List (HashMapAnswer V)
  | _, [] => []
  | past, op :: ops => answer past op :: answers (op :: past) ops

variable {σ : Type}

def hashmapMachine (alloc : Allocator σ) (layout : SlotLayout) :
    Machine (σ × HashMap K V) (HashMapOp K V) (HashMapAnswer V) where
  allowed s
    | .set _ _ => s.2.CanGrow alloc layout s.1
    | _ => True
  step s
    | .set key val => (hashmapSet alloc layout s.1 s.2 key val).map fun t => (.done, t)
    | .get key => (hashmapGet s.2 key).map fun found => (.value found, s)
    | .remove key => (hashmapRemove s.2 key).map fun r => (.removed r.1, (s.1, r.2))
    | .clear => some (.done, (s.1, hashmapClear s.2))

def Represents (l : List (HashMapSlot K V)) (f : K → Option V) : Prop :=
  ∀ k v, f k = some v ↔ ∃ s ∈ l, hashmapEq s.key k = true ∧ s.val = v

variable {l l' rest : List (HashMapSlot K V)} {f : K → Option V} {s new : HashMapSlot K V} {k : K}

theorem Represents.none (h : Represents l f) : f k = none ↔ ∀ s ∈ l, ¬ hashmapEq s.key k = true := by
  rw [Option.eq_none_iff_forall_ne_some]
  constructor
  · intro hnone s hs heq
    exact hnone s.val ((h k s.val).mpr ⟨s, hs, heq, rfl⟩)
  · intro hnone v hv
    obtain ⟨s, hs, heq, -⟩ := (h k v).mp hv
    exact hnone s hs heq

theorem Represents.some (h : Represents l f) (hs : s ∈ l) (heq : hashmapEq s.key k = true) :
    f k = some s.val :=
  (h k s.val).mpr ⟨s, hs, heq, rfl⟩

theorem Represents.perm (h : Represents l f) (hperm : l.Perm l') : Represents l' f := fun k v => by
  rw [h k v]
  exact ⟨fun ⟨s, hs, hk⟩ => ⟨s, hperm.mem_iff.mp hs, hk⟩,
    fun ⟨s, hs, hk⟩ => ⟨s, hperm.mem_iff.mpr hs, hk⟩⟩

theorem Represents.cons [LawfulHashMapKey K] (h : Represents rest f)
    (hfresh : ∀ e ∈ rest, ¬ SameKey e new) :
    Represents (new :: rest) fun k => if hashmapEq new.key k = true then Option.some new.val else f k := by
  intro k v
  dsimp only
  split
  · next heq =>
    constructor
    · intro hv
      exact ⟨new, List.mem_cons_self, heq, Option.some.inj hv⟩
    · rintro ⟨s, hs, hsk, rfl⟩
      rcases List.mem_cons.mp hs with rfl | hs
      · rfl
      · exact absurd (LawfulHashMapKey.trans _ _ _ hsk (LawfulHashMapKey.symm _ _ heq)) (hfresh s hs)
  · next hne =>
    rw [h k v]
    constructor
    · rintro ⟨s, hs, hk⟩
      exact ⟨s, List.mem_cons_of_mem new hs, hk⟩
    · rintro ⟨s, hs, hk⟩
      rcases List.mem_cons.mp hs with rfl | hs
      · exact absurd hk.1 hne
      · exact ⟨s, hs, hk⟩

theorem Represents.tail [LawfulHashMapKey K] (h : Represents (s :: rest) f)
    (hdistinct : (s :: rest).Pairwise fun a b => ¬ SameKey a b) {key : K}
    (hkey : hashmapEq s.key key = true) :
    Represents rest fun k => if hashmapEq key k = true then Option.none else f k := by
  have hrest := (List.pairwise_cons.mp hdistinct).1
  intro k v
  dsimp only
  split
  · next heq =>
    constructor
    · intro hv
      cases hv
    · rintro ⟨e, he, hek, -⟩
      refine absurd ?_ (hrest e he)
      exact LawfulHashMapKey.trans _ _ _ (LawfulHashMapKey.trans _ _ _ hkey heq)
        (LawfulHashMapKey.symm _ _ hek)
  · next hne =>
    rw [h k v]
    constructor
    · rintro ⟨e, he, hek, hev⟩
      rcases List.mem_cons.mp he with rfl | he
      · exact absurd (LawfulHashMapKey.trans _ _ _ (LawfulHashMapKey.symm _ _ hkey) hek) hne
      · exact ⟨e, he, hek, hev⟩
    · rintro ⟨e, he, hek⟩
      exact ⟨e, List.mem_cons_of_mem s he, hek⟩

variable {alloc : Allocator σ} {layout : SlotLayout} {past : List (HashMapOp K V)}

theorem Represents.stored [LawfulHashMapKey K] (h : Represents l f)
    (hdistinct : l.Pairwise fun a b => ¬ SameKey a b) (hstored : Stored l new l') :
    Represents l' fun k => if hashmapEq new.key k = true then Option.some new.val else f k := by
  cases hstored with
  | inserted hfresh hperm => exact (h.cons hfresh).perm hperm.symm
  | @updated s rest _ hperm hsame hperm' =>
    have hsplit := (distinct_perm hperm).mp hdistinct
    have hrest := (List.pairwise_cons.mp hsplit).1
    have hfresh : ∀ e ∈ rest, ¬ SameKey e { s with val := new.val } := fun e he hes =>
      hrest e he hes.symm
    have hput := ((h.perm hperm).tail hsplit hsame).cons hfresh
    have hsame' : ∀ k, hashmapEq s.key k = true ↔ hashmapEq new.key k = true := fun k =>
      ⟨LawfulHashMapKey.trans _ _ _ (LawfulHashMapKey.symm _ _ hsame),
        LawfulHashMapKey.trans _ _ _ hsame⟩
    intro k v
    rw [← hput.perm hperm'.symm k v]
    dsimp only
    by_cases heq : hashmapEq new.key k = true
    · rw [if_pos heq, if_pos ((hsame' k).mpr heq)]
    · rw [if_neg heq, if_neg (fun hk => heq ((hsame' k).mp hk)), if_neg heq]

structure HashMapAfter (past : List (HashMapOp K V)) (m : HashMap K V) : Prop where
  wf : m.Wf
  represents : Represents m.entries (lastSet past)

theorem hashmapInit_after : HashMapAfter [] (hashmapInit : HashMap K V) := by
  refine ⟨hashmapInit_wf, fun k v => ?_⟩
  constructor
  · intro h
    cases h
  · rintro ⟨s, hs, -⟩
    rw [HashMap.entries_of_cap_zero rfl] at hs
    cases hs

theorem HashMap.Wf.distinct {m : HashMap K V} (wf : m.Wf) :
    m.entries.Pairwise fun a b => ¬ SameKey a b := by
  by_cases hcap : m.cap = 0
  · rw [HashMap.entries_of_cap_zero hcap]
    exact List.Pairwise.nil
  · exact (wf.table hcap).distinct

theorem HashMapAfter.step [LawfulHashMapKey K] {s : σ × HashMap K V} (h : HashMapAfter past s.2)
    (op : HashMapOp K V) (hallowed : (hashmapMachine alloc layout).allowed s op) :
    ∃ t, (hashmapMachine alloc layout).step s op = some (answer past op, t) ∧
      HashMapAfter (op :: past) t.2 := by
  cases op with
  | set key val =>
    obtain ⟨state', t, ht, hwf, hstored⟩ := hashmapSet_spec h.wf hallowed key val
    refine ⟨(state', t), ?_, hwf, h.represents.stored h.wf.distinct hstored⟩
    simp only [hashmapMachine, ht, Option.map_some, answer]
  | get key =>
    refine ⟨s, ?_, h.wf, h.represents⟩
    rcases hashmapGet_spec h.wf key with ⟨e, he, heq, hget⟩ | ⟨hnone, hget⟩
    · simp only [hashmapMachine, hget, Option.map_some, answer, h.represents.some he heq]
    · simp only [hashmapMachine, hget, Option.map_some, answer, h.represents.none.mpr hnone]
  | remove key =>
    rcases hashmapRemove_spec h.wf key with ⟨e, t, hremove, hwf, -, heq, hperm⟩ | ⟨hnone, hremove⟩
    · refine ⟨(s.1, t), ?_, hwf, ?_⟩
      · have hsome := h.represents.some (hperm.mem_iff.mpr List.mem_cons_self) heq
        simp only [hashmapMachine, hremove, Option.map_some, answer, hsome, Option.isSome_some]
      · exact (h.represents.perm hperm).tail ((distinct_perm hperm).mp h.wf.distinct) heq
    · refine ⟨s, ?_, h.wf, ?_⟩
      · simp only [hashmapMachine, hremove, Option.map_some, answer,
          h.represents.none.mpr hnone, Option.isSome_none]
      · intro k v
        rw [lastSet]
        split
        · next heq =>
          constructor
          · intro hv
            cases hv
          · rintro ⟨e, he, hek, -⟩
            exact absurd (LawfulHashMapKey.trans _ _ _ hek (LawfulHashMapKey.symm _ _ heq)) (hnone e he)
        · exact h.represents k v
  | clear =>
    refine ⟨(s.1, hashmapClear s.2), rfl, hashmapClear_wf h.wf, fun k v => ?_⟩
    constructor
    · intro hv
      cases hv
    · rintro ⟨e, he, -⟩
      rw [hashmapClear_entries] at he
      cases he

theorem HashMapAfter.run [LawfulHashMapKey K] {s : σ × HashMap K V} (h : HashMapAfter past s.2)
    {ops : List (HashMapOp K V)} (hallowed : (hashmapMachine alloc layout).AllowedRun s ops) :
    ∃ t, (hashmapMachine alloc layout).run s ops = some (answers past ops, t) ∧
      HashMapAfter (ops.reverse ++ past) t.2 := by
  induction ops generalizing s past with
  | nil => exact ⟨s, rfl, h⟩
  | cons op ops ih =>
    obtain ⟨hop, hrest⟩ := hallowed
    obtain ⟨t, ht, hafter⟩ := h.step op hop
    obtain ⟨u, hu, hafter'⟩ := ih hafter (hrest _ ht)
    refine ⟨u, ?_, ?_⟩
    · rw [Machine.run, ht, Option.bind_some, hu]
      rfl
    · rw [List.reverse_cons, List.append_assoc]
      exact hafter'

def CountsKeys (count : Nat) (f : K → Option V) : Prop :=
  ∃ keys : List K, keys.length = count ∧ (keys.Pairwise fun a b => ¬ hashmapEq a b = true) ∧
    ∀ k, (f k).isSome ↔ ∃ key ∈ keys, hashmapEq key k = true

theorem HashMapAfter.countsKeys {m : HashMap K V} (h : HashMapAfter past m) :
    CountsKeys m.count.toNat (lastSet past) := by
  refine ⟨m.entries.map HashMapSlot.key, ?_, ?_, fun k => ?_⟩
  · rw [List.length_map, h.wf.count]
  · rw [List.pairwise_map]
    exact h.wf.distinct
  · rw [Option.isSome_iff_exists]
    constructor
    · rintro ⟨v, hv⟩
      obtain ⟨s, hs, heq, -⟩ := (h.represents k v).mp hv
      exact ⟨s.key, List.mem_map_of_mem hs, heq⟩
    · rintro ⟨key, hkey, heq⟩
      obtain ⟨s, hs, rfl⟩ := List.mem_map.mp hkey
      exact ⟨s.val, h.represents.some hs heq⟩

theorem HashMapAfter.exists_empty {m : HashMap K V} (h : HashMapAfter past m) (hcap : m.cap ≠ 0) :
    ∃ z < m.cap.toNat, m.slots z = none :=
  RobinHood.exists_empty (h.wf.room hcap)

end

end ChoonzMoba
