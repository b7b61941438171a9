import ChoonzMoba.Assets.AssetId
import ChoonzMoba.Core.Handle
import ChoonzMoba.Core.HashMapRun

namespace ChoonzMoba

-- at most 27 doublings lead from 16 to the largest capacity
def assetMapCapacityLoop (wanted : Nat) : Nat → Nat → Nat
  | 0, result => result
  | fuel + 1, result =>
    if result < wanted then
      if (2 ^ 32 - 1) / 2 < result then 0 else assetMapCapacityLoop wanted fuel (result * 2)
    else result

def assetMapCapacity (capacity : Nat) : Nat :=
  if capacity = 0 ∨ handleIndexMask.toNat + 1 < capacity then 0
  else assetMapCapacityLoop (capacity * 2) 27 16

def assetMapLoop (byId : HashMap AssetId UInt32) (id : AssetId) (hash : UInt64) :
    Nat → UInt32 → UInt32 → Option (Option UInt32)
  | 0, _, _ => none
  | fuel + 1, pos, dib =>
    match byId.slots pos.toNat with
    | none => some none
    | some slot =>
      if slot.hash = hash ∧ slot.key = id then some (some slot.val)
      else
        let existingDib := byId.dib slot.hash pos
        if existingDib < dib then some none
        else assetMapLoop byId id hash fuel (byId.next pos) (dib + 1)

-- `none` is a loop that is still going after a round for every slot.
def assetMapGet (byId : HashMap AssetId UInt32) (id : AssetId) : Option (Option UInt32) :=
  if byId.cap = 0 then some none
  else
    let hash := hashmapHash id
    assetMapLoop byId id hash byId.cap.toNat (hash.toUInt32 &&& byId.mask) 0

theorem assetMapCapacityLoop_spec {wanted fuel k : Nat} (hwanted : wanted ≤ 2 ^ (k + fuel))
    (hfits : k + fuel < 32) :
    ∃ j, assetMapCapacityLoop wanted fuel (2 ^ k) = 2 ^ j ∧ k ≤ j ∧ j ≤ k + fuel ∧
      wanted ≤ 2 ^ j := by
  induction fuel generalizing k with
  | zero => exact ⟨k, rfl, Nat.le_refl k, Nat.le_refl k, hwanted⟩
  | succ fuel ih =>
    rw [assetMapCapacityLoop]
    split
    · have hsmall : 2 ^ k ≤ 2 ^ 30 := Nat.pow_le_pow_right (by decide) (by omega)
      rw [if_neg (by omega), ← Nat.pow_succ]
      obtain ⟨j, hj, hle, hub, hge⟩ := ih (k := k + 1) (by rwa [Nat.add_right_comm] at *)
        (by omega)
      exact ⟨j, hj, by omega, by omega, hge⟩
    · exact ⟨k, rfl, Nat.le_refl k, by omega, by omega⟩

theorem assetMapCapacity_spec {capacity : Nat} (h : assetMapCapacity capacity ≠ 0) :
    0 < capacity ∧ capacity ≤ 2 ^ 18 ∧
      ∃ j, assetMapCapacity capacity = 2 ^ j ∧ 4 ≤ j ∧ j < 32 ∧ capacity * 2 ≤ 2 ^ j := by
  rw [assetMapCapacity, handleIndexMask_toNat] at h ⊢
  split at h
  · exact absurd rfl h
  · next hbounds =>
    rw [if_neg hbounds]
    have hwanted : capacity * 2 ≤ 2 ^ (4 + 27) := by omega
    obtain ⟨j, hj, hle, hub, hge⟩ := assetMapCapacityLoop_spec hwanted (by decide)
    exact ⟨by omega, by omega, j, hj, hle, by omega, hge⟩

section

variable {byId : HashMap AssetId UInt32} {id : AssetId}

theorem assetMapLoop_eq (hash : UInt64) (fuel : Nat) (pos dib : UInt32) :
    assetMapLoop byId id hash fuel pos dib =
      (hashmapLocate byId id hash fuel pos dib).map fun found => found.map fun r => r.2.val := by
  induction fuel generalizing pos dib with
  | zero => rfl
  | succ fuel ih =>
    rw [assetMapLoop, hashmapLocate]
    cases byId.slots pos.toNat with
    | none => rfl
    | some slot =>
      have heq : hashmapEq slot.key id = true ↔ slot.key = id := beq_iff_eq
      simp only [heq, ih]
      split
      · rfl
      · split <;> rfl

theorem assetMapGet_eq (byId : HashMap AssetId UInt32) (id : AssetId) :
    assetMapGet byId id = hashmapGet byId id := by
  rw [assetMapGet, hashmapGet]
  split
  · rfl
  · exact assetMapLoop_eq ..

end

instance : LawfulHashMapKey UInt64 where
  refl a := beq_self_eq_true a
  symm _ _ h := beq_iff_eq.mpr (beq_iff_eq.mp h).symm
  trans _ _ _ h h' := beq_iff_eq.mpr ((beq_iff_eq.mp h).trans (beq_iff_eq.mp h'))
  hash_eq _ _ h := congrArg hashmapHash (beq_iff_eq.mp h)

section

variable {K V σ : Type} [HashMapKey K] [LawfulHashMapKey K]

theorem hashmap_refines_map (alloc : Allocator σ) (layout : SlotLayout) (state : σ)
    (ops : List (HashMapOp K V))
    (hallowed : (hashmapMachine alloc layout).AllowedRun (state, hashmapInit) ops) :
    (∃ t, (hashmapMachine alloc layout).run (state, hashmapInit) ops = some (answers [] ops, t) ∧
      CountsKeys t.2.count.toNat (lastSet ops.reverse) ∧
      (t.2.cap ≠ 0 → ∃ z < t.2.cap.toNat, t.2.slots z = none)) ∧
    ∀ (byId : HashMap AssetId UInt32) (id : AssetId), assetMapGet byId id = hashmapGet byId id := by
  obtain ⟨t, hrun, hafter⟩ := hashmapInit_after.run hallowed
  rw [List.append_nil] at hafter
  exact ⟨⟨t, hrun, hafter.countsKeys, hafter.exists_empty⟩, assetMapGet_eq⟩

end

def bumpAllocator : Allocator Nat where
  fn state _ _ newSize _ := some (if newSize = 0 then (0, state) else (state, state + newSize))

theorem hashmapAllocationBytes_ok (count : UInt32) :
    hashmapAllocationBytes count 32 = some (count.toNat * 32) := by
  have hlt := count.toNat_lt
  rw [hashmapAllocationBytes, if_pos ⟨by decide, by rw [sizeMax]; omega⟩]

theorem bumpAllocator_allocates {K V : Type} {state : Nat} (hstate : state ≠ 0) (m : HashMap K V)
    {newcap : UInt32} (hcap : newcap.toNat ≠ 0) : Allocates bumpAllocator ⟨32, 8⟩ state m newcap := by
  refine ⟨_, state, state + newcap.toNat * 32, hashmapAllocationBytes_ok newcap, ?_, hstate,
    fun _ => ⟨_, _, hashmapAllocationBytes_ok m.cap, rfl⟩⟩
  rw [memAlloc, bumpAllocator]
  exact congrArg some (if_neg (by omega))

def roomy {K V : Type} (s : Nat × HashMap K V) : Bool :=
  decide (s.1 ≠ 0 ∧ s.2.cap.toNat < 2 ^ 31)

theorem roomy.canGrow {K V : Type} {s : Nat × HashMap K V} (h : roomy s = true) :
    s.2.CanGrow bumpAllocator ⟨32, 8⟩ s.1 := by
  obtain ⟨hstate, hcap⟩ := of_decide_eq_true h
  intro newcap hgrown
  refine ⟨hcap, bumpAllocator_allocates hstate _ ?_⟩
  rw [HashMap.grownCap] at hgrown
  split at hgrown
  · cases hgrown
    decide
  next hne =>
  replace hne : s.2.cap.toNat ≠ 0 := fun hzero => hne (UInt32.toNat_inj.mp hzero)
  split at hgrown
  · cases hgrown
    rw [UInt32.toNat_mul, show (2 : UInt32).toNat = 2 from rfl]
    omega
  · cases hgrown

def busyOps : List (HashMapOp AssetId UInt32) :=
  ((List.range 20).map fun i => .set (UInt64.ofNat (i * 16)) (UInt32.ofNat i)) ++
    [.set 48 7, .remove 80, .get 48, .get 80, .remove 80, .get 304, .set 80 9, .get 80, .clear,
      .get 48]

theorem hashmap_refines_map_busy :
    (∃ t, (hashmapMachine bumpAllocator ⟨32, 8⟩).run (64, hashmapInit) busyOps =
      some (List.replicate 21 .done ++ [.removed true, .value (some 7), .value none, .removed false,
        .value (some 19), .done, .value (some 9), .done, .value none], t) ∧
      CountsKeys t.2.count.toNat (lastSet busyOps.reverse) ∧
      (t.2.cap ≠ 0 → ∃ z < t.2.cap.toNat, t.2.slots z = none)) ∧
    ∀ (byId : HashMap AssetId UInt32) (id : AssetId), assetMapGet byId id = hashmapGet byId id := by
  have hgood : (hashmapMachine bumpAllocator ⟨32, 8⟩).goodRun roomy (64, hashmapInit) busyOps =
      true := by decide +kernel
  have hallowed : (hashmapMachine bumpAllocator ⟨32, 8⟩).AllowedRun (64, hashmapInit) busyOps := by
    refine .of_good (fun s op hs => ?_) hgood
    cases op with
    | set => exact roomy.canGrow hs
    | get | remove | clear => trivial
  exact hashmap_refines_map bumpAllocator ⟨32, 8⟩ 64 busyOps hallowed

end ChoonzMoba
