import ChoonzMoba.Core.HashMap
import ChoonzMoba.Library.Objects

open Objects Records Regions

namespace ChoonzMoba

/-- What an allocator promises in the states `Good`: a block it hands out lies apart from every
live object and a block it takes back is dead, with whatever bytes it likes there. -/
structure Allocator.Honest {σ : Type} (al : Allocator (Heap σ)) (Good : Heap σ → Prop) : Prop where
  alloc : ∀ h size address h', Good h → 0 < size → memAlloc al h size 1 = some (address, h') →
    address ≠ 0 → h.Allocates uintptrMax address size h' ∧ Good h'
  free : ∀ h block, Good h → block ∈ h.blocks →
    ∃ h', memFree al h block.start (block.stop - block.start) = some h' ∧ h.Frees block h' ∧ Good h'
  write : ∀ h r address bytes, Good h → r ∈ h.objects → Inside r address bytes.length →
    Good (h.store address bytes)

def poisonAllocatorFn (base : Nat) (h : Heap Nat) (ptr oldSize newSize _align : Nat) :
    Option (Nat × Heap Nat) :=
  if newSize = 0 then
    if ptr ≠ 0 ∧ oldSize ≠ 0 then
      some (0, { h.store ptr (List.replicate oldSize 0x3F) with
        blocks := h.blocks.erase ⟨ptr, ptr + oldSize⟩ })
    else some (0, h)
  else if ptr = 0 ∧ newSize ≤ 128 ∧ h.state < 4 then
    let block := base + 128 * h.state
    some (block, { h with blocks := ⟨block, block + newSize⟩ :: h.blocks, state := h.state + 1 })
  else none

-- four blocks of 128 bytes from `base` on, the state counts those handed out
def poisonAllocator (base : Nat) : Allocator (Heap Nat) := ⟨poisonAllocatorFn base⟩

structure PoisonGood (base : Nat) (h : Heap Nat) : Prop where
  wf : h.Wf uintptrMax
  used : ∀ r ∈ h.blocks, r.stop ≤ base + 128 * h.state
  foreign : ∀ r ∈ h.foreign, Region.Disjoint ⟨base, base + 512⟩ r

section Poison

variable {base : Nat} {h h' : Heap Nat} {address size : Nat} {block : Region}

theorem poison_alloc (hbase : base + 512 ≤ uintptrMax) (good : PoisonGood base h)
    (hsize : 0 < size) (halloc : memAlloc (poisonAllocator base) h size 1 = some (address, h'))
    (haddress : address ≠ 0) :
    h.Allocates uintptrMax address size h' ∧ PoisonGood base h' := by
  dsimp only [memAlloc, poisonAllocator, poisonAllocatorFn] at halloc
  rw [if_neg (Nat.ne_of_gt hsize)] at halloc
  split at halloc
  · next hroom =>
    obtain ⟨-, hfit, hnext⟩ := hroom
    cases halloc
    have ha : h.Allocates uintptrMax (base + 128 * h.state) size
        { h with
          blocks := ⟨base + 128 * h.state, base + 128 * h.state + size⟩ :: h.blocks
          state := h.state + 1 } := by
      refine ⟨rfl, rfl, fun r hr => ?_, by omega, fun r _ => SameIn.refl r h.memory⟩
      rcases List.mem_append.mp hr with hr | hr
      · exact Or.inr (good.used r hr)
      · rcases good.foreign r hr with hle | hle
        · exact Or.inl (Nat.le_trans (by dsimp only; omega) hle)
        · exact Or.inr (Nat.le_trans hle (Nat.le_add_right _ _))
    refine ⟨ha, ha.wf good.wf (Nat.pos_of_ne_zero haddress) hsize, fun r hr => ?_, good.foreign⟩
    dsimp only at hr ⊢
    rcases List.mem_cons.mp hr with rfl | hr
    · dsimp only
      omega
    · have := good.used r hr
      omega
  · cases halloc

theorem poison_free (good : PoisonGood base h) (hblock : block ∈ h.blocks) :
    ∃ h', memFree (poisonAllocator base) h block.start (block.stop - block.start) = some h' ∧
      h.Frees block h' ∧ PoisonGood base h' := by
  have hmem : block ∈ h.objects := Heap.mem_of_block hblock
  obtain ⟨hpos, hlt, -⟩ := good.wf.bounds block hmem
  have hsize : block.start + (block.stop - block.start) = block.stop :=
    Nat.add_sub_cancel' (Nat.le_of_lt hlt)
  have hin : Inside block block.start
      (List.replicate (block.stop - block.start) (0x3F : UInt8)).length := by
    rw [List.length_replicate]
    exact ⟨Nat.le_refl _, Nat.le_of_eq hsize⟩
  have hf : h.Frees block
      { h.store block.start (List.replicate (block.stop - block.start) 0x3F) with
        blocks := h.blocks.erase block } := by
    refine ⟨rfl, rfl, fun r hr => ?_⟩
    obtain ⟨hr, hne⟩ := (good.wf.mem_erase hblock).mp hr
    exact sameIn_write h.memory hin ((good.wf.eq_or_disjoint hmem hr).resolve_left (Ne.symm hne))
  refine ⟨_, ?_, hf, hf.wf good.wf, fun r hr => good.used r (List.mem_of_mem_erase hr),
    good.foreign⟩
  dsimp only [memFree, poisonAllocator, poisonAllocatorFn]
  rw [if_pos rfl, if_pos ⟨Nat.ne_of_gt hpos, Nat.sub_ne_zero_of_lt hlt⟩, hsize]
  rfl

theorem poison_honest (hbase : base + 512 ≤ uintptrMax) :
    (poisonAllocator base).Honest (PoisonGood base) where
  alloc _ _ _ _ good hsize halloc haddress := poison_alloc hbase good hsize halloc haddress
  free _ _ good hblock := poison_free good hblock
  write _ _ _ _ good _ _ := ⟨good.wf.store _ _, good.used, good.foreign⟩

end Poison

end ChoonzMoba
