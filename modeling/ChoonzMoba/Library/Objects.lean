import ChoonzMoba.Library.Records
import ChoonzMoba.Library.Regions
import Mathlib.Data.List.Pairwise

open Records Regions

namespace Objects

/-- Memory with the objects that are alive in it: an allocator's blocks, and all others. -/
structure Heap (σ : Type) where
  memory : Nat → UInt8
  blocks : List Region
  foreign : List Region
  state : σ

def Inside (r : Region) (address size : Nat) : Prop := r.start ≤ address ∧ address + size ≤ r.stop

instance (r : Region) (address size : Nat) : Decidable (Inside r address size) :=
  inferInstanceAs (Decidable (_ ∧ _))

def SameIn (r : Region) (memory memory' : Nat → UInt8) : Prop :=
  ∀ i, r.start ≤ i → i < r.stop → memory' i = memory i

variable {σ : Type} {r r' : Region} {memory memory' memory'' : Nat → UInt8} {address size : Nat}

theorem SameIn.refl (r : Region) (memory : Nat → UInt8) : SameIn r memory memory :=
  fun _ _ _ => rfl

theorem SameIn.trans (h : SameIn r memory memory') (h' : SameIn r memory' memory'') :
    SameIn r memory memory'' :=
  fun i hstart hstop => (h' i hstart hstop).trans (h i hstart hstop)

theorem SameIn.read (h : SameIn r memory memory') (hin : Inside r address size) :
    read memory' address size = read memory address size :=
  read_congr fun i hstart hstop =>
    h i (Nat.le_trans hin.1 hstart) (Nat.lt_of_lt_of_le hstop hin.2)

theorem sameIn_write (memory : Nat → UInt8) {bytes : List UInt8}
    (hin : Inside r address bytes.length) (hd : r.Disjoint r') :
    SameIn r' memory (write memory address bytes) := by
  intro i hstart hstop
  refine write_outside memory ?_
  rcases hd with hd | hd
  · exact Or.inr (Nat.le_trans hin.2 (Nat.le_trans hd hstart))
  · exact Or.inl (Nat.lt_of_lt_of_le hstop (Nat.le_trans hd hin.1))

namespace Heap

def objects (h : Heap σ) : List Region := h.blocks ++ h.foreign

def Within (h : Heap σ) (address size : Nat) : Prop := ∃ r ∈ h.objects, Inside r address size

instance (h : Heap σ) (address size : Nat) : Decidable (h.Within address size) :=
  inferInstanceAs (Decidable (∃ r ∈ h.objects, Inside r address size))

def store (h : Heap σ) (address : Nat) (bytes : List UInt8) : Heap σ :=
  { h with memory := write h.memory address bytes }

-- an access outside the objects has no meaning
def move (h : Heap σ) (target source size : Nat) : Option (Heap σ) :=
  if h.Within target size ∧ h.Within source size then
    some (h.store target (read h.memory source size))
  else none

-- and neither has a copy between ranges that overlap
def copy (h : Heap σ) (target source size : Nat) : Option (Heap σ) :=
  if target + size ≤ source ∨ source + size ≤ target then h.move target source size else none

structure Wf (limit : Nat) (h : Heap σ) : Prop where
  disjoint : h.objects.Pairwise Region.Disjoint
  bounds : ∀ r ∈ h.objects, 0 < r.start ∧ r.start < r.stop ∧ r.stop ≤ limit

structure Allocates (limit : Nat) (h : Heap σ) (address size : Nat) (h' : Heap σ) : Prop where
  blocks : h'.blocks = ⟨address, address + size⟩ :: h.blocks
  foreign : h'.foreign = h.foreign
  fresh : ∀ r ∈ h.objects, Region.Disjoint ⟨address, address + size⟩ r
  stop_le : address + size ≤ limit
  kept : ∀ r ∈ h.objects, SameIn r h.memory h'.memory

structure Frees (h : Heap σ) (block : Region) (h' : Heap σ) : Prop where
  blocks : h'.blocks = h.blocks.erase block
  foreign : h'.foreign = h.foreign
  kept : ∀ r ∈ h'.objects, SameIn r h.memory h'.memory

variable {h h' : Heap σ} {limit target source : Nat}

theorem mem_of_block (hr : r ∈ h.blocks) : r ∈ h.objects := List.mem_append_left _ hr

theorem Wf.eq_or_disjoint (wf : h.Wf limit) (hr : r ∈ h.objects) (hr' : r' ∈ h.objects) :
    r = r' ∨ r.Disjoint r' := by
  rcases Classical.em (r = r') with heq | hne
  · exact Or.inl heq
  · have : Std.Symm Region.Disjoint := ⟨fun _ _ hd => Or.symm hd⟩
    exact Or.inr (wf.disjoint.forall hr hr' hne)

theorem Wf.nodup (wf : h.Wf limit) : h.objects.Nodup := by
  refine wf.disjoint.imp_of_mem fun {r r'} hr _ hd heq => ?_
  obtain ⟨-, hpos, -⟩ := wf.bounds r hr
  subst heq
  rcases hd with hd | hd <;> omega

theorem Wf.of_objects (wf : h.Wf limit) (hobjects : h'.objects = h.objects) : h'.Wf limit :=
  ⟨hobjects ▸ wf.disjoint, hobjects ▸ wf.bounds⟩

theorem Wf.store (wf : h.Wf limit) (address : Nat) (bytes : List UInt8) :
    (h.store address bytes).Wf limit :=
  wf.of_objects rfl

theorem store_nil (h : Heap σ) (address : Nat) : h.store address [] = h := by
  rw [Heap.store, write_nil]

theorem Allocates.objects (ha : h.Allocates limit address size h') :
    h'.objects = ⟨address, address + size⟩ :: h.objects := by
  rw [Heap.objects, ha.blocks, ha.foreign]
  rfl

theorem Allocates.wf (ha : h.Allocates limit address size h')
    (wf : h.Wf limit) (haddress : 0 < address) (hsize : 0 < size) : h'.Wf limit := by
  refine ⟨?_, ?_⟩
  · rw [ha.objects]
    exact List.pairwise_cons.mpr ⟨ha.fresh, wf.disjoint⟩
  · rw [ha.objects]
    intro r hr
    rcases List.mem_cons.mp hr with rfl | hr
    · exact ⟨haddress, Nat.lt_add_of_pos_right hsize, ha.stop_le⟩
    · exact wf.bounds r hr

theorem Allocates.ne (ha : h.Allocates limit address size h') (wf : h.Wf limit)
    (hr : r ∈ h.objects) : r ≠ ⟨address, address + size⟩ := by
  obtain ⟨-, hpos, -⟩ := wf.bounds r hr
  intro heq
  have hd := ha.fresh r hr
  rw [← heq] at hd
  rcases hd with hd | hd <;> omega

theorem Wf.mem_erase (wf : h.Wf limit) (hr : r ∈ h.blocks) :
    r' ∈ h.blocks.erase r ++ h.foreign ↔ r' ∈ h.objects ∧ r' ≠ r := by
  have hnodup := List.nodup_append.mp wf.nodup
  rw [Heap.objects, List.mem_append, List.mem_append, hnodup.1.mem_erase_iff]
  constructor
  · rintro (⟨hne, hblock⟩ | hforeign)
    · exact ⟨Or.inl hblock, hne⟩
    · exact ⟨Or.inr hforeign, fun heq => hnodup.2.2 r hr r' hforeign heq.symm⟩
  · rintro ⟨hblock | hforeign, hne⟩
    · exact Or.inl ⟨hne, hblock⟩
    · exact Or.inr hforeign

theorem Frees.mem_objects (hf : h.Frees r h') (wf : h.Wf limit) (hr : r ∈ h.blocks) :
    r' ∈ h'.objects ↔ r' ∈ h.objects ∧ r' ≠ r := by
  rw [← wf.mem_erase hr, Heap.objects, hf.blocks, hf.foreign]

theorem Frees.wf (hf : h.Frees r h') (wf : h.Wf limit) : h'.Wf limit := by
  have hsub : h'.objects.Sublist h.objects := by
    rw [Heap.objects, Heap.objects, hf.blocks, hf.foreign]
    exact (List.erase_sublist).append (List.Sublist.refl _)
  exact ⟨wf.disjoint.sublist hsub, fun r' hr' => wf.bounds r' (hsub.subset hr')⟩

theorem move_eq (htarget : h.Within target size) (hsource : h.Within source size) :
    h.move target source size = some (h.store target (read h.memory source size)) :=
  if_pos ⟨htarget, hsource⟩

theorem copy_eq (hr : r ∈ h.objects) (hr' : r' ∈ h.objects) (hd : r.Disjoint r')
    (htarget : Inside r target size) (hsource : Inside r' source size) :
    h.copy target source size = some (h.store target (read h.memory source size)) := by
  have hapart : target + size ≤ source ∨ source + size ≤ target :=
    hd.imp (fun hle => Nat.le_trans htarget.2 (Nat.le_trans hle hsource.1))
      fun hle => Nat.le_trans hsource.2 (Nat.le_trans hle htarget.1)
  rw [copy, if_pos hapart]
  exact move_eq ⟨r, hr, htarget⟩ ⟨r', hr', hsource⟩

structure Relocates (limit : Nat) (h : Heap σ) (block : Region) (count address size : Nat)
    (h' : Heap σ) : Prop where
  copied : read h'.memory address count = read h.memory block.start count
  mem : ⟨address, address + size⟩ ∈ h'.blocks
  wf : h'.Wf limit
  others : ∀ r ∈ h.objects, r ≠ block →
    r ∈ h'.objects ∧ r ≠ ⟨address, address + size⟩ ∧ SameIn r h.memory h'.memory

variable {h₁ h₂ : Heap σ} {block : Region} {count : Nat}

theorem Allocates.mem (ha : h.Allocates limit address size h₁) (hr : r ∈ h.objects) :
    r ∈ h₁.objects := by
  rw [ha.objects]
  exact List.mem_cons_of_mem _ hr

theorem Allocates.new (ha : h.Allocates limit address size h₁) :
    ⟨address, address + size⟩ ∈ h₁.blocks := by
  rw [ha.blocks]
  exact List.mem_cons_self

theorem Allocates.mem_blocks (ha : h.Allocates limit address size h₁) (hr : r ∈ h.blocks) :
    r ∈ h₁.blocks := by
  rw [ha.blocks]
  exact List.mem_cons_of_mem _ hr

theorem Allocates.copy (ha : h.Allocates limit address size h₁) (hblock : block ∈ h.blocks)
    (hfit : Inside block block.start count) (hsize : count ≤ size) :
    h₁.copy address block.start count =
      some (h₁.store address (read h₁.memory block.start count)) := by
  have hr : block ∈ h.objects := mem_of_block hblock
  exact copy_eq (mem_of_block ha.new) (ha.mem hr) (ha.fresh block hr)
    ⟨Nat.le_refl address, Nat.add_le_add_left hsize address⟩ hfit

theorem Allocates.relocates (ha : h.Allocates limit address size h₁) (wf : h.Wf limit)
    (haddress : 0 < address) (hpos : 0 < size) (hblock : block ∈ h.blocks)
    (hfit : Inside block block.start count) (hsize : count ≤ size)
    (hf : (h₁.store address (read h₁.memory block.start count)).Frees block h₂) :
    h.Relocates limit block count address size h₂ := by
  have hr : block ∈ h.objects := mem_of_block hblock
  have hnew : ⟨address, address + size⟩ ≠ block := (ha.ne wf hr).symm
  have hlength : (read h₁.memory block.start count).length = count := read_length _ _ _
  have hin : Inside ⟨address, address + size⟩ address count :=
    ⟨Nat.le_refl address, Nat.add_le_add_left hsize address⟩
  have wf' := (ha.wf wf haddress hpos).store address (read h₁.memory block.start count)
  have hmem {r' : Region} : r' ∈ h₂.objects ↔ r' ∈ h₁.objects ∧ r' ≠ block :=
    hf.mem_objects wf' (ha.mem_blocks hblock)
  refine ⟨?_, ?_, hf.wf wf', fun r hr hne => ⟨hmem.mpr ⟨ha.mem hr, hne⟩, ha.ne wf hr, ?_⟩⟩
  · have hwrite := read_write h₁.memory address (read h₁.memory block.start count)
    rw [hlength] at hwrite
    rw [(hf.kept _ (hmem.mpr ⟨mem_of_block ha.new, hnew⟩)).read hin]
    exact hwrite.trans ((ha.kept block hr).read hfit)
  · rw [hf.blocks]
    exact (List.mem_erase_of_ne hnew).mpr ha.new
  · have hwrite := sameIn_write h₁.memory (hlength.symm ▸ hin) (ha.fresh r hr)
    exact (ha.kept r hr).trans (hwrite.trans (hf.kept r (hmem.mpr ⟨ha.mem hr, hne⟩)))

end Heap

end Objects
