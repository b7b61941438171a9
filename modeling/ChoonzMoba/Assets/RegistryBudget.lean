import ChoonzMoba.Assets.RegistryRun
import ChoonzMoba.Core.ArenaBudget

namespace ChoonzMoba

def arrayBlock (capacity : Nat) (array : SlotLayout) : Nat × Nat :=
  (array.size * capacity, array.align)

theorem addRequiredRegion_ok {total count : Nat} {array : SlotLayout} (hsize : array.size ≠ 0)
    (halign : array.align ≠ 0)
    (hfit : total + ((array.align - 1) + array.size * count) ≤ sizeMax) :
    addRequiredRegion total count array.size array.align =
      some (total + ((array.align - 1) + array.size * count)) := by
  have hcount : count ≤ sizeMax / array.size := by
    rw [Nat.le_div_iff_mul_le (Nat.pos_of_ne_zero hsize), Nat.mul_comm]
    omega
  rw [addRequiredRegion, if_neg (by omega), Nat.mul_comm count]
  dsimp only
  rw [if_neg (by omega)]

theorem addRequiredRegion_loop {arrays : List SlotLayout} {capacity total : Nat}
    (harrays : ∀ array ∈ arrays, array.size ≠ 0 ∧ array.align ≠ 0)
    (hfit : total + blocksNeed (arrays.map (arrayBlock capacity)) ≤ sizeMax) :
    Loop.forEachM arrays
        (fun total array => addRequiredRegion total capacity array.size array.align) total =
      some (total + blocksNeed (arrays.map (arrayBlock capacity))) := by
  induction arrays generalizing total with
  | nil => rfl
  | cons array arrays ih =>
    obtain ⟨⟨hsize, halign⟩, hrest⟩ := List.forall_mem_cons.mp harrays
    rw [List.map_cons, blocksNeed_cons, arrayBlock] at hfit ⊢
    rw [Loop.forEachM_cons, addRequiredRegion_ok hsize halign (by omega), Option.bind_some,
      ih hrest (by omega), Nat.add_assoc]

theorem pushAssetArray_loop (arrays : List SlotLayout) (capacity : Nat) (arena : Arena) :
    Loop.forEachM arrays (pushAssetArray capacity) arena =
      pushAll arena (arrays.map (arrayBlock capacity)) := by
  induction arrays generalizing arena with
  | nil => rfl
  | cons array arrays ih =>
    rw [Loop.forEachM_cons, List.map_cons, pushAll, Loop.forEachM_cons]
    refine congrArg _ (funext fun arena => ?_)
    rw [ih, pushAll]

theorem assetRequiredArrays_perm : assetRequiredArrays.Perm assetArrays := .refl _

theorem arrayBlocks_need (arrays : List SlotLayout) (capacity : Nat) :
    blocksNeed (arrays.map (arrayBlock capacity)) =
      (arrays.map fun array => array.align - 1).sum +
        (arrays.map SlotLayout.size).sum * capacity := by
  induction arrays with
  | nil => rw [List.map_nil, List.map_nil, List.map_nil, List.sum_nil, Nat.zero_mul]; rfl
  | cons array arrays ih =>
    rw [List.map_cons, blocksNeed_cons, ih, List.map_cons, List.map_cons, List.sum_cons,
      List.sum_cons, Nat.add_mul, arrayBlock]
    omega

theorem assetArrays_need (capacity : Nat) :
    blocksNeed (assetRequiredArrays.map (arrayBlock capacity)) = 64 * capacity + 48 := by
  have hslack : (assetRequiredArrays.map fun array => array.align - 1).sum = 48 := rfl
  have hsize : (assetRequiredArrays.map SlotLayout.size).sum = 64 := rfl
  rw [arrayBlocks_need, hslack, hsize, Nat.add_comm]

theorem assetArrays_aligned (capacity : Nat) :
    PowerAligned (assetArrays.map (arrayBlock capacity)) := by
  have hpowers : ∀ array ∈ assetArrays, array.align &&& (array.align - 1) = 0 ∧ array.align ≠ 0 := by
    decide
  intro block hblock
  obtain ⟨array, harray, rfl⟩ := List.mem_map.mp hblock
  obtain ⟨hpower, hne⟩ := hpowers array harray
  exact (Nat.and_sub_one_eq_zero_iff_isPowerOfTwo hne).mp hpower

def mapBlock (config : AssetRegistryConfig) : Nat × Nat :=
  arrayBlock (assetMapCapacity config.capacity) assetMapSlot

theorem assetMapCapacity_ok {capacity : Nat} (hpos : 0 < capacity) (hmax : capacity ≤ 2 ^ 18) :
    ∃ j, assetMapCapacity capacity = 2 ^ j ∧ 4 ≤ j ∧ j < 32 ∧ capacity * 2 ≤ 2 ^ j := by
  have hwanted : capacity * 2 ≤ 2 ^ (4 + 27) := by omega
  obtain ⟨j, hj, hle, hub, hge⟩ := assetMapCapacityLoop_spec hwanted (by decide)
  refine ⟨j, ?_, hle, by omega, hge⟩
  rw [assetMapCapacity, handleIndexMask_toNat, if_neg (by omega)]
  exact hj

structure AssetRegistryConfig.Accepted (config : AssetRegistryConfig) : Prop where
  positive : 0 < config.capacity
  capacity_le : config.capacity ≤ 2 ^ 18
  root : config.assetRoot.isSome = true
  fileBytes : config.maxFileBytes ≠ 0

variable {config : AssetRegistryConfig}

theorem assetRegistryMemoryRequired_eq (h : config.Accepted) :
    assetRegistryMemoryRequired config =
      blocksNeed (assetArrays.map (arrayBlock config.capacity)) + blocksNeed [mapBlock config] := by
  obtain ⟨j, hj, hle, hlt, -⟩ := assetMapCapacity_ok h.positive h.capacity_le
  have hmap : assetMapCapacity config.capacity ≤ 2 ^ 31 := by
    rw [hj]
    exact Nat.pow_le_pow_right (by decide) (by omega)
  have hmapPos : 0 < assetMapCapacity config.capacity := by
    rw [hj]
    exact Nat.two_pow_pos j
  have hneed := assetArrays_need config.capacity
  have hperm := blocksNeed_perm (assetRequiredArrays_perm.map (arrayBlock config.capacity))
  have hcapacity := h.capacity_le
  have hslot : blocksNeed [mapBlock config] = 7 + 32 * assetMapCapacity config.capacity := rfl
  have hroot : config.assetRoot.isNone ≠ true := by simp [Option.isSome_iff_ne_none.mp h.root]
  have hsum : 64 * config.capacity + 48 + (7 + 32 * assetMapCapacity config.capacity) ≤ sizeMax := by
    rw [sizeMax]
    omega
  rw [assetRegistryMemoryRequired, if_neg (by simp [Nat.ne_of_gt hmapPos, hroot, h.fileBytes]),
    addRequiredRegion_loop (by decide) (by rw [hneed]; omega), Option.bind_some,
    addRequiredRegion_ok (by decide) (by decide) (by rw [hneed]; change _ + (7 + 32 * _) ≤ _; omega),
    Option.getD_some, ← hperm, Nat.zero_add]
  rfl

theorem assetRegistryMemoryRequired_accepts (config : AssetRegistryConfig) :
    assetRegistryMemoryRequired config ≠ 0 ↔ config.Accepted := by
  constructor
  · intro h
    obtain ⟨hpos, hle, -⟩ := assetMapCapacity_spec (assetRegistryMemoryRequired_spec h)
    rw [assetRegistryMemoryRequired] at h
    split at h
    · exact absurd rfl h
    · next hguard =>
      rw [not_or, not_or] at hguard
      refine ⟨hpos, hle, ?_, hguard.2.2⟩
      simpa [Option.isSome_iff_ne_none] using hguard.2.1
  · intro h
    rw [assetRegistryMemoryRequired_eq h]
    have hslot : blocksNeed [mapBlock config] = 7 + 32 * assetMapCapacity config.capacity := rfl
    omega

def startedRegistry (persistent level global io : Arena) (mapAddress : Nat)
    (renderer : AssetRendererApi) (config : AssetRegistryConfig) (assetRoot : List UInt8) :
    AssetRegistry where
  slots := fun _ => .cleared 0
  freeStack := fun _ => 0
  byId :=
    { address := mapAddress
      slots := fun _ => none
      cap := UInt32.ofNat (assetMapCapacity config.capacity)
      mask := UInt32.ofNat (assetMapCapacity config.capacity) - 1
      count := 0 }
  capacity := config.capacity
  liveCount := 0
  nextFresh := 0
  freeCount := 0
  persistentArena := persistent
  levelArena := level
  globalArena := global
  ioArena := io
  levelBaseOffset := level.offset
  globalBaseOffset := global.offset
  ioBaseOffset := io.offset
  maxFileBytes := config.maxFileBytes
  renderer := renderer
  assetRoot := assetRoot
  initialized := true

-- `object` is what the caller's registry holds; the answer has it and the four arenas as they are
-- left
def assetRegistryInitInto (object : AssetRegistry) (registry : Nat)
    (persistentArena levelArena globalArena ioArena : ArenaPointer) (renderer : AssetRendererApi)
    (config : AssetRegistryConfig) : Option (Bool × AssetRegistry × List Arena) :=
  let arenas := [persistentArena, levelArena, globalArena, ioArena]
  if registry = 0 ∨ (arenas.any fun p => p.address == 0 || !validArena p.arena) = true ∨
      ¬ (arenas.map ArenaPointer.address).Nodup then
    some (false, object, arenas.map ArenaPointer.arena)
  else if registryMemoryIsDisjoint registry arenas = false then
    some (false, object, arenas.map ArenaPointer.arena)
  else
    let required := assetRegistryMemoryRequired config
    let mapCapacity := assetMapCapacity config.capacity
    let persistent := persistentArena.arena
    if required = 0 ∨ persistent.reserved - persistent.offset < required then
      some (false, object, arenas.map ArenaPointer.arena)
    else
      match copyAssetRoot config.assetRoot with
      | none => some (false, object, arenas.map ArenaPointer.arena)
      | some assetRoot =>
        (Loop.forEachM assetArrays (pushAssetArray config.capacity) persistent).bind fun persistent =>
        (arenaPush persistent (assetMapSlot.size * mapCapacity) assetMapSlot.align).map fun r =>
          (true,
            startedRegistry r.1 levelArena.arena globalArena.arena ioArena.arena r.2 renderer config
              assetRoot,
            [r.1, levelArena.arena, globalArena.arena, ioArena.arena])

section

variable {registry : Nat} {persistent level global io : ArenaPointer} {renderer : AssetRendererApi}

theorem assetRegistryInitInto_answer (object : AssetRegistry) :
    (assetRegistryInitInto object registry persistent level global io renderer config).map
        (fun r => if r.1 = true then some r.2.1 else none) =
      assetRegistryInit registry persistent level global io renderer config := by
  rw [assetRegistryInitInto, assetRegistryInit]
  dsimp only
  split_ifs
  · rfl
  · rfl
  · rfl
  · cases copyAssetRoot config.assetRoot with
    | none => rfl
    | some assetRoot =>
      dsimp only
      rw [Option.map_bind]
      refine congrArg _ (funext fun pushed => ?_)
      rw [Function.comp_apply, Option.map_map]
      rfl

theorem assetRegistryInitInto_false {object started : AssetRegistry} {arenas : List Arena}
    (h : assetRegistryInitInto object registry persistent level global io renderer config =
      some (false, started, arenas)) :
    started = object ∧ arenas = [persistent.arena, level.arena, global.arena, io.arena] := by
  rw [assetRegistryInitInto] at h
  dsimp only at h
  split_ifs at h
  · cases h
    exact ⟨rfl, rfl⟩
  · cases h
    exact ⟨rfl, rfl⟩
  · cases h
    exact ⟨rfl, rfl⟩
  · cases hroot : copyAssetRoot config.assetRoot with
    | none =>
      rw [hroot] at h
      cases h
      exact ⟨rfl, rfl⟩
    | some assetRoot =>
      rw [hroot] at h
      obtain ⟨pushed, -, hmap⟩ := Option.bind_eq_some_iff.mp h
      obtain ⟨slots, -, hanswer⟩ := Option.map_eq_some_iff.mp hmap
      cases hanswer

structure RegistryPointers (registry : Nat) (persistent level global io : ArenaPointer) : Prop where
  object : registry ≠ 0
  valid : ∀ p ∈ [persistent, level, global, io], p.address ≠ 0 ∧ validArena p.arena = true
  distinct : ([persistent, level, global, io].map ArenaPointer.address).Nodup
  disjoint : registryMemoryIsDisjoint registry [persistent, level, global, io] = true

theorem RegistryPointers.guard (h : RegistryPointers registry persistent level global io) :
    ¬(registry = 0 ∨ ([persistent, level, global, io].any
        fun p => p.address == 0 || !validArena p.arena) = true ∨
      ¬([persistent, level, global, io].map ArenaPointer.address).Nodup) := by
  rintro (hzero | hinvalid | hshared)
  · exact h.object hzero
  · obtain ⟨p, hp, hbad⟩ := List.any_eq_true.mp hinvalid
    obtain ⟨haddress, hvalid⟩ := h.valid p hp
    simp [haddress, hvalid] at hbad
  · exact hshared h.distinct

theorem pushes_ok {arena : Arena} (ha : arena.Backed) (h : config.Accepted)
    (hbudget : assetRegistryMemoryRequired config ≤ arena.reserved - arena.offset) :
    ∃ pushed grown address,
      Loop.forEachM assetArrays (pushAssetArray config.capacity) arena = some pushed ∧
      arenaPush pushed (assetMapSlot.size * assetMapCapacity config.capacity) assetMapSlot.align =
        some (grown, address) ∧
      grown.offset ≤ arena.offset + assetRegistryMemoryRequired config := by
  have heq := assetRegistryMemoryRequired_eq h
  have hmap : blocksNeed [mapBlock config] =
      (2 ^ 3 - 1) + assetMapSlot.size * assetMapCapacity config.capacity := rfl
  have hoffset := ha.wf.offset_le
  have hcommitted := ha.wf.committed_le
  obtain ⟨pushed, hpushed, hspent⟩ := pushAll_ok (assetArrays_aligned config.capacity) ha (by omega)
  have hleft := hspent.offset_le
  obtain ⟨grown, address, hpush, -, -, -, hgrown⟩ := arenaPush_ok hspent.backed.wf
    hspent.backed.commits (assetMapSlot.size * assetMapCapacity config.capacity) (k := 3)
    (by rw [hspent.backing.reserved]; omega)
  rw [← pushAssetArray_loop] at hpushed
  exact ⟨pushed, grown, address, hpushed, hpush, by omega⟩

theorem assetRegistryInit_budget (object : AssetRegistry) (registry : Nat)
    (persistent level global io : ArenaPointer) (renderer : AssetRendererApi)
    (config : AssetRegistryConfig) :
    (assetRegistryMemoryRequired config ≠ 0 ↔ config.Accepted) ∧
    (assetRegistryInitInto object registry persistent level global io renderer config).map
        (fun r => if r.1 = true then some r.2.1 else none) =
      assetRegistryInit registry persistent level global io renderer config ∧
    (RegistryPointers registry persistent level global io → persistent.arena.CommitSucceeds →
      config.Accepted → (copyAssetRoot config.assetRoot).isSome = true →
      assetRegistryMemoryRequired config ≤ persistent.arena.reserved - persistent.arena.offset →
      ∃ started grown,
        assetRegistryInitInto object registry persistent level global io renderer config =
          some (true, started, [grown, level.arena, global.arena, io.arena]) ∧
        grown.offset ≤ persistent.arena.offset + assetRegistryMemoryRequired config ∧
        (∃ j, started.byId.cap.toNat = 2 ^ j) ∧ 16 ≤ started.byId.cap.toNat ∧
        2 * config.capacity ≤ started.byId.cap.toNat ∧
        assetRegistryMemoryRequired config =
          blocksNeed (assetArrays.map (arrayBlock config.capacity)) +
            blocksNeed [arrayBlock started.byId.cap.toNat assetMapSlot]) ∧
    ∀ started arenas,
      assetRegistryInitInto object registry persistent level global io renderer config =
        some (false, started, arenas) →
      started = object ∧ arenas = [persistent.arena, level.arena, global.arena, io.arena] := by
  refine ⟨assetRegistryMemoryRequired_accepts config, assetRegistryInitInto_answer object,
    fun hpointers hcommits haccepted hroot
    hbudget => ?_, fun _ _ => assetRegistryInitInto_false⟩
  have hwf := validArena_spec (hpointers.valid persistent List.mem_cons_self).2
  obtain ⟨pushed, grown, address, hpushed, hpush, hgrown⟩ :=
    pushes_ok ⟨hwf, hcommits⟩ haccepted hbudget
  obtain ⟨assetRoot, hassetRoot⟩ := Option.isSome_iff_exists.mp hroot
  obtain ⟨j, hj, hle, hlt, hdouble⟩ := assetMapCapacity_ok haccepted.positive haccepted.capacity_le
  have hcap : (UInt32.ofNat (assetMapCapacity config.capacity)).toNat =
      assetMapCapacity config.capacity := by
    refine UInt32.toNat_ofNat_of_lt' ?_
    rw [hj]
    exact Nat.pow_lt_pow_right (by decide) hlt
  have hrequired := (assetRegistryMemoryRequired_accepts config).mpr haccepted
  refine ⟨startedRegistry grown level.arena global.arena io.arena address renderer config
    assetRoot, grown, ?_, hgrown, ⟨j, hcap.trans hj⟩, ?_, ?_, ?_⟩
  · rw [assetRegistryInitInto, if_neg hpointers.guard,
      if_neg (by rw [hpointers.disjoint]; decide),
      if_neg (by rw [not_or, Nat.not_lt]; exact ⟨hrequired, hbudget⟩), hassetRoot]
    dsimp only
    rw [hpushed, Option.bind_some, hpush]
    rfl
  · rw [startedRegistry, hcap, hj]
    exact Nat.pow_le_pow_right (n := 2) (by decide) hle
  · rw [startedRegistry, hcap, hj, Nat.mul_comm]
    exact hdouble
  · rw [startedRegistry, hcap]
    exact assetRegistryMemoryRequired_eq haccepted

theorem assetRegistryInit_budget_small : ∃ started grown,
    assetRegistryInitInto exampleWorld.registry 4096 ⟨8192, exampleArena 65536 (by decide)⟩
        ⟨12288, exampleArena 131072 (by decide)⟩ ⟨16384, exampleArena 196608 (by decide)⟩
        ⟨20480, exampleArena 262144 (by decide)⟩ ⟨true, true⟩
        ⟨2, 1024, some ⟨[byte 'a'], by decide⟩⟩ =
      some (true, started, [grown, exampleArena 131072 (by decide),
        exampleArena 196608 (by decide), exampleArena 262144 (by decide)]) ∧
      grown.offset ≤ 695 := by
  have hpointers : RegistryPointers 4096 ⟨8192, exampleArena 65536 (by decide)⟩
      ⟨12288, exampleArena 131072 (by decide)⟩ ⟨16384, exampleArena 196608 (by decide)⟩
      ⟨20480, exampleArena 262144 (by decide)⟩ :=
    ⟨by decide, by decide, by decide, by decide⟩
  obtain ⟨started, grown, hinit, hgrown, -⟩ := (assetRegistryInit_budget exampleWorld.registry 4096
    _ _ _ _ ⟨true, true⟩ ⟨2, 1024, some ⟨[byte 'a'], by decide⟩⟩).2.2.1 hpointers (Or.inl rfl)
    ⟨by decide, by decide, rfl, by decide⟩ (by decide) (by decide)
  exact ⟨started, grown, hinit, hgrown⟩

end

end ChoonzMoba
