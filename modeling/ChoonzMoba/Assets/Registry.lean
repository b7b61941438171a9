import ChoonzMoba.Assets.AssetMap
import ChoonzMoba.Assets.AssetPath
import ChoonzMoba.Serialize.ByteIo
import Mathlib.Data.List.TakeWhile

namespace ChoonzMoba

abbrev AssetHandle := Handle

inductive AssetType where
  | none
  | texture
  | sound
deriving DecidableEq

inductive AssetState where
  | empty
  | loading
  | ready
  | failed
deriving DecidableEq

def assetLifetimeLevel : Nat := 0

def assetLifetimeGlobal : Nat := 1

-- One index of the sixteen parallel arrays but the free stack.
structure AssetSlot where
  generation : Nat
  live : Bool
  type : AssetType
  state : AssetState
  lifetime : Nat
  id : AssetId
  cpuBlob : Nat
  cpuBlobBytes : Nat
  gpuHandle : Handle
  refcount : Nat
  meta0 : UInt32
  meta1 : UInt32
  meta2 : UInt32
  path : Nat
  pathLength : Nat

def AssetSlot.cleared (generation : Nat) : AssetSlot where
  generation := generation
  live := false
  type := .none
  state := .empty
  lifetime := assetLifetimeLevel
  id := assetIdNull
  cpuBlob := 0
  cpuBlobBytes := 0
  gpuHandle := handleNull
  refcount := 0
  meta0 := 0
  meta1 := 0
  meta2 := 0
  path := 0
  pathLength := 0

-- Which of the two function pointers are set.
structure AssetRendererApi where
  createTexture : Bool
  destroyTexture : Bool

-- The arenas are held by value: nothing else pushes to them.
structure AssetRegistry where
  slots : Nat → AssetSlot
  freeStack : Nat → Nat
  byId : HashMap AssetId UInt32
  capacity : Nat
  liveCount : Nat
  nextFresh : Nat
  freeCount : Nat
  persistentArena : Arena
  levelArena : Arena
  globalArena : Arena
  ioArena : Arena
  levelBaseOffset : Nat
  globalBaseOffset : Nat
  ioBaseOffset : Nat
  maxFileBytes : Nat
  renderer : AssetRendererApi
  assetRoot : List UInt8
  initialized : Bool

/-- The registry, the memory its blobs and paths stand in, the textures that the renderer has
created and the calls of `destroy_texture`, the latest first. -/
structure AssetWorld where
  registry : AssetRegistry
  memory : Nat → UInt8
  created : List Handle
  destroyed : List (Handle × UInt32)

structure CString where
  text : List UInt8
  terminated : 0 ∉ text

def CString.bytes (s : CString) : List UInt8 := s.text ++ [0]

def CString.of (buffer : List UInt8) : CString where
  text := buffer.takeWhile (· != 0)
  terminated h := by simpa using List.mem_takeWhile_imp h

structure AssetRegistryConfig where
  capacity : Nat
  maxFileBytes : Nat
  assetRoot : Option CString

section

def assetRequiredArrays : List SlotLayout :=
  [⟨2, 2⟩, ⟨1, 1⟩, ⟨1, 1⟩, ⟨1, 1⟩, ⟨1, 1⟩, ⟨8, 8⟩, ⟨8, 8⟩, ⟨8, 8⟩, ⟨4, 4⟩, ⟨4, 4⟩, ⟨4, 4⟩,
    ⟨4, 4⟩, ⟨4, 4⟩, ⟨8, 8⟩, ⟨2, 2⟩, ⟨4, 4⟩]

def assetArrays : List SlotLayout :=
  [⟨2, 2⟩, ⟨1, 1⟩, ⟨1, 1⟩, ⟨1, 1⟩, ⟨1, 1⟩, ⟨8, 8⟩, ⟨8, 8⟩, ⟨8, 8⟩, ⟨4, 4⟩, ⟨4, 4⟩, ⟨4, 4⟩,
    ⟨4, 4⟩, ⟨4, 4⟩, ⟨8, 8⟩, ⟨2, 2⟩, ⟨4, 4⟩]

def assetMapSlot : SlotLayout := ⟨32, 8⟩

def addRequiredRegion (total count itemSize alignment : Nat) : Option Nat :=
  if itemSize = 0 ∨ alignment = 0 ∨ sizeMax / itemSize < count then none
  else
    let bytes := count * itemSize
    let slack := alignment - 1
    if sizeMax - slack < total ∨ sizeMax - bytes < total + slack then none
    else some (total + (slack + bytes))

def assetRegistryMemoryRequired (config : AssetRegistryConfig) : Nat :=
  let mapCapacity := assetMapCapacity config.capacity
  if mapCapacity = 0 ∨ config.assetRoot.isNone ∨ config.maxFileBytes = 0 then 0
  else
    ((Loop.forEachM assetRequiredArrays
      (fun total array => addRequiredRegion total config.capacity array.size array.align) 0).bind
      fun total =>
        addRequiredRegion total mapCapacity assetMapSlot.size assetMapSlot.align).getD 0

def validArena (arena : Arena) : Bool :=
  arena.base != 0 && decide (arena.offset ≤ arena.committed) &&
    decide (arena.committed ≤ arena.reserved) && decide (arena.reserved ≤ uintptrMax - arena.base)

-- `start` and `stop` are the source's `begin` and `end`.
structure AddressRange where
  start : Nat
  stop : Nat

def makeRange (base bytes : Nat) : Option AddressRange :=
  if base = 0 ∨ uintptrMax - base < bytes then none else some ⟨base, base + bytes⟩

def rangesOverlap (a b : AddressRange) : Bool :=
  decide (a.start < b.stop) && decide (b.start < a.stop)

-- A pointer to an arena; the null pointer has address 0.
structure ArenaPointer where
  address : Nat
  arena : Arena

def sizeofAssetRegistry : Nat := 800

def sizeofArena : Nat := 56

def disjointRanges (ranges : List AddressRange) : Bool :=
  decide (ranges.Pairwise fun a b => rangesOverlap a b = false)

def registryMemoryIsDisjoint (registry : Nat) (arenas : List ArenaPointer) : Bool :=
  match arenas.mapM fun p => makeRange p.arena.base p.arena.reserved with
  | none => false
  | some backing =>
    disjointRanges backing &&
      match makeRange registry sizeofAssetRegistry,
        arenas.mapM fun p => makeRange p.address sizeofArena with
      | some own, some objects =>
        let controls := own :: objects
        disjointRanges controls &&
          controls.all fun control => backing.all fun range => !rangesOverlap control range
      | _, _ => false

def trimAssetRoot (root : List UInt8) : Nat → Nat
  | 0 => 0
  | last + 1 =>
    if 1 < last + 1 ∧ isSeparator (root.getD last 0) = true then
      if last + 1 = 3 ∧ root.getD 1 0 = byte ':' then last + 1 else trimAssetRoot root last
    else last + 1

def copyAssetRoot (root : Option CString) : Option (List UInt8) :=
  root.bind fun root =>
    let length := root.text.length
    if length = 0 ∨ assetPathMax ≤ length then none
    else
      let length := trimAssetRoot root.text length
      if length = 0 ∨ 2 ^ 16 - 1 < length then none else some (root.text.take length)

def pushAssetArray (capacity : Nat) (arena : Arena) (array : SlotLayout) : Option Arena :=
  (arenaPush arena (array.size * capacity) array.align).map fun r => r.1

-- `registry` is the address of the registry; the inner `none` is `false`, which leaves it and the
-- arenas as they are.
def assetRegistryInit (registry : Nat)
    (persistentArena levelArena globalArena ioArena : ArenaPointer) (renderer : AssetRendererApi)
    (config : AssetRegistryConfig) : Option (Option AssetRegistry) :=
  let arenas := [persistentArena, levelArena, globalArena, ioArena]
  if registry = 0 ∨ (arenas.any fun p => p.address == 0 || !validArena p.arena) = true ∨
      ¬ (arenas.map ArenaPointer.address).Nodup then some none
  else if registryMemoryIsDisjoint registry arenas = false then some none
  else
    let required := assetRegistryMemoryRequired config
    let mapCapacity := assetMapCapacity config.capacity
    let persistent := persistentArena.arena
    if required = 0 ∨ persistent.reserved - persistent.offset < required then some none
    else
      match copyAssetRoot config.assetRoot with
      | none => some none
      | some assetRoot =>
        (Loop.forEachM assetArrays (pushAssetArray config.capacity) persistent).bind fun persistent =>
        (arenaPush persistent (assetMapSlot.size * mapCapacity) assetMapSlot.align).map fun r =>
          some
            { slots := fun _ => .cleared 0
              freeStack := fun _ => 0
              byId :=
                { address := r.2
                  slots := fun _ => none
                  cap := UInt32.ofNat mapCapacity
                  mask := UInt32.ofNat mapCapacity - 1
                  count := 0 }
              capacity := config.capacity
              liveCount := 0
              nextFresh := 0
              freeCount := 0
              persistentArena := r.1
              levelArena := levelArena.arena
              globalArena := globalArena.arena
              ioArena := ioArena.arena
              levelBaseOffset := levelArena.arena.offset
              globalBaseOffset := globalArena.arena.offset
              ioBaseOffset := ioArena.arena.offset
              maxFileBytes := config.maxFileBytes
              renderer
              assetRoot
              initialized := true }

end

def handleSlot (registry : AssetRegistry) (handle : AssetHandle) : Option Nat :=
  if registry.initialized = false ∨ handleIsNull handle = true then none
  else
    let slot := handleIndex handle
    let generation := handleGen handle
    if generation = 0 ∨ registry.capacity ≤ slot ∨ (registry.slots slot).live = false ∨
        (registry.slots slot).generation ≠ generation then none
    else some slot

def assetRegistryValid (registry : AssetRegistry) (handle : AssetHandle) : Bool :=
  (handleSlot registry handle).isSome

-- In this module an outer `none` is an abort or a loop that does not end.
def assetRegistryFind (registry : AssetRegistry) (id : AssetId) : Option AssetHandle :=
  if registry.initialized = false ∨ id = assetIdNull then some handleNull
  else
    (assetMapGet registry.byId id).map fun found =>
      match found with
      | none => handleNull
      | some found =>
        let slot := found.toNat
        if registry.capacity ≤ slot ∨ (registry.slots slot).live = false then handleNull
        else handleMake slot (registry.slots slot).generation

-- The inner `none` is `false`.
def normalizePath (path : Option CString) : Option (Option (List UInt8)) :=
  (assetPathNormalize (path.map CString.bytes) ⟨fun _ => 0, 0⟩ assetPathMax).map fun r =>
    if r.1 then some (List.ofFn fun i : Fin r.2.length => r.2.bytes i) else none

def assetIdOf (normalized : List UInt8) : AssetId :=
  assetIdNormalizedBytes normalized normalized.length

def readMemory (memory : Nat → UInt8) (address length : Nat) : List UInt8 :=
  (List.range length).map fun i => memory (address + i)

def assetRegistryFindPath (w : AssetWorld) (path : Option CString) : Option AssetHandle :=
  (normalizePath path).bind fun r =>
  match r with
  | none => some handleNull
  | some normalized =>
    (assetRegistryFind w.registry (assetIdOf normalized)).map fun handle =>
      match handleSlot w.registry handle with
      | none => handleNull
      | some slot =>
        let s := w.registry.slots slot
        if s.pathLength ≠ normalized.length ∨
            readMemory w.memory s.path normalized.length ≠ normalized then handleNull
        else handle

def arenaHasRoom (arena : Arena) (dataBytes pathBytes : Nat) : Bool :=
  if validArena arena = false then false
  else
    let dataSlack := memDefaultAlign - 1
    if sizeMax - dataSlack < dataBytes then false
    else
      let required := dataSlack + dataBytes
      if sizeMax - pathBytes < required then false
      else decide (required + pathBytes ≤ arena.reserved - arena.offset)

def nextSlotAvailable (registry : AssetRegistry) : Option Nat :=
  if registry.capacity ≤ registry.liveCount then none
  else if registry.freeCount ≠ 0 then
    let slot := registry.freeStack (registry.freeCount - 1)
    let s := registry.slots slot
    if registry.capacity ≤ slot ∨ s.live = true ∨ s.generation = 0 ∨
        handleGenMask.toNat < s.generation then none
    else some slot
  else
    let slot := registry.nextFresh
    let s := registry.slots slot
    if registry.capacity ≤ slot ∨ s.live = true ∨ s.generation ≠ 0 then none else some slot

def AssetWorld.setSlot (w : AssetWorld) (slot : Nat) (s : AssetSlot) : AssetWorld :=
  { w with registry := { w.registry with slots := Function.update w.registry.slots slot s } }

-- The inner `none` leaves `*out_found` false.
def existingAsset (w : AssetWorld) (id : AssetId) (path : List UInt8) (type : AssetType)
    (lifetime : Nat) : Option (Option (AssetHandle × AssetWorld)) :=
  (assetMapGet w.registry.byId id).map fun found =>
    found.map fun found =>
      let slot := found.toNat
      let s := w.registry.slots slot
      if w.registry.capacity ≤ slot ∨ s.live = false ∨ s.id ≠ id ∨ s.type ≠ type ∨
          s.lifetime ≠ lifetime ∨ s.state ≠ .ready ∨ s.pathLength ≠ path.length ∨
          readMemory w.memory s.path path.length ≠ path then (handleNull, w)
      else if lifetime = assetLifetimeGlobal then
        if s.refcount = 2 ^ 32 - 1 then (handleNull, w)
        else
          (handleMake slot s.generation, w.setSlot slot { s with refcount := s.refcount + 1 })
      else (handleMake slot s.generation, w)

def AssetRegistry.lifetimeArena (registry : AssetRegistry) (lifetime : Nat) : Arena :=
  if lifetime = assetLifetimeLevel then registry.levelArena else registry.globalArena

def AssetRegistry.setLifetimeArena (registry : AssetRegistry) (lifetime : Nat) (arena : Arena) :
    AssetRegistry :=
  { registry with
    levelArena := if lifetime = assetLifetimeLevel then arena else registry.levelArena
    globalArena := if lifetime = assetLifetimeLevel then registry.globalArena else arena }

structure AssetContent where
  type : AssetType
  source : List UInt8
  gpuHandle : Handle
  meta0 : UInt32
  meta1 : UInt32
  meta2 : UInt32

def takeSlot (registry : AssetRegistry) : AssetRegistry :=
  { registry with
    freeCount := if registry.freeCount ≠ 0 then registry.freeCount - 1 else registry.freeCount
    nextFresh := if registry.freeCount ≠ 0 then registry.nextFresh else registry.nextFresh + 1 }

def filledSlot (generation lifetime : Nat) (id : AssetId) (path : List UInt8)
    (content : AssetContent) (cpu storedPath : Nat) : AssetSlot where
  generation := if generation = 0 then 1 else generation
  live := true
  type := content.type
  state := .ready
  lifetime := lifetime
  id := id
  cpuBlob := cpu
  cpuBlobBytes := content.source.length
  gpuHandle := content.gpuHandle
  refcount := if lifetime = assetLifetimeGlobal then 1 else 0
  meta0 := content.meta0
  meta1 := content.meta1
  meta2 := content.meta2
  path := storedPath
  pathLength := path.length % 2 ^ 16

def fillSlot (w : AssetWorld) (slot lifetime : Nat) (id : AssetId) (path : List UInt8)
    (content : AssetContent) (arena : Arena) (cpu storedPath : Nat) : AssetWorld :=
  let registry := takeSlot (w.registry.setLifetimeArena lifetime arena)
  let s := filledSlot (registry.slots slot).generation lifetime id path content cpu storedPath
  { w with
    registry :=
      { registry with
        slots := Function.update registry.slots slot s
        liveCount := registry.liveCount + 1 }
    memory := memcpy (memcpy w.memory cpu content.source) storedPath (path ++ [0]) }

def pushAsset (arena : Arena) (sourceBytes pathBytes : Nat) : Option (Arena × Nat × Nat) :=
  (arenaPush arena sourceBytes memDefaultAlign).bind fun (pushed, cpu) =>
    (arenaPush pushed pathBytes 1).map fun (pushed, storedPath) => (pushed, cpu, storedPath)

def commitAsset (w : AssetWorld) (path : List UInt8) (id : AssetId) (lifetime : Nat)
    (content : AssetContent) : Option (AssetHandle × AssetWorld) :=
  let arena := w.registry.lifetimeArena lifetime
  if arenaHasRoom arena content.source.length (path.length + 1) = false then some (handleNull, w)
  else
    match nextSlotAvailable w.registry with
    | none => some (handleNull, w)
    | some slot =>
      (pushAsset arena content.source.length (path.length + 1)).bind fun (pushed, cpu, storedPath) =>
      if cpu = 0 ∨ storedPath = 0 then
        let rewound := { pushed with offset := arena.offset }
        some (handleNull, { w with registry := w.registry.setLifetimeArena lifetime rewound })
      else
        let filled := fillSlot w slot lifetime id path content pushed cpu storedPath
        (hashmapSet arenaAllocator assetMapSlot filled.registry.persistentArena filled.registry.byId
          id (UInt32.ofNat slot)).map fun (persistent, byId) =>
          (handleMake slot (filled.registry.slots slot).generation,
            { filled with
              registry := { filled.registry with persistentArena := persistent, byId } })

def unlessExisting (w : AssetWorld) (path : Option CString) (type : AssetType) (lifetime : Nat)
    (register : List UInt8 → Option (AssetHandle × AssetWorld)) :
    Option (AssetHandle × AssetWorld) :=
  (normalizePath path).bind fun r =>
  match r with
  | none => some (handleNull, w)
  | some normalized =>
    (existingAsset w (assetIdOf normalized) normalized type lifetime).bind fun existing =>
    match existing with
    | some answer => some answer
    | none => register normalized

-- The pixels and samples are what the pointers show.
structure AssetTextureSource where
  rgba8 : Option (Nat → UInt8)
  width : UInt32
  height : UInt32

structure AssetSoundSource where
  pcm : Option (Nat → UInt8)
  pcmBytes : Nat
  sampleRate : UInt32
  channels : UInt16
  bitsPerSample : UInt16

def AssetWorld.createTexture (w : AssetWorld) (gpu : Handle) : AssetWorld :=
  { w with created := if handleIsNull gpu then w.created else gpu :: w.created }

def AssetWorld.destroyTexture (w : AssetWorld) (texture : Handle) (framesUntilFree : UInt32) :
    AssetWorld :=
  { w with destroyed := (texture, framesUntilFree) :: w.destroyed }

def textureBytes (width height : UInt32) : Nat := width.toNat * height.toNat * 4

-- `gpu` is what `create_texture` returns, should it be called.
def assetRegisterTexture (w : AssetWorld) (path : Option CString) (lifetime : Nat)
    (source : AssetTextureSource) (gpu : Handle) : Option (AssetHandle × AssetWorld) :=
  match source.rgba8 with
  | none => some (handleNull, w)
  | some rgba8 =>
    if w.registry.initialized = false ∨ source.width = 0 ∨ source.height = 0 ∨
        assetLifetimeGlobal < lifetime ∨ w.registry.renderer.createTexture = false ∨
        w.registry.renderer.destroyTexture = false then some (handleNull, w)
    else if sizeMax / 4 < source.width.toNat * source.height.toNat then some (handleNull, w)
    else
      let bytes := textureBytes source.width source.height
      unlessExisting w path .texture lifetime fun normalized =>
        if (nextSlotAvailable w.registry).isNone = true ∨
            arenaHasRoom (w.registry.lifetimeArena lifetime) bytes (normalized.length + 1) = false then
          some (handleNull, w)
        else
          let w := w.createTexture gpu
          if handleIsNull gpu then some (handleNull, w)
          else
            let content : AssetContent :=
              { type := .texture
                source := readMemory rgba8 0 bytes
                gpuHandle := gpu
                meta0 := source.width
                meta1 := source.height
                meta2 := 0 }
            (commitAsset w normalized (assetIdOf normalized) lifetime content).map fun (result, w) =>
              if handleIsNull result then (result, w.destroyTexture gpu 0) else (result, w)

def bytesPerFrame (source : AssetSoundSource) : Nat :=
  source.channels.toNat * (source.bitsPerSample.toNat / 8)

def assetRegisterSound (w : AssetWorld) (path : Option CString) (lifetime : Nat)
    (source : AssetSoundSource) : Option (AssetHandle × AssetWorld) :=
  match source.pcm with
  | none => some (handleNull, w)
  | some pcm =>
    if w.registry.initialized = false ∨ source.pcmBytes = 0 ∨ source.sampleRate = 0 ∨
        source.channels = 0 ∨ 2 < source.channels ∨
        (source.bitsPerSample ≠ 8 ∧ source.bitsPerSample ≠ 16 ∧ source.bitsPerSample ≠ 24 ∧
          source.bitsPerSample ≠ 32) ∨ assetLifetimeGlobal < lifetime then some (handleNull, w)
    else if bytesPerFrame source = 0 ∨ source.pcmBytes % bytesPerFrame source ≠ 0 ∨
        2 ^ 32 - 1 < source.pcmBytes / bytesPerFrame source then some (handleNull, w)
    else
      unlessExisting w path .sound lifetime fun normalized =>
        commitAsset w normalized (assetIdOf normalized) lifetime
          { type := .sound
            source := readMemory pcm 0 source.pcmBytes
            gpuHandle := handleNull
            meta0 := source.sampleRate
            meta1 := (source.channels.toUInt32 <<< 16) ||| source.bitsPerSample.toUInt32
            meta2 := UInt32.ofNat (source.pcmBytes / bytesPerFrame source) }

end ChoonzMoba
