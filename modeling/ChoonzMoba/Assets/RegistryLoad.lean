import ChoonzMoba.Assets.Mba
import ChoonzMoba.Assets.Registry
import ChoonzMoba.Assets.Tga
import ChoonzMoba.Assets.Wav

namespace ChoonzMoba

-- `data` is null or points to `size` bytes.
structure PlatformFile where
  data : Option (List UInt8)
  size : Nat
  readable : ∀ bytes, data = some bytes → bytes.length = size

-- What `platform_file_read_rooted` does with the allocator it is given before it returns; a
-- finished read with `none` returned `false`.
inductive FileRead where
  | finish (file : Option PlatformFile)
  | allocate (ptr oldSize newSize align : Nat) (next : Nat → FileRead)

-- from the root, the path and the largest size to accept
abbrev PlatformReader := List UInt8 → List UInt8 → Nat → FileRead

-- In this module an outer `none` is an abort.
def boundedArenaAllocate (arena : Arena) (maxBytes ptr newSize align : Nat) :
    Option (Nat × Arena) :=
  if newSize = 0 then some (0, arena)
  else if ptr ≠ 0 ∨ maxBytes < newSize ∨ align = 0 ∨ align &&& (align - 1) ≠ 0 ∨
      validArena arena = false then some (0, arena)
  else
    let current := arena.base + arena.offset
    if uintptrMax - (align - 1) < current then some (0, arena)
    else
      let aligned := (current + align - 1) &&& (uintptrMax - (align - 1))
      if aligned < arena.base then some (0, arena)
      else
        let alignedOffset := aligned - arena.base
        if arena.reserved < alignedOffset ∨ arena.reserved - alignedOffset < newSize then
          some (0, arena)
        else (arenaPush arena newSize align).map fun r => (r.2, r.1)

def FileRead.run (maxBytes : Nat) : FileRead → Arena → Option (Option PlatformFile × Arena)
  | .finish file, arena => some (file, arena)
  | .allocate ptr _ newSize align next, arena =>
    (boundedArenaAllocate arena maxBytes ptr newSize align).bind fun r =>
      (next r.1).run maxBytes r.2

def AssetWorld.withIo (w : AssetWorld) (io : Arena) : AssetWorld :=
  { w with registry := { w.registry with ioArena := io } }

def AssetWorld.rewindIo (w : AssetWorld) : AssetWorld :=
  w.withIo { w.registry.ioArena with offset := w.registry.ioBaseOffset }

-- The file is `none` when the read fails or is empty.
def readFile (w : AssetWorld) (normalized : List UInt8) (platform : PlatformReader) :
    Option (Option PlatformFile × AssetWorld) :=
  let w := w.rewindIo
  let read := platform w.registry.assetRoot normalized w.registry.maxFileBytes
  (read.run w.registry.maxFileBytes w.registry.ioArena).map fun (file, io) =>
    (file.filter fun file => file.size != 0, w.withIo io)

-- The io arena is rewound, a file is read, decoded and registered, and the arena rewound again.
def loadFile {Source : Type} (w : AssetWorld) (normalized : List UInt8) (platform : PlatformReader)
    (decode : PlatformFile → AssetWorld → Option (Option Source × AssetWorld))
    (register : AssetWorld → Source → Option (AssetHandle × AssetWorld)) :
    Option (AssetHandle × AssetWorld) :=
  (readFile w normalized platform).bind fun (file, w) =>
  (match file with
    | none => some (none, w)
    | some file => decode file w).bind fun (source, w) =>
  (match source with
    | none => some (handleNull, w)
    | some source => register w source).map fun (r : AssetHandle × AssetWorld) =>
      (r.1, r.2.rewindIo)

def bakedTexture (expectedId : AssetId) (file : PlatformFile) (w : AssetWorld) :
    Option (Option AssetTextureSource × AssetWorld) :=
  (mbaInspect file.data).map fun baked =>
    (baked.bind fun baked =>
      if baked.header.assetId = expectedId ∧ baked.header.type = MbaAssetType.texture.value then
        some
          { rgba8 := some fun i => baked.texture.rgba8.getD i 0
            width := baked.texture.width
            height := baked.texture.height }
      else none, w)

-- `scratch` is what the block for the pixels holds before they are written.
def decodedTexture (scratch : Nat → UInt8) (file : PlatformFile) (w : AssetWorld) :
    Option (Option AssetTextureSource × AssetWorld) :=
  (tgaInspect file.data).bind fun r =>
  match r with
  | none => some (none, w)
  | some (_, _, decodedBytes) =>
    if arenaHasRoom w.registry.ioArena decodedBytes 0 = false then some (none, w)
    else
      (tgaDecode file.data arenaAllocator w.registry.ioArena scratch).map fun (image, io) =>
        (image.map fun image =>
          { rgba8 := some image.rgba8
            width := UInt32.ofNat image.width
            height := UInt32.ofNat image.height }, w.withIo io)

def decodedSound (file : PlatformFile) (w : AssetWorld) :
    Option (Option AssetSoundSource × AssetWorld) :=
  (wavInspectPcm file.data).bind fun r =>
  match r with
  | none => some (none, w)
  | some info =>
    if arenaHasRoom w.registry.ioArena info.pcmBytes 0 = false then some (none, w)
    else
      (wavDecodePcm file.data arenaAllocator w.registry.ioArena).map fun (pcm, io) =>
        (pcm.map fun pcm =>
          { pcm := some pcm.pcm
            pcmBytes := pcm.pcmBytes
            sampleRate := pcm.sampleRate
            channels := pcm.channels
            bitsPerSample := pcm.bitsPerSample }, w.withIo io)

def assetLoad (w : AssetWorld) (path : Option CString) (lifetime : Nat) (platform : PlatformReader)
    (gpu : Handle) : Option (AssetHandle × AssetWorld) :=
  if w.registry.initialized = false ∨ assetLifetimeGlobal < lifetime then some (handleNull, w)
  else
    (normalizePath path).bind fun r =>
    match r with
    | none => some (handleNull, w)
    | some normalized =>
      let expectedId := assetIdOf normalized
      if expectedId = assetIdNull then some (handleNull, w)
      else
        loadFile w normalized platform (bakedTexture expectedId) fun w source =>
          assetRegisterTexture w (some (.of normalized)) lifetime source gpu

-- `load` runs when the asset is not registered yet.
def beginFileLoad (w : AssetWorld) (path : Option CString) (type : AssetType) (lifetime : Nat)
    (load : List UInt8 → Option (AssetHandle × AssetWorld)) : Option (AssetHandle × AssetWorld) :=
  if w.registry.initialized = false ∨ assetLifetimeGlobal < lifetime then some (handleNull, w)
  else unlessExisting w path type lifetime load

def assetLoadTextureTga (w : AssetWorld) (path : Option CString) (lifetime : Nat)
    (platform : PlatformReader) (scratch : Nat → UInt8) (gpu : Handle) :
    Option (AssetHandle × AssetWorld) :=
  beginFileLoad w path .texture lifetime fun normalized =>
    loadFile w normalized platform (decodedTexture scratch) fun w source =>
      assetRegisterTexture w (some (.of normalized)) lifetime source gpu

def assetLoadSoundWav (w : AssetWorld) (path : Option CString) (lifetime : Nat)
    (platform : PlatformReader) : Option (AssetHandle × AssetWorld) :=
  beginFileLoad w path .sound lifetime fun normalized =>
    loadFile w normalized platform decodedSound fun w source =>
      assetRegisterSound w (some (.of normalized)) lifetime source

structure AssetTextureView where
  id : AssetId
  rgba8 : Nat
  rgba8Bytes : Nat
  width : UInt32
  height : UInt32
  gpu : Handle

structure AssetSoundView where
  id : AssetId
  pcm : Nat
  pcmBytes : Nat
  sampleRate : UInt32
  channels : UInt16
  bitsPerSample : UInt16
  frameCount : UInt32

def assetGetTexture (registry : AssetRegistry) (handle : AssetHandle) : Option AssetTextureView :=
  (handleSlot registry handle).bind fun slot =>
    let s := registry.slots slot
    if s.type ≠ .texture ∨ s.state ≠ .ready then none
    else
      some
        { id := s.id
          rgba8 := s.cpuBlob
          rgba8Bytes := s.cpuBlobBytes
          width := s.meta0
          height := s.meta1
          gpu := s.gpuHandle }

def assetGetSound (registry : AssetRegistry) (handle : AssetHandle) : Option AssetSoundView :=
  (handleSlot registry handle).bind fun slot =>
    let s := registry.slots slot
    if s.type ≠ .sound ∨ s.state ≠ .ready then none
    else
      some
        { id := s.id
          pcm := s.cpuBlob
          pcmBytes := s.cpuBlobBytes
          sampleRate := s.meta0
          channels := (s.meta1 >>> 16).toUInt16
          bitsPerSample := (s.meta1 &&& 0xffff).toUInt16
          frameCount := s.meta2 }

def assetGlobalRefcount (registry : AssetRegistry) (handle : AssetHandle) : Nat :=
  match handleSlot registry handle with
  | none => 0
  | some slot =>
    let s := registry.slots slot
    if s.lifetime ≠ assetLifetimeGlobal then 0 else s.refcount

-- In a release build the assertion on the generation is not there.
def nextGeneration (generation : Nat) : Nat :=
  if handleGenMask.toNat < generation + 1 then 1 else generation + 1

def clearSlot (registry : AssetRegistry) (slot : Nat) : AssetRegistry :=
  let generation := nextGeneration (registry.slots slot).generation
  { registry with
    slots := Function.update registry.slots slot (.cleared generation)
    freeStack := Function.update registry.freeStack registry.freeCount slot
    freeCount := registry.freeCount + 1
    liveCount := registry.liveCount - 1 }

def destroySlotTexture (w : AssetWorld) (slot : Nat) (framesUntilFree : UInt32) : AssetWorld :=
  let s := w.registry.slots slot
  { w with
    destroyed :=
      if s.type = .texture ∧ handleIsNull s.gpuHandle = false ∧
          w.registry.renderer.destroyTexture = true then
        (s.gpuHandle, framesUntilFree) :: w.destroyed
      else w.destroyed }

def retireSlot (w : AssetWorld) (slot : Nat) (framesUntilFree : UInt32) : Option AssetWorld :=
  if (w.registry.slots slot).live = false then some w
  else
    let w := destroySlotTexture w slot framesUntilFree
    (hashmapRemove w.registry.byId (w.registry.slots slot).id).map fun (_, byId) =>
      { w with registry := clearSlot { w.registry with byId } slot }

def assetReleaseGlobal (w : AssetWorld) (handle : AssetHandle) (framesUntilFree : UInt32) :
    Option (Bool × AssetWorld) :=
  match handleSlot w.registry handle with
  | none => some (false, w)
  | some slot =>
    let s := w.registry.slots slot
    if s.lifetime ≠ assetLifetimeGlobal ∨ s.refcount = 0 then some (false, w)
    else
      let w := w.setSlot slot { s with refcount := s.refcount - 1 }
      if s.refcount - 1 = 0 then
        (retireSlot w slot framesUntilFree).map fun w => (true, w)
      else some (true, w)

def retireIf (p : AssetSlot → Bool) (framesUntilFree : UInt32) (w : AssetWorld) (slot : Nat) :
    Option AssetWorld :=
  if p (w.registry.slots slot) = true then retireSlot w slot framesUntilFree else some w

def assetsUnloadLevel (w : AssetWorld) (framesUntilFree : UInt32) : Option AssetWorld :=
  if w.registry.initialized = false then some w
  else
    (Loop.forRangeM w.registry.nextFresh
      (retireIf (fun s => s.live && s.lifetime == assetLifetimeLevel) framesUntilFree) w).map
      fun w =>
        let rewound := { w.registry.levelArena with offset := w.registry.levelBaseOffset }
        { w with registry := { w.registry with levelArena := rewound } }

def assetRegistryShutdown (w : AssetWorld) (framesUntilFree : UInt32) : Option AssetWorld :=
  if w.registry.initialized = false then some w
  else
    (Loop.forRangeM w.registry.nextFresh (retireIf AssetSlot.live framesUntilFree) w).map
      fun w =>
        let r := w.registry
        { w with
          registry :=
            { r with
              levelArena := { r.levelArena with offset := r.levelBaseOffset }
              globalArena := { r.globalArena with offset := r.globalBaseOffset }
              ioArena := { r.ioArena with offset := r.ioBaseOffset }
              initialized := false } }

end ChoonzMoba
