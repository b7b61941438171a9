import ChoonzMoba.Render.Renderer

namespace ChoonzMoba

open Renderer

def meshVertexSize : UInt32 := 20

def vertexPos3Uv2 : UInt32 := 0

def indexU16 : UInt32 := 0

def textureRgba8Srgb : UInt32 := 0

def samplerLinearRepeat : UInt32 := 0

-- the flags say whether the pointers are set
structure MeshDesc where
  vertices : Bool
  vertexCount : UInt32
  vertexStride : UInt32
  vertexLayout : UInt32
  indices : Bool
  indexCount : UInt32
  indexType : UInt32

structure TextureDesc where
  pixels : Bool
  width : UInt32
  height : UInt32
  format : UInt32

structure MaterialDesc where
  albedo : TextureHandle
  sampler : UInt32

-- `ok && alloc(...)`, where `old` stays if the allocation is not reached
def allocIf (ok : Bool) (alloc : Vk → Option (Bool × Dedicated × Vk)) (old : Dedicated) (vk : Vk) :
    Option (Bool × Dedicated × Vk) :=
  if ok then alloc vk else some (false, old, vk)

def Dedicated.reach (kind : VkKind) (d : Dedicated) : List VkObject :=
  [(kind, d.object), (.memory, d.memory)]

def uploadStaged (ok : Bool) (reach : List VkObject) (vk : Vk) : Bool × Vk :=
  let (ok, vk) := if ok then vk.succeeds else (false, vk)
  if !ok then (false, vk)
  else
    let (commands, vk) := beginOneShot vk
    if commands = 0 then (false, vk) else endOneShot vk commands reach

def fillMesh (mesh : MeshResource) (vk : Vk) : Option (Bool × MeshResource × Vk) := do
  let (ok, staging, vk) ← allocBuffer vk
  let (ok, vertex, vk) ← allocIf ok allocBuffer mesh.vertex vk
  let (ok, index, vk) ← allocIf ok allocBuffer mesh.index vk
  let (ok, vk) :=
    uploadStaged ok (staging.reach .buffer ++ vertex.reach .buffer ++ index.reach .buffer) vk
  some (ok, { mesh with vertex := vertex, index := index }, freeBuffer vk staging)

def fillTexture (texture : TextureResource) (vk : Vk) : Option (Bool × TextureResource × Vk) := do
  let (ok, image, vk) ← allocImage2d vk
  let (ok, staging, vk) ← allocIf ok allocBuffer .null vk
  let (ok, vk) := uploadStaged ok (staging.reach .buffer ++ image.reach .image) vk
  let vk := freeBuffer vk staging
  if ok then
    let (view, vk) := vk.create .imageView
    some (view != 0, ⟨image, view⟩, vk)
  else some (false, { texture with image := image }, vk)

-- a slot that could not be filled is retired for frame zero and collected at once
def rollBack (table : RenderHandleTable) (raw : Handle) : Option RenderHandleTable :=
  let (_, table) := renderHandleRetire table raw 0
  (renderHandleCollect (none : Option (Unit → Nat → Unit)) table 0 ()).map Prod.fst

def rendererCreateMesh (r : Renderer) (desc : MeshDesc) : Option (MeshHandle × Renderer) :=
  if !desc.vertices ∨ !desc.indices ∨ desc.vertexCount = 0 ∨ desc.indexCount = 0 ∨
      desc.vertexLayout ≠ vertexPos3Uv2 ∨ desc.vertexStride < meshVertexSize then
    some (⟨handleNull⟩, r)
  else
    let (raw, table) := renderHandleAlloc r.meshHandles
    if handleIsNull raw then some (⟨handleNull⟩, { r with meshHandles := table })
    else
      let index := handleIndex raw
      let mesh := { r.meshes index with
        indexCount := desc.indexCount, indexU16 := desc.indexType == indexU16 }
      (fillMesh mesh r.vk).bind fun (ok, mesh, vk) =>
        let r := ({ r with meshHandles := table }.withVk vk).setMesh index mesh
        if ok then some (⟨raw⟩, r)
        else
          let r := releaseMeshSlot r index
          (rollBack r.meshHandles raw).map fun table =>
            (⟨handleNull⟩, { r with meshHandles := table })

def rendererCreateTexture (maxImageDimension2D : UInt32) (r : Renderer) (desc : TextureDesc) :
    Option (TextureHandle × Renderer) :=
  if !desc.pixels ∨ desc.width = 0 ∨ desc.height = 0 ∨ desc.format ≠ textureRgba8Srgb ∨
      maxImageDimension2D < desc.width ∨ maxImageDimension2D < desc.height then
    some (⟨handleNull⟩, r)
  else
    let (raw, table) := renderHandleAlloc r.textureHandles
    if handleIsNull raw then some (⟨handleNull⟩, { r with textureHandles := table })
    else
      let index := handleIndex raw
      (fillTexture (r.textures index) r.vk).bind fun (ok, texture, vk) =>
        let r := ({ r with textureHandles := table }.withVk vk).setTexture index texture
        if ok then some (⟨raw⟩, r)
        else
          let r := releaseTextureSlot r index
          (rollBack r.textureHandles raw).map fun table =>
            (⟨handleNull⟩, { r with textureHandles := table })

def rendererCreateMaterial (r : Renderer) (desc : MaterialDesc) :
    Option (MaterialHandle × Renderer) :=
  if desc.sampler ≠ samplerLinearRepeat ∨ !renderHandleValid r.textureHandles desc.albedo.h then
    some (⟨handleNull⟩, r)
  else
    let (raw, table) := renderHandleAlloc r.materialHandles
    let r := { r with materialHandles := table }
    if handleIsNull raw then some (⟨handleNull⟩, r)
    else
      let index := handleIndex raw
      let material := r.materials index
      let (set, vk) :=
        if material.descriptorSet = 0 then r.vk.allocateDescriptorSet
        else (material.descriptorSet, r.vk)
      let r := (r.withVk vk).setMaterial index { material with descriptorSet := set }
      if set = 0 then
        (rollBack r.materialHandles raw).map fun table =>
          (⟨handleNull⟩, { r with materialHandles := table })
      else
        let vk := r.vk.updateDescriptorSet set (r.textures (handleIndex desc.albedo.h))
        some (⟨raw⟩, (r.withVk vk).setMaterial index ⟨set, desc.albedo⟩)

def retireAfter (r : Renderer) (framesUntilFree : UInt32) : UInt64 :=
  let delay := if framesUntilFree < UInt32.ofNat framesInFlight then UInt32.ofNat framesInFlight
    else framesUntilFree
  r.frameCount + delay.toUInt64

def rendererDestroyMesh (r : Renderer) (h : MeshHandle) (delay : UInt32) : Renderer :=
  { r with meshHandles := (renderHandleRetire r.meshHandles h.h (retireAfter r delay)).2 }

def rendererDestroyTexture (r : Renderer) (h : TextureHandle) (delay : UInt32) : Renderer :=
  { r with textureHandles := (renderHandleRetire r.textureHandles h.h (retireAfter r delay)).2 }

def rendererDestroyMaterial (r : Renderer) (h : MaterialHandle) (delay : UInt32) : Renderer :=
  { r with materialHandles := (renderHandleRetire r.materialHandles h.h (retireAfter r delay)).2 }

section

variable (table : Renderer → RenderHandleTable) (put : Renderer → RenderHandleTable → Renderer)
  (release : Renderer → Nat → Renderer)

def releaseAllSlots (r : Renderer) : Renderer :=
  let (released, r) := renderHandleReleaseAll (some release) (table r) r
  put r released

end

def releaseAllMaterials : Renderer → Renderer :=
  releaseAllSlots (·.materialHandles) ({ · with materialHandles := · }) releaseMaterialSlot

def releaseAllTextures : Renderer → Renderer :=
  releaseAllSlots (·.textureHandles) ({ · with textureHandles := · }) releaseTextureSlot

def releaseAllMeshes : Renderer → Renderer :=
  releaseAllSlots (·.meshHandles) ({ · with meshHandles := · }) releaseMeshSlot

def destroyFrameBuffers (r : Renderer) (i : Nat) : Renderer :=
  let slot := r.slots i
  let vk := freeBuffer (freeBuffer (freeBuffer r.vk slot.ubo) slot.instanceBuf) slot.debugVertexBuf
  (r.withVk vk).setSlot i
    { slot with ubo := .null, instanceBuf := .null, debugVertexBuf := .null }

def destroyFrameSync (r : Renderer) (i : Nat) : Renderer :=
  let slot := r.slots i
  let vk := (r.vk.destroy .semaphore slot.imageAvailable).destroy .fence slot.inFlight
  (r.withVk vk).setSlot i { slot with imageAvailable := 0, inFlight := 0 }

def rendererDestroy (r : Renderer) : Renderer :=
  let r := r.withVk r.vk.deviceWaitIdle
  let r := releaseAllMeshes (releaseAllTextures (releaseAllMaterials r))
  let r := destroyPipelines r
  let r := destroyInto .pipelineCache (·.pipelineCache) ({ · with pipelineCache := · }) r
  let r := Loop.forRange framesInFlight destroyFrameBuffers r
  let r := destroyInto .sampler (·.sampler) ({ · with sampler := · }) r
  let r := destroyInto .descriptorPool (·.descPool) ({ · with descPool := · }) r
  let r := destroyInto .pipelineLayout (·.materialPipelineLayout)
    ({ · with materialPipelineLayout := · }) r
  let r := destroyInto .pipelineLayout (·.debugPipelineLayout)
    ({ · with debugPipelineLayout := · }) r
  let r := destroyInto .descriptorSetLayout (·.set0Layout) ({ · with set0Layout := · }) r
  let r := destroyInto .descriptorSetLayout (·.materialLayout) ({ · with materialLayout := · }) r
  let r := destroySwapchain r
  let r := Loop.forRange framesInFlight destroyFrameSync r
  destroyInto .commandPool (·.cmdPool) ({ · with cmdPool := · }) r

open Guarded

end ChoonzMoba
