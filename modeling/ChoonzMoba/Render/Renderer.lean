import ChoonzMoba.Core.ArenaRun
import ChoonzMoba.Library.Guarded
import ChoonzMoba.Render.Batch
import ChoonzMoba.Render.HandleTable
import ChoonzMoba.Render.Vk

namespace ChoonzMoba

@[ext] structure TextureHandle where
  h : Handle
deriving DecidableEq

def framesInFlight : Nat := 2

def maxScImages : Nat := 8

def maxDrawItems : UInt32 := 4096

def maxDebugVerts : Nat := 16384

def pipelineCount : Nat := 3

structure MeshResource where
  vertex : Dedicated
  index : Dedicated
  indexCount : UInt32
  indexU16 : Bool

structure MaterialResource where
  descriptorSet : VkHandle
  texture : TextureHandle

structure ScImage where
  view : VkHandle
  depth : Dedicated
  depthView : VkHandle
  renderFinished : VkHandle
  inFlight : VkHandle

structure FrameSlot where
  ubo : Dedicated
  uboSet : VkHandle
  instanceBuf : Dedicated
  debugVertexBuf : Dedicated
  imageAvailable : VkHandle
  inFlight : VkHandle

structure Renderer where
  vk : Vk
  swapchain : VkHandle
  scFormat : UInt32
  scExtent : UInt32 × UInt32
  scCount : Nat
  images : Nat → ScImage
  depthFormat : Bool
  needRecreate : Bool
  scCanTransferSrc : Bool
  pipelineCache : VkHandle
  pipelines : Nat → VkHandle
  pipelinesFormat : UInt32
  sampler : VkHandle
  set0Layout : VkHandle
  materialLayout : VkHandle
  descPool : VkHandle
  materialPipelineLayout : VkHandle
  debugPipelineLayout : VkHandle
  cmdPool : VkHandle
  slots : Nat → FrameSlot
  meshHandles : RenderHandleTable
  textureHandles : RenderHandleTable
  materialHandles : RenderHandleTable
  meshes : Nat → MeshResource
  textures : Nat → TextureResource
  materials : Nat → MaterialResource
  frameArenas : Nat → Arena
  drawItems : List DrawItem
  batchOutput : RenderBatchOutput
  pendingFbWidth : Int
  pendingFbHeight : Int
  pendingMinimized : Bool
  frameBegun : Bool
  frame : Nat
  frameCount : UInt64

namespace Renderer

-- as `calloc` leaves it, over a fresh device
def zeroed (answers : Nat → VkAnswer) (frameArenas : Nat → Arena) : Renderer where
  vk := .fresh answers
  swapchain := 0
  scFormat := 0
  scExtent := (0, 0)
  scCount := 0
  images := fun _ => ⟨0, .null, 0, 0, 0⟩
  depthFormat := false
  needRecreate := false
  scCanTransferSrc := false
  pipelineCache := 0
  pipelines := fun _ => 0
  pipelinesFormat := 0
  sampler := 0
  set0Layout := 0
  materialLayout := 0
  descPool := 0
  materialPipelineLayout := 0
  debugPipelineLayout := 0
  cmdPool := 0
  slots := fun _ => ⟨.null, 0, .null, .null, 0, 0⟩
  meshHandles := .zeroed 0 0
  textureHandles := .zeroed 0 0
  materialHandles := .zeroed 0 0
  meshes := fun _ => ⟨.null, .null, 0, false⟩
  textures := fun _ => ⟨.null, 0⟩
  materials := fun _ => ⟨0, ⟨handleNull⟩⟩
  frameArenas := frameArenas
  drawItems := []
  batchOutput := .zero
  pendingFbWidth := 0
  pendingFbHeight := 0
  pendingMinimized := false
  frameBegun := false
  frame := 0
  frameCount := 0

def withVk (r : Renderer) (vk : Vk) : Renderer := { r with vk := vk }

def setMesh (r : Renderer) (index : Nat) (mesh : MeshResource) : Renderer :=
  { r with meshes := Function.update r.meshes index mesh }

def setTexture (r : Renderer) (index : Nat) (texture : TextureResource) : Renderer :=
  { r with textures := Function.update r.textures index texture }

def setMaterial (r : Renderer) (index : Nat) (material : MaterialResource) : Renderer :=
  { r with materials := Function.update r.materials index material }

def setImage (r : Renderer) (index : Nat) (image : ScImage) : Renderer :=
  { r with images := Function.update r.images index image }

def setSlot (r : Renderer) (index : Nat) (slot : FrameSlot) : Renderer :=
  { r with slots := Function.update r.slots index slot }

def destroyInto (kind : VkKind) (get : Renderer → VkHandle) (set : Renderer → VkHandle → Renderer)
    (r : Renderer) : Renderer :=
  set (r.withVk (r.vk.destroy kind (get r))) 0

def asks : Guarded Renderer := fun r =>
  let (ok, vk) := r.vk.succeeds
  some (ok, r.withVk vk)

end Renderer

open Renderer

-- the first answer is about the file
def loadShaderModule (vk : Vk) : VkHandle × Vk :=
  let (found, vk) := vk.succeeds
  if found then vk.create .shaderModule else (0, vk)

def destroyPipelines (r : Renderer) : Renderer :=
  Loop.forRange pipelineCount
    (fun r i =>
      { r with
        vk := r.vk.destroy .pipeline (r.pipelines i)
        pipelines := Function.update r.pipelines i 0 })
    r

def buildPipeline (i : Nat) : Guarded Renderer := fun r =>
  let (vert, vk) := loadShaderModule r.vk
  let (frag, vk) := loadShaderModule vk
  if vert = 0 ∨ frag = 0 then
    some (false, r.withVk ((vk.destroy .shaderModule vert).destroy .shaderModule frag))
  else
    let (pipeline, vk) := vk.create .pipeline
    some (pipeline != 0,
      { r with
        vk := (vk.destroy .shaderModule vert).destroy .shaderModule frag
        pipelines := Function.update r.pipelines i pipeline })

def buildPipelines : Guarded Renderer :=
  Guarded.andThen (Guarded.upTo buildPipeline pipelineCount) fun r =>
    some (true, { r with pipelinesFormat := r.scFormat })

def destroyScImage (r : Renderer) (i : Nat) : Renderer :=
  let image := r.images i
  let vk := r.vk.destroy .imageView image.depthView
  let vk := freeImage vk image.depth
  let vk := vk.destroy .imageView image.view
  let vk := vk.destroy .semaphore image.renderFinished
  (r.withVk vk).setImage i
    { image with depthView := 0, depth := .null, view := 0, renderFinished := 0 }

def destroySwapchain (r : Renderer) : Renderer :=
  let r := Loop.forRange r.scCount destroyScImage r
  { r with vk := r.vk.destroy .swapchain r.swapchain, swapchain := 0, scCount := 0 }

-- of an image's own objects all but the semaphore are needed; without them the program ends
def createScImage (r : Renderer) (i : Nat) : Option Renderer :=
  let (view, vk) := r.vk.create .imageView
  if view = 0 then none
  else
    (allocImage2d vk).bind fun (ok, depth, vk) =>
      let (depthView, vk) := vk.create .imageView
      if !ok ∨ depthView = 0 then none
      else
        let (renderFinished, vk) := vk.create .semaphore
        some ((r.withVk vk).setImage i ⟨view, depth, depthView, renderFinished, 0⟩)

def clampExtent (caps : VkCaps) (fbWidth fbHeight : UInt32) : UInt32 × UInt32 :=
  if caps.currentExtent.1 ≠ 0xFFFFFFFF then caps.currentExtent
  else
    (if fbWidth < caps.minExtent.1 then caps.minExtent.1
      else if caps.maxExtent.1 < fbWidth then caps.maxExtent.1 else fbWidth,
     if fbHeight < caps.minExtent.2 then caps.minExtent.2
      else if caps.maxExtent.2 < fbHeight then caps.maxExtent.2 else fbHeight)

def createScImages : Guarded Renderer := fun r =>
  let (answer, vk) := r.vk.ask
  if maxScImages < answer.number then none
  else
    (Loop.forRangeM answer.number createScImage { r with vk := vk, scCount := answer.number }).map
      fun r => (true, r)

def fillSwapchain (format : UInt32) (extent : UInt32 × UInt32) : Guarded Renderer := fun r =>
  let (depth, vk) := r.vk.succeeds
  let r := { r with
    vk := vk, scFormat := format, scExtent := extent, depthFormat := r.depthFormat || depth }
  if !r.depthFormat then some (false, r) else createScImages r

def createSwapchain (fbWidth fbHeight : UInt32) : Guarded Renderer := fun r =>
  let (answer, vk) := r.vk.ask
  let extent := clampExtent answer.caps fbWidth fbHeight
  if extent.1 = 0 ∨ extent.2 = 0 then some (false, r.withVk vk)
  else
    let (swapchain, vk) := vk.create .swapchain
    let r := { r with
      vk := vk, swapchain := swapchain, scCanTransferSrc := answer.caps.transferSrc }
    if swapchain = 0 then some (false, r) else fillSwapchain answer.caps.format extent r

-- the pipelines are for the format of the swapchain; that they cannot be rebuilt is fatal
def refreshPipelines (r : Renderer) : Option Renderer :=
  if r.swapchain ≠ 0 ∧ r.pipelines 0 ≠ 0 ∧ r.pipelinesFormat ≠ r.scFormat then
    (buildPipelines (destroyPipelines r)).bind fun (ok, r) => if ok then some r else none
  else some r

def recreateSwapchain (fbWidth fbHeight : UInt32) (r : Renderer) : Option Renderer :=
  let r := destroySwapchain (r.withVk r.vk.deviceWaitIdle)
  (createSwapchain fbWidth fbHeight r).bind fun (_, r) =>
    refreshPipelines { r with needRecreate := false }

def releaseMeshSlot (r : Renderer) (index : Nat) : Renderer :=
  let mesh := r.meshes index
  let vk := freeBuffer (freeBuffer r.vk mesh.vertex) mesh.index
  (r.withVk vk).setMesh index { mesh with vertex := .null, index := .null, indexCount := 0 }

def releaseTextureSlot (r : Renderer) (index : Nat) : Renderer :=
  let texture := r.textures index
  let vk := freeImage (r.vk.destroy .imageView texture.view) texture.image
  (r.withVk vk).setTexture index ⟨.null, 0⟩

def releaseMaterialSlot (r : Renderer) (index : Nat) : Renderer :=
  r.setMaterial index { r.materials index with texture := ⟨handleNull⟩ }

end ChoonzMoba
