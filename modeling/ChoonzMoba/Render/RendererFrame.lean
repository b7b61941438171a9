import ChoonzMoba.Render.RendererResources

namespace ChoonzMoba

open Renderer

def drawItemSize : Nat := 80

def drawItemAlign : Nat := 16

def renderDebugVertexSize : Nat := 16

def renderDebugVertexAlign : Nat := 4

def collectMaterials (r : Renderer) : Option Renderer :=
  (renderHandleCollect (some releaseMaterialSlot) r.materialHandles r.frameCount r).map
    fun (table, r) => { r with materialHandles := table }

def collectTextures (r : Renderer) : Option Renderer :=
  (renderHandleCollect (some releaseTextureSlot) r.textureHandles r.frameCount r).map
    fun (table, r) => { r with textureHandles := table }

def collectMeshes (r : Renderer) : Option Renderer :=
  (renderHandleCollect (some releaseMeshSlot) r.meshHandles r.frameCount r).map
    fun (table, r) => { r with meshHandles := table }

-- the readback of a frame; `waitedFrame` is the slot whose fence guards the copy
structure CaptureState where
  buffer : Dedicated
  waitedFrame : Option Nat

def CaptureState.none : CaptureState := ⟨.null, Option.none⟩

/-- What the commands of a batch reach: the mesh, and the texture the set was last pointed to. -/
def batchReach (r : Renderer) (batch : RenderBatch) : List VkObject :=
  let mesh := r.meshes (handleIndex batch.mesh.h)
  let texture := r.vk.contents (r.materials (handleIndex batch.material.h)).descriptorSet
  [(.buffer, mesh.vertex.object), (.memory, mesh.vertex.memory), (.buffer, mesh.index.object),
    (.memory, mesh.index.memory), (.imageView, texture.view), (.image, texture.image.object),
    (.memory, texture.image.memory)]

def frameReach (r : Renderer) (img : Nat) : List VkObject :=
  let image := r.images img
  let slot := r.slots r.frame
  [(.imageView, image.view), (.imageView, image.depthView), (.image, image.depth.object),
    (.memory, image.depth.memory), (.semaphore, image.renderFinished),
    (.pipeline, r.pipelines 0), (.pipeline, r.pipelines 1), (.pipeline, r.pipelines 2),
    (.buffer, slot.ubo.object), (.memory, slot.ubo.memory),
    (.buffer, slot.instanceBuf.object), (.memory, slot.instanceBuf.memory),
    (.buffer, slot.debugVertexBuf.object), (.memory, slot.debugVertexBuf.memory),
    (.semaphore, slot.imageAvailable), (.commandPool, r.cmdPool),
    (.descriptorPool, r.descPool), (.sampler, r.sampler)].filter fun x => x.2 != 0

def frameWork (r : Renderer) (img : Nat) (capture : Dedicated) : Work where
  fence := (r.slots r.frame).inFlight
  frame := r.frameCount.toNat
  reach := (.fence, (r.slots r.frame).inFlight) ::
    (r.batchOutput.batches.flatMap (batchReach r) ++ (frameReach r img ++
      if capture.object = 0 then [] else capture.reach .buffer))
  sets := r.batchOutput.batches.map fun batch =>
    (r.materials (handleIndex batch.material.h)).descriptorSet
  fenced := List.mem_cons_self

def waitForImage (vk : Vk) (inFlight : VkHandle) : Vk :=
  if inFlight = 0 then vk else (vk.waitForFence inFlight).2

def drawImage (capture : Bool) (img : Nat) (r : Renderer) :
    Option (Bool × CaptureState × Renderer) :=
  let image := r.images img
  let fence := (r.slots r.frame).inFlight
  let r := (r.withVk (waitForImage r.vk image.inFlight)).setImage img { image with inFlight := fence }
  let r := r.withVk (r.vk.resetFence fence)
  (allocIf (capture && r.scCanTransferSrc) allocBuffer .null r.vk).map fun (captured, buffer, vk) =>
    let r := r.withVk (vk.writeFrame fence)
    let r := r.withVk (r.vk.submitFrame (frameWork r img buffer))
    let (answer, vk) := r.vk.ask
    let recreate := answer.result == .outOfDate || answer.result == .suboptimal
    (true, ⟨buffer, if captured then some r.frame else none⟩,
      { r with
        vk := vk
        needRecreate := r.needRecreate || recreate
        frame := (r.frame + 1) % framesInFlight
        frameCount := r.frameCount + 1 })

def acquireImage (capture : Bool) (r : Renderer) : Option (Bool × CaptureState × Renderer) :=
  let (answer, vk) := r.vk.ask
  let r := r.withVk vk
  match answer.result with
  | .outOfDate => some (false, .none, { r with needRecreate := true })
  | .failed => some (false, .none, r)
  | .success => drawImage capture answer.number r
  | .suboptimal => drawImage capture answer.number r

def deferredPipelines : Guarded Renderer := fun r =>
  if r.pipelines 0 = 0 then buildPipelines r else some (true, r)

def drawSwapchain (capture : Bool) (r : Renderer) : Option (Bool × CaptureState × Renderer) := do
  let (ok, r) ← deferredPipelines r
  if !ok then none
  else
    let r := r.withVk (r.vk.waitForFence (r.slots r.frame).inFlight).2
    let r ← collectMaterials r
    let r ← collectTextures r
    let r ← collectMeshes r
    acquireImage capture r

/-- `none` is an abort or a fatal error. -/
def drawFrame (r : Renderer) (fbWidth fbHeight : Int) (minimized capture : Bool) :
    Option (Bool × CaptureState × Renderer) :=
  if minimized ∨ fbWidth ≤ 0 ∨ fbHeight ≤ 0 then some (false, .none, r)
  else
    let width := UInt32.ofInt fbWidth
    let height := UInt32.ofInt fbHeight
    if r.needRecreate ∨ r.swapchain = 0 ∨ width ≠ r.scExtent.1 ∨ height ≠ r.scExtent.2 then do
      let r ← recreateSwapchain width height r
      if r.swapchain = 0 then some (false, .none, r) else drawSwapchain capture r
    else drawSwapchain capture r

-- `VK_FORMAT_R8G8B8A8_UNORM`, `R8G8B8A8_SRGB`, `B8G8R8A8_UNORM` and `B8G8R8A8_SRGB`
def captureFormats : List UInt32 := [37, 43, 44, 50]

def captureFrame (r : Renderer) (fbWidth fbHeight : Int) (minimized : Bool) :
    Option (Bool × Renderer) :=
  if !r.scCanTransferSrc ∨ r.scFormat ∉ captureFormats then some (false, r)
  else
    (drawFrame r fbWidth fbHeight minimized true).map fun (drew, cap, r) =>
      match cap.waitedFrame with
      | none => (false, r.withVk (freeBuffer r.vk cap.buffer))
      | some slot =>
        if !drew then (false, r.withVk (freeBuffer r.vk cap.buffer))
        else
          let (mapped, vk) := (r.vk.waitForFence (r.slots slot).inFlight).2.succeeds
          let (copied, vk) := if mapped then vk.succeeds else (false, vk)
          (copied, r.withVk (freeBuffer vk cap.buffer))

def resolveDraw (r : Renderer) (item : DrawItem) (pipelineKey : UInt32) :
    Bool × UInt32 × Renderer :=
  if !renderHandleValid r.meshHandles item.mesh.h ∨
      !renderHandleValid r.materialHandles item.material.h ∨
      !renderHandleValid r.textureHandles
        (r.materials (handleIndex item.material.h)).texture.h then (false, pipelineKey, r)
  else (true, 0, r)

-- the camera and the time of the view are not kept here
def rendererBeginFrame (r : Renderer) (fbWidth fbHeight : Int) (minimized : Bool) :
    Option (Bool × Renderer) :=
  if r.frameBegun then some (false, r)
  else do
    let arena := arenaReset (r.frameArenas r.frame)
    let (arena, _) ← arenaPush arena (drawItemSize * maxDrawItems.toNat) drawItemAlign
    let (arena, _) ← arenaPush arena (renderDebugVertexSize * maxDebugVerts) renderDebugVertexAlign
    some (true,
      { r with
        frameArenas := Function.update r.frameArenas r.frame arena
        drawItems := []
        batchOutput := .zero
        pendingFbWidth := fbWidth
        pendingFbHeight := fbHeight
        pendingMinimized := minimized
        frameBegun := true })

def renderSubmissionPreflight (items : Bool) (count current capacity : UInt32) : Bool :=
  current ≤ capacity && count ≤ capacity - current && (items || count = 0)

def rendererSubmit (r : Renderer) (items : Option (List DrawItem)) (count : UInt32) :
    Bool × Renderer :=
  if !r.frameBegun ∨
      !renderSubmissionPreflight items.isSome count (UInt32.ofNat r.drawItems.length) maxDrawItems
  then (false, r)
  else (true, { r with drawItems := r.drawItems ++ (items.getD []).take count.toNat })

section

variable (qsort : (SortItem → SortItem → Int) → List SortItem → List SortItem)

def prepareSubmittedFrame (r : Renderer) : Option (Bool × Renderer) :=
  if !r.frameBegun then some (false, r)
  else
    (renderBuildBatches qsort resolveDraw r.drawItems maxDrawItems (r.frameArenas r.frame) r
        r.batchOutput).map fun (ok, output, arena, r) =>
      (ok,
        { r with
          frameArenas := Function.update r.frameArenas r.frame arena
          batchOutput := output
          frameBegun := false })

def rendererEndFrame (r : Renderer) : Option Renderer := do
  let (ok, r) ← prepareSubmittedFrame qsort r
  if !ok then some r
  else
    let (_, _, r) ← drawFrame r r.pendingFbWidth r.pendingFbHeight r.pendingMinimized false
    some r

def rendererEndFrameCapture (r : Renderer) : Option (Bool × Renderer) := do
  let (ok, r) ← prepareSubmittedFrame qsort r
  if !ok then some (false, r)
  else captureFrame r r.pendingFbWidth r.pendingFbHeight r.pendingMinimized

end

end ChoonzMoba
