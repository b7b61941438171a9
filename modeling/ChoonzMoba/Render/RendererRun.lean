import ChoonzMoba.Library.System
import ChoonzMoba.Render.RendererCreate

namespace ChoonzMoba

open Renderer Vk

inductive RendererCall
  | createMesh (desc : MeshDesc)
  | createTexture (desc : TextureDesc)
  | createMaterial (desc : MaterialDesc)
  | destroyMesh (mesh : MeshHandle) (framesUntilFree : UInt32)
  | destroyTexture (texture : TextureHandle) (framesUntilFree : UInt32)
  | destroyMaterial (material : MaterialHandle) (framesUntilFree : UInt32)
  | beginFrame (fbWidth fbHeight : Int) (minimized : Bool)
  | submit (items : Option (List DrawItem)) (count : UInt32)
  | endFrame
  | endFrameCapture

section

variable (qsort : (SortItem → SortItem → Int) → List SortItem → List SortItem)
  (maxImageDimension2D : UInt32)

/-- `none` is an abort or a fatal error. -/
def RendererCall.run (r : Renderer) : RendererCall → Option Renderer
  | createMesh desc => (rendererCreateMesh r desc).map Prod.snd
  | createTexture desc => (rendererCreateTexture maxImageDimension2D r desc).map Prod.snd
  | createMaterial desc => (rendererCreateMaterial r desc).map Prod.snd
  | destroyMesh mesh framesUntilFree => some (rendererDestroyMesh r mesh framesUntilFree)
  | destroyTexture texture framesUntilFree => some (rendererDestroyTexture r texture framesUntilFree)
  | destroyMaterial material framesUntilFree =>
    some (rendererDestroyMaterial r material framesUntilFree)
  | beginFrame fbWidth fbHeight minimized =>
    (rendererBeginFrame r fbWidth fbHeight minimized).map Prod.snd
  | submit items count => some (rendererSubmit r items count).2
  | endFrame => rendererEndFrame qsort r
  | endFrameCapture => (rendererEndFrameCapture qsort r).map Prod.snd

end

def SceneSlots.fresh : SceneSlots := ⟨.fresh 256, .fresh 256, .fresh 512⟩

section

variable {t : RenderHandleTable} {r s : Renderer} {d : SceneSlots} {frames : Nat}

theorem SlotsInv.fresh {n : Nat} {blank whole : Nat → Prop} (h : ∀ i < n, blank i) :
    SlotsInv (.fresh n) n blank whole where
  capacity := rfl
  blank i hi _ := h i hi
  whole i _ halive := by cases halive
  due i due hretiring := by cases hretiring

variable {qsort : (SortItem → SortItem → Int) → List SortItem → List SortItem}
  {maxImageDimension2D : UInt32}

theorem RendererInv.call (h : RendererInv r d frames) (hsort : Comparator.Sorts qsort)
    (hframes : frames + 2 ^ 32 < 2 ^ 64) (call : RendererCall) :
    Outcome True (fun s => ∃ e, RendererInv s e (frames + 1))
      (call.run qsort maxImageDimension2D r) := by
  have hsame : ∀ {s : Renderer}, (∃ e, RendererInv s e frames) → ∃ e, RendererInv s e (frames + 1) :=
    fun ⟨e, hs⟩ => ⟨e, hs.mono (Nat.le_succ _)⟩
  have hnext : frames + 1 < 2 ^ 64 := by omega
  cases call with
  | createMesh desc => exact (h.createMesh desc).map fun _ hs => hsame hs
  | createTexture desc => exact (h.createTexture maxImageDimension2D desc).map fun _ hs => hsame hs
  | createMaterial desc => exact (h.createMaterial desc).map fun _ hs => hsame hs
  | destroyMesh mesh delay => exact .returned (hsame (h.destroyMesh delay mesh hframes))
  | destroyTexture texture delay => exact .returned (hsame (h.destroyTexture delay texture hframes))
  | destroyMaterial material delay =>
    exact .returned (hsame (h.destroyMaterial delay material hframes))
  | beginFrame fbWidth fbHeight minimized =>
    exact (h.beginFrame fbWidth fbHeight minimized).map fun _ hs => hsame ⟨_, hs⟩
  | submit items count => exact .returned (hsame ⟨_, h.submit items count⟩)
  | endFrame => exact h.endFrame hsort hnext
  | endFrameCapture => exact (h.endFrameCapture hsort hnext).map fun _ hs => hs

end

section

end

end ChoonzMoba
