import ChoonzMoba.Render.RendererCollect

namespace ChoonzMoba

open Renderer Vk Ledger

section

variable {r t : Renderer} {d : SceneSlots} {frames img : Nat} {vk : Vk} {buffer : Dedicated}
  {x : VkObject}

theorem ScImage.mem_owned (image : ScImage) (hne : x.2 ≠ 0)
    (hx : x = (.imageView, image.view) ∨ x = (.imageView, image.depthView) ∨
      x = (.image, image.depth.object) ∨ x = (.memory, image.depth.memory) ∨
      x = (.semaphore, image.renderFinished)) : x ∈ image.owned := by
  simp only [ScImage.owned, Dedicated.owned, Multiset.mem_add, mem_ownedBy_iff]
  rcases hx with rfl | rfl | rfl | rfl | rfl <;> tauto

theorem ImagesFrom.mem_held {fences : VkHandle → Prop} {images : Nat → ScImage} {count : Nat}
    (h : ImagesFrom fences images count) (hx : x ∈ (images img).owned) : x ∈ imagesHeld images := by
  refine mem_heldBy.mpr ⟨img, ?_, hx⟩
  by_contra hge
  rw [h.blank img (Nat.le_trans h.count_le (Nat.le_of_not_lt hge))] at hx
  exact Multiset.notMem_zero _ hx

theorem RendererInv.frame_lt (h : RendererInv r d frames) : r.frame < framesInFlight := by
  rw [h.frame]
  exact Nat.mod_lt _ (by decide)

theorem RendererInv.frame_fence (h : RendererInv r d frames) :
    frameFences r.slots (r.slots r.frame).inFlight :=
  ⟨h.fenced _ h.frame_lt, _, h.frame_lt, rfl⟩

theorem Renderer.mem_slot (hframe : r.frame < framesInFlight) (hne : x.2 ≠ 0)
    (hx : (x = (.buffer, (r.slots r.frame).ubo.object) ∨ x = (.memory, (r.slots r.frame).ubo.memory)) ∨
      (x = (.buffer, (r.slots r.frame).instanceBuf.object) ∨
        x = (.memory, (r.slots r.frame).instanceBuf.memory)) ∨
      (x = (.buffer, (r.slots r.frame).debugVertexBuf.object) ∨
        x = (.memory, (r.slots r.frame).debugVertexBuf.memory)) ∨
      x = (.semaphore, (r.slots r.frame).imageAvailable)) :
    x ∈ r.fixedHeld := by
  refine Multiset.mem_add.mpr (Or.inl (mem_heldBy.mpr ⟨r.frame, hframe, ?_⟩))
  simp only [Dedicated.owned, Multiset.mem_add, mem_ownedBy_iff]
  rcases hx with (rfl | rfl) | (rfl | rfl) | (rfl | rfl) | rfl <;> grind

theorem Renderer.mem_pool (hne : x.2 ≠ 0) (hx : x = (.commandPool, r.cmdPool) ∨
    x = (.descriptorPool, r.descPool) ∨ x = (.sampler, r.sampler)) : x ∈ r.fixedHeld := by
  simp only [Renderer.fixedHeld, Multiset.mem_add, mem_ownedBy_iff]
  rcases hx with rfl | rfl | rfl <;> grind

theorem TargetsInv.mem_frameReach (h : TargetsInv r) (hframe : r.frame < framesInFlight)
    (hx : x ∈ frameReach r img) : x ∈ r.targetsHeld + r.fixedHeld := by
  obtain ⟨hmem, hne⟩ := List.mem_filter.mp hx
  replace hne : x.2 ≠ 0 := bne_iff_ne.mp hne
  have hpipeline : ∀ i < pipelineCount, x = (.pipeline, r.pipelines i) → x ∈ r.targetsHeld := by
    rintro i hi rfl
    exact Multiset.mem_add.mpr (Or.inr (Multiset.mem_add.mpr (Or.inr
      (mem_heldBy.mpr ⟨i, hi, mem_ownedBy hne⟩))))
  simp only [List.mem_cons, List.not_mem_nil, or_false] at hmem
  rw [Multiset.mem_add]
  rcases hmem with h' | h' | h' | h' | h' | h' | h' | h' | hmem
  iterate 5
    · refine Or.inl (Multiset.mem_add.mpr (Or.inl (h.images.mem_held
        ((r.images img).mem_owned hne ?_))))
      grind
  · exact Or.inl (hpipeline 0 (by decide) h')
  · exact Or.inl (hpipeline 1 (by decide) h')
  · exact Or.inl (hpipeline 2 (by decide) h')
  · rcases hmem with h' | h' | h' | h' | h' | h' | h' | hmem
    iterate 7
      · exact Or.inr (Renderer.mem_slot hframe hne (by grind))
    · exact Or.inr (Renderer.mem_pool hne hmem)

def BufferWhole (buffer : Dedicated) : Prop :=
  buffer = .null ∨ buffer.object ≠ 0 ∧ buffer.memory ≠ 0

theorem BufferWhole.mem_owned (h : BufferWhole buffer)
    (hx : x ∈ if buffer.object = 0 then [] else buffer.reach .buffer) :
    x ∈ buffer.owned .buffer := by
  rcases h with rfl | hwhole
  · cases hx
  · rw [if_neg hwhole.1] at hx
    exact Dedicated.mem_reach hwhole hx

theorem MeshResource.Whole.mem_owned {mesh : MeshResource} (h : mesh.Whole)
    (hx : x = (.buffer, mesh.vertex.object) ∨ x = (.memory, mesh.vertex.memory) ∨
      x = (.buffer, mesh.index.object) ∨ x = (.memory, mesh.index.memory)) : x ∈ mesh.owned := by
  obtain ⟨⟨_, _⟩, _, _⟩ := h
  simp only [MeshResource.owned, Dedicated.owned, Multiset.mem_add, mem_ownedBy_iff]
  rcases hx with rfl | rfl | rfl | rfl <;> grind

theorem TextureResource.Whole.mem_owned {texture : TextureResource} (h : texture.Whole)
    (hx : x = (.imageView, texture.view) ∨ x = (.image, texture.image.object) ∨
      x = (.memory, texture.image.memory)) : x ∈ texture.owned := by
  obtain ⟨⟨_, _⟩, _⟩ := h
  simp only [TextureResource.owned, Dedicated.owned, Multiset.mem_add, mem_ownedBy_iff]
  rcases hx with rfl | rfl | rfl <;> grind

theorem RendererInv.material_ready (h : RendererInv r d frames) {handle : Handle}
    (halive : HandleAlive d.materials handle) :
    handleIndex handle < 512 ∧ MaterialReady r d.textures (handleIndex handle) := by
  have hlt := (halive.known h.scene.materialTable).1
  rw [h.scene.materials.capacity] at hlt
  exact ⟨hlt, h.scene.materials.whole _ hlt halive.2.1⟩

theorem Drawable.frameWork_covered (h : Drawable r d frames)
    (hcontents : vk.contents = r.vk.contents) (img : Nat) (hbuffer : BufferWhole buffer) :
    WorkCovered r d (buffer.owned .buffer) (r.slots r.frame).inFlight
      (frameWork (r.withVk vk) img buffer) where
  reach x hx := by
    rcases List.mem_cons.mp hx with rfl | hx
    · exact Or.inr (Or.inr (Or.inr (Multiset.mem_add.mpr
        (Or.inr (Renderer.mem_fence h.inv.frame_fence)))))
    rcases List.mem_append.mp hx with hx | hx
    · obtain ⟨batch, hbatch, hx⟩ := List.mem_flatMap.mp hx
      obtain ⟨hmesh, hmaterial, htexture⟩ := h.ready batch hbatch
      obtain ⟨hmeshLt, hmeshWhole⟩ := h.inv.mesh_whole hmesh
      obtain ⟨htextureLt, htextureWhole⟩ := h.inv.texture_whole htexture
      have hcontent := (h.inv.material_ready hmaterial).2.contents htexture
      have hreach : batchReach (r.withVk vk) batch = batchReach r batch := by
        rw [batchReach, batchReach]
        dsimp only [withVk]
        rw [hcontents]
      rw [hreach, batchReach, hcontent] at hx
      simp only [List.mem_cons, List.not_mem_nil, or_false] at hx
      rcases hx with hx | hx | hx | hx | hx
      iterate 4
        · exact Or.inr (Or.inl ⟨_, hmeshLt, Or.inl hmesh.2.1, hmeshWhole.mem_owned (by grind)⟩)
      · exact Or.inr (Or.inr (Or.inl ⟨_, htextureLt, Or.inl htexture.2.1,
          htextureWhole.mem_owned hx⟩))
    · rcases List.mem_append.mp hx with hx | hx
      · exact Or.inr (Or.inr (Or.inr (h.inv.targets.mem_frameReach h.inv.frame_lt hx)))
      · exact Or.inl ⟨hbuffer.mem_owned hx, rfl⟩
  sets set hset := by
    obtain ⟨batch, hbatch, rfl⟩ := List.mem_map.mp hset
    have hmaterial := (h.ready batch hbatch).materialAlive
    exact ⟨_, (h.inv.material_ready hmaterial).1, Or.inl hmaterial.2.1, rfl⟩

structure Readback (r : Renderer) (d : SceneSlots) (frames : Nat) (buffer : Dedicated)
    (fence : VkHandle) : Prop where
  scene : SceneInv r d
  targets : TargetsInv r
  accounts : r.vk.Accounts (buffer.owned .buffer + r.held)
  running : ∀ work ∈ r.vk.running, WorkRecent r.slots r.frameCount.toNat work ∧
    WorkCovered r d (buffer.owned .buffer) fence work
  prompt : r.vk.Prompt (frameFences r.slots)
  frame : r.frame = r.frameCount.toNat % framesInFlight
  frames : r.frameCount.toNat ≤ frames
  fenced : r.Fenced

theorem WorkRecent.next {slots : Nat → FrameSlot} {work : Work} {frameCount : Nat}
    (h : WorkRecent slots frameCount work)
    (hne : work.fence ≠ (slots (frameCount % framesInFlight)).inFlight) :
    WorkRecent slots (frameCount + 1) work := by
  obtain ⟨hfence, hlt, hrecent⟩ := h
  refine ⟨hfence, Nat.lt_succ_of_lt hlt, Nat.lt_of_le_of_ne hrecent ?_⟩
  rintro rfl
  rw [Nat.add_mod_right] at hne
  exact hne hfence

theorem Drawable.readback (h : Drawable r d frames)
    (hidle : r.vk.inFlight (r.slots r.frame).inFlight = false) {work : Work}
    (hfence : work.fence = (r.slots r.frame).inFlight) (hframe : work.frame = r.frameCount.toNat)
    (hcovered : WorkCovered r d (buffer.owned .buffer) (r.slots r.frame).inFlight work)
    (hprompt : vk.Prompt (frameFences r.slots)) (hcontents : vk.contents = r.vk.contents)
    (hsets : vk.sets = r.vk.sets) (haccounts : vk.Accounts (buffer.owned .buffer + r.held))
    (hgiven : ∀ other ∈ vk.running, other ∈ r.vk.running ∨ other = work)
    (hframes : frames + 1 < 2 ^ 64) (needRecreate : Bool) :
    Readback { r with
      vk := vk
      needRecreate := needRecreate
      frame := (r.frame + 1) % framesInFlight
      frameCount := r.frameCount + 1 } d (frames + 1) buffer (r.slots r.frame).inFlight := by
  obtain ⟨⟨hscene, htargets, -, hrunning, -, hslot, hle⟩, hfenced⟩ := h.inv
  have hcount : (r.frameCount + 1).toNat = r.frameCount.toNat + 1 := by
    have hone : (1 : UInt64).toNat = 1 := rfl
    rw [UInt64.toNat_add, hone, Nat.mod_eq_of_lt (by omega)]
  refine ⟨⟨hscene.1, hscene.2, hscene.3, hscene.4, hscene.5,
    hscene.materials.imp (fun _ _ => id) fun j _ hready => ?_, fun j hj => ?_, hscene.distinct⟩,
    ⟨htargets.1, htargets.2⟩, haccounts, fun other hother => ?_, hprompt, ?_, ?_, hfenced⟩
  · exact hready.keep rfl (congrFun hcontents _) hready.known fun halive => ⟨halive, rfl⟩
  · exact Nat.le_trans (hscene.sets j hj) (Nat.le_of_eq hsets.symm)
  · show WorkRecent r.slots (r.frameCount + 1).toNat other ∧ _
    rw [hcount]
    rcases hgiven other hother with hold | rfl
    · obtain ⟨hrecent, hreach, hsets⟩ := hrunning other hold
      refine ⟨hrecent.next fun heq => ?_, fun x hx => (hreach x hx).imp_left fun hextra =>
        absurd hextra.1 (Multiset.notMem_zero _), hsets⟩
      rw [← hslot] at heq
      exact Bool.false_ne_true (hidle.symm.trans (inFlight_iff.mpr ⟨other, hold, heq⟩))
    · refine ⟨⟨?_, hframe.trans_lt (Nat.lt_succ_self _), ?_⟩, hcovered.reach, hcovered.sets⟩
      · rw [hfence, hframe, hslot]
      · rw [hframe]
        exact Nat.le_succ _
  · show (r.frame + 1) % framesInFlight = (r.frameCount + 1).toNat % framesInFlight
    rw [hcount, hslot, Nat.mod_add_mod]
  · show (r.frameCount + 1).toNat ≤ frames + 1
    rw [hcount]
    exact Nat.succ_le_succ hle

theorem Drawable.submitted (h : Drawable r d frames)
    (hidle : r.vk.inFlight (r.slots r.frame).inFlight = false)
    (hquiet : Quiet (r.vk.resetFence (r.slots r.frame).inFlight) vk)
    (haccounts : vk.Accounts (buffer.owned .buffer + r.held)) (img : Nat)
    (hbuffer : BufferWhole buffer) (hframes : frames + 1 < 2 ^ 64) (needRecreate : Bool) :
    Readback { r with
      vk := (vk.submitFrame (frameWork (r.withVk vk) img buffer)).ask.2
      needRecreate := needRecreate
      frame := (r.frame + 1) % framesInFlight
      frameCount := r.frameCount + 1 } d (frames + 1) buffer (r.slots r.frame).inFlight := by
  have hlive := h.inv.fence_live h.inv.frame_fence
  have hle := h.inv.prompt.issued _ h.inv.frame_fence
  have hprompt := hquiet.prompt (resetFence_prompt h.inv.prompt hlive hidle)
  rw [resetFence_eq h.inv.prompt.reliable hlive hidle] at hquiet
  have hcontents : vk.contents = r.vk.contents := hquiet.contents
  have hcovered := h.frameWork_covered hcontents img hbuffer
  obtain ⟨hsignaled, hflight⟩ := hquiet.fences _ hle
  replace hflight : vk.inFlight (r.slots r.frame).inFlight = false := hflight.trans hidle
  replace hsignaled := hsignaled.trans (Function.update_self _ _ _)
  have hreach : ∀ x ∈ (frameWork (r.withVk vk) img buffer).reach, x ∈ vk.ledger.live := by
    intro x hx
    rw [haccounts.ledger.live]
    exact Multiset.mem_add.mpr ((hcovered.held hx).imp_left And.left)
  obtain ⟨hrefused, hgiven⟩ := submitFrame_prompt (frameWork (r.withVk vk) img buffer)
    (Nat.le_trans hle hquiet.issued) hprompt
  have hfence : (frameWork (r.withVk vk) img buffer).fence = (r.slots r.frame).inFlight := rfl
  have hframe : (frameWork (r.withVk vk) img buffer).frame = r.frameCount.toNat := rfl
  rcases submitFrame_cases hflight hsignaled hreach with heq | heq
  · rw [heq]
    exact h.readback hidle hfence hframe hcovered hrefused.ask hcontents hquiet.sets
      (haccounts.quiet rfl rfl) (fun work hwork => Or.inl (hquiet.running work hwork)) hframes _
  · rw [heq]
    refine h.readback hidle hfence hframe hcovered hgiven.ask hcontents hquiet.sets
      (haccounts.quiet rfl rfl) (fun work hwork => ?_) hframes _
    rcases List.mem_cons.mp hwork with rfl | hwork
    · exact Or.inr rfl
    · exact Or.inl (hquiet.running work hwork)

end

end ChoonzMoba
