import ChoonzMoba.Render.RendererPrepare

namespace ChoonzMoba

open Renderer Vk

def Renderer.untargeted (r : Renderer) : Multiset VkObject :=
  meshArray.held 256 r + (textureArray.held 256 r + r.fixedHeld)

theorem Renderer.held_targets (r : Renderer) : r.held = r.targetsHeld + r.untargeted := by
  rw [Renderer.held, Renderer.untargeted]
  abel

section

variable {r t : Renderer} {d : SceneSlots} {frames : Nat} {vk : Vk} {released : List Nat}
  {table : RenderHandleTable}

theorem Renderer.mem_fence {fence : VkHandle} (hfence : frameFences r.slots fence) :
    (VkKind.fence, fence) ∈ r.fixedHeld := by
  obtain ⟨hne, i, hi, rfl⟩ := hfence
  refine Multiset.mem_add.mpr (Or.inl (mem_heldBy.mpr ⟨i, hi, ?_⟩))
  simp only [Multiset.mem_add]
  exact Or.inr (Or.inr (Or.inr (Or.inr (Ledger.mem_ownedBy hne))))

theorem Renderer.held_fence {fence : VkHandle} (hfence : frameFences r.slots fence) :
    (VkKind.fence, fence) ∈ r.held := by
  simp only [Renderer.held, Multiset.mem_add]
  exact Or.inr (Or.inr (Or.inr (Renderer.mem_fence hfence)))

theorem RendererBase.fence_live (h : RendererBase r d frames) {fence : VkHandle}
    (hfence : frameFences r.slots fence) : (VkKind.fence, fence) ∈ r.vk.ledger.live := by
  rw [h.accounts.ledger.live]
  exact Renderer.held_fence hfence

theorem RendererBase.uses (h : RendererBase r d frames) : r.vk.Uses r.held := by
  intro work hwork x hx
  exact ((h.running work hwork).2.held hx).resolve_left fun hextra =>
    absurd hextra.1 (Multiset.notMem_zero _)

structure Redrawn (r t : Renderer) : Prop where
  only : ∃ vk swapchain scFormat scExtent scCount images depthFormat needRecreate scCanTransferSrc
      pipelines pipelinesFormat, t =
    { r with
      vk := vk
      swapchain := swapchain
      scFormat := scFormat
      scExtent := scExtent
      scCount := scCount
      images := images
      depthFormat := depthFormat
      needRecreate := needRecreate
      scCanTransferSrc := scCanTransferSrc
      pipelines := pipelines
      pipelinesFormat := pipelinesFormat }
  sets : t.vk.sets = r.vk.sets
  contents : t.vk.contents = r.vk.contents
  running : ∀ work ∈ t.vk.running, work ∈ r.vk.running
  targets : ∀ work ∈ t.vk.running, ∀ x ∈ r.targetsHeld + r.fixedHeld,
    x ∈ t.targetsHeld + t.fixedHeld
  prompt : t.vk.Prompt (frameFences r.slots)
  inv : TargetsInv t
  accounts : t.vk.Accounts (t.targetsHeld + r.untargeted)

theorem RendererBase.redrawn (h : RendererBase r d frames) (ht : Redrawn r t) :
    RendererBase t d frames := by
  obtain ⟨hscene, htargets, haccounts, hrunning, hprompt, hframe, hframes⟩ := h
  obtain ⟨⟨vk, swapchain, scFormat, scExtent, scCount, images, depthFormat, needRecreate,
    scCanTransferSrc, pipelines, pipelinesFormat, rfl⟩, hsets, hcontents, hrunning', htargets',
    hprompt', hinv, haccounts'⟩ := ht
  refine ⟨⟨hscene.1, hscene.2, hscene.3, hscene.4, hscene.5,
    hscene.materials.imp (fun _ _ => id) fun j _ hready => ?_, fun j hj => ?_, hscene.distinct⟩, hinv,
    ?_, fun work hwork => ?_, hprompt', hframe, hframes⟩
  · exact hready.keep rfl (congrFun hcontents _) hready.known fun halive => ⟨halive, rfl⟩
  · exact Nat.le_trans (hscene.sets j hj) (Nat.le_of_eq hsets.symm)
  · rw [Renderer.held_targets]
    exact haccounts'
  · obtain ⟨hrecent, hcovered⟩ := hrunning work (hrunning' work hwork)
    exact ⟨hrecent, hcovered.keep (fun j _ hprotected => ⟨hprotected, rfl⟩)
      (fun j _ hprotected => ⟨hprotected, rfl⟩) (fun j _ hprotected => ⟨hprotected, rfl⟩)
      (htargets' work hwork)⟩

theorem RendererInv.redrawn (h : RendererInv r d frames) (ht : Redrawn r t) :
    RendererInv t d frames := by
  refine ⟨h.toRendererBase.redrawn ht, ?_⟩
  obtain ⟨⟨_, _, _, _, _, _, _, _, _, _, _, rfl⟩, -⟩ := ht
  exact h.fenced

theorem Drawable.redrawn (h : Drawable r d frames) (ht : Redrawn r t) : Drawable t d frames := by
  refine ⟨h.inv.redrawn ht, ?_⟩
  obtain ⟨⟨_, _, _, _, _, _, _, _, _, _, _, rfl⟩, -⟩ := ht
  exact fun batch hbatch =>
    ⟨(h.ready batch hbatch).1, (h.ready batch hbatch).2, (h.ready batch hbatch).3⟩

theorem Drawable.recreateSwapchain (h : Drawable r d frames) (width height : UInt32) :
    Outcome True (Drawable · d frames) (recreateSwapchain width height r) := by
  have haccounts := h.inv.accounts
  rw [Renderer.held_targets] at haccounts
  have hreliable := h.inv.prompt.reliable
  refine (recreateSwapchain_spec h.inv.targets hreliable haccounts).imp id fun t ht => ?_
  have hprompt := ht.quiet.prompt (deviceWaitIdle_prompt h.inv.prompt)
  rw [deviceWaitIdle_eq hreliable] at ht
  have hidle : t.vk.running = [] := ht.quiet.idle rfl
  refine h.redrawn ⟨ht.only, ht.quiet.sets, ht.quiet.contents, fun work hwork => ?_,
    fun work hwork => ?_, hprompt, ht.inv, ht.held⟩
  · rw [hidle] at hwork
    cases hwork
  · rw [hidle] at hwork
    cases hwork

theorem RendererBase.buildPipelines (h : RendererBase r d frames) (hnone : NoPipelines r.pipelines) :
    ∃ ok t, buildPipelines r = some (ok, t) ∧ Redrawn r t := by
  have hrest : r.held = pipelinesHeld r.pipelines +
      (imagesHeld r.images + (ownedBy .swapchain r.swapchain + r.untargeted)) := by
    rw [Renderer.held_targets, Renderer.targetsHeld]
    abel
  have haccounts := h.accounts
  have huses := h.uses
  rw [hrest] at haccounts huses
  have hblank := pipelinesHeld_none hnone
  rw [hblank, zero_add] at huses
  obtain ⟨ok, t, heq, ht, -, hzero⟩ :=
    buildPipelines_spec ⟨⟨_, _, rfl⟩, .refl _, haccounts⟩ huses hnone
  refine ⟨_, _, heq, ?_⟩
  obtain ⟨⟨vk, pipelines, rfl⟩, hquiet, haccounts'⟩ := ht
  refine ⟨⟨_, _, _, _, _, _, _, _, _, _, _, rfl⟩, hquiet.sets, hquiet.contents,
    hquiet.running, fun work hwork x hx => ?_, hquiet.prompt h.prompt, ⟨h.targets.images, hzero⟩, ?_⟩
  · rw [Renderer.targetsHeld, hblank, add_zero] at hx
    show x ∈ (imagesHeld r.images + (ownedBy .swapchain r.swapchain + pipelinesHeld pipelines)) +
      r.fixedHeld
    simp only [Multiset.mem_add] at hx ⊢
    tauto
  · refine (congrArg (Vk.Accounts _) ?_).mp haccounts'
    show _ = (imagesHeld r.images + (ownedBy .swapchain r.swapchain + pipelinesHeld pipelines)) + _
    abel

theorem Drawable.buildPipelines (h : Drawable r d frames) (hzero : r.pipelines 0 = 0) :
    Outcome True (fun out => Drawable out.2 d frames) (buildPipelines r) := by
  obtain ⟨ok, t, heq, ht⟩ := h.inv.buildPipelines (h.inv.targets.pipelines hzero)
  rw [heq]
  exact .returned (h.redrawn ht)

theorem Drawable.waitForFence (h : Drawable r d frames) {fence : VkHandle}
    (hfence : frameFences r.slots fence) :
    Drawable (r.withVk (r.vk.waitForFence fence).2) d frames := by
  have hlive := h.inv.fence_live hfence
  have hwaited := waitForFence_waited h.inv.prompt.reliable hlive
  have haccounts := h.inv.accounts
  rw [Renderer.held_targets] at haccounts
  refine h.redrawn ⟨⟨_, _, _, _, _, _, _, _, _, _, _, rfl⟩, hwaited.sets, hwaited.contents,
    fun work hwork => ?_, fun _ _ _ hx => hx, waitForFence_prompt h.inv.prompt hlive hfence,
    ⟨h.inv.targets.1, h.inv.targets.2⟩, haccounts.quiet hwaited.ledger hwaited.allocCount⟩
  exact (List.mem_filter.mp (hwaited.running ▸ hwork)).1

structure Collected (r t : Renderer) (e : SceneSlots) (frames : Nat) : Prop where
  drawable : Drawable t e frames
  quiet : Quiet r.vk t.vk
  frame : t.frame = r.frame
  slots : t.slots = r.slots

theorem Collected.trans {s : Renderer} {e : SceneSlots} (h : Collected r s d frames)
    (h' : Collected s t e frames) : Collected r t e frames :=
  ⟨h'.drawable, h.quiet.trans h'.quiet, h'.frame.trans h.frame, h'.slots.trans h.slots⟩

theorem RenderHandleTable.Shows.due_lt {slots : DeferredSlots Nat} (ht : table.Shows slots)
    {now : Nat} : ∀ i ∈ slots.due now, i < slots.capacity := by
  intro i hi
  obtain ⟨due, hretiring, -⟩ := (DeferredSlots.mem_due ht.inv).mp hi
  refine ht.inside ?_
  rw [hretiring]
  exact fun h => (by cases h)

theorem SlotProtected.spared {slots : DeferredSlots Nat} {frame i now : Nat}
    (hprotected : SlotProtected slots frame i) (ht : table.Shows slots)
    (hrecent : now ≤ frame + framesInFlight) : i ∉ slots.due now := by
  rw [framesInFlight] at hrecent
  exact hprotected.not_due ht (by omega)

theorem HandleAlive.not_due {slots : DeferredSlots Nat} {h : Handle} (halive : HandleAlive slots h)
    (ht : table.Shows slots) (now : Nat) :
    handleIndex h ∉ slots.due now ∧ HandleAlive (slots.release (slots.due now)) h :=
  have hnot := not_mem_due_of_alive ht halive.2.1 now
  ⟨hnot, halive.release hnot⟩

theorem Drawable.collectMaterials (h : Drawable r d frames) :
    Outcome True (fun t => ∃ e, Collected r t e frames) (collectMaterials r) := by
  obtain ⟨hinv, hready⟩ := h
  have htable := hinv.scene.materialTable
  refine Outcome.map (htable.collect (some releaseMaterialSlot) r.frameCount r) ?_
  rintro ⟨table, user⟩ ⟨hshows, huser⟩
  replace huser : user = (d.materials.due r.frameCount.toNat).foldl releaseMaterialSlot r := huser
  have hnone : materialArray.held 512 r = 0 := heldBy_zero fun _ _ => rfl
  have haccounts : r.vk.Accounts (materialArray.held 512 r + r.held) := by
    rw [hnone, zero_add]
    exact hinv.accounts
  obtain ⟨vk, materials, heq, hquiet, haccounts, hsame, hleft⟩ :=
    releaseMaterialSlot_releases.foldl _
      (fun i hi => hinv.scene.materials.capacity ▸ htable.due_lt i hi)
      (DeferredSlots.due_nodup d.materials r.frameCount.toNat) haccounts fun work hwork x hx =>
        Or.inl (hinv.uses work hwork x hx)
  rw [heq] at huser
  subst huser
  replace haccounts : vk.Accounts (heldBy 512 (fun _ => 0) + r.held) := haccounts
  rw [heldBy_zero fun _ _ => rfl, zero_add] at haccounts
  have hsets : ∀ i, (materials i).descriptorSet = (r.materials i).descriptorSet := by
    intro i
    by_cases hi : i ∈ d.materials.due r.frameCount.toNat
    · exact (hleft i hi).1
    · rw [hsame i hi]
      rfl
  obtain ⟨⟨hscene, htargets, -, hrunning, hprompt, hframe, hframes⟩, hfenced⟩ := hinv
  refine ⟨{ d with materials := d.materials.release (d.materials.due r.frameCount.toNat) },
    ⟨⟨⟨⟨hscene.1, hscene.2, hshows, hscene.4, hscene.5, ?_, fun i hi => ?_, fun i hi j hj => ?_⟩,
      ⟨htargets.1, htargets.2⟩, haccounts, fun work hwork => ?_, hquiet.prompt hprompt, hframe,
      hframes⟩, hfenced⟩, fun batch hbatch => ?_⟩, hquiet, rfl, rfl⟩
  · refine hscene.materials.release (fun _ _ => trivial) (fun _ _ _ => id) fun j _ hj hready => ?_
    exact hready.keep (hsame j hj) (congrFun hquiet.contents _) hready.known
      fun halive => ⟨halive, rfl⟩
  · show (materials i).descriptorSet ≤ vk.sets
    rw [hsets, hquiet.sets]
    exact hscene.sets i hi
  · show (materials i).descriptorSet ≠ 0 →
      (materials i).descriptorSet = (materials j).descriptorSet → i = j
    rw [hsets, hsets]
    exact hscene.distinct i hi j hj
  · obtain ⟨hrecent, hcovered⟩ := hrunning work (hquiet.running work hwork)
    exact ⟨hrecent, hcovered.keep (fun _ _ hp => ⟨hp, rfl⟩) (fun _ _ hp => ⟨hp, rfl⟩)
      (fun i _ hp => ⟨hp.release (hp.spared htable hrecent.recent), hsets i⟩) fun _ hx => hx⟩
  · obtain ⟨hmesh, hmaterial, htexture⟩ := hready batch hbatch
    obtain ⟨hnot, halive⟩ := hmaterial.not_due htable r.frameCount.toNat
    refine ⟨hmesh, halive, ?_⟩
    show HandleAlive d.textures (materials (handleIndex batch.material.h)).texture.h
    rw [hsame _ hnot]
    exact htexture

theorem Drawable.collectTextures (h : Drawable r d frames) :
    Outcome True (fun t => ∃ e, Collected r t e frames) (collectTextures r) := by
  obtain ⟨hinv, hready⟩ := h
  have htable := hinv.scene.textureTable
  refine Outcome.map (htable.collect (some releaseTextureSlot) r.frameCount r) ?_
  rintro ⟨table, user⟩ ⟨hshows, huser⟩
  replace huser : user = (d.textures.due r.frameCount.toNat).foldl releaseTextureSlot r := huser
  have haccounts := hinv.accounts
  rw [Renderer.held_textures] at haccounts
  obtain ⟨vk, textures, heq, hquiet, haccounts', hsame, hleft⟩ :=
    releaseTextureSlot_releases.foldl _
      (fun i hi => hinv.scene.textures.capacity ▸ htable.due_lt i hi)
      (DeferredSlots.due_nodup d.textures r.frameCount.toNat) haccounts
      (hinv.busy_textures _ fun _ _ hrecent hp => hp.spared htable hrecent)
  rw [heq] at huser
  subst huser
  obtain ⟨⟨hscene, htargets, -, hrunning, hprompt, hframe, hframes⟩, hfenced⟩ := hinv
  have hkeep : ∀ h, HandleAlive (d.textures.release (d.textures.due r.frameCount.toNat)) h →
      HandleKnown d.textures h → HandleAlive d.textures h ∧
        textures (handleIndex h) = r.textures (handleIndex h) := by
    intro h halive hknown
    obtain ⟨halive', hnot⟩ := (hknown.release _).2 halive
    exact ⟨halive', hsame _ hnot⟩
  refine ⟨{ d with textures := d.textures.release (d.textures.due r.frameCount.toNat) },
    ⟨⟨⟨⟨hscene.1, hshows, hscene.3, hscene.4, ?_, ?_, fun i hi => ?_, hscene.distinct⟩,
      ⟨htargets.1, htargets.2⟩, ?_, fun work hwork => ?_, hquiet.prompt hprompt, hframe,
      hframes⟩, hfenced⟩, fun batch hbatch => ?_⟩, hquiet, rfl, rfl⟩
  · refine hscene.textures.release (fun j hj => (hleft j hj).1) (fun j _ hj hblank => ?_)
      fun j _ hj hwhole => ?_
    · exact (hsame j hj).trans hblank
    · show (textures j).Whole
      rw [hsame j hj]
      exact hwhole
  · refine hscene.materials.imp (fun _ _ => id) fun j _ hready => ?_
    exact hready.keep rfl (congrFun hquiet.contents _) (hready.known.release _).1
      fun halive => hkeep _ halive hready.known
  · exact Nat.le_trans (hscene.sets i hi) (Nat.le_of_eq hquiet.sets.symm)
  · rw [Renderer.held_textures]
    exact haccounts'
  · obtain ⟨hrecent, hcovered⟩ := hrunning work (hquiet.running work hwork)
    have hnot : ∀ i, SlotProtected d.textures work.frame i → i ∉ d.textures.due r.frameCount.toNat :=
      fun i hp => hp.spared htable hrecent.recent
    exact ⟨hrecent, hcovered.keep (fun _ _ hp => ⟨hp, rfl⟩)
      (fun i _ hp => ⟨hp.release (hnot i hp), hsame i (hnot i hp)⟩) (fun _ _ hp => ⟨hp, rfl⟩)
      fun _ hx => hx⟩
  · obtain ⟨hmesh, hmaterial, htexture⟩ := hready batch hbatch
    exact ⟨hmesh, hmaterial, (htexture.not_due htable _).2⟩

theorem Drawable.collectMeshes (h : Drawable r d frames) :
    Outcome True (fun t => ∃ e, Collected r t e frames) (collectMeshes r) := by
  obtain ⟨hinv, hready⟩ := h
  have htable := hinv.scene.meshTable
  refine Outcome.map (htable.collect (some releaseMeshSlot) r.frameCount r) ?_
  rintro ⟨table, user⟩ ⟨hshows, huser⟩
  replace huser : user = (d.meshes.due r.frameCount.toNat).foldl releaseMeshSlot r := huser
  have haccounts := hinv.accounts
  rw [Renderer.held_meshes] at haccounts
  obtain ⟨vk, meshes, heq, hquiet, haccounts', hsame, hleft⟩ :=
    releaseMeshSlot_releases.foldl _
      (fun i hi => hinv.scene.meshes.capacity ▸ htable.due_lt i hi)
      (DeferredSlots.due_nodup d.meshes r.frameCount.toNat) haccounts
      (hinv.busy_meshes _ fun _ _ hrecent hp => hp.spared htable hrecent)
  rw [heq] at huser
  subst huser
  obtain ⟨⟨hscene, htargets, -, hrunning, hprompt, hframe, hframes⟩, hfenced⟩ := hinv
  refine ⟨{ d with meshes := d.meshes.release (d.meshes.due r.frameCount.toNat) },
    ⟨⟨⟨⟨hshows, hscene.2, hscene.3, ?_, hscene.5, ?_, fun i hi => ?_, hscene.distinct⟩,
      ⟨htargets.1, htargets.2⟩, haccounts', fun work hwork => ?_, hquiet.prompt hprompt, hframe,
      hframes⟩, hfenced⟩, fun batch hbatch => ?_⟩, hquiet, rfl, rfl⟩
  · refine hscene.meshes.release (fun j hj => (hleft j hj).1) (fun j _ hj hblank => ?_)
      fun j _ hj hwhole => ?_
    · show (meshes j).Blank
      rw [hsame j hj]
      exact hblank
    · show (meshes j).Whole
      rw [hsame j hj]
      exact hwhole
  · refine hscene.materials.imp (fun _ _ => id) fun j _ hready => ?_
    exact hready.keep rfl (congrFun hquiet.contents _) hready.known fun halive => ⟨halive, rfl⟩
  · exact Nat.le_trans (hscene.sets i hi) (Nat.le_of_eq hquiet.sets.symm)
  · obtain ⟨hrecent, hcovered⟩ := hrunning work (hquiet.running work hwork)
    have hnot : ∀ i, SlotProtected d.meshes work.frame i → i ∉ d.meshes.due r.frameCount.toNat :=
      fun i hp => hp.spared htable hrecent.recent
    exact ⟨hrecent, hcovered.keep (fun i _ hp => ⟨hp.release (hnot i hp), hsame i (hnot i hp)⟩)
      (fun _ _ hp => ⟨hp, rfl⟩) (fun _ _ hp => ⟨hp, rfl⟩) fun _ hx => hx⟩
  · obtain ⟨hmesh, hmaterial, htexture⟩ := hready batch hbatch
    exact ⟨(hmesh.not_due htable _).2, hmaterial, htexture⟩

end

end ChoonzMoba
