import ChoonzMoba.Render.RendererCalls

namespace ChoonzMoba

open Renderer Vk

structure SetsOnly (vk vk' : Vk) : Prop where
  answers : vk'.answers = vk.answers
  ledger : vk'.ledger = vk.ledger
  allocCount : vk'.allocCount = vk.allocCount
  running : vk'.running = vk.running
  signaled : vk'.signaled = vk.signaled
  refused : vk'.refused = vk.refused
  hung : vk'.hung = vk.hung
  sets : vk.sets ≤ vk'.sets

section

variable {r s : Renderer} {d : SceneSlots} {frames i set : Nat} {slots : DeferredSlots Nat}
  {vk vk' : Vk} {table : RenderHandleTable} {h : Handle} {x : VkObject}

theorem SetsOnly.prompt (h : SetsOnly vk vk') {fences : VkHandle → Prop}
    (hprompt : vk.Prompt fences) : vk'.Prompt fences := by
  refine ⟨h.answers ▸ hprompt.reliable, h.ledger ▸ hprompt.issued, fun hfine => ?_⟩
  obtain ⟨hhung, hready⟩ := hprompt.ready (h.refused ▸ hfine)
  refine ⟨h.hung.trans hhung, fun fence hfence => ?_⟩
  rw [h.signaled, Vk.inFlight, h.running]
  exact hready fence hfence

theorem RendererInv.live_iff (h : RendererInv r d frames) : x ∈ r.vk.ledger.live ↔ x ∈ r.held := by
  rw [h.accounts.ledger.live]

theorem RendererInv.texture_live (h : RendererInv r d frames) (hi : i < 256)
    (hx : x ∈ (r.textures i).owned) : x ∈ r.vk.ledger.live := by
  refine h.live_iff.mpr (Multiset.mem_add.mpr (Or.inr (Multiset.mem_add.mpr (Or.inl ?_))))
  exact mem_heldBy.mpr ⟨i, hi, hx⟩

theorem RendererInv.texture_whole (h : RendererInv r d frames) {handle : Handle}
    (halive : HandleAlive d.textures handle) :
    handleIndex handle < 256 ∧ (r.textures (handleIndex handle)).Whole := by
  have hlt := (halive.known h.scene.textureTable).1
  rw [h.scene.textures.capacity] at hlt
  exact ⟨hlt, h.scene.textures.whole _ hlt halive.2.1⟩

theorem RendererInv.mesh_whole (h : RendererInv r d frames) {handle : Handle}
    (halive : HandleAlive d.meshes handle) :
    handleIndex handle < 256 ∧ (r.meshes (handleIndex handle)).Whole := by
  have hlt := (halive.known h.scene.meshTable).1
  rw [h.scene.meshes.capacity] at hlt
  exact ⟨hlt, h.scene.meshes.whole _ hlt halive.2.1⟩

theorem chosenSet_spec (h : SceneInv r d) (hi : i < 512) : ∃ set vk,
    (if (r.materials i).descriptorSet = 0 then r.vk.allocateDescriptorSet
      else ((r.materials i).descriptorSet, r.vk)) = (set, vk) ∧
    SetsOnly r.vk vk ∧ vk.contents = r.vk.contents ∧ set ≤ vk.sets ∧
    (set ≠ 0 → ∀ j < 512, j ≠ i → (r.materials j).descriptorSet ≠ set) := by
  split
  · rw [allocateDescriptorSet]
    dsimp only
    split
    · refine ⟨_, _, rfl, ⟨rfl, rfl, rfl, rfl, rfl, rfl, rfl, Nat.le_succ _⟩, rfl, Nat.le_refl _,
        fun _ j hj _ heq => ?_⟩
      have hle := h.sets j hj
      rw [heq] at hle
      exact Nat.not_succ_le_self _ hle
    · exact ⟨_, _, rfl, ⟨rfl, rfl, rfl, rfl, rfl, rfl, rfl, Nat.le_refl _⟩, rfl, Nat.zero_le _,
        fun hne => absurd rfl hne⟩
  · next hne =>
    refine ⟨_, _, rfl, ⟨rfl, rfl, rfl, rfl, rfl, rfl, rfl, Nat.le_refl _⟩, rfl, h.sets i hi,
      fun _ j hj hji heq => hji (h.distinct i hi j hj hne heq.symm).symm⟩

theorem RendererInv.set_idle (h : RendererInv r d frames) (hphase : d.materials.phase i = .free)
    (hother : ∀ j < 512, j ≠ i → (r.materials j).descriptorSet ≠ set) :
    r.vk.running.any (fun work => decide (set ∈ work.sets)) = false := by
  refine List.any_eq_false.mpr fun work hwork => ?_
  rw [decide_eq_true_eq]
  intro hset
  obtain ⟨j, hj, hprotected, heq⟩ := (h.running work hwork).2.sets set hset
  exact hother j hj (hprotected.ne_free hphase) heq

theorem RendererInv.change_material (h : RendererInv r d frames) {material : MaterialResource}
    (hphase : d.materials.phase i = .free) (htable : table.Shows slots)
    (hkeep : ∀ frame j, SlotProtected d.materials frame j → SlotProtected slots frame j)
    (honly : SetsOnly r.vk vk) (hset : material.descriptorSet ≤ vk.sets)
    (hother : material.descriptorSet ≠ 0 →
      ∀ j < 512, j ≠ i → (r.materials j).descriptorSet ≠ material.descriptorSet)
    (hslots : SlotsInv slots 512 (fun _ => True) (MaterialReady { r with
      vk := vk, materialHandles := table, materials := Function.update r.materials i material }
      d.textures)) :
    RendererInv { r with
      vk := vk, materialHandles := table, materials := Function.update r.materials i material }
      { d with materials := slots } frames := by
  obtain ⟨⟨hscene, htargets, haccounts, hrunning, hprompt, hframe, hframes⟩, hfenced⟩ := h
  refine ⟨⟨?_, ⟨htargets.1, htargets.2⟩, haccounts.quiet honly.ledger honly.allocCount, ?_,
    honly.prompt hprompt, hframe, hframes⟩, hfenced⟩
  · refine ⟨hscene.meshTable, hscene.textureTable, htable, hscene.meshes, hscene.textures, hslots,
      fun j hj => ?_, fun j hj k hk hne heq => ?_⟩
    · show (Function.update r.materials i material j).descriptorSet ≤ vk.sets
      by_cases hji : j = i
      · rw [hji, Function.update_self]
        exact hset
      · rw [Function.update_of_ne hji]
        exact Nat.le_trans (hscene.sets j hj) honly.sets
    · dsimp only at hne heq
      by_cases hji : j = i <;> by_cases hki : k = i
      · exact hji.trans hki.symm
      · rw [hji, Function.update_self, Function.update_of_ne hki] at heq
        rw [hji, Function.update_self] at hne
        exact absurd heq.symm (hother hne k hk hki)
      · rw [hki, Function.update_self, Function.update_of_ne hji] at heq
        rw [Function.update_of_ne hji, heq] at hne
        exact absurd heq (hother hne j hj hji)
      · rw [Function.update_of_ne hji, Function.update_of_ne hki] at heq
        rw [Function.update_of_ne hji] at hne
        exact hscene.distinct j hj k hk hne heq
  · intro work hwork
    have hwork' : work ∈ r.vk.running := honly.running ▸ hwork
    obtain ⟨hrecent, hcovered⟩ := hrunning work hwork'
    refine ⟨hrecent, hcovered.keep (fun j _ hprotected => ⟨hprotected, rfl⟩)
      (fun j _ hprotected => ⟨hprotected, rfl⟩) (fun j _ hprotected => ⟨hkeep _ _ hprotected, ?_⟩)
      fun _ hx => hx⟩
    show (Function.update r.materials i material j).descriptorSet = _
    rw [Function.update_of_ne (hprotected.ne_free hphase)]

theorem RendererInv.createMaterial (h : RendererInv r d frames) (desc : MaterialDesc) :
    Outcome True (fun out => ∃ e, RendererInv out.2 e frames) (rendererCreateMaterial r desc) := by
  rw [rendererCreateMaterial]
  split
  · exact .returned ⟨d, h⟩
  next hvalid =>
  rw [not_or, Bool.not_eq_true', Bool.not_eq_false] at hvalid
  have halbedo := h.scene.textureTable.valid_iff.mp hvalid.2
  rcases h.scene.materialTable.alloc with hnull | ⟨i, rest, u, hfree, halloc, hu⟩
  · rw [hnull]
    exact .returned ⟨d, h⟩
  obtain ⟨halive, hindex⟩ := issued_alive h.scene.materialTable hfree
  obtain ⟨hi, hphase⟩ := (h.scene.materialTable.inv.mem_free i).mp (hfree ▸ List.mem_cons_self)
  rw [h.scene.materials.capacity] at hi
  rw [halloc]
  dsimp only
  rw [if_neg (by rw [handleIsNull, beq_iff_eq]; exact halive.1), hindex]
  obtain ⟨set, vk, heq, honly, hcontents, hle, hother⟩ := chosenSet_spec h.scene hi
  rw [heq]
  dsimp only
  have hready : ∀ (material : MaterialResource) vk table j, j ≠ i → j < 512 →
      vk.contents (r.materials j).descriptorSet = r.vk.contents (r.materials j).descriptorSet →
      MaterialReady r d.textures j → MaterialReady { r with
        vk := vk, materialHandles := table, materials := Function.update r.materials i material }
        d.textures j := fun material vk table j hne hj hsame hready =>
    hready.keep (Function.update_of_ne hne _ _) hsame hready.known fun halive => ⟨halive, rfl⟩
  split
  · next hzero =>
    refine Outcome.map (rollBack_spec h.scene.materialTable hfree hu h.scene.materials.due)
      fun table htable => ?_
    refine ⟨_, h.change_material hphase htable (fun _ _ => id) honly hle
      (fun hne => absurd hzero hne) (h.scene.materials.reissued (fun _ _ _ => id)
      (fun j hj hne => hready _ _ _ j hne hj (congrFun hcontents _)) hphase trivial)⟩
  · next hne =>
    have hidle := h.set_idle hphase (hother hne)
    obtain ⟨hlt, hwhole⟩ := h.texture_whole halbedo
    have hlive := h.texture_live hlt (Multiset.mem_add.mpr (Or.inl (Ledger.mem_ownedBy hwhole.view)))
    generalize htexture : r.textures (handleIndex desc.albedo.h) = texture at hwhole hlive
    have hupdate : vk.updateDescriptorSet set texture =
        { vk with contents := Function.update vk.contents set texture } := by
      rw [updateDescriptorSet, if_neg]
      rw [honly.running, hidle, honly.ledger]
      rintro (hzero | hfalse | hdead)
      · exact hne hzero
      · cases hfalse
      · exact hdead hlive
    have honly' : SetsOnly r.vk { vk with contents := Function.update vk.contents set texture } :=
      ⟨honly.1, honly.2, honly.3, honly.4, honly.5, honly.6, honly.7, honly.8⟩
    dsimp only [withVk, setMaterial]
    rw [htexture, hupdate, Function.update_idem]
    refine .returned ⟨_, h.change_material hphase hu
      (fun _ _ hprotected => hprotected.issue hphase) honly' hle hother
      (h.scene.materials.issue (fun _ _ _ => id) (fun j hj hji => ?_) ?_)⟩
    · refine hready _ _ _ j hji hj ?_
      show Function.update vk.contents set _ (r.materials j).descriptorSet = _
      rw [Function.update_of_ne (hother hne j hj hji), hcontents]
    · refine ⟨?_, ?_, fun _ => ?_⟩
      · dsimp only
        rw [Function.update_self]
        exact hne
      · dsimp only
        rw [Function.update_self]
        exact halbedo.known h.scene.textureTable
      · dsimp only
        rw [Function.update_self, Function.update_self, htexture]

theorem retireAfter_toNat (r : Renderer) (delay : UInt32)
    (hframes : r.frameCount.toNat + 2 ^ 32 < 2 ^ 64) :
    r.frameCount.toNat + 2 ≤ (retireAfter r delay).toNat := by
  have htwo : UInt32.ofNat framesInFlight = 2 := rfl
  rw [retireAfter, htwo, UInt64.toNat_add, UInt32.toNat_toUInt64]
  have hlt : (if delay < 2 then 2 else delay : UInt32).toNat < 2 ^ 32 := UInt32.toNat_lt _
  rw [Nat.mod_eq_of_lt (by omega)]
  split
  · exact Nat.le_refl _
  · next hge =>
    have hle : (2 : UInt32).toNat ≤ delay.toNat := UInt32.le_iff_toNat_le.mp (UInt32.not_lt.mp hge)
    exact Nat.add_le_add_left hle _

theorem RendererInv.retable (h : RendererInv r d frames) {e : SceneSlots}
    {meshes textures materials : RenderHandleTable} (hmeshes : meshes.Shows e.meshes)
    (htextures : textures.Shows e.textures) (hmaterials : materials.Shows e.materials)
    (hmeshSlots : SlotsInv e.meshes 256 (fun i => (r.meshes i).Blank) (fun i => (r.meshes i).Whole))
    (htextureSlots : SlotsInv e.textures 256 (fun i => r.textures i = .blank)
      (fun i => (r.textures i).Whole))
    (hmaterialSlots : SlotsInv e.materials 512 (fun _ => True) (MaterialReady r d.textures))
    (hknown : ∀ h, HandleKnown d.textures h → HandleKnown e.textures h ∧
      (HandleAlive e.textures h → HandleAlive d.textures h))
    (hkeep : ∀ frame i, frame < r.frameCount.toNat →
      (SlotProtected d.meshes frame i → SlotProtected e.meshes frame i) ∧
      (SlotProtected d.textures frame i → SlotProtected e.textures frame i) ∧
      (SlotProtected d.materials frame i → SlotProtected e.materials frame i)) :
    RendererInv { r with
      meshHandles := meshes, textureHandles := textures, materialHandles := materials } e
      frames := by
  obtain ⟨⟨hscene, htargets, haccounts, hrunning, hprompt, hframe, hframes⟩, hfenced⟩ := h
  refine ⟨⟨⟨hmeshes, htextures, hmaterials, hmeshSlots, htextureSlots,
    hmaterialSlots.imp (fun _ _ => id) fun j _ hready => ?_, hscene.sets, hscene.distinct⟩,
    ⟨htargets.1, htargets.2⟩, haccounts, fun work hwork => ?_, hprompt, hframe, hframes⟩, hfenced⟩
  · obtain ⟨hknown', halive⟩ := hknown _ hready.known
    exact hready.keep rfl rfl hknown' fun h' => ⟨halive h', rfl⟩
  · obtain ⟨hrecent, hcovered⟩ := hrunning work hwork
    exact ⟨hrecent, hcovered.keep (fun i _ hp => ⟨(hkeep _ i hrecent.lt).1 hp, rfl⟩)
      (fun i _ hp => ⟨(hkeep _ i hrecent.lt).2.1 hp, rfl⟩)
      (fun i _ hp => ⟨(hkeep _ i hrecent.lt).2.2 hp, rfl⟩) fun _ hx => hx⟩

variable (delay : UInt32)

theorem RendererInv.destroyMesh (h : RendererInv r d frames) (mesh : MeshHandle)
    (hframes : frames + 2 ^ 32 < 2 ^ 64) :
    ∃ e, RendererInv (rendererDestroyMesh r mesh delay) e frames := by
  have hdue := retireAfter_toNat r delay (by have := h.frames; omega)
  rw [rendererDestroyMesh]
  rcases h.scene.meshTable.retire mesh.h (retireAfter r delay) with hsame | ⟨halive, u, heq, hu⟩
  · rw [hsame]
    exact ⟨d, h⟩
  · rw [heq]
    exact ⟨{ d with meshes := d.meshes.retire _ _ }, h.retable hu h.scene.textureTable
      h.scene.materialTable (h.scene.meshes.retire (by omega)) h.scene.textures h.scene.materials
      (fun _ hknown => ⟨hknown, id⟩) fun frame i hlt =>
        ⟨fun hp => hp.retire _ halive.2.1 (by omega), id, id⟩⟩

theorem RendererInv.destroyTexture (h : RendererInv r d frames) (texture : TextureHandle)
    (hframes : frames + 2 ^ 32 < 2 ^ 64) :
    ∃ e, RendererInv (rendererDestroyTexture r texture delay) e frames := by
  have hdue := retireAfter_toNat r delay (by have := h.frames; omega)
  rw [rendererDestroyTexture]
  rcases h.scene.textureTable.retire texture.h (retireAfter r delay) with
    hsame | ⟨halive, u, heq, hu⟩
  · rw [hsame]
    exact ⟨d, h⟩
  · rw [heq]
    exact ⟨{ d with textures := d.textures.retire _ _ }, h.retable h.scene.meshTable hu
      h.scene.materialTable h.scene.meshes (h.scene.textures.retire (by omega)) h.scene.materials
      (fun _ hknown => hknown.retire _ _) fun frame i hlt =>
        ⟨id, fun hp => hp.retire _ halive.2.1 (by omega), id⟩⟩

theorem RendererInv.destroyMaterial (h : RendererInv r d frames) (material : MaterialHandle)
    (hframes : frames + 2 ^ 32 < 2 ^ 64) :
    ∃ e, RendererInv (rendererDestroyMaterial r material delay) e frames := by
  have hdue := retireAfter_toNat r delay (by have := h.frames; omega)
  rw [rendererDestroyMaterial]
  rcases h.scene.materialTable.retire material.h (retireAfter r delay) with
    hsame | ⟨halive, u, heq, hu⟩
  · rw [hsame]
    exact ⟨d, h⟩
  · rw [heq]
    exact ⟨{ d with materials := d.materials.retire _ _ }, h.retable h.scene.meshTable
      h.scene.textureTable hu h.scene.meshes h.scene.textures
      (h.scene.materials.retire (by omega)) (fun _ hknown => ⟨hknown, id⟩) fun frame i hlt =>
        ⟨id, id, fun hp => hp.retire _ halive.2.1 (by omega)⟩⟩

end

end ChoonzMoba
