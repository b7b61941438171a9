import ChoonzMoba.Render.RendererInv

namespace ChoonzMoba

open Renderer Vk

section

variable {r s : Renderer} {d : SceneSlots} {frames i : Nat} {slots : DeferredSlots Nat} {vk : Vk}
  {table : RenderHandleTable}

theorem MaterialReady.keep {textures : DeferredSlots Nat} (h : MaterialReady r d.textures i)
    (hmaterial : s.materials i = r.materials i)
    (hcontents : s.vk.contents (r.materials i).descriptorSet =
      r.vk.contents (r.materials i).descriptorSet)
    (hknown : HandleKnown textures (r.materials i).texture.h)
    (halive : HandleAlive textures (r.materials i).texture.h →
      HandleAlive d.textures (r.materials i).texture.h ∧
        s.textures (handleIndex (r.materials i).texture.h) =
          r.textures (handleIndex (r.materials i).texture.h)) :
    MaterialReady s textures i := by
  refine ⟨?_, ?_, fun h' => ?_⟩
  · rw [hmaterial]
    exact h.set
  · rw [hmaterial]
    exact hknown
  · rw [hmaterial] at h' ⊢
    rw [hcontents, (halive h').2]
    exact h.contents (halive h').1

def Renderer.meshRest (r : Renderer) : Multiset VkObject :=
  textureArray.held 256 r + (r.targetsHeld + r.fixedHeld)

def Renderer.textureRest (r : Renderer) : Multiset VkObject :=
  meshArray.held 256 r + (r.targetsHeld + r.fixedHeld)

theorem Renderer.held_meshes (r : Renderer) : r.held = meshArray.held 256 r + r.meshRest := rfl

theorem Renderer.held_textures (r : Renderer) :
    r.held = textureArray.held 256 r + r.textureRest := by
  rw [Renderer.held, Renderer.textureRest, add_left_comm]

theorem RendererInv.free_mesh (h : RendererInv r d frames) (hi : i < 256)
    (hphase : d.meshes.phase i = .free) : Working r.vk
      (heldByOthers 256 (fun j => (r.meshes j).owned) i + r.meshRest) 0 r.vk := by
  refine .start ?_ fun work hwork x hx => ?_
  · have haccounts := h.accounts
    have hblank : (r.meshes i).owned = 0 := (h.scene.meshes.blank i hi hphase).owned
    have hsplit : meshArray.held 256 r = (r.meshes i).owned +
        heldByOthers 256 (fun j => (r.meshes j).owned) i := heldBy_split hi
    rwa [Renderer.held_meshes, hsplit, hblank, zero_add, ← zero_add (_ + r.meshRest)] at haccounts
  · rcases h.busy_meshes [i] (fun frame j _ hprotected hmem =>
        hprotected.ne_free hphase (List.mem_singleton.mp hmem)) work hwork x hx with
      hrest | ⟨j, hj, hne, howned⟩
    · exact Multiset.mem_add.mpr (Or.inr hrest)
    · exact Multiset.mem_add.mpr (Or.inl (mem_heldByOthers.mpr
        ⟨j, hj, fun heq => hne (List.mem_singleton.mpr heq), howned⟩))

theorem RendererInv.free_texture (h : RendererInv r d frames) (hi : i < 256)
    (hphase : d.textures.phase i = .free) : Working r.vk
      (heldByOthers 256 (fun j => (r.textures j).owned) i + r.textureRest) 0 r.vk := by
  refine .start ?_ fun work hwork x hx => ?_
  · have haccounts := h.accounts
    have hblank : (r.textures i).owned = 0 := by
      rw [h.scene.textures.blank i hi hphase]
      rfl
    have hsplit : textureArray.held 256 r = (r.textures i).owned +
        heldByOthers 256 (fun j => (r.textures j).owned) i := heldBy_split hi
    rwa [Renderer.held_textures, hsplit, hblank, zero_add,
      ← zero_add (_ + r.textureRest)] at haccounts
  · rcases h.busy_textures [i] (fun frame j _ hprotected hmem =>
        hprotected.ne_free hphase (List.mem_singleton.mp hmem)) work hwork x hx with
      hrest | ⟨j, hj, hne, howned⟩
    · exact Multiset.mem_add.mpr (Or.inr hrest)
    · exact Multiset.mem_add.mpr (Or.inl (mem_heldByOthers.mpr
        ⟨j, hj, fun heq => hne (List.mem_singleton.mpr heq), howned⟩))

theorem RendererInv.change_mesh (h : RendererInv r d frames) {mesh : MeshResource} (hi : i < 256)
    (hphase : d.meshes.phase i = .free) (htable : table.Shows slots)
    (hslots : SlotsInv slots 256 (fun j => (Function.update r.meshes i mesh j).Blank)
      (fun j => (Function.update r.meshes i mesh j).Whole))
    (hkeep : ∀ frame j, SlotProtected d.meshes frame j → SlotProtected slots frame j)
    (hworking : Working r.vk (heldByOthers 256 (fun j => (r.meshes j).owned) i + r.meshRest)
      mesh.owned vk) :
    RendererInv { r with
      vk := vk, meshHandles := table, meshes := Function.update r.meshes i mesh }
      { d with meshes := slots } frames := by
  obtain ⟨hquiet, -, haccounts⟩ := hworking
  obtain ⟨⟨hscene, htargets, -, hrunning, hprompt, hframe, hframes⟩, hfenced⟩ := h
  refine ⟨⟨?_, ⟨htargets.1, htargets.2⟩, ?_, ?_, hquiet.prompt hprompt, hframe, hframes⟩, hfenced⟩
  · refine ⟨htable, hscene.textureTable, hscene.materialTable, hslots, hscene.textures,
      hscene.materials.imp (fun _ _ => id) fun j _ hready => ?_, fun j hj => ?_, hscene.distinct⟩
    · exact hready.keep rfl (congrFun hquiet.contents _) hready.known fun halive => ⟨halive, rfl⟩
    · exact Nat.le_trans (hscene.sets j hj) (Nat.le_of_eq hquiet.sets.symm)
  · have hheld : heldBy 256 (fun j => (Function.update r.meshes i mesh j).owned) =
        mesh.owned + heldByOthers 256 (fun j => (r.meshes j).owned) i :=
      heldBy_update MeshResource.owned r.meshes hi mesh
    show vk.Accounts (heldBy 256 (fun j => (Function.update r.meshes i mesh j).owned) + r.meshRest)
    rw [hheld, add_assoc]
    exact haccounts
  · intro work hwork
    have hwork' : work ∈ r.vk.running := hquiet.running work hwork
    obtain ⟨hrecent, hcovered⟩ := hrunning work hwork'
    refine ⟨hrecent, hcovered.keep (fun j _ hprotected => ⟨hkeep _ _ hprotected, ?_⟩)
      (fun j _ hprotected => ⟨hprotected, rfl⟩) (fun j _ hprotected => ⟨hprotected, rfl⟩)
      fun _ hx => hx⟩
    exact Function.update_of_ne (hprotected.ne_free hphase) _ _

theorem rollBack_spec (ht : table.Shows slots) {rest : List Nat} {u : RenderHandleTable}
    (hfree : slots.free = i :: rest) (hu : u.Shows (slots.issue i rest))
    (hdue : ∀ j due, slots.phase j = .retiring due → 2 ≤ due) :
    Outcome True (RenderHandleTable.Shows · (reissued slots i))
      (rollBack u (handleMake i (slots.generation i))) := by
  obtain ⟨halive, hindex⟩ := issued_alive ht hfree
  have hi := ((ht.inv.mem_free i).mp (hfree ▸ List.mem_cons_self)).1
  rw [rollBack]
  rcases hu.retire (handleMake i (slots.generation i)) 0 with hsame | ⟨-, v, hretire, hv⟩
  · have hvalid := hu.valid_iff.mpr halive
    rw [renderHandleRetire, hvalid] at hsame
    cases hsame
  · rw [hretire, hindex] at *
    refine Outcome.map (hv.collect none 0 ()) fun r hr => ?_
    have honly : ((slots.issue i rest).retire i 0).due 0 = [i] := by
      refine DeferredSlots.retire_due_only (fun j due' hretiring => ?_) hi (Nat.le_refl 0)
      by_cases hji : j = i
      · rw [hji, slots.issue_phase] at hretiring
        cases hretiring
      · rw [slots.issue_phase_of_ne rest hji] at hretiring
        exact Nat.lt_of_lt_of_le Nat.zero_lt_two (hdue j due' hretiring)
    have hshows := hr.1
    rw [show (0 : UInt64).toNat = 0 from rfl, honly, reissued_eq ht.inv hfree] at hshows
    exact hshows

theorem releaseMeshSlot_setMesh (r : Renderer) (i : Nat) (mesh : MeshResource) :
    releaseMeshSlot (r.setMesh i mesh) i =
      (r.withVk (freeBuffer (freeBuffer r.vk mesh.vertex) mesh.index)).setMesh i
        { mesh with vertex := .null, index := .null, indexCount := 0 } := by
  rw [releaseMeshSlot, setMesh, setMesh, setMesh]
  dsimp only [withVk]
  rw [Function.update_self, Function.update_idem]

theorem releaseTextureSlot_setTexture (r : Renderer) (i : Nat) (texture : TextureResource) :
    releaseTextureSlot (r.setTexture i texture) i =
      (r.withVk (freeImage (r.vk.destroy .imageView texture.view) texture.image)).setTexture i
        .blank := by
  rw [releaseTextureSlot, setTexture, setTexture, setTexture]
  dsimp only [withVk]
  rw [Function.update_self, Function.update_idem]
  rfl

theorem RendererInv.createMesh (h : RendererInv r d frames) (desc : MeshDesc) :
    Outcome True (fun out => ∃ e, RendererInv out.2 e frames) (rendererCreateMesh r desc) := by
  rw [rendererCreateMesh]
  split
  · exact .returned ⟨d, h⟩
  rcases h.scene.meshTable.alloc with hnull | ⟨i, rest, u, hfree, halloc, hu⟩
  · rw [hnull]
    exact .returned ⟨d, h⟩
  obtain ⟨halive, hindex⟩ := issued_alive h.scene.meshTable hfree
  obtain ⟨hi, hphase⟩ := (h.scene.meshTable.inv.mem_free i).mp (hfree ▸ List.mem_cons_self)
  rw [h.scene.meshes.capacity] at hi
  rw [halloc]
  dsimp only
  rw [if_neg (by rw [handleIsNull, beq_iff_eq]; exact halive.1), hindex]
  have hblank := h.scene.meshes.blank i hi hphase
  refine Outcome.bind (fillMesh_spec (h.free_mesh hi hphase) h.prompt.reliable ⟨?_, ?_⟩) ?_
  · exact hblank.vertex
  · exact hblank.index
  rintro ⟨ok, mesh, vk⟩ ⟨hworking, hwhole⟩
  have hother : ∀ (mesh : MeshResource) j, j ≠ i →
      Function.update r.meshes i mesh j = r.meshes j := fun mesh j hne =>
    Function.update_of_ne hne _ _
  dsimp only at hworking hwhole ⊢
  split
  · next hok =>
    rw [add_zero] at hworking
    refine .returned ⟨_, h.change_mesh hi hphase hu (h.scene.meshes.issue (fun j _ hne => ?_)
      (fun j _ hne => ?_) ?_) (fun frame j hprotected => hprotected.issue hphase) hworking⟩
    · rw [hother mesh j hne]
      exact id
    · rw [hother mesh j hne]
      exact id
    · rw [Function.update_self]
      exact hwhole hok
  · rw [releaseMeshSlot_setMesh]
    refine Outcome.map (rollBack_spec h.scene.meshTable hfree hu h.scene.meshes.due)
      fun table htable => ?_
    rw [MeshResource.owned, add_assoc] at hworking
    have hfreed := (hworking.free (fun h => (by cases h))).free (fun h => (by cases h))
    refine ⟨_, h.change_mesh hi hphase htable (h.scene.meshes.reissued (fun j _ hne => ?_)
      (fun j _ hne => ?_) hphase ?_) (fun frame j hprotected => hprotected) hfreed⟩
    · rw [hother _ j hne]
      exact id
    · rw [hother _ j hne]
      exact id
    · rw [Function.update_self]
      exact ⟨rfl, rfl⟩

theorem HandleAlive.index_ne {h : Handle} (halive : HandleAlive slots h)
    (hphase : slots.phase i = .free) : handleIndex h ≠ i := by
  rintro rfl
  cases hphase.symm.trans halive.2.1

theorem RendererInv.change_texture (h : RendererInv r d frames) {texture : TextureResource}
    (hi : i < 256) (hphase : d.textures.phase i = .free) (htable : table.Shows slots)
    (hslots : SlotsInv slots 256 (fun j => Function.update r.textures i texture j = .blank)
      (fun j => (Function.update r.textures i texture j).Whole))
    (hkeep : ∀ frame j, SlotProtected d.textures frame j → SlotProtected slots frame j)
    (hknown : ∀ h, HandleKnown d.textures h → HandleKnown slots h ∧
      (HandleAlive slots h → HandleAlive d.textures h))
    (hworking : Working r.vk (heldByOthers 256 (fun j => (r.textures j).owned) i + r.textureRest)
      texture.owned vk) :
    RendererInv { r with
      vk := vk, textureHandles := table, textures := Function.update r.textures i texture }
      { d with textures := slots } frames := by
  obtain ⟨hquiet, -, haccounts⟩ := hworking
  obtain ⟨⟨hscene, htargets, -, hrunning, hprompt, hframe, hframes⟩, hfenced⟩ := h
  refine ⟨⟨?_, ⟨htargets.1, htargets.2⟩, ?_, ?_, hquiet.prompt hprompt, hframe, hframes⟩, hfenced⟩
  · refine ⟨hscene.meshTable, htable, hscene.materialTable, hscene.meshes, hslots,
      hscene.materials.imp (fun _ _ => id) fun j _ hready => ?_, fun j hj => ?_, hscene.distinct⟩
    · obtain ⟨hknown', halive'⟩ := hknown _ hready.known
      refine hready.keep rfl (congrFun hquiet.contents _) hknown' fun halive => ⟨halive' halive, ?_⟩
      exact Function.update_of_ne ((halive' halive).index_ne hphase) _ _
    · exact Nat.le_trans (hscene.sets j hj) (Nat.le_of_eq hquiet.sets.symm)
  · have hheld : heldBy 256 (fun j => (Function.update r.textures i texture j).owned) =
        texture.owned + heldByOthers 256 (fun j => (r.textures j).owned) i :=
      heldBy_update TextureResource.owned r.textures hi texture
    rw [Renderer.held_textures]
    show vk.Accounts
      (heldBy 256 (fun j => (Function.update r.textures i texture j).owned) + r.textureRest)
    rw [hheld, add_assoc]
    exact haccounts
  · intro work hwork
    have hwork' : work ∈ r.vk.running := hquiet.running work hwork
    obtain ⟨hrecent, hcovered⟩ := hrunning work hwork'
    refine ⟨hrecent, hcovered.keep (fun j _ hprotected => ⟨hprotected, rfl⟩)
      (fun j _ hprotected => ⟨hkeep _ _ hprotected, ?_⟩) (fun j _ hprotected => ⟨hprotected, rfl⟩)
      fun _ hx => hx⟩
    exact Function.update_of_ne (hprotected.ne_free hphase) _ _

theorem RendererInv.createTexture (h : RendererInv r d frames) (maxImageDimension2D : UInt32)
    (desc : TextureDesc) : Outcome True (fun out => ∃ e, RendererInv out.2 e frames)
      (rendererCreateTexture maxImageDimension2D r desc) := by
  rw [rendererCreateTexture]
  split
  · exact .returned ⟨d, h⟩
  rcases h.scene.textureTable.alloc with hnull | ⟨i, rest, u, hfree, halloc, hu⟩
  · rw [hnull]
    exact .returned ⟨d, h⟩
  obtain ⟨halive, hindex⟩ := issued_alive h.scene.textureTable hfree
  obtain ⟨hi, hphase⟩ := (h.scene.textureTable.inv.mem_free i).mp (hfree ▸ List.mem_cons_self)
  rw [h.scene.textures.capacity] at hi
  rw [halloc]
  dsimp only
  rw [if_neg (by rw [handleIsNull, beq_iff_eq]; exact halive.1), hindex,
    h.scene.textures.blank i hi hphase]
  refine (fillTexture_spec (h.free_texture hi hphase) h.prompt.reliable).bind ?_
  rintro ⟨ok, texture, vk⟩ ⟨hworking, hwhole⟩
  have hother : ∀ (texture : TextureResource) j, j ≠ i →
      Function.update r.textures i texture j = r.textures j := fun texture j hne =>
    Function.update_of_ne hne _ _
  dsimp only at hworking hwhole ⊢
  split
  · next hok =>
    rw [add_zero] at hworking
    refine .returned ⟨_, h.change_texture hi hphase hu (h.scene.textures.issue (fun j _ hne => ?_)
      (fun j _ hne => ?_) ?_) (fun frame j hprotected => hprotected.issue hphase)
      (fun h hknown => ⟨(hknown.issue hphase).1, fun halive => ((hknown.issue hphase).2 halive).1⟩)
      hworking⟩
    · rw [hother texture j hne]
      exact id
    · rw [hother texture j hne]
      exact id
    · rw [Function.update_self]
      exact hwhole hok
  · rw [releaseTextureSlot_setTexture]
    refine Outcome.map (rollBack_spec h.scene.textureTable hfree hu h.scene.textures.due)
      fun table htable => ?_
    rw [TextureResource.owned, add_assoc] at hworking
    have hfreed := (hworking.destroy (fun h => (by cases h))).free (fun h => (by cases h))
    refine ⟨_, h.change_texture hi hphase htable (h.scene.textures.reissued (fun j _ hne => ?_)
      (fun j _ hne => ?_) hphase ?_) (fun frame j hprotected => hprotected)
      (fun h hknown => hknown.reissued hphase) hfreed⟩
    · rw [hother _ j hne]
      exact id
    · rw [hother _ j hne]
      exact id
    · exact Function.update_self _ _ _

end

end ChoonzMoba
