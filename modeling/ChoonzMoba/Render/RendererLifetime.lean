import ChoonzMoba.Render.RendererFrames

namespace ChoonzMoba

open Renderer Vk

section

variable {t : RenderHandleTable} {slots : DeferredSlots Nat} {User : Type}

theorem RenderHandleTable.Shows.releaseAll (ht : t.Shows slots) (release : User → Nat → User)
    (user : User) : ∃ released : List Nat, released.Nodup ∧ (∀ i ∈ released, i < slots.capacity) ∧
      (∀ i < slots.capacity, i ∉ released → slots.phase i = .free) ∧
      (renderHandleReleaseAll (some release) t user).2 = released.foldl release user := by
  obtain ⟨free, hinv, rfl⟩ := ht
  refine ⟨(List.range t.capacity.toNat).filter fun i => (t.slots i).alive || (t.slots i).retiring,
    List.nodup_range.filter _, fun i hi => List.mem_range.mp (List.mem_filter.mp hi).1,
    fun i hi hnot => ?_, ?_⟩
  · rw [List.mem_filter, List.mem_range] at hnot
    rw [RenderHandleTable.deferred_phase hi, RenderHandleSlot.phase]
    cases halive : (t.slots i).alive with
    | true => exact absurd ⟨hi, by rw [halive, Bool.true_or]⟩ hnot
    | false =>
      cases hretiring : (t.slots i).retiring with
      | true => exact absurd ⟨hi, by rw [hretiring, Bool.or_true]⟩ hnot
      | false => rfl
  · rw [renderHandleReleaseAll]
    refine (Loop.forRange_invariant (fun k (s : RenderHandleTable × User) =>
      (∀ i, k ≤ i → s.1.slots i = t.slots i) ∧ s.2 = ((List.range k).filter fun i =>
        (t.slots i).alive || (t.slots i).retiring).foldl release user)
      ⟨fun _ _ => rfl, rfl⟩ ?_).2
    rintro k ⟨table, user'⟩ hk ⟨hsame, huser⟩
    dsimp only at hsame huser ⊢
    rw [hsame k (Nat.le_refl k), List.range_succ, List.filter_append]
    split
    · next hor =>
      refine ⟨fun i hi => (Function.update_of_ne (by omega) _ _).trans (hsame i (by omega)), ?_⟩
      rw [List.foldl_append, ← huser, List.filter_singleton, Bool.or_eq_true_iff.mpr hor]
      rfl
    · next hor =>
      refine ⟨fun i hi => hsame i (by omega), ?_⟩
      rw [List.filter_singleton, Bool.eq_false_iff.mpr fun h => hor (Bool.or_eq_true_iff.mp h)]
      exact huser.trans (by rw [cond_false, List.append_nil])

structure Vk.Owing (vk : Vk) (rest : Multiset VkObject) : Prop where
  idle : vk.running = []
  accounts : vk.Accounts rest

variable {vk : Vk} {rest rest' : Multiset VkObject} {kind : VkKind} {handle : VkHandle}
  {d : Dedicated} {r : Renderer} {n : Nat}

namespace Vk.Owing

theorem uses (h : vk.Owing rest) (held : Multiset VkObject) : vk.Uses held := by
  intro work hwork
  rw [h.idle] at hwork
  cases hwork

theorem quiet {vk' : Vk} (h : vk.Owing rest) (hquiet : Quiet vk vk') (h' : vk'.Accounts rest') :
    vk'.Owing rest' :=
  ⟨hquiet.idle h.idle, h'⟩

theorem destroy (h : vk.Owing (ownedBy kind handle + rest)) (hkind : kind ≠ .memory) :
    (vk.destroy kind handle).Owing rest :=
  h.quiet (destroy_quiet _ _ _) (h.accounts.destroy (h.uses _) hkind)

end Vk.Owing

section

variable {R : Type} {a : SlotArray R} {Left : R → R → Prop} {release : Renderer → Nat → Renderer}

theorem SlotArray.Releases.emptied (hrelease : a.Releases Left release) {released : List Nat}
    (hnodup : released.Nodup) (hlt : ∀ i ∈ released, i < n)
    (hempty : ∀ i < n, i ∉ released → a.own (a.get r i) = 0)
    (h : r.vk.Owing (a.held n r + rest)) :
    ∃ vk resources, released.foldl release r = a.put r vk resources ∧ vk.Owing rest ∧
      ∀ i ∈ released, Left (a.get r i) (resources i) := by
  obtain ⟨vk, resources, hput, hquiet, haccounts, hsame, hleft⟩ := hrelease.foldl released hlt hnodup
    h.accounts fun work hwork => (by rw [h.idle] at hwork; cases hwork)
  refine ⟨vk, resources, hput, h.quiet hquiet ?_, fun i hi => (hleft i hi).1⟩
  rw [heldBy_zero, zero_add] at haccounts
  · exact haccounts
  · intro i hi
    by_cases hmem : i ∈ released
    · exact (hleft i hmem).2
    · rw [hsame i hmem]
      exact hempty i hi hmem

theorem SlotArray.Releases.range (hrelease : a.Releases Left release)
    (h : r.vk.Owing (a.held n r + rest)) :
    ∃ vk resources, Loop.forRange n release r = a.put r vk resources ∧ vk.Owing rest ∧
      ∀ i < n, Left (a.get r i) (resources i) := by
  obtain ⟨vk, resources, hput, howing, hleft⟩ := hrelease.emptied List.nodup_range
    (fun i hi => List.mem_range.mp hi) (fun i hi hnot => absurd (List.mem_range.mpr hi) hnot) h
  exact ⟨vk, resources, hput, howing, fun i hi => hleft i (List.mem_range.mpr hi)⟩

theorem SlotArray.Releases.all (hrelease : a.Releases Left release) (ht : t.Shows slots)
    (hcapacity : slots.capacity = n)
    (hfree : ∀ i < n, slots.phase i = .free → a.own (a.get r i) = 0)
    (h : r.vk.Owing (a.held n r + rest)) :
    ∃ vk resources, (renderHandleReleaseAll (some release) t r).2 = a.put r vk resources ∧
      vk.Owing rest := by
  obtain ⟨released, hnodup, hlt, hall, heq⟩ := ht.releaseAll release r
  rw [hcapacity] at hlt hall
  obtain ⟨vk, resources, hput, howing, -⟩ := hrelease.emptied hnodup hlt
    (fun i hi hnot => hfree i hi (hall i hi hnot)) h
  exact ⟨vk, resources, heq.trans hput, howing⟩

end

def FrameSlot.buffersOwned (slot : FrameSlot) : Multiset VkObject :=
  slot.ubo.owned .buffer + (slot.instanceBuf.owned .buffer + slot.debugVertexBuf.owned .buffer)

def FrameSlot.syncOwned (slot : FrameSlot) : Multiset VkObject :=
  ownedBy .semaphore slot.imageAvailable + ownedBy .fence slot.inFlight

theorem slotsHeld_eq (r : Renderer) : r.slotsHeld =
    (frameSlots FrameSlot.buffersOwned).held framesInFlight r +
      (frameSlots FrameSlot.syncOwned).held framesInFlight r := by
  rw [Renderer.slotsHeld, SlotArray.held, SlotArray.held, heldBy, heldBy, heldBy,
    ← Finset.sum_add_distrib]
  refine Finset.sum_congr rfl fun i _ => ?_
  show _ = (r.slots i).buffersOwned + (r.slots i).syncOwned
  rw [FrameSlot.buffersOwned, FrameSlot.syncOwned]
  abel

theorem destroyFrameBuffers_releases : (frameSlots FrameSlot.buffersOwned).Releases
    (fun old slot => slot.syncOwned = old.syncOwned) destroyFrameBuffers := by
  intro r i
  refine ⟨_, _, rfl, rfl, rfl, fun start base mine h => ?_⟩
  have hworking : Working start base ((r.slots i).buffersOwned + mine) r.vk := h
  rw [FrameSlot.buffersOwned, add_assoc, add_assoc] at hworking
  exact ((hworking.free (fun h => (by cases h))).free (fun h => (by cases h))).free
    (fun h => (by cases h))

theorem destroyFrameSync_releases :
    (frameSlots FrameSlot.syncOwned).Releases (fun _ _ => True) destroyFrameSync := by
  intro r i
  refine ⟨_, _, rfl, trivial, rfl, fun start base mine h => ?_⟩
  have hworking : Working start base ((r.slots i).syncOwned + mine) r.vk := h
  rw [FrameSlot.syncOwned, add_assoc] at hworking
  exact (hworking.destroy (fun h => (by cases h))).destroy (fun h => (by cases h))

variable {s : Renderer} {frames : Nat} {share : Renderer → Multiset VkObject}
  {shares : List (Renderer → Multiset VkObject)}

def owed (shares : List (Renderer → Multiset VkObject)) (r : Renderer) : Multiset VkObject :=
  (shares.map fun share => share r).sum

structure Teardown (r : Renderer) (shares : List (Renderer → Multiset VkObject)) : Prop where
  owing : r.vk.Owing (owed shares r)
  images : ImagesFrom (fun _ => True) r.images r.scCount
  pipelines : r.pipelines 0 = 0 → NoPipelines r.pipelines

structure Spares (shares : List (Renderer → Multiset VkObject)) (r s : Renderer) : Prop where
  owed : owed shares s = owed shares r
  images : s.images = r.images
  scCount : s.scCount = r.scCount
  pipelines : s.pipelines = r.pipelines

theorem Teardown.spared (h : Teardown r (share :: shares)) (hs : Spares shares r s)
    (howing : s.vk.Owing (owed shares r)) : Teardown s shares where
  owing := hs.owed ▸ howing
  images := by
    rw [hs.images, hs.scCount]
    exact h.images
  pipelines := by
    rw [hs.pipelines]
    exact h.pipelines

theorem Teardown.destroyInto {get : Renderer → VkHandle} {set : Renderer → VkHandle → Renderer}
    (h : Teardown r ((fun r => ownedBy kind (get r)) :: shares)) (hkind : kind ≠ .memory)
    (hvk : ∀ vk, (set (r.withVk vk) 0).vk = vk)
    (hspares : ∀ vk, Spares shares r (set (r.withVk vk) 0)) :
    Teardown (Renderer.destroyInto kind get set r) shares := by
  refine h.spared (hspares _) ?_
  rw [Renderer.destroyInto, hvk]
  exact Vk.Owing.destroy h.owing hkind

def teardownShares : List (Renderer → Multiset VkObject) :=
  [materialArray.held 512, textureArray.held 256, meshArray.held 256,
    fun r => pipelinesHeld r.pipelines, fun r => ownedBy .pipelineCache r.pipelineCache,
    (frameSlots FrameSlot.buffersOwned).held framesInFlight, fun r => ownedBy .sampler r.sampler,
    fun r => ownedBy .descriptorPool r.descPool,
    fun r => ownedBy .pipelineLayout r.materialPipelineLayout,
    fun r => ownedBy .pipelineLayout r.debugPipelineLayout,
    fun r => ownedBy .descriptorSetLayout r.set0Layout,
    fun r => ownedBy .descriptorSetLayout r.materialLayout,
    fun r => imagesHeld r.images + ownedBy .swapchain r.swapchain,
    (frameSlots FrameSlot.syncOwned).held framesInFlight,
    fun r => ownedBy .commandPool r.cmdPool]

theorem held_owed (r : Renderer) : r.held = owed teardownShares r := by
  have hnone : materialArray.held 512 r = 0 := heldBy_zero fun _ _ => rfl
  rw [Renderer.held, Renderer.targetsHeld, Renderer.fixedHeld, slotsHeld_eq, owed, teardownShares]
  simp only [List.map_cons, List.map_nil, List.sum_cons, List.sum_nil, hnone]
  abel

variable {d : SceneSlots}

theorem releaseAllSlots_eq (table : Renderer → RenderHandleTable)
    (put : Renderer → RenderHandleTable → Renderer) (release : Renderer → Nat → Renderer)
    (r : Renderer) : releaseAllSlots table put release r =
      put (renderHandleReleaseAll (some release) (table r) r).2
        (renderHandleReleaseAll (some release) (table r) r).1 := rfl

theorem releaseAllMaterials_spec (ht : r.materialHandles.Shows slots) (hcapacity : slots.capacity = 512)
    (h : r.vk.Owing rest) : ∃ vk materials table, releaseAllMaterials r =
      { r with vk := vk, materials := materials, materialHandles := table } ∧ vk.Owing rest := by
  have hnone : materialArray.held 512 r = 0 := heldBy_zero fun _ _ => rfl
  obtain ⟨vk, materials, heq, howing⟩ := releaseMaterialSlot_releases.all ht hcapacity
    (fun _ _ _ => rfl) (show r.vk.Owing (materialArray.held 512 r + rest) by rwa [hnone, zero_add])
  refine ⟨vk, materials, (renderHandleReleaseAll (some releaseMaterialSlot) r.materialHandles r).1,
    ?_, howing⟩
  rw [releaseAllMaterials, releaseAllSlots_eq, heq]
  rfl

theorem releaseAllTextures_spec (ht : r.textureHandles.Shows slots) (hcapacity : slots.capacity = 256)
    (hfree : ∀ i < 256, slots.phase i = .free → (r.textures i).owned = 0)
    (h : r.vk.Owing (textureArray.held 256 r + rest)) : ∃ vk textures table, releaseAllTextures r =
      { r with vk := vk, textures := textures, textureHandles := table } ∧ vk.Owing rest := by
  obtain ⟨vk, textures, heq, howing⟩ := releaseTextureSlot_releases.all ht hcapacity hfree h
  refine ⟨vk, textures, (renderHandleReleaseAll (some releaseTextureSlot) r.textureHandles r).1,
    ?_, howing⟩
  rw [releaseAllTextures, releaseAllSlots_eq, heq]
  rfl

theorem releaseAllMeshes_spec (ht : r.meshHandles.Shows slots) (hcapacity : slots.capacity = 256)
    (hfree : ∀ i < 256, slots.phase i = .free → (r.meshes i).owned = 0)
    (h : r.vk.Owing (meshArray.held 256 r + rest)) : ∃ vk meshes table, releaseAllMeshes r =
      { r with vk := vk, meshes := meshes, meshHandles := table } ∧ vk.Owing rest := by
  obtain ⟨vk, meshes, heq, howing⟩ := releaseMeshSlot_releases.all ht hcapacity hfree h
  refine ⟨vk, meshes, (renderHandleReleaseAll (some releaseMeshSlot) r.meshHandles r).1, ?_, howing⟩
  rw [releaseAllMeshes, releaseAllSlots_eq, heq]
  rfl

theorem RendererBase.released (h : RendererBase r d frames) : Teardown
    (releaseAllMeshes (releaseAllTextures (releaseAllMaterials (r.withVk r.vk.deviceWaitIdle))))
    (teardownShares.drop 3) := by
  obtain ⟨hmeshTable, htextureTable, hmaterialTable, hmeshes, htextures, hmaterials, -, -⟩ := h.scene
  have howing : (r.withVk r.vk.deviceWaitIdle).vk.Owing (textureArray.held 256 r +
      (meshArray.held 256 r + owed (teardownShares.drop 3) r)) := by
    refine ⟨?_, deviceWaitIdle_accounts ?_⟩
    · show r.vk.deviceWaitIdle.running = []
      rw [deviceWaitIdle_eq h.prompt.reliable]
    have hnone : materialArray.held 512 r = 0 := heldBy_zero fun _ _ => rfl
    have hheld : r.held = materialArray.held 512 r + (textureArray.held 256 r +
        (meshArray.held 256 r + owed (teardownShares.drop 3) r)) := held_owed r
    rw [hnone, zero_add] at hheld
    exact hheld ▸ h.accounts
  obtain ⟨vk, materials, materialHandles, heq, howing⟩ := releaseAllMaterials_spec
    (r := r.withVk r.vk.deviceWaitIdle) hmaterialTable hmaterials.capacity howing
  rw [heq]
  obtain ⟨vk, textures, textureHandles, heq, howing⟩ := releaseAllTextures_spec
    (r := { r with vk := vk, materials := materials, materialHandles := materialHandles })
    htextureTable htextures.capacity (fun i hi hfree => by
      rw [show (r.textures i) = .blank from htextures.blank i hi hfree]
      rfl) howing
  dsimp only [withVk] at heq ⊢
  rw [heq]
  obtain ⟨vk, meshes, meshHandles, heq, howing⟩ := releaseAllMeshes_spec
    (r := { r with
      vk := vk
      materials := materials
      materialHandles := materialHandles
      textures := textures
      textureHandles := textureHandles })
    hmeshTable hmeshes.capacity (fun i hi hfree => (hmeshes.blank i hi hfree).owned) howing
  dsimp only at heq
  rw [heq]
  exact ⟨howing, h.targets.images.mono fun _ _ => trivial, h.targets.pipelines⟩

theorem Teardown.destroyPipelines
    (h : Teardown r ((fun r => pipelinesHeld r.pipelines) :: shares))
    (hshares : ∀ vk pipelines,
      owed shares { r with vk := vk, pipelines := pipelines } = owed shares r) :
    Teardown (destroyPipelines r) shares := by
  obtain ⟨⟨honly, hquiet, haccounts⟩, hnone⟩ := destroyPipelines_spec h.owing.accounts (h.owing.uses _)
  generalize ChoonzMoba.destroyPipelines r = s at honly hquiet haccounts hnone
  obtain ⟨vk, pipelines, rfl⟩ := honly
  rw [pipelinesHeld_none hnone, zero_add] at haccounts
  refine ⟨h.owing.quiet hquiet ?_, h.images, fun _ => hnone⟩
  rw [hshares]
  exact haccounts

theorem Teardown.destroySwapchain
    (h : Teardown r ((fun r => imagesHeld r.images + ownedBy .swapchain r.swapchain) :: shares))
    (hshares : ∀ vk images, owed shares
      { r with vk := vk, images := images, swapchain := 0, scCount := 0 } = owed shares r) :
    Teardown (destroySwapchain r) shares := by
  have haccounts : r.vk.Accounts ((imagesHeld r.images + ownedBy .swapchain r.swapchain) +
    owed shares r) := h.owing.accounts
  rw [add_assoc] at haccounts
  obtain ⟨vk, images, heq, hquiet, haccounts, hfrom⟩ := destroySwapchain_spec h.images
    haccounts (h.owing.uses _)
  rw [heq]
  refine ⟨h.owing.quiet hquiet ?_, hfrom, h.pipelines⟩
  rw [hshares]
  exact haccounts

theorem Teardown.destroySlots {own : FrameSlot → Multiset VkObject}
    {Left : FrameSlot → FrameSlot → Prop}
    {release : Renderer → Nat → Renderer} (hrelease : (frameSlots own).Releases Left release)
    (h : Teardown r ((frameSlots own).held framesInFlight :: shares))
    (hshares : ∀ vk slots, (∀ i < framesInFlight, Left (r.slots i) (slots i)) →
      owed shares { r with vk := vk, slots := slots } = owed shares r) :
    Teardown (Loop.forRange framesInFlight release r) shares := by
  obtain ⟨vk, slots, heq, howing, hleft⟩ := hrelease.range h.owing
  rw [heq]
  refine ⟨?_, h.images, h.pipelines⟩
  show vk.Owing (owed shares { r with vk := vk, slots := slots })
  rw [hshares vk slots hleft]
  exact howing

theorem RendererBase.destroy (h : RendererBase r d frames) : (rendererDestroy r).vk.Owing 0 := by
  have hscene := h.released
  rw [rendererDestroy]
  generalize releaseAllMeshes _ = s at hscene
  have hpipelines : Teardown (destroyPipelines s) (teardownShares.drop 4) :=
    hscene.destroyPipelines fun _ _ => rfl
  generalize destroyPipelines s = s at hpipelines
  have hcache : Teardown
      (destroyInto .pipelineCache (·.pipelineCache) ({ · with pipelineCache := · }) s)
      (teardownShares.drop 5) :=
    hpipelines.destroyInto (fun h => (by cases h)) (fun _ => rfl) fun _ => ⟨rfl, rfl, rfl, rfl⟩
  generalize destroyInto .pipelineCache _ _ s = s at hcache
  have hbuffers : Teardown (Loop.forRange framesInFlight destroyFrameBuffers s)
      (teardownShares.drop 6) := by
    refine hcache.destroySlots destroyFrameBuffers_releases fun vk slots hsame => ?_
    have hsync : (frameSlots FrameSlot.syncOwned).held framesInFlight
        { s with vk := vk, slots := slots } = (frameSlots FrameSlot.syncOwned).held framesInFlight s :=
      heldBy_congr hsame
    simp only [owed, teardownShares, List.drop_succ_cons, List.drop_zero, List.map_cons,
      List.map_nil, hsync]
  generalize Loop.forRange framesInFlight destroyFrameBuffers s = s at hbuffers
  have hsampler : Teardown (destroyInto .sampler (·.sampler) ({ · with sampler := · }) s)
      (teardownShares.drop 7) :=
    hbuffers.destroyInto (fun h => (by cases h)) (fun _ => rfl) fun _ => ⟨rfl, rfl, rfl, rfl⟩
  generalize destroyInto .sampler _ _ s = s at hsampler
  have hpool : Teardown (destroyInto .descriptorPool (·.descPool) ({ · with descPool := · }) s)
      (teardownShares.drop 8) :=
    hsampler.destroyInto (fun h => (by cases h)) (fun _ => rfl) fun _ => ⟨rfl, rfl, rfl, rfl⟩
  generalize destroyInto .descriptorPool _ _ s = s at hpool
  have hmaterial : Teardown
      (destroyInto .pipelineLayout (·.materialPipelineLayout) ({ · with materialPipelineLayout := · }) s)
      (teardownShares.drop 9) :=
    hpool.destroyInto (fun h => (by cases h)) (fun _ => rfl) fun _ => ⟨rfl, rfl, rfl, rfl⟩
  generalize destroyInto .pipelineLayout _ _ s = s at hmaterial
  have hdebug : Teardown
      (destroyInto .pipelineLayout (·.debugPipelineLayout) ({ · with debugPipelineLayout := · }) s)
      (teardownShares.drop 10) :=
    hmaterial.destroyInto (fun h => (by cases h)) (fun _ => rfl) fun _ => ⟨rfl, rfl, rfl, rfl⟩
  generalize destroyInto .pipelineLayout _ _ s = s at hdebug
  have hset0 : Teardown (destroyInto .descriptorSetLayout (·.set0Layout) ({ · with set0Layout := · }) s)
      (teardownShares.drop 11) :=
    hdebug.destroyInto (fun h => (by cases h)) (fun _ => rfl) fun _ => ⟨rfl, rfl, rfl, rfl⟩
  generalize destroyInto .descriptorSetLayout _ _ s = s at hset0
  have hset1 : Teardown
      (destroyInto .descriptorSetLayout (·.materialLayout) ({ · with materialLayout := · }) s)
      (teardownShares.drop 12) :=
    hset0.destroyInto (fun h => (by cases h)) (fun _ => rfl) fun _ => ⟨rfl, rfl, rfl, rfl⟩
  generalize destroyInto .descriptorSetLayout _ _ s = s at hset1
  have hswapchain : Teardown (destroySwapchain s) (teardownShares.drop 13) :=
    hset1.destroySwapchain fun _ _ => rfl
  generalize destroySwapchain s = s at hswapchain
  have hsync : Teardown (Loop.forRange framesInFlight destroyFrameSync s) (teardownShares.drop 14) :=
    hswapchain.destroySlots destroyFrameSync_releases fun _ _ _ => rfl
  generalize Loop.forRange framesInFlight destroyFrameSync s = s at hsync
  have hcommands : Teardown (destroyInto .commandPool (·.cmdPool) ({ · with cmdPool := · }) s)
      (teardownShares.drop 15) :=
    hsync.destroyInto (fun h => (by cases h)) (fun _ => rfl) fun _ => ⟨rfl, rfl, rfl, rfl⟩
  exact hcommands.owing

end

end ChoonzMoba
