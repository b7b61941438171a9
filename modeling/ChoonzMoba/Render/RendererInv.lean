import ChoonzMoba.Render.RendererSlots

namespace ChoonzMoba

open Renderer Vk

/-- Slots that are blank while free, whole while alive, and never retired for a past frame. -/
structure SlotsInv (slots : DeferredSlots Nat) (n : Nat) (blank whole : Nat → Prop) : Prop where
  capacity : slots.capacity = n
  blank : ∀ i < n, slots.phase i = .free → blank i
  whole : ∀ i < n, slots.phase i = .alive → whole i
  due : ∀ i due, slots.phase i = .retiring due → 2 ≤ due

section

variable {slots : DeferredSlots Nat} {n i : Nat} {blank whole blank' whole' : Nat → Prop}
  {rest released : List Nat}

theorem SlotsInv.imp (h : SlotsInv slots n blank whole) (hblank : ∀ i < n, blank i → blank' i)
    (hwhole : ∀ i < n, whole i → whole' i) : SlotsInv slots n blank' whole' :=
  ⟨h.capacity, fun i hi hfree => hblank i hi (h.blank i hi hfree),
    fun i hi halive => hwhole i hi (h.whole i hi halive), h.due⟩

theorem SlotsInv.issue (h : SlotsInv slots n blank whole)
    (hblank : ∀ j < n, j ≠ i → blank j → blank' j) (hwhole : ∀ j < n, j ≠ i → whole j → whole' j)
    (hi : whole' i) : SlotsInv (slots.issue i rest) n blank' whole' where
  capacity := h.capacity
  blank j hj hfree := by
    by_cases hji : j = i
    · rw [hji, slots.issue_phase] at hfree
      cases hfree
    · rw [slots.issue_phase_of_ne rest hji] at hfree
      exact hblank j hj hji (h.blank j hj hfree)
  whole j hj halive := by
    by_cases hji : j = i
    · exact hji ▸ hi
    · rw [slots.issue_phase_of_ne rest hji] at halive
      exact hwhole j hj hji (h.whole j hj halive)
  due j due hretiring := by
    by_cases hji : j = i
    · rw [hji, slots.issue_phase] at hretiring
      cases hretiring
    · rw [slots.issue_phase_of_ne rest hji] at hretiring
      exact h.due j due hretiring

theorem SlotsInv.reissued (h : SlotsInv slots n blank whole)
    (hblank : ∀ j < n, j ≠ i → blank j → blank' j) (hwhole : ∀ j < n, j ≠ i → whole j → whole' j)
    (hphase : slots.phase i = .free) (hi : blank' i) :
    SlotsInv (ChoonzMoba.reissued slots i) n blank' whole' where
  capacity := h.capacity
  blank j hj hfree := by
    by_cases hji : j = i
    · exact hji ▸ hi
    · exact hblank j hj hji (h.blank j hj hfree)
  whole j hj halive := by
    have hji : j ≠ i := by
      rintro rfl
      cases hphase.symm.trans halive
    exact hwhole j hj hji (h.whole j hj halive)
  due := h.due

theorem SlotsInv.retire (h : SlotsInv slots n blank whole) {due : Nat} (hdue : 2 ≤ due) :
    SlotsInv (slots.retire i due) n blank whole where
  capacity := h.capacity
  blank j hj hfree := by
    by_cases hji : j = i
    · rw [hji, slots.retire_phase] at hfree
      cases hfree
    · rw [slots.retire_phase_of_ne due hji] at hfree
      exact h.blank j hj hfree
  whole j hj halive := by
    by_cases hji : j = i
    · rw [hji, slots.retire_phase] at halive
      cases halive
    · rw [slots.retire_phase_of_ne due hji] at halive
      exact h.whole j hj halive
  due j due' hretiring := by
    by_cases hji : j = i
    · rw [hji, slots.retire_phase] at hretiring
      cases hretiring
      exact hdue
    · rw [slots.retire_phase_of_ne due hji] at hretiring
      exact h.due j due' hretiring

theorem SlotsInv.release (h : SlotsInv slots n blank whole)
    (hreleased : ∀ j ∈ released, blank' j)
    (hblank : ∀ j < n, j ∉ released → blank j → blank' j)
    (hwhole : ∀ j < n, j ∉ released → whole j → whole' j) :
    SlotsInv (slots.release released) n blank' whole' where
  capacity := h.capacity
  blank j hj hfree := by
    by_cases hmem : j ∈ released
    · exact hreleased j hmem
    · rw [slots.release_phase_of_notMem hmem] at hfree
      exact hblank j hj hmem (h.blank j hj hfree)
  whole j hj halive := by
    by_cases hmem : j ∈ released
    · rw [slots.release_phase hmem] at halive
      cases halive
    · rw [slots.release_phase_of_notMem hmem] at halive
      exact hwhole j hj hmem (h.whole j hj halive)
  due j due hretiring := by
    by_cases hmem : j ∈ released
    · rw [slots.release_phase hmem] at hretiring
      cases hretiring
    · rw [slots.release_phase_of_notMem hmem] at hretiring
      exact h.due j due hretiring

end

structure SceneSlots where
  meshes : DeferredSlots Nat
  textures : DeferredSlots Nat
  materials : DeferredSlots Nat

structure MaterialReady (r : Renderer) (textures : DeferredSlots Nat) (i : Nat) : Prop where
  set : (r.materials i).descriptorSet ≠ 0
  known : HandleKnown textures (r.materials i).texture.h
  contents : HandleAlive textures (r.materials i).texture.h →
    r.vk.contents (r.materials i).descriptorSet = r.textures (handleIndex (r.materials i).texture.h)

structure SceneInv (r : Renderer) (d : SceneSlots) : Prop where
  meshTable : r.meshHandles.Shows d.meshes
  textureTable : r.textureHandles.Shows d.textures
  materialTable : r.materialHandles.Shows d.materials
  meshes : SlotsInv d.meshes 256 (fun i => (r.meshes i).Blank) (fun i => (r.meshes i).Whole)
  textures : SlotsInv d.textures 256 (fun i => r.textures i = .blank)
    (fun i => (r.textures i).Whole)
  materials : SlotsInv d.materials 512 (fun _ => True) (MaterialReady r d.textures)
  sets : ∀ i < 512, (r.materials i).descriptorSet ≤ r.vk.sets
  distinct : ∀ i < 512, ∀ j < 512, (r.materials i).descriptorSet ≠ 0 →
    (r.materials i).descriptorSet = (r.materials j).descriptorSet → i = j

/-- Only the last two frames may be under way, each with the fence of its slot. -/
structure WorkRecent (slots : Nat → FrameSlot) (frameCount : Nat) (work : Work) : Prop where
  fence : work.fence = (slots (work.frame % framesInFlight)).inFlight
  lt : work.frame < frameCount
  recent : frameCount ≤ work.frame + framesInFlight

def Renderer.slotsHeld (r : Renderer) : Multiset VkObject :=
  heldBy framesInFlight fun i =>
    (r.slots i).ubo.owned .buffer + ((r.slots i).instanceBuf.owned .buffer +
      ((r.slots i).debugVertexBuf.owned .buffer + (ownedBy .semaphore (r.slots i).imageAvailable +
        ownedBy .fence (r.slots i).inFlight)))

def Renderer.fixedHeld (r : Renderer) : Multiset VkObject :=
  r.slotsHeld + (ownedBy .pipelineCache r.pipelineCache + (ownedBy .sampler r.sampler +
    (ownedBy .descriptorPool r.descPool + (ownedBy .pipelineLayout r.materialPipelineLayout +
      (ownedBy .pipelineLayout r.debugPipelineLayout + (ownedBy .descriptorSetLayout r.set0Layout +
        (ownedBy .descriptorSetLayout r.materialLayout + ownedBy .commandPool r.cmdPool)))))))

/-- What a frame reaches is held by slots that outlive it, by what the renderer draws to, or by
the readback that its fence guards. -/
structure WorkCovered (r : Renderer) (d : SceneSlots) (extra : Multiset VkObject)
    (fence : VkHandle) (work : Work) : Prop where
  reach : ∀ x ∈ work.reach, (x ∈ extra ∧ work.fence = fence) ∨
    (∃ i < 256, SlotProtected d.meshes work.frame i ∧ x ∈ (r.meshes i).owned) ∨
    (∃ i < 256, SlotProtected d.textures work.frame i ∧ x ∈ (r.textures i).owned) ∨
    x ∈ r.targetsHeld + r.fixedHeld
  sets : ∀ set ∈ work.sets, ∃ i < 512, SlotProtected d.materials work.frame i ∧
    (r.materials i).descriptorSet = set

def Renderer.held (r : Renderer) : Multiset VkObject :=
  meshArray.held 256 r + (textureArray.held 256 r + (r.targetsHeld + r.fixedHeld))

theorem WorkCovered.held {r : Renderer} {d : SceneSlots} {extra : Multiset VkObject}
    {fence : VkHandle} {work : Work} (h : WorkCovered r d extra fence work) {x : VkObject}
    (hx : x ∈ work.reach) : (x ∈ extra ∧ work.fence = fence) ∨ x ∈ r.held := by
  simp only [Renderer.held, Multiset.mem_add]
  rcases h.reach x hx with hextra | ⟨i, hi, -, howned⟩ | ⟨i, hi, -, howned⟩ | hrest
  · exact Or.inl hextra
  · exact Or.inr (Or.inl (mem_heldBy.mpr ⟨i, hi, howned⟩))
  · exact Or.inr (Or.inr (Or.inl (mem_heldBy.mpr ⟨i, hi, howned⟩)))
  · exact Or.inr (Or.inr (Or.inr (Multiset.mem_add.mp hrest)))

structure RendererBase (r : Renderer) (d : SceneSlots) (frames : Nat) : Prop where
  scene : SceneInv r d
  targets : TargetsInv r
  accounts : r.vk.Accounts r.held
  running : ∀ work ∈ r.vk.running,
    WorkRecent r.slots r.frameCount.toNat work ∧ WorkCovered r d 0 0 work
  prompt : r.vk.Prompt (frameFences r.slots)
  frame : r.frame = r.frameCount.toNat % framesInFlight
  frames : r.frameCount.toNat ≤ frames

def Renderer.Fenced (r : Renderer) : Prop := ∀ i < framesInFlight, (r.slots i).inFlight ≠ 0

instance (r : Renderer) : Decidable r.Fenced := Nat.decidableBallLT _ _

structure RendererInv (r : Renderer) (d : SceneSlots) (frames : Nat) : Prop
    extends RendererBase r d frames where
  fenced : r.Fenced

section

variable {r s : Renderer} {d e : SceneSlots} {extra : Multiset VkObject} {fence : VkHandle}
  {frames : Nat} {work : Work}

theorem WorkCovered.keep (h : WorkCovered r d extra fence work)
    (hmeshes : ∀ i < 256, SlotProtected d.meshes work.frame i →
      SlotProtected e.meshes work.frame i ∧ s.meshes i = r.meshes i)
    (htextures : ∀ i < 256, SlotProtected d.textures work.frame i →
      SlotProtected e.textures work.frame i ∧ s.textures i = r.textures i)
    (hmaterials : ∀ i < 512, SlotProtected d.materials work.frame i →
      SlotProtected e.materials work.frame i ∧
        (s.materials i).descriptorSet = (r.materials i).descriptorSet)
    (htargets : ∀ x ∈ r.targetsHeld + r.fixedHeld, x ∈ s.targetsHeld + s.fixedHeld) :
    WorkCovered s e extra fence work where
  reach x hx := by
    refine (h.reach x hx).imp_right (Or.imp ?_ (Or.imp ?_ (htargets x)))
    · rintro ⟨i, hi, hprotected, howned⟩
      obtain ⟨hprotected', hsame⟩ := hmeshes i hi hprotected
      exact ⟨i, hi, hprotected', hsame ▸ howned⟩
    · rintro ⟨i, hi, hprotected, howned⟩
      obtain ⟨hprotected', hsame⟩ := htextures i hi hprotected
      exact ⟨i, hi, hprotected', hsame ▸ howned⟩
  sets set hset := by
    obtain ⟨i, hi, hprotected, hsame⟩ := h.sets set hset
    obtain ⟨hprotected', hsame'⟩ := hmaterials i hi hprotected
    exact ⟨i, hi, hprotected', hsame'.trans hsame⟩

theorem SlotProtected.ne_free {slots : DeferredSlots Nat} {frame i j : Nat}
    (h : SlotProtected slots frame i) (hphase : slots.phase j = .free) : i ≠ j := by
  rintro rfl
  rcases h with halive | ⟨due, hretiring, -⟩
  · cases hphase.symm.trans halive
  · cases hphase.symm.trans hretiring

theorem RendererInv.busy_meshes (h : RendererInv r d frames) (slots : List Nat)
    (hslots : ∀ frame i, r.frameCount.toNat ≤ frame + framesInFlight →
      SlotProtected d.meshes frame i → i ∉ slots) :
    ∀ work ∈ r.vk.running, ∀ x ∈ work.reach,
      x ∈ textureArray.held 256 r + (r.targetsHeld + r.fixedHeld) ∨
        ∃ j < 256, j ∉ slots ∧ x ∈ meshArray.own (meshArray.get r j) := by
  intro work hwork x hx
  obtain ⟨hrecent, hcovered⟩ := h.running work hwork
  rcases hcovered.reach x hx with ⟨hextra, -⟩ | ⟨i, hi, hprotected, howned⟩ | ⟨i, hi, -, howned⟩ |
    hrest
  · exact absurd hextra (Multiset.notMem_zero _)
  · exact Or.inr ⟨i, hi, hslots _ i hrecent.recent hprotected, howned⟩
  · exact Or.inl (Multiset.mem_add.mpr (Or.inl (mem_heldBy.mpr ⟨i, hi, howned⟩)))
  · exact Or.inl (Multiset.mem_add.mpr (Or.inr hrest))

theorem RendererInv.busy_textures (h : RendererInv r d frames) (slots : List Nat)
    (hslots : ∀ frame i, r.frameCount.toNat ≤ frame + framesInFlight →
      SlotProtected d.textures frame i → i ∉ slots) :
    ∀ work ∈ r.vk.running, ∀ x ∈ work.reach,
      x ∈ meshArray.held 256 r + (r.targetsHeld + r.fixedHeld) ∨
        ∃ j < 256, j ∉ slots ∧ x ∈ textureArray.own (textureArray.get r j) := by
  intro work hwork x hx
  obtain ⟨hrecent, hcovered⟩ := h.running work hwork
  rcases hcovered.reach x hx with ⟨hextra, -⟩ | ⟨i, hi, -, howned⟩ | ⟨i, hi, hprotected, howned⟩ |
    hrest
  · exact absurd hextra (Multiset.notMem_zero _)
  · exact Or.inl (Multiset.mem_add.mpr (Or.inl (mem_heldBy.mpr ⟨i, hi, howned⟩)))
  · exact Or.inr ⟨i, hi, hslots _ i hrecent.recent hprotected, howned⟩
  · exact Or.inl (Multiset.mem_add.mpr (Or.inr hrest))

end

end ChoonzMoba
