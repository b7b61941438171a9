import ChoonzMoba.Render.RendererLifetime

namespace ChoonzMoba

open Renderer Vk

def fixedShares : List (Renderer → Multiset VkObject) :=
  [fun r => ownedBy .commandPool r.cmdPool,
    fun r => ownedBy .semaphore (r.slots 0).imageAvailable,
    fun r => ownedBy .fence (r.slots 0).inFlight,
    fun r => ownedBy .semaphore (r.slots 1).imageAvailable,
    fun r => ownedBy .fence (r.slots 1).inFlight,
    fun r => ownedBy .descriptorSetLayout r.set0Layout,
    fun r => ownedBy .descriptorSetLayout r.materialLayout,
    fun r => ownedBy .pipelineLayout r.debugPipelineLayout,
    fun r => ownedBy .pipelineLayout r.materialPipelineLayout,
    fun r => ownedBy .descriptorPool r.descPool, fun r => ownedBy .sampler r.sampler,
    fun r => (r.slots 0).ubo.owned .buffer, fun r => (r.slots 0).instanceBuf.owned .buffer,
    fun r => (r.slots 0).debugVertexBuf.owned .buffer,
    fun r => (r.slots 1).ubo.owned .buffer, fun r => (r.slots 1).instanceBuf.owned .buffer,
    fun r => (r.slots 1).debugVertexBuf.owned .buffer,
    fun r => ownedBy .pipelineCache r.pipelineCache]

theorem fixedHeld_owed (r : Renderer) : r.fixedHeld = owed fixedShares r := by
  have hslots : r.slotsHeld = ((r.slots 1).buffersOwned + (r.slots 1).syncOwned) +
      ((r.slots 0).buffersOwned + (r.slots 0).syncOwned) := by
    rw [Renderer.slotsHeld, framesInFlight, heldBy_succ, heldBy_succ, heldBy_zero fun i hi =>
      absurd hi (Nat.not_lt_zero i), FrameSlot.buffersOwned, FrameSlot.buffersOwned,
      FrameSlot.syncOwned, FrameSlot.syncOwned]
    abel
  rw [Renderer.fixedHeld, hslots, FrameSlot.buffersOwned, FrameSlot.buffersOwned,
    FrameSlot.syncOwned, FrameSlot.syncOwned, owed, fixedShares]
  simp only [List.map_cons, List.map_nil, List.sum_cons, List.sum_nil]
  abel

section

variable {r s t : Renderer} {d : SceneSlots} {k : Nat} {vk : Vk} {mine : Multiset VkObject}
  {kind : VkKind}

structure Building (r : Renderer) (d : SceneSlots) (k : Nat) : Prop where
  inv : RendererBase r d 0
  idle : r.vk.running = []
  signaled : ∀ fence, (VkKind.fence, fence) ∈ r.vk.ledger.live → r.vk.signaled fence = true
  pending : ∀ share ∈ fixedShares.drop k, share r = 0
  images : ImagesFrom (fun _ => False) r.images 0
  swapchain : r.swapchain = 0
  scCount : r.scCount = 0
  pipelines : NoPipelines r.pipelines

theorem owed_pending {shares : List (Renderer → Multiset VkObject)}
    (h : ∀ share ∈ shares, share r = 0) : owed shares r = 0 := by
  rw [owed]
  refine List.sum_eq_zero fun held hheld => ?_
  obtain ⟨share, hshare, rfl⟩ := List.mem_map.mp hheld
  exact h share hshare

def Refixed (r s : Renderer) : Prop :=
  ∃ vk cmdPool slots set0Layout materialLayout debugPipelineLayout materialPipelineLayout
      descPool sampler pipelineCache, s =
    { r with
      vk := vk
      cmdPool := cmdPool
      slots := slots
      set0Layout := set0Layout
      materialLayout := materialLayout
      debugPipelineLayout := debugPipelineLayout
      materialPipelineLayout := materialPipelineLayout
      descPool := descPool
      sampler := sampler
      pipelineCache := pipelineCache }

structure Vk.Onward (vk vk' : Vk) : Prop where
  answers : vk'.answers = vk.answers
  sets : vk.sets ≤ vk'.sets
  contents : vk'.contents = vk.contents
  refused : vk'.refused = vk.refused
  hung : vk'.hung = vk.hung
  idle : vk.running = [] → vk'.running = []

theorem Vk.Quiet.onward {vk' : Vk} (h : Quiet vk vk') : vk.Onward vk' :=
  ⟨h.answers, Nat.le_of_eq h.sets.symm, h.contents, h.refused, h.hung, h.idle⟩

theorem Vk.Onward.prompt (h : r.vk.Onward s.vk) {fences : VkHandle → Prop}
    (hprompt : r.vk.Prompt fences) (haccounts : s.vk.Accounts s.held)
    (hsignaled : ∀ fence, (VkKind.fence, fence) ∈ s.vk.ledger.live → s.vk.signaled fence = true) :
    s.vk.Prompt (frameFences s.slots) := by
  refine ⟨h.answers ▸ hprompt.reliable, fun fence hfence => ?_,
    fun hfine => ⟨?_, fun fence hfence => ?_⟩⟩
  · exact (haccounts.ledger.issued _ (Renderer.held_fence hfence)).2
  · exact h.hung.trans (hprompt.ready (h.refused ▸ hfine)).1
  · refine Or.inl (hsignaled fence ?_)
    rw [haccounts.ledger.live]
    exact Renderer.held_fence hfence

theorem Building.moved (h : Building r d k) {k' : Nat} (hs : Refixed r s)
    (hpending : ∀ share ∈ fixedShares.drop k', share s = 0) (honward : r.vk.Onward s.vk)
    (hsignaled : ∀ fence, (VkKind.fence, fence) ∈ s.vk.ledger.live → s.vk.signaled fence = true)
    (haccounts : s.vk.Accounts s.held) : Building s d k' := by
  have hidle := honward.idle h.idle
  have hprompt := honward.prompt h.inv.prompt haccounts hsignaled
  obtain ⟨⟨hscene, htargets, -, -, -, hframe, hframes⟩, -, -, -, himages, hswapchain, hcount,
    hpipelines⟩ := h
  obtain ⟨hsets, hcontents⟩ : r.vk.sets ≤ s.vk.sets ∧ s.vk.contents = r.vk.contents :=
    ⟨honward.sets, honward.contents⟩
  obtain ⟨_, _, _, _, _, _, _, _, _, _, rfl⟩ := hs
  refine ⟨⟨⟨hscene.1, hscene.2, hscene.3, hscene.4, hscene.5,
    hscene.materials.imp (fun _ _ => id) fun j _ hready => ?_, fun j hj => ?_, hscene.distinct⟩,
    ⟨?_, htargets.2⟩, haccounts, fun work hwork => ?_, hprompt, hframe, hframes⟩, hidle, hsignaled,
    hpending, himages, hswapchain, hcount, hpipelines⟩
  · exact hready.keep rfl (congrFun hcontents _) hready.known fun halive => ⟨halive, rfl⟩
  · exact Nat.le_trans (hscene.sets j hj) hsets
  · have hnone : ImagesFrom (fun _ => False) r.images r.scCount := hcount ▸ himages
    exact hnone.mono fun _ hfalse => hfalse.elim
  · replace hidle : _ = [] := hidle
    rw [hidle] at hwork
    cases hwork

structure Makes (k : Nat) (mine : Multiset VkObject) (r s : Renderer) : Prop where
  refixed : Refixed r s
  made : (fixedShares.take (k + 1)).map (fun share => share s) =
    (fixedShares.take k).map (fun share => share r) ++ [mine]
  pending : (fixedShares.drop (k + 1)).map (fun share => share s) =
    (fixedShares.drop (k + 1)).map fun share => share r

theorem owed_take_drop (shares : List (Renderer → Multiset VkObject)) (k : Nat) (r : Renderer) :
    owed shares r = owed (shares.take k) r + owed (shares.drop k) r := by
  rw [owed, owed, owed, ← List.sum_append, ← List.map_append, List.take_append_drop]

theorem Refixed.held (hs : Refixed r s) (hfixed : s.fixedHeld = mine + r.fixedHeld) :
    s.held = mine + r.held := by
  obtain ⟨vk, cmdPool, slots, set0Layout, materialLayout, debugPipelineLayout,
    materialPipelineLayout, descPool, sampler, pipelineCache, rfl⟩ := hs
  rw [Renderer.held, hfixed, Renderer.held]
  show meshArray.held 256 r + (textureArray.held 256 r + (r.targetsHeld + (mine + r.fixedHeld))) = _
  abel

theorem Building.makes (h : Building r d k) (hs : Makes k mine r s) :
    (∀ share ∈ fixedShares.drop (k + 1), share s = 0) ∧ s.held = mine + r.held := by
  have hpending : ∀ share ∈ fixedShares.drop (k + 1), share s = 0 := by
    intro share hshare
    have hsame := List.map_inj_left.mp hs.pending share hshare
    rw [hsame]
    refine h.pending share (List.drop_subset_drop_left _ (Nat.le_succ k) hshare)
  refine ⟨hpending, hs.refixed.held ?_⟩
  have hmade : owed (fixedShares.take (k + 1)) s = mine + owed (fixedShares.take k) r := by
    rw [owed, hs.made, List.sum_append, List.sum_singleton, add_comm]
    rfl
  rw [fixedHeld_owed, fixedHeld_owed, owed_take_drop fixedShares (k + 1) s, hmade,
    owed_pending hpending, owed_take_drop fixedShares k r, owed_pending h.pending, add_zero, add_zero]

theorem Building.made (h : Building r d k) (hs : Makes k mine r s)
    (hworking : Working r.vk r.held mine s.vk)
    (hmine : ∀ fence, (VkKind.fence, fence) ∈ mine → s.vk.signaled fence = true) :
    Building s d (k + 1) := by
  obtain ⟨hpending, hheld⟩ := h.makes hs
  refine h.moved hs.refixed hpending hworking.quiet.onward (fun fence hlive => ?_) ?_
  · rw [hworking.accounts.ledger.live] at hlive
    rcases Multiset.mem_add.mp hlive with hnew | hold
    · exact hmine fence hnew
    · rw [(hworking.quiet.fences fence (h.inv.accounts.ledger.issued _ hold).2).1]
      refine h.signaled fence ?_
      rw [h.inv.accounts.ledger.live]
      exact hold
  · rw [hheld]
    exact hworking.accounts

end

end ChoonzMoba
