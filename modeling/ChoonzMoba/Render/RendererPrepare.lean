import ChoonzMoba.Render.BatchSpec
import ChoonzMoba.Render.RendererMaterials

namespace ChoonzMoba

open Renderer Vk

structure DrawReady (r : Renderer) (d : SceneSlots) (mesh : MeshHandle) (material : MaterialHandle) :
    Prop where
  meshAlive : HandleAlive d.meshes mesh.h
  materialAlive : HandleAlive d.materials material.h
  textureAlive : HandleAlive d.textures (r.materials (handleIndex material.h)).texture.h

structure Drawable (r : Renderer) (d : SceneSlots) (frames : Nat) : Prop where
  inv : RendererInv r d frames
  ready : ∀ batch ∈ r.batchOutput.batches, DrawReady r d batch.mesh batch.material

section

variable {r s : Renderer} {d e : SceneSlots} {frames : Nat}

theorem resolveDraw_spec (h : SceneInv r d) (item : DrawItem) (pipelineKey : UInt32) :
    (resolveDraw r item pipelineKey).2.2 = r ∧
      ((resolveDraw r item pipelineKey).1 = true → DrawReady r d item.mesh item.material) := by
  rw [resolveDraw]
  split
  · exact ⟨rfl, fun h => (by cases h)⟩
  · next hvalid =>
    simp only [not_or, Bool.not_eq_true', Bool.not_eq_false] at hvalid
    obtain ⟨hmesh, hmaterial, htexture⟩ := hvalid
    exact ⟨rfl, fun _ => ⟨h.meshTable.valid_iff.mp hmesh, h.materialTable.valid_iff.mp hmaterial,
      h.textureTable.valid_iff.mp htexture⟩⟩

theorem resolveItems_ready (h : SceneInv r d) (i : Nat) (items : List DrawItem) :
    (resolveItems resolveDraw r i items).2 = r ∧
      ∀ sorted, (resolveItems resolveDraw r i items).1 = some sorted →
        ∀ src ∈ sorted, DrawReady r d src.item.mesh src.item.material := by
  induction items generalizing i with
  | nil =>
    refine ⟨rfl, fun sorted hsorted src hsrc => ?_⟩
    cases hsorted
    cases hsrc
  | cons item items ih =>
    obtain ⟨hsame, hready⟩ := resolveDraw_spec h item 0
    obtain ⟨hrest, hall⟩ := ih (i + 1)
    rw [resolveItems]
    generalize resolveDraw r item 0 = resolved at hsame hready
    obtain ⟨ok, pipelineKey, user⟩ := resolved
    dsimp only at hsame hready
    subst hsame
    cases ok with
    | false => exact ⟨rfl, fun sorted hsorted => (by cases hsorted)⟩
    | true =>
      refine ⟨hrest, fun sorted hsorted src hsrc => ?_⟩
      obtain ⟨tail, htail, rfl⟩ := Option.map_eq_some_iff.mp hsorted
      rcases List.mem_cons.mp hsrc with rfl | hsrc
      · exact hready rfl
      · exact hall tail htail src hsrc

theorem appendBatch_forall {P : MeshHandle → MaterialHandle → Prop} {batches : List RenderBatch}
    {src : SortItem} (i : Nat) (hbatches : ∀ batch ∈ batches, P batch.mesh batch.material)
    (hsrc : P src.item.mesh src.item.material) :
    ∀ batch ∈ appendBatch batches i src, P batch.mesh batch.material := by
  intro batch hbatch
  rw [appendBatch] at hbatch
  split at hbatch
  · rcases List.mem_append.mp hbatch with hbatch | hbatch
    · exact hbatches batch hbatch
    · rw [List.mem_singleton.mp hbatch]
      exact hsrc
  · induction batches using List.reverseRecOn with
    | nil => cases hbatch
    | append_singleton batches last _ =>
      rw [List.modifyLast_concat] at hbatch
      rcases List.mem_append.mp hbatch with hbatch | hbatch
      · exact hbatches batch (List.mem_append_left _ hbatch)
      · rw [List.mem_singleton.mp hbatch]
        exact hbatches last (List.mem_append_right _ (List.mem_singleton_self _))

theorem placeInstances_forall {P : MeshHandle → MaterialHandle → Prop}
    (sorted : List (SortItem × Nat)) (arrays : List RenderInstanceData × List RenderBatch)
    (harrays : ∀ batch ∈ arrays.2, P batch.mesh batch.material)
    (hsorted : ∀ src ∈ sorted, P src.1.item.mesh src.1.item.material) :
    ∀ batch ∈ (sorted.foldl placeInstance arrays).2, P batch.mesh batch.material := by
  induction sorted generalizing arrays with
  | nil => exact harrays
  | cons src sorted ih =>
    refine ih _ ?_ fun src' hsrc' => hsorted src' (List.mem_cons_of_mem _ hsrc')
    exact appendBatch_forall src.2 harrays (hsorted src List.mem_cons_self)

theorem RendererInv.between_frames (h : RendererInv r d frames) (frameArenas : Nat → Arena)
    (drawItems : List DrawItem) (batchOutput : RenderBatchOutput) (fbWidth fbHeight : Int)
    (minimized frameBegun : Bool) :
    RendererInv { r with
      frameArenas := frameArenas
      drawItems := drawItems
      batchOutput := batchOutput
      pendingFbWidth := fbWidth
      pendingFbHeight := fbHeight
      pendingMinimized := minimized
      frameBegun := frameBegun } d frames := by
  obtain ⟨⟨hscene, htargets, haccounts, hrunning, hprompt, hframe, hframes⟩, hfenced⟩ := h
  refine ⟨⟨⟨hscene.1, hscene.2, hscene.3, hscene.4, hscene.5,
    hscene.materials.imp (fun _ _ => id) fun j _ hready => ⟨hready.1, hready.2, hready.3⟩,
    hscene.sets, hscene.distinct⟩, ⟨htargets.1, htargets.2⟩, haccounts, fun work hwork => ?_,
    hprompt, hframe, hframes⟩, hfenced⟩
  obtain ⟨hrecent, hcovered⟩ := hrunning work hwork
  exact ⟨hrecent, hcovered.1, hcovered.2⟩

theorem RendererInv.beginFrame (h : RendererInv r d frames) (fbWidth fbHeight : Int)
    (minimized : Bool) : Outcome True (fun out => RendererInv out.2 d frames)
      (rendererBeginFrame r fbWidth fbHeight minimized) := by
  rw [rendererBeginFrame]
  split
  · exact .returned h
  · refine Outcome.bind (.any _) fun ⟨arena, _⟩ _ => Outcome.bind (.any _) fun ⟨arena', _⟩ _ => ?_
    exact .returned (h.between_frames _ _ _ _ _ _ _)

theorem RendererInv.submit (h : RendererInv r d frames) (items : Option (List DrawItem))
    (count : UInt32) : RendererInv (rendererSubmit r items count).2 d frames := by
  rw [rendererSubmit]
  split
  · exact h
  · exact h.between_frames _ _ _ _ _ _ _

variable {qsort : (SortItem → SortItem → Int) → List SortItem → List SortItem}

theorem RendererInv.prepare (h : RendererInv r d frames) (hsort : Comparator.Sorts qsort) :
    Outcome True (fun out => RendererInv out.2 d frames ∧ (out.1 = true → Drawable out.2 d frames))
      (prepareSubmittedFrame qsort r) := by
  rw [prepareSubmittedFrame]
  split
  · exact .returned ⟨h, fun h => (by cases h)⟩
  refine Outcome.map (P := fun out => out.2.2.2 = r ∧ (out.1 = true →
    ∀ batch ∈ out.2.1.batches, DrawReady r d batch.mesh batch.material)) ?_ ?_
  · rw [renderBuildBatches]
    split
    · exact .returned ⟨rfl, fun h => (by cases h)⟩
    split
    · exact .returned ⟨rfl, fun _ batch hbatch => absurd hbatch List.not_mem_nil⟩
    obtain ⟨hsame, hready⟩ := resolveItems_ready h.scene 0 r.drawItems
    generalize resolveItems resolveDraw r 0 r.drawItems = resolved at hsame hready
    obtain ⟨sorted, user⟩ := resolved
    dsimp only at hsame hready
    cases pushBatchArrays (r.frameArenas r.frame) r.drawItems.length with
    | none => exact .aborted trivial
    | some pushed =>
      refine .returned ?_
      cases sorted with
      | none => exact ⟨hsame, fun h => (by cases h)⟩
      | some sorted =>
        refine ⟨hsame, fun _ => placeInstances_forall _ _ (fun batch hbatch => by cases hbatch) ?_⟩
        intro src hsrc
        refine hready sorted rfl src.1 ?_
        exact (hsort.perm _ _ compareSortItems_ranksBy.consistent).subset
          (List.fst_mem_of_mem_zipIdx hsrc)
  · rintro ⟨ok, output, arena, user⟩ ⟨hsame, hready⟩
    dsimp only at hsame hready
    subst hsame
    have hinv := h.between_frames (Function.update user.frameArenas user.frame arena) user.drawItems
      output user.pendingFbWidth user.pendingFbHeight user.pendingMinimized false
    exact ⟨hinv, fun hok => ⟨hinv, fun batch hbatch =>
      ⟨(hready hok batch hbatch).1, (hready hok batch hbatch).2, (hready hok batch hbatch).3⟩⟩⟩

end

end ChoonzMoba
