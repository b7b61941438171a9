import ChoonzMoba.Render.RendererScene

namespace ChoonzMoba

open Renderer Vk

/-- One of the renderer's arrays of resources, each of which a slot of a table stands for. -/
structure SlotArray (R : Type) where
  own : R → Multiset VkObject
  get : Renderer → Nat → R
  put : Renderer → Vk → (Nat → R) → Renderer
  get_put : ∀ r vk resources, get (put r vk resources) = resources
  vk_put : ∀ r vk resources, (put r vk resources).vk = vk
  put_put : ∀ r vk resources vk' resources',
    put (put r vk resources) vk' resources' = put r vk' resources'
  put_get : ∀ r, put r r.vk (get r) = r

def SlotArray.Releases {R : Type} (a : SlotArray R) (Left : R → R → Prop)
    (release : Renderer → Nat → Renderer) : Prop :=
  ∀ r i, ∃ vk resource, release r i = a.put r vk (Function.update (a.get r) i resource) ∧
    Left (a.get r i) resource ∧ a.own resource = 0 ∧
      ∀ start base mine, Working start base (a.own (a.get r i) + mine) r.vk →
        Working start base mine vk

section

variable {R : Type} (a : SlotArray R) {Left : R → R → Prop} {release : Renderer → Nat → Renderer}
  {r : Renderer} {rest : Multiset VkObject} {n : Nat}

def SlotArray.held (n : Nat) (r : Renderer) : Multiset VkObject := heldBy n fun i => a.own (a.get r i)

variable {a}

theorem SlotArray.Releases.foldl (hrelease : a.Releases Left release) (slots : List Nat)
    (hslots : ∀ i ∈ slots, i < n) (hnodup : slots.Nodup)
    (haccounts : r.vk.Accounts (a.held n r + rest))
    (hbusy : ∀ work ∈ r.vk.running, ∀ x ∈ work.reach,
      x ∈ rest ∨ ∃ j < n, j ∉ slots ∧ x ∈ a.own (a.get r j)) :
    ∃ vk resources, slots.foldl release r = a.put r vk resources ∧ Quiet r.vk vk ∧
      vk.Accounts (heldBy n (fun i => a.own (resources i)) + rest) ∧
      (∀ i, i ∉ slots → resources i = a.get r i) ∧
      ∀ i ∈ slots, Left (a.get r i) (resources i) ∧ a.own (resources i) = 0 := by
  induction slots generalizing r with
  | nil =>
    exact ⟨r.vk, a.get r, (a.put_get r).symm, .refl _, haccounts, fun _ _ => rfl,
      fun _ h => absurd h List.not_mem_nil⟩
  | cons i slots ih =>
    obtain ⟨hnot, hnodup⟩ := List.nodup_cons.mp hnodup
    have hi := hslots i List.mem_cons_self
    obtain ⟨vk, resource, heq, hleft, hnone, hworking⟩ := hrelease r i
    have huses : r.vk.Uses (heldByOthers n (fun j => a.own (a.get r j)) i + rest) := by
      intro work hwork x hx
      rcases hbusy work hwork x hx with hrest | ⟨j, hj, hne, hown⟩
      · exact Multiset.mem_add.mpr (Or.inr hrest)
      · exact Multiset.mem_add.mpr (Or.inl (mem_heldByOthers.mpr
          ⟨j, hj, fun h => hne (h ▸ List.mem_cons_self), hown⟩))
    rw [SlotArray.held, heldBy_split hi, add_assoc, ← add_zero (a.own (a.get r i))] at haccounts
    have hreleased := hworking r.vk _ 0 (.start haccounts huses)
    have hget : a.get (release r i) = Function.update (a.get r) i resource := by
      rw [heq, a.get_put]
    have hvk : (release r i).vk = vk := by rw [heq, a.vk_put]
    have hheld : (release r i).vk.Accounts (a.held n (release r i) + rest) := by
      rw [SlotArray.held, hget, heldBy_update a.own (a.get r) hi, hnone, zero_add, hvk]
      exact hreleased.done
    obtain ⟨vk', resources, heq', hquiet, haccounts', hsame, hslots'⟩ := ih
      (fun j hj => hslots j (List.mem_cons_of_mem _ hj)) hnodup hheld (by
        intro work hwork x hx
        rw [hvk] at hwork
        refine (hbusy work (hreleased.quiet.running work hwork) x hx).imp_right
          fun ⟨j, hj, hne, hown⟩ => ?_
        rw [List.mem_cons, not_or] at hne
        refine ⟨j, hj, hne.2, ?_⟩
        rw [hget, Function.update_of_ne hne.1]
        exact hown)
    refine ⟨vk', resources, ?_, hreleased.quiet.trans (hvk ▸ hquiet), haccounts', fun j hj => ?_,
      fun j hj => ?_⟩
    · rw [List.foldl_cons, heq', heq, a.put_put]
    · rw [List.mem_cons, not_or] at hj
      rw [hsame j hj.2, hget, Function.update_of_ne hj.1]
    · rcases List.mem_cons.mp hj with rfl | hj
      · rw [hsame j hnot, hget, Function.update_self]
        exact ⟨hleft, hnone⟩
      · have hne : j ≠ i := fun h => hnot (h ▸ hj)
        have hfrom := hslots' j hj
        rwa [hget, Function.update_of_ne hne] at hfrom

end

def meshArray : SlotArray MeshResource where
  own := MeshResource.owned
  get := (·.meshes)
  put r vk meshes := { r with vk := vk, meshes := meshes }
  get_put _ _ _ := rfl
  vk_put _ _ _ := rfl
  put_put _ _ _ _ _ := rfl
  put_get _ := rfl

def textureArray : SlotArray TextureResource where
  own := TextureResource.owned
  get := (·.textures)
  put r vk textures := { r with vk := vk, textures := textures }
  get_put _ _ _ := rfl
  vk_put _ _ _ := rfl
  put_put _ _ _ _ _ := rfl
  put_get _ := rfl

def materialArray : SlotArray MaterialResource where
  own _ := 0
  get := (·.materials)
  put r vk materials := { r with vk := vk, materials := materials }
  get_put _ _ _ := rfl
  vk_put _ _ _ := rfl
  put_put _ _ _ _ _ := rfl
  put_get _ := rfl

def frameSlots (own : FrameSlot → Multiset VkObject) : SlotArray FrameSlot where
  own := own
  get := (·.slots)
  put r vk slots := { r with vk := vk, slots := slots }
  get_put _ _ _ := rfl
  vk_put _ _ _ := rfl
  put_put _ _ _ _ _ := rfl
  put_get _ := rfl

theorem releaseMeshSlot_releases : meshArray.Releases (fun _ mesh => mesh.Blank) releaseMeshSlot := by
  intro r i
  refine ⟨_, _, rfl, ⟨rfl, rfl⟩, rfl, fun start base mine h => ?_⟩
  have hworking : Working start base ((r.meshes i).owned + mine) r.vk := h
  rw [MeshResource.owned, add_assoc] at hworking
  exact (hworking.free (fun h => (by cases h))).free (fun h => (by cases h))

theorem releaseTextureSlot_releases :
    textureArray.Releases (fun _ texture => texture = .blank) releaseTextureSlot := by
  intro r i
  refine ⟨_, _, rfl, rfl, rfl, fun start base mine h => ?_⟩
  have hworking : Working start base ((r.textures i).owned + mine) r.vk := h
  rw [TextureResource.owned, add_assoc] at hworking
  exact (hworking.destroy (fun h => (by cases h))).free (fun h => (by cases h))

theorem releaseMaterialSlot_releases : materialArray.Releases
    (fun old material => material.descriptorSet = old.descriptorSet) releaseMaterialSlot := by
  intro r i
  refine ⟨_, _, rfl, rfl, rfl, fun start base mine h => ?_⟩
  have hworking : Working start base (0 + mine) r.vk := h
  rwa [zero_add] at hworking

end ChoonzMoba
