import ChoonzMoba.Render.HandlePhases
import ChoonzMoba.Render.RendererFrame
import ChoonzMoba.Render.RendererTargets

namespace ChoonzMoba

open Renderer Vk

def MeshResource.owned (mesh : MeshResource) : Multiset VkObject :=
  mesh.vertex.owned .buffer + mesh.index.owned .buffer

def TextureResource.owned (texture : TextureResource) : Multiset VkObject :=
  ownedBy .imageView texture.view + texture.image.owned .image

structure MeshResource.Blank (mesh : MeshResource) : Prop where
  vertex : mesh.vertex = .null
  index : mesh.index = .null

structure MeshResource.Whole (mesh : MeshResource) : Prop where
  vertex : mesh.vertex.object ≠ 0 ∧ mesh.vertex.memory ≠ 0
  index : mesh.index.object ≠ 0 ∧ mesh.index.memory ≠ 0

def TextureResource.blank : TextureResource := ⟨.null, 0⟩

structure TextureResource.Whole (texture : TextureResource) : Prop where
  image : texture.image.object ≠ 0 ∧ texture.image.memory ≠ 0
  view : texture.view ≠ 0

theorem MeshResource.Blank.owned {mesh : MeshResource} (h : mesh.Blank) : mesh.owned = 0 := by
  rw [MeshResource.owned, h.vertex, h.index, Dedicated.owned_null, add_zero]

section

variable {vk vk' : Vk} {base mine : Multiset VkObject} {kind : VkKind}

theorem allocIf_spec (h : Working vk base mine vk') (kind : VkKind) (hkind : kind ≠ .memory)
    (ok : Bool) :
    Outcome True (fun r : Bool × Dedicated × Vk =>
        Working vk base (r.2.1.owned kind + mine) r.2.2 ∧
          (r.1 = true → ok = true ∧ r.2.1.object ≠ 0 ∧ r.2.1.memory ≠ 0) ∧
          (r.1 = false → r.2.1 = .null))
      (allocIf ok (allocDedicated kind) .null vk') := by
  rw [allocIf]
  cases ok with
  | true => exact (h.alloc kind hkind).imp id fun r hr => ⟨hr.1, fun hok => ⟨rfl, hr.2.1 hok⟩, hr.2.2⟩
  | false =>
    refine .returned ⟨?_, fun h => (by cases h), fun _ => rfl⟩
    rw [Dedicated.owned_null, zero_add]
    exact h

theorem Dedicated.mem_reach {d : Dedicated} {x : VkObject} (hwhole : d.object ≠ 0 ∧ d.memory ≠ 0)
    (hx : x ∈ d.reach kind) : x ∈ d.owned kind := by
  rw [Dedicated.owned, Multiset.mem_add]
  rcases List.mem_cons.mp hx with rfl | hx
  · exact Or.inl (Ledger.mem_ownedBy hwhole.1)
  · rw [List.mem_singleton.mp hx]
    exact Or.inr (Ledger.mem_ownedBy hwhole.2)

theorem uploadStaged_spec {reach : List VkObject} (h : Working vk base mine vk')
    (hreliable : Reliable vk.answers) (ok : Bool) (hreach : ok = true → ∀ x ∈ reach, x ∈ mine) :
    Working vk base mine (uploadStaged ok reach vk').2 ∧
      ((uploadStaged ok reach vk').1 = true → ok = true) := by
  have hasked : Working vk base mine (if ok then vk'.succeeds else (false, vk')).2 ∧
      ((if ok then vk'.succeeds else (false, vk')).1 = true → ok = true) := by
    cases ok with
    | true => exact ⟨h.ask, fun _ => rfl⟩
    | false => exact ⟨h, id⟩
  rw [uploadStaged]
  generalize (if ok then vk'.succeeds else (false, vk')) = asked at hasked
  obtain ⟨going, vk₁⟩ := asked
  obtain ⟨hworking, hgoing⟩ := hasked
  dsimp only at hworking hgoing ⊢
  split
  · exact ⟨hworking, fun h => (by cases h)⟩
  next hgo =>
  have hcommands := hworking.create .commandBuffer (fun h => (by cases h))
  rw [beginOneShot]
  generalize vk₁.create .commandBuffer = created at hcommands
  obtain ⟨commands, vk₂⟩ := created
  dsimp only at hcommands ⊢
  split
  · next hzero =>
    rw [hzero, Ledger.ownedBy_zero, zero_add] at hcommands
    exact ⟨hcommands, fun h => (by cases h)⟩
  · next hne =>
    have hok : ok = true := hgoing (by simpa using hgo)
    exact ⟨hcommands.oneShot hreliable hne (hreach hok), fun _ => hok⟩

theorem fillMesh_spec {mesh : MeshResource} (h : Working vk base mine vk')
    (hreliable : Reliable vk.answers) (hblank : mesh.Blank) :
    Outcome True (fun r : Bool × MeshResource × Vk =>
        Working vk base (r.2.1.owned + mine) r.2.2 ∧ (r.1 = true → r.2.1.Whole))
      (fillMesh mesh vk') := by
  rw [fillMesh, hblank.vertex, hblank.index]
  refine (h.alloc .buffer (fun h => (by cases h))).bind fun ⟨ok, staging, vk₁⟩
    ⟨hstaging, hstagingWhole, _⟩ => ?_
  refine (allocIf_spec hstaging .buffer (fun h => (by cases h)) ok).bind
    fun ⟨ok₁, vertex, vk₂⟩ ⟨hvertex, hwhole, hnull⟩ => ?_
  refine (allocIf_spec hvertex .buffer (fun h => (by cases h)) ok₁).bind
    fun ⟨ok₂, index, vk₃⟩ ⟨hindex, hwhole', hnull'⟩ => ?_
  dsimp only at hstagingWhole hwhole hwhole' hindex ⊢
  have hreach : ok₂ = true → ∀ x ∈ staging.reach .buffer ++ vertex.reach .buffer ++
      index.reach .buffer, x ∈ index.owned .buffer + (vertex.owned .buffer +
        (staging.owned .buffer + mine)) := by
    intro hok₂ x hx
    obtain ⟨hok₁, hindexWhole⟩ := hwhole' hok₂
    obtain ⟨hok, hvertexWhole⟩ := hwhole hok₁
    simp only [Multiset.mem_add]
    rcases List.mem_append.mp hx with hx | hx
    · rcases List.mem_append.mp hx with hx | hx
      · exact Or.inr (Or.inr (Or.inl (Dedicated.mem_reach (hstagingWhole hok) hx)))
      · exact Or.inr (Or.inl (Dedicated.mem_reach hvertexWhole hx))
    · exact Or.inl (Dedicated.mem_reach hindexWhole hx)
  obtain ⟨hupload, hok⟩ := uploadStaged_spec hindex hreliable ok₂ hreach
  generalize uploadStaged ok₂ _ vk₃ = uploaded at hupload hok
  obtain ⟨ok₃, vk₄⟩ := uploaded
  refine .returned ⟨?_, fun hdone => ?_⟩
  · refine Working.free (hupload.perm ?_) (fun h => (by cases h))
    rw [MeshResource.owned]
    abel
  · obtain ⟨hok₁, hindexWhole⟩ := hwhole' (hok hdone)
    exact ⟨(hwhole hok₁).2, hindexWhole⟩

theorem fillTexture_spec (h : Working vk base mine vk') (hreliable : Reliable vk.answers) :
    Outcome True (fun r : Bool × TextureResource × Vk =>
        Working vk base (r.2.1.owned + mine) r.2.2 ∧ (r.1 = true → r.2.1.Whole))
      (fillTexture .blank vk') := by
  rw [fillTexture]
  refine (h.alloc .image (fun h => (by cases h))).bind
    fun ⟨ok, image, vk₁⟩ ⟨himage, hwhole, hnull⟩ => ?_
  refine (allocIf_spec himage .buffer (fun h => (by cases h)) ok).bind
    fun ⟨ok₁, staging, vk₂⟩ ⟨hstaging, hwhole', _⟩ => ?_
  dsimp only at hwhole hwhole' hstaging ⊢
  have hreach : ok₁ = true → ∀ x ∈ staging.reach .buffer ++ image.reach .image,
      x ∈ staging.owned .buffer + (image.owned .image + mine) := by
    intro hok₁ x hx
    obtain ⟨hok, hstagingWhole⟩ := hwhole' hok₁
    simp only [Multiset.mem_add]
    rcases List.mem_append.mp hx with hx | hx
    · exact Or.inl (Dedicated.mem_reach hstagingWhole hx)
    · exact Or.inr (Or.inl (Dedicated.mem_reach (hwhole hok) hx))
  obtain ⟨hupload, hok⟩ := uploadStaged_spec hstaging hreliable ok₁ hreach
  generalize uploadStaged ok₁ _ vk₂ = uploaded at hupload hok
  obtain ⟨ok₂, vk₃⟩ := uploaded
  have hfreed := hupload.free (fun h => (by cases h))
  dsimp only at hok ⊢
  split
  · next hgo =>
    have hview := hfreed.create .imageView (fun h => (by cases h))
    rw [freeBuffer]
    generalize (freeDedicated .buffer vk₃ staging).create .imageView = created at hview
    obtain ⟨view, vk₄⟩ := created
    refine .returned ⟨hview.perm (add_assoc _ _ _).symm, fun hdone => ⟨?_, bne_iff_ne.mp hdone⟩⟩
    exact hwhole (hwhole' (hok hgo)).1
  · refine .returned ⟨hfreed.perm ?_, fun h => (by cases h)⟩
    rw [TextureResource.owned, TextureResource.blank, Ledger.ownedBy_zero, zero_add]

end

end ChoonzMoba
