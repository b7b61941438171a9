import ChoonzMoba.Render.RendererResources
import ChoonzMoba.Render.VkSpec

namespace ChoonzMoba

open Renderer Vk

def ScImage.owned (image : ScImage) : Multiset VkObject :=
  ownedBy .imageView image.depthView + (image.depth.owned .image +
    (ownedBy .imageView image.view + ownedBy .semaphore image.renderFinished))

def pipelinesHeld (pipelines : Nat → VkHandle) : Multiset VkObject :=
  heldBy pipelineCount fun i => ownedBy .pipeline (pipelines i)

def imagesHeld (images : Nat → ScImage) : Multiset VkObject :=
  heldBy maxScImages fun i => (images i).owned

def NoPipelines (pipelines : Nat → VkHandle) : Prop := ∀ i < pipelineCount, pipelines i = 0

def frameFences (slots : Nat → FrameSlot) (fence : VkHandle) : Prop :=
  fence ≠ 0 ∧ ∃ i < framesInFlight, (slots i).inFlight = fence

-- images from `count` on hold nothing, and what drew to an image did so with one of the fences
structure ImagesFrom (fences : VkHandle → Prop) (images : Nat → ScImage) (count : Nat) : Prop where
  count_le : count ≤ maxScImages
  blank : ∀ i, count ≤ i → (images i).owned = 0
  fence : ∀ i, (images i).inFlight ≠ 0 → fences (images i).inFlight

section

variable {r s : Renderer} {rest : Multiset VkObject} {i : Nat} {fences : VkHandle → Prop}

theorem ImagesFrom.mono {fences' : VkHandle → Prop} {images : Nat → ScImage} {count : Nat}
    (h : ImagesFrom fences images count) (himp : ∀ fence, fences fence → fences' fence) :
    ImagesFrom fences' images count :=
  ⟨h.count_le, h.blank, fun i hne => himp _ (h.fence i hne)⟩

theorem pipelinesHeld_none {pipelines : Nat → VkHandle} (h : NoPipelines pipelines) :
    pipelinesHeld pipelines = 0 :=
  heldBy_zero fun i hi => by rw [h i hi, Ledger.ownedBy_zero]

structure Repiped (r : Renderer) (rest : Multiset VkObject) (s : Renderer) : Prop where
  only : ∃ vk pipelines, s = { r with vk := vk, pipelines := pipelines }
  quiet : Quiet r.vk s.vk
  accounts : s.vk.Accounts (pipelinesHeld s.pipelines + rest)

theorem Repiped.uses (h : Repiped r rest s) (huses : r.vk.Uses rest) : s.vk.Uses rest :=
  h.quiet.uses huses

theorem Repiped.change (h : Repiped r rest s) {vk : Vk} (pipeline : VkHandle)
    (hi : i < pipelineCount) (hquiet : Quiet s.vk vk)
    (haccounts : vk.Accounts (ownedBy .pipeline pipeline +
      (heldByOthers pipelineCount (fun j => ownedBy .pipeline (s.pipelines j)) i + rest))) :
    Repiped r rest { s with vk := vk, pipelines := Function.update s.pipelines i pipeline } where
  only := by
    obtain ⟨vk', pipelines, rfl⟩ := h.only
    exact ⟨_, _, rfl⟩
  quiet := h.quiet.trans hquiet
  accounts := by
    show vk.Accounts (pipelinesHeld (Function.update s.pipelines i pipeline) + rest)
    rw [pipelinesHeld, heldBy_update (ownedBy VkKind.pipeline) s.pipelines hi, add_assoc]
    exact haccounts

theorem destroyPipelines_spec (h : r.vk.Accounts (pipelinesHeld r.pipelines + rest))
    (huses : r.vk.Uses rest) :
    Repiped r rest (destroyPipelines r) ∧ NoPipelines (destroyPipelines r).pipelines := by
  refine Loop.forRange_invariant
    (fun k (s : Renderer) => Repiped r rest s ∧ ∀ i < k, s.pipelines i = 0)
    ⟨⟨⟨_, _, rfl⟩, .refl _, h⟩, fun i hi => absurd hi (Nat.not_lt_zero i)⟩ fun k s hk hs => ?_
  obtain ⟨hs, hzero⟩ := hs
  have haccounts := hs.accounts
  rw [pipelinesHeld, heldBy_split hk, add_assoc] at haccounts
  have hrest := (hs.uses huses).le (Multiset.le_add_left rest
    (heldByOthers pipelineCount (fun j => ownedBy .pipeline (s.pipelines j)) k))
  refine ⟨hs.change 0 hk (destroy_quiet _ _ _) ?_, fun i hi => ?_⟩
  · rw [Ledger.ownedBy_zero, zero_add]
    exact haccounts.destroy hrest (fun h => (by cases h))
  · by_cases heq : i = k
    · subst heq
      exact Function.update_self _ _ _
    · rw [show (_ : Renderer).pipelines i = s.pipelines i from Function.update_of_ne heq _ _]
      exact hzero i (by omega)

theorem loadShaderModule_spec {vk vk' : Vk} {base mine : Multiset VkObject}
    (h : Working vk base mine vk') : Working vk base
      (ownedBy .shaderModule (loadShaderModule vk').1 + mine) (loadShaderModule vk').2 := by
  rw [loadShaderModule]
  dsimp only
  split
  · exact h.ask.create .shaderModule (fun h => (by cases h))
  · rw [Ledger.ownedBy_zero, zero_add]
    exact h.ask

theorem buildPipeline_spec (h : Repiped r rest s) (huses : r.vk.Uses rest) (hi : i < pipelineCount)
    (hzero : s.pipelines i = 0) :
    ∃ ok t, buildPipeline i s = some (ok, t) ∧ Repiped r rest t ∧
      (∀ j, j ≠ i → t.pipelines j = s.pipelines j) ∧ ok = (t.pipelines i != 0) := by
  have haccounts := h.accounts
  rw [pipelinesHeld, heldBy_split hi, hzero, Ledger.ownedBy_zero, zero_add,
    ← zero_add (_ + rest)] at haccounts
  have huses' := (h.uses huses).le (Multiset.le_add_left rest
    (heldByOthers pipelineCount (fun j => ownedBy .pipeline (s.pipelines j)) i))
  have hvert := loadShaderModule_spec (.start haccounts huses')
  rw [buildPipeline]
  generalize loadShaderModule s.vk = loaded at hvert
  obtain ⟨vert, vk₁⟩ := loaded
  have hfrag := loadShaderModule_spec hvert
  dsimp only at hfrag ⊢
  generalize loadShaderModule vk₁ = loaded at hfrag
  obtain ⟨frag, vk₂⟩ := loaded
  dsimp only at hfrag ⊢
  split
  · have hdone := (((hfrag.perm (add_left_comm _ _ _)).destroy (fun h => (by cases h))).destroy
      (fun h => (by cases h)))
    refine ⟨_, _, rfl, ?_, fun _ _ => rfl, ?_⟩
    swap
    · show false = (s.pipelines i != 0)
      rw [hzero]
      rfl
    have hsame : Function.update s.pipelines i 0 = s.pipelines := by
      rw [← hzero, Function.update_eq_self]
    have hchange := h.change 0 hi hdone.quiet
      (by rw [Ledger.ownedBy_zero]; exact hdone.accounts)
    rwa [hsame] at hchange
  · have hpipeline := hfrag.create .pipeline (fun h => (by cases h))
    generalize vk₂.create .pipeline = created at hpipeline
    obtain ⟨pipeline, vk₃⟩ := created
    dsimp only at hpipeline ⊢
    have hdone := ((hpipeline.perm (show _ = ownedBy .shaderModule vert + (ownedBy .shaderModule frag +
      (ownedBy .pipeline pipeline + 0)) by abel)).destroy (fun h => (by cases h))).destroy
        (fun h => (by cases h))
    have hheld := hdone.accounts
    rw [add_zero] at hheld
    refine ⟨_, _, rfl, h.change pipeline hi hdone.quiet hheld,
      fun j hne => Function.update_of_ne hne _ _, ?_⟩
    show _ = (Function.update s.pipelines i pipeline i != 0)
    rw [Function.update_self]

theorem buildPipelines_spec (h : Repiped r rest s) (huses : r.vk.Uses rest)
    (hnone : NoPipelines s.pipelines) :
    ∃ ok t, buildPipelines s = some (ok, { t with
        pipelinesFormat := if ok then t.scFormat else t.pipelinesFormat }) ∧ Repiped r rest t ∧
      (ok = true → t.pipelines 0 ≠ 0) ∧ (t.pipelines 0 = 0 → NoPipelines t.pipelines) := by
  have hbuild : Guarded.Spec False (fun t => Repiped r rest t ∧ NoPipelines t.pipelines)
      (fun t => Repiped r rest t ∧ t.pipelines 0 ≠ 0)
      (fun t => Repiped r rest t ∧ (t.pipelines 0 = 0 → NoPipelines t.pipelines))
      (Guarded.upTo buildPipeline pipelineCount) := by
    refine (Guarded.Spec.upTo (fun k t => Repiped r rest t ∧
      (∀ i < pipelineCount, k ≤ i → t.pipelines i = 0) ∧ (k ≠ 0 → t.pipelines 0 ≠ 0)) ?_).imp
      (fun t ht => ⟨ht.1, fun i hi _ => ht.2 i hi, fun hne => absurd rfl hne⟩)
      (fun t ht => ⟨ht.1, ht.2.2 (by decide)⟩) (fun t ht => ht)
    rintro i hi t ⟨ht, hfrom, hfirst⟩
    obtain ⟨ok, u, heq, hu, hsame, hok⟩ := buildPipeline_spec ht huses hi (hfrom i hi (Nat.le_refl i))
    rw [heq]
    refine .returned ?_
    cases ok with
    | false =>
      have hmade : u.pipelines i = 0 := by
        by_contra hne
        exact Bool.false_ne_true (hok.trans (bne_iff_ne.mpr hne))
      refine ⟨hu, fun hzero j hj => ?_⟩
      by_cases hji : j = i
      · rw [hji, hmade]
      · rw [hsame j hji]
        refine hfrom j hj (Nat.le_of_not_lt fun hlt => ?_)
        have hne : i ≠ 0 := by omega
        rw [hsame 0 hne.symm] at hzero
        exact hfirst hne hzero
    | true =>
      refine ⟨hu, fun j hj hlt => ?_, fun _ => ?_⟩
      · rw [hsame j (by omega)]
        exact hfrom j hj (by omega)
      · by_cases hzero : i = 0
        · subst hzero
          exact bne_iff_ne.mp hok.symm
        · rw [hsame 0 (Ne.symm hzero)]
          exact hfirst hzero
  obtain ⟨⟨ok, t⟩, heq, ht⟩ := (hbuild s ⟨h, hnone⟩).total id
  rw [buildPipelines, Guarded.andThen, heq]
  cases ok with
  | true => exact ⟨true, t, rfl, ht.1, fun _ => ht.2, fun hzero => absurd hzero ht.2⟩
  | false => exact ⟨false, t, rfl, ht.1, fun h => (by cases h), ht.2⟩

structure Reimaged (r : Renderer) (rest : Multiset VkObject) (s : Renderer) : Prop where
  only : ∃ vk images, s = { r with vk := vk, images := images }
  quiet : Quiet r.vk s.vk
  accounts : s.vk.Accounts (imagesHeld s.images + rest)

theorem Reimaged.change (h : Reimaged r rest s) {vk : Vk} {image : ScImage}
    (hi : i < maxScImages) (hquiet : Quiet s.vk vk)
    (haccounts : vk.Accounts (image.owned +
      (heldByOthers maxScImages (fun j => (s.images j).owned) i + rest))) :
    Reimaged r rest ((s.withVk vk).setImage i image) where
  only := by
    obtain ⟨vk', images, rfl⟩ := h.only
    exact ⟨_, _, rfl⟩
  quiet := h.quiet.trans hquiet
  accounts := by
    show vk.Accounts (imagesHeld (Function.update s.images i image) + rest)
    rw [imagesHeld, heldBy_update ScImage.owned s.images hi, add_assoc]
    exact haccounts

theorem destroyScImage_spec (h : Reimaged r rest s) (huses : r.vk.Uses rest)
    (hi : i < maxScImages) :
    Reimaged r rest (destroyScImage s i) ∧ ((destroyScImage s i).images i).owned = 0 ∧
      (∀ j, j ≠ i → (destroyScImage s i).images j = s.images j) ∧
      ((destroyScImage s i).images i).inFlight = (s.images i).inFlight := by
  have haccounts := h.accounts
  rw [imagesHeld, heldBy_split hi, add_assoc] at haccounts
  have huses' := (h.quiet.uses huses).le (Multiset.le_add_left rest
    (heldByOthers maxScImages (fun j => (s.images j).owned) i))
  have hworking := Working.start haccounts huses'
  rw [ScImage.owned] at hworking
  have hdone := ((hworking.destroy (fun h => (by cases h))).free (fun h => (by cases h))).destroy
    (fun h => (by cases h))
  rw [← add_zero (ownedBy VkKind.semaphore _)] at hdone
  have hdone' := hdone.destroy (fun h => (by cases h))
  refine ⟨h.change hi hdone'.quiet hdone'.accounts, ?_, fun j hne => ?_, ?_⟩
  · show (Function.update s.images i _ i).owned = 0
    rw [Function.update_self]
    rfl
  · exact Function.update_of_ne hne _ _
  · show (Function.update s.images i _ i).inFlight = _
    rw [Function.update_self]

theorem destroySwapchain_spec (hfrom : ImagesFrom fences r.images r.scCount)
    (h : r.vk.Accounts (imagesHeld r.images + (ownedBy .swapchain r.swapchain + rest)))
    (huses : r.vk.Uses rest) :
    ∃ vk images, destroySwapchain r =
        { r with vk := vk, images := images, swapchain := 0, scCount := 0 } ∧
      Quiet r.vk vk ∧ vk.Accounts rest ∧ ImagesFrom fences images 0 := by
  have hloop := Loop.forRange_invariant (n := r.scCount) (f := destroyScImage)
    (fun k (s : Renderer) => Reimaged r (ownedBy .swapchain r.swapchain + rest) s ∧
      (∀ i < k, (s.images i).owned = 0) ∧ (∀ i, k ≤ i → s.images i = r.images i) ∧
      ∀ i, (s.images i).inFlight = (r.images i).inFlight)
    (s := r) ⟨⟨⟨_, _, rfl⟩, .refl _, h⟩, fun i hi => absurd hi (Nat.not_lt_zero i), fun _ _ => rfl,
      fun _ => rfl⟩ ?_
  · obtain ⟨hreimaged, hbelow, habove, hslots⟩ := hloop
    rw [destroySwapchain]
    generalize Loop.forRange r.scCount destroyScImage r = s at hreimaged hbelow habove hslots
    have hblank : ∀ i, (s.images i).owned = 0 := by
      intro i
      by_cases hlt : i < r.scCount
      · exact hbelow i hlt
      · rw [habove i (Nat.le_of_not_lt hlt)]
        exact hfrom.blank i (Nat.le_of_not_lt hlt)
    obtain ⟨⟨vk, images, rfl⟩, hquiet, haccounts⟩ := hreimaged
    rw [imagesHeld, heldBy_zero fun i _ => hblank i, zero_add] at haccounts
    refine ⟨_, _, rfl, hquiet.trans (destroy_quiet _ _ _),
      haccounts.destroy (hquiet.uses huses) (fun h => (by cases h)), Nat.zero_le _,
      fun i _ => hblank i, fun i hne => ?_⟩
    have hsame := hslots i
    dsimp only at hsame hne
    rw [hsame] at hne ⊢
    exact hfrom.fence i hne
  · rintro i s hi ⟨hreimaged, hbelow, habove, hslots⟩
    obtain ⟨hnext, hblank, hsame, hslot⟩ := destroyScImage_spec hreimaged
      (huses.le (Multiset.le_add_left rest _)) (Nat.lt_of_lt_of_le hi hfrom.count_le)
    refine ⟨hnext, fun j hj => ?_, fun j hj => ?_, fun j => ?_⟩
    · by_cases hji : j = i
      · rw [hji]
        exact hblank
      · rw [hsame j hji]
        exact hbelow j (by omega)
    · rw [hsame j (by omega)]
      exact habove j (by omega)
    · by_cases hji : j = i
      · rw [hji, hslot]
        exact hslots i
      · rw [hsame j hji]
        exact hslots j

theorem createScImage_spec (h : Reimaged r rest s) (huses : r.vk.Uses rest) (hi : i < maxScImages)
    (hblank : (s.images i).owned = 0) :
    Outcome True (fun t => Reimaged r rest t ∧ (∀ j, j ≠ i → t.images j = s.images j) ∧
      (t.images i).inFlight = 0) (createScImage s i) := by
  have haccounts := h.accounts
  rw [imagesHeld, heldBy_split hi, hblank, zero_add, ← zero_add (_ + rest)] at haccounts
  have huses' := (h.quiet.uses huses).le (Multiset.le_add_left rest
    (heldByOthers maxScImages (fun j => (s.images j).owned) i))
  have hview := (Working.start haccounts huses').create .imageView (fun h => (by cases h))
  rw [createScImage]
  generalize s.vk.create .imageView = created at hview
  obtain ⟨view, vk₁⟩ := created
  dsimp only at hview ⊢
  split
  · exact .aborted trivial
  refine (hview.alloc .image (fun h => (by cases h))).bind fun ⟨ok, depth, vk₂⟩ hdepth => ?_
  have hdepthView := hdepth.1.create .imageView (fun h => (by cases h))
  dsimp only at hdepthView ⊢
  generalize vk₂.create .imageView = created at hdepthView
  obtain ⟨depthView, vk₃⟩ := created
  dsimp only at hdepthView ⊢
  split
  · exact .aborted trivial
  have hfinished := hdepthView.create .semaphore (fun h => (by cases h))
  generalize vk₃.create .semaphore = created at hfinished
  obtain ⟨renderFinished, vk₄⟩ := created
  have hdone := (hfinished.perm (show _ = ScImage.owned ⟨view, depth, depthView, renderFinished, 0⟩
    by rw [ScImage.owned]; abel)).accounts
  refine .returned ⟨h.change hi hfinished.quiet hdone, fun j hne => Function.update_of_ne hne _ _, ?_⟩
  show (Function.update s.images i _ i).inFlight = 0
  rw [Function.update_self]

structure Retargeted (r : Renderer) (vk : Vk) (rest : Multiset VkObject) (t : Renderer) : Prop where
  only : ∃ vk swapchain scFormat scExtent scCount images depthFormat needRecreate scCanTransferSrc
      pipelines pipelinesFormat, t =
    { r with
      vk := vk
      swapchain := swapchain
      scFormat := scFormat
      scExtent := scExtent
      scCount := scCount
      images := images
      depthFormat := depthFormat
      needRecreate := needRecreate
      scCanTransferSrc := scCanTransferSrc
      pipelines := pipelines
      pipelinesFormat := pipelinesFormat }
  quiet : Quiet vk t.vk
  accounts : t.vk.Accounts (imagesHeld t.images +
    (ownedBy .swapchain t.swapchain + (pipelinesHeld t.pipelines + rest)))
  images : ImagesFrom (frameFences t.slots) t.images t.scCount
  pipelines : t.pipelines 0 = 0 → NoPipelines t.pipelines

theorem ImagesFrom.held {images : Nat → ScImage} (h : ImagesFrom fences images 0) :
    imagesHeld images = 0 :=
  heldBy_zero fun i _ => h.blank i (Nat.zero_le i)

theorem createScImages_spec (fences : VkHandle → Prop) (rest : Multiset VkObject)
    (hfrom : ImagesFrom fences r.images 0) (h : r.vk.Accounts rest) (huses : r.vk.Uses rest) :
    Outcome True (fun t => ∃ vk images count,
        t = (true, { r with vk := vk, images := images, scCount := count }) ∧ Quiet r.vk vk ∧
          vk.Accounts (imagesHeld images + rest) ∧ ImagesFrom fences images count)
      (createScImages r) := by
  rw [createScImages]
  dsimp only
  split
  · exact .aborted trivial
  next hmax =>
  generalize hcount : r.vk.ask.1.number = count at hmax
  generalize hstart : ({ r with vk := r.vk.ask.2, scCount := count } : Renderer) = s
  have hquiet : Quiet r.vk s.vk := hstart ▸ (Quiet.refl r.vk).ask
  have himages : s.images = r.images := hstart ▸ rfl
  have haccounts : s.vk.Accounts (imagesHeld s.images + rest) := by
    rw [himages, hfrom.held, zero_add]
    exact hstart ▸ h.ask
  refine Outcome.map (P := fun t => Reimaged s rest t ∧
    (∀ i, count ≤ i → (t.images i).owned = 0) ∧
    ∀ i, (t.images i).inFlight ≠ 0 → fences (t.images i).inFlight) ?_ ?_
  · refine (Outcome.forRangeM (fun k t => Reimaged s rest t ∧
      (∀ i, k ≤ i → (t.images i).owned = 0) ∧
      ∀ i, (t.images i).inFlight ≠ 0 → fences (t.images i).inFlight)
      ⟨⟨⟨_, _, rfl⟩, .refl _, haccounts⟩, fun i _ => ?_, fun i hne => ?_⟩ ?_)
    · rw [himages]
      exact hfrom.blank i (Nat.zero_le i)
    · rw [himages] at hne ⊢
      exact hfrom.fence i hne
    · rintro i t hi ⟨ht, hblank, hslots⟩
      have hlt : i < maxScImages := by omega
      refine (createScImage_spec ht (hquiet.uses huses) hlt (hblank i (Nat.le_refl i))).imp id
        fun u ⟨hu, hsame, hnone⟩ => ⟨hu, fun j hle => ?_, fun j hne => ?_⟩
      · rw [hsame j (by omega)]
        exact hblank j (by omega)
      · by_cases hji : j = i
        · rw [hji, hnone] at hne
          exact absurd rfl hne
        · rw [hsame j hji] at hne ⊢
          exact hslots j hne
  · rintro t ⟨⟨⟨vk, images, rfl⟩, hquiet', haccounts'⟩, hblank, hslots⟩
    subst hstart
    exact ⟨vk, images, count, rfl, hquiet.trans hquiet', haccounts', Nat.le_of_not_lt hmax, hblank,
      hslots⟩

theorem createSwapchain_spec {width height : UInt32} (rest : Multiset VkObject)
    (hfrom : ImagesFrom (frameFences r.slots) r.images 0) (hswapchain : r.swapchain = 0)
    (hcount : r.scCount = 0)
    (hpipelines : r.pipelines 0 = 0 → NoPipelines r.pipelines)
    (h : r.vk.Accounts (pipelinesHeld r.pipelines + rest))
    (huses : r.vk.Uses (pipelinesHeld r.pipelines + rest)) :
    Outcome True (fun t => Retargeted r r.vk rest t.2 ∧ t.2.pipelines = r.pipelines)
      (createSwapchain width height r) := by
  rw [← zero_add (pipelinesHeld _ + rest)] at h
  have hasked := (Working.start h huses).ask
  have hnone : imagesHeld r.images = 0 := hfrom.held
  have hcounted : ImagesFrom (frameFences r.slots) r.images r.scCount := hcount ▸ hfrom
  rw [createSwapchain]
  dsimp only
  split
  · refine .returned ⟨⟨⟨_, _, _, _, _, _, _, _, _, _, _, rfl⟩, hasked.quiet, ?_, hcounted,
      hpipelines⟩, rfl⟩
    show r.vk.ask.2.Accounts (imagesHeld r.images + (ownedBy .swapchain r.swapchain + _))
    rw [hnone, hswapchain, Ledger.ownedBy_zero, zero_add]
    exact hasked.accounts
  have hmade := hasked.create .swapchain (fun h => (by cases h))
  rw [add_zero] at hmade
  generalize r.vk.ask.2.create .swapchain = created at hmade
  obtain ⟨swapchain, vk₁⟩ := created
  dsimp only at hmade ⊢
  split
  · refine .returned ⟨⟨⟨_, _, _, _, _, _, _, _, _, _, _, rfl⟩, hmade.quiet, ?_, hcounted,
      hpipelines⟩, rfl⟩
    show vk₁.Accounts (imagesHeld r.images + (ownedBy .swapchain swapchain + _))
    rw [hnone, zero_add]
    exact hmade.accounts
  rw [fillSwapchain]
  dsimp only
  split
  · refine .returned ⟨⟨⟨_, _, _, _, _, _, _, _, _, _, _, rfl⟩, hmade.ask.quiet, ?_, hcounted,
      hpipelines⟩, rfl⟩
    show vk₁.ask.2.Accounts (imagesHeld r.images + (ownedBy .swapchain swapchain + _))
    rw [hnone, zero_add]
    exact hmade.ask.accounts
  · refine Outcome.imp (createScImages_spec (frameFences r.slots) (ownedBy .swapchain swapchain +
      (pipelinesHeld r.pipelines + rest)) ?_ ?_ ?_) id ?_
    · exact hfrom
    · exact hmade.ask.accounts
    · exact hmade.ask.uses_now
    rintro _ ⟨vk, images, count, rfl, hquiet, haccounts, himages⟩
    exact ⟨⟨⟨_, _, _, _, _, _, _, _, _, _, _, rfl⟩, hmade.ask.quiet.trans hquiet, haccounts, himages,
      hpipelines⟩, rfl⟩

structure TargetsInv (r : Renderer) : Prop where
  images : ImagesFrom (frameFences r.slots) r.images r.scCount
  pipelines : r.pipelines 0 = 0 → NoPipelines r.pipelines

def Renderer.targetsHeld (r : Renderer) : Multiset VkObject :=
  imagesHeld r.images + (ownedBy .swapchain r.swapchain + pipelinesHeld r.pipelines)

theorem deviceWaitIdle_uses {vk : Vk} (hreliable : Reliable vk.answers)
    (held : Multiset VkObject) : vk.deviceWaitIdle.Uses held := by
  rw [deviceWaitIdle_eq hreliable]
  exact fun _ hwork => absurd hwork List.not_mem_nil

theorem deviceWaitIdle_accounts {vk : Vk} {held : Multiset VkObject} (h : vk.Accounts held) :
    vk.deviceWaitIdle.Accounts held := by
  rw [deviceWaitIdle]
  dsimp only
  split
  · exact h.ask
  · exact h.quiet rfl rfl

theorem Retargeted.held {vk : Vk} {t : Renderer} (h : Retargeted r vk rest t) :
    t.vk.Accounts (t.targetsHeld + rest) := by
  rw [Renderer.targetsHeld, add_assoc, add_assoc]
  exact h.accounts

theorem Retargeted.inv {vk : Vk} {t : Renderer} (h : Retargeted r vk rest t) : TargetsInv t :=
  ⟨h.images, h.pipelines⟩

theorem Retargeted.refreshed {vk : Vk} {t u : Renderer} (h : Retargeted r vk rest t)
    (hu : Repiped t (imagesHeld t.images + (ownedBy .swapchain t.swapchain + rest)) u)
    (hpipelines : u.pipelines 0 ≠ 0) (format : UInt32) :
    Retargeted r vk rest { u with pipelinesFormat := format } := by
  obtain ⟨⟨_, _, _, _, _, _, _, _, _, _, _, rfl⟩, hquiet, -, himages, -⟩ := h
  obtain ⟨⟨_, _, rfl⟩, hquiet', haccounts⟩ := hu
  refine ⟨⟨_, _, _, _, _, _, _, _, _, _, _, rfl⟩, hquiet.trans hquiet', ?_, himages,
    fun hzero => absurd hzero hpipelines⟩
  refine (congrArg (Vk.Accounts _) ?_).mp haccounts
  abel

theorem refreshPipelines_spec {vk : Vk} {t : Renderer} (h : Retargeted r vk rest t)
    (huses : ∀ held, vk.Uses held) : Outcome True (Retargeted r vk rest) (refreshPipelines t) := by
  have huses' : ∀ held, t.vk.Uses held := fun held => h.quiet.uses (huses held)
  have hpiped : t.vk.Accounts (pipelinesHeld t.pipelines +
      (imagesHeld t.images + (ownedBy .swapchain t.swapchain + rest))) := by
    refine (congrArg t.vk.Accounts ?_).mp h.accounts
    abel
  obtain ⟨hdestroyed, hnone⟩ := destroyPipelines_spec hpiped (huses' _)
  obtain ⟨ok, u, heq, hu, hok, -⟩ := buildPipelines_spec hdestroyed (huses' _) hnone
  rw [refreshPipelines, heq]
  split
  · cases ok with
    | true => exact .returned (h.refreshed hu (hok rfl) _)
    | false => exact .aborted trivial
  · exact .returned h

theorem recreateSwapchain_spec {width height : UInt32} (hinv : TargetsInv r)
    (hreliable : Reliable r.vk.answers) (h : r.vk.Accounts (r.targetsHeld + rest)) :
    Outcome True (Retargeted r r.vk.deviceWaitIdle rest) (recreateSwapchain width height r) := by
  have hidle : (r.withVk r.vk.deviceWaitIdle).vk.Accounts (imagesHeld r.images +
      (ownedBy .swapchain r.swapchain + (pipelinesHeld r.pipelines + rest))) := by
    rw [Renderer.targetsHeld, add_assoc, add_assoc] at h
    exact deviceWaitIdle_accounts h
  have hidleUses := deviceWaitIdle_uses hreliable
  obtain ⟨vk, images, heq, hquiet, haccounts, himages⟩ := destroySwapchain_spec
    (r := r.withVk r.vk.deviceWaitIdle) hinv.images hidle (hidleUses _)
  rw [recreateSwapchain, heq]
  dsimp only
  refine (createSwapchain_spec rest ?_ rfl rfl ?_ ?_ ?_).bind ?_
  · exact himages
  · exact hinv.pipelines
  · exact haccounts
  · exact hquiet.uses (hidleUses _)
  rintro ⟨_, t⟩ ⟨⟨⟨_, _, _, _, _, _, _, _, _, _, _, rfl⟩, hquiet', haccounts', himages',
    hpipelines'⟩, -⟩
  refine refreshPipelines_spec ?_ hidleUses
  exact ⟨⟨_, _, _, _, _, _, _, _, _, _, _, rfl⟩, hquiet.trans hquiet', haccounts', himages',
    hpipelines'⟩

end

end ChoonzMoba
