import ChoonzMoba.Render.RendererDraw

namespace ChoonzMoba

open Renderer Vk

section

variable {r t : Renderer} {d : SceneSlots} {frames : Nat} {vk : Vk} {buffer : Dedicated}
  {fence : VkHandle}

theorem RendererInv.mono (h : RendererInv r d frames) {frames' : Nat} (hle : frames ≤ frames') :
    RendererInv r d frames' :=
  ⟨⟨h.scene, h.targets, h.accounts, h.running, h.prompt, h.frame, Nat.le_trans h.frames hle⟩,
    h.fenced⟩

theorem Readback.without (h : Readback r d frames .null fence) : RendererInv r d frames where
  scene := h.scene
  targets := h.targets
  accounts := by
    have haccounts := h.accounts
    rwa [Dedicated.owned_null, zero_add] at haccounts
  running work hwork :=
    have hcovered := (h.running work hwork).2
    ⟨(h.running work hwork).1, fun x hx => (hcovered.reach x hx).imp_left fun hextra =>
      absurd hextra.1 (Multiset.notMem_zero _), hcovered.sets⟩
  prompt := h.prompt
  frame := h.frame
  frames := h.frames
  fenced := h.fenced

theorem Readback.fence_live (h : Readback r d frames buffer fence)
    (hfence : frameFences r.slots fence) : (VkKind.fence, fence) ∈ r.vk.ledger.live := by
  rw [h.accounts.ledger.live]
  exact Multiset.mem_add.mpr (Or.inr (Renderer.held_fence hfence))

theorem Readback.freed (h : Readback r d frames buffer fence) (hfence : frameFences r.slots fence)
    (hquiet : Quiet (r.vk.waitForFence fence).2 vk) (hledger : vk.ledger = r.vk.ledger)
    (hcount : vk.allocCount = r.vk.allocCount) :
    RendererInv (r.withVk (freeBuffer vk buffer)) d frames := by
  have hlive := h.fence_live hfence
  have hwaited := waitForFence_waited h.prompt.reliable hlive
  obtain ⟨hscene, htargets, haccounts, hrunning, hprompt, hframe, hframes, hfenced⟩ := h
  have hrunning' : ∀ work ∈ vk.running, work ∈ r.vk.running ∧ work.fence ≠ fence := by
    intro work hwork
    replace hwork := hquiet.running work hwork
    rw [hwaited.running] at hwork
    obtain ⟨hmem, hne⟩ := List.mem_filter.mp hwork
    exact ⟨hmem, bne_iff_ne.mp hne⟩
  have hcovered : ∀ work ∈ vk.running,
      WorkRecent r.slots r.frameCount.toNat work ∧ WorkCovered r d 0 0 work := by
    intro work hwork
    obtain ⟨hmem, hne⟩ := hrunning' work hwork
    obtain ⟨hrecent, hreach, hsets⟩ := hrunning work hmem
    exact ⟨hrecent, fun x hx => (hreach x hx).imp_left fun hextra => absurd hextra.2 hne, hsets⟩
  have huses : vk.Uses r.held := by
    intro work hwork x hx
    exact ((hcovered work hwork).2.held hx).resolve_left fun hextra =>
      absurd hextra.1 (Multiset.notMem_zero _)
  obtain ⟨hfreed, hquiet'⟩ := freeDedicated_spec (haccounts.quiet hledger hcount) huses
    (fun h => (by cases h))
  have hall := hquiet.trans hquiet'
  refine ⟨⟨⟨hscene.1, hscene.2, hscene.3, hscene.4, hscene.5,
    hscene.materials.imp (fun _ _ => id) fun j _ hready => ?_, fun j hj => ?_, hscene.distinct⟩,
    ⟨htargets.1, htargets.2⟩, hfreed, fun work hwork => ?_,
    hall.prompt (waitForFence_prompt hprompt hlive hfence), hframe, hframes⟩, hfenced⟩
  · exact hready.keep rfl (congrFun (hall.contents.trans hwaited.contents) _) hready.known
      fun halive => ⟨halive, rfl⟩
  · exact Nat.le_trans (hscene.sets j hj) (Nat.le_of_eq (hall.sets.trans hwaited.sets).symm)
  · obtain ⟨hrecent, hreach, hsets⟩ := hcovered work (hquiet'.running work hwork)
    exact ⟨hrecent, hreach, hsets⟩

def Drawn (capture : Bool) (frames : Nat) (out : Bool × CaptureState × Renderer) : Prop :=
  (out.2.1 = .none ∧ ∃ e, RendererInv out.2.2 e frames) ∨
    capture = true ∧ out.1 = true ∧ ∃ e slot, slot < framesInFlight ∧ out.2.1.waitedFrame = some slot ∧
      Readback out.2.2 e frames out.2.1.buffer (out.2.2.slots slot).inFlight

theorem Drawable.waitForImage (h : Drawable r d frames)
    (hidle : r.vk.inFlight (r.slots r.frame).inFlight = false) (img : Nat) :
    Drawable (r.withVk (waitForImage r.vk (r.images img).inFlight)) d frames ∧
      (ChoonzMoba.waitForImage r.vk (r.images img).inFlight).inFlight (r.slots r.frame).inFlight =
        false := by
  rw [ChoonzMoba.waitForImage]
  by_cases hnull : (r.images img).inFlight = 0
  · rw [if_pos hnull]
    exact ⟨h, hidle⟩
  · have hfence := h.inv.targets.images.fence img hnull
    have hwaited := waitForFence_waited h.inv.prompt.reliable (h.inv.fence_live hfence)
    rw [if_neg hnull]
    refine ⟨h.waitForFence hfence, Vk.not_inFlight fun work hwork heq => ?_⟩
    rw [hwaited.running] at hwork
    exact Bool.false_ne_true (hidle.symm.trans
      (inFlight_iff.mpr ⟨work, (List.mem_filter.mp hwork).1, heq⟩))

theorem Drawable.setImage (h : Drawable r d frames) {img : Nat} {image : ScImage}
    (howned : image.owned = (r.images img).owned) (hfence : frameFences r.slots image.inFlight) :
    Drawable (r.setImage img image) d frames := by
  have himages : ∀ i, (Function.update r.images img image i).owned = (r.images i).owned := by
    intro i
    by_cases hi : i = img
    · rw [hi, Function.update_self, howned]
    · rw [Function.update_of_ne hi]
  have htargets : (r.setImage img image).targetsHeld = r.targetsHeld := by
    have hheld : imagesHeld (Function.update r.images img image) = imagesHeld r.images :=
      heldBy_congr fun i _ => himages i
    show imagesHeld (Function.update r.images img image) + _ = _
    rw [hheld]
    rfl
  have haccounts := h.inv.accounts
  rw [Renderer.held_targets] at haccounts
  refine h.redrawn ⟨⟨_, _, _, _, _, _, _, _, _, _, _, rfl⟩, rfl, rfl, fun _ hwork => hwork,
    fun work hwork x hx => ?_, h.inv.prompt,
    ⟨⟨h.inv.targets.images.count_le, fun i hi => ?_, fun i hne => ?_⟩, ?_⟩, ?_⟩
  · rw [htargets]
    exact hx
  · exact (himages i).trans (h.inv.targets.images.blank i hi)
  · replace hne : (Function.update r.images img image i).inFlight ≠ 0 := hne
    show frameFences r.slots (Function.update r.images img image i).inFlight
    by_cases hi : i = img
    · rw [hi, Function.update_self]
      exact hfence
    · rw [Function.update_of_ne hi] at hne ⊢
      exact h.inv.targets.images.fence i hne
  · exact h.inv.targets.pipelines
  · rw [htargets]
    exact haccounts

theorem Drawable.drawImage (h : Drawable r d frames)
    (hidle : r.vk.inFlight (r.slots r.frame).inFlight = false) (hframes : frames + 1 < 2 ^ 64)
    (capture : Bool) (img : Nat) :
    Outcome True (Drawn capture (frames + 1)) (drawImage capture img r) := by
  obtain ⟨hdrawable, hflight⟩ := h.waitForImage hidle img
  rw [ChoonzMoba.drawImage]
  dsimp only
  generalize ChoonzMoba.waitForImage r.vk (r.images img).inFlight = vk at hdrawable hflight ⊢
  have hset : Drawable ((r.withVk vk).setImage img
      { r.images img with inFlight := (r.slots r.frame).inFlight }) d frames :=
    hdrawable.setImage rfl h.inv.frame_fence
  generalize { r.images img with inFlight := (r.slots r.frame).inFlight } = image at hset ⊢
  have hslot : ((r.withVk vk).setImage img image).slots = r.slots ∧
      ((r.withVk vk).setImage img image).frame = r.frame := ⟨rfl, rfl⟩
  generalize hs : (r.withVk vk).setImage img image = s at hset hslot
  have hflight' : s.vk.inFlight (s.slots s.frame).inFlight = false := by
    rw [← hs]
    exact hflight
  rw [← hslot.1, ← hslot.2]
  have hlive := hset.inv.fence_live hset.inv.frame_fence
  have hreset := resetFence_eq hset.inv.prompt.reliable hlive hflight'
  have haccounts : (s.vk.resetFence (s.slots s.frame).inFlight).Accounts (0 + s.held) := by
    rw [hreset, zero_add]
    exact hset.inv.accounts.quiet rfl rfl
  have huses : (s.vk.resetFence (s.slots s.frame).inFlight).Uses s.held := by
    rw [hreset]
    exact hset.inv.uses
  refine Outcome.map (allocIf_spec (.start haccounts huses) .buffer (fun h => (by cases h))
    (capture && s.scCanTransferSrc)) ?_
  rintro ⟨captured, buffer, vk'⟩ ⟨hworking, hwhole, hnull⟩
  rw [add_zero] at hworking
  dsimp only at hwhole hnull
  have hwrite : vk'.writeFrame (s.slots s.frame).inFlight = vk' := by
    have hle := hset.inv.prompt.issued _ hset.inv.frame_fence
    have hquiet := hworking.quiet
    rw [hreset] at hquiet
    exact writeFrame_eq ((hquiet.fences _ hle).2.trans hflight')
  have hbuffer : BufferWhole buffer := by
    cases captured with
    | true => exact Or.inr (hwhole rfl).2
    | false => exact Or.inl (hnull rfl)
  dsimp only [withVk]
  rw [hwrite]
  have hsubmitted := hset.submitted hflight' hworking.quiet hworking.accounts img hbuffer hframes
  cases captured with
  | true =>
    refine Or.inr ⟨(Bool.and_eq_true_iff.mp (hwhole rfl).1).1, rfl, d, s.frame, hset.inv.frame_lt,
      rfl, ?_⟩
    exact hsubmitted _
  | false =>
    have hnone := hnull rfl
    subst hnone
    refine Or.inl ⟨rfl, d, ?_⟩
    exact (hsubmitted _).without

theorem Drawable.asked (h : Drawable r d frames) (needRecreate : Bool) :
    Drawable { r with vk := r.vk.ask.2, needRecreate := needRecreate } d frames := by
  have haccounts := h.inv.accounts
  rw [Renderer.held_targets] at haccounts
  exact h.redrawn ⟨⟨_, _, _, _, _, _, _, _, _, _, _, rfl⟩, rfl, rfl, fun _ hwork => hwork,
    fun _ _ _ hx => hx, h.inv.prompt.ask, ⟨h.inv.targets.1, h.inv.targets.2⟩, haccounts.ask⟩

theorem Drawn.nothing (h : RendererInv t d frames) (capture ok : Bool) :
    Drawn capture frames (ok, .none, t) :=
  Or.inl ⟨rfl, d, h⟩

theorem Drawable.acquireImage (h : Drawable r d frames)
    (hidle : r.vk.inFlight (r.slots r.frame).inFlight = false) (hframes : frames + 1 < 2 ^ 64)
    (capture : Bool) :
    Outcome True (Drawn capture (frames + 1)) (acquireImage capture r) := by
  have hasked := h.asked r.needRecreate
  have hdrawn : ∀ img, Outcome True (Drawn capture (frames + 1)) (ChoonzMoba.drawImage capture img
      (r.withVk r.vk.ask.2)) := hasked.drawImage hidle hframes capture
  rw [ChoonzMoba.acquireImage]
  dsimp only
  split
  · exact .returned (.nothing ((h.asked true).inv.mono (Nat.le_succ _)) _ _)
  · exact .returned (.nothing (hasked.inv.mono (Nat.le_succ _)) _ _)
  · exact hdrawn _
  · exact hdrawn _

theorem Drawable.drawSwapchain (h : Drawable r d frames) (hframes : frames + 1 < 2 ^ 64)
    (capture : Bool) : Outcome True (Drawn capture (frames + 1)) (drawSwapchain capture r) := by
  rw [ChoonzMoba.drawSwapchain]
  have hpipelines : Outcome True (fun out => Drawable out.2 d frames)
      (deferredPipelines r) := by
    rw [deferredPipelines]
    split
    · next hzero => exact h.buildPipelines hzero
    · exact .returned h
  refine hpipelines.bind fun ⟨ok, s⟩ hs => ?_
  cases ok with
  | false => exact .aborted trivial
  | true =>
    have hwaited := hs.waitForFence hs.inv.frame_fence
    have hidle := (waitForFence_waited hs.inv.prompt.reliable
      (hs.inv.fence_live hs.inv.frame_fence)).not_inFlight
    have hissued := hwaited.inv.prompt.issued _ hs.inv.frame_fence
    refine hwaited.collectMaterials.bind fun t ⟨e, ht⟩ => ?_
    refine ht.drawable.collectTextures.bind fun t' ⟨e', ht'⟩ => ?_
    refine ht'.drawable.collectMeshes.bind fun t'' ⟨e'', ht''⟩ => ?_
    have hall := (ht.trans ht').trans ht''
    refine hall.drawable.acquireImage ?_ hframes capture
    rw [hall.slots, hall.frame]
    exact (hall.quiet.fences _ hissued).2.trans hidle

theorem Drawable.drawFrame (h : Drawable r d frames) (hframes : frames + 1 < 2 ^ 64)
    (fbWidth fbHeight : Int) (minimized capture : Bool) :
    Outcome True (Drawn capture (frames + 1)) (drawFrame r fbWidth fbHeight minimized capture) := by
  rw [ChoonzMoba.drawFrame]
  split
  · exact .returned (.nothing (h.inv.mono (Nat.le_succ _)) _ _)
  dsimp only
  split
  · refine (h.recreateSwapchain _ _).bind fun s hs => ?_
    split
    · exact .returned (.nothing (hs.inv.mono (Nat.le_succ _)) _ _)
    · exact hs.drawSwapchain hframes capture
  · exact h.drawSwapchain hframes capture

theorem Drawable.captureFrame (h : Drawable r d frames) (hframes : frames + 1 < 2 ^ 64)
    (fbWidth fbHeight : Int) (minimized : Bool) :
    Outcome True (fun out => ∃ e, RendererInv out.2 e (frames + 1))
      (captureFrame r fbWidth fbHeight minimized) := by
  rw [ChoonzMoba.captureFrame]
  split
  · exact .returned ⟨d, h.inv.mono (Nat.le_succ _)⟩
  refine Outcome.map (h.drawFrame hframes fbWidth fbHeight minimized true) ?_
  rintro ⟨drew, ⟨buffer, waitedFrame⟩, t⟩ (⟨hnone, e, ht⟩ | ⟨-, hdrew, e, slot, hslot, hwaited, ht⟩)
  · cases hnone
    exact ⟨e, ht⟩
  · dsimp only at hdrew hwaited ht ⊢
    subst hdrew hwaited
    have hfence : frameFences t.slots (t.slots slot).inFlight :=
      ⟨ht.fenced slot hslot, slot, hslot, rfl⟩
    have hwait := waitForFence_waited ht.prompt.reliable (ht.fence_live hfence)
    refine ⟨e, ?_⟩
    show RendererInv (t.withVk (freeBuffer
      (if (t.vk.waitForFence (t.slots slot).inFlight).2.succeeds.1 then
        (t.vk.waitForFence (t.slots slot).inFlight).2.succeeds.2.succeeds
      else (false, (t.vk.waitForFence (t.slots slot).inFlight).2.succeeds.2)).2 buffer)) e (frames + 1)
    generalize hwaited : t.vk.waitForFence (t.slots slot).inFlight = waited at hwait ⊢
    have hcopied : ∃ copied vk, (if waited.2.succeeds.1 then waited.2.succeeds.2.succeeds
          else (false, waited.2.succeeds.2)) = (copied, vk) ∧ Quiet waited.2 vk ∧
        vk.ledger = t.vk.ledger ∧ vk.allocCount = t.vk.allocCount := by
      split
      · exact ⟨_, _, rfl, (Quiet.refl _).ask.ask, hwait.ledger, hwait.allocCount⟩
      · exact ⟨_, _, rfl, (Quiet.refl _).ask, hwait.ledger, hwait.allocCount⟩
    obtain ⟨copied, vk, heq, hquiet, hledger, hcount⟩ := hcopied
    rw [heq]
    exact ht.freed hfence (hwaited ▸ hquiet) hledger hcount

variable {qsort : (SortItem → SortItem → Int) → List SortItem → List SortItem}

theorem RendererInv.endFrame (h : RendererInv r d frames) (hsort : Comparator.Sorts qsort)
    (hframes : frames + 1 < 2 ^ 64) :
    Outcome True (fun t => ∃ e, RendererInv t e (frames + 1)) (rendererEndFrame qsort r) := by
  rw [rendererEndFrame]
  refine (h.prepare hsort).bind fun ⟨ok, s⟩ ⟨hs, hdrawable⟩ => ?_
  dsimp only at hs hdrawable ⊢
  split
  · exact .returned ⟨d, hs.mono (Nat.le_succ _)⟩
  · next hok =>
    refine ((hdrawable (by simpa using hok)).drawFrame hframes _ _ _ false).bind ?_
    rintro ⟨drew, cap, t⟩ (⟨-, e, ht⟩ | ⟨hcapture, -⟩)
    · exact .returned ⟨e, ht⟩
    · cases hcapture

theorem RendererInv.endFrameCapture (h : RendererInv r d frames) (hsort : Comparator.Sorts qsort)
    (hframes : frames + 1 < 2 ^ 64) :
    Outcome True (fun out => ∃ e, RendererInv out.2 e (frames + 1))
      (rendererEndFrameCapture qsort r) := by
  rw [rendererEndFrameCapture]
  refine (h.prepare hsort).bind fun ⟨ok, s⟩ ⟨hs, hdrawable⟩ => ?_
  dsimp only at hs hdrawable ⊢
  split
  · exact .returned ⟨d, hs.mono (Nat.le_succ _)⟩
  · next hok => exact (hdrawable (by simpa using hok)).captureFrame hframes _ _ _

end

end ChoonzMoba
