import ChoonzMoba.Assets.RegistryAcquire

namespace ChoonzMoba

def AssetWorld.retired (w : AssetWorld) (slot : Nat) (framesUntilFree : UInt32)
    (byId : HashMap AssetId UInt32) : AssetWorld :=
  { destroySlotTexture w slot framesUntilFree with
    registry := clearSlot { w.registry with byId } slot }

structure Forgets (r : AssetRegistry) (slot : Nat) (byId : HashMap AssetId UInt32) : Prop where
  live : (r.slots slot).live = true
  wf : byId.Wf
  shape : r.byId.SameShape byId
  entries : ∃ e, e.key = (r.slots slot).id ∧ r.byId.entries.Perm (e :: byId.entries)

section

variable {w t : AssetWorld} {slot : Nat} {framesUntilFree : UInt32} {byId : HashMap AssetId UInt32}

theorem retired_slots (i : Nat) :
    (w.retired slot framesUntilFree byId).registry.slots i =
      if i = slot then .cleared (nextGeneration (w.registry.slots slot).generation)
      else w.registry.slots i :=
  Function.update_apply ..

theorem nextGeneration_eq {generation : Nat} (hpos : 0 < generation)
    (hle : generation ≤ handleGenMask.toNat) :
    nextGeneration generation = generation % handleGenMask.toNat + 1 := by
  rw [nextGeneration]
  rcases Nat.eq_or_lt_of_le hle with rfl | hlt
  · rw [if_pos (Nat.lt_succ_self _), Nat.mod_self]
  · rw [if_neg (Nat.not_lt_of_le hlt), Nat.mod_eq_of_lt hlt]

namespace Forgets

variable (f : Forgets w.registry slot byId) (inv : w.Inv)
include f inv

theorem step : Slots.Step handleGenMask.toNat w.registry.slotTable (.retired slot)
    (w.retired slot framesUntilFree byId).registry.slotTable := by
  have r := inv.registry
  have hgen := r.generation slot (r.live_lt f.live)
  have htable : (w.retired slot framesUntilFree byId).registry.slotTable =
      { w.registry.slotTable with
        generation := Function.update w.registry.slotTable.generation slot
          (w.registry.slotTable.generation slot % handleGenMask.toNat + 1)
        live := Function.update w.registry.slotTable.live slot false
        free := slot :: w.registry.slotTable.free } := by
    refine Slots.ext rfl (funext fun i => ?_) (funext fun i => ?_) ?_
    · show ((w.retired slot framesUntilFree byId).registry.slots i).generation = _
      rw [retired_slots]
      dsimp only
      rw [Function.update_apply]
      split
      · exact nextGeneration_eq hgen.1 hgen.2
      · rfl
    · show ((w.retired slot framesUntilFree byId).registry.slots i).live = _
      rw [retired_slots]
      dsimp only
      rw [Function.update_apply]
      split <;> rfl
    · show (w.retired slot framesUntilFree byId).registry.freeList = slot :: w.registry.freeList
      have hsame : ∀ i ∈ List.range w.registry.freeCount,
          Function.update w.registry.freeStack w.registry.freeCount slot i =
            w.registry.freeStack i := fun i hi =>
        Function.update_of_ne (Nat.ne_of_lt (List.mem_range.mp hi)) ..
      rw [AssetRegistry.freeList_succ (n := w.registry.freeCount) rfl]
      show Function.update w.registry.freeStack w.registry.freeCount slot w.registry.freeCount ::
        ((List.range w.registry.freeCount).map
          (Function.update w.registry.freeStack w.registry.freeCount slot)).reverse = _
      rw [Function.update_self, List.map_congr_left hsame]
      rfl
  rw [htable]
  exact .retire f.live

theorem entry_other {e : HashMapSlot AssetId UInt32} (he : e ∈ byId.entries) :
    e ∈ w.registry.byId.entries ∧ e.val.toNat ≠ slot := by
  obtain ⟨gone, hkey, hperm⟩ := f.entries
  have hids := inv.registry.ids
  have hmem : e ∈ w.registry.byId.entries := hperm.mem_iff.mpr (List.mem_cons_of_mem _ he)
  refine ⟨hmem, fun hval => ?_⟩
  have hdistinct := List.pairwise_cons.mp ((distinct_perm hperm).mp hids.wf.distinct)
  refine hdistinct.1 e he (beq_iff_eq.mpr ?_)
  have hid := (hids.entry e hmem).2
  rw [hval] at hid
  exact hkey.trans hid

theorem mapsIds : (w.retired slot framesUntilFree byId).registry.MapsIds := by
  obtain ⟨gone, hkey, hperm⟩ := f.entries
  have hids := inv.registry.ids
  have hgone := hids.entry gone (hperm.mem_iff.mpr List.mem_cons_self)
  have hval : gone.val.toNat = slot := hids.distinct hgone.1 f.live (hgone.2.trans hkey)
  have hlength := hperm.length_eq
  rw [List.length_cons] at hlength
  refine ⟨f.wf, ?_, ?_, ?_, fun e he => ?_, fun i hlive => ?_⟩
  · show byId.cap ≠ 0
    rw [f.shape.cap]
    exact hids.cap
  · show w.registry.capacity * 2 ≤ byId.cap.toNat
    rw [f.shape.cap]
    exact hids.room
  · show byId.count.toNat = w.registry.liveCount - 1
    rw [f.wf.count, ← hids.count, hids.wf.count, hlength, Nat.add_sub_cancel]
  · obtain ⟨hmem, hne⟩ := f.entry_other inv he
    rw [retired_slots, if_neg hne]
    exact hids.entry e hmem
  · rw [retired_slots] at hlive ⊢
    split at hlive
    · cases hlive
    · next hne =>
      rw [if_neg hne]
      obtain ⟨e, he, hei, hek⟩ := hids.live i hlive
      rcases List.mem_cons.mp (hperm.mem_iff.mp he) with rfl | he'
      · exact absurd (hei.symm.trans hval) hne
      · exact ⟨e, he', hei, hek⟩

theorem registryInv : (w.retired slot framesUntilFree byId).registry.Inv := by
  have r := inv.registry
  have hlt := r.live_lt f.live
  have hgen := r.generation slot hlt
  have hliveCount : 0 < w.registry.liveCount := by
    obtain ⟨e, -, hperm⟩ := f.entries
    rw [← r.ids.count, r.ids.wf.count, hperm.length_eq]
    exact Nat.succ_pos _
  have hcount := r.count
  have hother : ∀ i, ((w.retired slot framesUntilFree byId).registry.slots i).live = true →
      (w.retired slot framesUntilFree byId).registry.slots i = w.registry.slots i := by
    intro i hlive
    rw [retired_slots] at hlive ⊢
    split at hlive
    · cases hlive
    · next hne => rw [if_neg hne]
  refine ⟨r.slots.step (f.step inv), r.fresh_le, r.capacity_le, ?_, fun i hi => ?_, fun i hi => ?_,
    fun i hlive => ?_, f.mapsIds inv, { r.arenas with }, fun i j hne hi hj => ?_⟩
  · show w.registry.liveCount - 1 + (w.registry.freeCount + 1) = w.registry.nextFresh
    omega
  · rw [retired_slots]
    split
    · show 0 < nextGeneration _ ∧ nextGeneration _ ≤ _
      rw [nextGeneration_eq hgen.1 hgen.2]
      have hmod := Nat.mod_lt (w.registry.slots slot).generation
        (show handleGenMask.toNat > 0 by decide)
      omega
    · exact r.generation i hi
  · rw [retired_slots, if_neg (Nat.ne_of_gt (Nat.lt_of_lt_of_le hlt hi))]
    exact r.unissued i hi
  · have hsame := hother i hlive
    rw [hsame] at hlive ⊢
    exact (r.valid i hlive).outgrown ⟨fun _ => rfl, fun _ => rfl, fun _ => Nat.le_refl _, rfl⟩
  · have hsamei := hother i hi
    have hsamej := hother j hj
    rw [hsamei] at hi ⊢
    rw [hsamej] at hj ⊢
    exact r.apart i j hne hi hj

theorem preserved : (w.retired slot framesUntilFree byId).Inv := by
  refine ⟨f.registryInv inv, fun texture hnull => ?_⟩
  have r := inv.registry
  have hcount := holders_update (w := w) (t := w.retired slot framesUntilFree byId) rfl
    (Nat.lt_of_lt_of_le (r.live_lt f.live) r.fresh_le)
    (fun i hi => by rw [retired_slots, if_neg hi]) texture
  have hcleared : ((w.retired slot framesUntilFree byId).registry.slots slot).holds texture =
      false := by
    rw [retired_slots, if_pos rfl]
    rfl
  have hholds : (w.registry.slots slot).holds texture =
      ((w.registry.slots slot).type == .texture &&
        (w.registry.slots slot).gpuHandle == texture) := by
    rw [AssetSlot.holds, f.live, Bool.true_and]
  have hold := inv.textures texture hnull
  rw [hcleared, hholds, Bool.toNat_false, Nat.add_zero] at hcount
  show w.created.count texture = _
  rw [hold, ← hcount, AssetWorld.destructions, AssetWorld.destructions]
  have hvalid := r.valid slot f.live
  show _ = List.count texture (List.map Prod.fst (if _ then _ else _)) + _
  by_cases hkind : (w.registry.slots slot).type = .texture
  · have hone : ∀ b : Bool, (if b = true then 1 else 0) = b.toNat := by decide
    rw [if_pos ⟨hkind, hvalid.texture hkind⟩, List.map_cons, List.count_cons, hkind,
      beq_self_eq_true, Bool.true_and, hone, Nat.add_right_comm, Nat.add_assoc]
  · rw [if_neg (fun h => hkind h.1), beq_eq_false_iff_ne.mpr hkind, Bool.false_and,
      Bool.toNat_false, Nat.add_zero]

end Forgets

theorem AssetWorld.Inv.retireSlot (inv : w.Inv) (hlive : (w.registry.slots slot).live = true)
    (framesUntilFree : UInt32) : ∃ byId, Forgets w.registry slot byId ∧
      retireSlot w slot framesUntilFree = some (w.retired slot framesUntilFree byId) := by
  have hids := inv.registry.ids
  rw [ChoonzMoba.retireSlot, if_neg (by rw [hlive]; exact Bool.noConfusion)]
  rcases hashmapRemove_spec hids.wf (w.registry.slots slot).id with
    ⟨e, byId, hremove, hwf, hshape, hkey, hperm⟩ | ⟨hnone, -⟩
  · refine ⟨byId, ⟨hlive, hwf, hshape, e, beq_iff_eq.mp hkey, hperm⟩, ?_⟩
    show (hashmapRemove w.registry.byId (w.registry.slots slot).id).map _ = _
    rw [hremove]
    rfl
  · obtain ⟨e, he, -, hkey⟩ := hids.live slot hlive
    exact absurd (beq_iff_eq.mpr hkey) (hnone e he)

structure Retires (w : AssetWorld) (p : Nat → Bool) (t : AssetWorld) : Prop where
  inv : t.Inv
  slots : ∀ i, t.registry.slots i =
    if p i = true then .cleared (nextGeneration (w.registry.slots i).generation)
    else w.registry.slots i
  frame :
    { t.registry with
      slots := w.registry.slots
      byId := w.registry.byId
      freeStack := w.registry.freeStack
      freeCount := w.registry.freeCount
      liveCount := w.registry.liveCount } = w.registry
  shape : w.registry.byId.SameShape t.registry.byId
  memory : t.memory = w.memory
  created : t.created = w.created
  destroyed : ∀ d ∈ t.destroyed, d ∈ w.destroyed ∨ handleIsNull d.1 = false

variable {p : Nat → Bool}

theorem destroySlotTexture_destroyed {d : Handle × UInt32}
    (hd : d ∈ (destroySlotTexture w slot framesUntilFree).destroyed) :
    d ∈ w.destroyed ∨ handleIsNull d.1 = false := by
  rw [destroySlotTexture] at hd
  dsimp only at hd
  split at hd
  · next htexture =>
    rcases List.mem_cons.mp hd with rfl | hold
    · exact Or.inr htexture.2.1
    · exact Or.inl hold
  · exact Or.inl hd

theorem AssetWorld.Inv.retires_none (inv : w.Inv) (hp : ∀ i, p i = false) : Retires w p w where
  inv := inv
  slots i := by
    rw [hp i]
    rfl
  frame := rfl
  shape := .refl _
  memory := rfl
  created := rfl
  destroyed _ := Or.inl

theorem Retires.retired (h : Retires w p t) (f : Forgets t.registry slot byId)
    (hslot : p slot = false) {p' : Nat → Bool} (hp' : ∀ i, p' i = (i == slot || p i)) :
    Retires w p' (t.retired slot framesUntilFree byId) where
  inv := f.preserved h.inv
  slots i := by
    rw [retired_slots, hp']
    have hsame := h.slots slot
    rw [if_neg (by rw [hslot]; exact Bool.false_ne_true)] at hsame
    by_cases hi : i = slot
    · subst hi
      rw [if_pos rfl, hsame, beq_self_eq_true, Bool.true_or, if_pos rfl]
    · rw [if_neg hi, beq_eq_false_iff_ne.mpr hi, Bool.false_or]
      exact h.slots i
  frame := h.frame
  shape := h.shape.trans f.shape
  memory := h.memory
  created := h.created
  destroyed _ hd := (destroySlotTexture_destroyed hd).elim (h.destroyed _) Or.inr

theorem AssetWorld.Inv.retireLoop (inv : w.Inv) {q : AssetSlot → Bool}
    (hq : ∀ s, q s = true → s.live = true) (framesUntilFree : UInt32) :
    ∃ t, Loop.forRangeM w.registry.nextFresh (retireIf q framesUntilFree) w = some t ∧
      Retires w (fun i => q (w.registry.slots i)) t := by
  have hstep : ∀ n t, n < w.registry.nextFresh →
      Retires w (fun i => decide (i < n) && q (w.registry.slots i)) t →
      ∃ u, retireIf q framesUntilFree t n = some u ∧
        Retires w (fun i => decide (i < n + 1) && q (w.registry.slots i)) u := by
    intro n t _ h
    have hslot := h.slots n
    simp only [Nat.lt_irrefl, decide_false, Bool.false_and, Bool.false_eq_true, if_false] at hslot
    have hpick : ∀ i, (decide (i < n + 1) && q (w.registry.slots i)) =
        ((i == n && q (w.registry.slots n)) || (decide (i < n) && q (w.registry.slots i))) := by
      intro i
      rcases Nat.lt_trichotomy i n with hlt | rfl | hgt
      · simp [hlt, Nat.lt_succ_of_lt hlt, Nat.ne_of_lt hlt]
      · simp
      · simp [Nat.not_lt_of_lt hgt, Nat.ne_of_gt hgt, Nat.not_lt_of_le (Nat.succ_le_of_lt hgt)]
    rw [retireIf, hslot]
    split
    · next hpicked =>
      have hlive : (t.registry.slots n).live = true := by
        rw [hslot]
        exact hq _ hpicked
      obtain ⟨byId, hforgets, hretire⟩ := h.inv.retireSlot hlive framesUntilFree
      refine ⟨_, hretire, h.retired hforgets (by simp) fun i => ?_⟩
      rw [hpick, hpicked, Bool.and_true]
    · next hkept =>
      refine ⟨t, rfl, { h with slots := fun i => ?_ }⟩
      rw [hpick, Bool.eq_false_of_not_eq_true hkept, Bool.and_false, Bool.false_or]
      exact h.slots i
  obtain ⟨t, ht, hretires⟩ := Loop.forRangeM_total (n := w.registry.nextFresh)
    (f := retireIf q framesUntilFree) (s := w)
    (fun n t => Retires w (fun i => decide (i < n) && q (w.registry.slots i)) t)
    (inv.retires_none fun i => by simp) hstep
  refine ⟨t, ht, { hretires with slots := fun i => ?_ }⟩
  rw [hretires.slots i]
  rcases Nat.lt_or_ge i w.registry.nextFresh with hlt | hge
  · simp [hlt]
  · have hdead : q (w.registry.slots i) = false := by
      refine Bool.eq_false_of_not_eq_true fun hpicked => ?_
      exact absurd (inv.registry.live_lt (hq _ hpicked)) (Nat.not_lt_of_le hge)
    simp [hdead]

theorem handleSlot_iff {r : AssetRegistry} (inv : r.Inv) {h : AssetHandle} :
    handleSlot r h = some slot ↔
      r.initialized = true ∧ (r.slots slot).live = true ∧ h = r.slotHandle slot := by
  rw [handleSlot]
  constructor
  · intro hslot
    split at hslot
    · cases hslot
    next hready =>
    dsimp only at hslot
    split at hslot
    · cases hslot
    next hmatch =>
    cases hslot
    simp only [not_or, Bool.not_eq_false, not_not] at hready hmatch
    refine ⟨hready.1, hmatch.2.2.1, ?_⟩
    rw [AssetRegistry.slotHandle, hmatch.2.2.2, handleMake_index_gen]
  · rintro ⟨hinit, hlive, rfl⟩
    have hgen := inv.live_generation hlive
    have hindex : handleIndex (r.slotHandle slot) = slot :=
      handleIndex_make (inv.live_index hlive) hgen.2
    have hgeneration : handleGen (r.slotHandle slot) = (r.slots slot).generation :=
      handleGen_make (inv.live_index hlive) hgen.2
    have hcapacity := Nat.lt_of_lt_of_le (inv.live_lt hlive) inv.fresh_le
    rw [if_neg]
    · dsimp only
      rw [hindex, hgeneration, if_neg]
      simp only [hlive, not_or, not_true_eq_false, not_false_eq_true, and_true, ne_eq,
        Bool.true_eq_false, Nat.not_le]
      exact ⟨Nat.ne_of_gt hgen.1, hcapacity⟩
    · rw [hinit, slotHandle_ne_null inv hlive]
      simp

theorem retireSlot_setRefcount (hlive : (w.registry.slots slot).live = true) (n : Nat)
    (framesUntilFree : UInt32) :
    retireSlot (w.setRefcount slot n) slot framesUntilFree = retireSlot w slot framesUntilFree := by
  have hslot : (w.setRefcount slot n).registry.slots slot =
      { w.registry.slots slot with refcount := n } := Function.update_self ..
  have hclear : ∀ byId, clearSlot { (w.setRefcount slot n).registry with byId } slot =
      clearSlot { w.registry with byId } slot := by
    intro byId
    rw [clearSlot, clearSlot]
    dsimp only
    rw [hslot]
    simp only [AssetWorld.setRefcount, AssetWorld.setSlot, Function.update_idem]
  have hdestroy : destroySlotTexture (w.setRefcount slot n) slot framesUntilFree =
      { destroySlotTexture w slot framesUntilFree with registry := (w.setRefcount slot n).registry } := by
    rw [destroySlotTexture, destroySlotTexture, hslot]
    rfl
  rw [retireSlot, retireSlot, hslot, hdestroy]
  dsimp only
  rw [hslot, hlive, if_neg Bool.noConfusion, if_neg Bool.noConfusion]
  simp only [hclear]
  rfl

inductive Released (w : AssetWorld) (h : AssetHandle) : Bool × AssetWorld → Prop
  | refused : (∀ slot, handleSlot w.registry h = some slot →
      (w.registry.slots slot).lifetime ≠ assetLifetimeGlobal) → Released w h (false, w)
  | dropped {slot : Nat} : handleSlot w.registry h = some slot →
      (w.registry.slots slot).lifetime = assetLifetimeGlobal →
      1 < (w.registry.slots slot).refcount →
      Released w h (true, w.setRefcount slot ((w.registry.slots slot).refcount - 1))
  | retired {slot : Nat} {t : AssetWorld} : handleSlot w.registry h = some slot →
      (w.registry.slots slot).lifetime = assetLifetimeGlobal →
      (w.registry.slots slot).refcount = 1 → Retires w (· == slot) t → Released w h (true, t)

theorem AssetWorld.Inv.release (inv : w.Inv) (h : AssetHandle) (framesUntilFree : UInt32) :
    ∃ r, assetReleaseGlobal w h framesUntilFree = some r ∧ Released w h r := by
  rw [assetReleaseGlobal]
  cases hslot : handleSlot w.registry h with
  | none => exact ⟨_, rfl, .refused fun slot hs => by rw [hslot] at hs; cases hs⟩
  | some slot =>
    obtain ⟨-, hlive, -⟩ := (handleSlot_iff inv.registry).mp hslot
    have hrefcount := (inv.registry.valid slot hlive).refcount
    dsimp only
    split
    · next hother =>
      refine ⟨_, rfl, .refused fun i hi => ?_⟩
      rw [hslot] at hi
      cases hi
      rcases hrefcount with ⟨hlevel, -⟩ | ⟨hglobal, hpos⟩
      · rw [hlevel]
        decide
      · rcases hother with hother | hzero
        · exact hother
        · rw [hzero] at hpos
          exact absurd hpos (Nat.not_lt_zero _)
    · next hglobal =>
      obtain ⟨hglobal, hpos⟩ := not_or.mp hglobal
      rw [not_not] at hglobal
      split
      · next hlast =>
        obtain ⟨byId, hforgets, hretire⟩ := inv.retireSlot hlive framesUntilFree
        have hsame := retireSlot_setRefcount hlive ((w.registry.slots slot).refcount - 1)
          framesUntilFree
        rw [AssetWorld.setRefcount] at hsame
        rw [hsame, hretire]
        refine ⟨_, rfl, .retired hslot hglobal (by omega) ?_⟩
        exact (inv.retires_none fun _ => rfl).retired hforgets rfl fun i => (Bool.or_false _).symm
      · next hmore => exact ⟨_, rfl, .dropped hslot hglobal (by omega)⟩

theorem Released.inv (inv : w.Inv) {h : AssetHandle} {r : Bool × AssetWorld}
    (hr : Released w h r) : r.2.Inv := by
  cases hr with
  | refused _ => exact inv
  | dropped _ hglobal hmore => exact inv.setRefcount hglobal (by omega)
  | retired _ _ _ hretires => exact hretires.inv

def AssetWorld.rewindLevel (w : AssetWorld) : AssetWorld :=
  let rewound := { w.registry.levelArena with offset := w.registry.levelBaseOffset }
  { w with registry := { w.registry with levelArena := rewound } }

def AssetWorld.close (w : AssetWorld) : AssetWorld :=
  let r := w.registry
  { w with
    registry :=
      { r with
        levelArena := { r.levelArena with offset := r.levelBaseOffset }
        globalArena := { r.globalArena with offset := r.globalBaseOffset }
        ioArena := { r.ioArena with offset := r.ioBaseOffset }
        initialized := false } }

theorem AssetWorld.Inv.rewindLevel (inv : w.Inv)
    (hlevel : ∀ i, (w.registry.slots i).live = true →
      (w.registry.slots i).lifetime ≠ assetLifetimeLevel) : w.rewindLevel.Inv where
  registry :=
    { inv.registry with
      valid := fun i hlive => by
        have hvalid := inv.registry.valid i hlive
        have hglobal := hlevel i hlive
        have habove := hvalid.above
        have hbelow := hvalid.below
        have hglobalArena : ∀ r : AssetRegistry,
            r.lifetimeArena (w.registry.slots i).lifetime = r.globalArena := fun r => if_neg hglobal
        rw [hglobalArena] at habove hbelow
        refine ⟨hvalid.type, hvalid.state, hvalid.refcount, hvalid.texture, ?_, hvalid.blob, ?_⟩
        · show (w.rewindLevel.registry.lifetimeArena (w.registry.slots i).lifetime).base + _ ≤ _
          rw [hglobalArena]
          exact habove
        · show _ ≤ (w.rewindLevel.registry.lifetimeArena (w.registry.slots i).lifetime).base +
            (w.rewindLevel.registry.lifetimeArena (w.registry.slots i).lifetime).offset
          rw [hglobalArena]
          exact hbelow
      ids := { inv.registry.ids with }
      arenas :=
        { inv.registry.arenas with
          level := (inv.registry.arenas.level.keeps.rewind inv.registry.arenas.levelBase).wf
          levelBase := Nat.le_refl _ } }
  textures := inv.textures

theorem AssetWorld.Inv.close (inv : w.Inv)
    (hdead : ∀ i, (w.registry.slots i).live = false) : w.close.Inv where
  registry :=
    { inv.registry with
      valid := fun i hlive => by
        have hlive' : (w.registry.slots i).live = true := hlive
        rw [hdead i] at hlive'
        cases hlive'
      ids := { inv.registry.ids with }
      arenas :=
        { inv.registry.arenas with
          level := (inv.registry.arenas.level.keeps.rewind inv.registry.arenas.levelBase).wf
          global := (inv.registry.arenas.global.keeps.rewind inv.registry.arenas.globalBase).wf
          io := (inv.registry.arenas.io.keeps.rewind inv.registry.arenas.ioBase).wf
          levelBase := Nat.le_refl _
          globalBase := Nat.le_refl _
          ioBase := Nat.le_refl _ } }
  textures := inv.textures

def levelSlot (s : AssetSlot) : Bool := s.live && s.lifetime == assetLifetimeLevel

theorem AssetWorld.Inv.unload (inv : w.Inv) (hinit : w.registry.initialized = true)
    (framesUntilFree : UInt32) :
    ∃ t, Retires w (fun i => levelSlot (w.registry.slots i)) t ∧ t.rewindLevel.Inv ∧
      assetsUnloadLevel w framesUntilFree = some t.rewindLevel := by
  obtain ⟨t, ht, hretires⟩ := inv.retireLoop (q := levelSlot)
    (fun s hs => (Bool.and_eq_true_iff.mp hs).1) framesUntilFree
  refine ⟨t, hretires, hretires.inv.rewindLevel fun i hlive hlevel => ?_, ?_⟩
  · have hslot := hretires.slots i
    split at hslot
    · rw [hslot] at hlive
      cases hlive
    · next hkept =>
      rw [hslot] at hlive hlevel
      exact hkept (by rw [levelSlot, hlive, hlevel]; rfl)
  · rw [assetsUnloadLevel, if_neg (by rw [hinit]; exact Bool.noConfusion)]
    show (Loop.forRangeM _ (retireIf levelSlot framesUntilFree) w).map _ = _
    rw [ht]
    rfl

theorem AssetWorld.Inv.shutdown (inv : w.Inv) (hinit : w.registry.initialized = true)
    (framesUntilFree : UInt32) :
    ∃ t, Retires w (fun i => (w.registry.slots i).live) t ∧ t.close.Inv ∧
      (∀ i, (t.registry.slots i).live = false) ∧
      assetRegistryShutdown w framesUntilFree = some t.close := by
  obtain ⟨t, ht, hretires⟩ := inv.retireLoop (q := AssetSlot.live) (fun _ hs => hs) framesUntilFree
  have hdead : ∀ i, (t.registry.slots i).live = false := by
    intro i
    rw [hretires.slots i]
    split
    · rfl
    · next hkept => exact Bool.eq_false_of_not_eq_true hkept
  refine ⟨t, hretires, hretires.inv.close hdead, hdead, ?_⟩
  rw [assetRegistryShutdown, if_neg (by rw [hinit]; exact Bool.noConfusion), ht]
  rfl

end

end ChoonzMoba
