import ChoonzMoba.Assets.RegistryLoad
import ChoonzMoba.Core.ArenaKeeps
import ChoonzMoba.Library.Slots
import Mathlib.Data.List.Pairwise

namespace ChoonzMoba

namespace AssetRegistry

def freeList (r : AssetRegistry) : List Nat := ((List.range r.freeCount).map r.freeStack).reverse

def slotTable (r : AssetRegistry) : Slots where
  fresh := r.nextFresh
  generation i := (r.slots i).generation
  live i := (r.slots i).live
  free := r.freeList

def lifetimeBase (r : AssetRegistry) (lifetime : Nat) : Nat :=
  if lifetime = assetLifetimeLevel then r.levelBaseOffset else r.globalBaseOffset

structure ValidSlot (r : AssetRegistry) (s : AssetSlot) : Prop where
  type : s.type ≠ .none
  state : s.state = .ready
  refcount : (s.lifetime = assetLifetimeLevel ∧ s.refcount = 0) ∨
    (s.lifetime = assetLifetimeGlobal ∧ 0 < s.refcount)
  texture : s.type = .texture → handleIsNull s.gpuHandle = false ∧ r.renderer.destroyTexture = true
  above : (r.lifetimeArena s.lifetime).base + r.lifetimeBase s.lifetime ≤ s.cpuBlob
  blob : s.cpuBlob + s.cpuBlobBytes ≤ s.path
  below : s.path + s.pathLength + 1 ≤
    (r.lifetimeArena s.lifetime).base + (r.lifetimeArena s.lifetime).offset

structure MapsIds (r : AssetRegistry) : Prop where
  wf : r.byId.Wf
  cap : r.byId.cap ≠ 0
  room : r.capacity * 2 ≤ r.byId.cap.toNat
  count : r.byId.count.toNat = r.liveCount
  entry : ∀ e ∈ r.byId.entries,
    (r.slots e.val.toNat).live = true ∧ (r.slots e.val.toNat).id = e.key
  live : ∀ i, (r.slots i).live = true →
    ∃ e ∈ r.byId.entries, e.val.toNat = i ∧ e.key = (r.slots i).id

structure ArenasWf (r : AssetRegistry) : Prop where
  level : r.levelArena.Wf
  global : r.globalArena.Wf
  io : r.ioArena.Wf
  levelBase : r.levelBaseOffset ≤ r.levelArena.offset
  globalBase : r.globalBaseOffset ≤ r.globalArena.offset
  ioBase : r.ioBaseOffset ≤ r.ioArena.offset
  apart : r.levelArena.base + r.levelArena.reserved ≤ r.globalArena.base ∨
    r.globalArena.base + r.globalArena.reserved ≤ r.levelArena.base

def Apart (s t : AssetSlot) : Prop :=
  s.path + s.pathLength + 1 ≤ t.cpuBlob ∨ t.path + t.pathLength + 1 ≤ s.cpuBlob

structure Inv (r : AssetRegistry) : Prop where
  slots : r.slotTable.Inv
  fresh_le : r.nextFresh ≤ r.capacity
  capacity_le : r.capacity ≤ 2 ^ 18
  count : r.liveCount + r.freeCount = r.nextFresh
  generation : ∀ i < r.nextFresh,
    0 < (r.slots i).generation ∧ (r.slots i).generation ≤ handleGenMask.toNat
  unissued : ∀ i, r.nextFresh ≤ i → (r.slots i).generation = 0
  valid : ∀ i, (r.slots i).live = true → r.ValidSlot (r.slots i)
  ids : r.MapsIds
  arenas : r.ArenasWf
  apart : ∀ i j, i ≠ j → (r.slots i).live = true → (r.slots j).live = true →
    Apart (r.slots i) (r.slots j)

variable {r : AssetRegistry} {i j : Nat} {id : AssetId} {h : AssetHandle}

theorem Inv.live_lt (inv : r.Inv) (hlive : (r.slots i).live = true) : i < r.nextFresh := by
  by_contra hge
  have hdead : (r.slots i).live = false := inv.slots.unissued i (Nat.le_of_not_lt hge)
  rw [hlive] at hdead
  cases hdead

theorem Inv.live_index (inv : r.Inv) (hlive : (r.slots i).live = true) : i < 2 ^ 18 :=
  Nat.lt_of_lt_of_le (inv.live_lt hlive) (Nat.le_trans inv.fresh_le inv.capacity_le)

theorem Inv.live_generation (inv : r.Inv) (hlive : (r.slots i).live = true) :
    0 < (r.slots i).generation ∧ (r.slots i).generation < 2 ^ 14 := by
  have hgen := inv.generation i (inv.live_lt hlive)
  rw [handleGenMask_toNat] at hgen
  omega

theorem MapsIds.get (ids : r.MapsIds) (id : AssetId) :
    (∃ i, assetMapGet r.byId id = some (some i) ∧ (r.slots i.toNat).live = true ∧
      (r.slots i.toNat).id = id) ∨
    (assetMapGet r.byId id = some none ∧ ∀ i, (r.slots i).live = true → (r.slots i).id ≠ id) := by
  rw [assetMapGet_eq]
  rcases hashmapGet_spec ids.wf id with ⟨e, he, heq, hget⟩ | ⟨hnone, hget⟩
  · have hkey : e.key = id := beq_iff_eq.mp heq
    obtain ⟨hlive, hid⟩ := ids.entry e he
    exact Or.inl ⟨e.val, hget, hlive, hid.trans hkey⟩
  · refine Or.inr ⟨hget, fun i hlive hid => ?_⟩
    obtain ⟨e, he, -, hkey⟩ := ids.live i hlive
    exact hnone e he (beq_iff_eq.mpr (hkey.trans hid))

theorem MapsIds.distinct (ids : r.MapsIds) (hi : (r.slots i).live = true)
    (hj : (r.slots j).live = true) (hid : (r.slots i).id = (r.slots j).id) : i = j := by
  obtain ⟨a, ha, rfl, hkeya⟩ := ids.live i hi
  obtain ⟨b, hb, rfl, hkeyb⟩ := ids.live j hj
  by_contra hne
  have hab : a ≠ b := fun h => hne (by rw [h])
  have hsymm : Std.Symm fun s t : HashMapSlot AssetId UInt32 => ¬ SameKey s t :=
    ⟨fun _ _ h h' => h h'.symm⟩
  refine ids.wf.distinct.forall ha hb hab ?_
  exact beq_iff_eq.mpr (hkeya.trans (hid.trans hkeyb.symm))

structure Outgrows (r t : AssetRegistry) : Prop where
  base : ∀ lifetime, (t.lifetimeArena lifetime).base = (r.lifetimeArena lifetime).base
  lifetimeBase : ∀ lifetime, t.lifetimeBase lifetime = r.lifetimeBase lifetime
  offset : ∀ lifetime, (r.lifetimeArena lifetime).offset ≤ (t.lifetimeArena lifetime).offset
  renderer : t.renderer = r.renderer

theorem ValidSlot.outgrown {t : AssetRegistry} {s : AssetSlot} (h : r.ValidSlot s)
    (hgrow : r.Outgrows t) : t.ValidSlot s where
  type := h.type
  state := h.state
  refcount := h.refcount
  texture := by
    rw [hgrow.renderer]
    exact h.texture
  above := by
    rw [hgrow.base, hgrow.lifetimeBase]
    exact h.above
  blob := h.blob
  below := by
    rw [hgrow.base]
    exact Nat.le_trans h.below (Nat.add_le_add_left (hgrow.offset _) _)

theorem ArenasWf.lifetimeArena (h : r.ArenasWf) (lifetime : Nat) :
    (r.lifetimeArena lifetime).Wf := by
  rw [AssetRegistry.lifetimeArena]
  split
  · exact h.level
  · exact h.global

theorem ArenasWf.slots_apart (h : r.ArenasWf) {s t : AssetSlot} (hs : r.ValidSlot s)
    (ht : r.ValidSlot t)
    (hne : ¬ (s.lifetime = assetLifetimeLevel ↔ t.lifetime = assetLifetimeLevel)) : Apart s t := by
  have hsabove := hs.above
  have hsbelow := hs.below
  have htabove := ht.above
  have htbelow := ht.below
  have hsoffset := (h.lifetimeArena s.lifetime).offset_le
  have hscommitted := (h.lifetimeArena s.lifetime).committed_le
  have htoffset := (h.lifetimeArena t.lifetime).offset_le
  have htcommitted := (h.lifetimeArena t.lifetime).committed_le
  have hapart := h.apart
  rw [Apart]
  by_cases hlevel : s.lifetime = assetLifetimeLevel
  · have hother : t.lifetime ≠ assetLifetimeLevel := fun ht => hne (by simp [hlevel, ht])
    simp only [AssetRegistry.lifetimeArena, if_pos hlevel, if_neg hother] at *
    omega
  · have hother : t.lifetime = assetLifetimeLevel := by
      by_contra ht
      exact hne (by simp [hlevel, ht])
    simp only [AssetRegistry.lifetimeArena, if_neg hlevel, if_pos hother] at *
    omega

end AssetRegistry

def AssetSlot.holds (s : AssetSlot) (texture : Handle) : Bool :=
  s.live && s.type == .texture && s.gpuHandle == texture

def AssetWorld.holders (w : AssetWorld) (texture : Handle) : Nat :=
  (List.range w.registry.capacity).countP fun i => (w.registry.slots i).holds texture

def AssetWorld.destructions (w : AssetWorld) (texture : Handle) : Nat :=
  (w.destroyed.map Prod.fst).count texture

structure AssetWorld.Inv (w : AssetWorld) : Prop where
  registry : w.registry.Inv
  textures : ∀ texture, handleIsNull texture = false →
    w.created.count texture = w.destructions texture + w.holders texture

section

variable {w : AssetWorld} {i slot : Nat} {texture : Handle}

theorem AssetWorld.Inv.withIo (inv : w.Inv) {io : Arena} (hkeeps : w.registry.ioArena.Keeps io)
    (hbase : w.registry.ioBaseOffset ≤ io.offset) : (w.withIo io).Inv where
  registry :=
    { inv.registry with
      valid := fun i hlive => (inv.registry.valid i hlive).outgrown
        ⟨fun _ => rfl, fun _ => rfl, fun _ => Nat.le_refl _, rfl⟩
      ids := { inv.registry.ids with }
      arenas := { inv.registry.arenas with io := hkeeps.wf, ioBase := hbase } }
  textures := inv.textures

theorem countP_range_update {n : Nat} {p q : Nat → Bool} (hslot : slot < n)
    (hother : ∀ i, i ≠ slot → q i = p i) :
    (List.range n).countP q + (p slot).toNat = (List.range n).countP p + (q slot).toNat := by
  induction n with
  | zero => exact absurd hslot (Nat.not_lt_zero slot)
  | succ n ih =>
    rw [List.range_succ, List.countP_append, List.countP_append, List.countP_singleton,
      List.countP_singleton]
    rcases Nat.lt_succ_iff_lt_or_eq.mp hslot with hlt | rfl
    · have hlast := hother n (Nat.ne_of_gt hlt)
      have := ih hlt
      rw [hlast]
      omega
    · have hrest : (List.range slot).countP q = (List.range slot).countP p :=
        List.countP_congr fun i hi => by
          rw [hother i (Nat.ne_of_lt (List.mem_range.mp hi))]
      rw [hrest]
      cases p slot <;> cases q slot <;> simp

theorem holders_update {t : AssetWorld} (hcapacity : t.registry.capacity = w.registry.capacity)
    (hslot : slot < w.registry.capacity)
    (hother : ∀ i, i ≠ slot → t.registry.slots i = w.registry.slots i) (texture : Handle) :
    t.holders texture + ((w.registry.slots slot).holds texture).toNat =
      w.holders texture + ((t.registry.slots slot).holds texture).toNat := by
  rw [AssetWorld.holders, AssetWorld.holders, hcapacity]
  exact countP_range_update (p := fun i => (w.registry.slots i).holds texture)
    (q := fun i => (t.registry.slots i).holds texture) hslot
    fun i hi => congrArg (AssetSlot.holds · texture) (hother i hi)

def AssetWorld.setRefcount (w : AssetWorld) (slot n : Nat) : AssetWorld :=
  w.setSlot slot { w.registry.slots slot with refcount := n }

theorem setRefcount_slots (w : AssetWorld) (slot n i : Nat) :
    (w.setRefcount slot n).registry.slots i =
      { w.registry.slots i with
        refcount := if i = slot then n else (w.registry.slots i).refcount } := by
  by_cases h : i = slot
  · subst h
    rw [if_pos rfl]
    exact Function.update_self ..
  · rw [if_neg h]
    exact Function.update_of_ne h ..

theorem AssetWorld.Inv.setRefcount (inv : w.Inv) (hglobal : (w.registry.slots slot).lifetime =
    assetLifetimeGlobal) {n : Nat} (hn : 0 < n) :
    (w.setRefcount slot n).Inv := by
  have hslots := setRefcount_slots w slot n
  generalize ht : w.setRefcount slot n = t at hslots
  have htable : t.registry.slotTable = w.registry.slotTable := by
    subst ht
    refine Slots.ext rfl (funext fun i => ?_) (funext fun i => ?_) rfl
    · exact (congrArg AssetSlot.generation (hslots i)).trans rfl
    · exact (congrArg AssetSlot.live (hslots i)).trans rfl
  have r := inv.registry
  refine ⟨⟨?_, ?_, ?_, ?_, fun i hi => ?_, fun i hi => ?_, fun i hlive => ?_, ?_, ?_,
    fun i j hne hi hj => ?_⟩, fun texture hnull => ?_⟩
  · rw [htable]
    exact r.slots
  · subst ht
    exact r.fresh_le
  · subst ht
    exact r.capacity_le
  · subst ht
    exact r.count
  · rw [hslots]
    subst ht
    exact r.generation i hi
  · rw [hslots]
    subst ht
    exact r.unissued i hi
  · rw [hslots] at hlive ⊢
    have hvalid := r.valid i hlive
    subst ht
    refine ⟨hvalid.type, hvalid.state, ?_, hvalid.texture, hvalid.above, hvalid.blob, hvalid.below⟩
    dsimp only
    split
    · next hslot =>
      subst hslot
      exact Or.inr ⟨hglobal, hn⟩
    · exact hvalid.refcount
  · have hids := r.ids
    refine ⟨?_, ?_, ?_, ?_, fun e he => ?_, fun i hlive => ?_⟩
    · subst ht
      exact hids.wf
    · subst ht
      exact hids.cap
    · subst ht
      exact hids.room
    · subst ht
      exact hids.count
    · rw [hslots]
      subst ht
      exact hids.entry e he
    · rw [hslots] at hlive ⊢
      subst ht
      exact hids.live i hlive
  · subst ht
    exact { r.arenas with }
  · rw [hslots] at hi hj
    rw [AssetRegistry.Apart, hslots, hslots]
    exact r.apart i j hne hi hj
  · have hholders : t.holders texture = w.holders texture := by
      rw [AssetWorld.holders, AssetWorld.holders]
      simp only [hslots]
      subst ht
      rfl
    rw [hholders]
    subst ht
    exact inv.textures texture hnull

end

end ChoonzMoba
