import ChoonzMoba.Assets.AssetIdSpec
import ChoonzMoba.Assets.RegistryInv

namespace ChoonzMoba

def Spells (path : Option CString) (normalized : List UInt8) : Prop :=
  ∃ s, path = some s ∧ NormalizesTo s.text normalized

theorem Spells.unique {path : Option CString} {s t : List UInt8} (hs : Spells path s)
    (ht : Spells path t) : s = t := by
  obtain ⟨a, rfl, ha⟩ := hs
  obtain ⟨b, hb, hbt⟩ := ht
  cases hb
  exact ha.unique hbt

theorem Spells.length_lt {path : Option CString} {normalized : List UInt8}
    (h : Spells path normalized) : normalized.length < assetPathMax := by
  obtain ⟨s, -, hs⟩ := h
  have hlength := hs.length
  rw [assetPathMax] at hlength ⊢
  omega

theorem Spells.of_normalized {path : Option CString} {normalized : List UInt8}
    (h : Spells path normalized) : Spells (some (.of normalized)) normalized := by
  have hlength := h.length_lt
  obtain ⟨s, -, hs⟩ := h
  have hcanonical := hs.canonical
  have htext : (CString.of normalized).text = normalized := by
    refine List.takeWhile_eq_self_iff.mpr fun c hc => bne_iff_ne.mpr ?_
    rintro rfl
    exact hcanonical.zero_not_mem hc
  refine ⟨_, rfl, ?_⟩
  rw [htext]
  exact hcanonical.normalizesTo (Nat.le_pred_of_lt hlength)

theorem normalizePath_cases (path : Option CString) :
    (∃ normalized, Spells path normalized ∧ normalizePath path = some (some normalized)) ∨
      ((∀ normalized, ¬ Spells path normalized) ∧ normalizePath path = some none) := by
  cases path with
  | none =>
    refine Or.inr ⟨?_, rfl⟩
    rintro normalized ⟨s, hs, -⟩
    cases hs
  | some s =>
    by_cases hform : ∃ canonical, NormalizesTo s.text canonical
    · obtain ⟨canonical, hnormal⟩ := hform
      have hshort : canonical.length < assetPathMax :=
        Nat.lt_of_le_of_lt hnormal.length (by decide)
      have haccept := assetPathNormalize_accepts s.terminated hnormal ⟨fun _ => 0, 0⟩ hshort
      refine Or.inl ⟨canonical, ⟨s, rfl, hnormal⟩, ?_⟩
      have htext := PathBuffer.text_holding ⟨fun _ => 0, 0⟩ canonical
      rw [PathBuffer.text] at htext
      rw [normalizePath, Option.map_some, CString.bytes, haccept, Option.map_some, if_pos rfl, htext]
    · have hreject : assetPathNormalize (some (s.text ++ [0])) ⟨fun _ => 0, 0⟩ assetPathMax =
          some (false, ⟨fun _ => 0, 0⟩) :=
        assetPathNormalize_rejects s.terminated _ fun canonical hnormal =>
          absurd ⟨canonical, hnormal⟩ hform
      refine Or.inr ⟨?_, ?_⟩
      · rintro normalized ⟨t, ht, hnormal⟩
        cases ht
        exact hform ⟨normalized, hnormal⟩
      · rw [normalizePath, Option.map_some, CString.bytes, hreject]
        rfl

structure AssetWorld.Registered (w : AssetWorld) (slot : Nat) (path : List UInt8)
    (type : AssetType) (lifetime : Nat) : Prop where
  live : (w.registry.slots slot).live = true
  id : (w.registry.slots slot).id = assetIdOf path
  type : (w.registry.slots slot).type = type
  lifetime : (w.registry.slots slot).lifetime = lifetime
  length : (w.registry.slots slot).pathLength = path.length
  path : readMemory w.memory (w.registry.slots slot).path path.length = path

def AssetWorld.share (w : AssetWorld) (slot : Nat) : AssetWorld :=
  if (w.registry.slots slot).lifetime = assetLifetimeGlobal then
    w.setRefcount slot ((w.registry.slots slot).refcount + 1)
  else w

def AssetRegistry.slotHandle (r : AssetRegistry) (slot : Nat) : AssetHandle :=
  handleMake slot (r.slots slot).generation

inductive Existing (w : AssetWorld) (path : List UInt8) (type : AssetType) (lifetime : Nat) :
    Option (AssetHandle × AssetWorld) → Prop
  | absent : (∀ i, (w.registry.slots i).live = true →
      (w.registry.slots i).id ≠ assetIdOf path) → Existing w path type lifetime none
  | clash : Existing w path type lifetime (some (handleNull, w))
  | shared {slot : Nat} : w.Registered slot path type lifetime →
      Existing w path type lifetime (some (w.registry.slotHandle slot, w.share slot))

section

variable {w : AssetWorld} {path : List UInt8} {type : AssetType} {lifetime : Nat}

theorem AssetWorld.Inv.existing (inv : w.Inv) (path : List UInt8) (type : AssetType)
    (lifetime : Nat) : ∃ r, existingAsset w (assetIdOf path) path type lifetime = some r ∧
      Existing w path type lifetime r := by
  rw [existingAsset]
  rcases inv.registry.ids.get (assetIdOf path) with ⟨i, hget, hlive, hid⟩ | ⟨hget, habsent⟩
  · rw [hget, Option.map_some, Option.map_some]
    refine ⟨_, rfl, ?_⟩
    dsimp only
    split
    · exact .clash
    · next hmatch =>
      simp only [not_or, not_not] at hmatch
      obtain ⟨-, -, -, htype, hlifetime, -, hlength, hpath⟩ := hmatch
      have hregistered : w.Registered i.toNat path type lifetime :=
        ⟨hlive, hid, htype, hlifetime, hlength, hpath⟩
      have hshared := Existing.shared hregistered
      rw [AssetWorld.share, hlifetime] at hshared
      split
      · next hglobal =>
        rw [if_pos hglobal] at hshared
        split
        · exact .clash
        · exact hshared
      · next hglobal =>
        rw [if_neg hglobal] at hshared
        exact hshared
  · rw [hget, Option.map_some, Option.map_none]
    exact ⟨none, rfl, .absent habsent⟩

theorem AssetWorld.Inv.share (inv : w.Inv) (slot : Nat) : (w.share slot).Inv := by
  rw [AssetWorld.share]
  split
  · next hglobal => exact inv.setRefcount hglobal (Nat.succ_pos _)
  · exact inv

end

structure Arena.Stores (a : Arena) (bytes pathBytes : Nat) (b : Arena) (cpu stored : Nat) :
    Prop where
  keeps : a.Keeps b
  above : a.base + a.offset ≤ cpu
  blob : cpu + bytes ≤ stored
  below : stored + pathBytes = a.base + b.offset

section

variable {r : AssetRegistry} {slot : Nat} {s : AssetSlot}

theorem AssetRegistry.freeList_succ {n : Nat} (h : r.freeCount = n + 1) :
    r.freeList = r.freeStack n :: ((List.range n).map r.freeStack).reverse := by
  rw [AssetRegistry.freeList, h, List.range_succ, List.map_append, List.reverse_append]
  rfl

def AssetRegistry.filled (r : AssetRegistry) (slot : Nat) (s : AssetSlot) : AssetRegistry :=
  { takeSlot r with
    slots := Function.update r.slots slot s
    liveCount := r.liveCount + 1 }

structure AssetRegistry.Takes (r : AssetRegistry) (slot : Nat) : Prop where
  dead : (r.slots slot).live = false
  lt : slot < r.capacity
  room : r.liveCount < r.capacity
  step : ∀ s : AssetSlot, s.live = true →
    s.generation = (if (r.slots slot).generation = 0 then 1 else (r.slots slot).generation) →
    Slots.Step handleGenMask.toNat r.slotTable (.issued slot s.generation)
      (r.filled slot s).slotTable
  fresh : (takeSlot r).nextFresh = r.nextFresh ∧ slot < r.nextFresh ∧
      (takeSlot r).freeCount + 1 = r.freeCount ∨
    (takeSlot r).nextFresh = r.nextFresh + 1 ∧ slot = r.nextFresh ∧
      (takeSlot r).freeCount = r.freeCount

theorem filled_live (hs : s.live = true) :
    (fun i => (Function.update r.slots slot s i).live) =
      Function.update (fun i => (r.slots i).live) slot true := by
  funext i
  by_cases hi : i = slot
  · subst hi
    simp [hs]
  · simp [hi]

theorem AssetRegistry.Inv.takes_recycled (inv : r.Inv) (hroom : r.liveCount < r.capacity) {n : Nat}
    (hn : r.freeCount = n + 1) (hlt : r.freeStack n < r.capacity)
    (hdead : (r.slots (r.freeStack n)).live = false)
    (hgen : (r.slots (r.freeStack n)).generation ≠ 0) : r.Takes (r.freeStack n) := by
  have hfree : r.freeCount ≠ 0 := by omega
  have hlast : r.freeCount - 1 = n := by omega
  have hlist := AssetRegistry.freeList_succ hn
  refine ⟨hdead, hlt, hroom, fun s hs hsgen => ?_, Or.inl ⟨if_pos hfree, ?_, ?_⟩⟩
  · rw [if_neg hgen] at hsgen
    rw [hsgen]
    have htable : (r.filled (r.freeStack n) s).slotTable =
        { r.slotTable with
          live := Function.update r.slotTable.live (r.freeStack n) true
          free := ((List.range n).map r.freeStack).reverse } := by
      refine Slots.ext (if_pos hfree) (funext fun i => ?_) (filled_live hs) ?_
      · by_cases hi : i = r.freeStack n
        · subst hi
          simp [AssetRegistry.filled, AssetRegistry.slotTable, hsgen]
        · simp [AssetRegistry.filled, AssetRegistry.slotTable, hi]
      · simp only [AssetRegistry.slotTable, AssetRegistry.freeList, AssetRegistry.filled,
          takeSlot, if_pos hfree, hlast]
    rw [htable]
    exact .recycle hlist
  · have hmem : r.freeStack n ∈ r.freeList := by
      rw [hlist]
      exact List.mem_cons_self
    exact ((inv.slots.mem_free (r.freeStack n)).mp hmem).1
  · simp only [takeSlot, if_pos hfree]
    omega

theorem AssetRegistry.takes_fresh (hroom : r.liveCount < r.capacity) (hfree : r.freeCount = 0)
    (hlt : r.nextFresh < r.capacity) (hdead : (r.slots r.nextFresh).live = false)
    (hgen : (r.slots r.nextFresh).generation = 0) : r.Takes r.nextFresh := by
  have hempty := not_not.mpr hfree
  have hnil : r.slotTable.free = [] := by
    show r.freeList = []
    rw [AssetRegistry.freeList, hfree]
    rfl
  refine ⟨hdead, hlt, hroom, fun s hs hsgen => ?_, Or.inr ⟨if_neg hempty, rfl, if_neg hempty⟩⟩
  rw [if_pos hgen] at hsgen
  rw [hsgen]
  have htable : (r.filled r.nextFresh s).slotTable =
      { r.slotTable with
        fresh := r.slotTable.fresh + 1
        generation := Function.update r.slotTable.generation r.slotTable.fresh 1
        live := Function.update r.slotTable.live r.slotTable.fresh true } := by
    refine Slots.ext (if_neg hempty) (funext fun i => ?_) (filled_live hs) ?_
    · by_cases hi : i = r.nextFresh
      · subst hi
        simp [AssetRegistry.filled, AssetRegistry.slotTable, hsgen]
      · simp [AssetRegistry.filled, AssetRegistry.slotTable, hi]
    · simp [AssetRegistry.slotTable, AssetRegistry.freeList, AssetRegistry.filled, takeSlot, hfree]
  rw [htable]
  exact .fresh hnil

theorem AssetRegistry.Inv.takes (inv : r.Inv) (h : nextSlotAvailable r = some slot) :
    r.Takes slot := by
  rw [nextSlotAvailable] at h
  split at h
  · cases h
  next hroom =>
  rw [Nat.not_le] at hroom
  split at h
  · next hfree =>
    dsimp only at h
    split at h
    · cases h
    · next hslot =>
      cases h
      obtain ⟨n, hn⟩ := Nat.exists_eq_succ_of_ne_zero hfree
      have hlast : r.freeCount - 1 = n := by omega
      rw [hlast] at hslot ⊢
      simp only [not_or, Nat.not_le, Bool.not_eq_true] at hslot
      obtain ⟨hlt, hdead, hgen, -⟩ := hslot
      exact inv.takes_recycled hroom hn hlt hdead hgen
  · next hfree =>
    dsimp only at h
    split at h
    · cases h
    · next hslot =>
      cases h
      simp only [not_or, Nat.not_le, Bool.not_eq_true, not_not] at hslot
      obtain ⟨hlt, hdead, hgen⟩ := hslot
      exact AssetRegistry.takes_fresh hroom (not_not.mp hfree) hlt hdead hgen

end

structure Commits (w : AssetWorld) (slot lifetime : Nat) (path : List UInt8)
    (content : AssetContent) (arena : Arena) (cpu stored : Nat) (byId : HashMap AssetId UInt32) :
    Prop where
  takes : w.registry.Takes slot
  lifetime_le : lifetime ≤ assetLifetimeGlobal
  type : content.type ≠ .none
  texture : content.type = .texture →
    handleIsNull content.gpuHandle = false ∧ w.registry.renderer.destroyTexture = true
  sound : content.type ≠ .texture → content.gpuHandle = handleNull
  length : path.length < assetPathMax
  absent : ∀ i, (w.registry.slots i).live = true → (w.registry.slots i).id ≠ assetIdOf path
  stores : (w.registry.lifetimeArena lifetime).Stores content.source.length (path.length + 1) arena
    cpu stored
  wf : byId.Wf
  shape : w.registry.byId.SameShape byId
  entries : byId.entries.Perm
    (⟨assetIdOf path, UInt32.ofNat slot, hashmapHash (assetIdOf path)⟩ :: w.registry.byId.entries)

def AssetWorld.committed (w : AssetWorld) (slot lifetime : Nat) (path : List UInt8)
    (content : AssetContent) (arena : Arena) (cpu stored : Nat) (byId : HashMap AssetId UInt32) :
    AssetWorld :=
  let created := w.createTexture content.gpuHandle
  let filled := fillSlot created slot lifetime (assetIdOf path) path content arena cpu stored
  { filled with registry := { filled.registry with byId } }

section

variable {w t : AssetWorld} {slot lifetime cpu stored : Nat} {path : List UInt8}
  {content : AssetContent} {arena : Arena} {byId : HashMap AssetId UInt32}

def AssetRegistry.newSlot (r : AssetRegistry) (slot lifetime : Nat) (path : List UInt8)
    (content : AssetContent) (cpu stored : Nat) : AssetSlot :=
  filledSlot (r.slots slot).generation lifetime (assetIdOf path) path content cpu stored

theorem committed_slots (i : Nat) :
    (w.committed slot lifetime path content arena cpu stored byId).registry.slots i =
      if i = slot then w.registry.newSlot slot lifetime path content cpu stored
      else w.registry.slots i :=
  Function.update_apply ..

theorem committed_live :
    ((w.committed slot lifetime path content arena cpu stored byId).registry.slots slot).live =
      true := by
  rw [committed_slots, if_pos rfl]
  rfl

theorem committed_arena (l : Nat) :
    (w.committed slot lifetime path content arena cpu stored byId).registry.lifetimeArena l =
      if (l = assetLifetimeLevel) ↔ (lifetime = assetLifetimeLevel) then arena
      else w.registry.lifetimeArena l := by
  show (w.registry.setLifetimeArena lifetime arena).lifetimeArena l = _
  rw [AssetRegistry.lifetimeArena, AssetRegistry.lifetimeArena, AssetRegistry.setLifetimeArena]
  by_cases hl : l = assetLifetimeLevel
  · by_cases hlevel : lifetime = assetLifetimeLevel
    · simp [hl, hlevel]
    · simp [hl, hlevel]
  · by_cases hlevel : lifetime = assetLifetimeLevel
    · simp [hl, hlevel]
    · simp [hl, hlevel]

theorem lifetimeArena_eq {l : Nat} (h : (l = assetLifetimeLevel) ↔ (lifetime = assetLifetimeLevel))
    (r : AssetRegistry) : r.lifetimeArena l = r.lifetimeArena lifetime := by
  simp only [AssetRegistry.lifetimeArena, h]

namespace Commits

variable (c : Commits w slot lifetime path content arena cpu stored byId)
include c

theorem outgrows : w.registry.Outgrows
    (w.committed slot lifetime path content arena cpu stored byId).registry where
  base l := by
    rw [committed_arena]
    split
    · next h =>
      rw [lifetimeArena_eq h]
      exact c.stores.keeps.backing.base
    · rfl
  lifetimeBase _ := rfl
  offset l := by
    rw [committed_arena]
    split
    · next h =>
      rw [lifetimeArena_eq h]
      have hbelow := c.stores.below
      have habove := c.stores.above
      have hblob := c.stores.blob
      omega
    · exact Nat.le_refl _
  renderer := rfl

theorem pathLength : path.length % 2 ^ 16 = path.length := by
  have hlength := c.length
  rw [assetPathMax] at hlength
  exact Nat.mod_eq_of_lt (by omega)

theorem step : Slots.Step handleGenMask.toNat w.registry.slotTable
    (.issued slot (w.registry.newSlot slot lifetime path content cpu stored).generation)
    (w.committed slot lifetime path content arena cpu stored byId).registry.slotTable :=
  c.takes.step _ rfl rfl

theorem validSlot (inv : w.registry.Inv) :
    (w.committed slot lifetime path content arena cpu stored byId).registry.ValidSlot
      (w.registry.newSlot slot lifetime path content cpu stored) := by
  have hown : (w.committed slot lifetime path content arena cpu stored
      byId).registry.lifetimeArena lifetime = arena := by
    rw [committed_arena, if_pos Iff.rfl]
  have hlifetime : (w.registry.newSlot slot lifetime path content cpu stored).lifetime = lifetime :=
    rfl
  refine ⟨c.type, rfl, ?_, c.texture, ?_, c.stores.blob, ?_⟩
  · have hle := c.lifetime_le
    rcases Nat.lt_or_ge lifetime 1 with hlevel | hglobal
    · left
      have hzero : lifetime = assetLifetimeLevel := Nat.lt_one_iff.mp hlevel
      refine ⟨hzero, if_neg ?_⟩
      rw [hzero]
      decide
    · right
      have hone : lifetime = assetLifetimeGlobal := Nat.le_antisymm hle hglobal
      refine ⟨hone, ?_⟩
      show 0 < if lifetime = assetLifetimeGlobal then 1 else 0
      rw [if_pos hone]
      exact Nat.one_pos
  · rw [hlifetime, c.outgrows.base, c.outgrows.lifetimeBase]
    refine Nat.le_trans (Nat.add_le_add_left ?_ _) c.stores.above
    rw [AssetRegistry.lifetimeBase, AssetRegistry.lifetimeArena]
    split
    · exact inv.arenas.levelBase
    · exact inv.arenas.globalBase
  · rw [hlifetime, hown]
    show stored + path.length % 2 ^ 16 + 1 ≤ _
    have hbelow := c.stores.below
    rw [c.pathLength, c.stores.keeps.backing.base]
    omega

theorem arenasWf (inv : w.registry.Inv) :
    (w.committed slot lifetime path content arena cpu stored byId).registry.ArenasWf := by
  have harenas := inv.arenas
  have hkeeps := c.stores.keeps
  have hgrow := c.outgrows.offset lifetime
  rw [committed_arena, if_pos Iff.rfl] at hgrow
  rw [AssetRegistry.lifetimeArena] at hkeeps hgrow
  by_cases hlevel : lifetime = assetLifetimeLevel
  · rw [if_pos hlevel] at hkeeps hgrow
    have hl : (w.committed slot lifetime path content arena cpu stored byId).registry.levelArena =
        arena := if_pos hlevel
    have hg : (w.committed slot lifetime path content arena cpu stored byId).registry.globalArena =
        w.registry.globalArena := if_pos hlevel
    refine ⟨?_, ?_, harenas.io, ?_, ?_, harenas.ioBase, ?_⟩
    · rw [hl]
      exact hkeeps.wf
    · rw [hg]
      exact harenas.global
    · rw [hl]
      exact Nat.le_trans harenas.levelBase hgrow
    · rw [hg]
      exact harenas.globalBase
    · rw [hl, hg, hkeeps.backing.base, hkeeps.backing.reserved]
      exact harenas.apart
  · rw [if_neg hlevel] at hkeeps hgrow
    have hl : (w.committed slot lifetime path content arena cpu stored byId).registry.levelArena =
        w.registry.levelArena := if_neg hlevel
    have hg : (w.committed slot lifetime path content arena cpu stored byId).registry.globalArena =
        arena := if_neg hlevel
    refine ⟨?_, ?_, harenas.io, ?_, ?_, harenas.ioBase, ?_⟩
    · rw [hl]
      exact harenas.level
    · rw [hg]
      exact hkeeps.wf
    · rw [hl]
      exact harenas.levelBase
    · rw [hg]
      exact Nat.le_trans harenas.globalBase hgrow
    · rw [hl, hg, hkeeps.backing.base, hkeeps.backing.reserved]
      exact harenas.apart

theorem apart (inv : w.registry.Inv) {i : Nat} (hlive : (w.registry.slots i).live = true) :
    AssetRegistry.Apart (w.registry.slots i)
      (w.registry.newSlot slot lifetime path content cpu stored) := by
  have hold := inv.valid i hlive
  by_cases hsame : (w.registry.slots i).lifetime = assetLifetimeLevel ↔ lifetime = assetLifetimeLevel
  · left
    refine Nat.le_trans hold.below ?_
    rw [lifetimeArena_eq hsame]
    exact c.stores.above
  · exact (c.arenasWf inv).slots_apart (hold.outgrown c.outgrows) (c.validSlot inv) hsame

theorem mapsIds (inv : w.registry.Inv) :
    (w.committed slot lifetime path content arena cpu stored byId).registry.MapsIds := by
  have hids := inv.ids
  have hdead := c.takes.dead
  have hindex : (UInt32.ofNat slot).toNat = slot := by
    have hlt := c.takes.lt
    have hle := inv.capacity_le
    exact UInt32.toNat_ofNat_of_lt' (by simp only [UInt32.size]; omega)
  have hcap : byId.cap = w.registry.byId.cap := c.shape.cap
  refine ⟨c.wf, ?_, ?_, ?_, fun e he => ?_, fun i hlive => ?_⟩
  · show byId.cap ≠ 0
    rw [hcap]
    exact hids.cap
  · show w.registry.capacity * 2 ≤ byId.cap.toNat
    rw [hcap]
    exact hids.room
  · show byId.count.toNat = w.registry.liveCount + 1
    rw [c.wf.count, c.entries.length_eq, List.length_cons, ← hids.wf.count, hids.count]
  · rw [committed_slots]
    rcases List.mem_cons.mp (c.entries.mem_iff.mp he) with rfl | hold
    · rw [if_pos hindex]
      exact ⟨rfl, rfl⟩
    · have hentry := hids.entry e hold
      rw [if_neg]
      · exact hentry
      · intro hslot
        rw [hslot, hdead] at hentry
        exact Bool.noConfusion hentry.1
  · rw [committed_slots] at hlive ⊢
    split at hlive
    · next hslot =>
      rw [if_pos hslot]
      exact ⟨_, c.entries.mem_iff.mpr List.mem_cons_self, hindex.trans hslot.symm, rfl⟩
    · next hslot =>
      rw [if_neg hslot]
      obtain ⟨e, he, hval, hkey⟩ := hids.live i hlive
      exact ⟨e, c.entries.mem_iff.mpr (List.mem_cons_of_mem _ he), hval, hkey⟩

theorem registryInv (inv : w.registry.Inv) :
    (w.committed slot lifetime path content arena cpu stored byId).registry.Inv := by
  have hfresh := c.takes.fresh
  have hlt := c.takes.lt
  have hle := inv.fresh_le
  have hcount := inv.count
  have hnewFresh : (w.committed slot lifetime path content arena cpu stored byId).registry.nextFresh =
      (takeSlot w.registry).nextFresh := rfl
  have hnewFree : (w.committed slot lifetime path content arena cpu stored byId).registry.freeCount =
      (takeSlot w.registry).freeCount := rfl
  have hgen : 0 < (w.registry.newSlot slot lifetime path content cpu stored).generation ∧
      (w.registry.newSlot slot lifetime path content cpu stored).generation ≤
        handleGenMask.toNat := by
    show 0 < (if (w.registry.slots slot).generation = 0 then 1 else _) ∧ _
    split
    · next hzero =>
      refine ⟨Nat.one_pos, ?_⟩
      show (if (w.registry.slots slot).generation = 0 then 1 else _) ≤ _
      rw [if_pos hzero]
      decide
    · next hne =>
      refine ⟨Nat.pos_of_ne_zero hne, ?_⟩
      show (if (w.registry.slots slot).generation = 0 then 1 else _) ≤ _
      rw [if_neg hne]
      refine (inv.generation slot (Nat.lt_of_not_le fun hge => hne (inv.unissued slot hge))).2
  refine ⟨inv.slots.step c.step, ?_, inv.capacity_le, ?_, fun i hi => ?_, fun i hi => ?_,
    fun i hlive => ?_, c.mapsIds inv, c.arenasWf inv, fun i j hne hi hj => ?_⟩
  · show (takeSlot w.registry).nextFresh ≤ w.registry.capacity
    omega
  · show w.registry.liveCount + 1 + (takeSlot w.registry).freeCount =
      (takeSlot w.registry).nextFresh
    omega
  · rw [committed_slots]
    split
    · exact hgen
    · next hslot => exact inv.generation i (by omega)
  · rw [committed_slots, if_neg (by omega)]
    exact inv.unissued i (by omega)
  · rw [committed_slots] at hlive ⊢
    split at hlive
    · next hslot =>
      rw [if_pos hslot]
      exact c.validSlot inv
    · next hslot =>
      rw [if_neg hslot]
      exact (inv.valid i hlive).outgrown c.outgrows
  · rw [committed_slots] at hi hj ⊢
    rw [committed_slots]
    split at hi
    · next hslot =>
      rw [if_pos hslot]
      rw [if_neg (fun h => hne (hslot.trans h.symm))] at hj ⊢
      exact (c.apart inv hj).symm
    · next hslot =>
      rw [if_neg hslot]
      split at hj
      · next hslot' =>
        rw [if_pos hslot']
        exact c.apart inv hi
      · next hslot' =>
        rw [if_neg hslot']
        exact inv.apart i j hne hi hj

theorem inv (inv : w.Inv) :
    (w.committed slot lifetime path content arena cpu stored byId).Inv := by
  refine ⟨c.registryInv inv.registry, fun texture hnull => ?_⟩
  have hold := inv.textures texture hnull
  have hcount := holders_update (w := w)
    (t := w.committed slot lifetime path content arena cpu stored byId) rfl c.takes.lt
    (fun i hi => by rw [committed_slots, if_neg hi]) texture
  have hdead : (w.registry.slots slot).holds texture = false := by
    rw [AssetSlot.holds, c.takes.dead]
    rfl
  have hcreated : (w.committed slot lifetime path content arena cpu stored byId).created =
      if handleIsNull content.gpuHandle = true then w.created
      else content.gpuHandle :: w.created := rfl
  have hnew : ((w.committed slot lifetime path content arena cpu stored byId).registry.slots
      slot).holds texture = (content.type == .texture && content.gpuHandle == texture) := by
    rw [committed_slots, if_pos rfl]
    rfl
  rw [hdead, hnew, Bool.toNat_false, Nat.add_zero] at hcount
  show _ = w.destructions texture + _
  rw [hcreated, hcount]
  by_cases hkind : content.type = .texture
  · rw [(c.texture hkind).1, if_neg Bool.false_ne_true, List.count_cons, hold, hkind,
      beq_self_eq_true, Bool.true_and, Nat.add_assoc]
    cases content.gpuHandle == texture <;> rfl
  · rw [c.sound hkind, beq_eq_false_iff_ne.mpr hkind, Bool.false_and, Bool.toNat_false,
      Nat.add_zero]
    exact hold

end Commits

theorem arenaHasRoom_spec {a : Arena} {dataBytes pathBytes : Nat}
    (h : arenaHasRoom a dataBytes pathBytes = true) :
    a.offset + 15 + dataBytes + pathBytes ≤ a.reserved := by
  rw [arenaHasRoom] at h
  split at h
  · cases h
  next hvalid =>
  dsimp only at h
  split at h
  · cases h
  split at h
  · cases h
  have hroom := of_decide_eq_true h
  simp only [validArena, memDefaultAlign, Bool.not_eq_false, Bool.and_eq_true,
    decide_eq_true_eq] at hvalid hroom
  omega

theorem Arena.Wf.stores_outcome {a : Arena} (wf : a.Wf) {bytes pathBytes : Nat}
    (hroom : a.offset + 15 + bytes + pathBytes ≤ a.reserved) :
    Outcome (¬ a.CommitSucceeds)
      (fun r => ∃ b cpu stored, a.Stores bytes pathBytes b cpu stored ∧ cpu ≠ 0 ∧ stored ≠ 0 ∧
        r = (b, cpu, stored))
      (pushAsset a bytes pathBytes) := by
  have hfirst := wf.push_outcome bytes (k := 4) (by omega)
  refine hfirst.bind ?_
  rintro ⟨b, cpu⟩ ⟨hb, hle⟩
  have hreserved := hb.keeps.backing.reserved
  have hsecond := hb.keeps.wf.push_outcome pathBytes (k := 0) (by omega)
  refine (hsecond.imp (fun h hs => h (hb.keeps.commits hs)) fun _ h => h).map ?_
  rintro ⟨c, stored⟩ ⟨hc, -⟩
  have hbase := wf.base_ne
  have hbb := hb.keeps.backing.base
  have hstart := hb.start
  have hstop := hb.stop
  have hstart' := hc.start
  have hstop' := hc.stop
  dsimp only at *
  exact ⟨c, cpu, stored, ⟨hb.keeps.trans hc.keeps, hstart, by omega, by omega⟩, by omega, by omega,
    rfl⟩

structure AssetContent.Fits (content : AssetContent) (r : AssetRegistry) : Prop where
  type : content.type ≠ .none
  texture : content.type = .texture →
    handleIsNull content.gpuHandle = false ∧ r.renderer.destroyTexture = true
  sound : content.type ≠ .texture → content.gpuHandle = handleNull

inductive Committed (w : AssetWorld) (path : List UInt8) (lifetime : Nat) (content : AssetContent) :
    AssetHandle × AssetWorld → Prop
  | full : nextSlotAvailable w.registry = none ∨
      arenaHasRoom (w.registry.lifetimeArena lifetime) content.source.length (path.length + 1) =
        false →
      Committed w path lifetime content (handleNull, w.createTexture content.gpuHandle)
  | issued {slot : Nat} {arena : Arena} {cpu stored : Nat} {byId : HashMap AssetId UInt32} :
      Commits w slot lifetime path content arena cpu stored byId →
      Committed w path lifetime content
        ((w.committed slot lifetime path content arena cpu stored byId).registry.slotHandle slot,
          w.committed slot lifetime path content arena cpu stored byId)

theorem AssetWorld.Inv.commitAsset (inv : w.Inv) (hle : lifetime ≤ assetLifetimeGlobal)
    (hfits : content.Fits w.registry) (hlength : path.length < assetPathMax)
    (habsent : ∀ i, (w.registry.slots i).live = true → (w.registry.slots i).id ≠ assetIdOf path) :
    Outcome (¬ (w.registry.lifetimeArena lifetime).CommitSucceeds)
      (Committed w path lifetime content)
      (commitAsset (w.createTexture content.gpuHandle) path (assetIdOf path) lifetime content) := by
  rw [ChoonzMoba.commitAsset]
  dsimp only
  split
  · next hfull => exact .returned (.full (Or.inr hfull))
  next hroom =>
  rw [Bool.not_eq_false] at hroom
  have r := inv.registry
  cases hslot : nextSlotAvailable (w.createTexture content.gpuHandle).registry with
  | none => exact .returned (.full (Or.inl hslot))
  | some slot =>
    have htakes := r.takes hslot
    refine ((r.arenas.lifetimeArena lifetime).stores_outcome (arenaHasRoom_spec hroom)).bind ?_
    rintro p ⟨arena, cpu, stored, hstores, hcpu, hstored, rfl⟩
    dsimp only
    rw [if_neg (not_or.mpr ⟨hcpu, hstored⟩)]
    have hroom' : (w.registry.byId.count.toNat + 1) * 8 < w.registry.byId.cap.toNat * 7 := by
      have hcap := r.ids.room
      have hcount := r.ids.count
      have hlt := htakes.room
      omega
    have hplaced : ∃ byId, hashmapSet arenaAllocator assetMapSlot w.registry.persistentArena
        w.registry.byId (assetIdOf path) (UInt32.ofNat slot) =
          some (w.registry.persistentArena, byId) ∧ byId.Wf ∧ w.registry.byId.SameShape byId ∧
        Stored w.registry.byId.entries
          ⟨assetIdOf path, UInt32.ofNat slot, hashmapHash (assetIdOf path)⟩ byId.entries :=
      hashmapSet_in_place r.ids.wf r.ids.cap hroom' (assetIdOf path) (UInt32.ofNat slot)
    obtain ⟨byId, hset, hwf, hshape, hentries⟩ := hplaced
    have hcommits : Commits w slot lifetime path content arena cpu stored byId := by
      refine ⟨htakes, hle, hfits.type, hfits.texture, hfits.sound, hlength, habsent, hstores, hwf,
        hshape, ?_⟩
      cases hentries with
      | inserted _ hperm => exact hperm
      | @updated s _ _ hperm hsame _ =>
        obtain ⟨hlive, hid⟩ := r.ids.entry s (hperm.mem_iff.mpr List.mem_cons_self)
        exact absurd (hid.trans (beq_iff_eq.mp hsame)) (habsent _ hlive)
    show Outcome _ _ ((hashmapSet arenaAllocator assetMapSlot w.registry.persistentArena
      w.registry.byId (assetIdOf path) (UInt32.ofNat slot)).map _)
    rw [hset, Option.map_some]
    exact .returned (.issued hcommits)

end

end ChoonzMoba
