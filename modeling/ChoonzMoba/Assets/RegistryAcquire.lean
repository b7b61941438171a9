import ChoonzMoba.Assets.RegistryCommit
import ChoonzMoba.Assets.TgaPackets
import ChoonzMoba.Assets.WavSpec
import ChoonzMoba.Assets.MbaSpec

namespace ChoonzMoba

def AssetTextureSource.content (source : AssetTextureSource) (rgba8 : Nat → UInt8) (gpu : Handle) :
    AssetContent where
  type := .texture
  source := readMemory rgba8 0 (textureBytes source.width source.height)
  gpuHandle := gpu
  meta0 := source.width
  meta1 := source.height
  meta2 := 0

def AssetSoundSource.content (source : AssetSoundSource) (pcm : Nat → UInt8) : AssetContent where
  type := .sound
  source := readMemory pcm 0 source.pcmBytes
  gpuHandle := handleNull
  meta0 := source.sampleRate
  meta1 := (source.channels.toUInt32 <<< 16) ||| source.bitsPerSample.toUInt32
  meta2 := UInt32.ofNat (source.pcmBytes / bytesPerFrame source)

def AssetTextureSource.Shows (source : AssetTextureSource) (gpu : Handle)
    (content : AssetContent) : Prop :=
  ∃ rgba8, source.rgba8 = some rgba8 ∧ content = source.content rgba8 gpu

def AssetSoundSource.Shows (source : AssetSoundSource) (content : AssetContent) : Prop :=
  ∃ pcm, source.pcm = some pcm ∧ content = source.content pcm

inductive Acquired (w : AssetWorld) (path : List UInt8) (type : AssetType) (lifetime : Nat)
    (Offered : AssetContent → Prop) : AssetHandle → AssetWorld → Prop
  | shared {slot : Nat} : w.Registered slot path type lifetime →
      Acquired w path type lifetime Offered (w.registry.slotHandle slot) (w.share slot)
  | issued {slot cpu stored : Nat} {content : AssetContent} {arena : Arena}
      {byId : HashMap AssetId UInt32} : Offered content → content.type = type →
      Commits w slot lifetime path content arena cpu stored byId →
      Acquired w path type lifetime Offered
        ((w.committed slot lifetime path content arena cpu stored byId).registry.slotHandle slot)
        (w.committed slot lifetime path content arena cpu stored byId)

structure AssetRegistry.Rewinds (r : AssetRegistry) (io : Arena) : Prop where
  keeps : r.ioArena.Keeps io
  offset : io.offset = r.ioArena.offset ∨ io.offset = r.ioBaseOffset

inductive Answered (w : AssetWorld) (path : Option CString) (type : AssetType) (lifetime : Nat)
    (Offered : AssetContent → Prop) : AssetHandle × AssetWorld → Prop
  | refused {io : Arena} : w.registry.Rewinds io →
      Answered w path type lifetime Offered (handleNull, w.withIo io)
  | acquired {normalized : List UInt8} {h : AssetHandle} {u : AssetWorld} {io : Arena} :
      Spells path normalized → Acquired w normalized type lifetime Offered h u →
      w.registry.Rewinds io → Answered w path type lifetime Offered (h, u.withIo io)

section

variable {w u : AssetWorld} {path : Option CString} {normalized : List UInt8} {type : AssetType}
  {lifetime : Nat} {Offered : AssetContent → Prop} {h : AssetHandle} {io : Arena} {q : Prop}
  {r : AssetHandle × AssetWorld}

theorem AssetWorld.Inv.rewinds (inv : w.Inv) : w.registry.Rewinds w.registry.ioArena :=
  ⟨inv.registry.arenas.io.keeps, Or.inl rfl⟩

theorem AssetWorld.Inv.refuses (inv : w.Inv) :
    Answered w path type lifetime Offered (handleNull, w) :=
  .refused inv.rewinds

structure SameSetting (r t : AssetRegistry) : Prop where
  persistent : t.persistentArena = r.persistentArena
  shape : r.byId.SameShape t.byId
  ioArena : t.ioArena = r.ioArena
  ioBaseOffset : t.ioBaseOffset = r.ioBaseOffset
  initialized : t.initialized = r.initialized

theorem Acquired.setting (hu : Acquired w normalized type lifetime Offered h u) :
    SameSetting w.registry u.registry := by
  cases hu with
  | shared _ =>
    rw [AssetWorld.share]
    split
    · exact ⟨rfl, .refl _, rfl, rfl, rfl⟩
    · exact ⟨rfl, .refl _, rfl, rfl, rfl⟩
  | issued _ _ hcommits => exact ⟨rfl, hcommits.shape, rfl, rfl, rfl⟩

theorem AssetWorld.Inv.acquires (inv : w.Inv) (hpath : Spells path normalized)
    (hu : Acquired w normalized type lifetime Offered h u) :
    Answered w path type lifetime Offered (h, u) := by
  have hanswered := Answered.acquired hpath hu inv.rewinds
  rwa [← hu.setting.ioArena] at hanswered

theorem AssetWorld.Inv.unlessExisting (inv : w.Inv)
    {register : List UInt8 → Option (AssetHandle × AssetWorld)}
    (hregister : ∀ normalized, Spells path normalized →
      (∀ i, (w.registry.slots i).live = true → (w.registry.slots i).id ≠ assetIdOf normalized) →
      Outcome q (Answered w path type lifetime Offered) (register normalized)) :
    Outcome q (Answered w path type lifetime Offered)
      (unlessExisting w path type lifetime register) := by
  rw [ChoonzMoba.unlessExisting]
  rcases normalizePath_cases path with ⟨normalized, hpath, hnormal⟩ | ⟨-, hnormal⟩
  · obtain ⟨r, hr, hexisting⟩ := inv.existing normalized type lifetime
    rw [hnormal, Option.bind_some]
    dsimp only
    rw [hr, Option.bind_some]
    cases hexisting with
    | absent habsent => exact hregister normalized hpath habsent
    | clash => exact .returned inv.refuses
    | shared hregistered => exact .returned (inv.acquires hpath (.shared hregistered))
  · rw [hnormal, Option.bind_some]
    exact .returned inv.refuses

theorem slotHandle_ne_null {r : AssetRegistry} (inv : r.Inv) {slot : Nat}
    (hlive : (r.slots slot).live = true) : handleIsNull (r.slotHandle slot) = false := by
  obtain ⟨hpos, hlt⟩ := inv.live_generation hlive
  have hindex := inv.live_index hlive
  refine beq_eq_false_iff_ne.mpr fun hnull => ?_
  have hgen := handleGen_make hindex hlt
  rw [show handleMake slot (r.slots slot).generation = handleNull from hnull, handleGen_null] at hgen
  exact absurd hgen (Nat.ne_of_lt hpos)

theorem assetRegisterTexture_outcome (inv : w.Inv) (path : Option CString) (lifetime : Nat)
    (source : AssetTextureSource) (gpu : Handle) :
    Outcome (¬ (w.registry.lifetimeArena lifetime).CommitSucceeds)
      (Answered w path .texture lifetime (source.Shows gpu))
      (assetRegisterTexture w path lifetime source gpu) := by
  rw [assetRegisterTexture]
  split
  · exact .returned inv.refuses
  next rgba8 hrgba8 =>
  split
  · exact .returned inv.refuses
  next hchecks =>
  simp only [not_or, Nat.not_lt, Bool.not_eq_false] at hchecks
  obtain ⟨-, -, -, hle, -, hdestroy⟩ := hchecks
  split
  · exact .returned inv.refuses
  refine inv.unlessExisting fun normalized hpath habsent => ?_
  split
  · exact .returned inv.refuses
  next hready =>
  obtain ⟨hslot, hroom⟩ := not_or.mp hready
  split
  · next hnull =>
    have hsame : w.createTexture gpu = w := by
      rw [AssetWorld.createTexture, if_pos hnull]
    rw [hsame]
    exact .returned inv.refuses
  next hnull =>
  rw [Bool.not_eq_true] at hnull
  have hlength : (source.content rgba8 gpu).source.length =
      textureBytes source.width source.height := by
    rw [AssetTextureSource.content, readMemory, List.length_map, List.length_range]
  have hfits : (source.content rgba8 gpu).Fits w.registry :=
    ⟨by simp [AssetTextureSource.content], fun _ => ⟨hnull, hdestroy⟩, fun h => absurd rfl h⟩
  have hcommit := inv.commitAsset hle hfits hpath.length_lt habsent
  refine hcommit.map fun r hr => ?_
  cases hr with
  | full hfull =>
    -- the slot and the room have been looked for before the texture was created
    exfalso
    rcases hfull with hfull | hfull
    · rw [hfull] at hslot
      exact hslot rfl
    · rw [hlength] at hfull
      exact hroom hfull
  | issued hcommits =>
    dsimp only
    rw [slotHandle_ne_null (hcommits.inv inv).registry committed_live]
    exact inv.acquires hpath (.issued ⟨rgba8, hrgba8, rfl⟩ rfl hcommits)

theorem assetRegisterSound_outcome (inv : w.Inv) (path : Option CString) (lifetime : Nat)
    (source : AssetSoundSource) :
    Outcome (¬ (w.registry.lifetimeArena lifetime).CommitSucceeds)
      (Answered w path .sound lifetime source.Shows)
      (assetRegisterSound w path lifetime source) := by
  rw [assetRegisterSound]
  split
  · exact .returned inv.refuses
  next pcm hpcm =>
  split
  · exact .returned inv.refuses
  next hchecks =>
  simp only [not_or, Nat.not_lt] at hchecks
  split
  · exact .returned inv.refuses
  refine inv.unlessExisting fun normalized hpath habsent => ?_
  have hfits : (source.content pcm).Fits w.registry :=
    ⟨by simp [AssetSoundSource.content], (fun h => by cases h), fun _ => rfl⟩
  have hcommit := inv.commitAsset hchecks.2.2.2.2.2.2 hfits hpath.length_lt habsent
  refine hcommit.imp id fun r hr => ?_
  cases hr with
  | full _ => exact inv.refuses
  | issued hcommits => exact inv.acquires hpath (.issued ⟨pcm, hpcm, rfl⟩ rfl hcommits)

theorem boundedArenaAllocate_outcome {a : Arena} (wf : a.Wf) (maxBytes ptr newSize align : Nat) :
    Outcome (¬ a.CommitSucceeds) (fun r => a.Keeps r.2 ∧ a.offset ≤ r.2.offset)
      (boundedArenaAllocate a maxBytes ptr newSize align) := by
  have hself : a.Keeps a ∧ a.offset ≤ a.offset := ⟨wf.keeps, Nat.le_refl _⟩
  rw [boundedArenaAllocate]
  split
  · exact .returned hself
  split
  · exact .returned hself
  next hrequest =>
  dsimp only
  split
  · exact .returned hself
  next hcurrent =>
  split
  · exact .returned hself
  next haligned =>
  split
  · exact .returned hself
  next hfits =>
  cases hpush : arenaPush a newSize align with
  | some r =>
    obtain ⟨b, address⟩ := r
    have hpushed := Arena.pushed hpush
    have hstart := hpushed.start
    have hstop := hpushed.stop
    exact .returned ⟨hpushed.keeps, by dsimp only; omega⟩
  | none =>
    refine .aborted fun hs => ?_
    simp only [not_or, Nat.not_lt, not_not] at hrequest hfits
    obtain ⟨-, -, hpos, hpower, -⟩ := hrequest
    have hbase := wf.base_ne
    have hoffset := wf.offset_le
    have hcommitted := wf.committed_le
    have haddress := wf.address
    have hsame : a.base + a.offset + align - 1 = a.base + a.offset + (align - 1) := by omega
    rw [hsame] at hfits haligned
    rw [arenaPush, if_neg hbase, if_neg (by rw [hpower]; omega), if_neg (by omega),
      if_neg (by omega)] at hpush
    dsimp only at hpush
    rw [if_neg (by omega), if_neg haligned, if_neg (by omega)] at hpush
    have hstop : ((a.base + a.offset + (align - 1)) &&& (uintptrMax - (align - 1))) - a.base +
        newSize ≤ a.reserved := by omega
    obtain ⟨b, hb⟩ := arenaCommit_ok hs hstop
    rw [hb] at hpush
    cases hpush

theorem FileRead.run_outcome (maxBytes : Nat) (read : FileRead) {a : Arena} (wf : a.Wf) :
    Outcome (¬ a.CommitSucceeds) (fun r => a.Keeps r.2 ∧ a.offset ≤ r.2.offset)
      (read.run maxBytes a) := by
  induction read generalizing a with
  | finish file => exact .returned ⟨wf.keeps, Nat.le_refl _⟩
  | allocate ptr oldSize newSize align next ih =>
    rw [FileRead.run]
    refine (boundedArenaAllocate_outcome wf maxBytes ptr newSize align).bind ?_
    rintro ⟨address, b⟩ ⟨hkeeps, hle⟩
    refine (ih address hkeeps.wf).imp (fun h hs => h (hkeeps.commits hs)) ?_
    rintro ⟨file, c⟩ ⟨hkeeps', hle'⟩
    exact ⟨hkeeps.trans hkeeps', Nat.le_trans hle hle'⟩

def AssetWorld.Staged (w t : AssetWorld) : Prop :=
  ∃ io, w.registry.ioArena.Keeps io ∧ w.registry.ioBaseOffset ≤ io.offset ∧ t = w.withIo io

theorem AssetWorld.Inv.staged {t : AssetWorld} (inv : w.Inv) (h : w.Staged t) : t.Inv := by
  obtain ⟨io, hkeeps, hbase, rfl⟩ := h
  exact inv.withIo hkeeps hbase

theorem AssetWorld.Staged.trans {t u : AssetWorld} (h : w.Staged t) (h' : t.Staged u) :
    w.Staged u := by
  obtain ⟨io, hkeeps, -, rfl⟩ := h
  obtain ⟨io', hkeeps', hbase', rfl⟩ := h'
  exact ⟨io', hkeeps.trans hkeeps', hbase', rfl⟩

theorem readFile_outcome (inv : w.Inv) (normalized : List UInt8) (platform : PlatformReader) :
    Outcome (¬ w.registry.ioArena.CommitSucceeds) (fun r => w.Staged r.2)
      (readFile w normalized platform) := by
  have hkeeps := inv.registry.arenas.io.keeps.rewind inv.registry.arenas.ioBase
  rw [readFile]
  refine ((FileRead.run_outcome w.registry.maxFileBytes _ hkeeps.wf).imp
    (fun h hs => h (hkeeps.commits hs)) fun _ h => h).map ?_
  rintro ⟨file, io⟩ ⟨hread, hle⟩
  exact ⟨io, hkeeps.trans hread, hle, rfl⟩

theorem memAlloc_outcome {a : Arena} (wf : a.Wf) {bytes : Nat}
    (hroom : arenaHasRoom a bytes 0 = true) :
    Outcome (¬ a.CommitSucceeds) (fun r => a.Keeps r.2 ∧ a.offset ≤ r.2.offset)
      (memAlloc arenaAllocator a bytes memDefaultAlign) := by
  rw [memAlloc]
  show Outcome _ _ (arenaAllocFn a 0 0 bytes memDefaultAlign)
  rw [arenaAllocFn]
  split
  · exact .returned ⟨wf.keeps, Nat.le_refl _⟩
  · have hspace := arenaHasRoom_spec hroom
    refine (wf.push_outcome bytes (k := 4) (by omega)).map ?_
    rintro ⟨b, address⟩ ⟨hpushed, -⟩
    have hstart := hpushed.start
    have hstop := hpushed.stop
    exact ⟨hpushed.keeps, by dsimp only at *; omega⟩

theorem AssetWorld.Inv.staged_self (inv : w.Inv) : w.Staged w :=
  ⟨_, inv.registry.arenas.io.keeps, inv.registry.arenas.ioBase, rfl⟩

theorem bakedTexture_outcome (inv : w.Inv) (expectedId : AssetId) (file : PlatformFile) :
    Outcome (¬ w.registry.ioArena.CommitSucceeds) (fun r => w.Staged r.2)
      (bakedTexture expectedId file w) := by
  have htotal : ∃ r, mbaInspect file.data = some r := by
    cases file.data with
    | none => exact ⟨none, rfl⟩
    | some data =>
      obtain ⟨r, hr, -⟩ := mbaInspect_iff data
      exact ⟨r, hr⟩
  obtain ⟨r, hr⟩ := htotal
  rw [bakedTexture, hr, Option.map_some]
  exact .returned inv.staged_self

theorem AssetWorld.Inv.decode_outcome (inv : w.Inv) {Image Source : Type}
    {image : Nat × Arena → Option Image × Arena} {source : Image → Source} {bytes : Nat}
    (himage : ∀ r, (image r).2 = r.2) (hroom : arenaHasRoom w.registry.ioArena bytes 0 = true) :
    Outcome (¬ w.registry.ioArena.CommitSucceeds) (fun r => w.Staged r.2)
      (((memAlloc arenaAllocator w.registry.ioArena bytes memDefaultAlign).map image).map
        fun (image, io) => (image.map source, w.withIo io)) := by
  refine ((memAlloc_outcome inv.registry.arenas.io hroom).map (f := image)
    (R := fun r => w.registry.ioArena.Keeps r.2 ∧ w.registry.ioArena.offset ≤ r.2.offset)
    fun r hr => by rw [himage]; exact hr).map ?_
  rintro ⟨decoded, io⟩ ⟨hkeeps, hle⟩
  exact ⟨io, hkeeps, Nat.le_trans inv.registry.arenas.ioBase hle, rfl⟩

theorem decodedTexture_outcome (inv : w.Inv) (scratch : Nat → UInt8) (file : PlatformFile) :
    Outcome (¬ w.registry.ioArena.CommitSucceeds) (fun r => w.Staged r.2)
      (decodedTexture scratch file w) := by
  obtain ⟨r, hr⟩ := tgaInspect_total file.data
  rw [decodedTexture, hr, Option.bind_some]
  cases r with
  | none => exact .returned inv.staged_self
  | some size =>
    obtain ⟨width, height, bytes⟩ := size
    dsimp only
    split
    · exact .returned inv.staged_self
    · next hroom =>
      rw [Bool.not_eq_false] at hroom
      obtain ⟨pixels, hdecode⟩ :=
        tgaDecode_inspected hr arenaAllocator w.registry.ioArena scratch
      rw [hdecode]
      refine inv.decode_outcome (fun r => ?_) hroom
      split <;> rfl

theorem decodedSound_outcome (inv : w.Inv) (file : PlatformFile) :
    Outcome (¬ w.registry.ioArena.CommitSucceeds) (fun r => w.Staged r.2)
      (decodedSound file w) := by
  obtain ⟨r, hr⟩ := wavInspectPcm_total file.data
  rw [decodedSound, hr, Option.bind_some]
  cases r with
  | none => exact .returned inv.staged_self
  | some info =>
    dsimp only
    split
    · exact .returned inv.staged_self
    · next hroom =>
      rw [Bool.not_eq_false] at hroom
      obtain ⟨samples, hdecode⟩ := wavDecodePcm_inspected hr arenaAllocator w.registry.ioArena
      rw [hdecode]
      refine inv.decode_outcome (fun r => ?_) hroom
      split <;> rfl

theorem withIo_share (w : AssetWorld) (io : Arena) (slot : Nat) :
    (w.withIo io).share slot = (w.share slot).withIo io := by
  rw [AssetWorld.share, AssetWorld.share]
  by_cases hglobal : (w.registry.slots slot).lifetime = assetLifetimeGlobal
  · rw [if_pos hglobal, if_pos (show ((w.withIo io).registry.slots slot).lifetime = _ from hglobal)]
    rfl
  · rw [if_neg hglobal, if_neg (show ((w.withIo io).registry.slots slot).lifetime ≠ _ from hglobal)]

theorem withIo_committed (w : AssetWorld) (io : Arena) (slot lifetime : Nat) (path : List UInt8)
    (content : AssetContent) (arena : Arena) (cpu stored : Nat) (byId : HashMap AssetId UInt32) :
    (w.withIo io).committed slot lifetime path content arena cpu stored byId =
      (w.committed slot lifetime path content arena cpu stored byId).withIo io := rfl

theorem withIo_slotHandle (w : AssetWorld) (io : Arena) (slot : Nat) :
    (w.withIo io).registry.slotHandle slot = w.registry.slotHandle slot := rfl

theorem Commits.of_withIo {slot cpu stored : Nat} {content : AssetContent} {arena : Arena}
    {byId : HashMap AssetId UInt32}
    (c : Commits (w.withIo io) slot lifetime normalized content arena cpu stored byId) :
    Commits w slot lifetime normalized content arena cpu stored byId where
  takes := ⟨c.takes.dead, c.takes.lt, c.takes.room, c.takes.step, c.takes.fresh⟩
  lifetime_le := c.lifetime_le
  type := c.type
  texture := c.texture
  sound := c.sound
  length := c.length
  absent := c.absent
  stores := c.stores
  wf := c.wf
  shape := c.shape
  entries := c.entries

theorem Acquired.of_staged (hu : Acquired (w.withIo io) normalized type lifetime Offered h u) :
    ∃ v, Acquired w normalized type lifetime Offered h v ∧ u = v.withIo io := by
  cases hu with
  | @shared slot hr =>
    have hregistered : w.Registered slot normalized type lifetime :=
      ⟨hr.live, hr.id, hr.type, hr.lifetime, hr.length, hr.path⟩
    exact ⟨w.share slot, .shared hregistered, withIo_share w io slot⟩
  | issued hoffered htype hcommits =>
    rw [withIo_committed, withIo_slotHandle]
    exact ⟨_, .issued hoffered htype hcommits.of_withIo, rfl⟩

theorem Acquired.imp {Offered' : AssetContent → Prop}
    (hu : Acquired w normalized type lifetime Offered h u)
    (himp : ∀ content, Offered content → Offered' content) :
    Acquired w normalized type lifetime Offered' h u := by
  cases hu with
  | shared hregistered => exact .shared hregistered
  | issued hoffered htype hcommits => exact .issued (himp _ hoffered) htype hcommits

theorem Answered.imp {Offered' : AssetContent → Prop}
    (hr : Answered w path type lifetime Offered r)
    (himp : ∀ content, Offered content → Offered' content) :
    Answered w path type lifetime Offered' r := by
  cases hr with
  | refused h => exact .refused h
  | acquired hpath hu hio => exact .acquired hpath (hu.imp himp) hio

theorem Answered.loaded {t : AssetWorld} {Offered' : AssetContent → Prop}
    (hpath : Spells path normalized)
    (hstaged : w.Staged t)
    (hr : Answered t (some (.of normalized)) type lifetime Offered r)
    (himp : ∀ content, Offered content → Offered' content) :
    Answered w path type lifetime Offered' (r.1, r.2.rewindIo) := by
  obtain ⟨io, hkeeps, hbase, rfl⟩ := hstaged
  have hrewinds : ∀ {io'}, (w.withIo io).registry.Rewinds io' →
      w.registry.Rewinds { io' with offset := w.registry.ioBaseOffset } := by
    intro io' h
    have hle : w.registry.ioBaseOffset ≤ io'.offset := by
      rcases h.offset with hoffset | hoffset
      · rw [hoffset]
        exact hbase
      · rw [hoffset]
        exact Nat.le_refl _
    exact ⟨(hkeeps.trans h.keeps).rewind hle, Or.inr rfl⟩
  cases hr with
  | refused h => exact .refused (hrewinds h)
  | @acquired normalized' h u io' hspells hu hio =>
    obtain rfl := hspells.unique hpath.of_normalized
    obtain ⟨v, hv, rfl⟩ := hu.of_staged
    have hanswered := Answered.acquired hpath (hv.imp himp) (hrewinds hio)
    rw [← hv.setting.ioBaseOffset] at hanswered
    exact hanswered

structure AssetWorld.CanCommit (w : AssetWorld) : Prop where
  level : w.registry.levelArena.CommitSucceeds
  global : w.registry.globalArena.CommitSucceeds
  io : w.registry.ioArena.CommitSucceeds

theorem AssetWorld.CanCommit.lifetimeArena (hs : w.CanCommit) (lifetime : Nat) :
    (w.registry.lifetimeArena lifetime).CommitSucceeds := by
  rw [AssetRegistry.lifetimeArena]
  split
  · exact hs.level
  · exact hs.global

def Loads {Source : Type} (w : AssetWorld) (normalized : List UInt8) (platform : PlatformReader)
    (decode : PlatformFile → AssetWorld → Option (Option Source × AssetWorld))
    (Shows : Source → AssetContent → Prop) (content : AssetContent) : Prop :=
  ∃ file read source staged, readFile w normalized platform = some (some file, read) ∧
    decode file read = some (some source, staged) ∧ Shows source content

theorem loadFile_outcome {Source : Type} {platform : PlatformReader}
    {decode : PlatformFile → AssetWorld → Option (Option Source × AssetWorld)}
    {Shows : Source → AssetContent → Prop}
    {register : AssetWorld → Source → Option (AssetHandle × AssetWorld)} (inv : w.Inv)
    (hpath : Spells path normalized)
    (hdecode : ∀ file t, t.Inv → Outcome (¬ t.registry.ioArena.CommitSucceeds)
      (fun r => t.Staged r.2) (decode file t))
    (hregister : ∀ t source, t.Inv →
      Outcome (¬ (t.registry.lifetimeArena lifetime).CommitSucceeds)
        (Answered t (some (.of normalized)) type lifetime (Shows source)) (register t source)) :
    Outcome (¬ w.CanCommit)
      (Answered w path type lifetime (Loads w normalized platform decode Shows))
      (loadFile w normalized platform decode register) := by
  rw [loadFile]
  refine Outcome.bind_eq ((readFile_outcome inv normalized platform).imp
    (fun h hs => h hs.io) fun _ h => h) ?_
  rintro ⟨file, read⟩ hread hstaged
  have hcommits : ∀ {t}, w.Staged t → ¬ t.registry.ioArena.CommitSucceeds → ¬ w.CanCommit := by
    rintro t ⟨io, hkeeps, -, rfl⟩ h hs
    exact h (hkeeps.commits hs.io)
  refine Outcome.bind_eq (P := fun r => w.Staged r.2) ?_ ?_
  · cases file with
    | none => exact .returned hstaged
    | some file =>
      exact (hdecode file read (inv.staged hstaged)).imp (hcommits hstaged)
        fun _ h => hstaged.trans h
  rintro ⟨source, staged⟩ hsource hstaged'
  dsimp only
  cases source with
  | none =>
    have hrefused : Answered staged (some (.of normalized)) type lifetime (fun _ => False)
        (handleNull, staged) := (inv.staged hstaged').refuses
    exact .returned (hrefused.loaded hpath hstaged' fun _ h => h.elim)
  | some source =>
    have hloads : ∀ content, Shows source content →
        Loads w normalized platform decode Shows content := by
      intro content hshows
      cases file with
      | none => cases hsource
      | some file => exact ⟨file, read, source, staged, hread, hsource, hshows⟩
    refine ((hregister staged source (inv.staged hstaged')).imp (fun h hs => ?_)
      fun _ h => h).map fun r hr => hr.loaded hpath hstaged' hloads
    obtain ⟨io, -, -, rfl⟩ := hstaged'
    exact h (hs.lifetimeArena lifetime)

theorem AssetWorld.Inv.beginFileLoad (inv : w.Inv)
    {load : List UInt8 → Option (AssetHandle × AssetWorld)}
    (hload : ∀ normalized, Spells path normalized →
      Outcome q (Answered w path type lifetime Offered) (load normalized)) :
    Outcome q (Answered w path type lifetime Offered)
      (beginFileLoad w path type lifetime load) := by
  rw [ChoonzMoba.beginFileLoad]
  split
  · exact .returned inv.refuses
  · exact inv.unlessExisting fun normalized hpath _ => hload normalized hpath

theorem assetLoad_outcome (inv : w.Inv) (path : Option CString) (lifetime : Nat)
    (platform : PlatformReader) (gpu : Handle) :
    Outcome (¬ w.CanCommit)
      (Answered w path .texture lifetime fun content => ∃ normalized, Spells path normalized ∧
        Loads w normalized platform (bakedTexture (assetIdOf normalized))
          (fun source => source.Shows gpu) content)
      (assetLoad w path lifetime platform gpu) := by
  rw [assetLoad]
  split
  · exact .returned inv.refuses
  rcases normalizePath_cases path with ⟨normalized, hpath, hnormal⟩ | ⟨-, hnormal⟩
  · rw [hnormal, Option.bind_some]
    dsimp only
    split
    · exact .returned inv.refuses
    · refine (loadFile_outcome inv hpath
        (fun file t ht => bakedTexture_outcome ht (assetIdOf normalized) file)
        (fun t source ht => assetRegisterTexture_outcome ht _ lifetime source gpu)).imp id ?_
      exact fun r hr => hr.imp fun content h => ⟨normalized, hpath, h⟩
  · rw [hnormal, Option.bind_some]
    exact .returned inv.refuses

theorem assetLoadTextureTga_outcome (inv : w.Inv) (path : Option CString) (lifetime : Nat)
    (platform : PlatformReader) (scratch : Nat → UInt8) (gpu : Handle) :
    Outcome (¬ w.CanCommit)
      (Answered w path .texture lifetime fun content => ∃ normalized, Spells path normalized ∧
        Loads w normalized platform (decodedTexture scratch) (fun source => source.Shows gpu)
          content)
      (assetLoadTextureTga w path lifetime platform scratch gpu) := by
  rw [assetLoadTextureTga]
  refine inv.beginFileLoad fun normalized hpath => ?_
  refine (loadFile_outcome inv hpath (fun file t ht => decodedTexture_outcome ht scratch file)
    (fun t source ht => assetRegisterTexture_outcome ht _ lifetime source gpu)).imp id ?_
  exact fun r hr => hr.imp fun content h => ⟨normalized, hpath, h⟩

theorem assetLoadSoundWav_outcome (inv : w.Inv) (path : Option CString) (lifetime : Nat)
    (platform : PlatformReader) :
    Outcome (¬ w.CanCommit)
      (Answered w path .sound lifetime fun content => ∃ normalized, Spells path normalized ∧
        Loads w normalized platform decodedSound AssetSoundSource.Shows content)
      (assetLoadSoundWav w path lifetime platform) := by
  rw [assetLoadSoundWav]
  refine inv.beginFileLoad fun normalized hpath => ?_
  refine (loadFile_outcome inv hpath (fun file t ht => decodedSound_outcome ht file)
    (fun t source ht => assetRegisterSound_outcome ht _ lifetime source)).imp id ?_
  exact fun r hr => hr.imp fun content h => ⟨normalized, hpath, h⟩

end

end ChoonzMoba
