import ChoonzMoba.Assets.RegistryFailure
import ChoonzMoba.Assets.RegistryHandles

namespace ChoonzMoba

/-- The asset has not ended in the events since its handle was issued, and for a global one more
requests have been answered with the handle than releases have given it back. -/
structure Kept (h : AssetHandle) (lifetime : Nat) (later past : List RegistryEvent) : Prop where
  going : ∀ e ∈ later, e.op.ends lifetime = false
  references : lifetime = assetLifetimeGlobal → releaseCount h past < returnCount h past

inductive HandleState (w : AssetWorld) (h : AssetHandle) (path : List UInt8) (lifetime : Nat)
    (content : AssetContent) (later past : List RegistryEvent) : Prop
  | current : (w.registry.slots (handleIndex h)).generation = handleGen h →
      w.Contains (handleIndex h) path lifetime content →
      (∀ e ∈ later, e.op.ends lifetime = false) →
      (lifetime = assetLifetimeGlobal → releaseCount h past +
        (w.registry.slots (handleIndex h)).refcount = returnCount h past) →
      HandleState w h path lifetime content later past
  | stale : handleGen h < (w.registry.slots (handleIndex h)).generation →
      ¬ Kept h lifetime later past → HandleState w h path lifetime content later past

structure RegistryEvent.Repeats (e : RegistryEvent) (path : List UInt8) (type : AssetType)
    (lifetime : Nat) (request : AssetRequest) : Prop where
  op : e.op = .request request
  path : Spells request.path path
  type : request.type = type
  lifetime : request.lifetime = lifetime

section

variable {w start : AssetWorld} {e : RegistryEvent} {past later : List RegistryEvent}
  {h : AssetHandle} {slot lifetime : Nat} {path : List UInt8} {content : AssetContent}

theorem Kept.tail (hkept : Kept h lifetime (e :: later) (e :: past))
    (hreturns : e.returns h = false) (hreleases : e.releases h = false) :
    Kept h lifetime later past where
  going e' he' := hkept.going e' (List.mem_cons_of_mem _ he')
  references hglobal := by
    have hreferences := hkept.references hglobal
    rwa [releaseCount_cons, returnCount_cons, hreturns, hreleases, if_neg Bool.false_ne_true]
      at hreferences

theorem AssetWorld.Contains.after (hc : e.before.Contains slot path lifetime content)
    (he : e.Sound) {n : Nat}
    (hslot : e.after.registry.slots slot = (e.before.registry.slots slot).withRefcount n) :
    e.after.Contains slot path lifetime content := by
  have hvalid := he.before.registry.valid slot hc.live
  have hblob := hvalid.blob
  have hmemory := he.memory slot
  have hbytes := hc.cpuBlobBytes
  have hlength := hc.pathLength
  refine ⟨?_, ?_, ?_, ?_, ?_, ?_, ?_, ?_, ?_, ?_, ?_, ?_⟩ <;> rw [hslot]
  · exact hc.live
  · exact hc.type
  · exact hc.lifetime
  · exact hc.id
  · exact hc.cpuBlobBytes
  · exact hc.gpuHandle
  · exact hc.meta0
  · exact hc.meta1
  · exact hc.meta2
  · exact hc.pathLength
  · refine Eq.trans (readMemory_congr fun address hfrom hto => ?_) hc.source
    exact hmemory address hc.live hfrom (by
      change address < (e.before.registry.slots slot).cpuBlob + _ at hto
      omega)
  · refine Eq.trans (readMemory_congr fun address hfrom hto => ?_) hc.path
    change (e.before.registry.slots slot).path ≤ address at hfrom
    change address < (e.before.registry.slots slot).path + _ at hto
    exact hmemory address hc.live (by omega) (by omega)

theorem AssetWorld.Contains.path_unique {path' : List UInt8} {type : AssetType} {lifetime' : Nat}
    (hc : w.Contains slot path lifetime content)
    (hregistered : w.Registered slot path' type lifetime') :
    path' = path ∧ type = content.type ∧ lifetime' = lifetime := by
  have hlength : path'.length = path.length := hregistered.length.symm.trans hc.pathLength
  have hread := hregistered.path
  rw [hlength, hc.path] at hread
  exact ⟨hread.symm, hregistered.type.symm.trans hc.type,
    hregistered.lifetime.symm.trans hc.lifetime⟩

theorem AssetWorld.Contains.refcount_pos (hc : w.Contains slot path lifetime content)
    (inv : w.Inv) (hglobal : lifetime = assetLifetimeGlobal) :
    0 < (w.registry.slots slot).refcount := by
  have hlifetime := hc.lifetime.trans hglobal
  rcases (inv.registry.valid slot hc.live).refcount with ⟨hlevel, -⟩ | ⟨-, hpos⟩
  · rw [hlevel] at hlifetime
    cases hlifetime
  · exact hpos

theorem HandleState.kept_iff (hs : HandleState w h path lifetime content later past)
    (inv : w.Inv) : w.registry.Current h ↔ Kept h lifetime later past := by
  cases hs with
  | current hgen hcontains hgoing hcount =>
    refine ⟨fun _ => ⟨hgoing, fun hglobal => ?_⟩, fun _ => ⟨hcontains.live, hgen⟩⟩
    have hpos := hcontains.refcount_pos inv hglobal
    have hbalance := hcount hglobal
    omega
  | stale hgen hnot =>
    exact ⟨fun hcurrent => absurd hcurrent.2 (Nat.ne_of_gt hgen), fun hkept => absurd hkept hnot⟩

theorem RegistryEvent.Sound.stale (he : e.Sound) (hnull : handleIsNull h = false)
    (hbound : e.retires (handleIndex h) = true →
      (e.before.registry.slots (handleIndex h)).generation < 16383)
    (hgen : handleGen h < (e.before.registry.slots (handleIndex h)).generation) :
    handleGen h < (e.after.registry.slots (handleIndex h)).generation ∧ e.Silent h := by
  refine ⟨Nat.lt_of_lt_of_le hgen (he.generation_grows hbound).1, ?_⟩
  rcases he.of_not_current hnull (fun hcurrent => Nat.ne_of_gt hgen hcurrent.2) with
    ⟨request, path, content, hissues⟩ | hsilent
  · rcases hissues.unused with hzero | hsame
    · omega
    · omega
  · exact hsilent

theorem AssetWorld.Contains.carried {n : Nat}
    (hc : e.before.Contains (handleIndex h) path lifetime content) (he : e.Sound)
    (hgen : (e.before.registry.slots (handleIndex h)).generation = handleGen h)
    (hgoing : ∀ e ∈ later, e.op.ends lifetime = false) (hop : e.op.ends lifetime = false)
    (hslot : e.after.registry.slots (handleIndex h) =
      (e.before.registry.slots (handleIndex h)).withRefcount n)
    (hcount : lifetime = assetLifetimeGlobal →
      releaseCount h (e :: past) + n = returnCount h (e :: past)) :
    HandleState e.after h path lifetime content (e :: later) (e :: past) := by
  refine .current ?_ (hc.after he hslot) (List.forall_mem_cons.mpr ⟨hop, hgoing⟩) ?_
  · rw [hslot]
    exact hgen
  · rw [hslot]
    exact hcount

theorem AssetWorld.Contains.left
    (hc : e.before.Contains (handleIndex h) path lifetime content) (he : e.Sound)
    (hgen : (e.before.registry.slots (handleIndex h)).generation = handleGen h)
    (hbound : e.retires (handleIndex h) = true →
      (e.before.registry.slots (handleIndex h)).generation < 16383)
    (hslot : e.after.registry.slots (handleIndex h) =
      .cleared (nextGeneration (e.before.registry.slots (handleIndex h)).generation))
    (hended : ¬ Kept h lifetime (e :: later) (e :: past)) :
    HandleState e.after h path lifetime content (e :: later) (e :: past) := by
  have hretires : e.retires (handleIndex h) = true := by
    rw [RegistryEvent.retires, hc.live, hslot]
    rfl
  have hgrows := (he.generation_grows hbound).2 hretires
  rw [hgen] at hgrows
  exact .stale hgrows hended

theorem RegistryEvent.flags_released {frames : UInt32} (hop : e.op = .releaseGlobal h frames)
    (hanswer : e.answer = .released true) : e.returns h = false ∧ e.releases h = true := by
  rw [RegistryEvent.returns, RegistryEvent.releases, hop, hanswer]
  exact ⟨rfl, beq_self_eq_true h⟩

theorem HandleState.step (hs : HandleState e.before h path lifetime content later past)
    (he : e.Sound) (hnull : handleIsNull h = false)
    (hbound : e.retires (handleIndex h) = true →
      (e.before.registry.slots (handleIndex h)).generation < 16383) :
    HandleState e.after h path lifetime content (e :: later) (e :: past) ∧
      (e.returns h = true → ∃ request, e.Repeats path content.type lifetime request) := by
  have hsilent : ∀ {p : Prop}, e.returns h = false → e.returns h = true → p := by
    intro p hreturns hreturns'
    rw [hreturns] at hreturns'
    cases hreturns'
  cases hs with
  | stale hgen hnot =>
    obtain ⟨hgen', hnothing⟩ := he.stale hnull hbound hgen
    exact ⟨.stale hgen' fun hkept => hnot (hkept.tail hnothing.returns hnothing.releases),
      hsilent hnothing.returns⟩
  | current hgen hcontains hgoing hcount =>
    have hlive := hcontains.live
    have hhandle := (he.before.registry.slotHandle_iff hlive).mpr hgen
    cases he.slotStep (handleIndex h) with
    | kept hslot helse hends =>
      obtain ⟨hreturns, hreleases⟩ : e.returns h = false ∧ e.releases h = false := helse h hnull rfl
      rw [hcontains.lifetime] at hends
      refine ⟨hcontains.carried he hgen hgoing (hends hlive) hslot ?_, hsilent hreturns⟩
      rw [releaseCount_cons, returnCount_cons, hreturns, hreleases, if_neg Bool.false_ne_true]
      exact hcount
    | @shared request path' hop hanswer hpath hregistered hslot =>
      rw [hhandle] at hanswer
      obtain ⟨rfl, htype, hlifetime⟩ := hcontains.path_unique hregistered
      have hreturns : e.returns h = true := by
        rw [RegistryEvent.returns, hanswer]
        exact beq_self_eq_true h
      have hreleases : e.releases h = false := by
        rw [RegistryEvent.releases, hop]
        rfl
      refine ⟨hcontains.carried he hgen hgoing (by rw [hop]; rfl) hslot fun hglobal => ?_, fun _ =>
        ⟨request, hop, hpath, htype, hlifetime⟩⟩
      rw [hlifetime, if_pos hglobal, releaseCount_cons, returnCount_cons, hreturns, hreleases,
        if_pos rfl, if_neg Bool.false_ne_true, ← hcount hglobal]
      rfl
    | issued _ _ _ _ _ hdead _ _ _ =>
      rw [hlive] at hdead
      cases hdead
    | dropped hop hanswer _ _ hmore hslot =>
      rw [hhandle] at hop
      obtain ⟨hreturns, hreleases⟩ := RegistryEvent.flags_released hop hanswer
      refine ⟨hcontains.carried he hgen hgoing (by rw [hop]; rfl) hslot fun hglobal => ?_,
        hsilent hreturns⟩
      have hbalance := hcount hglobal
      rw [releaseCount_cons, returnCount_cons, hreturns, hreleases, if_pos rfl,
        if_neg Bool.false_ne_true]
      omega
    | released hop hanswer _ hglobal hlast hslot =>
      rw [hhandle] at hop
      rw [hcontains.lifetime] at hglobal
      obtain ⟨hreturns, hreleases⟩ := RegistryEvent.flags_released hop hanswer
      refine ⟨hcontains.left he hgen hbound hslot fun hkept => ?_, hsilent hreturns⟩
      have hbalance := hcount hglobal
      have hreferences := hkept.references hglobal
      rw [releaseCount_cons, returnCount_cons, hreturns, hreleases, if_pos rfl,
        if_neg Bool.false_ne_true] at hreferences
      omega
    | ended hanswer _ hends hslot =>
      rw [hcontains.lifetime] at hends
      have hreturns : e.returns h = false := by
        rw [RegistryEvent.returns, hanswer]
        rfl
      refine ⟨hcontains.left he hgen hbound hslot fun hkept => ?_, hsilent hreturns⟩
      have hgoing' := hkept.going e List.mem_cons_self
      rw [hends] at hgoing'
      cases hgoing'

theorem trace_issues (hstart : RegistryInitialized start)
    (htrace : (registrySystem start).Trace (e :: past) w) (hnull : handleIsNull h = false)
    (hreturns : e.returns h = true) (hfirst : ∀ e' ∈ past, e'.returns h = false) :
    ∃ request path content, e.Registers h request path content ∧
      HandleState w h path request.lifetime content [] (e :: past) := by
  cases htrace with
  | step hpast hnext =>
    obtain ⟨rfl, rfl, hstep⟩ := hnext
    obtain ⟨hnot, hreleased⟩ := trace_unreturned hstart hpast hnull hfirst
    rcases (registryStep_sound hstart hpast hstep).of_not_current hnull hnot with
      ⟨request, path, content, hissues⟩ | hsilent
    · refine ⟨request, path, content, hissues.registers, ?_⟩
      refine .current hissues.generation hissues.contains (fun _ h => nomatch h) fun hglobal => ?_
      have hreleases : e.releases h = false := by
        rw [RegistryEvent.releases, hissues.registers.op]
        rfl
      have hnone : returnCount h past = 0 :=
        List.countP_eq_zero.mpr fun e' he' => by rw [hfirst e' he']; exact Bool.false_ne_true
      rw [releaseCount_cons, returnCount_cons, hreleased, hreleases, hreturns, hnone,
        hissues.refcount, if_pos hglobal]
      rfl
    · rw [hsilent.returns] at hreturns
      cases hreturns

theorem retirements_bound (hstart : RegistryInitialized start)
    (hpast : (registrySystem start).Trace past e.before)
    (hretire : slotRetirements slot (e :: past) < 16383) (hretires : e.retires slot = true) :
    (e.before.registry.slots slot).generation < 16383 := by
  have hgen := trace_generation hstart hpast slot
  rw [slotRetirements_cons, if_pos hretires] at hretire
  omega

theorem handleState_run (hstart : RegistryInitialized start) {first : RegistryEvent}
    {type : AssetType} (htrace : (registrySystem start).Trace (later ++ first :: past) w)
    (hnull : handleIsNull h = false)
    (hretire : slotRetirements (handleIndex h) (later ++ first :: past) < 16383)
    (hissued : ∀ v, (registrySystem start).Trace (first :: past) v →
      HandleState v h path lifetime content [] (first :: past)) (htype : content.type = type) :
    HandleState w h path lifetime content later (later ++ first :: past) ∧
      ∀ e ∈ later, e.returns h = true → ∃ request, e.Repeats path type lifetime request := by
  induction later generalizing w with
  | nil => exact ⟨hissued w htrace, fun _ h => nomatch h⟩
  | cons e later ih =>
    cases htrace with
    | step hpast hnext =>
      obtain ⟨rfl, rfl, hstep⟩ := hnext
      have hbefore := Nat.lt_of_le_of_lt
        (slotRetirements_le (handleIndex h) [e] (later ++ first :: past)) hretire
      obtain ⟨hstate, hrepeats⟩ := ih hpast hbefore
      obtain ⟨hnext, hrepeat⟩ := hstate.step (registryStep_sound hstart hpast hstep) hnull
        (retirements_bound hstart hpast hretire)
      refine ⟨hnext, fun e' he' => ?_⟩
      rcases List.mem_cons.mp he' with rfl | hold
      · rw [← htype]
        exact hrepeat
      · exact hrepeats e' hold

theorem stale_run (hstart : RegistryInitialized start) {newer : List RegistryEvent}
    (htrace : (registrySystem start).Trace (newer ++ past) w) (hnull : handleIsNull h = false)
    (hretire : slotRetirements (handleIndex h) (newer ++ past) < 16383)
    (hstale : ∀ v, (registrySystem start).Trace past v →
      handleGen h < (v.registry.slots (handleIndex h)).generation) :
    handleGen h < (w.registry.slots (handleIndex h)).generation := by
  induction newer generalizing w with
  | nil => exact hstale w htrace
  | cons e newer ih =>
    cases htrace with
    | step hpast hnext =>
      obtain ⟨rfl, rfl, hstep⟩ := hnext
      have hbefore := Nat.lt_of_le_of_lt
        (slotRetirements_le (handleIndex h) [e] (newer ++ past)) hretire
      exact ((registryStep_sound hstart hpast hstep).stale hnull
        (retirements_bound hstart hpast hretire) (ih hpast hbefore)).1

end

inductive AssetWorld.Views (w : AssetWorld) (h : AssetHandle) (id : AssetId) : AssetContent → Prop
  | texture {source : AssetTextureSource} {rgba8 : Nat → UInt8} {gpu : Handle} {address : Nat} :
      assetGetTexture w.registry h =
        some
          { id
            rgba8 := address
            rgba8Bytes := textureBytes source.width source.height
            width := source.width
            height := source.height
            gpu } →
      readMemory w.memory address (textureBytes source.width source.height) =
        readMemory rgba8 0 (textureBytes source.width source.height) →
      assetGetSound w.registry h = none → Views w h id (source.content rgba8 gpu)
  | sound {source : AssetSoundSource} {pcm : Nat → UInt8} {address : Nat} :
      assetGetSound w.registry h =
        some
          { id
            pcm := address
            pcmBytes := source.pcmBytes
            sampleRate := source.sampleRate
            channels := source.channels
            bitsPerSample := source.bitsPerSample
            frameCount := UInt32.ofNat (source.pcmBytes / bytesPerFrame source) } →
      readMemory w.memory address source.pcmBytes = readMemory pcm 0 source.pcmBytes →
      assetGetTexture w.registry h = none → Views w h id (source.content pcm)

section

variable {w : AssetWorld} {h : AssetHandle} {lifetime : Nat} {path : List UInt8}
  {content : AssetContent}

theorem packed_toNat (channels bits : UInt16) :
    ((channels.toUInt32 <<< 16) ||| bits.toUInt32).toNat =
      bits.toNat + 2 ^ 16 * channels.toNat := by
  have hshift : (16 : UInt32).toNat % 32 = 16 := by decide
  have hchannels := channels.toNat_lt
  have hbits := bits.toNat_lt
  have hfit : channels.toNat <<< 16 < 2 ^ 32 := by
    rw [Nat.shiftLeft_eq]
    omega
  rw [UInt32.toNat_or, UInt32.toNat_shiftLeft, UInt16.toNat_toUInt32, UInt16.toNat_toUInt32, hshift,
    Nat.mod_eq_of_lt hfit, ← Nat.shiftLeft_add_eq_or_of_lt hbits, Nat.shiftLeft_eq, Nat.mul_comm,
    Nat.add_comm]

theorem unpacked (channels bits : UInt16) :
    (((channels.toUInt32 <<< 16) ||| bits.toUInt32) >>> 16).toUInt16 = channels ∧
      (((channels.toUInt32 <<< 16) ||| bits.toUInt32) &&& 0xffff).toUInt16 = bits := by
  have hshift : (16 : UInt32).toNat % 32 = 16 := by decide
  have hmask : (0xffff : UInt32).toNat = 2 ^ 16 - 1 := by decide
  have hchannels := channels.toNat_lt
  have hbits := bits.toNat_lt
  constructor
  · apply UInt16.toNat_inj.mp
    rw [UInt32.toNat_toUInt16, UInt32.toNat_shiftRight, packed_toNat, hshift,
      Nat.shiftRight_eq_div_pow]
    omega
  · apply UInt16.toNat_inj.mp
    rw [UInt32.toNat_toUInt16, UInt32.toNat_and, packed_toNat, hmask,
      Nat.and_two_pow_sub_one_eq_mod]
    omega

theorem AssetRequest.Offers.shows {request : AssetRequest} (h : request.Offers w content) :
    (∃ (source : AssetTextureSource) (rgba8 : Nat → UInt8) (gpu : Handle),
        content = source.content rgba8 gpu) ∨
      ∃ (source : AssetSoundSource) (pcm : Nat → UInt8), content = source.content pcm := by
  cases request with
  | registerTexture path lifetime source gpu =>
    obtain ⟨rgba8, -, hcontent⟩ := h
    exact Or.inl ⟨source, rgba8, gpu, hcontent⟩
  | registerSound path lifetime source =>
    obtain ⟨pcm, -, hcontent⟩ := h
    exact Or.inr ⟨source, pcm, hcontent⟩
  | load path lifetime platform gpu =>
    obtain ⟨_, -, _, _, source, _, -, -, rgba8, -, hcontent⟩ := h
    exact Or.inl ⟨source, rgba8, gpu, hcontent⟩
  | loadTextureTga path lifetime platform scratch gpu =>
    obtain ⟨_, -, _, _, source, _, -, -, rgba8, -, hcontent⟩ := h
    exact Or.inl ⟨source, rgba8, gpu, hcontent⟩
  | loadSoundWav path lifetime platform =>
    obtain ⟨_, -, _, _, source, _, -, -, pcm, -, hcontent⟩ := h
    exact Or.inr ⟨source, pcm, hcontent⟩

structure AssetWorld.Names (w : AssetWorld) (h : AssetHandle) (path : List UInt8) (lifetime : Nat)
    (content : AssetContent) : Prop where
  slot : handleSlot w.registry h = some (handleIndex h)
  contains : w.Contains (handleIndex h) path lifetime content

theorem AssetWorld.Names.views (hn : w.Names h path lifetime content) (inv : w.Inv)
    {request : AssetRequest} {before : AssetWorld} (hoffered : request.Offers before content) :
    w.Views h (assetIdOf path) content := by
  obtain ⟨hslot, hc⟩ := hn
  have hready := (inv.registry.valid _ hc.live).state
  have hbytes := hc.cpuBlobBytes
  have hsource := hc.source
  rcases hoffered.shows with ⟨source, rgba8, gpu, rfl⟩ | ⟨source, pcm, rfl⟩
  · have hlength : (source.content rgba8 gpu).source.length =
        textureBytes source.width source.height := by
      rw [AssetTextureSource.content, readMemory, List.length_map, List.length_range]
    rw [hlength] at hbytes hsource
    have htype : (w.registry.slots (handleIndex h)).type = .texture := hc.type
    refine .texture ?_ hsource ?_
    · rw [assetGetTexture, hslot, Option.bind_some]
      dsimp only
      rw [if_neg (by simp [htype, hready]), hc.id, hbytes, hc.meta0, hc.meta1, hc.gpuHandle]
      rfl
    · rw [assetGetSound, hslot, Option.bind_some]
      dsimp only
      rw [if_pos (by simp [htype])]
  · have hlength : (source.content pcm).source.length = source.pcmBytes := by
      rw [AssetSoundSource.content, readMemory, List.length_map, List.length_range]
    rw [hlength] at hbytes hsource
    have htype : (w.registry.slots (handleIndex h)).type = .sound := hc.type
    refine .sound ?_ hsource ?_
    · have hmeta1 : (w.registry.slots (handleIndex h)).meta1 =
          (source.channels.toUInt32 <<< 16) ||| source.bitsPerSample.toUInt32 := hc.meta1
      obtain ⟨hchannels, hbits⟩ := unpacked source.channels source.bitsPerSample
      rw [assetGetSound, hslot, Option.bind_some]
      dsimp only
      rw [if_neg (by simp [htype, hready]), hc.id, hbytes, hc.meta0, hmeta1, hc.meta2, hchannels,
        hbits]
      rfl
    · rw [assetGetTexture, hslot, Option.bind_some]
      dsimp only
      rw [if_pos (by simp [htype])]

theorem normalizePath_spells {spelling : Option CString} (h : Spells spelling path) :
    normalizePath spelling = some (some path) := by
  rcases normalizePath_cases spelling with ⟨normalized, hspells, hnormal⟩ | ⟨hnone, -⟩
  · rw [hnormal, hspells.unique h]
  · exact absurd h (hnone path)

theorem AssetWorld.Contains.mapped {slot : Nat} (hc : w.Contains slot path lifetime content)
    (inv : w.Inv) : ∃ i : UInt32, i.toNat = slot ∧
      assetMapGet w.registry.byId (assetIdOf path) = some (some i) := by
  rcases inv.registry.ids.get (assetIdOf path) with ⟨i, hget, hlive, hid⟩ | ⟨-, hnone⟩
  · exact ⟨i, inv.registry.ids.distinct hlive hc.live (hid.trans hc.id.symm), hget⟩
  · exact absurd hc.id (hnone _ hc.live)

theorem AssetWorld.Names.found (hn : w.Names h path lifetime content) (inv : w.Inv)
    {spelling : Option CString} (hspelling : Spells spelling path)
    (hid : assetIdOf path ≠ assetIdNull) : assetRegistryFindPath w spelling = some h := by
  obtain ⟨hslot, hc⟩ := hn
  obtain ⟨hinit, hlive, hhandle⟩ := (handleSlot_iff inv.registry).mp hslot
  have hlt := Nat.lt_of_lt_of_le (inv.registry.live_lt hlive) inv.registry.fresh_le
  obtain ⟨i, hi, hget⟩ := hc.mapped inv
  have hfind : assetRegistryFind w.registry (assetIdOf path) = some h := by
    rw [assetRegistryFind, if_neg (by simp [hinit, hid]), hget, Option.map_some]
    dsimp only
    rw [hi, if_neg (by simp [hlive, hlt])]
    exact congrArg some hhandle.symm
  rw [assetRegistryFindPath, normalizePath_spells hspelling, Option.bind_some]
  dsimp only
  rw [hfind, Option.map_some, hslot]
  dsimp only
  rw [hc.pathLength, hc.path, if_neg (by simp)]

theorem AssetWorld.Contains.clash {slot other : Nat} {type : AssetType} {lifetime' : Nat}
    (hc : w.Contains slot path lifetime content) (inv : w.Inv)
    (hother : type ≠ content.type ∨ lifetime' ≠ lifetime) :
    ¬ w.Registered other path type lifetime' := by
  intro hregistered
  have hsame := inv.registry.ids.distinct hregistered.live hc.live
    (hregistered.id.trans hc.id.symm)
  subst hsame
  obtain ⟨-, htype, hlifetime⟩ := hc.path_unique hregistered
  exact hother.elim (fun h => h htype) fun h => h hlifetime

theorem AssetWorld.Contains.unlessExisting {slot : Nat} {spelling : Option CString}
    {type : AssetType} {lifetime' : Nat} (hc : w.Contains slot path lifetime content)
    (inv : w.Inv) (hspelling : Spells spelling path)
    (hother : type ≠ content.type ∨ lifetime' ≠ lifetime)
    (register : List UInt8 → Option (AssetHandle × AssetWorld)) :
    unlessExisting w spelling type lifetime' register = some (handleNull, w) := by
  obtain ⟨r, hr, hexisting⟩ := inv.existing path type lifetime'
  rw [ChoonzMoba.unlessExisting, normalizePath_spells hspelling, Option.bind_some]
  dsimp only
  rw [hr, Option.bind_some]
  cases hexisting with
  | absent habsent => exact absurd hc.id (habsent _ hc.live)
  | clash => rfl
  | shared hregistered => exact absurd hregistered (hc.clash inv hother)

theorem AssetWorld.Contains.refuses {slot : Nat} {request : AssetRequest}
    (hc : w.Contains slot path lifetime content) (inv : w.Inv)
    (hspelling : Spells request.path path)
    (hother : request.type ≠ content.type ∨ request.lifetime ≠ lifetime) :
    Outcome (¬ w.CanCommit) (fun r => ∃ io, w.registry.Rewinds io ∧ r = (handleNull, w.withIo io))
      (request.run w) := by
  refine (request.outcome inv).imp (fun h => h) fun r hr => ?_
  cases hr with
  | @refused io hio => exact ⟨io, hio, rfl⟩
  | acquired hpath hu _ =>
    obtain rfl := hpath.unique hspelling
    cases hu with
    | shared hregistered => exact absurd hregistered (hc.clash inv hother)
    | issued _ _ hcommits => exact absurd hc.id (hcommits.absent _ hc.live)

def AssetRequest.readsFirst : AssetRequest → Bool
  | load _ _ _ _ => true
  | registerTexture _ _ _ _ => false
  | registerSound _ _ _ => false
  | loadTextureTga _ _ _ _ _ => false
  | loadSoundWav _ _ _ => false

theorem AssetWorld.Contains.ignores {slot : Nat} {request : AssetRequest}
    (hc : w.Contains slot path lifetime content) (inv : w.Inv)
    (hspelling : Spells request.path path)
    (hother : request.type ≠ content.type ∨ request.lifetime ≠ lifetime)
    (hreads : request.readsFirst = false) : request.run w = some (handleNull, w) := by
  cases request with
  | registerTexture spelling lifetime' source gpu =>
    rw [AssetRequest.run, assetRegisterTexture]
    split
    · rfl
    split
    · rfl
    split
    · rfl
    exact hc.unlessExisting inv hspelling hother _
  | registerSound spelling lifetime' source =>
    rw [AssetRequest.run, assetRegisterSound]
    split
    · rfl
    split
    · rfl
    split
    · rfl
    exact hc.unlessExisting inv hspelling hother _
  | load spelling lifetime' platform gpu => cases hreads
  | loadTextureTga spelling lifetime' platform scratch gpu =>
    rw [AssetRequest.run, assetLoadTextureTga, beginFileLoad]
    split
    · rfl
    exact hc.unlessExisting inv hspelling hother _
  | loadSoundWav spelling lifetime' platform =>
    rw [AssetRequest.run, assetLoadSoundWav, beginFileLoad]
    split
    · rfl
    exact hc.unlessExisting inv hspelling hother _

end

structure AssetWorld.Means (w : AssetWorld) (h : AssetHandle) (path : List UInt8)
    (lifetime : Nat) (content : AssetContent) : Prop where
  views : w.Views h (assetIdOf path) content
  found : ∀ spelling, Spells spelling path → assetIdOf path ≠ assetIdNull →
    assetRegistryFindPath w spelling = some h
  clash : ∀ request : AssetRequest, Spells request.path path →
    request.type ≠ content.type ∨ request.lifetime ≠ lifetime →
      Outcome (¬ w.CanCommit)
          (fun r => ∃ io, w.registry.ioArena.SameBacking io ∧
            io.offset = w.registry.ioArena.offset ∧ r = (handleNull, w.withIo io))
          (request.run w) ∧
        (request.readsFirst = false → request.run w = some (handleNull, w))

section

variable {w start : AssetWorld} {past : List RegistryEvent} {h : AssetHandle} {lifetime : Nat}
  {path : List UInt8} {content : AssetContent}

theorem AssetWorld.Names.means (hn : w.Names h path lifetime content) (inv : w.Inv)
    (hempty : w.IoEmpty) {request : AssetRequest} {before : AssetWorld}
    (hoffered : request.Offers before content) : w.Means h path lifetime content where
  views := hn.views inv hoffered
  found spelling hspelling hid := hn.found inv hspelling hid
  clash request hspelling hother := by
    refine ⟨(hn.contains.refuses inv hspelling hother).imp id ?_,
      hn.contains.ignores inv hspelling hother⟩
    rintro r ⟨io, hio, rfl⟩
    exact ⟨io, hio.keeps.backing, (hempty.rewinds hio).trans hempty.symm, rfl⟩

theorem trace_suffix {later : List RegistryEvent}
    (htrace : (registrySystem start).Trace (later ++ past) w) :
    ∃ v, (registrySystem start).Trace past v := by
  induction later generalizing w with
  | nil => exact ⟨w, htrace⟩
  | cons e later ih =>
    cases htrace with
    | step hpast _ => exact ih hpast

theorem trace_after {e : RegistryEvent} (htrace : (registrySystem start).Trace (e :: past) w) :
    w = e.after := by
  cases htrace with
  | step _ hnext => exact hnext.2.1.symm

theorem trace_valid_iff (hstart : RegistryInitialized start)
    (htrace : (registrySystem start).Trace past w) :
    assetRegistryValid w.registry h = true ↔ w.registry.Current h := by
  rw [assetRegistryValid_iff (trace_inv hstart htrace).registry]
  refine ⟨And.right, fun hcurrent => ⟨?_, hcurrent⟩⟩
  by_contra hclosed
  have hdead := (trace_closed hstart htrace).2 (Bool.eq_false_of_not_eq_true hclosed)
  have hlive := hcurrent.1
  rw [hdead] at hlive
  cases hlive

theorem HandleState.stale_of_ended {later : List RegistryEvent}
    (hs : HandleState w h path lifetime content later past) (inv : w.Inv)
    (hended : ¬ Kept h lifetime later past) :
    handleGen h < (w.registry.slots (handleIndex h)).generation := by
  cases hs with
  | current hgen hcontains hgoing hcount =>
    have hstate := HandleState.current hgen hcontains hgoing hcount
    exact absurd ((hstate.kept_iff inv).mp ⟨hcontains.live, hgen⟩) hended
  | stale hgen _ => exact hgen

theorem HandleState.names {later : List RegistryEvent}
    (hs : HandleState w h path lifetime content later past) (inv : w.Inv)
    (hvalid : assetRegistryValid w.registry h = true) : w.Names h path lifetime content := by
  obtain ⟨hinit, hlive, hgen⟩ := (assetRegistryValid_iff inv.registry).mp hvalid
  have hslot := (handleSlot_iff inv.registry).mpr
    ⟨hinit, hlive, ((inv.registry.slotHandle_iff hlive).mpr hgen).symm⟩
  cases hs with
  | current _ hcontains _ _ => exact ⟨hslot, hcontains⟩
  | stale hstale _ => exact absurd hgen (Nat.ne_of_gt hstale)

theorem HandleState.assetGlobalRefcount {later : List RegistryEvent}
    (hs : HandleState w h path lifetime content later past) (inv : w.Inv)
    (hvalid : assetRegistryValid w.registry h = true) (hglobal : lifetime = assetLifetimeGlobal) :
    releaseCount h past + assetGlobalRefcount w.registry h = returnCount h past := by
  obtain ⟨hslot, hcontains⟩ := hs.names inv hvalid
  have hother := hcontains.lifetime.trans hglobal
  rw [ChoonzMoba.assetGlobalRefcount, hslot]
  dsimp only
  rw [if_neg (not_not.mpr hother)]
  cases hs with
  | current _ _ _ hcount => exact hcount hglobal
  | stale hgen _ =>
    exact absurd ((assetRegistryValid_iff inv.registry).mp hvalid).2.2 (Nat.ne_of_gt hgen)

theorem assetHandles_keep_meaning (hstart : RegistryInitialized start)
    (past : List RegistryEvent) (htrace : (registrySystem start).Trace past w)
    (hretire : ∀ slot, slotRetirements slot past < 16383) :
    ∀ later first earlier h, past = later ++ first :: earlier → handleIsNull h = false →
      first.returns h = true → (∀ e ∈ earlier, e.returns h = false) →
      ∃ request path content, first.Registers h request path content ∧
        (assetRegistryValid w.registry h = true ↔ Kept h request.lifetime later past) ∧
        (assetRegistryValid w.registry h = true →
          w.Means h path request.lifetime content) ∧
        (assetRegistryValid w.registry h = true → request.lifetime = assetLifetimeGlobal →
          releaseCount h past + assetGlobalRefcount w.registry h = returnCount h past) ∧
        (∀ newer older, later = newer ++ older →
          ¬ Kept h request.lifetime older (older ++ first :: earlier) →
            assetRegistryValid w.registry h = false) ∧
        ∀ e ∈ past, e.returns h = true →
          ∃ again, e.Repeats path request.type request.lifetime again := by
  rintro later first earlier h rfl hnull hreturns hfirst
  have inv := trace_inv hstart htrace
  obtain ⟨v, hv⟩ := trace_suffix htrace
  obtain ⟨request, path, content, hregisters, hissued⟩ :=
    trace_issues hstart hv hnull hreturns hfirst
  have hissued' : ∀ u, (registrySystem start).Trace (first :: earlier) u →
      HandleState u h path request.lifetime content [] (first :: earlier) := by
    intro u hu
    rw [trace_after hu, ← trace_after hv]
    exact hissued
  obtain ⟨hstate, hrepeats⟩ := handleState_run hstart htrace hnull (hretire (handleIndex h)) hissued'
    hregisters.type
  refine ⟨request, path, content, hregisters, ?_, fun hvalid => ?_,
    fun hvalid hglobal => hstate.assetGlobalRefcount inv hvalid hglobal,
    fun newer older hlater hended => ?_, fun e he hreturns => ?_⟩
  · rw [trace_valid_iff hstart htrace]
    exact hstate.kept_iff inv
  · exact (hstate.names inv hvalid).means inv (trace_setting hstart htrace).1 hregisters.offered
  · subst hlater
    rw [List.append_assoc] at htrace hretire
    have hstale := stale_run hstart htrace hnull (hretire (handleIndex h)) fun u hu => by
      have hbefore := Nat.lt_of_le_of_lt (slotRetirements_le (handleIndex h) newer _)
        (hretire (handleIndex h))
      exact (handleState_run hstart hu hnull hbefore hissued' hregisters.type).1.stale_of_ended
        (trace_inv hstart hu) hended
    refine Bool.eq_false_of_not_eq_true fun hvalid => ?_
    exact Nat.ne_of_gt hstale ((trace_valid_iff hstart htrace).mp hvalid).2
  · rcases List.mem_append.mp he with hlater | hrest
    · exact hrepeats e hlater hreturns
    · rcases List.mem_cons.mp hrest with rfl | hearlier
      · exact ⟨request, hregisters.op, hregisters.path, rfl, rfl⟩
      · rw [hfirst e hearlier] at hreturns
        cases hreturns

theorem assetHandles_keep_meaning_texture :
    ∃ past w, (registrySystem exampleWorld).Trace past w ∧
      assetRegistryValid w.registry 262144 = true ∧
        ∃ path lifetime content, w.Means 262144 path lifetime content := by
  have h : ((registryStep exampleWorld exampleTexture).map fun r => returnsHandle 262144 r.1) =
      some true := by decide +kernel
  obtain ⟨r, hr, hreturns⟩ := Option.map_eq_some_iff.mp h
  have htrace : (registrySystem exampleWorld).Trace [⟨exampleWorld, exampleTexture, r.1, r.2⟩] r.2 :=
    .step (.start rfl) ⟨rfl, rfl, hr⟩
  have hretire : ∀ slot, slotRetirements slot [⟨exampleWorld, exampleTexture, r.1, r.2⟩] < 16383 :=
    fun slot => Nat.lt_of_le_of_lt List.countP_le_length (show 1 < 16383 by decide)
  obtain ⟨request, path, content, -, hvalid, hmeans, -⟩ :=
    assetHandles_keep_meaning exampleWorld_initialized _ htrace hretire [] _ [] 262144 rfl (by decide)
      hreturns fun _ h => nomatch h
  have hkept : Kept 262144 request.lifetime [] [⟨exampleWorld, exampleTexture, r.1, r.2⟩] := by
    refine ⟨fun _ h => (nomatch h), fun _ => ?_⟩
    have hreturned : RegistryEvent.returns 262144 ⟨exampleWorld, exampleTexture, r.1, r.2⟩ = true :=
      hreturns
    rw [releaseCount_cons, returnCount_cons, hreturned]
    exact Nat.one_pos
  exact ⟨_, r.2, htrace, hvalid.mpr hkept, path, request.lifetime, content,
    hmeans (hvalid.mpr hkept)⟩

end

end ChoonzMoba
