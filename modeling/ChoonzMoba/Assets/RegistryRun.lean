import ChoonzMoba.Assets.RegistryRetire
import ChoonzMoba.Library.System

namespace ChoonzMoba

inductive AssetRequest where
  | registerTexture (path : Option CString) (lifetime : Nat) (source : AssetTextureSource)
      (gpu : Handle)
  | registerSound (path : Option CString) (lifetime : Nat) (source : AssetSoundSource)
  | load (path : Option CString) (lifetime : Nat) (platform : PlatformReader) (gpu : Handle)
  | loadTextureTga (path : Option CString) (lifetime : Nat) (platform : PlatformReader)
      (scratch : Nat → UInt8) (gpu : Handle)
  | loadSoundWav (path : Option CString) (lifetime : Nat) (platform : PlatformReader)

namespace AssetRequest

def path : AssetRequest → Option CString
  | registerTexture path _ _ _ => path
  | registerSound path _ _ => path
  | load path _ _ _ => path
  | loadTextureTga path _ _ _ _ => path
  | loadSoundWav path _ _ => path

def type : AssetRequest → AssetType
  | registerTexture _ _ _ _ => .texture
  | registerSound _ _ _ => .sound
  | load _ _ _ _ => .texture
  | loadTextureTga _ _ _ _ _ => .texture
  | loadSoundWav _ _ _ => .sound

def lifetime : AssetRequest → Nat
  | registerTexture _ lifetime _ _ => lifetime
  | registerSound _ lifetime _ => lifetime
  | load _ lifetime _ _ => lifetime
  | loadTextureTga _ lifetime _ _ _ => lifetime
  | loadSoundWav _ lifetime _ => lifetime

def run (w : AssetWorld) : AssetRequest → Option (AssetHandle × AssetWorld)
  | registerTexture path lifetime source gpu => assetRegisterTexture w path lifetime source gpu
  | registerSound path lifetime source => assetRegisterSound w path lifetime source
  | load path lifetime platform gpu => assetLoad w path lifetime platform gpu
  | loadTextureTga path lifetime platform scratch gpu =>
    assetLoadTextureTga w path lifetime platform scratch gpu
  | loadSoundWav path lifetime platform => assetLoadSoundWav w path lifetime platform

def Offers (w : AssetWorld) : AssetRequest → AssetContent → Prop
  | registerTexture _ _ source gpu, content => source.Shows gpu content
  | registerSound _ _ source, content => source.Shows content
  | load path _ platform gpu, content => ∃ normalized, Spells path normalized ∧
      Loads w normalized platform (bakedTexture (assetIdOf normalized))
        (fun source => source.Shows gpu) content
  | loadTextureTga path _ platform scratch gpu, content => ∃ normalized, Spells path normalized ∧
      Loads w normalized platform (decodedTexture scratch) (fun source => source.Shows gpu) content
  | loadSoundWav path _ platform, content => ∃ normalized, Spells path normalized ∧
      Loads w normalized platform decodedSound AssetSoundSource.Shows content

theorem outcome {w : AssetWorld} (inv : w.Inv) (request : AssetRequest) :
    Outcome (¬ w.CanCommit)
      (Answered w request.path request.type request.lifetime (request.Offers w))
      (request.run w) := by
  cases request with
  | registerTexture path lifetime source gpu =>
    exact (assetRegisterTexture_outcome inv path lifetime source gpu).imp
      (fun h hs => h (hs.lifetimeArena lifetime)) fun _ h => h
  | registerSound path lifetime source =>
    exact (assetRegisterSound_outcome inv path lifetime source).imp
      (fun h hs => h (hs.lifetimeArena lifetime)) fun _ h => h
  | load path lifetime platform gpu => exact assetLoad_outcome inv path lifetime platform gpu
  | loadTextureTga path lifetime platform scratch gpu =>
    exact assetLoadTextureTga_outcome inv path lifetime platform scratch gpu
  | loadSoundWav path lifetime platform =>
    exact assetLoadSoundWav_outcome inv path lifetime platform

end AssetRequest

inductive RegistryOp where
  | request (request : AssetRequest)
  | releaseGlobal (handle : AssetHandle) (framesUntilFree : UInt32)
  | unloadLevel (framesUntilFree : UInt32)
  | shutdown (framesUntilFree : UInt32)

inductive RegistryAnswer where
  | asset (handle : AssetHandle)
  | released (accepted : Bool)
  | done

def registryStep (w : AssetWorld) : RegistryOp → Option (RegistryAnswer × AssetWorld)
  | .request request => (request.run w).map fun r => (.asset r.1, r.2)
  | .releaseGlobal handle frames =>
    (assetReleaseGlobal w handle frames).map fun r => (.released r.1, r.2)
  | .unloadLevel frames => (assetsUnloadLevel w frames).map fun t => (.done, t)
  | .shutdown frames => (assetRegistryShutdown w frames).map fun t => (.done, t)

structure RegistryEvent where
  before : AssetWorld
  op : RegistryOp
  answer : RegistryAnswer
  after : AssetWorld

def registrySystem (start : AssetWorld) : System AssetWorld RegistryEvent where
  initial w := w = start
  next w e t := e.before = w ∧ e.after = t ∧ registryStep w e.op = some (e.answer, t)

def RegistryInitialized (w : AssetWorld) : Prop :=
  ∃ registry persistent level global io renderer config,
    assetRegistryInit registry persistent level global io renderer config =
      some (some w.registry) ∧ w.created = [] ∧ w.destroyed = []

section

variable {w t start : AssetWorld}

inductive Transition (w : AssetWorld) : RegistryOp → RegistryAnswer → AssetWorld → Prop
  | request {request : AssetRequest} {h : AssetHandle} {t : AssetWorld} :
      Answered w request.path request.type request.lifetime (request.Offers w) (h, t) →
      Transition w (.request request) (.asset h) t
  | release {h : AssetHandle} {frames : UInt32} {accepted : Bool} {t : AssetWorld} :
      Released w h (accepted, t) → Transition w (.releaseGlobal h frames) (.released accepted) t
  | unload {frames : UInt32} {t : AssetWorld} : w.registry.initialized = true →
      Retires w (fun i => levelSlot (w.registry.slots i)) t → t.rewindLevel.Inv →
      Transition w (.unloadLevel frames) .done t.rewindLevel
  | shutdown {frames : UInt32} {t : AssetWorld} : w.registry.initialized = true →
      Retires w (fun i => (w.registry.slots i).live) t → t.close.Inv →
      (∀ i, (t.registry.slots i).live = false) → Transition w (.shutdown frames) .done t.close
  | closed {op : RegistryOp} : w.registry.initialized = false →
      (∃ frames, op = .unloadLevel frames ∨ op = .shutdown frames) → Transition w op .done w

theorem registryStep_outcome (inv : w.Inv) (op : RegistryOp) :
    Outcome (¬ w.CanCommit) (fun r => Transition w op r.1 r.2) (registryStep w op) := by
  cases op with
  | request request => exact (request.outcome inv).map fun _ hr => .request hr
  | releaseGlobal h frames =>
    obtain ⟨r, hr, hreleased⟩ := inv.release h frames
    rw [registryStep, hr]
    exact .returned (.release hreleased)
  | unloadLevel frames =>
    rw [registryStep]
    cases hinit : w.registry.initialized with
    | true =>
      obtain ⟨t, hretires, hinv, ht⟩ := inv.unload hinit frames
      rw [ht]
      exact .returned (.unload hinit hretires hinv)
    | false =>
      rw [assetsUnloadLevel, if_pos hinit]
      exact .returned (.closed hinit ⟨frames, Or.inl rfl⟩)
  | shutdown frames =>
    rw [registryStep]
    cases hinit : w.registry.initialized with
    | true =>
      obtain ⟨t, hretires, hinv, hdead, ht⟩ := inv.shutdown hinit frames
      rw [ht]
      exact .returned (.shutdown hinit hretires hinv hdead)
    | false =>
      rw [assetRegistryShutdown, if_pos hinit]
      exact .returned (.closed hinit ⟨frames, Or.inr rfl⟩)

theorem Acquired.inv {path : List UInt8} {type : AssetType} {lifetime : Nat}
    {Offered : AssetContent → Prop} {h : AssetHandle} (inv : w.Inv)
    (hu : Acquired w path type lifetime Offered h t) : t.Inv := by
  cases hu with
  | shared _ => exact inv.share _
  | issued _ _ hcommits => exact hcommits.inv inv

theorem AssetRegistry.Rewinds.base_le {r : AssetRegistry} {io : Arena} (h : r.Rewinds io)
    (hbase : r.ioBaseOffset ≤ r.ioArena.offset) : r.ioBaseOffset ≤ io.offset := by
  rcases h.offset with hoffset | hoffset
  · exact hoffset ▸ hbase
  · exact Nat.le_of_eq hoffset.symm

theorem Answered.inv {path : Option CString} {type : AssetType} {lifetime : Nat}
    {Offered : AssetContent → Prop} {r : AssetHandle × AssetWorld} (inv : w.Inv)
    (hr : Answered w path type lifetime Offered r) : r.2.Inv := by
  have hbase := inv.registry.arenas.ioBase
  cases hr with
  | refused hio => exact inv.withIo hio.keeps (hio.base_le hbase)
  | acquired _ hu hio =>
    have hsetting := hu.setting
    refine (hu.inv inv).withIo ?_ ?_
    · rw [hsetting.ioArena]
      exact hio.keeps
    · rw [hsetting.ioBaseOffset]
      exact hio.base_le hbase

theorem Transition.inv {op : RegistryOp} {answer : RegistryAnswer} (inv : w.Inv)
    (h : Transition w op answer t) : t.Inv := by
  cases h with
  | request hanswered => exact hanswered.inv inv
  | release hreleased => exact hreleased.inv inv
  | unload _ _ hinv => exact hinv
  | shutdown _ _ hinv _ => exact hinv
  | closed _ _ => exact inv

theorem registryStep_transition (inv : w.Inv) {op : RegistryOp} {answer : RegistryAnswer}
    (h : registryStep w op = some (answer, t)) : Transition w op answer t :=
  (registryStep_outcome inv op).returns h

theorem validArena_spec {a : Arena} (h : validArena a = true) : a.Wf := by
  simp only [validArena, Bool.and_eq_true, bne_iff_ne, decide_eq_true_eq] at h
  obtain ⟨⟨⟨hbase, hoffset⟩, hcommitted⟩, haddress⟩ := h
  have hle := a.base_le
  exact ⟨hbase, hoffset, hcommitted, by omega⟩

theorem makeRange_valid {a : Arena} (wf : a.Wf) :
    makeRange a.base a.reserved = some ⟨a.base, a.base + a.reserved⟩ := by
  have haddress := wf.address
  have hbase := wf.base_ne
  rw [makeRange, if_neg (by omega)]

theorem registryMemoryIsDisjoint_spec {registry : Nat} {a b c d : ArenaPointer} (ha : a.arena.Wf)
    (hb : b.arena.Wf) (hc : c.arena.Wf) (hd : d.arena.Wf)
    (h : registryMemoryIsDisjoint registry [a, b, c, d] = true) :
    b.arena.base + b.arena.reserved ≤ c.arena.base ∨
      c.arena.base + c.arena.reserved ≤ b.arena.base := by
  have hranges : [a, b, c, d].mapM (fun p => makeRange p.arena.base p.arena.reserved) =
      some ([a, b, c, d].map fun p => ⟨p.arena.base, p.arena.base + p.arena.reserved⟩) := by
    simp [List.mapM_cons, makeRange_valid ha, makeRange_valid hb, makeRange_valid hc,
      makeRange_valid hd]
  rw [registryMemoryIsDisjoint, hranges] at h
  have hdisjoint := of_decide_eq_true (Bool.and_eq_true_iff.mp h).1
  have hbc : rangesOverlap ⟨b.arena.base, b.arena.base + b.arena.reserved⟩
      ⟨c.arena.base, c.arena.base + c.arena.reserved⟩ = false := by
    simp only [List.map_cons, List.map_nil, List.pairwise_cons] at hdisjoint
    exact hdisjoint.2.1 _ List.mem_cons_self
  simp only [rangesOverlap, Bool.and_eq_false_iff, decide_eq_false_iff_not, Nat.not_lt] at hbc
  omega

theorem assetRegistryMemoryRequired_spec {config : AssetRegistryConfig}
    (h : assetRegistryMemoryRequired config ≠ 0) : assetMapCapacity config.capacity ≠ 0 := by
  intro hzero
  rw [assetRegistryMemoryRequired] at h
  rw [if_pos (Or.inl hzero)] at h
  exact h rfl

structure AssetRegistry.Fresh (r : AssetRegistry) : Prop where
  slots : ∀ i, r.slots i = .cleared 0
  liveCount : r.liveCount = 0
  nextFresh : r.nextFresh = 0
  freeCount : r.freeCount = 0
  capacity_le : r.capacity ≤ 2 ^ 18
  level : r.levelArena.Wf
  global : r.globalArena.Wf
  io : r.ioArena.Wf
  levelBase : r.levelBaseOffset = r.levelArena.offset
  globalBase : r.globalBaseOffset = r.globalArena.offset
  ioBase : r.ioBaseOffset = r.ioArena.offset
  apart : r.levelArena.base + r.levelArena.reserved ≤ r.globalArena.base ∨
    r.globalArena.base + r.globalArena.reserved ≤ r.levelArena.base
  address : r.byId.address ≠ 0
  empty : ∀ p, r.byId.slots p = none
  cap : ∃ k, r.byId.cap.toNat = 2 ^ k
  mask : r.byId.mask = r.byId.cap - 1
  room : r.capacity * 2 ≤ r.byId.cap.toNat
  count : r.byId.count = 0
  initialized : r.initialized = true

theorem RegistryInitialized.fresh (h : RegistryInitialized w) : w.registry.Fresh := by
  obtain ⟨registry, persistent, level, global, io, renderer, config, hinit, -, -⟩ := h
  rw [assetRegistryInit] at hinit
  dsimp only at hinit
  split at hinit
  · cases hinit
  next hpointers =>
  split at hinit
  · cases hinit
  next hdisjoint =>
  split at hinit
  · cases hinit
  next hrequired =>
  split at hinit
  · cases hinit
  obtain ⟨pushed, -, hmap⟩ := Option.bind_eq_some_iff.mp hinit
  obtain ⟨slots, hslots, hregistry⟩ := Option.map_eq_some_iff.mp hmap
  have hregistry' := Option.some.inj hregistry
  simp only [List.any_cons, List.any_nil, Bool.or_false, Bool.or_eq_true, beq_iff_eq,
    Bool.not_eq_true', not_or, Bool.not_eq_false] at hpointers hdisjoint
  obtain ⟨-, ⟨⟨-, hpersistent⟩, ⟨-, hlevel⟩, ⟨-, hglobal⟩, -, hio⟩, -⟩ := hpointers
  have hpushed := Arena.pushed hslots
  obtain ⟨-, hcapacity, j, hj, -, hlt, hroom⟩ :=
    assetMapCapacity_spec (assetRegistryMemoryRequired_spec (not_or.mp hrequired).1)
  have hcap : (UInt32.ofNat (assetMapCapacity config.capacity)).toNat =
      assetMapCapacity config.capacity := by
    refine UInt32.toNat_ofNat_of_lt' ?_
    rw [hj]
    exact Nat.pow_lt_pow_right (by decide) hlt
  have haddress : slots.2 ≠ 0 := by
    have hbase := (arenaPush_spec hslots).1
    have hstart := hpushed.start
    omega
  rw [← hregistry']
  exact
    { slots := fun _ => rfl
      liveCount := rfl
      nextFresh := rfl
      freeCount := rfl
      capacity_le := hcapacity
      level := validArena_spec hlevel
      global := validArena_spec hglobal
      io := validArena_spec hio
      levelBase := rfl
      globalBase := rfl
      ioBase := rfl
      apart := registryMemoryIsDisjoint_spec (validArena_spec hpersistent) (validArena_spec hlevel)
        (validArena_spec hglobal) (validArena_spec hio) hdisjoint
      address := haddress
      empty := fun _ => rfl
      cap := ⟨j, hcap.trans hj⟩
      mask := rfl
      room := by
        dsimp only
        rw [hcap, hj]
        exact hroom
      count := rfl
      initialized := rfl }

theorem AssetRegistry.Fresh.mapsIds {r : AssetRegistry} (h : r.Fresh) : r.MapsIds := by
  have hentries : r.byId.entries = [] := by
    rw [List.eq_nil_iff_forall_not_mem]
    intro e he
    obtain ⟨p, -, hp⟩ := HashMap.mem_entries.mp he
    rw [h.empty p] at hp
    cases hp
  have hcap : r.byId.cap ≠ 0 := by
    obtain ⟨k, hk⟩ := h.cap
    intro hzero
    rw [hzero] at hk
    exact absurd hk.symm (Nat.ne_of_gt (Nat.two_pow_pos k))
  have htable := HashMap.Table.empty (K := AssetId) (V := UInt32) r.byId.address h.cap
  have hmap : r.byId = ⟨r.byId.address, fun _ => none, r.byId.cap, r.byId.cap - 1, 0⟩ := by
    rw [← h.mask, ← h.count, ← funext h.empty]
  rw [← hmap] at htable
  refine ⟨⟨fun hzero => absurd hzero h.address, ?_, fun _ => htable, fun _ => ?_⟩, hcap, h.room, ?_,
    fun e he => ?_, fun i hlive => ?_⟩
  · rw [hentries, h.count]
    rfl
  · rw [hentries]
    obtain ⟨k, hk⟩ := h.cap
    rw [hk]
    exact Nat.two_pow_pos k
  · rw [h.count, h.liveCount]
    rfl
  · rw [hentries] at he
    cases he
  · rw [h.slots i] at hlive
    cases hlive

theorem AssetRegistry.Fresh.inv {r : AssetRegistry} (h : r.Fresh) : r.Inv := by
  have hdead : ∀ i, (r.slots i).live = true → False := fun i hlive => by
    rw [h.slots i] at hlive
    cases hlive
  refine ⟨⟨fun i _ => ?_, ?_, fun i => ?_⟩, ?_, h.capacity_le, ?_, fun i hi => ?_, fun i _ => ?_,
    fun i hlive => (hdead i hlive).elim, h.mapsIds,
    ⟨h.level, h.global, h.io, Nat.le_of_eq h.levelBase, Nat.le_of_eq h.globalBase,
      Nat.le_of_eq h.ioBase, h.apart⟩, fun i j _ hi _ => (hdead i hi).elim⟩
  · exact congrArg AssetSlot.live (h.slots i)
  · show r.freeList.Nodup
    rw [AssetRegistry.freeList, h.freeCount]
    exact List.nodup_nil
  · show i ∈ r.freeList ↔ i < r.nextFresh ∧ _
    rw [AssetRegistry.freeList, h.freeCount, h.nextFresh]
    simp
  · rw [h.nextFresh]
    exact Nat.zero_le _
  · rw [h.liveCount, h.freeCount, h.nextFresh]
  · rw [h.nextFresh] at hi
    exact absurd hi (Nat.not_lt_zero i)
  · rw [h.slots i]
    rfl

theorem RegistryInitialized.inv (h : RegistryInitialized w) : w.Inv := by
  refine ⟨h.fresh.inv, fun texture _ => ?_⟩
  have hnone : w.holders texture = 0 := by
    rw [AssetWorld.holders, List.countP_eq_zero]
    intro i _
    rw [h.fresh.slots i]
    exact Bool.false_ne_true
  obtain ⟨_, _, _, _, _, _, _, -, hcreated, hdestroyed⟩ := h
  rw [hnone, hcreated, AssetWorld.destructions, hdestroyed]
  rfl

theorem trace_inv (hstart : RegistryInitialized start) {past : List RegistryEvent}
    (htrace : (registrySystem start).Trace past w) : w.Inv := by
  induction htrace with
  | start h =>
    subst h
    exact hstart.inv
  | step _ hnext ih =>
    obtain ⟨rfl, rfl, hstep⟩ := hnext
    exact (registryStep_transition ih hstep).inv ih

theorem AssetRequest.run_closed (hclosed : w.registry.initialized = false)
    (request : AssetRequest) : request.run w = some (handleNull, w) := by
  cases request with
  | registerTexture path lifetime source gpu =>
    rw [run, assetRegisterTexture]
    split
    · rfl
    · rw [if_pos (Or.inl hclosed)]
  | registerSound path lifetime source =>
    rw [run, assetRegisterSound]
    split
    · rfl
    · rw [if_pos (Or.inl hclosed)]
  | load path lifetime platform gpu => rw [run, assetLoad, if_pos (Or.inl hclosed)]
  | loadTextureTga path lifetime platform scratch gpu =>
    rw [run, assetLoadTextureTga, beginFileLoad, if_pos (Or.inl hclosed)]
  | loadSoundWav path lifetime platform =>
    rw [run, assetLoadSoundWav, beginFileLoad, if_pos (Or.inl hclosed)]

theorem registryStep_closed (inv : w.Inv) (hclosed : w.registry.initialized = false)
    {op : RegistryOp} {answer : RegistryAnswer} (h : registryStep w op = some (answer, t)) :
    t = w := by
  have hopen : w.registry.initialized = true → False := fun hinit => by
    rw [hclosed] at hinit
    cases hinit
  cases op with
  | request request =>
    rw [registryStep, request.run_closed hclosed] at h
    cases h
    rfl
  | releaseGlobal handle frames =>
    cases registryStep_transition inv h with
    | release hreleased =>
      cases hreleased with
      | refused _ => rfl
      | dropped hslot _ _ => exact (hopen ((handleSlot_iff inv.registry).mp hslot).1).elim
      | retired hslot _ _ _ => exact (hopen ((handleSlot_iff inv.registry).mp hslot).1).elim
    | closed _ _ => rfl
  | unloadLevel frames =>
    cases registryStep_transition inv h with
    | unload hinit _ _ => exact (hopen hinit).elim
    | closed _ _ => rfl
  | shutdown frames =>
    cases registryStep_transition inv h with
    | shutdown hinit _ _ _ => exact (hopen hinit).elim
    | closed _ _ => rfl

def RegistryOp.isShutdown : RegistryOp → Bool
  | .request _ => false
  | .releaseGlobal _ _ => false
  | .unloadLevel _ => false
  | .shutdown _ => true

theorem Transition.initialized {op : RegistryOp} {answer : RegistryAnswer}
    (h : Transition w op answer t) :
    t.registry.initialized = (w.registry.initialized && !op.isShutdown) := by
  have hretires : ∀ {p : Nat → Bool} {u}, Retires w p u →
      u.registry.initialized = (w.registry.initialized && !false) := by
    intro p u hretires
    have hsame := congrArg AssetRegistry.initialized hretires.frame
    rw [Bool.not_false, Bool.and_true]
    exact hsame
  cases h with
  | request hanswered =>
    cases hanswered with
    | refused _ => exact (Bool.and_true _).symm
    | acquired _ hu _ => exact hu.setting.initialized.trans (Bool.and_true _).symm
  | release hreleased =>
    cases hreleased with
    | refused _ => exact (Bool.and_true _).symm
    | dropped _ _ _ => exact (Bool.and_true _).symm
    | retired _ _ _ h => exact hretires h
  | unload _ h _ =>
    have hsame := hretires h
    exact hsame
  | shutdown _ _ _ _ => exact (Bool.and_false _).symm
  | closed hclosed _ => rw [hclosed, Bool.false_and]

theorem Transition.closes {op : RegistryOp} {answer : RegistryAnswer}
    (h : Transition w op answer t) (hopen : w.registry.initialized = true)
    (hclosed : t.registry.initialized = false) : ∀ i, (t.registry.slots i).live = false := by
  rw [h.initialized, hopen, Bool.true_and, Bool.not_eq_false'] at hclosed
  cases h with
  | request _ => cases hclosed
  | release _ => cases hclosed
  | unload _ _ _ => cases hclosed
  | shutdown _ _ _ hdead => exact hdead
  | closed hwas _ =>
    rw [hopen] at hwas
    cases hwas

theorem trace_closed (hstart : RegistryInitialized start) {past : List RegistryEvent}
    (htrace : (registrySystem start).Trace past w) :
    w.registry.initialized = past.all (fun e => !e.op.isShutdown) ∧
      (w.registry.initialized = false → ∀ i, (w.registry.slots i).live = false) := by
  induction htrace with
  | start h =>
    subst h
    refine ⟨hstart.fresh.initialized, fun hclosed => ?_⟩
    rw [hstart.fresh.initialized] at hclosed
    cases hclosed
  | @step past w t e hpast hnext ih =>
    obtain ⟨rfl, rfl, hstep⟩ := hnext
    have inv := trace_inv hstart hpast
    have htransition := registryStep_transition inv hstep
    refine ⟨?_, fun hclosed => ?_⟩
    · rw [List.all_cons, ← ih.1, htransition.initialized, Bool.and_comm]
    · cases hbefore : e.before.registry.initialized with
      | false =>
        rw [registryStep_closed inv hbefore hstep]
        exact ih.2 hbefore
      | true => exact htransition.closes hbefore hclosed

theorem Retires.persistent {p : Nat → Bool} (h : Retires w p t) :
    t.registry.persistentArena = w.registry.persistentArena ∧
      w.registry.byId.SameShape t.registry.byId := by
  have harena := congrArg AssetRegistry.persistentArena h.frame
  exact ⟨harena, h.shape⟩

theorem Transition.persistent {op : RegistryOp} {answer : RegistryAnswer}
    (h : Transition w op answer t) :
    t.registry.persistentArena = w.registry.persistentArena ∧
      w.registry.byId.SameShape t.registry.byId := by
  cases h with
  | request hanswered =>
    cases hanswered with
    | refused _ => exact ⟨rfl, .refl _⟩
    | acquired _ hu _ => exact ⟨hu.setting.persistent, hu.setting.shape⟩
  | release hreleased =>
    cases hreleased with
    | refused _ => exact ⟨rfl, .refl _⟩
    | dropped _ _ _ => exact ⟨rfl, .refl _⟩
    | retired _ _ _ hretires => exact hretires.persistent
  | unload _ hretires _ => exact hretires.persistent
  | shutdown _ hretires _ _ => exact hretires.persistent
  | closed _ _ => exact ⟨rfl, .refl _⟩

theorem trace_persistent (hstart : RegistryInitialized start) {past : List RegistryEvent}
    (htrace : (registrySystem start).Trace past w) :
    w.registry.persistentArena = start.registry.persistentArena ∧
      start.registry.byId.SameShape w.registry.byId := by
  induction htrace with
  | start h =>
    subst h
    exact ⟨rfl, .refl _⟩
  | step hpast hnext ih =>
    obtain ⟨rfl, rfl, hstep⟩ := hnext
    obtain ⟨harena, hshape⟩ := (registryStep_transition (trace_inv hstart hpast) hstep).persistent
    exact ⟨harena.trans ih.1, ih.2.trans hshape⟩

end

def AssetSlot.blobRange (s : AssetSlot) : AddressRange := ⟨s.cpuBlob, s.cpuBlob + s.cpuBlobBytes⟩

def AssetSlot.pathRange (s : AssetSlot) : AddressRange := ⟨s.path, s.path + s.pathLength + 1⟩

def AddressRange.Disjoint (a b : AddressRange) : Prop := a.stop ≤ b.start ∨ b.stop ≤ a.start

structure AssetRegistry.Representation (r start : AssetRegistry) : Prop where
  maps : ∀ id i, assetMapGet r.byId id = some (some i) ↔
    (r.slots i.toNat).live = true ∧ (r.slots i.toNat).id = id
  absent : ∀ id, (∀ i, (r.slots i).live = true → (r.slots i).id ≠ id) →
    assetMapGet r.byId id = some none
  distinct : ∀ i j, (r.slots i).live = true → (r.slots j).live = true →
    (r.slots i).id = (r.slots j).id → i = j
  count : r.liveCount + r.freeCount = r.nextFresh
  fresh_le : r.nextFresh ≤ r.capacity
  live_lt : ∀ i, (r.slots i).live = true → i < r.nextFresh
  freeNodup : r.freeList.Nodup
  free : ∀ i, i ∈ r.freeList ↔ i < r.nextFresh ∧ (r.slots i).live = false
  refcount : ∀ i, (r.slots i).live = true →
    ((r.slots i).lifetime = assetLifetimeLevel ∧ (r.slots i).refcount = 0) ∨
      ((r.slots i).lifetime = assetLifetimeGlobal ∧ 1 ≤ (r.slots i).refcount)
  inPlace : r.liveCount < r.capacity → r.byId.grownCap = none
  map : start.byId.SameShape r.byId
  persistent : r.persistentArena = start.persistentArena
  inside : ∀ i, (r.slots i).live = true →
    ∀ range ∈ [(r.slots i).blobRange, (r.slots i).pathRange],
      (r.lifetimeArena (r.slots i).lifetime).base + r.lifetimeBase (r.slots i).lifetime ≤
        range.start ∧
      range.stop ≤ (r.lifetimeArena (r.slots i).lifetime).base +
        (r.lifetimeArena (r.slots i).lifetime).offset
  own : ∀ i, (r.slots i).live = true → (r.slots i).blobRange.Disjoint (r.slots i).pathRange
  apart : ∀ i j, i ≠ j → (r.slots i).live = true → (r.slots j).live = true →
    ∀ a ∈ [(r.slots i).blobRange, (r.slots i).pathRange],
      ∀ b ∈ [(r.slots j).blobRange, (r.slots j).pathRange], a.Disjoint b

section

variable {w start : AssetWorld} {r : AssetRegistry}

theorem AssetRegistry.Inv.maps (inv : r.Inv) (id : AssetId) (i : UInt32) :
    assetMapGet r.byId id = some (some i) ↔
      (r.slots i.toNat).live = true ∧ (r.slots i.toNat).id = id := by
  rcases inv.ids.get id with ⟨j, hget, hlive, hid⟩ | ⟨hget, hnone⟩
  · rw [hget, Option.some.injEq, Option.some.injEq]
    constructor
    · rintro rfl
      exact ⟨hlive, hid⟩
    · rintro ⟨hlive', hid'⟩
      exact UInt32.toNat_inj.mp (inv.ids.distinct hlive hlive' (hid.trans hid'.symm))
  · rw [hget, Option.some.injEq]
    constructor
    · intro h
      cases h
    · rintro ⟨hlive, hid⟩
      exact absurd hid (hnone _ hlive)

theorem AssetRegistry.ValidSlot.range {s : AssetSlot} (h : r.ValidSlot s) {range : AddressRange}
    (hrange : range ∈ [s.blobRange, s.pathRange]) :
    s.cpuBlob ≤ range.start ∧ range.stop ≤ s.path + s.pathLength + 1 := by
  have hblob := h.blob
  rcases List.mem_cons.mp hrange with rfl | hrange
  · exact ⟨Nat.le_refl _, by simp only [AssetSlot.blobRange]; omega⟩
  · obtain rfl := List.mem_singleton.mp hrange
    exact ⟨by simp only [AssetSlot.pathRange]; omega, Nat.le_refl _⟩

theorem assetRegistry_keeps_representation (hstart : RegistryInitialized start)
    (past : List RegistryEvent) (htrace : (registrySystem start).Trace past w) :
    w.registry.Representation start.registry := by
  have inv := (trace_inv hstart htrace).registry
  obtain ⟨hpersistent, hshape⟩ := trace_persistent hstart htrace
  refine ⟨inv.maps, fun id habsent => ?_, fun i j hi hj hid => inv.ids.distinct hi hj hid, inv.count,
    inv.fresh_le, fun i hlive => inv.live_lt hlive, inv.slots.nodup, inv.slots.mem_free,
    fun i hlive => (inv.valid i hlive).refcount, fun hroom => ?_, hshape, hpersistent,
    fun i hlive range hrange => ?_, fun i hlive => Or.inl (inv.valid i hlive).blob,
    fun i j hne hi hj a ha b hb => ?_⟩
  · rcases inv.ids.get id with ⟨i, -, hlive, hid⟩ | ⟨hget, -⟩
    · exact absurd hid (habsent _ hlive)
    · exact hget
  · have hcount := inv.ids.count
    have hcap := inv.ids.room
    rw [HashMap.grownCap, if_neg inv.ids.cap, if_neg (by omega)]
  · have hvalid := inv.valid i hlive
    obtain ⟨hfrom, hto⟩ := hvalid.range hrange
    exact ⟨Nat.le_trans hvalid.above hfrom, Nat.le_trans hto hvalid.below⟩
  · obtain ⟨hfroma, htoa⟩ := (inv.valid i hi).range ha
    obtain ⟨hfromb, htob⟩ := (inv.valid j hj).range hb
    rcases inv.apart i j hne hi hj with hbefore | hafter
    · exact Or.inl (Nat.le_trans htoa (Nat.le_trans hbefore hfromb))
    · exact Or.inr (Nat.le_trans htob (Nat.le_trans hafter hfroma))

end

def exampleArena (base : Nat) (h : base ≤ uintptrMax) : Arena where
  base := base
  offset := 0
  committed := 65536
  reserved := 65536
  highWater := 0
  commit := none
  commitGranularity := 0
  base_le := h

def exampleInit : Option (Option AssetRegistry) :=
  assetRegistryInit 4096 ⟨8192, exampleArena 65536 (by decide)⟩ ⟨12288, exampleArena 131072 (by decide)⟩
    ⟨16384, exampleArena 196608 (by decide)⟩ ⟨20480, exampleArena 262144 (by decide)⟩ ⟨true, true⟩
    ⟨2, 1024, some ⟨[byte 'a'], by decide⟩⟩

theorem exampleInit_succeeds : (exampleInit.bind id).isSome = true := by decide +kernel

def exampleWorld : AssetWorld where
  registry := (exampleInit.bind id).get exampleInit_succeeds
  memory := fun _ => 0
  created := []
  destroyed := []

theorem exampleInit_eq : exampleInit = some (some exampleWorld.registry) := by
  have hget : ∀ (x : Option (Option AssetRegistry)) (h : (x.bind id).isSome = true),
      x = some (some ((x.bind id).get h)) := by
    intro x h
    cases x with
    | none => cases h
    | some r =>
      cases r with
      | none => cases h
      | some r => rfl
  exact hget exampleInit exampleInit_succeeds

theorem exampleWorld_initialized : RegistryInitialized exampleWorld :=
  ⟨4096, _, _, _, _, _, _, exampleInit_eq, rfl, rfl⟩

def exampleTexture : RegistryOp :=
  .request (.registerTexture (some ⟨[byte 'a'], by decide⟩) assetLifetimeLevel
    ⟨some fun _ => 0, 1, 1⟩ 5)

theorem exampleWorld_texture : ∃ r, registryStep exampleWorld exampleTexture = some r ∧
    r.2.registry.liveCount = 1 ∧ r.2.created = [5] := by
  have h : ((registryStep exampleWorld exampleTexture).map fun r =>
      (r.2.registry.liveCount, r.2.created)) = some (1, [5]) := by decide +kernel
  obtain ⟨r, hr, hrest⟩ := Option.map_eq_some_iff.mp h
  obtain ⟨hcount, hcreated⟩ := Prod.mk.inj hrest
  exact ⟨r, hr, hcount, hcreated⟩

theorem assetRegistry_keeps_representation_texture :
    ∃ past w, (registrySystem exampleWorld).Trace past w ∧ w.registry.liveCount = 1 ∧
      w.registry.Representation exampleWorld.registry := by
  obtain ⟨r, hr, hcount, -⟩ := exampleWorld_texture
  have htrace : (registrySystem exampleWorld).Trace [⟨exampleWorld, exampleTexture, r.1, r.2⟩] r.2 :=
    .step (.start rfl) ⟨rfl, rfl, hr⟩
  exact ⟨_, r.2, htrace, hcount,
    assetRegistry_keeps_representation exampleWorld_initialized _ htrace⟩

end ChoonzMoba
