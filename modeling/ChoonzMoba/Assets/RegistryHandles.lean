import ChoonzMoba.Assets.RegistryChange

namespace ChoonzMoba

def AssetRegistry.Current (r : AssetRegistry) (h : AssetHandle) : Prop :=
  (r.slots (handleIndex h)).live = true ∧ (r.slots (handleIndex h)).generation = handleGen h

namespace RegistryEvent

def returns (h : AssetHandle) (e : RegistryEvent) : Bool := returnsHandle h e.answer

def releases (h : AssetHandle) (e : RegistryEvent) : Bool := releasesHandle h e.op e.answer

def retires (slot : Nat) (e : RegistryEvent) : Bool :=
  (e.before.registry.slots slot).live && !(e.after.registry.slots slot).live

structure Sound (e : RegistryEvent) : Prop where
  before : e.before.Inv
  after : e.after.Inv
  slotStep : ∀ slot, SlotStep e.before slot e.op e.answer e.after
  memory : ∀ slot address, (e.before.registry.slots slot).live = true →
    (e.before.registry.slots slot).cpuBlob ≤ address →
    address < (e.before.registry.slots slot).path + (e.before.registry.slots slot).pathLength + 1 →
      e.after.memory address = e.before.memory address

structure Registers (e : RegistryEvent) (h : AssetHandle) (request : AssetRequest)
    (path : List UInt8) (content : AssetContent) : Prop where
  op : e.op = .request request
  answer : e.answer = .asset h
  path : Spells request.path path
  offered : request.Offers e.before content
  type : content.type = request.type
  lifetime : request.lifetime = assetLifetimeLevel ∨ request.lifetime = assetLifetimeGlobal

structure Issues (e : RegistryEvent) (h : AssetHandle) (request : AssetRequest)
    (path : List UInt8) (content : AssetContent) : Prop where
  registers : e.Registers h request path content
  contains : e.after.Contains (handleIndex h) path request.lifetime content
  generation : (e.after.registry.slots (handleIndex h)).generation = handleGen h
  unused : (e.before.registry.slots (handleIndex h)).generation = 0 ∨
    (e.before.registry.slots (handleIndex h)).generation = handleGen h
  refcount : (e.after.registry.slots (handleIndex h)).refcount =
    if request.lifetime = assetLifetimeGlobal then 1 else 0

structure Silent (e : RegistryEvent) (h : AssetHandle) : Prop where
  returns : e.returns h = false
  releases : e.releases h = false
  absent : ¬ e.after.registry.Current h

end RegistryEvent

def returnCount (h : AssetHandle) (past : List RegistryEvent) : Nat :=
  past.countP (RegistryEvent.returns h)

def releaseCount (h : AssetHandle) (past : List RegistryEvent) : Nat :=
  past.countP (RegistryEvent.releases h)

def slotRetirements (slot : Nat) (past : List RegistryEvent) : Nat :=
  past.countP (RegistryEvent.retires slot)

section

variable {w start : AssetWorld} {e : RegistryEvent} {past : List RegistryEvent}
  {h : AssetHandle} {slot : Nat}

theorem registryStep_sound (hstart : RegistryInitialized start)
    (hpast : (registrySystem start).Trace past e.before)
    (hstep : registryStep e.before e.op = some (e.answer, e.after)) : e.Sound := by
  have inv := trace_inv hstart hpast
  have htransition := registryStep_transition inv hstep
  refine ⟨inv, htransition.inv inv, ?_, fun slot address hlive hfrom hto => ?_⟩
  · exact htransition.slotStep inv (trace_closed hstart hpast).2
  · exact htransition.memory inv hlive hfrom hto

theorem AssetRegistry.Inv.slotHandle_iff {r : AssetRegistry} (inv : r.Inv)
    (hlive : (r.slots (handleIndex h)).live = true) :
    r.slotHandle (handleIndex h) = h ↔ (r.slots (handleIndex h)).generation = handleGen h := by
  constructor
  · intro hsame
    rw [← inv.handleGen_slotHandle hlive, hsame]
  · intro hgen
    refine handle_ext (inv.handleIndex_slotHandle hlive) ?_
    rw [inv.handleGen_slotHandle hlive, hgen]

theorem assetRegistryValid_iff {r : AssetRegistry} (inv : r.Inv) :
    assetRegistryValid r h = true ↔ r.initialized = true ∧ r.Current h := by
  rw [assetRegistryValid, Option.isSome_iff_exists]
  constructor
  · rintro ⟨slot, hslot⟩
    obtain ⟨hinit, hlive, rfl⟩ := (handleSlot_iff inv).mp hslot
    have hindex := inv.handleIndex_slotHandle hlive
    refine ⟨hinit, ?_, ?_⟩
    · rw [hindex]
      exact hlive
    · rw [hindex]
      exact (inv.handleGen_slotHandle hlive).symm
  · rintro ⟨hinit, hlive, hgen⟩
    exact ⟨_, (handleSlot_iff inv).mpr ⟨hinit, hlive, ((inv.slotHandle_iff hlive).mpr hgen).symm⟩⟩

namespace RegistryEvent.Sound

variable (he : e.Sound)
include he

theorem of_not_current (hnull : handleIsNull h = false)
    (hnot : ¬ e.before.registry.Current h) :
    (∃ request path content, e.Issues h request path content) ∨ e.Silent h := by
  have hother : (e.before.registry.slots (handleIndex h)).live = true →
      e.before.registry.slotHandle (handleIndex h) ≠ h := fun hlive hsame =>
    hnot ⟨hlive, (he.before.registry.slotHandle_iff hlive).mp hsame⟩
  have hreleases : ∀ {a frames}, a ≠ h → e.op = .releaseGlobal a frames →
      e.answer = .released true → e.returns h = false ∧ e.releases h = false := by
    intro a frames hne hop hanswer
    rw [RegistryEvent.returns, RegistryEvent.releases, hop, hanswer]
    exact ⟨rfl, beq_eq_false_iff_ne.mpr hne⟩
  cases he.slotStep (handleIndex h) with
  | kept hslot helse _ =>
    obtain ⟨hreturns, hreleases⟩ := helse h hnull rfl
    refine Or.inr ⟨hreturns, hreleases, ?_⟩
    rw [AssetRegistry.Current, hslot]
    exact hnot
  | shared hop hanswer _ hregistered hslot =>
    refine Or.inr ⟨?_, ?_, ?_⟩
    · rw [RegistryEvent.returns, hanswer]
      exact beq_eq_false_iff_ne.mpr (hother hregistered.live)
    · rw [RegistryEvent.releases, hop]
      rfl
    · rw [AssetRegistry.Current, hslot]
      exact hnot
  | @issued request path content hop hanswer hpath hoffered htype hdead hcontains hgen hcount =>
    have hlive := hcontains.live
    by_cases hsame : e.after.registry.slotHandle (handleIndex h) = h
    · have hcurrent := (he.after.registry.slotHandle_iff hlive).mp hsame
      have hlifetime := (he.after.registry.valid _ hlive).refcount
      rw [hcontains.lifetime] at hlifetime
      rw [hsame] at hanswer
      refine Or.inl ⟨request, path, content, ⟨hop, hanswer, hpath, hoffered, htype,
        hlifetime.imp And.left And.left⟩, hcontains, hcurrent, ?_, hcount⟩
      split at hgen
      · next hzero => exact Or.inl hzero
      · exact Or.inr (hgen.symm.trans hcurrent)
    · refine Or.inr ⟨?_, ?_, fun hcurrent => ?_⟩
      · rw [RegistryEvent.returns, hanswer]
        exact beq_eq_false_iff_ne.mpr hsame
      · rw [RegistryEvent.releases, hop]
        rfl
      · exact hsame ((he.after.registry.slotHandle_iff hlive).mpr hcurrent.2)
  | dropped hop hanswer hlive _ _ hslot =>
    obtain ⟨hreturned, hreleased⟩ := hreleases (hother hlive) hop hanswer
    refine Or.inr ⟨hreturned, hreleased, ?_⟩
    rw [AssetRegistry.Current, hslot]
    exact hnot
  | released hop hanswer hlive _ _ hslot =>
    obtain ⟨hreturned, hreleased⟩ := hreleases (hother hlive) hop hanswer
    refine Or.inr ⟨hreturned, hreleased, fun hcurrent => ?_⟩
    rw [AssetRegistry.Current, hslot] at hcurrent
    cases hcurrent.1
  | ended hanswer _ hends hslot =>
    refine Or.inr ⟨?_, ?_, fun hcurrent => ?_⟩
    · rw [RegistryEvent.returns, hanswer]
      rfl
    · rw [RegistryEvent.releases, hanswer]
      cases e.op <;> rfl
    · rw [AssetRegistry.Current, hslot] at hcurrent
      cases hcurrent.1

theorem generation_cases (slot : Nat) :
    e.retires slot = false ∧
        ((e.after.registry.slots slot).generation = (e.before.registry.slots slot).generation ∨
          (e.before.registry.slots slot).generation = 0 ∧
            (e.after.registry.slots slot).generation = 1) ∨
      e.retires slot = true ∧ (e.after.registry.slots slot).generation =
        nextGeneration (e.before.registry.slots slot).generation := by
  rw [RegistryEvent.retires]
  cases he.slotStep slot with
  | kept hslot _ _ =>
    rw [hslot]
    exact Or.inl ⟨Bool.and_not_self _, Or.inl rfl⟩
  | shared _ _ _ _ hslot =>
    rw [hslot]
    exact Or.inl ⟨Bool.and_not_self _, Or.inl rfl⟩
  | issued _ _ _ _ _ hdead _ hgen _ =>
    rw [hdead, hgen]
    refine Or.inl ⟨rfl, ?_⟩
    split
    · next hzero => exact Or.inr ⟨hzero, rfl⟩
    · exact Or.inl rfl
  | dropped _ _ _ _ _ hslot =>
    rw [hslot]
    exact Or.inl ⟨Bool.and_not_self _, Or.inl rfl⟩
  | released _ _ hlive _ _ hslot =>
    rw [hslot, hlive]
    exact Or.inr ⟨rfl, rfl⟩
  | ended _ hlive _ hslot =>
    rw [hslot, hlive]
    exact Or.inr ⟨rfl, rfl⟩

end RegistryEvent.Sound

theorem slotRetirements_cons (slot : Nat) (e : RegistryEvent) (past : List RegistryEvent) :
    slotRetirements slot (e :: past) =
      slotRetirements slot past + if e.retires slot = true then 1 else 0 :=
  List.countP_cons

theorem slotRetirements_le (slot : Nat) (later past : List RegistryEvent) :
    slotRetirements slot past ≤ slotRetirements slot (later ++ past) := by
  rw [slotRetirements, slotRetirements, List.countP_append]
  exact Nat.le_add_left _ _

theorem trace_generation (hstart : RegistryInitialized start)
    (htrace : (registrySystem start).Trace past w) (slot : Nat) :
    (w.registry.slots slot).generation ≤ slotRetirements slot past + 1 := by
  induction htrace with
  | start h =>
    subst h
    rw [hstart.fresh.slots slot]
    exact Nat.zero_le _
  | step hpast hnext ih =>
    obtain ⟨rfl, rfl, hstep⟩ := hnext
    have hsound := registryStep_sound hstart hpast hstep
    rw [slotRetirements_cons]
    rcases hsound.generation_cases slot with ⟨-, hsame | ⟨-, hone⟩⟩ | ⟨hretires, hnext⟩
    · omega
    · omega
    · rw [if_pos hretires, hnext, nextGeneration]
      split <;> omega

theorem RegistryEvent.Sound.generation_grows (he : e.Sound)
    (hbound : e.retires slot = true → (e.before.registry.slots slot).generation < 16383) :
    (e.before.registry.slots slot).generation ≤ (e.after.registry.slots slot).generation ∧
      (e.retires slot = true → (e.before.registry.slots slot).generation <
        (e.after.registry.slots slot).generation) := by
  rcases he.generation_cases slot with ⟨hkept, hgen⟩ | ⟨hretires, hgen⟩
  · rw [hkept]
    refine ⟨?_, fun h => Bool.noConfusion h⟩
    rcases hgen with hsame | ⟨hzero, hone⟩
    · exact Nat.le_of_eq hsame.symm
    · omega
  · have hlt := hbound hretires
    rw [hgen, nextGeneration, handleGenMask_toNat, if_neg (by omega)]
    exact ⟨Nat.le_succ _, fun _ => Nat.lt_succ_self _⟩

theorem returnCount_cons (h : AssetHandle) (e : RegistryEvent) (past : List RegistryEvent) :
    returnCount h (e :: past) = returnCount h past + if e.returns h = true then 1 else 0 :=
  List.countP_cons

theorem releaseCount_cons (h : AssetHandle) (e : RegistryEvent) (past : List RegistryEvent) :
    releaseCount h (e :: past) = releaseCount h past + if e.releases h = true then 1 else 0 :=
  List.countP_cons

theorem trace_unreturned (hstart : RegistryInitialized start)
    (htrace : (registrySystem start).Trace past w) (hnull : handleIsNull h = false)
    (hnone : ∀ e ∈ past, e.returns h = false) :
    ¬ w.registry.Current h ∧ releaseCount h past = 0 := by
  induction htrace with
  | start hw =>
    subst hw
    refine ⟨fun hcurrent => ?_, rfl⟩
    rw [AssetRegistry.Current, hstart.fresh.slots] at hcurrent
    cases hcurrent.1
  | @step past w t e hpast hnext ih =>
    obtain ⟨rfl, rfl, hstep⟩ := hnext
    obtain ⟨hnot, hcount⟩ := ih fun e he => hnone e (List.mem_cons_of_mem _ he)
    have hreturns := hnone e List.mem_cons_self
    rcases (registryStep_sound hstart hpast hstep).of_not_current hnull hnot with
      ⟨request, path, content, hissues⟩ | hsilent
    · rw [RegistryEvent.returns, hissues.registers.answer, returnsHandle, beq_self_eq_true]
        at hreturns
      cases hreturns
    · refine ⟨hsilent.absent, ?_⟩
      rw [releaseCount_cons, hcount, hsilent.releases, if_neg Bool.false_ne_true]

end

end ChoonzMoba
