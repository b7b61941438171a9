import ChoonzMoba.Assets.RegistryRun

namespace ChoonzMoba

theorem readMemory_memcpy (memory : Nat → UInt8) (offset : Nat) (bytes rest : List UInt8) :
    readMemory (memcpy memory offset (bytes ++ rest)) offset bytes.length = bytes := by
  apply List.ext_getElem
  · rw [readMemory, List.length_map, List.length_range]
  · intro i hi hlt
    simp only [readMemory, List.getElem_map, List.getElem_range, memcpy]
    rw [if_pos (Nat.le_add_right offset i), Nat.add_sub_cancel_left, List.getD_eq_getElem?_getD,
      List.getElem?_append_left hlt, List.getElem?_eq_getElem hlt, Option.getD_some]

theorem readMemory_congr {memory memory' : Nat → UInt8} {offset length : Nat}
    (h : ∀ address, offset ≤ address → address < offset + length →
      memory' address = memory address) :
    readMemory memory' offset length = readMemory memory offset length :=
  List.map_congr_left fun i hi =>
    h _ (Nat.le_add_right offset i) (Nat.add_lt_add_left (List.mem_range.mp hi) offset)

structure AssetWorld.Contains (w : AssetWorld) (slot : Nat) (path : List UInt8) (lifetime : Nat)
    (content : AssetContent) : Prop where
  live : (w.registry.slots slot).live = true
  type : (w.registry.slots slot).type = content.type
  lifetime : (w.registry.slots slot).lifetime = lifetime
  id : (w.registry.slots slot).id = assetIdOf path
  cpuBlobBytes : (w.registry.slots slot).cpuBlobBytes = content.source.length
  gpuHandle : (w.registry.slots slot).gpuHandle = content.gpuHandle
  meta0 : (w.registry.slots slot).meta0 = content.meta0
  meta1 : (w.registry.slots slot).meta1 = content.meta1
  meta2 : (w.registry.slots slot).meta2 = content.meta2
  pathLength : (w.registry.slots slot).pathLength = path.length
  source : readMemory w.memory (w.registry.slots slot).cpuBlob content.source.length =
    content.source
  path : readMemory w.memory (w.registry.slots slot).path path.length = path

def returnsHandle (h : AssetHandle) : RegistryAnswer → Bool
  | .asset a => a == h
  | .released _ => false
  | .done => false

def releasesHandle (h : AssetHandle) : RegistryOp → RegistryAnswer → Bool
  | .releaseGlobal a _, .released accepted => accepted && a == h
  | _, _ => false

def RegistryOp.ends (lifetime : Nat) : RegistryOp → Bool
  | .request _ => false
  | .releaseGlobal _ _ => false
  | .unloadLevel _ => lifetime == assetLifetimeLevel
  | .shutdown _ => true

def AssetSlot.withRefcount (s : AssetSlot) (n : Nat) : AssetSlot := { s with refcount := n }

def Elsewhere (slot : Nat) (op : RegistryOp) (answer : RegistryAnswer) : Prop :=
  ∀ h, handleIsNull h = false → handleIndex h = slot →
    returnsHandle h answer = false ∧ releasesHandle h op answer = false

inductive SlotStep (w : AssetWorld) (slot : Nat) (op : RegistryOp) (answer : RegistryAnswer)
    (t : AssetWorld) : Prop
  | kept : t.registry.slots slot = w.registry.slots slot → Elsewhere slot op answer →
      ((w.registry.slots slot).live = true → op.ends (w.registry.slots slot).lifetime = false) →
      SlotStep w slot op answer t
  | shared {request : AssetRequest} {path : List UInt8} : op = .request request →
      answer = .asset (w.registry.slotHandle slot) → Spells request.path path →
      w.Registered slot path request.type request.lifetime →
      t.registry.slots slot = (w.registry.slots slot).withRefcount
        (if request.lifetime = assetLifetimeGlobal then (w.registry.slots slot).refcount + 1
          else (w.registry.slots slot).refcount) → SlotStep w slot op answer t
  | issued {request : AssetRequest} {path : List UInt8} {content : AssetContent} :
      op = .request request → answer = .asset (t.registry.slotHandle slot) →
      Spells request.path path → request.Offers w content → content.type = request.type →
      (w.registry.slots slot).live = false → t.Contains slot path request.lifetime content →
      (t.registry.slots slot).generation =
        (if (w.registry.slots slot).generation = 0 then 1 else (w.registry.slots slot).generation) →
      (t.registry.slots slot).refcount = (if request.lifetime = assetLifetimeGlobal then 1 else 0) →
      SlotStep w slot op answer t
  | dropped {frames : UInt32} : op = .releaseGlobal (w.registry.slotHandle slot) frames →
      answer = .released true → (w.registry.slots slot).live = true →
      (w.registry.slots slot).lifetime = assetLifetimeGlobal →
      1 < (w.registry.slots slot).refcount →
      t.registry.slots slot = (w.registry.slots slot).withRefcount
        ((w.registry.slots slot).refcount - 1) → SlotStep w slot op answer t
  | released {frames : UInt32} : op = .releaseGlobal (w.registry.slotHandle slot) frames →
      answer = .released true → (w.registry.slots slot).live = true →
      (w.registry.slots slot).lifetime = assetLifetimeGlobal →
      (w.registry.slots slot).refcount = 1 →
      t.registry.slots slot = .cleared (nextGeneration (w.registry.slots slot).generation) →
      SlotStep w slot op answer t
  | ended : answer = .done → (w.registry.slots slot).live = true →
      op.ends (w.registry.slots slot).lifetime = true →
      t.registry.slots slot = .cleared (nextGeneration (w.registry.slots slot).generation) →
      SlotStep w slot op answer t

section

variable {w t : AssetWorld} {slot other : Nat} {op : RegistryOp} {answer : RegistryAnswer}
  {h : AssetHandle} {path : List UInt8} {lifetime : Nat} {content : AssetContent}

theorem AssetRegistry.Inv.handleIndex_slotHandle {r : AssetRegistry} (inv : r.Inv)
    (hlive : (r.slots slot).live = true) : handleIndex (r.slotHandle slot) = slot :=
  handleIndex_make (inv.live_index hlive) (inv.live_generation hlive).2

theorem AssetRegistry.Inv.handleGen_slotHandle {r : AssetRegistry} (inv : r.Inv)
    (hlive : (r.slots slot).live = true) :
    handleGen (r.slotHandle slot) = (r.slots slot).generation :=
  handleGen_make (inv.live_index hlive) (inv.live_generation hlive).2

theorem Elsewhere.of_null (slot : Nat) (request : AssetRequest) :
    Elsewhere slot (.request request) (.asset handleNull) := by
  intro h hnull _
  have hne : handleNull ≠ h := by
    rintro rfl
    cases hnull
  exact ⟨beq_eq_false_iff_ne.mpr hne, rfl⟩

theorem Elsewhere.of_request (hne : handleIndex h ≠ slot) (request : AssetRequest) :
    Elsewhere slot (.request request) (.asset h) := by
  intro a _ ha
  have hother : h ≠ a := by
    rintro rfl
    exact hne ha
  exact ⟨beq_eq_false_iff_ne.mpr hother, rfl⟩

theorem Elsewhere.of_release (hne : handleIndex h ≠ slot) (frames : UInt32) (accepted : Bool) :
    Elsewhere slot (.releaseGlobal h frames) (.released accepted) := by
  intro a _ ha
  have hother : (h == a) = false := by
    refine beq_eq_false_iff_ne.mpr ?_
    rintro rfl
    exact hne ha
  refine ⟨rfl, ?_⟩
  rw [releasesHandle, hother, Bool.and_false]

theorem Elsewhere.of_refused (slot : Nat) (h : AssetHandle) (frames : UInt32) :
    Elsewhere slot (.releaseGlobal h frames) (.released false) :=
  fun _ _ _ => ⟨rfl, rfl⟩

theorem Elsewhere.of_done (slot : Nat) (hop : ∀ h frames, op ≠ .releaseGlobal h frames) :
    Elsewhere slot op .done := by
  intro h _ _
  refine ⟨rfl, ?_⟩
  cases op with
  | releaseGlobal a frames => exact absurd rfl (hop a frames)
  | request _ => rfl
  | unloadLevel _ => rfl
  | shutdown _ => rfl

theorem Commits.contains {cpu stored : Nat} {arena : Arena} {byId : HashMap AssetId UInt32}
    (c : Commits w slot lifetime path content arena cpu stored byId) :
    (w.committed slot lifetime path content arena cpu stored byId).Contains slot path lifetime
      content := by
  have hslot : (w.committed slot lifetime path content arena cpu stored byId).registry.slots slot =
      w.registry.newSlot slot lifetime path content cpu stored := by
    rw [committed_slots, if_pos rfl]
  have hmemory : (w.committed slot lifetime path content arena cpu stored byId).memory =
      memcpy (memcpy w.memory cpu content.source) stored (path ++ [0]) := rfl
  refine ⟨?_, ?_, ?_, ?_, ?_, ?_, ?_, ?_, ?_, ?_, ?_, ?_⟩ <;> rw [hslot]
  · exact rfl
  · exact rfl
  · exact rfl
  · exact rfl
  · exact rfl
  · exact rfl
  · exact rfl
  · exact rfl
  · exact rfl
  · exact c.pathLength
  · show readMemory _ cpu content.source.length = _
    have hblob := c.stores.blob
    have hkept : readMemory (memcpy (memcpy w.memory cpu content.source) stored (path ++ [0])) cpu
        content.source.length =
        readMemory (memcpy w.memory cpu content.source) cpu content.source.length :=
      readMemory_congr fun address _ hlt => ByteWriter.memcpy_outside _ (Or.inl (by omega))
    have hread := readMemory_memcpy w.memory cpu content.source []
    rw [List.append_nil] at hread
    rw [hmemory, hkept, hread]
  · show readMemory _ stored path.length = _
    rw [hmemory, readMemory_memcpy]

theorem Commits.memory {cpu stored address : Nat} {arena : Arena}
    {byId : HashMap AssetId UInt32}
    (c : Commits w slot lifetime path content arena cpu stored byId) (inv : w.Inv)
    (hlive : (w.registry.slots other).live = true)
    (hfrom : (w.registry.slots other).cpuBlob ≤ address)
    (hto : address < (w.registry.slots other).path + (w.registry.slots other).pathLength + 1) :
    (w.committed slot lifetime path content arena cpu stored byId).memory address =
      w.memory address := by
  have hblob := c.stores.blob
  have hlength := c.pathLength
  have hapart : (w.registry.slots other).path + (w.registry.slots other).pathLength + 1 ≤ cpu ∨
      stored + path.length % 2 ^ 16 + 1 ≤ (w.registry.slots other).cpuBlob :=
    c.apart inv.registry hlive
  have hpath : (path ++ [0]).length = path.length + 1 := List.length_append
  show memcpy (memcpy w.memory cpu content.source) stored (path ++ [0]) address = _
  rw [ByteWriter.memcpy_outside _ (by omega), ByteWriter.memcpy_outside _ (by omega)]

theorem share_slots (w : AssetWorld) (slot other : Nat) :
    (w.share slot).registry.slots other =
      if other = slot then
        (w.registry.slots slot).withRefcount
          (if (w.registry.slots slot).lifetime = assetLifetimeGlobal then
            (w.registry.slots slot).refcount + 1
          else (w.registry.slots slot).refcount)
      else w.registry.slots other := by
  rw [AssetWorld.share]
  by_cases hglobal : (w.registry.slots slot).lifetime = assetLifetimeGlobal
  · rw [if_pos hglobal, if_pos hglobal]
    exact Function.update_apply ..
  · rw [if_neg hglobal, if_neg hglobal]
    split
    · next hother =>
      subst hother
      rfl
    · rfl

theorem Acquired.slotStep {request : AssetRequest} {u : AssetWorld} (inv : w.Inv)
    (hpath : Spells request.path path)
    (hu : Acquired w path request.type request.lifetime (request.Offers w) h u) (slot : Nat) :
    SlotStep w slot (.request request) (.asset h) u := by
  cases hu with
  | @shared s hregistered =>
    by_cases hslot : slot = s
    · subst hslot
      refine .shared rfl rfl hpath hregistered ?_
      rw [share_slots, if_pos rfl, hregistered.lifetime]
    · have hindex := inv.registry.handleIndex_slotHandle hregistered.live
      refine .kept ?_ (.of_request (fun hs => hslot (hs.symm.trans hindex)) request) fun _ => rfl
      rw [share_slots, if_neg hslot]
  | @issued s cpu stored content arena byId hoffered htype hcommits =>
    by_cases hslot : slot = s
    · subst hslot
      refine .issued rfl rfl hpath hoffered htype hcommits.takes.dead hcommits.contains ?_ ?_
      · rw [committed_slots, if_pos rfl]
        rfl
      · rw [committed_slots, if_pos rfl]
        rfl
    · have hindex := (hcommits.inv inv).registry.handleIndex_slotHandle committed_live
      refine .kept ?_ (.of_request (fun hs => hslot (hs.symm.trans hindex)) request) fun _ => rfl
      rw [committed_slots, if_neg hslot]

theorem SlotStep.of_withIo {u : AssetWorld} (h : SlotStep w slot op answer u) (io : Arena) :
    SlotStep w slot op answer (u.withIo io) := by
  cases h with
  | kept hslot helse hends => exact .kept hslot helse hends
  | shared hop hanswer hpath hregistered hslot => exact .shared hop hanswer hpath hregistered hslot
  | issued hop hanswer hpath hoffered htype hdead hcontains hgen hcount =>
    exact .issued hop hanswer hpath hoffered htype hdead { hcontains with } hgen hcount
  | dropped hop hanswer hlive hglobal hmore hslot =>
    exact .dropped hop hanswer hlive hglobal hmore hslot
  | released hop hanswer hlive hglobal hlast hslot =>
    exact .released hop hanswer hlive hglobal hlast hslot
  | ended hanswer hlive hends hslot => exact .ended hanswer hlive hends hslot

theorem Transition.slotStep (inv : w.Inv)
    (hclosed : w.registry.initialized = false → ∀ i, (w.registry.slots i).live = false)
    (h : Transition w op answer t) (slot : Nat) : SlotStep w slot op answer t := by
  cases h with
  | @request request _ _ hanswered =>
    cases hanswered with
    | refused _ => exact .kept rfl (.of_null slot request) fun _ => rfl
    | acquired hpath hu _ => exact (hu.slotStep inv hpath slot).of_withIo _
  | @release h frames accepted t hreleased =>
    cases hreleased with
    | refused _ => exact .kept rfl (.of_refused slot h frames) fun _ => rfl
    | @dropped s hs hglobal hmore =>
      obtain ⟨-, hlive, rfl⟩ := (handleSlot_iff inv.registry).mp hs
      by_cases hslot : slot = s
      · subst hslot
        refine .dropped rfl rfl hlive hglobal hmore ?_
        rw [setRefcount_slots, if_pos rfl]
        rfl
      · have hindex := inv.registry.handleIndex_slotHandle hlive
        refine .kept ?_ (.of_release (fun hs => hslot (hs.symm.trans hindex)) frames true)
          fun _ => rfl
        rw [setRefcount_slots, if_neg hslot]
    | @retired s _ hs hglobal hlast hretires =>
      obtain ⟨-, hlive, rfl⟩ := (handleSlot_iff inv.registry).mp hs
      have hretired := hretires.slots slot
      by_cases hslot : slot = s
      · subst hslot
        rw [if_pos (beq_self_eq_true slot)] at hretired
        exact .released rfl rfl hlive hglobal hlast hretired
      · have hindex := inv.registry.handleIndex_slotHandle hlive
        rw [if_neg (fun hs => hslot (beq_iff_eq.mp hs))] at hretired
        exact .kept hretired (.of_release (fun hs => hslot (hs.symm.trans hindex)) frames true)
          fun _ => rfl
  | @unload frames t _ hretires _ =>
    have hretired := hretires.slots slot
    cases hlevel : levelSlot (w.registry.slots slot) with
    | true =>
      rw [hlevel, if_pos rfl] at hretired
      obtain ⟨hlive, hlifetime⟩ := Bool.and_eq_true_iff.mp hlevel
      exact .ended rfl hlive hlifetime hretired
    | false =>
      rw [hlevel, if_neg Bool.false_ne_true] at hretired
      refine .kept hretired (.of_done slot fun _ _ hop => by cases hop) fun hlive => ?_
      rw [levelSlot, hlive, Bool.true_and] at hlevel
      exact hlevel
  | @shutdown frames t _ hretires _ _ =>
    have hretired := hretires.slots slot
    cases hlive : (w.registry.slots slot).live with
    | true =>
      rw [hlive, if_pos rfl] at hretired
      exact .ended rfl hlive rfl hretired
    | false =>
      rw [hlive, if_neg Bool.false_ne_true] at hretired
      refine .kept hretired (.of_done slot fun _ _ hop => by cases hop) fun hlive' => ?_
      rw [hlive] at hlive'
      cases hlive'
  | closed hshut hops =>
    refine .kept rfl (.of_done slot fun a frames hop => ?_) fun hlive => ?_
    · obtain ⟨frames', hunload | hshutdown⟩ := hops
      · rw [hop] at hunload
        cases hunload
      · rw [hop] at hshutdown
        cases hshutdown
    · rw [hclosed hshut slot] at hlive
      cases hlive

theorem Transition.memory (inv : w.Inv) (h : Transition w op answer t)
    (hlive : (w.registry.slots slot).live = true) {address : Nat}
    (hfrom : (w.registry.slots slot).cpuBlob ≤ address)
    (hto : address < (w.registry.slots slot).path + (w.registry.slots slot).pathLength + 1) :
    t.memory address = w.memory address := by
  cases h with
  | request hanswered =>
    cases hanswered with
    | refused _ => rfl
    | acquired _ hu _ =>
      cases hu with
      | shared _ =>
        rw [AssetWorld.share]
        split <;> rfl
      | @issued s cpu stored content arena byId _ _ hcommits =>
        exact hcommits.memory inv hlive hfrom hto
  | release hreleased =>
    cases hreleased with
    | refused _ => rfl
    | dropped _ _ _ => rfl
    | retired _ _ _ hretires => rw [hretires.memory]
  | unload _ hretires _ => exact congrFun hretires.memory address
  | shutdown _ hretires _ _ => exact congrFun hretires.memory address
  | closed _ _ => rfl

end

end ChoonzMoba
