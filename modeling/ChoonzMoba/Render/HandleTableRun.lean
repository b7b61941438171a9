import ChoonzMoba.Render.HandleTableSpec

namespace ChoonzMoba

inductive RenderHandleEvent where
  | allocated (h : Handle)
  | retired (h : Handle) (retireFrame : UInt64) (accepted : Bool)
  | collected (currentFrame : UInt64) (released : List Nat)

def recordRelease (log : List Nat) (index : Nat) : List Nat := log ++ [index]

def renderHandleSystem : System RenderHandleTable RenderHandleEvent where
  initial t := ∃ arena pushed capacity, renderHandleTableInit arena capacity = some (pushed, some t)
  next t event u :=
    match event with
    | .allocated h => renderHandleAlloc t = (h, u)
    | .retired h retireFrame accepted => renderHandleRetire t h retireFrame = (accepted, u)
    | .collected currentFrame released =>
      renderHandleCollect (some recordRelease) t currentFrame [] = some (u, released)

namespace RenderHandleEvent

def deferredEvent : RenderHandleEvent → DeferredEvent Nat
  | allocated h => if h = handleNull then .idle else .issued (handleIndex h) (handleGen h)
  | retired h retireFrame true => .retired (handleIndex h) (handleGen h) retireFrame.toNat
  | retired _ _ false => .idle
  | collected currentFrame released => .collected currentFrame.toNat released

def releases (i : Nat) : RenderHandleEvent → Bool
  | collected _ released => decide (i ∈ released)
  | allocated _ => false
  | retired _ _ _ => false

def retires (i : Nat) : RenderHandleEvent → Bool
  | retired h _ accepted => accepted && decide (handleIndex h = i)
  | allocated _ => false
  | collected _ _ => false

end RenderHandleEvent

def HandleOutstanding (past : List RenderHandleEvent) (h : Handle) : Prop :=
  h ≠ handleNull ∧ ∃ later earlier, past = later ++ .allocated h :: earlier ∧
    ∀ retireFrame, .retired h retireFrame true ∉ later

def RetirePending (past : List RenderHandleEvent) (i : Nat) (retireFrame : UInt64) : Prop :=
  ∃ later earlier h, past = later ++ .retired h retireFrame true :: earlier ∧ handleIndex h = i ∧
    ∀ currentFrame released, .collected currentFrame released ∈ later → i ∉ released

open RenderHandleEvent RenderHandleTable

section

variable {past later earlier : List RenderHandleEvent} {t u : RenderHandleTable}
  {event : RenderHandleEvent} {free : List Nat} {h : Handle} {i : Nat} {retireFrame : UInt64}

theorem deferredEvent_issued {g : Nat} (hevent : event.deferredEvent = .issued i g) :
    ∃ h, event = .allocated h ∧ h ≠ handleNull ∧ handleIndex h = i ∧ handleGen h = g := by
  match event with
  | .allocated h =>
    rw [deferredEvent] at hevent
    split at hevent
    · cases hevent
    · next hne =>
      cases hevent
      exact ⟨h, rfl, hne, rfl, rfl⟩
  | .retired _ _ true => cases hevent
  | .retired _ _ false => cases hevent
  | .collected _ _ => cases hevent

theorem deferredEvent_retired {g due : Nat} (hevent : event.deferredEvent = .retired i g due) :
    ∃ h retireFrame, event = .retired h retireFrame true ∧ handleIndex h = i ∧ handleGen h = g ∧
      retireFrame.toNat = due := by
  match event with
  | .allocated h =>
    rw [deferredEvent] at hevent
    split at hevent
    · cases hevent
    · cases hevent
  | .retired h retireFrame true =>
    cases hevent
    exact ⟨h, retireFrame, rfl, rfl, rfl, rfl⟩
  | .retired _ _ false => cases hevent
  | .collected _ _ => cases hevent

theorem deferredEvent_collected {now : Nat} {released : List Nat}
    (hevent : event.deferredEvent = .collected now released) :
    ∃ currentFrame, event = .collected currentFrame released ∧ currentFrame.toNat = now := by
  match event with
  | .allocated h =>
    rw [deferredEvent] at hevent
    split at hevent
    · cases hevent
    · cases hevent
  | .retired _ _ true => cases hevent
  | .retired _ _ false => cases hevent
  | .collected currentFrame _ =>
    cases hevent
    exact ⟨currentFrame, rfl, rfl⟩

theorem deferredEvent_allocated (hne : h ≠ handleNull) :
    (RenderHandleEvent.allocated h).deferredEvent = .issued (handleIndex h) (handleGen h) :=
  if_neg hne

theorem outstanding_iff (hne : h ≠ handleNull) : HandleOutstanding past h ↔
    DeferredSlots.Outstanding (past.map deferredEvent) (handleIndex h) (handleGen h) := by
  constructor
  · rintro ⟨-, later, earlier, rfl, hlater⟩
    refine ⟨later.map deferredEvent, earlier.map deferredEvent, ?_, fun due hmem => ?_⟩
    · rw [List.map_append, List.map_cons, deferredEvent_allocated hne]
    · obtain ⟨event, hevent, heq⟩ := List.mem_map.mp hmem
      obtain ⟨h', frame, rfl, hindex, hgen, -⟩ := deferredEvent_retired heq
      exact hlater frame (handle_ext hindex hgen ▸ hevent)
  · rintro ⟨later, earlier, hsplit, hlater⟩
    obtain ⟨later, rest, rfl, rfl, hrest⟩ := List.map_eq_append_iff.mp hsplit
    obtain ⟨event, earlier, rfl, heq, rfl⟩ := List.map_eq_cons_iff.mp hrest
    obtain ⟨h', rfl, -, hindex, hgen⟩ := deferredEvent_issued heq
    obtain rfl := handle_ext hindex hgen
    exact ⟨hne, later, earlier, rfl, fun frame hmem =>
      hlater frame.toNat (List.mem_map.mpr ⟨_, hmem, rfl⟩)⟩

theorem pending_iff : RetirePending past i retireFrame ↔
    DeferredSlots.Pending (past.map deferredEvent) i retireFrame.toNat := by
  constructor
  · rintro ⟨later, earlier, h, rfl, hindex, hlater⟩
    refine ⟨later.map deferredEvent, earlier.map deferredEvent, handleGen h, ?_,
      fun now released hmem => ?_⟩
    · rw [List.map_append, List.map_cons, deferredEvent, hindex]
    · obtain ⟨event, hevent, heq⟩ := List.mem_map.mp hmem
      obtain ⟨currentFrame, rfl, -⟩ := deferredEvent_collected heq
      exact hlater currentFrame released hevent
  · rintro ⟨later, earlier, g, hsplit, hlater⟩
    obtain ⟨later, rest, rfl, rfl, hrest⟩ := List.map_eq_append_iff.mp hsplit
    obtain ⟨event, earlier, rfl, heq, rfl⟩ := List.map_eq_cons_iff.mp hrest
    obtain ⟨h, frame, rfl, hindex, -, hframe⟩ := deferredEvent_retired heq
    obtain rfl := UInt64.toNat_inj.mp hframe
    exact ⟨later, earlier, h, rfl, hindex, fun currentFrame released hmem =>
      hlater currentFrame.toNat released (List.mem_map.mpr ⟨_, hmem, rfl⟩)⟩

theorem recordRelease_log (log released : List Nat) :
    released.foldl recordRelease log = log ++ released := by
  induction released generalizing log with
  | nil => exact (List.append_nil log).symm
  | cons i released ih => rw [List.foldl_cons, ih, recordRelease, List.append_assoc]; rfl

theorem renderHandle_step (inv : t.Inv free) (hstep : renderHandleSystem.next t event u) :
    ∃ free', u.Inv free' ∧
      DeferredSlots.Step (t.deferred free) event.deferredEvent (u.deferred free') := by
  match event with
  | .allocated h =>
    have halloc : renderHandleAlloc t = (h, u) := hstep
    rcases inv.alloc with ⟨-, hnone⟩ | ⟨i, rest, v, rfl, hsome, hv, hdeferred⟩
    · obtain ⟨rfl, rfl⟩ := Prod.mk.inj (hnone.symm.trans halloc)
      exact ⟨free, inv, .idle⟩
    · obtain ⟨rfl, rfl⟩ := Prod.mk.inj (hsome.symm.trans halloc)
      have hi : i < t.capacity.toNat := (inv.mem_free.mp List.mem_cons_self).1
      have hindex := Nat.lt_of_lt_of_le hi inv.capacity_le
      obtain ⟨hpos, hlt⟩ := inv.generation i hi
      refine ⟨rest, hv, ?_⟩
      rw [deferredEvent_allocated (handleMake_ne_null hindex hpos hlt), handleIndex_make hindex hlt,
        handleGen_make hindex hlt, hdeferred, ← deferred_generation (i :: rest) hi]
      exact .issue rfl
  | .retired h retireFrame accepted =>
    have hretire : renderHandleRetire t h retireFrame = (accepted, u) := hstep
    rcases inv.retire h retireFrame with ⟨-, hrejected⟩ | ⟨hvalid, v, haccepted, hv, hdeferred⟩
    · obtain ⟨rfl, rfl⟩ := Prod.mk.inj (hrejected.symm.trans hretire)
      exact ⟨free, inv, .idle⟩
    · obtain ⟨rfl, rfl⟩ := Prod.mk.inj (haccepted.symm.trans hretire)
      obtain ⟨-, hi, halive, -, hgen⟩ := (valid_iff t h).mp hvalid
      refine ⟨free, hv, ?_⟩
      rw [deferredEvent, hdeferred, ← hgen, ← deferred_generation free hi]
      refine .retire ?_
      rw [deferred_phase hi]
      exact if_pos halive
  | .collected currentFrame released =>
    have hcollect : renderHandleCollect (some recordRelease) t currentFrame [] =
      some (u, released) := hstep
    have hdone := (inv.collect (some recordRelease) currentFrame []).returns hcollect
    have hreleased : released = t.dueSlots currentFrame t.capacity.toNat :=
      hdone.user.trans (recordRelease_log [] _)
    refine ⟨_, hdone.inv, ?_⟩
    rw [hdone.deferred, hreleased, inv.dueSlots_eq]
    exact .collect

theorem renderHandle_trace (htrace : renderHandleSystem.Trace past t) :
    ∃ free, t.Inv free ∧
      DeferredSlots.system.Trace (past.map deferredEvent) (t.deferred free) := by
  induction htrace with
  | start hinit =>
    obtain ⟨arena, pushed, capacity, hinit⟩ := hinit
    obtain ⟨inv, hfresh⟩ := renderHandleTableInit_inv hinit
    exact ⟨_, inv, .start ⟨_, hfresh⟩⟩
  | step _ hstep ih =>
    obtain ⟨free, inv, hdeferred⟩ := ih
    obtain ⟨free', inv', hnext⟩ := renderHandle_step inv hstep
    exact ⟨free', inv', .step hdeferred hnext⟩

theorem RenderHandleTable.Inv.liveCount_eq (inv : t.Inv free) :
    t.liveCount.toNat = (List.range t.capacity.toNat).countP fun i => (t.slots i).alive := by
  refine inv.live.trans (List.countP_congr fun i hi => ?_)
  rw [deferred_phase (List.mem_range.mp hi), RenderHandleSlot.phase]
  cases (t.slots i).alive <;> cases (t.slots i).retiring <;> simp [SlotPhase.isAlive]

theorem RenderHandleTable.Inv.alloc_null (inv : t.Inv free) :
    (renderHandleAlloc t).1 = handleNull ↔
      ∀ i < t.capacity.toNat, (t.slots i).alive = true ∨ (t.slots i).retiring = true := by
  rcases inv.alloc with ⟨rfl, hnone⟩ | ⟨i, rest, v, rfl, hsome, -, -⟩
  · rw [hnone]
    refine iff_of_true rfl fun i hi => ?_
    by_contra hfree
    rw [not_or, Bool.not_eq_true, Bool.not_eq_true] at hfree
    exact List.not_mem_nil (inv.mem_free.mpr ⟨hi, hfree⟩)
  · obtain ⟨hi, halive, hretiring⟩ := inv.mem_free.mp (List.mem_cons_self (a := i) (l := rest))
    obtain ⟨hpos, hlt⟩ := inv.generation i hi
    rw [hsome]
    refine iff_of_false
      (handleMake_ne_null (Nat.lt_of_lt_of_le hi inv.capacity_le) hpos hlt) fun hall => ?_
    rcases hall i hi with h | h
    · exact Bool.false_ne_true (halive.symm.trans h)
    · exact Bool.false_ne_true (hretiring.symm.trans h)

theorem valid_iff_outstanding (inv : t.Inv free)
    (htrace : DeferredSlots.system.Trace (past.map deferredEvent) (t.deferred free)) :
    renderHandleValid t h = true ↔ HandleOutstanding past h := by
  by_cases hne : h = handleNull
  · subst hne
    exact iff_of_false (by rw [valid_iff]; exact fun h => h.1 rfl) fun h => h.1 rfl
  rw [outstanding_iff hne, ← DeferredSlots.alive_iff htrace, deferred_alive, valid_iff, and_assoc]
  constructor
  · rintro ⟨-, hi, halive, -, hgen⟩
    exact ⟨hi, halive, (deferred_generation free hi).trans hgen⟩
  · rintro ⟨hi, halive, hgen⟩
    exact ⟨hne, hi, halive, inv.exclusive _ hi halive, (deferred_generation free hi).symm.trans hgen⟩

theorem collect_callback {User : Type} (release : Option (User → Nat → User))
    (t : RenderHandleTable) (currentFrame : UInt64) (user : User) :
    renderHandleCollect release t currentFrame user =
      (renderHandleCollect (some recordRelease) t currentFrame []).map fun r =>
        (r.1, release.elim user fun release => r.2.foldl release user) := by
  rw [renderHandleCollect, renderHandleCollect]
  induction t.capacity.toNat with
  | zero => cases release <;> rfl
  | succ n ih =>
    rw [Loop.forRangeM_succ, Loop.forRangeM_succ, ih, Option.map_bind, Option.bind_map]
    refine congrArg (Option.bind _) (funext fun r => ?_)
    obtain ⟨v, log⟩ := r
    simp only [Function.comp_apply]
    split
    · rw [releaseSlot, releaseSlot]
      dsimp only
      split
      · rfl
      · cases release with
        | none => rfl
        | some release => simp [recordRelease]
    · rfl

theorem countP_releases (past : List RenderHandleEvent) (i : Nat) :
    (past.map deferredEvent).countP (DeferredEvent.releases i) = past.countP (releases i) := by
  rw [List.countP_map]
  refine List.countP_congr fun event _ => ?_
  match event with
  | .allocated h =>
    rw [Function.comp_apply, deferredEvent]
    split <;> rfl
  | .retired _ _ true => rfl
  | .retired _ _ false => rfl
  | .collected _ _ => rfl

theorem countP_retires (past : List RenderHandleEvent) (i : Nat) :
    (past.map deferredEvent).countP (DeferredEvent.retires i) = past.countP (retires i) := by
  rw [List.countP_map]
  refine List.countP_congr fun event _ => ?_
  match event with
  | .allocated h =>
    rw [Function.comp_apply, deferredEvent]
    split <;> rfl
  | .retired _ _ true => rfl
  | .retired _ _ false => rfl
  | .collected _ _ => rfl

theorem alloc_deferred (htrace : renderHandleSystem.Trace past t)
    (halloc : renderHandleAlloc t = (h, u)) (hne : h ≠ handleNull) :
    .allocated h ∉ past ∧ ∀ later g retireFrame earlier,
      past = later ++ .retired g retireFrame true :: earlier → handleIndex g = handleIndex h →
        ∃ currentFrame released, .collected currentFrame released ∈ later ∧
          handleIndex h ∈ released ∧ retireFrame ≤ currentFrame := by
  obtain ⟨free, inv, hdeferred⟩ := renderHandle_trace htrace
  have hnext : renderHandleSystem.next t (.allocated h) u := halloc
  obtain ⟨free', inv', hstep⟩ := renderHandle_step inv hnext
  rw [deferredEvent_allocated hne] at hstep
  constructor
  · intro hmem
    refine DeferredSlots.issued_once (.step hdeferred hstep) (List.mem_map.mpr ⟨_, hmem, ?_⟩)
    exact deferredEvent_allocated hne
  · intro later g retireFrame earlier hpast hindex
    rw [hpast, List.map_append, List.map_cons, deferredEvent, hindex] at hdeferred
    have hphase := inv.slots.issued_free hstep
    rcases DeferredSlots.reuse_deferred hdeferred with hwaiting | ⟨now, released, hmem, hin, hle⟩
    · cases hphase.symm.trans hwaiting
    · obtain ⟨event, hevent, heq⟩ := List.mem_map.mp hmem
      obtain ⟨currentFrame, rfl, rfl⟩ := deferredEvent_collected heq
      exact ⟨currentFrame, released, hevent, hin, UInt64.le_iff_toNat_le.mpr hle⟩

theorem collect_released (htrace : renderHandleSystem.Trace past t) {currentFrame : UInt64}
    {released : List Nat}
    (hcollect : renderHandleCollect (some recordRelease) t currentFrame [] = some (u, released)) :
    released.Nodup ∧ (∀ i, i ∈ released ↔
      ∃ retireFrame, RetirePending past i retireFrame ∧ retireFrame ≤ currentFrame) ∧
    ∀ i ∈ released, (t.slots i).alive = false ∧ (t.slots i).retiring = true := by
  obtain ⟨free, inv, hdeferred⟩ := renderHandle_trace htrace
  have hdone := (inv.collect (some recordRelease) currentFrame []).returns hcollect
  have hreleased : released = (t.deferred free).due currentFrame.toNat := by
    rw [← inv.dueSlots_eq]
    exact hdone.user.trans (recordRelease_log [] _)
  have hmem : ∀ i, i ∈ released ↔ ∃ retireFrame : UInt64,
      (t.deferred free).phase i = .retiring retireFrame.toNat ∧ retireFrame ≤ currentFrame := by
    intro i
    rw [hreleased, DeferredSlots.mem_due inv.slots]
    constructor
    · rintro ⟨due, hphase, hle⟩
      have hi : i < t.capacity.toNat := inv.slots.retiring_inside ⟨due, hphase⟩
      obtain rfl := RenderHandleSlot.phase_retiring ((deferred_phase hi).symm.trans hphase)
      exact ⟨_, hphase, UInt64.le_iff_toNat_le.mpr hle⟩
    · rintro ⟨retireFrame, hphase, hle⟩
      exact ⟨_, hphase, UInt64.le_iff_toNat_le.mp hle⟩
  refine ⟨hreleased ▸ DeferredSlots.due_nodup _ _, fun i => ?_, fun i hi => ?_⟩
  · rw [hmem]
    refine exists_congr fun retireFrame => and_congr_left fun _ => ?_
    rw [pending_iff, DeferredSlots.pending_iff hdeferred]
  · obtain ⟨retireFrame, hphase, -⟩ := (hmem i).mp hi
    obtain ⟨hlt, hretiring, -⟩ := inv.retiring.mp hphase
    refine ⟨?_, hretiring⟩
    cases halive : (t.slots i).alive with
    | false => rfl
    | true => exact hretiring.symm.trans (inv.exclusive i hlt halive)

theorem release_count (htrace : renderHandleSystem.Trace past t) (hi : i < t.capacity.toNat) :
    past.countP (releases i) + (t.slots i).retiring.toNat = past.countP (retires i) := by
  obtain ⟨free, inv, hdeferred⟩ := renderHandle_trace htrace
  rw [← countP_releases, ← countP_retires, ← DeferredSlots.releases_eq hdeferred i,
    deferred_phase hi, RenderHandleSlot.phase]
  cases halive : (t.slots i).alive with
  | true => rw [inv.exclusive i hi halive]; rfl
  | false => cases (t.slots i).retiring <;> rfl

end

theorem renderHandleTable_defers_reuse {past : List RenderHandleEvent} {t : RenderHandleTable}
    (htrace : renderHandleSystem.Trace past t) :
    (∀ h, renderHandleValid t h = true ↔ HandleOutstanding past h) ∧
    (∀ h u, renderHandleAlloc t = (h, u) → h ≠ handleNull → .allocated h ∉ past ∧
      ∀ later g retireFrame earlier, past = later ++ .retired g retireFrame true :: earlier →
        handleIndex g = handleIndex h → ∃ currentFrame released,
          .collected currentFrame released ∈ later ∧ handleIndex h ∈ released ∧
            retireFrame ≤ currentFrame) ∧
    (∀ currentFrame released u,
      renderHandleCollect (some recordRelease) t currentFrame [] = some (u, released) →
        released.Nodup ∧ (∀ i, i ∈ released ↔
          ∃ retireFrame, RetirePending past i retireFrame ∧ retireFrame ≤ currentFrame) ∧
        ∀ i ∈ released, (t.slots i).alive = false ∧ (t.slots i).retiring = true) ∧
    (∀ (User : Type) (release : Option (User → Nat → User)) currentFrame user,
      renderHandleCollect release t currentFrame user =
        (renderHandleCollect (some recordRelease) t currentFrame []).map fun r =>
          (r.1, release.elim user fun release => r.2.foldl release user)) ∧
    (∀ i < t.capacity.toNat,
      past.countP (releases i) + (t.slots i).retiring.toNat = past.countP (retires i)) ∧
    (∃ free, Chain t.next freeNone.toNat t.freeHead.toNat free ∧ free.Nodup ∧
      ∀ i, i ∈ free ↔ i < t.capacity.toNat ∧ (t.slots i).alive = false ∧
        (t.slots i).retiring = false) ∧
    t.liveCount.toNat = ((List.range t.capacity.toNat).countP fun i => (t.slots i).alive) ∧
    ((renderHandleAlloc t).1 = handleNull ↔
      ∀ i < t.capacity.toNat, (t.slots i).alive = true ∨ (t.slots i).retiring = true) := by
  obtain ⟨free, inv, hdeferred⟩ := renderHandle_trace htrace
  exact ⟨fun h => valid_iff_outstanding inv hdeferred,
    fun h u halloc hne => alloc_deferred htrace halloc hne,
    fun currentFrame released u hcollect => collect_released htrace hcollect,
    fun User release currentFrame user => collect_callback release t currentFrame user,
    fun i hi => release_count htrace hi,
    ⟨free, inv.chain, inv.slots.nodup, fun i => inv.mem_free⟩, inv.liveCount_eq, inv.alloc_null⟩

def RenderHandleEvent.attempt (t : RenderHandleTable) :
    RenderHandleEvent → Option RenderHandleTable
  | allocated h => if (renderHandleAlloc t).1 = h then some (renderHandleAlloc t).2 else none
  | retired h retireFrame accepted =>
    if (renderHandleRetire t h retireFrame).1 = accepted then
      some (renderHandleRetire t h retireFrame).2
    else none
  | collected currentFrame released =>
    (renderHandleCollect (some recordRelease) t currentFrame []).bind fun r =>
      if r.2 = released then some r.1 else none

theorem RenderHandleEvent.attempt_next (t : RenderHandleTable) (event : RenderHandleEvent)
    (u : RenderHandleTable) (h : event.attempt t = some u) : renderHandleSystem.next t event u := by
  cases event with
  | allocated handle =>
    rw [attempt, Option.ite_none_right_eq_some] at h
    exact Prod.ext h.1 (Option.some.inj h.2)
  | retired handle retireFrame accepted =>
    rw [attempt, Option.ite_none_right_eq_some] at h
    exact Prod.ext h.1 (Option.some.inj h.2)
  | collected currentFrame released =>
    obtain ⟨⟨v, log⟩, hcollect, hr⟩ := Option.bind_eq_some_iff.mp h
    rw [Option.ite_none_right_eq_some] at hr
    obtain ⟨rfl, hv⟩ := hr
    exact Option.some.inj hv ▸ hcollect

def deferredRun : List RenderHandleEvent :=
  [.allocated (handleMake 0 1), .allocated (handleMake 1 1), .retired (handleMake 0 1) 5 true,
    .collected 4 [], .allocated handleNull, .retired (handleMake 0 1) 9 false, .collected 5 [0]]

theorem renderHandleTable_defers_reuse_collected : ∃ t u,
    renderHandleSystem.Trace deferredRun.reverse t ∧
    HandleOutstanding deferredRun.reverse (handleMake 1 1) ∧
    ¬ HandleOutstanding deferredRun.reverse (handleMake 0 1) ∧
    renderHandleAlloc t = (handleMake 0 2, u) ∧ .allocated (handleMake 0 2) ∉ deferredRun.reverse ∧
    ∃ currentFrame released, .collected currentFrame released ∈
        [RenderHandleEvent.collected 5 [0], .retired (handleMake 0 1) 9 false,
          .allocated handleNull, .collected 4 []] ∧
      handleIndex (handleMake 0 2) ∈ released ∧ 5 ≤ currentFrame := by
  have hstart : renderHandleTableInit ⟨4096, 0, 64, 64, 0, none, 0, by decide⟩ 2 = some
      (⟨4096, 48, 64, 64, 48, none, 0, by decide⟩, some
        (((RenderHandleTable.zeroed 4096 2).initSlot 0).initSlot 1)) := rfl
  have hrun : ((System.tryAll attempt (((RenderHandleTable.zeroed 4096 2).initSlot 0).initSlot 1)
      deferredRun).map fun t => ((renderHandleAlloc t).1, renderHandleValid t (handleMake 1 1),
        renderHandleValid t (handleMake 0 1))) = some (handleMake 0 2, true, false) := by
    decide +kernel
  obtain ⟨t, ht, hfacts⟩ := Option.map_eq_some_iff.mp hrun
  obtain ⟨hreused, hfacts⟩ := Prod.mk.inj hfacts
  obtain ⟨hkept, hgone⟩ := Prod.mk.inj hfacts
  have hinitial : renderHandleSystem.initial
      (((RenderHandleTable.zeroed 4096 2).initSlot 0).initSlot 1) := ⟨_, _, _, hstart⟩
  have htrace : renderHandleSystem.Trace deferredRun.reverse t :=
    (System.Trace.start hinitial).tryAll attempt_next ht
  obtain ⟨hvalid, halloc, -⟩ := renderHandleTable_defers_reuse htrace
  have hnext : renderHandleAlloc t = (handleMake 0 2, (renderHandleAlloc t).2) :=
    Prod.ext hreused rfl
  obtain ⟨hfresh, hdeferred⟩ := halloc _ _ hnext (by decide)
  refine ⟨t, _, htrace, (hvalid _).mp hkept, fun hout => ?_, hnext, hfresh,
    hdeferred _ (handleMake 0 1) 5 [.allocated (handleMake 1 1), .allocated (handleMake 0 1)] rfl
      (by decide)⟩
  exact Bool.false_ne_true (hgone.symm.trans ((hvalid _).mpr hout))

end ChoonzMoba
