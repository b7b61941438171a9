import ChoonzMoba.Core.HandlePoolSpec

namespace ChoonzMoba

inductive HandlePoolEvent where
  | allocated (value : List UInt8) (h : Handle)
  | freed (h : Handle) (accepted : Bool)
  | validated (h : Handle) (accepted : Bool)
  | got (h : Handle) (slot : Option Nat)

def handlePoolSystem : System HandlePool HandlePoolEvent where
  initial p := ∃ (σ : Type) (al : Allocator σ) (state state' : σ) (layout : SlotLayout)
    (cap : UInt32) (memory : (Nat → List UInt8) × (Nat → UInt32)),
    handlepoolInit al state layout cap memory = some (p, state')
  next p event q :=
    match event with
    | .allocated value h => handlepoolAlloc p value = (h, q)
    | .freed h accepted => handlepoolFree p h = (accepted, q)
    | .validated h accepted => handlepoolValid p h = accepted ∧ q = p
    | .got h slot => handlepoolGet p h = slot ∧ q = p

namespace HandlePoolEvent

def use : HandlePoolEvent → Option (Handle × Bool)
  | allocated _ _ => none
  | freed h accepted => some (h, accepted)
  | validated h accepted => some (h, accepted)
  | got h slot => some (h, slot.isSome)

def frees (i : Nat) : HandlePoolEvent → Bool
  | freed h accepted => accepted && decide (handleIndex h = i)
  | allocated _ _ => false
  | validated _ _ => false
  | got _ _ => false

-- the latest first: a free retires the slot and releases it at once
def deferredEvents : HandlePoolEvent → List (DeferredEvent Nat)
  | allocated _ h => if h = handleNull then [] else [.issued (handleIndex h) (handleGen h)]
  | freed h true =>
    [.collected 0 [handleIndex h], .retired (handleIndex h) (handleGen h) 0]
  | freed _ false => []
  | validated _ _ => []
  | got _ _ => []

end HandlePoolEvent

open HandlePoolEvent HandlePool

namespace HandlePool

def Outstanding (past : List HandlePoolEvent) (h : Handle) : Prop :=
  h ≠ handleNull ∧ ∃ later earlier value, past = later ++ .allocated value h :: earlier ∧
    .freed h true ∉ later

/-- The handle of the next generation of a slot that was freed and not allocated since. -/
def Pending (past : List HandlePoolEvent) (h : Handle) : Prop :=
  ∃ later earlier f, past = later ++ .freed f true :: earlier ∧ handleIndex f = handleIndex h ∧
    handleGen f + 1 = handleGen h ∧
    ∀ value a, .allocated value a ∈ later → a ≠ handleNull → handleIndex a ≠ handleIndex h

def AcceptsOutstanding : List HandlePoolEvent → Prop
  | [] => True
  | event :: past =>
    (∀ h accepted, event.use = some (h, accepted) → (accepted = true ↔ Outstanding past h)) ∧
      AcceptsOutstanding past

def Guarded : List HandlePoolEvent → Prop
  | [] => True
  | event :: past =>
    (∀ h accepted, event.use = some (h, accepted) → ¬ Pending past h) ∧ Guarded past

variable {past : List HandlePoolEvent} {event : HandlePoolEvent} {p q : HandlePool}
  {free : List Nat} {h : Handle} {i : Nat}

theorem not_outstanding_nil : ¬ Outstanding [] h := by
  rintro ⟨-, later, earlier, value, hsplit, -⟩
  cases later <;> cases hsplit

theorem not_pending_nil : ¬ Pending [] h := by
  rintro ⟨later, earlier, f, hsplit, -⟩
  cases later <;> cases hsplit

theorem outstanding_cons : Outstanding (event :: past) h ↔
    h ≠ handleNull ∧ (∃ value, event = .allocated value h) ∨
      event ≠ .freed h true ∧ Outstanding past h := by
  constructor
  · rintro ⟨hne, later, earlier, value, hsplit, hlater⟩
    cases later with
    | nil => exact Or.inl ⟨hne, value, (List.cons.inj hsplit).1⟩
    | cons first later =>
      obtain ⟨rfl, hpast⟩ := List.cons.inj hsplit
      rw [List.mem_cons, not_or] at hlater
      exact Or.inr ⟨Ne.symm hlater.1, hne, later, earlier, value, hpast, hlater.2⟩
  · rintro (⟨hne, value, rfl⟩ | ⟨hevent, hne, later, earlier, value, rfl, hlater⟩)
    · exact ⟨hne, [], past, value, rfl, List.not_mem_nil⟩
    · refine ⟨hne, event :: later, earlier, value, rfl, fun hmem => ?_⟩
      rcases List.mem_cons.mp hmem with heq | hmem
      · exact hevent heq.symm
      · exact hlater hmem

theorem pending_cons : Pending (event :: past) h ↔
    (∃ f, event = .freed f true ∧ handleIndex f = handleIndex h ∧ handleGen f + 1 = handleGen h) ∨
      (∀ value a, event = .allocated value a → a ≠ handleNull → handleIndex a ≠ handleIndex h) ∧
        Pending past h := by
  constructor
  · rintro ⟨later, earlier, f, hsplit, hindex, hgen, hlater⟩
    cases later with
    | nil => exact Or.inl ⟨f, (List.cons.inj hsplit).1, hindex, hgen⟩
    | cons first later =>
      obtain ⟨rfl, hpast⟩ := List.cons.inj hsplit
      refine Or.inr ⟨fun value a heq => hlater value a (heq ▸ List.mem_cons_self),
        later, earlier, f, hpast, hindex, hgen, fun value a hmem =>
          hlater value a (List.mem_cons_of_mem _ hmem)⟩
  · rintro (⟨f, rfl, hindex, hgen⟩ | ⟨hevent, later, earlier, f, rfl, hindex, hgen, hlater⟩)
    · exact ⟨[], past, f, rfl, hindex, hgen, nofun⟩
    · refine ⟨event :: later, earlier, f, rfl, hindex, hgen, fun value a hmem => ?_⟩
      rcases List.mem_cons.mp hmem with heq | hmem
      · exact hevent value a heq.symm
      · exact hlater value a hmem

theorem pending_allocated {value : List UInt8} {a : Handle} : Pending (.allocated value a :: past) h ↔
    (a ≠ handleNull → handleIndex a ≠ handleIndex h) ∧ Pending past h := by
  rw [pending_cons, or_iff_right fun ⟨_, heq, _⟩ => nomatch heq]
  refine and_congr_left fun _ => ⟨fun hevent => hevent value a rfl, fun hne _ _ heq => ?_⟩
  cases heq
  exact hne

theorem pending_freed {f : Handle} {accepted : Bool} : Pending (.freed f accepted :: past) h ↔
    (accepted = true ∧ handleIndex f = handleIndex h ∧ handleGen f + 1 = handleGen h) ∨
      Pending past h := by
  rw [pending_cons, and_iff_right fun _ _ heq => nomatch heq]
  refine or_congr_left ⟨?_, fun ⟨haccepted, hindex, hgen⟩ => ⟨f, haccepted ▸ rfl, hindex, hgen⟩⟩
  rintro ⟨g, heq, hindex, hgen⟩
  cases heq
  exact ⟨rfl, hindex, hgen⟩

theorem pending_looked (halloc : ∀ value a, event ≠ .allocated value a)
    (hfree : ∀ f, event ≠ .freed f true) : Pending (event :: past) h ↔ Pending past h := by
  rw [pending_cons, or_iff_right fun ⟨f, heq, _⟩ => hfree f heq,
    and_iff_right fun value a heq => absurd heq (halloc value a)]

instance decidablePending : (past : List HandlePoolEvent) → (h : Handle) → Decidable (Pending past h)
  | [], _ => .isFalse not_pending_nil
  | event :: past, h =>
    have := decidablePending past h
    match event with
    | .allocated _ _ => decidable_of_iff' _ pending_allocated
    | .freed _ _ => decidable_of_iff' _ pending_freed
    | .validated _ _ | .got _ _ => decidable_of_iff' _ (pending_looked nofun nofun)

instance decidableGuarded : (past : List HandlePoolEvent) → Decidable (Guarded past)
  | [] => .isTrue trivial
  | event :: past =>
    have := decidableGuarded past
    have : Decidable (∀ h accepted, event.use = some (h, accepted) → ¬ Pending past h) :=
      match event.use with
      | none => .isTrue nofun
      | some (h, _) => decidable_of_iff (¬ Pending past h)
          ⟨fun hnot _ _ heq => (Prod.mk.inj (Option.some.inj heq)).1 ▸ hnot, fun hnot => hnot _ _ rfl⟩
    inferInstanceAs (Decidable (_ ∧ _))

theorem free_accepted (p : HandlePool) (h : Handle) :
    (handlepoolFree p h).1 = handlepoolValid p h := by
  rw [handlepoolFree]
  cases handlepoolValid p h <;> rfl

theorem use_accepted {accepted : Bool} (hnext : handlePoolSystem.next p event q)
    (huse : event.use = some (h, accepted)) : accepted = handlepoolValid p h := by
  cases event with
  | allocated value a => cases huse
  | freed f accepted' =>
    cases huse
    rw [← free_accepted]
    exact (congrArg Prod.fst hnext).symm
  | validated f accepted' =>
    cases huse
    exact hnext.1.symm
  | got f slot =>
    cases huse
    rw [← show handlepoolGet p h = slot from hnext.1, handlepoolGet_eq]
    cases handlepoolValid p h <;> rfl

theorem countP_releases (past : List HandlePoolEvent) (i : Nat) :
    (past.flatMap deferredEvents).countP (DeferredEvent.releases i) = past.countP (frees i) := by
  induction past with
  | nil => rfl
  | cons event past ih =>
    rw [List.flatMap_cons, List.countP_append, List.countP_cons, ih, Nat.add_comm]
    match event with
    | .allocated value a =>
      rw [deferredEvents]
      split <;> rfl
    | .freed f true =>
      simp [deferredEvents, List.countP_cons, DeferredEvent.releases, frees, eq_comm]
    | .freed f false => rfl
    | .validated f accepted => rfl
    | .got f slot => rfl

theorem index_gen_iff {a : Handle} :
    handleIndex a = handleIndex h ∧ handleGen a = handleGen h ↔ a = h :=
  ⟨fun heq => handle_ext heq.1 heq.2, fun heq => heq ▸ ⟨rfl, rfl⟩⟩

theorem outstanding_iff (hne : h ≠ handleNull) : Outstanding past h ↔
    DeferredSlots.Outstanding (past.flatMap deferredEvents) (handleIndex h) (handleGen h) := by
  induction past with
  | nil =>
    refine iff_of_false not_outstanding_nil fun ⟨later, _, hsplit, _⟩ => ?_
    cases later <;> cases hsplit
  | cons event past ih =>
    rw [outstanding_cons, ih, List.flatMap_cons]
    match event with
    | .allocated value a =>
      rw [deferredEvents]
      by_cases ha : a = handleNull
      · rw [if_pos ha]
        subst ha
        simp [Ne.symm hne]
      · rw [if_neg ha, List.singleton_append, DeferredSlots.outstanding_cons]
        simp [hne, index_gen_iff]
    | .freed f true =>
      rw [deferredEvents, List.cons_append, List.singleton_append, DeferredSlots.outstanding_cons,
        DeferredSlots.outstanding_cons]
      simp [← index_gen_iff]
    | .freed f false => simp [deferredEvents]
    | .validated f accepted => simp [deferredEvents]
    | .got f slot => simp [deferredEvents]

structure Tracks (past : List HandlePoolEvent) (p : HandlePool) (free : List Nat) : Prop where
  inv : p.Inv free
  trace : DeferredSlots.system.Trace (past.flatMap deferredEvents) (p.deferred free)
  pending : ∀ h, Pending past h ↔ handleIndex h ∈ free ∧
    (p.gen (handleIndex h)).toNat = handleGen h ∧ handleGen h ≠ 0

theorem Tracks.start (hinit : handlePoolSystem.initial p) :
    Tracks [] p (List.range p.cap.toNat) := by
  obtain ⟨σ, al, state, state', layout, cap, memory, hinit⟩ := hinit
  obtain ⟨⟨inv, hfresh⟩, hgen⟩ := handlepoolInit_inv hinit
  refine ⟨inv, .start ⟨_, hfresh⟩, fun h => ?_⟩
  refine iff_of_false not_pending_nil fun ⟨hmem, hsame, hpos⟩ => ?_
  rw [hgen _ (List.mem_range.mp hmem)] at hsame
  exact hpos hsame.symm

theorem Tracks.unchanged (htracks : Tracks past p free) (hdeferred : event.deferredEvents = [])
    (hpending : ∀ h, Pending (event :: past) h ↔ Pending past h) : Tracks (event :: past) p free where
  inv := htracks.inv
  trace := by
    rw [List.flatMap_cons, hdeferred]
    exact htracks.trace
  pending h := (hpending h).trans (htracks.pending h)

theorem Tracks.allocated (htracks : Tracks past p free) {value : List UInt8}
    (halloc : handlepoolAlloc p value = (h, q)) :
    ∃ free', Tracks (.allocated value h :: past) q free' := by
  obtain ⟨inv, htrace, hpending⟩ := htracks
  rcases inv.alloc value with ⟨-, hnone⟩ | ⟨i, rest, r, rfl, hsome, hr, hdeferred, -, hother, -⟩
  · obtain ⟨rfl, rfl⟩ := Prod.mk.inj (hnone.symm.trans halloc)
    refine ⟨free, Tracks.unchanged ⟨inv, htrace, hpending⟩ (by simp [deferredEvents]) fun g => ?_⟩
    rw [pending_cons]
    simp
  · obtain ⟨rfl, rfl⟩ := Prod.mk.inj (hsome.symm.trans halloc)
    have hi := inv.free_lt (List.mem_cons_self (a := i) (l := rest))
    have hgen := inv.gen i hi
    have hindex := Nat.lt_of_lt_of_le hi inv.cap_le
    have hmax : max 1 (p.gen i).toNat < 2 ^ 14 := by omega
    have hmake := handleIndex_make hindex hmax
    have hne := handleMake_ne_null hindex (by omega) hmax
    have hfresh := (List.nodup_cons.mp inv.slots.nodup).1
    refine ⟨rest, hr, ?_, fun g => ?_⟩
    · rw [List.flatMap_cons, deferredEvents, if_neg hne, hmake, handleGen_make hindex hmax,
        hdeferred, ← deferred_generation (i :: rest) hi]
      exact .step htrace (.issue rfl)
    · rw [pending_cons, hpending]
      by_cases hg : handleIndex g = i
      · subst hg
        refine iff_of_false ?_ fun hin => hfresh hin.1
        rintro (⟨f, hf, -⟩ | ⟨hnever, -⟩)
        · cases hf
        · exact hnever _ _ rfl hne hmake
      · rw [hother _ hg]
        simp [hmake, hg, Ne.symm hg]

theorem Tracks.generation (htracks : Tracks past p free) (hvalid : handlepoolValid p h = true) :
    handleGen h = past.countP (frees (handleIndex h)) + 1 := by
  obtain ⟨hpos, hi, hgen⟩ := (handlepoolValid_iff p h).mp hvalid
  rw [← countP_releases, ← DeferredSlots.generation_eq htracks.trace, deferred_generation free hi,
    hgen]
  omega

theorem Tracks.freed (htracks : Tracks past p free) (hvalid : handlepoolValid p h = true)
    (hguard : ¬ Pending past h) (hbound : past.countP (frees (handleIndex h)) + 1 < 16383) :
    ∃ q, handlepoolFree p h = (true, q) ∧
      Tracks (.freed h true :: past) q (handleIndex h :: free) := by
  have hgeneration := htracks.generation hvalid
  obtain ⟨inv, htrace, hpending⟩ := htracks
  obtain ⟨hpos, hi, hgen⟩ := (handlepoolValid_iff p h).mp hvalid
  have hlive : handleIndex h ∉ free := fun hmem => hguard ((hpending h).mpr ⟨hmem, hgen, hpos⟩)
  have hlast : handleGen h + 1 < 2 ^ 14 := by
    rw [hgeneration]
    omega
  obtain ⟨q, hfree, hq, hdeferred, -, hother, hself⟩ := inv.freed hvalid hlive hlast
  have hphase : (p.deferred free).phase (handleIndex h) = .alive :=
    deferred_alive.mpr ⟨hi, hlive⟩
  have hidle : ∀ j due, (p.deferred free).phase j ≠ .retiring due := by
    intro j due
    simp only [deferred]
    split <;> simp
  have hdue : ((p.deferred free).retire (handleIndex h) 0).due 0 = [handleIndex h] :=
    DeferredSlots.retire_due_only (fun j due hretiring => absurd hretiring (hidle j due)) hi
      (Nat.le_refl 0)
  have hsame : (p.deferred free).generation (handleIndex h) = handleGen h := by
    rw [deferred_generation free hi, hgen]
    omega
  have hretire : DeferredSlots.Step (p.deferred free) (.retired (handleIndex h) (handleGen h) 0)
      ((p.deferred free).retire (handleIndex h) 0) := by
    rw [← hsame]
    exact .retire hphase
  have hcollect : DeferredSlots.Step ((p.deferred free).retire (handleIndex h) 0)
      (.collected 0 [handleIndex h])
      (((p.deferred free).retire (handleIndex h) 0).release [handleIndex h]) := by
    rw [← hdue]
    exact .collect
  refine ⟨q, hfree, hq, ?_, fun g => ?_⟩
  · rw [List.flatMap_cons, deferredEvents, hdeferred, List.cons_append, List.singleton_append]
    exact .step (.step htrace hretire) hcollect
  · rw [pending_cons, hpending]
    by_cases hg : handleIndex g = handleIndex h
    · rw [hg, hself]
      constructor
      · rintro (⟨f, hf, -, hnext⟩ | ⟨-, hmem, -⟩)
        · cases hf
          exact ⟨List.mem_cons_self, hnext, by omega⟩
        · exact absurd hmem hlive
      · rintro ⟨-, hnext, -⟩
        exact Or.inl ⟨h, rfl, rfl, hnext⟩
    · rw [hother _ hg]
      simp [hg, Ne.symm hg]

theorem Tracks.step (htracks : Tracks past p free) (hnext : handlePoolSystem.next p event q)
    (hguard : ∀ h accepted, event.use = some (h, accepted) → ¬ Pending past h)
    (hbound : ∀ i, (event :: past).countP (frees i) < 16383) :
    ∃ free', Tracks (event :: past) q free' := by
  match event with
  | .allocated value h =>
    have halloc : handlepoolAlloc p value = (h, q) := hnext
    exact htracks.allocated halloc
  | .freed h accepted =>
    have hfree : handlepoolFree p h = (accepted, q) := hnext
    cases hvalid : handlepoolValid p h with
    | false =>
      obtain ⟨rfl, rfl⟩ := Prod.mk.inj ((handlepoolFree_invalid hvalid).symm.trans hfree)
      exact ⟨free, htracks.unchanged rfl fun g => by rw [pending_cons]; simp⟩
    | true =>
      have haccepted : accepted = true := by
        rw [← hvalid, ← free_accepted, hfree]
      subst haccepted
      have hlimit := hbound (handleIndex h)
      rw [List.countP_cons_of_pos (by simp [frees])] at hlimit
      obtain ⟨r, hfreed, hr⟩ := htracks.freed hvalid (hguard h true rfl) hlimit
      obtain ⟨-, rfl⟩ := Prod.mk.inj (hfreed.symm.trans hfree)
      exact ⟨_, hr⟩
  | .validated h accepted =>
    obtain rfl : q = p := hnext.2
    exact ⟨free, htracks.unchanged rfl fun g => by rw [pending_cons]; simp⟩
  | .got h slot =>
    obtain rfl : q = p := hnext.2
    exact ⟨free, htracks.unchanged rfl fun g => by rw [pending_cons]; simp⟩

theorem tracks_of_guarded (htrace : handlePoolSystem.Trace past p)
    (hbound : ∀ i, past.countP (frees i) < 16383) (hguarded : Guarded past) :
    ∃ free, Tracks past p free := by
  induction htrace with
  | start hinit => exact ⟨_, Tracks.start hinit⟩
  | @step past p q event _ hnext ih =>
    have hearlier : ∀ i, past.countP (frees i) < 16383 := fun i =>
      Nat.lt_of_le_of_lt (by rw [List.countP_cons]; exact Nat.le_add_right _ _) (hbound i)
    obtain ⟨free, htracks⟩ := ih hearlier hguarded.2
    exact htracks.step hnext hguarded.1 hbound

theorem Tracks.outstanding_iff (htracks : Tracks past p free) (hvalid : handlepoolValid p h = true) :
    Outstanding past h ↔ handleIndex h ∉ free := by
  obtain ⟨hpos, hi, hgen⟩ := (handlepoolValid_iff p h).mp hvalid
  have hne : h ≠ handleNull := fun hnull => hpos (hnull ▸ handleGen_null)
  rw [HandlePool.outstanding_iff hne, ← DeferredSlots.alive_iff htracks.trace, deferred_alive,
    deferred_generation free hi, hgen]
  exact ⟨fun h => h.1.2, fun hlive => ⟨⟨hi, hlive⟩, by omega⟩⟩

theorem Tracks.valid_of_outstanding (htracks : Tracks past p free) (h' : Outstanding past h) :
    handlepoolValid p h = true := by
  have halive := (DeferredSlots.alive_iff htracks.trace).mpr
    ((HandlePool.outstanding_iff h'.1).mp h')
  obtain ⟨⟨hi, hlive⟩, hgen⟩ := And.imp_left deferred_alive.mp halive
  rw [deferred_generation free hi] at hgen
  have hpos : (p.gen (handleIndex h)).toNat ≠ 0 :=
    fun hzero => htracks.inv.issued _ hi hlive (UInt32.toNat_inj.mp hzero)
  rw [handlepoolValid_iff]
  omega

theorem Tracks.valid_iff (htracks : Tracks past p free) (h : Handle) :
    (handlepoolValid p h = true ↔ Outstanding past h) ↔ ¬ Pending past h := by
  cases hvalid : handlepoolValid p h with
  | false =>
    refine iff_of_true (iff_of_false Bool.false_ne_true fun hout => ?_) fun hpending => ?_
    · exact Bool.false_ne_true (hvalid.symm.trans (htracks.valid_of_outstanding hout))
    · obtain ⟨hmem, hgen, hpos⟩ := (htracks.pending h).mp hpending
      refine Bool.false_ne_true (hvalid.symm.trans ((handlepoolValid_iff p h).mpr ?_))
      exact ⟨hpos, htracks.inv.free_lt hmem, hgen⟩
  | true =>
    obtain ⟨hpos, hi, hgen⟩ := (handlepoolValid_iff p h).mp hvalid
    rw [htracks.outstanding_iff hvalid, htracks.pending]
    simp [hgen, hpos]

theorem Tracks.issuedHandle (htracks : Tracks past p free) (hi : i < p.cap.toNat) (hlive : i ∉ free) :
    handleIndex (handleMake i (p.gen i).toNat) = i ∧
      handleGen (handleMake i (p.gen i).toNat) = (p.gen i).toNat ∧
      Outstanding past (handleMake i (p.gen i).toNat) := by
  have hindex := handleIndex_make (Nat.lt_of_lt_of_le hi htracks.inv.cap_le) (htracks.inv.gen i hi)
  have hgen := handleGen_make (Nat.lt_of_lt_of_le hi htracks.inv.cap_le) (htracks.inv.gen i hi)
  have hvalid : handlepoolValid p (handleMake i (p.gen i).toNat) = true := by
    rw [handlepoolValid_iff, hindex, hgen]
    exact ⟨fun hzero => htracks.inv.issued i hi hlive (UInt32.toNat_inj.mp hzero), hi, rfl⟩
  exact ⟨hindex, hgen, (htracks.outstanding_iff hvalid).mpr (by rwa [hindex])⟩

theorem Tracks.outstanding_slot (htracks : Tracks past p free) (hout : Outstanding past h) :
    handleIndex h < p.cap.toNat ∧ handleIndex h ∉ free ∧
      h = handleMake (handleIndex h) (p.gen (handleIndex h)).toNat := by
  have hvalid := htracks.valid_of_outstanding hout
  obtain ⟨-, hi, hgen⟩ := (handlepoolValid_iff p h).mp hvalid
  refine ⟨hi, (htracks.outstanding_iff hvalid).mp hout, ?_⟩
  rw [hgen, handleMake_index_gen]

structure Consistent (past : List HandlePoolEvent) (p : HandlePool) : Prop where
  valid : ∀ h, (handlepoolValid p h = true ↔ Outstanding past h) ↔ ¬ Pending past h
  free : ∃ free, Chain p.next poolInvalid.toNat p.freeHead.toNat free ∧ free.Nodup ∧
    (∀ i, i ∈ free ↔ i < p.cap.toNat ∧ ∀ h, Outstanding past h → handleIndex h ≠ i) ∧
    ∀ h i, ¬ Pending past h → handlepoolGet p h = some i → i ∉ free
  distinct : ∀ g h, Outstanding past g → Outstanding past h → handleIndex g = handleIndex h → g = h
  count : ∃ outstanding : List Handle, outstanding.Nodup ∧
    (∀ h, h ∈ outstanding ↔ Outstanding past h) ∧ outstanding.length = p.count.toNat

theorem Tracks.consistent (htracks : Tracks past p free) : Consistent past p where
  valid := htracks.valid_iff
  free := by
    refine ⟨free, htracks.inv.chain, htracks.inv.slots.nodup, fun i => ⟨fun hmem => ?_, ?_⟩, ?_⟩
    · refine ⟨htracks.inv.free_lt hmem, fun h hout heq => ?_⟩
      exact (htracks.outstanding_slot hout).2.1 (heq ▸ hmem)
    · rintro ⟨hi, hnone⟩
      by_contra hlive
      obtain ⟨hindex, -, hout⟩ := htracks.issuedHandle hi hlive
      exact hnone _ hout hindex
    · intro h i hguard hget
      rw [handlepoolGet_eq] at hget
      split at hget
      · next hvalid =>
        cases hget
        exact (htracks.outstanding_iff hvalid).mp (((htracks.valid_iff h).mpr hguard).mp hvalid)
      · cases hget
  distinct g h hg hh hindex := by
    rw [(htracks.outstanding_slot hg).2.2, (htracks.outstanding_slot hh).2.2, hindex]
  count := by
    have hlist : ∀ i, i ∈ (List.range p.cap.toNat).filter (fun i =>
        ((p.deferred free).phase i).isAlive) ↔ i < p.cap.toNat ∧ i ∉ free := by
      intro i
      rw [List.mem_filter, List.mem_range, deferred]
      by_cases hi : i < p.cap.toNat <;> by_cases hmem : i ∈ free <;>
        simp [hi, hmem, SlotPhase.isAlive]
    refine ⟨((List.range p.cap.toNat).filter fun i => ((p.deferred free).phase i).isAlive).map
      fun i => handleMake i (p.gen i).toNat, ?_, fun h => ?_, ?_⟩
    · refine List.Nodup.map_on (fun i hi j hj heq => ?_) (List.nodup_range.filter _)
      obtain ⟨hi, hilive⟩ := (hlist i).mp hi
      obtain ⟨hj, hjlive⟩ := (hlist j).mp hj
      rw [← (htracks.issuedHandle hi hilive).1, heq, (htracks.issuedHandle hj hjlive).1]
    · rw [List.mem_map]
      constructor
      · rintro ⟨i, hi, rfl⟩
        obtain ⟨hi, hlive⟩ := (hlist i).mp hi
        exact (htracks.issuedHandle hi hlive).2.2
      · intro hout
        obtain ⟨hi, hlive, heq⟩ := htracks.outstanding_slot hout
        exact ⟨handleIndex h, (hlist _).mpr ⟨hi, hlive⟩, heq.symm⟩
    · rw [List.length_map, ← List.countP_eq_length_filter, htracks.inv.count]
      rfl

theorem accepts_iff_guarded
    (htrace : handlePoolSystem.Trace past p) (hbound : ∀ i, past.countP (frees i) < 16383) :
    AcceptsOutstanding past ↔ Guarded past := by
  induction htrace with
  | start _ => exact Iff.rfl
  | @step past p q event hpast hnext ih =>
    have hearlier : ∀ i, past.countP (frees i) < 16383 := fun i =>
      Nat.lt_of_le_of_lt (by rw [List.countP_cons]; exact Nat.le_add_right _ _) (hbound i)
    rw [AcceptsOutstanding, Guarded, ih hearlier]
    refine and_congr_left fun hguarded => ?_
    obtain ⟨free, htracks⟩ := tracks_of_guarded hpast hearlier hguarded
    refine forall_congr' fun h => forall_congr' fun accepted => imp_congr_right fun huse => ?_
    rw [use_accepted hnext huse, htracks.valid_iff h]

end HandlePool

theorem handlePool_accepts_iff {past : List HandlePoolEvent} {p : HandlePool}
    (htrace : handlePoolSystem.Trace past p) (hbound : ∀ i, past.countP (frees i) < 16383) :
    AcceptsOutstanding past ∧ Consistent past p ↔ Guarded past := by
  rw [accepts_iff_guarded htrace hbound]
  refine and_iff_left_of_imp fun hguarded => ?_
  obtain ⟨free, htracks⟩ := tracks_of_guarded htrace hbound hguarded
  exact htracks.consistent

def onePool : HandlePool :=
  { HandlePool.initSlot
      ⟨4096, fun _ => List.replicate 8 0, 4104, fun _ => 7, 1, poolInvalid, 0⟩ 0 with freeHead := 0 }

def oneValue : List UInt8 := [1, 2, 3, 4, 5, 6, 7, 8]

def stackAllocator : Allocator Nat := ⟨fun next _ _ size _ => some (next, next + size)⟩

theorem onePool_initial : handlePoolSystem.initial onePool :=
  ⟨Nat, stackAllocator, 4096, 4108, ⟨8, 4⟩, 1, (fun _ => List.replicate 8 0, fun _ => 7), rfl⟩

def HandlePoolEvent.attempt (p : HandlePool) : HandlePoolEvent → Option HandlePool
  | allocated value h =>
    if (handlepoolAlloc p value).1 = h then some (handlepoolAlloc p value).2 else none
  | freed h accepted => if (handlepoolFree p h).1 = accepted then some (handlepoolFree p h).2 else none
  | validated h accepted => if handlepoolValid p h = accepted then some p else none
  | got h slot => if handlepoolGet p h = slot then some p else none

theorem HandlePoolEvent.attempt_next (p : HandlePool) (event : HandlePoolEvent) (q : HandlePool)
    (h : event.attempt p = some q) : handlePoolSystem.next p event q := by
  cases event with
  | allocated value handle =>
    rw [attempt, Option.ite_none_right_eq_some] at h
    exact Prod.ext h.1 (Option.some.inj h.2)
  | freed handle accepted =>
    rw [attempt, Option.ite_none_right_eq_some] at h
    exact Prod.ext h.1 (Option.some.inj h.2)
  | validated handle accepted =>
    rw [attempt, Option.ite_none_right_eq_some] at h
    exact ⟨h.1, (Option.some.inj h.2).symm⟩
  | got handle slot =>
    rw [attempt, Option.ite_none_right_eq_some] at h
    exact ⟨h.1, (Option.some.inj h.2).symm⟩

def reusedRun : List HandlePoolEvent :=
  [.allocated oneValue (handleMake 0 1), .validated (handleMake 0 1) true,
    .freed (handleMake 0 1) true, .validated (handleMake 0 1) false,
    .allocated (oneValue.map (· + 8)) (handleMake 0 2), .freed (handleMake 0 1) false,
    .got (handleMake 0 2) (some 0), .allocated oneValue handleNull]

theorem handlePool_accepts_iff_reused : ∃ p, handlePoolSystem.Trace reusedRun.reverse p ∧
    AcceptsOutstanding reusedRun.reverse ∧ Consistent reusedRun.reverse p := by
  have hrun : (System.tryAll attempt onePool reusedRun).isSome = true := by decide +kernel
  obtain ⟨p, hp⟩ := Option.isSome_iff_exists.mp hrun
  have htrace : handlePoolSystem.Trace reusedRun.reverse p :=
    (System.Trace.start onePool_initial).tryAll attempt_next hp
  refine ⟨p, htrace, (handlePool_accepts_iff htrace fun i => ?_).mpr (by decide +kernel)⟩
  exact Nat.lt_of_le_of_lt List.countP_le_length (by decide)

theorem handlePool_accepts_pending : ∃ past p, handlePoolSystem.Trace past p ∧
    (∀ i, past.countP (frees i) < 16383) ∧ handlepoolValid p (handleMake 0 2) = true ∧
    ¬ Outstanding past (handleMake 0 2) ∧ (handlepoolFree p (handleMake 0 2)).1 = true ∧
    (handlepoolFree p (handleMake 0 2)).2.count = 0xFFFFFFFF := by
  refine ⟨[.freed (handleMake 0 1) true, .allocated oneValue (handleMake 0 1)],
    (handlepoolFree (handlepoolAlloc onePool oneValue).2 (handleMake 0 1)).2,
    .step (.step (.start onePool_initial) rfl) rfl, fun i => ?_, rfl, ?_, rfl, rfl⟩
  · exact Nat.lt_of_le_of_lt List.countP_le_length (by decide)
  · rw [outstanding_cons, outstanding_cons]
    rintro (⟨-, value, hvalue⟩ | ⟨-, ⟨-, value, hvalue⟩ | ⟨-, hnone⟩⟩)
    · cases hvalue
    · exact absurd (HandlePoolEvent.allocated.inj hvalue).2 (by decide)
    · exact not_outstanding_nil hnone

end ChoonzMoba
