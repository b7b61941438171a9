import ChoonzMoba.Render.HandleTableSpec

namespace ChoonzMoba

open RenderHandleTable

def RenderHandleTable.Shows (t : RenderHandleTable) (slots : DeferredSlots Nat) : Prop :=
  ∃ free, t.Inv free ∧ t.deferred free = slots

def HandleKnown (slots : DeferredSlots Nat) (h : Handle) : Prop :=
  handleIndex h < slots.capacity ∧
    (handleGen h < slots.generation (handleIndex h) ∨
      handleGen h = slots.generation (handleIndex h) ∧ slots.phase (handleIndex h) ≠ .free)

def HandleAlive (slots : DeferredSlots Nat) (h : Handle) : Prop :=
  h ≠ handleNull ∧ slots.phase (handleIndex h) = .alive ∧
    slots.generation (handleIndex h) = handleGen h

def SlotProtected (slots : DeferredSlots Nat) (frame i : Nat) : Prop :=
  slots.phase i = .alive ∨ ∃ due, slots.phase i = .retiring due ∧ frame + 3 ≤ due

section

variable {t u : RenderHandleTable} {slots : DeferredSlots Nat} {h : Handle} {i frame : Nat}
  {rest released : List Nat}

namespace RenderHandleTable.Shows

theorem inv (ht : t.Shows slots) : slots.Inv := by
  obtain ⟨free, hinv, rfl⟩ := ht
  exact hinv.slots

theorem capacity (ht : t.Shows slots) : slots.capacity = t.capacity.toNat := by
  obtain ⟨free, -, rfl⟩ := ht
  rfl

theorem inside (ht : t.Shows slots) (hphase : slots.phase i ≠ .free) : i < slots.capacity := by
  by_contra hge
  exact hphase (ht.inv.inside i (Nat.le_of_not_lt hge))

theorem generation_lt (ht : t.Shows slots) (hi : i < slots.capacity) :
    0 < slots.generation i ∧ slots.generation i < 2 ^ 14 := by
  obtain ⟨free, hinv, rfl⟩ := ht
  rw [deferred_generation free hi]
  exact hinv.generation i hi

theorem capacity_le (ht : t.Shows slots) : slots.capacity ≤ 2 ^ 18 := by
  obtain ⟨free, hinv, rfl⟩ := ht
  exact hinv.capacity_le

theorem valid_iff (ht : t.Shows slots) : renderHandleValid t h = true ↔ HandleAlive slots h := by
  obtain ⟨free, hinv, rfl⟩ := ht
  rw [RenderHandleTable.valid_iff, HandleAlive, deferred_alive]
  constructor
  · rintro ⟨hnull, hlt, halive, -, hgen⟩
    exact ⟨hnull, ⟨hlt, halive⟩, (deferred_generation free hlt).trans hgen⟩
  · rintro ⟨hnull, ⟨hlt, halive⟩, hgen⟩
    exact ⟨hnull, hlt, halive, hinv.exclusive _ hlt halive,
      (deferred_generation free hlt).symm.trans hgen⟩

theorem alloc (ht : t.Shows slots) : renderHandleAlloc t = (handleNull, t) ∨
    ∃ i rest u, slots.free = i :: rest ∧
      renderHandleAlloc t = (handleMake i (slots.generation i), u) ∧ u.Shows (slots.issue i rest) := by
  obtain ⟨free, hinv, rfl⟩ := ht
  rcases hinv.alloc with ⟨-, hnull⟩ | ⟨i, rest, u, rfl, halloc, hu, hdeferred⟩
  · exact Or.inl hnull
  · obtain ⟨hi, -⟩ := hinv.mem_free.mp List.mem_cons_self
    refine Or.inr ⟨i, rest, u, rfl, ?_, rest, hu, hdeferred⟩
    rw [halloc, deferred_generation _ hi]

theorem retire (ht : t.Shows slots) (h : Handle) (retireFrame : UInt64) :
    renderHandleRetire t h retireFrame = (false, t) ∨
      HandleAlive slots h ∧ ∃ u, renderHandleRetire t h retireFrame = (true, u) ∧
        u.Shows (slots.retire (handleIndex h) retireFrame.toNat) := by
  have hvalid := ht.valid_iff (h := h)
  obtain ⟨free, hinv, rfl⟩ := ht
  rcases hinv.retire h retireFrame with ⟨-, hsame⟩ | ⟨halive, u, heq, hu, hdeferred⟩
  · exact Or.inl hsame
  · exact Or.inr ⟨hvalid.mp halive, u, heq, free, hu, hdeferred⟩

theorem collect {User : Type} (ht : t.Shows slots) (release : Option (User → Nat → User))
    (now : UInt64) (user : User) :
    Outcome True (fun r : RenderHandleTable × User =>
        r.1.Shows (slots.release (slots.due now.toNat)) ∧
          r.2 = release.elim user fun release => (slots.due now.toNat).foldl release user)
      (renderHandleCollect release t now user) := by
  obtain ⟨free, hinv, rfl⟩ := ht
  refine (hinv.collect release now user).imp (fun _ => trivial) fun r hr => ?_
  rw [← hinv.dueSlots_eq now]
  exact ⟨⟨_, hr.inv, hr.deferred⟩, hr.user⟩

end RenderHandleTable.Shows

theorem issued_alive (ht : t.Shows slots) (hfree : slots.free = i :: rest) :
    HandleAlive (slots.issue i rest) (handleMake i (slots.generation i)) ∧
      handleIndex (handleMake i (slots.generation i)) = i := by
  obtain ⟨hi, -⟩ := (ht.inv.mem_free i).mp (hfree ▸ List.mem_cons_self)
  have hlt := Nat.lt_of_lt_of_le hi ht.capacity_le
  obtain ⟨hpos, hgen⟩ := ht.generation_lt hi
  have hindex := handleIndex_make hlt hgen
  refine ⟨⟨handleMake_ne_null hlt hpos hgen, ?_, ?_⟩, hindex⟩
  · rw [hindex]
    exact Function.update_self _ _ _
  · rw [hindex, handleGen_make hlt hgen]
    rfl

theorem HandleAlive.known (ht : t.Shows slots) (h' : HandleAlive slots h) : HandleKnown slots h := by
  have hphase : slots.phase (handleIndex h) ≠ .free := by
    rw [h'.2.1]
    exact fun heq => (by cases heq)
  exact ⟨ht.inside hphase, Or.inr ⟨h'.2.2.symm, hphase⟩⟩

theorem HandleKnown.issue (h' : HandleKnown slots h) (hphase : slots.phase i = .free) :
    HandleKnown (slots.issue i rest) h ∧
      (HandleAlive (slots.issue i rest) h → HandleAlive slots h ∧ handleIndex h ≠ i) := by
  obtain ⟨hlt, hgen⟩ := h'
  by_cases hi : handleIndex h = i
  · have hold : handleGen h < slots.generation (handleIndex h) := by
      rcases hgen with hgen | ⟨-, hne⟩
      · exact hgen
      · rw [hi] at hne
        exact absurd hphase hne
    refine ⟨⟨hlt, Or.inl hold⟩, fun halive => ?_⟩
    have hsame : slots.generation (handleIndex h) = handleGen h := halive.2.2
    omega
  · have hsame : (slots.issue i rest).phase (handleIndex h) = slots.phase (handleIndex h) :=
      Function.update_of_ne hi _ _
    refine ⟨⟨hlt, ?_⟩, fun halive => ⟨⟨halive.1, hsame ▸ halive.2.1, halive.2.2⟩, hi⟩⟩
    rw [hsame]
    exact hgen

theorem HandleKnown.retire (h' : HandleKnown slots h) (i due : Nat) :
    HandleKnown (slots.retire i due) h ∧
      (HandleAlive (slots.retire i due) h → HandleAlive slots h) := by
  obtain ⟨hlt, hgen⟩ := h'
  by_cases hi : handleIndex h = i
  · have hphase : (slots.retire i due).phase (handleIndex h) = .retiring due := by
      rw [hi]
      exact Function.update_self _ _ _
    refine ⟨⟨hlt, hgen.imp_right fun hgen => ⟨hgen.1, ?_⟩⟩, fun halive => ?_⟩
    · rw [hphase]
      exact fun heq => (by cases heq)
    · cases hphase.symm.trans halive.2.1
  · have hsame : (slots.retire i due).phase (handleIndex h) = slots.phase (handleIndex h) :=
      Function.update_of_ne hi _ _
    refine ⟨⟨hlt, ?_⟩, fun halive => ⟨halive.1, hsame ▸ halive.2.1, halive.2.2⟩⟩
    rw [hsame]
    exact hgen

theorem HandleKnown.release (h' : HandleKnown slots h) (released : List Nat) :
    HandleKnown (slots.release released) h ∧
      (HandleAlive (slots.release released) h →
        HandleAlive slots h ∧ handleIndex h ∉ released) := by
  obtain ⟨hlt, hgen⟩ := h'
  by_cases hi : handleIndex h ∈ released
  · have hnext : (slots.release released).generation (handleIndex h) =
        slots.generation (handleIndex h) + 1 := if_pos hi
    have hfree : (slots.release released).phase (handleIndex h) = .free := if_pos hi
    refine ⟨⟨hlt, Or.inl ?_⟩, fun halive => ?_⟩
    · rw [hnext]
      omega
    · cases hfree.symm.trans halive.2.1
  · have hgeneration : (slots.release released).generation (handleIndex h) =
        slots.generation (handleIndex h) := if_neg hi
    have hphase : (slots.release released).phase (handleIndex h) = slots.phase (handleIndex h) :=
      if_neg hi
    refine ⟨⟨hlt, ?_⟩, fun halive => ⟨⟨halive.1, hphase ▸ halive.2.1, hgeneration ▸ halive.2.2⟩, hi⟩⟩
    rw [hgeneration, hphase]
    exact hgen

theorem HandleAlive.release (h' : HandleAlive slots h) (hi : handleIndex h ∉ released) :
    HandleAlive (slots.release released) h :=
  ⟨h'.1, (if_neg hi).trans h'.2.1, (if_neg hi).trans h'.2.2⟩

theorem not_mem_due_of_alive (ht : t.Shows slots) (hphase : slots.phase i = .alive) (now : Nat) :
    i ∉ slots.due now := by
  intro hmem
  obtain ⟨due, hretiring, -⟩ := (DeferredSlots.mem_due ht.inv).mp hmem
  cases hphase.symm.trans hretiring

theorem SlotProtected.issue (h' : SlotProtected slots frame i) {j : Nat}
    (hphase : slots.phase j = .free) : SlotProtected (slots.issue j rest) frame i := by
  have hne : i ≠ j := by
    rintro rfl
    rcases h' with halive | ⟨due, hretiring, -⟩
    · cases hphase.symm.trans halive
    · cases hphase.symm.trans hretiring
  have hsame : (slots.issue j rest).phase i = slots.phase i := Function.update_of_ne hne _ _
  rw [SlotProtected, hsame]
  exact h'

theorem SlotProtected.retire (h' : SlotProtected slots frame i) (j : Nat) {due : Nat}
    (hphase : slots.phase j = .alive) (hdue : frame + 3 ≤ due) :
    SlotProtected (slots.retire j due) frame i := by
  by_cases hi : i = j
  · subst hi
    exact Or.inr ⟨due, Function.update_self _ _ _, hdue⟩
  · have hsame : (slots.retire j due).phase i = slots.phase i := Function.update_of_ne hi _ _
    rw [SlotProtected, hsame]
    exact h'

theorem SlotProtected.not_due (ht : t.Shows slots) (h' : SlotProtected slots frame i) {now : Nat}
    (hnow : now < frame + 3) : i ∉ slots.due now := by
  intro hmem
  obtain ⟨due, hretiring, hle⟩ := (DeferredSlots.mem_due ht.inv).mp hmem
  rcases h' with halive | ⟨due', hretiring', hfar⟩
  · cases halive.symm.trans hretiring
  · rw [hretiring'] at hretiring
    cases hretiring
    omega

theorem SlotProtected.release (h' : SlotProtected slots frame i) (hi : i ∉ released) :
    SlotProtected (slots.release released) frame i := by
  have hsame : (slots.release released).phase i = slots.phase i := if_neg hi
  rw [SlotProtected, hsame]
  exact h'

def reissued (slots : DeferredSlots Nat) (i : Nat) : DeferredSlots Nat :=
  { slots with generation := Function.update slots.generation i (slots.generation i + 1) }

theorem reissued_eq (hinv : slots.Inv) (hfree : slots.free = i :: rest) :
    ((slots.issue i rest).retire i 0).release [i] = reissued slots i := by
  have hphase := ((hinv.mem_free i).mp (hfree ▸ List.mem_cons_self)).2
  ext j
  · rfl
  · by_cases hj : j = i
    · subst hj
      simp [DeferredSlots.release, DeferredSlots.retire, DeferredSlots.issue, reissued]
    · simp [DeferredSlots.release, DeferredSlots.retire, DeferredSlots.issue, reissued, hj]
  · by_cases hj : j = i
    · subst hj
      simp [DeferredSlots.release, reissued, hphase]
    · simp [DeferredSlots.release, DeferredSlots.retire, DeferredSlots.issue, reissued, hj]
  · simp [DeferredSlots.release, DeferredSlots.retire, DeferredSlots.issue, reissued, hfree]

theorem HandleKnown.reissued (h' : HandleKnown slots h) (hphase : slots.phase i = .free) :
    HandleKnown (reissued slots i) h ∧
      (HandleAlive (ChoonzMoba.reissued slots i) h → HandleAlive slots h) := by
  obtain ⟨hlt, hgen⟩ := h'
  by_cases hi : handleIndex h = i
  · have hold : handleGen h < slots.generation (handleIndex h) := by
      rcases hgen with hgen | ⟨-, hne⟩
      · exact hgen
      · rw [hi] at hne
        exact absurd hphase hne
    have hnext : (ChoonzMoba.reissued slots i).generation (handleIndex h) =
        slots.generation (handleIndex h) + 1 := by
      rw [hi]
      exact Function.update_self _ _ _
    refine ⟨⟨hlt, Or.inl ?_⟩, fun halive => ?_⟩
    · rw [hnext]
      omega
    · have hfree : slots.phase (handleIndex h) = .free := hi ▸ hphase
      cases hfree.symm.trans halive.2.1
  · have hsame : (ChoonzMoba.reissued slots i).generation (handleIndex h) =
        slots.generation (handleIndex h) := Function.update_of_ne hi _ _
    refine ⟨⟨hlt, ?_⟩, fun halive => ⟨halive.1, halive.2.1, hsame ▸ halive.2.2⟩⟩
    rw [hsame]
    exact hgen

end

end ChoonzMoba
