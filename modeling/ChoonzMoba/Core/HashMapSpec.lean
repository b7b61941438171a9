import ChoonzMoba.Core.HashMapTable

namespace ChoonzMoba

section

variable {K V : Type} [HashMapKey K] {m : HashMap K V} {new : HashMapSlot K V}

structure HashMap.Wf (m : HashMap K V) : Prop where
  address : m.address = 0 → m.cap = 0
  count : m.count.toNat = m.entries.length
  table : m.cap ≠ 0 → m.Table
  room : m.cap ≠ 0 → m.entries.length < m.cap.toNat

omit [HashMapKey K] in
theorem HashMap.entries_of_cap_zero (h : m.cap = 0) : m.entries = [] := by
  rw [HashMap.entries, h]
  rfl

theorem hashmapInit_wf : (hashmapInit : HashMap K V).Wf :=
  ⟨fun _ => rfl, rfl, fun h => absurd rfl h, fun h => absurd rfl h⟩

theorem HashMap.Table.empty (address : Nat) {cap : UInt32} (hcap : ∃ k, cap.toNat = 2 ^ k) :
    HashMap.Table
      { address, slots := fun _ => none, cap, mask := cap - 1, count := 0 : HashMap K V } := by
  have hentries : RobinHood.entries (E := HashMapSlot K V) cap.toNat (fun _ => none) = [] := by
    simp [RobinHood.entries]
  refine ⟨⟨hcap, ?_⟩, RobinHood.Ordered.empty _ _, ?_, ?_, ?_⟩
  · obtain ⟨k, hk⟩ := hcap
    have hpos := Nat.two_pow_pos k
    have hone : 1 ≤ cap := UInt32.le_iff_toNat_le.mpr (by rw [UInt32.toNat_one]; omega)
    dsimp only
    rw [UInt32.toNat_sub_of_le _ _ hone, UInt32.toNat_one]
    omega
  · intro s hs
    rw [HashMap.entries, hentries] at hs
    cases hs
  · rw [HashMap.entries, hentries]
    exact List.Pairwise.nil
  · rw [HashMap.entries, hentries]
    rfl

omit [HashMapKey K] in
theorem hashmapClear_slots (m : HashMap K V) {p : Nat} (hp : p < m.cap.toNat) :
    (hashmapClear m).slots p = none := by
  have h := Loop.forRange_invariant (n := m.cap.toNat)
    (f := fun (slots : Nat → Option (HashMapSlot K V)) i => Function.update slots i none)
    (s := m.slots) (fun i slots => ∀ p < i, slots p = none) (fun p hp => absurd hp (Nat.not_lt_zero p))
    (fun i slots _ hslots p hp => by
      rcases Nat.lt_succ_iff_lt_or_eq.mp hp with hlt | rfl
      · rw [Function.update_of_ne (Nat.ne_of_lt hlt)]
        exact hslots p hlt
      · exact Function.update_self ..)
  exact h p hp

omit [HashMapKey K] in
theorem hashmapClear_entries (m : HashMap K V) : (hashmapClear m).entries = [] := by
  rw [List.eq_nil_iff_forall_not_mem]
  intro s hs
  obtain ⟨p, hp, hslot⟩ := HashMap.mem_entries.mp hs
  rw [hashmapClear_slots m hp] at hslot
  cases hslot

theorem hashmapClear_wf (wf : m.Wf) : (hashmapClear m).Wf := by
  have hentries := hashmapClear_entries m
  refine ⟨wf.address, by rw [hentries]; rfl, fun hcap => ?_, fun hcap => ?_⟩
  · have table := wf.table hcap
    refine ⟨⟨table.shaped.cap, table.shaped.mask⟩, ?_, ?_, ?_, by rw [hentries]; rfl⟩
    · intro p hp e he
      have hslot := hashmapClear_slots m (RobinHood.next_lt hp)
      cases hslot.symm.trans he
    · intro s hs
      rw [hentries] at hs
      cases hs
    · rw [hentries]
      exact List.Pairwise.nil
  · rw [hentries]
    exact (wf.table hcap).shaped.cap_pos

theorem hashmapGet_spec [LawfulHashMapKey K] (wf : m.Wf) (key : K) :
    (∃ s ∈ m.entries, hashmapEq s.key key = true ∧ hashmapGet m key = some (some s.val)) ∨
      ((∀ s ∈ m.entries, ¬ hashmapEq s.key key = true) ∧ hashmapGet m key = some none) := by
  rw [hashmapGet]
  split
  · next hcap =>
    refine Or.inr ⟨fun s hs => ?_, rfl⟩
    rw [HashMap.entries_of_cap_zero hcap] at hs
    cases hs
  · next hcap =>
    obtain ⟨p, s, hfound, hp, hs, heq⟩ | ⟨hfound, hnone⟩ :=
      hashmapLocate_start (wf.table hcap) (wf.room hcap) key
    · exact Or.inl ⟨s, (wf.table hcap).mem hp hs, heq, by dsimp only; rw [hfound]; rfl⟩
    · exact Or.inr ⟨hnone, by dsimp only; rw [hfound]; rfl⟩

theorem hashmapRemove_spec [LawfulHashMapKey K] (wf : m.Wf) (key : K) :
    (∃ s t, hashmapRemove m key = some (true, t) ∧ t.Wf ∧ m.SameShape t ∧
      hashmapEq s.key key = true ∧ m.entries.Perm (s :: t.entries)) ∨
      ((∀ s ∈ m.entries, ¬ hashmapEq s.key key = true) ∧
        hashmapRemove m key = some (false, m)) := by
  rw [hashmapRemove]
  split
  · next hcap =>
    refine Or.inr ⟨fun s hs => ?_, rfl⟩
    rw [HashMap.entries_of_cap_zero hcap] at hs
    cases hs
  · next hcap =>
    have table := wf.table hcap
    obtain ⟨p, s, hfound, hp, hs, heq⟩ | ⟨hfound, hnone⟩ :=
      hashmapLocate_start table (wf.room hcap) key
    · obtain ⟨z, hz, hempty⟩ := RobinHood.exists_empty (wf.room hcap)
      obtain ⟨t, last, ht, hshape, hcount, hordered, hperm⟩ :=
        hashmapShiftLoop_spec table.shaped table.ordered hp hs hz hempty (RobinHood.dist_lt hz)
      have hsplit : m.entries.Perm (s :: (t.setSlot last none).entries) :=
        (RobinHood.entries_split hp hs).trans (hperm.symm.cons s)
      have hshape' : m.SameShape { t.setSlot last none with count := t.count - 1 } :=
        ⟨hshape.address, hshape.cap, hshape.mask⟩
      have hlength := hsplit.length_eq
      rw [List.length_cons] at hlength
      have hpred : (t.count - 1).toNat = (t.setSlot last none).entries.length := by
        have hone : 1 ≤ t.count := UInt32.le_iff_toNat_le.mpr (by
          rw [hcount, table.count, UInt32.toNat_one]
          omega)
        rw [UInt32.toNat_sub_of_le _ _ hone, hcount, table.count, UInt32.toNat_one]
        omega
      refine Or.inl ⟨s, { t.setSlot last none with count := t.count - 1 }, ?_,
        ⟨fun h => ?_, hpred, fun _ => ⟨hshape'.shaped table.shaped, ?_, ?_, ?_, hpred⟩, fun _ => ?_⟩,
        hshape', heq, hsplit⟩
      · dsimp only
        rw [hfound, Option.bind_some]
        dsimp only
        rw [ht]
        rfl
      · exact hshape'.cap.trans (wf.address (hshape'.address.symm.trans h))
      · rw [hshape'.cap, hshape'.home]
        exact hordered
      · exact fun e he => table.hashes e (hsplit.mem_iff.mpr (List.mem_cons_of_mem s he))
      · exact (List.pairwise_cons.mp ((distinct_perm hsplit).mp table.distinct)).2
      · rw [hshape'.cap]
        have hroom := wf.room hcap
        exact Nat.lt_of_le_of_lt (by rw [hlength]; exact Nat.le_succ _) hroom
    · exact Or.inr ⟨hnone, by dsimp only; rw [hfound]; rfl⟩

theorem Stored.of_perm {l k l' : List (HashMapSlot K V)} (h : Stored k new l') (hperm : l.Perm k) :
    Stored l new l' := by
  cases h with
  | updated hk hsame hl' => exact .updated (hperm.trans hk) hsame hl'
  | inserted hfresh hl' =>
    exact .inserted (fun s hs => hfresh s (hperm.mem_iff.mp hs)) (hl'.trans (hperm.symm.cons new))

theorem Stored.length_le {l l' : List (HashMapSlot K V)} (h : Stored l new l') :
    l'.length ≤ l.length + 1 := by
  cases h with
  | updated hl _ hl' =>
    rw [hl.length_eq, hl'.length_eq, List.length_cons, List.length_cons]
    exact Nat.le_succ _
  | inserted _ hl' => rw [hl'.length_eq, List.length_cons]

variable {σ : Type} {alloc : Allocator σ} {layout : SlotLayout} {state : σ}

def HashMap.grownCap (m : HashMap K V) : Option UInt32 :=
  if m.cap = 0 then some 16
  else if m.cap.toNat * 7 ≤ (m.count.toNat + 1) * 8 then some (m.cap * 2)
  else none

def Allocates (alloc : Allocator σ) (layout : SlotLayout) (state : σ) (m : HashMap K V)
    (newcap : UInt32) : Prop :=
  ∃ bytes address taken, hashmapAllocationBytes newcap layout.size = some bytes ∧
    memAlloc alloc state bytes layout.align = some (address, taken) ∧ address ≠ 0 ∧
    (m.address ≠ 0 → ∃ oldBytes freed, hashmapAllocationBytes m.cap layout.size = some oldBytes ∧
      memFree alloc taken m.address oldBytes = some freed)

structure Moved (m fresh : HashMap K V) (i : Nat) (t : HashMap K V) : Prop where
  table : t.Table
  shape : fresh.SameShape t
  entries : t.entries.Perm (RobinHood.entries i m.slots)

theorem Moved.step [LawfulHashMapKey K] {fresh t : HashMap K V} {i : Nat} (wf : m.Wf)
    (hlarge : m.entries.length < fresh.cap.toNat) (hi : i < m.cap.toNat) (h : Moved m fresh i t) :
    ∃ u, rehashSlot m t i = some u ∧ Moved m fresh (i + 1) u := by
  rw [rehashSlot]
  cases hs : m.slots i with
  | none =>
    refine ⟨t, rfl, h.table, h.shape, ?_⟩
    rw [RobinHood.entries_succ, hs]
    simpa using h.entries
  | some s =>
    have hcap : m.cap ≠ 0 := by
      rintro hzero
      rw [hzero] at hi
      exact absurd hi (Nat.not_lt_zero i)
    have hsub := RobinHood.entries_sublist (T := m.slots) hi
    have hlast : RobinHood.entries (i + 1) m.slots = RobinHood.entries i m.slots ++ [s] := by
      rw [RobinHood.entries_succ, hs]
      rfl
    rw [hlast] at hsub
    have hroom : t.entries.length < t.cap.toNat := by
      have hlength := hsub.length_le
      rw [List.length_append] at hlength
      rw [h.shape.cap, h.entries.length_eq]
      exact Nat.lt_of_le_of_lt (Nat.le_of_add_right_le hlength) hlarge
    have hdistinct := (List.pairwise_append.mp ((wf.table hcap).distinct.sublist hsub)).2.2
    obtain ⟨u, hu, htable, hshape, hstored⟩ := hashmapPlace_spec h.table hroom
      ((wf.table hcap).hashes s (HashMap.mem_entries.mpr ⟨i, hi, hs⟩))
    refine ⟨u, hu, htable, h.shape.trans hshape, ?_⟩
    rw [hlast]
    have habsent : ∀ e ∈ t.entries, ¬ SameKey e s := fun e he =>
      hdistinct e (h.entries.mem_iff.mp he) s List.mem_cons_self
    cases hstored with
    | updated hperm hsame _ => exact absurd hsame (habsent _ (hperm.mem_iff.mpr List.mem_cons_self))
    | inserted _ hperm =>
      exact hperm.trans ((h.entries.cons s).trans (List.perm_append_singleton s _).symm)

theorem hashmapRehash_spec [LawfulHashMapKey K] (wf : m.Wf) {newcap : UInt32}
    (hcap : ∃ k, newcap.toNat = 2 ^ k) (hlarge : m.entries.length < newcap.toNat)
    (hallocates : Allocates alloc layout state m newcap) :
    ∃ state' t, hashmapRehash alloc layout state m newcap = some (state', t) ∧ t.Table ∧
      t.cap = newcap ∧ t.address ≠ 0 ∧ t.entries.Perm m.entries := by
  obtain ⟨bytes, address, taken, hbytes, halloc, hne, hold⟩ := hallocates
  have hpower : ¬ (newcap = 0 ∨ newcap &&& (newcap - 1) ≠ 0) := by
    obtain ⟨k, hk⟩ := hcap
    have hpos := Nat.two_pow_pos k
    have hone : 1 ≤ newcap := UInt32.le_iff_toNat_le.mpr (by rw [UInt32.toNat_one]; omega)
    rintro (hzero | hland)
    · rw [hzero] at hk
      exact absurd hk.symm (Nat.ne_of_gt hpos)
    · apply hland
      apply UInt32.toNat_inj.mp
      rw [UInt32.toNat_and, UInt32.toNat_sub_of_le _ _ hone, hk, UInt32.toNat_one,
        land_two_pow_sub_one_self]
      rfl
  have hempty := HashMap.Table.empty (K := K) (V := V) address hcap
  rw [hashmapRehash, if_neg hpower, hbytes, Option.bind_some, halloc, Option.bind_some]
  dsimp only
  rw [if_neg hne]
  split
  · next haddress =>
    refine ⟨taken, _, rfl, hempty, rfl, hne, ?_⟩
    rw [HashMap.entries_of_cap_zero (wf.address haddress)]
    simp [HashMap.entries, RobinHood.entries]
  · next haddress =>
    obtain ⟨oldBytes, freed, hbytesOld, hfree⟩ := hold haddress
    obtain ⟨t, ht, hmoved⟩ := Loop.forRangeM_total (n := m.cap.toNat)
      (Moved m
        { address, slots := fun _ => none, cap := newcap, mask := newcap - 1, count := 0 })
      ⟨hempty, .refl _, by simp [HashMap.entries, RobinHood.entries]⟩
      (fun i t hi h => h.step wf hlarge hi)
    refine ⟨freed, t, ?_, hmoved.table, hmoved.shape.cap, ?_, hmoved.entries⟩
    · rw [ht, Option.bind_some, hbytesOld, Option.bind_some, hfree]
      rfl
    · rw [hmoved.shape.address]
      exact hne

/-- An insertion that grows the table has its memory and a capacity that can still double. -/
def HashMap.CanGrow (alloc : Allocator σ) (layout : SlotLayout) (state : σ) (m : HashMap K V) :
    Prop :=
  ∀ newcap, m.grownCap = some newcap →
    m.cap.toNat < 2 ^ 31 ∧ Allocates alloc layout state m newcap

theorem hashmapSet_spec [LawfulHashMapKey K] (wf : m.Wf) (hgrow : m.CanGrow alloc layout state)
    (key : K) (val : V) :
    ∃ state' t, hashmapSet alloc layout state m key val = some (state', t) ∧ t.Wf ∧
      Stored m.entries ⟨key, val, hashmapHash key⟩ t.entries := by
  suffices hroom : ∃ state' t, (if m.cap = 0 then hashmapRehash alloc layout state m 16
      else if m.cap.toNat * 7 ≤ (m.count.toNat + 1) * 8 then
        if m.cap.toNat ≤ (2 ^ 32 - 1) / 2 then hashmapRehash alloc layout state m (m.cap * 2)
        else none
      else some (state, m)) = some (state', t) ∧ t.Table ∧ t.address ≠ 0 ∧
        t.entries.length + 1 < t.cap.toNat ∧ t.entries.Perm m.entries by
    obtain ⟨state', t, ht, htable, haddress, hlt, hperm⟩ := hroom
    obtain ⟨u, hu, htable', hshape, hstored⟩ := hashmapPlace_spec htable (by omega)
      (show (⟨key, val, hashmapHash key⟩ : HashMapSlot K V).hash = _ from rfl)
    refine ⟨state', u, ?_, ⟨fun h => ?_, htable'.count, fun _ => htable', fun _ => ?_⟩,
      hstored.of_perm hperm.symm⟩
    · rw [hashmapSet, ht, Option.bind_some, hu]
      rfl
    · rw [hshape.address] at h
      exact absurd h haddress
    · rw [hshape.cap]
      exact Nat.lt_of_le_of_lt hstored.length_le hlt
  split
  · next hzero =>
    obtain ⟨-, hallocates⟩ := hgrow 16 (by rw [HashMap.grownCap, if_pos hzero])
    have hentries := HashMap.entries_of_cap_zero hzero
    have hsixteen : (16 : UInt32).toNat = 16 := rfl
    obtain ⟨state', t, ht, htable, hcap, haddress, hperm⟩ := hashmapRehash_spec wf ⟨4, rfl⟩
      (by rw [hentries, hsixteen, List.length_nil]; omega) hallocates
    refine ⟨state', t, ht, htable, haddress, ?_, hperm⟩
    rw [hcap, hperm.length_eq, hentries, hsixteen, List.length_nil]
    omega
  · next hcap =>
    have table := wf.table hcap
    have hlength := wf.room hcap
    split
    · next hfull =>
      obtain ⟨hsmall, hallocates⟩ := hgrow (m.cap * 2) (by
        rw [HashMap.grownCap, if_neg hcap, if_pos hfull])
      have hdouble : (m.cap * 2).toNat = m.cap.toNat * 2 := by
        rw [UInt32.toNat_mul, show (2 : UInt32).toNat = 2 from rfl]
        omega
      have hpower : ∃ k, (m.cap * 2).toNat = 2 ^ k := by
        obtain ⟨k, hk⟩ := table.shaped.cap
        exact ⟨k + 1, by rw [hdouble, hk, Nat.pow_succ]⟩
      rw [if_pos (by omega)]
      obtain ⟨state', t, ht, htable, hcap', haddress, hperm⟩ :=
        hashmapRehash_spec wf hpower (by omega) hallocates
      refine ⟨state', t, ht, htable, haddress, ?_, hperm⟩
      rw [hcap', hperm.length_eq, hdouble]
      omega
    · next hfits =>
      rw [table.count] at hfits
      exact ⟨state, m, rfl, table, fun h => hcap (wf.address h), by omega, .refl _⟩

theorem hashmapSet_in_place [LawfulHashMapKey K] (wf : m.Wf) (hcap : m.cap ≠ 0)
    (hfits : (m.count.toNat + 1) * 8 < m.cap.toNat * 7) (key : K) (val : V) :
    ∃ t, hashmapSet alloc layout state m key val = some (state, t) ∧ t.Wf ∧ m.SameShape t ∧
      Stored m.entries ⟨key, val, hashmapHash key⟩ t.entries := by
  have table := wf.table hcap
  obtain ⟨t, ht, htable, hshape, hstored⟩ := hashmapPlace_spec table (wf.room hcap)
    (show (⟨key, val, hashmapHash key⟩ : HashMapSlot K V).hash = _ from rfl)
  have hlength := hstored.length_le
  have hcount := wf.count
  refine ⟨t, ?_, ⟨fun h => ?_, htable.count, fun _ => htable, fun _ => ?_⟩, hshape, hstored⟩
  · rw [hashmapSet, if_neg hcap, if_neg (Nat.not_le_of_lt hfits), Option.bind_some, ht]
    rfl
  · rw [hshape.address] at h
    rw [hshape.cap]
    exact wf.address h
  · rw [hshape.cap]
    omega

end

end ChoonzMoba
