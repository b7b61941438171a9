import ChoonzMoba.Library.Chain
import ChoonzMoba.Library.DeferredSlots
import ChoonzMoba.Library.Outcome
import ChoonzMoba.Render.HandleTable

namespace ChoonzMoba

def RenderHandleSlot.phase (slot : RenderHandleSlot) : SlotPhase Nat :=
  if slot.alive then .alive
  else if slot.retiring then .retiring slot.retireFrame.toNat
  else .free

theorem RenderHandleSlot.phase_retiring {slot : RenderHandleSlot} {due : Nat}
    (h : slot.phase = .retiring due) : due = slot.retireFrame.toNat := by
  rw [phase] at h
  split at h
  · cases h
  split at h
  · exact (SlotPhase.retiring.inj h).symm
  · cases h

namespace RenderHandleTable

def next (t : RenderHandleTable) (i : Nat) : Nat := (t.slots i).nextFree.toNat

def Due (t : RenderHandleTable) (now : UInt64) (i : Nat) : Prop :=
  (t.slots i).retiring = true ∧ (t.slots i).retireFrame ≤ now

instance (t : RenderHandleTable) (now : UInt64) (i : Nat) : Decidable (t.Due now i) :=
  inferInstanceAs (Decidable (_ ∧ _))

def WrapsAt (t : RenderHandleTable) (now : UInt64) : Prop :=
  ∃ i < t.capacity.toNat, t.Due now i ∧ (t.slots i).generation = handleGenMask

def deferred (t : RenderHandleTable) (free : List Nat) : DeferredSlots Nat where
  capacity := t.capacity.toNat
  generation i := if i < t.capacity.toNat then (t.slots i).generation.toNat else 1
  phase i := if i < t.capacity.toNat then (t.slots i).phase else .free
  free := free

structure Inv (t : RenderHandleTable) (free : List Nat) : Prop where
  address : t.address ≠ 0
  capacity_pos : 0 < t.capacity.toNat
  capacity_le : t.capacity.toNat ≤ 2 ^ 18
  chain : Chain t.next freeNone.toNat t.freeHead.toNat free
  exclusive : ∀ i < t.capacity.toNat, (t.slots i).alive = true → (t.slots i).retiring = false
  generation : ∀ i < t.capacity.toNat,
    0 < (t.slots i).generation.toNat ∧ (t.slots i).generation.toNat < 2 ^ 14
  live : t.liveCount.toNat = (t.deferred free).aliveCount
  slots : (t.deferred free).Inv

variable {t u : RenderHandleTable} {free rest : List Nat} {i : Nat} {h : Handle}

theorem Inv.mem_free (inv : t.Inv free) :
    i ∈ free ↔ i < t.capacity.toNat ∧ (t.slots i).alive = false ∧ (t.slots i).retiring = false := by
  refine (inv.slots.mem_free i).trans (and_congr_right fun hi => ?_)
  show (if i < t.capacity.toNat then (t.slots i).phase else .free) = .free ↔ _
  rw [if_pos (show i < t.capacity.toNat from hi), RenderHandleSlot.phase]
  cases (t.slots i).alive <;> cases (t.slots i).retiring <;> simp

end RenderHandleTable

section

open RenderHandleTable

variable {t u : RenderHandleTable} {free rest : List Nat} {i : Nat} {h : Handle}

theorem freeNone_toNat : freeNone.toNat = 2 ^ 32 - 1 := by decide

def initialSlot (capacity i : Nat) : RenderHandleSlot where
  generation := 1
  nextFree := if i + 1 < capacity then UInt32.ofNat (i + 1) else freeNone
  retireFrame := 0
  alive := false
  retiring := false

def initialTable (address : Nat) (capacity : UInt32) (count : Nat) : RenderHandleTable :=
  { zeroed address capacity with
    slots := fun i => if i < count then initialSlot capacity.toNat i else ⟨0, 0, 0, false, false⟩ }

theorem initSlot_loop (address : Nat) (capacity : UInt32) :
    Loop.forRange capacity.toNat initSlot (.zeroed address capacity) =
      initialTable address capacity capacity.toNat := by
  refine Loop.forRange_invariant
    (fun k (u : RenderHandleTable) => u = initialTable address capacity k) rfl fun k u hk hu => ?_
  subst hu
  rw [initSlot, setSlot, initialTable, initialTable]
  congr 1
  funext i
  by_cases hik : i = k
  · subst hik
    rw [Function.update_self, if_pos (Nat.lt_succ_self i)]
    simp [initialSlot, zeroed]
  · have hiff : i < k + 1 ↔ i < k := by omega
    rw [Function.update_of_ne hik]
    simp only [hiff]

theorem initialTable_inv {address : Nat} {capacity : UInt32} (haddress : address ≠ 0)
    (hpos : 0 < capacity.toNat) (hle : capacity.toNat ≤ 2 ^ 18) :
    (initialTable address capacity capacity.toNat).Inv (List.range capacity.toNat) ∧
      (initialTable address capacity capacity.toNat).deferred (List.range capacity.toNat) =
        .fresh capacity.toNat := by
  have hslot : ∀ i < capacity.toNat, (initialTable address capacity capacity.toNat).slots i =
      initialSlot capacity.toNat i := fun i hi => if_pos hi
  have hslots : (initialTable address capacity capacity.toNat).deferred
      (List.range capacity.toNat) = .fresh capacity.toNat := by
    ext i
    · rfl
    · simp only [deferred, DeferredSlots.fresh]
      split
      · next hi => rw [hslot i hi]; rfl
      · rfl
    · simp only [deferred, DeferredSlots.fresh]
      split
      · next hi => rw [hslot i hi]; rfl
      · rfl
    · rfl
  refine ⟨⟨haddress, hpos, hle, ?_, fun i hi halive => ?_, fun i hi => ?_, ?_, ?_⟩, hslots⟩
  · refine Chain.range hpos (by rw [freeNone_toNat]; omega) fun i hi => ?_
    rw [next, hslot i hi, initialSlot]
    dsimp only
    split
    · exact UInt32.toNat_ofNat_of_lt' (by simp only [UInt32.size]; omega)
    · rfl
  · rw [hslot i hi] at halive
    cases halive
  · rw [hslot i hi]
    exact ⟨show 0 < (1 : UInt32).toNat by decide, show (1 : UInt32).toNat < 2 ^ 14 by decide⟩
  · rw [hslots]
    exact (List.countP_eq_zero.mpr fun _ _ => Bool.false_ne_true).symm
  · rw [hslots]
    exact DeferredSlots.fresh_inv _

theorem renderHandleTableInit_inv {arena pushed : Arena} {capacity : UInt32}
    (h : renderHandleTableInit arena capacity = some (pushed, some t)) :
    t.Inv (List.range t.capacity.toNat) ∧
      t.deferred (List.range t.capacity.toNat) = .fresh t.capacity.toNat := by
  rw [renderHandleTableInit] at h
  split at h
  · cases h
  next hcapacity =>
  obtain ⟨⟨arena', address⟩, hpush, hresult⟩ := Option.map_eq_some_iff.mp h
  obtain ⟨hbase, -, hstart, -⟩ := arenaPush_spec hpush
  have hindex : (handleIndexMask + 1).toNat = 2 ^ 18 := by decide
  rw [not_or, UInt32.not_lt, UInt32.le_iff_toNat_le, hindex] at hcapacity
  have hpos : 0 < capacity.toNat := by
    rw [Nat.pos_iff_ne_zero]
    exact fun hzero => hcapacity.1 (UInt32.toNat_inj.mp hzero)
  obtain rfl := Option.some_inj.mp (Prod.mk.inj hresult).2
  dsimp only
  rw [initSlot_loop]
  exact initialTable_inv (by omega) hpos hcapacity.2

def RenderHandleTable.put (t : RenderHandleTable) (i : Nat) (slot : RenderHandleSlot)
    (freeHead liveCount : UInt32) : RenderHandleTable :=
  { t.setSlot i slot with freeHead := freeHead, liveCount := liveCount }

namespace RenderHandleTable

variable {slot : RenderHandleSlot} {freeHead liveCount : UInt32}

theorem put_slot (t : RenderHandleTable) (i : Nat) (slot : RenderHandleSlot)
    (freeHead liveCount : UInt32) : (t.put i slot freeHead liveCount).slots i = slot :=
  Function.update_self _ _ _

theorem put_of_ne {j : Nat} (hj : j ≠ i) :
    (t.put i slot freeHead liveCount).slots j = t.slots j :=
  Function.update_of_ne hj _ _

theorem put_next : (t.put i slot freeHead liveCount).next =
    Function.update t.next i slot.nextFree.toNat := by
  funext j
  by_cases hj : j = i
  · subst hj
    rw [next, put_slot, Function.update_self]
  · rw [next, put_of_ne hj, Function.update_of_ne hj, next]

theorem put_deferred (free : List Nat) (hi : i < t.capacity.toNat) :
    (t.put i slot freeHead liveCount).deferred rest =
      { t.deferred free with
        generation := Function.update (t.deferred free).generation i slot.generation.toNat
        phase := Function.update (t.deferred free).phase i slot.phase
        free := rest } := by
  ext j
  · rfl
  · by_cases hj : j = i
    · subst hj
      simp only [deferred, Function.update_self, put_slot]
      exact if_pos hi
    · simp only [deferred, Function.update_of_ne hj, put_of_ne hj]
      rfl
  · by_cases hj : j = i
    · subst hj
      simp only [deferred, Function.update_self, put_slot]
      rw [if_pos (show j < (t.put j slot freeHead liveCount).capacity.toNat from hi)]
    · simp only [deferred, Function.update_of_ne hj, put_of_ne hj]
      rfl
  · rfl

theorem put_phase (free : List Nat) (hi : i < t.capacity.toNat)
    (hgeneration : slot.generation = (t.slots i).generation) :
    (t.put i slot freeHead liveCount).deferred rest =
      { t.deferred free with
        phase := Function.update (t.deferred free).phase i slot.phase
        free := rest } := by
  have hsame : (t.deferred free).generation i = slot.generation.toNat := by
    rw [hgeneration]
    exact if_pos hi
  rw [put_deferred free hi, ← hsame, Function.update_eq_self]

theorem Inv.put (inv : t.Inv free) (hi : i < t.capacity.toNat)
    (hchain : Chain (Function.update t.next i slot.nextFree.toNat) freeNone.toNat freeHead.toNat rest)
    (hexclusive : slot.alive = true → slot.retiring = false)
    (hgeneration : 0 < slot.generation.toNat ∧ slot.generation.toNat < 2 ^ 14)
    (hlive : liveCount.toNat = ((t.put i slot freeHead liveCount).deferred rest).aliveCount)
    (hslots : ((t.put i slot freeHead liveCount).deferred rest).Inv) :
    (t.put i slot freeHead liveCount).Inv rest where
  address := inv.address
  capacity_pos := inv.capacity_pos
  capacity_le := inv.capacity_le
  chain := by
    rw [put_next]
    exact hchain
  exclusive j hj := by
    by_cases hji : j = i
    · subst hji
      rwa [put_slot]
    · rw [put_of_ne hji]
      exact inv.exclusive j hj
  generation j hj := by
    by_cases hji : j = i
    · subst hji
      rwa [put_slot]
    · rw [put_of_ne hji]
      exact inv.generation j hj
  live := hlive
  slots := hslots

theorem deferred_phase (hi : i < t.capacity.toNat) : (t.deferred free).phase i = (t.slots i).phase :=
  if_pos hi

theorem deferred_generation (free : List Nat) (hi : i < t.capacity.toNat) :
    (t.deferred free).generation i = (t.slots i).generation.toNat :=
  if_pos hi

theorem deferred_alive (free : List Nat) : (t.deferred free).phase i = .alive ↔
    i < t.capacity.toNat ∧ (t.slots i).alive = true := by
  by_cases hi : i < t.capacity.toNat
  · rw [deferred_phase hi, RenderHandleSlot.phase]
    cases (t.slots i).alive <;> cases (t.slots i).retiring <;> simp [hi]
  · exact iff_of_false (by simp [deferred, hi]) fun h => hi h.1

theorem Inv.retiring (inv : t.Inv free) {retireFrame : UInt64} :
    (t.deferred free).phase i = .retiring retireFrame.toNat ↔
      i < t.capacity.toNat ∧ (t.slots i).retiring = true ∧
        (t.slots i).retireFrame = retireFrame := by
  by_cases hi : i < t.capacity.toNat
  · rw [deferred_phase hi, RenderHandleSlot.phase, ← UInt64.toNat_inj]
    cases halive : (t.slots i).alive with
    | true => simp [inv.exclusive i hi halive]
    | false => cases (t.slots i).retiring <;> simp [hi]
  · exact iff_of_false (by simp [deferred, hi]) fun h => hi h.1

def issuedSlot (slot : RenderHandleSlot) : RenderHandleSlot :=
  { slot with nextFree := freeNone, alive := true, retiring := false, retireFrame := 0 }

theorem Inv.live_lt (inv : t.Inv (i :: rest)) : t.liveCount.toNat < t.capacity.toNat := by
  rw [inv.live]
  exact DeferredSlots.aliveCount_lt inv.slots List.mem_cons_self

theorem Inv.alloc_cons (inv : t.Inv (i :: rest)) :
    renderHandleAlloc t = (handleMake i (t.slots i).generation.toNat,
      t.put i (issuedSlot (t.slots i)) (t.slots i).nextFree (t.liveCount + 1)) := by
  obtain ⟨hi, halive, hretiring⟩ := inv.mem_free.mp List.mem_cons_self
  obtain ⟨hhead, hne, hrest⟩ := inv.chain
  have hready : ¬ (t.address = 0 ∨ t.capacity = 0 ∨ t.capacity ≤ t.liveCount ∨
      t.freeHead = freeNone ∨ t.capacity ≤ t.freeHead) := by
    rw [UInt32.le_iff_toNat_le, UInt32.le_iff_toNat_le, ← UInt32.toNat_inj, ← UInt32.toNat_inj,
      hhead, UInt32.toNat_zero]
    have hlive := inv.live_lt
    have haddress := inv.address
    omega
  have hnext : ¬ ((t.slots i).alive = true ∨ (t.slots i).retiring = true ∨
      ((t.slots i).nextFree ≠ freeNone ∧ t.capacity ≤ (t.slots i).nextFree)) := by
    rw [halive, hretiring, UInt32.le_iff_toNat_le]
    rintro (hfalse | hfalse | ⟨hlinked, hge⟩)
    · cases hfalse
    · cases hfalse
    · obtain ⟨more, rfl, -⟩ := hrest.head_cons fun hnull => hlinked (UInt32.toNat_inj.mp hnull)
      have hmem := (inv.mem_free.mp (List.mem_cons_of_mem i List.mem_cons_self)).1
      exact Nat.not_lt_of_le hge hmem
  rw [renderHandleAlloc, if_neg hready]
  dsimp only
  rw [hhead, if_neg hnext]
  rfl

theorem Inv.issued (inv : t.Inv (i :: rest)) :
    (t.put i (issuedSlot (t.slots i)) (t.slots i).nextFree (t.liveCount + 1)).Inv rest ∧
      (t.put i (issuedSlot (t.slots i)) (t.slots i).nextFree (t.liveCount + 1)).deferred rest =
        (t.deferred (i :: rest)).issue i rest := by
  obtain ⟨hi, -⟩ := inv.mem_free.mp List.mem_cons_self
  have hdeferred : (t.put i (issuedSlot (t.slots i)) (t.slots i).nextFree
      (t.liveCount + 1)).deferred rest = (t.deferred (i :: rest)).issue i rest :=
    put_phase (i :: rest) hi rfl
  refine ⟨inv.put hi ?_ (fun _ => rfl) (inv.generation i hi) ?_ ?_, hdeferred⟩
  · exact inv.chain.2.2.update (List.nodup_cons.mp inv.slots.nodup).1 _
  · have hlive := inv.live_lt
    have hcapacity := inv.capacity_le
    rw [hdeferred, DeferredSlots.aliveCount_issue inv.slots rfl, ← inv.live, UInt32.toNat_add,
      UInt32.toNat_one, Nat.mod_eq_of_lt (by omega)]
  · rw [hdeferred]
    exact inv.slots.step (.issue rfl)

theorem Inv.alloc (inv : t.Inv free) :
    free = [] ∧ renderHandleAlloc t = (handleNull, t) ∨
      ∃ i rest u, free = i :: rest ∧
        renderHandleAlloc t = (handleMake i (t.slots i).generation.toNat, u) ∧ u.Inv rest ∧
        u.deferred rest = (t.deferred free).issue i rest := by
  cases free with
  | nil =>
    refine Or.inl ⟨rfl, if_pos ?_⟩
    exact Or.inr (Or.inr (Or.inr (Or.inl (UInt32.toNat_inj.mp inv.chain))))
  | cons i rest => exact Or.inr ⟨i, rest, _, rfl, inv.alloc_cons, inv.issued⟩

theorem valid_iff (t : RenderHandleTable) (h : Handle) : renderHandleValid t h = true ↔
    h ≠ handleNull ∧ handleIndex h < t.capacity.toNat ∧ (t.slots (handleIndex h)).alive = true ∧
      (t.slots (handleIndex h)).retiring = false ∧
      (t.slots (handleIndex h)).generation.toNat = handleGen h := by
  rw [renderHandleValid, handleIsNull]
  by_cases hnull : h = handleNull
  · simp [hnull]
  · rw [if_neg (by simpa using hnull)]
    by_cases hinside : t.capacity.toNat ≤ handleIndex h
    · simp [hinside, Nat.not_lt_of_le hinside]
    · simp [hinside, Nat.lt_of_not_le hinside, hnull, and_assoc]

def retiredSlot (slot : RenderHandleSlot) (retireFrame : UInt64) : RenderHandleSlot :=
  { slot with alive := false, retiring := true, retireFrame := retireFrame }

theorem Inv.retired (inv : t.Inv free) (hi : i < t.capacity.toNat)
    (halive : (t.slots i).alive = true) (retireFrame : UInt64) :
    (t.put i (retiredSlot (t.slots i) retireFrame) t.freeHead (t.liveCount - 1)).Inv free ∧
      (t.put i (retiredSlot (t.slots i) retireFrame) t.freeHead (t.liveCount - 1)).deferred free =
        (t.deferred free).retire i retireFrame.toNat := by
  have hphase : (t.deferred free).phase i = .alive := (deferred_alive free).mpr ⟨hi, halive⟩
  have hdeferred : (t.put i (retiredSlot (t.slots i) retireFrame) t.freeHead
      (t.liveCount - 1)).deferred free = (t.deferred free).retire i retireFrame.toNat :=
    put_phase free hi rfl
  refine ⟨inv.put hi ?_ nofun (inv.generation i hi) ?_ ?_, hdeferred⟩
  · rw [show (retiredSlot (t.slots i) retireFrame).nextFree.toNat = t.next i from rfl,
      Function.update_eq_self]
    exact inv.chain
  · have hretire := DeferredSlots.aliveCount_retire hi hphase retireFrame.toNat
    have hlive := inv.live
    have hpositive : (1 : UInt32) ≤ t.liveCount := by
      rw [UInt32.le_iff_toNat_le, UInt32.toNat_one]
      omega
    rw [hdeferred, UInt32.toNat_sub_of_le _ _ hpositive, UInt32.toNat_one, hlive]
    exact Nat.sub_eq_of_eq_add hretire.symm
  · rw [hdeferred]
    exact inv.slots.step (.retire hphase)

theorem Inv.retire (inv : t.Inv free) (h : Handle) (retireFrame : UInt64) :
    renderHandleValid t h = false ∧ renderHandleRetire t h retireFrame = (false, t) ∨
      renderHandleValid t h = true ∧ ∃ u, renderHandleRetire t h retireFrame = (true, u) ∧
        u.Inv free ∧
        u.deferred free = (t.deferred free).retire (handleIndex h) retireFrame.toNat := by
  rw [renderHandleRetire]
  cases hvalid : renderHandleValid t h with
  | false => exact Or.inl ⟨rfl, rfl⟩
  | true =>
    obtain ⟨-, hi, halive, -, -⟩ := (valid_iff t h).mp hvalid
    exact Or.inr ⟨rfl, _, rfl, inv.retired hi halive retireFrame⟩

theorem nextGeneration_toNat {generation : UInt32} (hlt : generation.toNat < 2 ^ 14) :
    ((generation + 1) &&& handleGenMask).toNat =
      if generation = handleGenMask then 0 else generation.toNat + 1 := by
  have hone : (1 : UInt32).toNat = 1 := rfl
  rw [UInt32.toNat_and, handleGenMask_toNat, Nat.and_two_pow_sub_one_eq_mod, UInt32.toNat_add, hone,
    Nat.mod_eq_of_lt (Nat.lt_of_le_of_lt hlt (by decide : 2 ^ 14 < 2 ^ 32))]
  split
  · next heq =>
    rw [heq, handleGenMask_toNat]
    rfl
  · next hne =>
    rw [← UInt32.toNat_inj, handleGenMask_toNat] at hne
    exact Nat.mod_eq_of_lt (by omega)

def recycledSlot (slot : RenderHandleSlot) (freeHead : UInt32) : RenderHandleSlot :=
  { slot with
    retiring := false
    retireFrame := 0
    generation := (slot.generation + 1) &&& handleGenMask
    nextFree := freeHead }

theorem Inv.recycled (inv : t.Inv free) (hi : i < t.capacity.toNat)
    (hretiring : (t.slots i).retiring = true) (hwrap : (t.slots i).generation ≠ handleGenMask) :
    (t.put i (recycledSlot (t.slots i) t.freeHead) (UInt32.ofNat i) t.liveCount).Inv (i :: free) ∧
      (t.put i (recycledSlot (t.slots i) t.freeHead) (UInt32.ofNat i) t.liveCount).deferred
          (i :: free) = (t.deferred free).release [i] := by
  have hcapacity := inv.capacity_le
  have hindex : (UInt32.ofNat i).toNat = i :=
    UInt32.toNat_ofNat_of_lt' (by simp only [UInt32.size]; omega)
  have halive : (t.slots i).alive = false := by
    cases halive : (t.slots i).alive with
    | false => rfl
    | true => exact hretiring.symm.trans (inv.exclusive i hi halive)
  have hphase : (t.deferred free).phase i = .retiring (t.slots i).retireFrame.toNat :=
    inv.retiring.mpr ⟨hi, hretiring, rfl⟩
  have hwaiting : ∀ j ∈ [i], ∃ due, (t.deferred free).phase j = .retiring due := by
    intro j hj
    rw [List.mem_singleton.mp hj]
    exact ⟨_, hphase⟩
  have hfresh : i ∉ free := fun hmem => by
    cases hphase.symm.trans ((inv.slots.mem_free i).mp hmem).2
  have hlt := (inv.generation i hi).2
  have hnext : (recycledSlot (t.slots i) t.freeHead).generation.toNat =
      (t.slots i).generation.toNat + 1 :=
    (nextGeneration_toNat hlt).trans (if_neg hwrap)
  have hdeferred : (t.put i (recycledSlot (t.slots i) t.freeHead) (UInt32.ofNat i)
      t.liveCount).deferred (i :: free) = (t.deferred free).release [i] := by
    rw [put_deferred free hi, DeferredSlots.release]
    ext j
    · rfl
    · by_cases hj : j = i
      · subst hj
        rw [hnext, ← deferred_generation free hi]
        simp
      · simp [hj]
    · by_cases hj : j = i
      · subst hj
        simp [recycledSlot, RenderHandleSlot.phase, halive]
      · simp [hj]
    · rfl
  refine ⟨inv.put hi ?_ (fun _ => rfl) ?_ ?_ ?_, hdeferred⟩
  · rw [hindex]
    exact inv.chain.push hfresh (by rw [freeNone_toNat]; omega)
  · have hmask : (t.slots i).generation.toNat ≠ 2 ^ 14 - 1 := by
      rw [← handleGenMask_toNat]
      exact fun heq => hwrap (UInt32.toNat_inj.mp heq)
    rw [hnext]
    omega
  · rw [hdeferred, DeferredSlots.aliveCount_release hwaiting]
    exact inv.live
  · rw [hdeferred]
    exact inv.slots.release (List.nodup_singleton i) hwaiting

section

variable {User : Type} (release : Option (User → Nat → User)) {user : User}

theorem Inv.released (inv : t.Inv free) (hi : i < t.capacity.toNat)
    (hretiring : (t.slots i).retiring = true) :
    (t.slots i).generation = handleGenMask ∧ releaseSlot release t i user = none ∨
      (t.slots i).generation ≠ handleGenMask ∧
        ∃ u, releaseSlot release t i user =
            some (u, release.elim user fun release => release user i) ∧
          u.Inv (i :: free) ∧ u.deferred (i :: free) = (t.deferred free).release [i] ∧
          u.capacity = t.capacity ∧ ∀ j, j ≠ i → u.slots j = t.slots j := by
  have hnext := nextGeneration_toNat (inv.generation i hi).2
  rw [releaseSlot]
  dsimp only
  by_cases hwrap : (t.slots i).generation = handleGenMask
  · rw [if_pos hwrap] at hnext
    exact Or.inl ⟨hwrap, if_pos (UInt32.toNat_inj.mp hnext)⟩
  · have hnonzero : (t.slots i).generation + 1 &&& handleGenMask ≠ 0 := fun hzero => by
      rw [hzero, if_neg hwrap] at hnext
      exact Nat.noConfusion hnext
    obtain ⟨hinv, hdeferred⟩ := inv.recycled hi hretiring hwrap
    exact Or.inr ⟨hwrap, _, if_neg hnonzero, hinv, hdeferred, rfl, fun j hj => put_of_ne hj⟩

def dueSlots (t : RenderHandleTable) (now : UInt64) (n : Nat) : List Nat :=
  (List.range n).filter fun i => decide (t.Due now i)

theorem dueSlots_succ_due {now : UInt64} (hdue : t.Due now i) :
    t.dueSlots now (i + 1) = t.dueSlots now i ++ [i] := by
  simp [dueSlots, List.range_succ, hdue]

theorem dueSlots_succ_not {now : UInt64} (hdue : ¬ t.Due now i) :
    t.dueSlots now (i + 1) = t.dueSlots now i := by
  simp [dueSlots, List.range_succ, hdue]

theorem not_mem_dueSlots (t : RenderHandleTable) (now : UInt64) (i : Nat) :
    i ∉ t.dueSlots now i := by
  simp [dueSlots]

theorem Inv.dueSlots_eq (inv : t.Inv free) (now : UInt64) :
    t.dueSlots now t.capacity.toNat = (t.deferred free).due now.toNat := by
  refine List.filter_congr fun i hi => ?_
  have hlt : i < t.capacity.toNat := List.mem_range.mp hi
  rw [deferred_phase hlt, RenderHandleSlot.phase]
  cases halive : (t.slots i).alive with
  | true => simp [Due, inv.exclusive i hlt halive, SlotPhase.dueBy]
  | false =>
    cases hretiring : (t.slots i).retiring with
    | true => simp [Due, hretiring, SlotPhase.dueBy, UInt64.le_iff_toNat_le]
    | false => simp [Due, hretiring, SlotPhase.dueBy]

structure Collected (t : RenderHandleTable) (free : List Nat) (now : UInt64) (user : User) (k : Nat)
    (r : RenderHandleTable × User) : Prop where
  inv : r.1.Inv ((t.dueSlots now k).reverse ++ free)
  deferred : r.1.deferred ((t.dueSlots now k).reverse ++ free) =
    (t.deferred free).release (t.dueSlots now k)
  user : r.2 = release.elim user fun release => (t.dueSlots now k).foldl release user
  capacity : r.1.capacity = t.capacity
  ahead : ∀ i, k ≤ i → r.1.slots i = t.slots i
  generations : ∀ i ∈ t.dueSlots now k, (t.slots i).generation ≠ handleGenMask

theorem Collected.start (inv : t.Inv free) (now : UInt64) (user : User) :
    Collected release t free now user 0 (t, user) where
  inv := inv
  deferred := (DeferredSlots.release_nil _).symm
  user := by cases release <;> rfl
  capacity := rfl
  ahead _ _ := rfl
  generations := nofun

theorem Collected.skip {now : UInt64} {r : RenderHandleTable × User}
    (h : Collected release t free now user i r) (hdue : ¬ t.Due now i) :
    Collected release t free now user (i + 1) r := by
  obtain ⟨hinv, hdeferred, huser, hcapacity, hahead, hgenerations⟩ := h
  rw [← dueSlots_succ_not hdue] at hinv hdeferred huser hgenerations
  exact ⟨hinv, hdeferred, huser, hcapacity, fun j hj => hahead j (Nat.le_of_succ_le hj),
    hgenerations⟩

theorem Collected.take {now : UInt64} {r : RenderHandleTable × User}
    (h : Collected release t free now user i r) (hi : i < t.capacity.toNat)
    (hdue : t.Due now i) :
    Outcome (t.WrapsAt now) (Collected release t free now user (i + 1))
      (ChoonzMoba.releaseSlot release r.1 i r.2) := by
  obtain ⟨u, user'⟩ := r
  obtain ⟨hinv, hdeferred, huser, hcapacity, hahead, hgenerations⟩ := h
  have hslot : u.slots i = t.slots i := hahead i (Nat.le_refl i)
  have hretiring : (u.slots i).retiring = true := hslot ▸ hdue.1
  have hinside : i < u.capacity.toNat := hcapacity ▸ hi
  rcases hinv.released release hinside hretiring with
    ⟨hwrap, habort⟩ | ⟨hwrap, v, hrelease, hv, hvdeferred, hvcapacity, hvahead⟩
  · rw [habort]
    exact .aborted ⟨i, hi, hdue, hslot ▸ hwrap⟩
  · rw [hrelease]
    refine .returned ⟨?_, ?_, ?_, ?_, ?_, ?_⟩
    · rw [dueSlots_succ_due hdue, List.reverse_append]
      exact hv
    · rw [dueSlots_succ_due hdue, List.reverse_append]
      rw [← DeferredSlots.release_append _ (t.not_mem_dueSlots now i), ← hdeferred]
      exact hvdeferred
    · rw [dueSlots_succ_due hdue]
      dsimp only at huser ⊢
      rw [huser]
      cases release with
      | none => rfl
      | some release => simp
    · exact hvcapacity.trans hcapacity
    · intro j hj
      exact (hvahead j (Nat.ne_of_gt hj)).trans (hahead j (Nat.le_of_succ_le hj))
    · intro j hj
      rw [dueSlots_succ_due hdue, List.mem_append, List.mem_singleton] at hj
      rcases hj with hj | rfl
      · exact hgenerations j hj
      · exact hslot ▸ hwrap

theorem Inv.collect (inv : t.Inv free) (now : UInt64) (user : User) :
    Outcome (t.WrapsAt now) (Collected release t free now user t.capacity.toNat)
      (renderHandleCollect release t now user) := by
  refine Outcome.forRangeM (Collected release t free now user) (Collected.start release inv now user)
    fun i r hi hr => ?_
  have hslot := hr.ahead i (Nat.le_refl i)
  by_cases hdue : t.Due now i
  · have hreached : (r.1.slots i).retiring ∧ (r.1.slots i).retireFrame ≤ now := by
      rw [hslot]
      exact hdue
    dsimp only
    rw [if_pos hreached]
    exact hr.take release hi hdue
  · have hpassed : ¬ ((r.1.slots i).retiring ∧ (r.1.slots i).retireFrame ≤ now) := by
      rw [hslot]
      exact hdue
    dsimp only
    rw [if_neg hpassed]
    exact .returned (hr.skip release hdue)

theorem Collected.not_wraps {now : UInt64} {r : RenderHandleTable × User}
    (h : Collected release t free now user t.capacity.toNat r) : ¬ t.WrapsAt now := by
  rintro ⟨i, hi, hdue, hwrap⟩
  exact h.generations i (List.mem_filter.mpr ⟨List.mem_range.mpr hi, decide_eq_true hdue⟩) hwrap

end

end RenderHandleTable

end

end ChoonzMoba
