import ChoonzMoba.Core.HandlePool
import ChoonzMoba.Library.Chain
import ChoonzMoba.Library.DeferredSlots

namespace ChoonzMoba

theorem loadLink_storeLink (slot : List UInt8) (link : UInt32) :
    loadLink (storeLink slot link) = link := by
  have hlen : (LittleEndian.encode 4 link.toNat).length = 4 := LittleEndian.encode_length 4 _
  rw [loadLink, storeLink, List.take_left' hlen, LittleEndian.decode_encode_of_lt link.toNat_lt,
    UInt32.ofNat_toNat]

theorem poolInvalid_toNat : poolInvalid.toNat = 2 ^ 32 - 1 := by decide

namespace HandlePool

def next (p : HandlePool) (i : Nat) : Nat := (loadLink (p.slots i)).toNat

def deferred (p : HandlePool) (free : List Nat) : DeferredSlots Nat where
  capacity := p.cap.toNat
  generation i := if i < p.cap.toNat then max 1 (p.gen i).toNat else 1
  phase i := if i < p.cap.toNat ∧ i ∉ free then .alive else .free
  free := free

structure Inv (p : HandlePool) (free : List Nat) : Prop where
  addresses : p.cap ≠ 0 → p.slotsAddress ≠ 0 ∧ p.genAddress ≠ 0
  cap_le : p.cap.toNat ≤ 2 ^ 18
  chain : Chain p.next poolInvalid.toNat p.freeHead.toNat free
  gen : ∀ i < p.cap.toNat, (p.gen i).toNat < 2 ^ 14
  issued : ∀ i < p.cap.toNat, i ∉ free → p.gen i ≠ 0
  count : p.count.toNat = (p.deferred free).aliveCount
  slots : (p.deferred free).Inv

variable {p q : HandlePool} {free rest : List Nat} {i j : Nat} {h : Handle}

theorem deferred_alive : (p.deferred free).phase i = .alive ↔ i < p.cap.toNat ∧ i ∉ free := by
  rw [deferred]
  dsimp only
  split
  · next hin => exact iff_of_true rfl hin
  · next hout => exact iff_of_false nofun hout

theorem deferred_generation (free : List Nat) (hi : i < p.cap.toNat) :
    (p.deferred free).generation i = max 1 (p.gen i).toNat :=
  if_pos hi

theorem Inv.free_lt (inv : p.Inv free) (hi : i ∈ free) : i < p.cap.toNat :=
  ((inv.slots.mem_free i).mp hi).1

theorem handlepoolValid_iff (p : HandlePool) (h : Handle) : handlepoolValid p h = true ↔
    handleGen h ≠ 0 ∧ handleIndex h < p.cap.toNat ∧
      (p.gen (handleIndex h)).toNat = handleGen h := by
  simp [handlepoolValid, and_assoc]

theorem empty_inv (hcap : p.cap = 0) (hhead : p.freeHead = poolInvalid)
    (hcount : p.count = 0) : p.Inv [] where
  addresses hne := absurd hcap hne
  cap_le := by rw [hcap]; decide
  chain := congrArg UInt32.toNat hhead
  gen i hi := by rw [hcap] at hi; exact absurd hi (Nat.not_lt_zero i)
  issued i hi := by rw [hcap] at hi; exact absurd hi (Nat.not_lt_zero i)
  count := by
    rw [hcount, DeferredSlots.aliveCount, deferred, hcap]
    rfl
  slots := by
    refine ⟨List.nodup_nil, fun i => ?_, fun i hi => if_neg fun hin => Nat.not_lt_of_le hi hin.1⟩
    refine iff_of_false List.not_mem_nil fun hin => ?_
    have hlt : i < p.cap.toNat := hin.1
    rw [hcap] at hlt
    exact Nat.not_lt_zero i hlt

structure Linked (p q : HandlePool) (n : Nat) : Prop where
  same : q = { p with slots := q.slots, gen := q.gen }
  gen : ∀ i < n, q.gen i = 0
  link : ∀ i < n, q.next i = if i + 1 < p.cap.toNat then i + 1 else poolInvalid.toNat

theorem initSlot_loop (p : HandlePool) (hle : p.cap.toNat ≤ 2 ^ 18) :
    Linked p (Loop.forRange p.cap.toNat initSlot p) p.cap.toNat := by
  refine Loop.forRange_invariant (fun n q => Linked p q n) ⟨rfl, nofun, nofun⟩ fun k q hk hq => ?_
  obtain ⟨hsame, hgen, hlink⟩ := hq
  have hcap : q.cap = p.cap := by rw [hsame]
  refine ⟨?_, fun i hi => ?_, fun i hi => ?_⟩
  · rw [initSlot]
    dsimp only
    rw [hsame]
  · by_cases hik : i = k
    · subst hik
      exact Function.update_self _ _ _
    · exact (Function.update_of_ne hik _ _).trans (hgen i (by omega))
  · by_cases hik : i = k
    · subst hik
      rw [next, initSlot, hcap]
      dsimp only
      rw [Function.update_self, loadLink_storeLink]
      split
      · exact UInt32.toNat_ofNat_of_lt' (by simp only [UInt32.size]; omega)
      · rfl
    · rw [next, initSlot]
      dsimp only
      rw [Function.update_of_ne hik]
      exact hlink i (by omega)

theorem linked_inv (haddresses : q.slotsAddress ≠ 0 ∧ q.genAddress ≠ 0) (hpos : 0 < q.cap.toNat)
    (hle : q.cap.toNat ≤ 2 ^ 18) (hcount : q.count = 0) (hgen : ∀ i < q.cap.toNat, q.gen i = 0)
    (hlink : ∀ i < q.cap.toNat,
      q.next i = if i + 1 < q.cap.toNat then i + 1 else poolInvalid.toNat) :
    Inv { q with freeHead := 0 } (List.range q.cap.toNat) ∧
      deferred { q with freeHead := 0 } (List.range q.cap.toNat) = .fresh q.cap.toNat := by
  have hslots : deferred { q with freeHead := 0 } (List.range q.cap.toNat) =
      .fresh q.cap.toNat := by
    ext i
    · rfl
    · simp only [deferred, DeferredSlots.fresh]
      split
      · next hi => rw [hgen i hi]; rfl
      · rfl
    · exact if_neg fun hin => hin.2 (List.mem_range.mpr hin.1)
    · rfl
  refine ⟨⟨fun _ => haddresses, hle, ?_, fun i hi => ?_, fun i hi hout => ?_, ?_, ?_⟩, hslots⟩
  · refine Chain.range hpos ?_ hlink
    rw [poolInvalid_toNat]
    omega
  · rw [hgen i hi]
    decide
  · exact absurd (List.mem_range.mpr hi) hout
  · rw [hslots, hcount]
    exact (List.countP_eq_zero.mpr fun _ _ => Bool.false_ne_true).symm
  · rw [hslots]
    exact DeferredSlots.fresh_inv _

theorem linkSlots_inv (haddresses : p.slotsAddress ≠ 0 ∧ p.genAddress ≠ 0)
    (hpos : 0 < p.cap.toNat) (hle : p.cap.toNat ≤ 2 ^ 18) (hcount : p.count = 0) :
    (Inv { Loop.forRange p.cap.toNat initSlot p with freeHead := 0 }
        (List.range (Loop.forRange p.cap.toNat initSlot p).cap.toNat) ∧
      deferred { Loop.forRange p.cap.toNat initSlot p with freeHead := 0 }
          (List.range (Loop.forRange p.cap.toNat initSlot p).cap.toNat) =
        .fresh (Loop.forRange p.cap.toNat initSlot p).cap.toNat) ∧
      ∀ i < (Loop.forRange p.cap.toNat initSlot p).cap.toNat,
        (Loop.forRange p.cap.toNat initSlot p).gen i = 0 := by
  obtain ⟨hsame, hgen, hlink⟩ := initSlot_loop p hle
  generalize Loop.forRange p.cap.toNat initSlot p = q at hsame hgen hlink ⊢
  have hcap : q.cap = p.cap := by rw [hsame]
  rw [← hcap] at hpos hle hgen hlink
  refine ⟨linked_inv ?_ hpos hle ?_ hgen hlink, hgen⟩
  · rw [hsame]
    exact haddresses
  · rw [hsame]
    exact hcount

theorem handlepoolInit_inv {σ : Type} {al : Allocator σ} {state state' : σ} {layout : SlotLayout}
    {cap : UInt32} {memory : (Nat → List UInt8) × (Nat → UInt32)}
    (hinit : handlepoolInit al state layout cap memory = some (p, state')) :
    (p.Inv (List.range p.cap.toNat) ∧
      p.deferred (List.range p.cap.toNat) = .fresh p.cap.toNat) ∧
      ∀ i < p.cap.toNat, p.gen i = 0 := by
  rw [handlepoolInit] at hinit
  split at hinit
  · cases hinit
  next hbound =>
  split at hinit
  · next hcap =>
    cases hinit
    subst hcap
    refine ⟨⟨empty_inv rfl rfl rfl, ?_⟩, fun _ _ => rfl⟩
    ext i <;> simp [deferred, unallocated, DeferredSlots.fresh]
  next hcap =>
  obtain ⟨slots, -, hinit⟩ := Option.bind_eq_some_iff.mp hinit
  obtain ⟨gen, -, hinit⟩ := Option.bind_eq_some_iff.mp hinit
  split at hinit
  · cases hinit
  next haddresses =>
  rw [not_or] at haddresses
  have hindex : (handleIndexMask + 1).toNat = 2 ^ 18 := by decide
  rw [UInt32.not_lt, UInt32.le_iff_toNat_le, hindex] at hbound
  have hpos : 0 < cap.toNat := Nat.pos_iff_ne_zero.mpr fun hzero => hcap (UInt32.toNat_inj.mp hzero)
  obtain ⟨rfl, -⟩ := Prod.mk.inj (Option.some_inj.mp hinit)
  exact linkSlots_inv haddresses hpos hbound rfl

def taken (p : HandlePool) (i : Nat) (value : List UInt8) : HandlePool :=
  { p with
    freeHead := loadLink (p.slots i)
    gen := Function.update p.gen i (if p.gen i = 0 then 1 else p.gen i)
    slots := Function.update p.slots i value
    count := p.count + 1 }

theorem issuedGen_toNat (gen : UInt32) : (if gen = 0 then 1 else gen).toNat = max 1 gen.toNat := by
  split
  · next hnew => rw [hnew]; rfl
  · next hused =>
    rw [← UInt32.toNat_inj, UInt32.toNat_zero] at hused
    omega

theorem taken_gen (p : HandlePool) (i : Nat) (value : List UInt8) :
    ((p.taken i value).gen i).toNat = max 1 (p.gen i).toNat := by
  rw [taken]
  dsimp only
  rw [Function.update_self, issuedGen_toNat]

theorem taken_gen_of_ne (value : List UInt8) (hj : j ≠ i) : (p.taken i value).gen j = p.gen j :=
  Function.update_of_ne hj _ _

theorem taken_next_of_ne (value : List UInt8) (hj : j ≠ i) :
    (p.taken i value).next j = p.next j :=
  congrArg (fun slot => (loadLink slot).toNat) (Function.update_of_ne hj _ _)

theorem taken_deferred (value : List UInt8) (hi : i < p.cap.toNat) (hout : i ∉ rest) :
    (p.taken i value).deferred rest = (p.deferred (i :: rest)).issue i rest := by
  have hcap : (p.taken i value).cap = p.cap := rfl
  ext j
  · rfl
  · simp only [deferred, DeferredSlots.issue, hcap]
    by_cases hj : j = i
    · subst hj
      rw [taken_gen, Nat.max_eq_right (Nat.le_max_left 1 (p.gen j).toNat)]
    · rw [taken_gen_of_ne value hj]
  · by_cases hj : j = i
    · subst hj
      simp [deferred, DeferredSlots.issue, hcap, hi, hout]
    · simp [deferred, DeferredSlots.issue, hcap, hj]
  · rfl

theorem Inv.count_lt (inv : p.Inv (i :: rest)) : p.count.toNat < p.cap.toNat := by
  rw [inv.count]
  exact DeferredSlots.aliveCount_lt inv.slots List.mem_cons_self

theorem Inv.taken (inv : p.Inv (i :: rest)) (value : List UInt8) : (p.taken i value).Inv rest := by
  have hi := inv.free_lt List.mem_cons_self
  have hout := (List.nodup_cons.mp inv.slots.nodup).1
  have hgen := inv.gen i hi
  refine ⟨inv.addresses, inv.cap_le, ?_, fun j hj => ?_, fun j hj hmem => ?_, ?_, ?_⟩
  · exact inv.chain.2.2.congr fun j hj => taken_next_of_ne value (ne_of_mem_of_not_mem hj hout)
  · by_cases hji : j = i
    · subst hji
      rw [taken_gen]
      omega
    · rw [taken_gen_of_ne value hji]
      exact inv.gen j hj
  · by_cases hji : j = i
    · subst hji
      rw [← UInt32.toNat_inj.ne, taken_gen, UInt32.toNat_zero]
      omega
    · rw [taken_gen_of_ne value hji]
      exact inv.issued j hj fun hin => (List.mem_cons.mp hin).elim hji hmem
  · have hcount := inv.count_lt
    have hcap := inv.cap_le
    rw [taken_deferred value hi hout, DeferredSlots.aliveCount_issue inv.slots rfl, ← inv.count]
    exact (UInt32.toNat_add _ _).trans (Nat.mod_eq_of_lt (by rw [UInt32.toNat_one]; omega))
  · rw [taken_deferred value hi hout]
    exact inv.slots.step (.issue rfl)

theorem Inv.alloc_cons (inv : p.Inv (i :: rest)) (value : List UInt8) :
    handlepoolAlloc p value = (handleMake i (max 1 (p.gen i).toNat), p.taken i value) := by
  have hi := inv.free_lt List.mem_cons_self
  obtain ⟨hhead, hne, hrest⟩ := inv.chain
  have hcount := inv.count_lt
  have hgen := inv.gen i hi
  have hready : ¬ (p.slotsAddress = 0 ∨ p.genAddress = 0 ∨ p.cap = 0 ∨ p.cap ≤ p.count ∨
      p.freeHead = poolInvalid ∨ p.cap ≤ p.freeHead) := by
    obtain ⟨hslots, hgens⟩ := inv.addresses fun hempty =>
      Nat.ne_zero_of_lt hi (congrArg UInt32.toNat hempty)
    rw [UInt32.le_iff_toNat_le, UInt32.le_iff_toNat_le, ← UInt32.toNat_inj, ← UInt32.toNat_inj,
      hhead, UInt32.toNat_zero]
    omega
  have hnext : ¬ ((loadLink (p.slots i) ≠ poolInvalid ∧ p.cap ≤ loadLink (p.slots i)) ∨
      handleGenMask < p.gen i) := by
    rw [UInt32.le_iff_toNat_le, UInt32.lt_iff_toNat_lt, handleGenMask_toNat]
    rintro (⟨hlinked, hge⟩ | hlarge)
    · obtain ⟨more, rfl, -⟩ := hrest.head_cons fun hnull => hlinked (UInt32.toNat_inj.mp hnull)
      exact Nat.not_lt_of_le hge (inv.free_lt (List.mem_cons_of_mem i List.mem_cons_self))
    · omega
  rw [handlepoolAlloc, if_neg hready]
  dsimp only
  rw [hhead, if_neg hnext, issuedGen_toNat]
  rfl

theorem Inv.alloc (inv : p.Inv free) (value : List UInt8) :
    free = [] ∧ handlepoolAlloc p value = (handleNull, p) ∨
      ∃ i rest q, free = i :: rest ∧
        handlepoolAlloc p value = (handleMake i (max 1 (p.gen i).toNat), q) ∧ q.Inv rest ∧
        q.deferred rest = (p.deferred free).issue i rest ∧ q.cap = p.cap ∧
        (∀ j, j ≠ i → q.gen j = p.gen j) ∧ (q.gen i).toNat = max 1 (p.gen i).toNat := by
  cases free with
  | nil =>
    refine Or.inl ⟨rfl, if_pos ?_⟩
    exact Or.inr (Or.inr (Or.inr (Or.inr (Or.inl (UInt32.toNat_inj.mp inv.chain)))))
  | cons i rest =>
    have hi := inv.free_lt List.mem_cons_self
    have hout := (List.nodup_cons.mp inv.slots.nodup).1
    exact Or.inr ⟨i, rest, p.taken i value, rfl, inv.alloc_cons value, inv.taken value,
      taken_deferred value hi hout, rfl, fun j hj => taken_gen_of_ne value hj, taken_gen p i value⟩

theorem handlepoolFree_invalid (hinvalid : handlepoolValid p h = false) :
    handlepoolFree p h = (false, p) := by
  rw [handlepoolFree, hinvalid, Bool.not_false, if_pos rfl]

theorem handlepoolGet_eq (p : HandlePool) (h : Handle) : handlepoolGet p h =
    if handlepoolValid p h = true then some (handleIndex h) else none := by
  have hiff : (handleGen h = 0 ∨ p.cap.toNat ≤ handleIndex h ∨
      (p.gen (handleIndex h)).toNat ≠ handleGen h) ↔ ¬ handlepoolValid p h = true := by
    rw [handlepoolValid_iff]
    omega
  rw [handlepoolGet]
  by_cases hvalid : handlepoolValid p h = true
  · rw [if_pos hvalid]
    exact if_neg fun hbad => hiff.mp hbad hvalid
  · rw [if_neg hvalid]
    exact if_pos (hiff.mpr hvalid)

def returned (p : HandlePool) (i : Nat) : HandlePool :=
  { p with
    gen := Function.update p.gen i (p.gen i + 1)
    slots := Function.update p.slots i (storeLink (p.slots i) p.freeHead)
    freeHead := UInt32.ofNat i
    count := p.count - 1 }

theorem nextGen_toNat {gen : UInt32} (hlast : gen.toNat + 1 < 2 ^ 14) :
    (gen + 1).toNat = gen.toNat + 1 := by
  rw [UInt32.toNat_add, UInt32.toNat_one, Nat.mod_eq_of_lt (by omega)]

theorem returned_gen (hlast : (p.gen i).toNat + 1 < 2 ^ 14) :
    ((p.returned i).gen i).toNat = (p.gen i).toNat + 1 := by
  rw [returned]
  dsimp only
  rw [Function.update_self, nextGen_toNat hlast]

theorem returned_gen_of_ne (hj : j ≠ i) : (p.returned i).gen j = p.gen j :=
  Function.update_of_ne hj _ _

theorem returned_next (p : HandlePool) (i : Nat) :
    (p.returned i).next = Function.update p.next i p.freeHead.toNat := by
  funext j
  rw [next, returned]
  dsimp only
  by_cases hj : j = i
  · subst hj
    rw [Function.update_self, Function.update_self, loadLink_storeLink]
  · rw [Function.update_of_ne hj, Function.update_of_ne hj, next]

theorem returned_deferred (free : List Nat) (hi : i < p.cap.toNat) (hissued : p.gen i ≠ 0)
    (hlast : (p.gen i).toNat + 1 < 2 ^ 14) :
    (p.returned i).deferred (i :: free) = ((p.deferred free).retire i 0).release [i] := by
  have hcap : (p.returned i).cap = p.cap := rfl
  rw [← UInt32.toNat_inj.ne, UInt32.toNat_zero] at hissued
  ext j
  · rfl
  · simp only [deferred, DeferredSlots.retire, DeferredSlots.release, List.mem_singleton, hcap]
    by_cases hj : j = i
    · subst hj
      rw [returned_gen hlast, if_pos hi, if_pos rfl, if_pos hi]
      omega
    · rw [returned_gen_of_ne hj, if_neg hj]
  · by_cases hj : j = i
    · subst hj
      simp [deferred, DeferredSlots.release]
    · simp [deferred, DeferredSlots.retire, DeferredSlots.release, hcap, hj]
  · rfl

theorem Inv.returned (inv : p.Inv free) (hi : i < p.cap.toNat) (hlive : i ∉ free)
    (hlast : (p.gen i).toNat + 1 < 2 ^ 14) : (p.returned i).Inv (i :: free) := by
  have hphase : (p.deferred free).phase i = .alive := deferred_alive.mpr ⟨hi, hlive⟩
  have hwaiting : ∀ j ∈ [i], ∃ due, ((p.deferred free).retire i 0).phase j = .retiring due := by
    intro j hj
    obtain rfl := List.mem_singleton.mp hj
    exact ⟨0, Function.update_self _ _ _⟩
  have hdeferred := returned_deferred free hi (inv.issued i hi hlive) hlast
  have hcap := inv.cap_le
  refine ⟨inv.addresses, hcap, ?_, fun j hj => ?_, fun j hj hout => ?_, ?_, ?_⟩
  · have hhead : (p.returned i).freeHead.toNat = i :=
      UInt32.toNat_ofNat_of_lt' (by simp only [UInt32.size]; omega)
    rw [returned_next, hhead]
    exact inv.chain.push hlive (by rw [poolInvalid_toNat]; omega)
  · by_cases hji : j = i
    · subst hji
      rw [returned_gen hlast]
      exact hlast
    · rw [returned_gen_of_ne hji]
      exact inv.gen j hj
  · rw [List.mem_cons, not_or] at hout
    rw [returned_gen_of_ne hout.1]
    exact inv.issued j hj hout.2
  · have hretire := DeferredSlots.aliveCount_retire hi hphase 0
    have hcount := inv.count
    have hpositive : (1 : UInt32) ≤ p.count := by
      rw [UInt32.le_iff_toNat_le, UInt32.toNat_one]
      omega
    rw [hdeferred, DeferredSlots.aliveCount_release hwaiting]
    refine (UInt32.toNat_sub_of_le _ _ hpositive).trans ?_
    rw [hcount, UInt32.toNat_one]
    exact Nat.sub_eq_of_eq_add hretire.symm
  · rw [hdeferred]
    exact (inv.slots.step (.retire hphase)).release (List.nodup_singleton i) hwaiting

theorem Inv.freed (inv : p.Inv free) (hvalid : handlepoolValid p h = true)
    (hlive : handleIndex h ∉ free) (hlast : handleGen h + 1 < 2 ^ 14) :
    ∃ q, handlepoolFree p h = (true, q) ∧ q.Inv (handleIndex h :: free) ∧
      q.deferred (handleIndex h :: free) =
        ((p.deferred free).retire (handleIndex h) 0).release [handleIndex h] ∧
      q.cap = p.cap ∧ (∀ j, j ≠ handleIndex h → q.gen j = p.gen j) ∧
      (q.gen (handleIndex h)).toNat = handleGen h + 1 := by
  obtain ⟨hpos, hi, hgen⟩ := (handlepoolValid_iff p h).mp hvalid
  rw [← hgen] at hlast ⊢
  have hbelow : ¬ handleGenMask < p.gen (handleIndex h) + 1 := by
    rw [UInt32.lt_iff_toNat_lt, handleGenMask_toNat, nextGen_toNat hlast]
    omega
  refine ⟨p.returned (handleIndex h), ?_, inv.returned hi hlive hlast,
    returned_deferred free hi (inv.issued _ hi hlive) hlast, rfl,
    fun j hj => returned_gen_of_ne hj, returned_gen hlast⟩
  rw [handlepoolFree, hvalid]
  dsimp only
  rw [if_neg hbelow]
  rfl

end HandlePool

end ChoonzMoba
