import ChoonzMoba.Core.HandlePoolSpec
import ChoonzMoba.Core.Pool

namespace ChoonzMoba

inductive IndexPoolEvent where
  | allocated (idx : UInt32)
  | freed (idx : UInt32)
  | written (idx : UInt32) (value : List UInt8)

def indexPoolSystem : System Pool IndexPoolEvent where
  initial p := ∃ (σ : Type) (al : Allocator σ) (state state' : σ) (layout : SlotLayout)
    (cap : UInt32) (memory : Nat → List UInt8),
    poolInit al state layout cap memory = some (p, state')
  next p event q :=
    match event with
    | .allocated idx => poolAlloc p = (idx, q)
    | .freed idx => q = poolFree p idx
    | .written idx value => q = poolWrite p idx value

namespace Pool

def outstanding : List IndexPoolEvent → List Nat
  | [] => []
  | .allocated idx :: past =>
    if idx = poolInvalid then outstanding past else idx.toNat :: outstanding past
  | .freed idx :: past => (outstanding past).erase idx.toNat
  | .written _ _ :: past => outstanding past

def freeStack (cap : Nat) : List IndexPoolEvent → List Nat
  | [] => List.range cap
  | .allocated idx :: past =>
    if idx = poolInvalid then freeStack cap past else (freeStack cap past).tail
  | .freed idx :: past => idx.toNat :: freeStack cap past
  | .written _ _ :: past => freeStack cap past

def Owned : List IndexPoolEvent → Prop
  | [] => True
  | .allocated _ :: past => Owned past
  | .freed idx :: past => idx.toNat ∈ outstanding past ∧ Owned past
  | .written idx _ :: past => idx.toNat ∈ outstanding past ∧ Owned past

def next (p : Pool) (i : Nat) : Nat := (loadLink (p.slots i)).toNat

structure Inv (p : Pool) (free taken : List Nat) : Prop where
  address : p.cap ≠ 0 → p.slotsAddress ≠ 0
  chain : Chain p.next poolInvalid.toNat p.freeHead.toNat free
  perm : (free ++ taken).Perm (List.range p.cap.toNat)
  count : p.count.toNat = taken.length

variable {p q : Pool} {free taken rest : List Nat} {idx : UInt32} {i : Nat}

theorem Inv.lt (inv : p.Inv free taken) (hi : i ∈ free ++ taken) : i < p.cap.toNat :=
  List.mem_range.mp (inv.perm.mem_iff.mp hi)

theorem Inv.nodup (inv : p.Inv free taken) : (free ++ taken).Nodup :=
  inv.perm.nodup_iff.mpr List.nodup_range

theorem Inv.length (inv : p.Inv free taken) : free.length + taken.length = p.cap.toNat := by
  rw [← List.length_append, inv.perm.length_eq, List.length_range]

theorem Inv.not_free (inv : p.Inv free taken) (hi : i ∈ taken) : i ∉ free :=
  fun hfree => (List.nodup_append.mp inv.nodup).2.2 i hfree i hi rfl

theorem ne_poolInvalid (hi : idx.toNat < p.cap.toNat) : idx ≠ poolInvalid := by
  rintro rfl
  have hcap := p.cap.toNat_lt
  rw [poolInvalid_toNat] at hi
  omega

structure Linked (p q : Pool) (n : Nat) : Prop where
  same : q = { p with slots := q.slots }
  link : ∀ i < n, q.next i = if i + 1 < p.cap.toNat then i + 1 else poolInvalid.toNat

theorem initSlot_loop (p : Pool) :
    Linked p (Loop.forRange p.cap.toNat initSlot p) p.cap.toNat := by
  refine Loop.forRange_invariant (fun n q => Linked p q n) ⟨rfl, fun _ hi => (by cases hi)⟩
    fun k q hk hq => ?_
  obtain ⟨hsame, hlink⟩ := hq
  have hcap : q.cap = p.cap := by rw [hsame]
  have hlt := p.cap.toNat_lt
  refine ⟨?_, fun i hi => ?_⟩
  · rw [initSlot]
    dsimp only
    rw [hsame]
  · rw [next, initSlot, hcap]
    dsimp only
    rcases Nat.lt_succ_iff_lt_or_eq.mp hi with hbefore | rfl
    · rw [Function.update_of_ne (Nat.ne_of_lt hbefore)]
      exact hlink i hbefore
    · rw [Function.update_self, loadLink_storeLink]
      split
      · exact UInt32.toNat_ofNat_of_lt' (by simp only [UInt32.size]; omega)
      · rfl

theorem poolInit_inv {σ : Type} {al : Allocator σ} {state state' : σ} {layout : SlotLayout}
    {cap : UInt32} {memory : Nat → List UInt8}
    (hinit : poolInit al state layout cap memory = some (p, state')) :
    p.Inv (List.range p.cap.toNat) [] := by
  rw [poolInit] at hinit
  split at hinit
  · next hcap =>
    cases hinit
    subst hcap
    exact ⟨fun hne => absurd rfl hne, rfl, .refl _, rfl⟩
  next hcap =>
  obtain ⟨slots, -, hinit⟩ := Option.bind_eq_some_iff.mp hinit
  split at hinit
  · cases hinit
  next haddress =>
  obtain ⟨rfl, -⟩ := Prod.mk.inj (Option.some_inj.mp hinit)
  have hpos : 0 < cap.toNat := Nat.pos_iff_ne_zero.mpr fun hzero => hcap (UInt32.toNat_inj.mp hzero)
  obtain ⟨hsame, hlink⟩ :=
    initSlot_loop { Pool.unallocated cap with slotsAddress := slots.1, slots := memory }
  dsimp only [unallocated] at hsame hlink ⊢
  generalize Loop.forRange cap.toNat initSlot _ = linked at hsame hlink ⊢
  have hlt := cap.toNat_lt
  rw [hsame]
  refine ⟨fun _ => haddress, Chain.range hpos ?_ hlink, ?_, rfl⟩
  · rw [poolInvalid_toNat]
    exact Nat.le_of_lt_succ hlt
  · rw [List.append_nil]


theorem Inv.alloc_empty (inv : p.Inv [] taken) : poolAlloc p = (poolInvalid, p) := by
  have hhead : p.freeHead = poolInvalid := UInt32.toNat_inj.mp inv.chain
  exact if_pos (.inr (.inr (.inr (.inl hhead))))

theorem Inv.alloc_head (inv : p.Inv (i :: rest) taken) :
    poolAlloc p = (p.freeHead,
      { p with freeHead := loadLink (p.slots i), count := p.count + 1 }) ∧
      p.freeHead.toNat = i := by
  obtain ⟨hhead, hne, hrest⟩ := inv.chain
  have hi : i < p.cap.toNat := inv.lt (List.mem_append_left _ List.mem_cons_self)
  have hlength := inv.length
  rw [List.length_cons] at hlength
  have hcap : p.cap ≠ 0 := fun hzero => by
    rw [hzero] at hi
    exact Nat.not_lt_zero i hi
  have hcount : ¬p.cap ≤ p.count := by
    rw [UInt32.le_iff_toNat_le, inv.count]
    omega
  have hinvalid : p.freeHead ≠ poolInvalid := fun heq => hne (hhead ▸ congrArg UInt32.toNat heq)
  have hbound : ¬p.cap ≤ p.freeHead := by
    rw [UInt32.le_iff_toNat_le, hhead]
    exact Nat.not_le_of_lt hi
  have hlink : ¬(loadLink (p.slots i) ≠ poolInvalid ∧ p.cap ≤ loadLink (p.slots i)) := by
    rintro ⟨hlinked, hover⟩
    obtain ⟨rest', rfl, -⟩ := hrest.head_cons fun heq => hlinked (UInt32.toNat_inj.mp heq)
    rw [UInt32.le_iff_toNat_le] at hover
    exact Nat.not_lt_of_le hover (inv.lt (List.mem_append_left _
      (List.mem_cons_of_mem i List.mem_cons_self)))
  refine ⟨?_, hhead⟩
  rw [poolAlloc, if_neg (by simp [inv.address hcap, hcap, hcount, hinvalid, hbound])]
  dsimp only
  rw [hhead, if_neg hlink]

theorem Inv.allocated (inv : p.Inv (i :: rest) taken) :
    Inv { p with freeHead := loadLink (p.slots i), count := p.count + 1 } rest (i :: taken) := by
  have hlength := inv.length
  rw [List.length_cons] at hlength
  have hlt := p.cap.toNat_lt
  refine ⟨inv.address, inv.chain.2.2, ?_, ?_⟩
  · exact List.perm_middle.trans inv.perm
  · rw [UInt32.toNat_add, inv.count, List.length_cons]
    exact Nat.mod_eq_of_lt (by rw [UInt32.toNat_one]; omega)

theorem Inv.freed (inv : p.Inv free taken) (htaken : idx.toNat ∈ taken) :
    Inv (poolFree p idx) (idx.toNat :: free) (taken.erase idx.toNat) := by
  have hfree := inv.not_free htaken
  have hidx : idx.toNat < p.cap.toNat := inv.lt (List.mem_append_right _ htaken)
  have hnext : (poolFree p idx).next = Function.update p.next idx.toNat p.freeHead.toNat := by
    funext j
    rw [next, poolFree]
    dsimp only
    rcases eq_or_ne j idx.toNat with rfl | hne
    · rw [Function.update_self, Function.update_self, loadLink_storeLink]
    · rw [Function.update_of_ne hne, Function.update_of_ne hne, next]
  refine ⟨inv.address, ?_, ?_, ?_⟩
  · rw [hnext]
    exact inv.chain.push hfree fun heq => ne_poolInvalid hidx (UInt32.toNat_inj.mp heq)
  · refine List.Perm.trans ?_ inv.perm
    rw [List.cons_append]
    exact (List.perm_middle.symm.trans (List.Perm.append_left _ (List.perm_cons_erase htaken).symm))
  · have hpos := List.length_pos_of_mem htaken
    rw [List.length_erase_of_mem htaken, ← inv.count]
    rw [← inv.count] at hpos
    exact UInt32.toNat_sub_of_le _ _ (UInt32.le_iff_toNat_le.mpr hpos)

theorem Inv.written (inv : p.Inv free taken) (htaken : idx.toNat ∈ taken) (value : List UInt8) :
    Inv (poolWrite p idx value) free taken := by
  refine ⟨inv.address, inv.chain.congr fun node hnode => ?_, inv.perm, inv.count⟩
  rw [next, poolWrite]
  dsimp only
  rw [Function.update_of_ne (ne_of_mem_of_not_mem hnode (inv.not_free htaken)), next]

variable {past : List IndexPoolEvent} {event : IndexPoolEvent}

def Agrees (p : Pool) (past : List IndexPoolEvent) : Prop :=
  p.Inv (freeStack p.cap.toNat past) (outstanding past)

theorem Agrees.step (h : p.Agrees past) (howned : Owned (event :: past))
    (hnext : indexPoolSystem.next p event q) : q.Agrees (event :: past) := by
  rw [Agrees] at h ⊢
  cases event with
  | allocated idx =>
    have halloc : poolAlloc p = (idx, q) := hnext
    rw [freeStack, outstanding]
    generalize hstack : freeStack p.cap.toNat past = stack at h
    cases stack with
    | nil =>
      rw [h.alloc_empty] at halloc
      obtain ⟨rfl, rfl⟩ := Prod.mk.inj halloc
      rw [if_pos rfl, if_pos rfl, hstack]
      exact h
    | cons i rest =>
      obtain ⟨heq, hhead⟩ := h.alloc_head
      rw [heq] at halloc
      obtain ⟨rfl, rfl⟩ := Prod.mk.inj halloc
      have hi : p.freeHead.toNat < p.cap.toNat := by
        rw [hhead]
        exact h.lt (List.mem_append_left _ List.mem_cons_self)
      rw [if_neg (ne_poolInvalid hi), if_neg (ne_poolInvalid hi), hstack, hhead]
      exact h.allocated
  | freed idx =>
    cases hnext
    exact h.freed howned.1
  | written idx value =>
    cases hnext
    exact h.written howned.1 value

theorem Owned.tail (h : Owned (event :: past)) : Owned past := by
  cases event with
  | allocated idx => exact h
  | freed idx => exact h.2
  | written idx value => exact h.2

theorem agrees_run (h : indexPoolSystem.Trace past p) (howned : Owned past) : p.Agrees past := by
  induction h with
  | start hs =>
    obtain ⟨_, _, _, _, _, _, _, hinit⟩ := hs
    exact poolInit_inv hinit
  | step _ hnext ih => exact (ih howned.tail).step howned hnext

structure Safe (p : Pool) (past : List IndexPoolEvent) : Prop where
  distinct : (outstanding past).Nodup
  below : ∀ i ∈ outstanding past, i < p.cap.toNat
  count : p.count.toNat = (outstanding past).length
  invalid : (poolAlloc p).1 = poolInvalid ↔ (outstanding past).length = p.cap.toNat
  latest : ∀ i rest, freeStack p.cap.toNat past = i :: rest →
    (poolAlloc p).1.toNat = i ∧ i ∉ outstanding past
  list : Chain p.next poolInvalid.toNat p.freeHead.toNat (freeStack p.cap.toNat past)
  once : (freeStack p.cap.toNat past ++ outstanding past).Perm (List.range p.cap.toNat)
  write : ∀ idx value, idx.toNat ∈ outstanding past →
    (poolWrite p idx value).freeHead = p.freeHead ∧
      ∀ i ∈ freeStack p.cap.toNat past, (poolWrite p idx value).next i = p.next i

theorem Agrees.safe (h : p.Agrees past) : p.Safe past where
  distinct := (List.nodup_append.mp h.nodup).2.1
  below i hi := h.lt (List.mem_append_right _ hi)
  count := h.count
  invalid := by
    have hlength := h.length
    rw [Agrees] at h
    generalize freeStack p.cap.toNat past = stack at h hlength
    cases stack with
    | nil =>
      rw [h.alloc_empty]
      exact iff_of_true rfl (by rwa [List.length_nil, Nat.zero_add] at hlength)
    | cons i rest =>
      obtain ⟨heq, hhead⟩ := h.alloc_head
      rw [List.length_cons] at hlength
      refine iff_of_false ?_ (by omega)
      rw [heq]
      exact ne_poolInvalid (by
        rw [hhead]
        exact h.lt (List.mem_append_left _ List.mem_cons_self))
  latest i rest hstack := by
    rw [Agrees, hstack] at h
    obtain ⟨heq, hhead⟩ := h.alloc_head
    refine ⟨?_, fun htaken => h.not_free htaken List.mem_cons_self⟩
    rw [heq]
    exact hhead
  list := h.chain
  once := h.perm
  write idx value htaken := by
    refine ⟨rfl, fun i hi => ?_⟩
    rw [next, poolWrite]
    dsimp only
    rw [Function.update_of_ne (ne_of_mem_of_not_mem hi (h.not_free htaken)), next]

end Pool

theorem pool_never_twice (past : List IndexPoolEvent) (p : Pool)
    (h : indexPoolSystem.Trace past p) (howned : Pool.Owned past) : p.Safe past :=
  (Pool.agrees_run h howned).safe

def samplePool : Pool where
  slotsAddress := 64
  slots := (Loop.forRange 2 Pool.initSlot
    { Pool.unallocated 2 with slotsAddress := 64, slots := fun _ => [0, 0, 0, 0] }).slots
  cap := 2
  freeHead := 0
  count := 0

theorem samplePool_initial : indexPoolSystem.initial samplePool :=
  ⟨Unit, ⟨fun _ _ _ _ _ => some (64, ())⟩, (), (), ⟨4, 4⟩, 2, fun _ => [0, 0, 0, 0], rfl⟩

theorem pool_never_twice_reused :
    Pool.Safe (poolFree (poolAlloc (poolAlloc samplePool).2).2 0)
      [.freed 0, .allocated 1, .allocated 0] :=
  pool_never_twice _ _ (.step (.step (.step (.start samplePool_initial) rfl) rfl) rfl)
    ⟨by decide, trivial⟩

end ChoonzMoba
