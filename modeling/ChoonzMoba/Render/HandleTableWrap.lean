import ChoonzMoba.Render.HandleTableRun

namespace ChoonzMoba

inductive RenderHandleCall where
  | alloc
  | retire (h : Handle) (retireFrame : UInt64)
  | collect (currentFrame : UInt64)

open RenderHandleTable

def RenderHandleTable.Allocatable (t : RenderHandleTable) (i : Nat) : Prop :=
  ∃ n, (renderHandleAlloc ((fun t => (renderHandleAlloc t).2)^[n] t)).1 ≠ handleNull ∧
    handleIndex (renderHandleAlloc ((fun t => (renderHandleAlloc t).2)^[n] t)).1 = i

section

variable {User : Type} (release : Option (User → Nat → User))

def renderHandleCall (t : RenderHandleTable) (user : User) :
    RenderHandleCall → Option (RenderHandleTable × User)
  | .alloc => some ((renderHandleAlloc t).2, user)
  | .retire h retireFrame => some ((renderHandleRetire t h retireFrame).2, user)
  | .collect currentFrame => renderHandleCollect release t currentFrame user

def renderHandleCalls : List RenderHandleCall → RenderHandleTable → User →
    Option (RenderHandleTable × User)
  | [], t, user => some (t, user)
  | call :: calls, t, user =>
    (renderHandleCall release t user call).bind fun r => renderHandleCalls calls r.1 r.2

/-- No call aborts, and what is collected can be handed out again at a generation in range. -/
def SoftWrap : List RenderHandleCall → RenderHandleTable → User → Prop
  | [], _, _ => True
  | call :: calls, t, user => ∃ r, renderHandleCall release t user call = some r ∧
      (∀ currentFrame, call = .collect currentFrame → ∀ i < t.capacity.toNat,
        t.Due currentFrame i → 1 ≤ (r.1.slots i).generation.toNat ∧
          (r.1.slots i).generation.toNat ≤ handleGenMask.toNat ∧ r.1.Allocatable i) ∧
      SoftWrap calls r.1 r.2

/-- No collection reaches a slot at its last generation. -/
def BelowWrap : List RenderHandleCall → RenderHandleTable → User → Prop
  | [], _, _ => True
  | call :: calls, t, user =>
    (∀ currentFrame, call = .collect currentFrame → ¬ t.WrapsAt currentFrame) ∧
      ∀ r, renderHandleCall release t user call = some r → BelowWrap calls r.1 r.2

instance (t : RenderHandleTable) (now : UInt64) : Decidable (t.WrapsAt now) :=
  inferInstanceAs (Decidable (∃ i < t.capacity.toNat, _ ∧ _))

instance (t : RenderHandleTable) (call : RenderHandleCall) :
    Decidable (∀ currentFrame, call = .collect currentFrame → ¬ t.WrapsAt currentFrame) :=
  match call with
  | .alloc | .retire _ _ => .isTrue nofun
  | .collect currentFrame => decidable_of_iff (¬ t.WrapsAt currentFrame)
      ⟨fun h _ heq => RenderHandleCall.collect.inj heq ▸ h, fun h => h _ rfl⟩

instance decidableBelowWrap : (calls : List RenderHandleCall) → (t : RenderHandleTable) →
    (user : User) → Decidable (BelowWrap release calls t user)
  | [], _, _ => .isTrue trivial
  | call :: calls, t, user =>
    have : Decidable (∀ r, renderHandleCall release t user call = some r →
        BelowWrap release calls r.1 r.2) :=
      match renderHandleCall release t user call with
      | none => .isTrue nofun
      | some r =>
        have := decidableBelowWrap calls r.1 r.2
        decidable_of_iff (BelowWrap release calls r.1 r.2)
          ⟨fun hr _ heq => Option.some.inj heq ▸ hr, fun hr => hr r rfl⟩
    inferInstanceAs (Decidable (_ ∧ _))

variable {t u : RenderHandleTable} {user : User} {free : List Nat} {i : Nat}

theorem RenderHandleTable.Inv.allocatable (inv : t.Inv free) (hi : i ∈ free) :
    t.Allocatable i := by
  induction free generalizing t with
  | nil => exact absurd hi List.not_mem_nil
  | cons j rest ih =>
    obtain ⟨hj, -⟩ := inv.mem_free.mp (List.mem_cons_self (a := j) (l := rest))
    obtain ⟨hpos, hlt⟩ := inv.generation j hj
    have hindex := Nat.lt_of_lt_of_le hj inv.capacity_le
    rcases inv.alloc with ⟨hnil, -⟩ | ⟨k, more, u, hcons, halloc, hu, -⟩
    · cases hnil
    · cases hcons
      rcases List.mem_cons.mp hi with rfl | hrest
      · refine ⟨0, ?_⟩
        rw [Function.iterate_zero_apply, halloc]
        exact ⟨handleMake_ne_null hindex hpos hlt, handleIndex_make hindex hlt⟩
      · obtain ⟨n, hn⟩ := ih hu hrest
        refine ⟨n + 1, ?_⟩
        rw [Function.iterate_succ_apply, halloc]
        exact hn

theorem RenderHandleTable.Inv.collected (inv : t.Inv free) {currentFrame : UInt64}
    {r : RenderHandleTable × User}
    (hcollect : renderHandleCollect release t currentFrame user = some r)
    (hi : i < t.capacity.toNat) (hdue : t.Due currentFrame i) :
    1 ≤ (r.1.slots i).generation.toNat ∧
      (r.1.slots i).generation.toNat ≤ handleGenMask.toNat ∧ r.1.Allocatable i := by
  have hdone := (inv.collect release currentFrame user).returns hcollect
  have hinside : i < r.1.capacity.toNat := hdone.capacity ▸ hi
  obtain ⟨hpos, hlt⟩ := hdone.inv.generation i hinside
  refine ⟨hpos, ?_, hdone.inv.allocatable (List.mem_append_left _ (List.mem_reverse.mpr ?_))⟩
  · rw [handleGenMask_toNat]
    omega
  · exact List.mem_filter.mpr ⟨List.mem_range.mpr hi, decide_eq_true hdue⟩

theorem RenderHandleTable.Inv.call (inv : t.Inv free) {call : RenderHandleCall}
    {r : RenderHandleTable × User} (hcall : renderHandleCall release t user call = some r) :
    ∃ free', r.1.Inv free' := by
  cases call with
  | alloc =>
    cases hcall
    rcases inv.alloc with ⟨-, hnone⟩ | ⟨i, rest, u, -, hsome, hu, -⟩
    · rw [hnone]
      exact ⟨free, inv⟩
    · rw [hsome]
      exact ⟨rest, hu⟩
  | retire h retireFrame =>
    cases hcall
    rcases inv.retire h retireFrame with ⟨-, hrejected⟩ | ⟨-, u, haccepted, hu, -⟩
    · rw [hrejected]
      exact ⟨free, inv⟩
    · rw [haccepted]
      exact ⟨free, hu⟩
  | collect currentFrame =>
    exact ⟨_, ((inv.collect release currentFrame user).returns hcall).inv⟩

theorem RenderHandleTable.Inv.call_returns (inv : t.Inv free) (user : User)
    (call : RenderHandleCall) : (∃ r, renderHandleCall release t user call = some r) ↔
      ∀ currentFrame, call = .collect currentFrame → ¬ t.WrapsAt currentFrame := by
  cases call with
  | alloc => exact iff_of_true ⟨_, rfl⟩ nofun
  | retire h retireFrame => exact iff_of_true ⟨_, rfl⟩ nofun
  | collect currentFrame =>
    constructor
    · rintro ⟨r, hr⟩ frame heq
      cases heq
      exact ((inv.collect release currentFrame user).returns hr).not_wraps
    · intro hbelow
      obtain ⟨r, hr, -⟩ := (inv.collect release currentFrame user).total (hbelow _ rfl)
      exact ⟨r, hr⟩

theorem softWrap_iff (inv : t.Inv free) (user : User) (calls : List RenderHandleCall) :
    SoftWrap release calls t user ↔ BelowWrap release calls t user := by
  induction calls generalizing t free user with
  | nil => exact Iff.rfl
  | cons call calls ih =>
    rw [SoftWrap, BelowWrap, ← inv.call_returns release user call]
    constructor
    · rintro ⟨r, hcall, -, hrest⟩
      refine ⟨⟨r, hcall⟩, fun r' hcall' => ?_⟩
      obtain rfl := Option.some_inj.mp (hcall.symm.trans hcall')
      obtain ⟨free', inv'⟩ := inv.call release hcall
      exact (ih inv' r.2).mp hrest
    · rintro ⟨⟨r, hcall⟩, hrest⟩
      obtain ⟨free', inv'⟩ := inv.call release hcall
      refine ⟨r, hcall, fun currentFrame heq i hi hdue => ?_, (ih inv' r.2).mpr (hrest r hcall)⟩
      subst heq
      exact inv.collected release hcall hi hdue

theorem SoftWrap.returns {calls : List RenderHandleCall} (h : SoftWrap release calls t user) :
    ∃ r, renderHandleCalls release calls t user = some r := by
  induction calls generalizing t user with
  | nil => exact ⟨_, rfl⟩
  | cons call calls ih =>
    obtain ⟨r, hcall, -, hrest⟩ := h
    obtain ⟨last, hlast⟩ := ih hrest
    exact ⟨last, by rw [renderHandleCalls, hcall, Option.bind_some, hlast]⟩

theorem not_softWrap {release : Option (User → Nat → User)} {calls : List RenderHandleCall}
    (h : renderHandleCalls release calls t user = none) : ¬ SoftWrap release calls t user := by
  intro hsoft
  obtain ⟨r, hr⟩ := hsoft.returns
  cases h.symm.trans hr

end

def reuseCycle (g : Nat) : List RenderHandleCall :=
  [.alloc, .retire (handleMake 0 g) 0, .collect 0]

def reuseCycles : Nat → List RenderHandleCall
  | 0 => []
  | n + 1 => reuseCycles n ++ reuseCycle (n + 1)

structure SlotReady (t : RenderHandleTable) (g : Nat) : Prop where
  inv : t.Inv [0]
  capacity : t.capacity = 1
  generation : (t.slots 0).generation.toNat = g

section

variable {t : RenderHandleTable} {g : Nat} {r : RenderHandleTable × Unit}

theorem renderHandleCalls_append {User : Type} (release : Option (User → Nat → User))
    (calls more : List RenderHandleCall) (t : RenderHandleTable) (user : User) :
    renderHandleCalls release (calls ++ more) t user =
      (renderHandleCalls release calls t user).bind fun r =>
        renderHandleCalls release more r.1 r.2 := by
  induction calls generalizing t user with
  | nil => rfl
  | cons call calls ih =>
    rw [List.cons_append, renderHandleCalls, renderHandleCalls, Option.bind_assoc]
    exact congrArg _ (funext fun r => ih r.1 r.2)

theorem SlotReady.cycle (h : SlotReady t g)
    (hcycle : renderHandleCalls none (reuseCycle g) t () = some r) : SlotReady r.1 (g + 1) := by
  obtain ⟨inv, hcapacity, hgeneration⟩ := h
  have hcap : t.capacity.toNat = 1 := congrArg UInt32.toNat hcapacity
  have hinside : 0 < t.capacity.toNat := inv.capacity_pos
  obtain ⟨hpos, hlt⟩ := inv.generation 0 hinside
  rw [hgeneration] at hpos hlt
  have hindex : handleIndex (handleMake 0 g) = 0 := handleIndex_make (by decide) hlt
  rcases inv.alloc with ⟨hnil, -⟩ | ⟨i, rest, u, hcons, halloc, hu, hissued⟩
  · cases hnil
  cases hcons
  have hucap : u.capacity.toNat = 1 := (congrArg DeferredSlots.capacity hissued).trans hcap
  have huphase : (u.deferred []).phase 0 = .alive := by
    simp [hissued, DeferredSlots.issue]
  have hualive : (u.slots 0).alive = true := ((deferred_alive []).mp huphase).2
  have hugen : (u.slots 0).generation.toNat = g := by
    rw [← deferred_generation [] hu.capacity_pos, hissued, ← hgeneration]
    exact deferred_generation [0] hinside
  have hvalid : renderHandleValid u (handleMake 0 g) = true := by
    rw [valid_iff, hindex]
    exact ⟨handleMake_ne_null (by decide) hpos hlt, hu.capacity_pos, hualive,
      hu.exclusive 0 hu.capacity_pos hualive, hugen.trans (handleGen_make (by decide) hlt).symm⟩
  rcases hu.retire (handleMake 0 g) 0 with ⟨hinvalid, -⟩ | ⟨-, v, hretire, hv, hretired⟩
  · exact absurd (hvalid.symm.trans hinvalid) Bool.noConfusion
  rw [hindex] at hretired
  have hcollect : renderHandleCollect none v 0 () = some r := by
    simp only [reuseCycle, renderHandleCalls, renderHandleCall, halloc, hretire, Option.bind_some]
      at hcycle
    exact (Option.bind_fun_some _).symm.trans hcycle
  have hdone := (hv.collect none 0 ()).returns hcollect
  have hvcap : v.capacity.toNat = 1 := (congrArg DeferredSlots.capacity hretired).trans hucap
  have hdue : v.dueSlots 0 v.capacity.toNat = [0] := by
    have hphase : (v.deferred []).phase 0 = .retiring 0 := by
      simp [hretired, DeferredSlots.retire]
    have hcapacity' : (v.deferred []).capacity = 1 := hvcap
    rw [hv.dueSlots_eq, DeferredSlots.due, hcapacity', List.range_one, List.filter_singleton, hphase]
    rfl
  have hinv := hdone.inv
  have hreleased := hdone.deferred
  rw [hdue] at hinv hreleased
  refine ⟨hinv, ?_, ?_⟩
  · rw [hdone.capacity]
    exact UInt32.toNat_inj.mp hvcap
  · rw [← deferred_generation [0] hinv.capacity_pos]
    refine (congrArg (fun s => s.generation 0) hreleased).trans ?_
    rw [hretired]
    show (u.deferred []).generation 0 + 1 = g + 1
    rw [deferred_generation [] hu.capacity_pos, hugen]

theorem SlotReady.cycles {n : Nat} (h : SlotReady t 1)
    (hcycles : renderHandleCalls none (reuseCycles n) t () = some r) : SlotReady r.1 (n + 1) := by
  induction n generalizing r with
  | zero =>
    cases hcycles
    exact h
  | succ n ih =>
    rw [reuseCycles, renderHandleCalls_append, Option.bind_eq_some_iff] at hcycles
    obtain ⟨q, hq, hcycle⟩ := hcycles
    exact (ih hq).cycle hcycle

theorem SlotReady.wraps (h : SlotReady t 1) :
    renderHandleCalls none (reuseCycles 16383) t () = none := by
  cases hcycles : renderHandleCalls none (reuseCycles 16383) t () with
  | none => rfl
  | some r =>
    obtain ⟨inv, -, hgeneration⟩ := h.cycles hcycles
    have hlt := (inv.generation 0 inv.capacity_pos).2
    omega

end

theorem renderHandleTable_soft_iff {User : Type} (release : Option (User → Nat → User))
    {arena pushed : Arena} {capacity : UInt32} {t : RenderHandleTable}
    (hinit : renderHandleTableInit arena capacity = some (pushed, some t)) (user : User)
    (calls : List RenderHandleCall) :
    SoftWrap release calls t user ↔ BelowWrap release calls t user :=
  softWrap_iff release (renderHandleTableInit_inv hinit).1 user calls

def smallArena : Arena := ⟨4096, 0, 64, 64, 0, none, 0, by decide⟩

def smallTable : RenderHandleTable := (RenderHandleTable.zeroed 4096 1).initSlot 0

theorem smallTable_init :
    renderHandleTableInit smallArena 1 =
      some ({ smallArena with offset := 24, highWater := 24 }, some smallTable) :=
  rfl

def reuseCalls : List RenderHandleCall :=
  [.alloc, .retire (handleMake 0 1) 3, .collect 2, .alloc, .collect 3, .alloc]

theorem renderHandleTable_soft_iff_reused :
    SoftWrap (some recordRelease) reuseCalls smallTable [] ∧
      (renderHandleCalls (some recordRelease) reuseCalls smallTable []).map (fun r =>
        (renderHandleValid r.1 (handleMake 0 2), r.2)) = some (true, [0]) :=
  ⟨(renderHandleTable_soft_iff _ smallTable_init [] _).mpr (by decide +kernel), by decide +kernel⟩

theorem renderHandleTable_wrap_aborts :
    renderHandleTableInit smallArena 1 =
        some ({ smallArena with offset := 24, highWater := 24 }, some smallTable) ∧
      renderHandleCalls none (reuseCycles 16383) smallTable () = none ∧
      ¬ SoftWrap none (reuseCycles 16383) smallTable () := by
  have hready : SlotReady smallTable 1 := ⟨(renderHandleTableInit_inv smallTable_init).1, rfl, rfl⟩
  exact ⟨smallTable_init, hready.wraps, not_softWrap hready.wraps⟩

end ChoonzMoba
