import ChoonzMoba.Library.Outcome
import ChoonzMoba.Render.Vk

namespace ChoonzMoba

def isMemory (x : VkObject) : Bool := x.1 == .memory

def Dedicated.owned (kind : VkKind) (d : Dedicated) : Multiset VkObject :=
  ownedBy kind d.object + ownedBy .memory d.memory

@[simp] theorem Dedicated.owned_null (kind : VkKind) : Dedicated.null.owned kind = 0 := rfl

namespace Vk

def Uses (vk : Vk) (held : Multiset VkObject) : Prop :=
  ∀ work ∈ vk.running, ∀ x ∈ work.reach, x ∈ held

structure Accounts (vk : Vk) (held : Multiset VkObject) : Prop where
  ledger : vk.ledger.Owns held
  allocs : vk.allocCount.toNat = held.countP (isMemory · = true)
  cap : vk.allocCount ≤ vkAllocMax

/-- What the renderer does not look at succeeds: every wait ends, if only because the device was
lost, and a fence that is reset is unsignaled. -/
structure Reliable (answers : Nat → VkAnswer) : Prop where
  wait : ∀ n, (answers n).wait ≠ .failed
  reset : ∀ n, (answers n).reset = true

structure Quiet (vk vk' : Vk) : Prop where
  answers : vk'.answers = vk.answers
  sets : vk'.sets = vk.sets
  contents : vk'.contents = vk.contents
  refused : vk'.refused = vk.refused
  hung : vk'.hung = vk.hung
  issued : vk.ledger.issued ≤ vk'.ledger.issued
  running : ∀ work ∈ vk'.running, work ∈ vk.running
  fences : ∀ fence ≤ vk.ledger.issued,
    vk'.signaled fence = vk.signaled fence ∧ vk'.inFlight fence = vk.inFlight fence

variable {vk vk' vk'' : Vk} {held : Multiset VkObject} {kind : VkKind} {handle : VkHandle}
  {d : Dedicated}

theorem Quiet.of_ledger {ledger : Ledger VkKind} (calls : Nat) (allocCount : UInt32)
    (h : vk.ledger.issued ≤ ledger.issued) : Quiet vk
      { vk with calls := calls, ledger := ledger, allocCount := allocCount } :=
  ⟨rfl, rfl, rfl, rfl, rfl, h, fun _ hwork => hwork, fun _ _ => ⟨rfl, rfl⟩⟩

theorem Quiet.refl (vk : Vk) : Quiet vk vk := .of_ledger _ _ (Nat.le_refl _)

theorem Quiet.trans (h : Quiet vk vk') (h' : Quiet vk' vk'') : Quiet vk vk'' where
  answers := h'.answers.trans h.answers
  sets := h'.sets.trans h.sets
  contents := h'.contents.trans h.contents
  refused := h'.refused.trans h.refused
  hung := h'.hung.trans h.hung
  issued := Nat.le_trans h.issued h'.issued
  running work hwork := h.running work (h'.running work hwork)
  fences fence hle := by
    obtain ⟨hsignaled, hflight⟩ := h.fences fence hle
    obtain ⟨hsignaled', hflight'⟩ := h'.fences fence (Nat.le_trans hle h.issued)
    exact ⟨hsignaled'.trans hsignaled, hflight'.trans hflight⟩

theorem Quiet.uses (h : Quiet vk vk') (huses : vk.Uses held) : vk'.Uses held :=
  fun work hwork => huses work (h.running work hwork)

theorem Quiet.idle (h : Quiet vk vk') (hidle : vk.running = []) : vk'.running = [] := by
  refine List.eq_nil_iff_forall_not_mem.mpr fun work hwork => ?_
  have hmem := h.running work hwork
  rw [hidle] at hmem
  cases hmem

theorem Quiet.ask (h : Quiet vk vk') : Quiet vk vk'.ask.2 :=
  h.trans (.of_ledger _ _ (Nat.le_refl _))

theorem Uses.le {held' : Multiset VkObject} (h : vk.Uses held) (hle : held ≤ held') :
    vk.Uses held' :=
  fun work hwork x hx => Multiset.mem_of_le hle (h work hwork x hx)

theorem create_cases (vk : Vk) (kind : VkKind) :
    vk.create kind = (0, vk.ask.2) ∨
      vk.create kind = (vk.ledger.issued + 1, { vk.ask.2 with ledger := vk.ledger.create kind }) := by
  rw [create]
  dsimp only
  split
  · exact Or.inr rfl
  · exact Or.inl rfl

theorem create_owns (h : vk.ledger.Owns held) :
    (vk.create kind).2.ledger.Owns (ownedBy kind (vk.create kind).1 + held) := by
  rcases create_cases vk kind with heq | heq
  · rw [heq, Ledger.ownedBy_zero, zero_add]
    exact h
  · rw [heq]
    exact h.create

theorem create_quiet (vk : Vk) (kind : VkKind) : Quiet vk (vk.create kind).2 := by
  rcases create_cases vk kind with heq | heq <;> rw [heq]
  · exact .of_ledger _ _ (Nat.le_refl _)
  · exact .of_ledger _ _ (Nat.le_succ _)

theorem create_allocCount (vk : Vk) (kind : VkKind) :
    (vk.create kind).2.allocCount = vk.allocCount := by
  rcases create_cases vk kind with heq | heq <;> rw [heq] <;> rfl

theorem destroy_quiet (vk : Vk) (kind : VkKind) (handle : VkHandle) :
    Quiet vk (vk.destroy kind handle) := by
  rw [destroy]
  split
  · exact .refl vk
  · exact .of_ledger _ _ (Nat.le_of_eq (Ledger.destroy_issued _ _ _ _).symm)

theorem destroy_allocCount (vk : Vk) (kind : VkKind) (handle : VkHandle) :
    (vk.destroy kind handle).allocCount = vk.allocCount := by
  rw [destroy]
  split <;> rfl

theorem Uses.not_busy (huses : vk.Uses held) {x : VkObject} (hx : x ∉ held) :
    vk.busy x = false := by
  refine List.any_eq_false.mpr fun work hwork => ?_
  rw [decide_eq_true_eq]
  exact fun hmem => hx (huses work hwork x hmem)

theorem destroy_owns (h : vk.ledger.Owns (ownedBy kind handle + held)) (huses : vk.Uses held) :
    (vk.destroy kind handle).ledger.Owns held := by
  rw [destroy]
  split
  · next hzero =>
    rwa [hzero, Ledger.ownedBy_zero, zero_add] at h
  · next hne => exact h.destroy hne (huses.not_busy (h.not_held hne))

theorem allocateMemory_owns (memoryType : Bool) (h : vk.ledger.Owns held) :
    (vk.allocateMemory memoryType).2.ledger.Owns
      (ownedBy .memory (vk.allocateMemory memoryType).1 + held) := by
  rw [allocateMemory]
  split
  · exact create_owns h
  · rwa [Ledger.ownedBy_zero, zero_add]

theorem allocateMemory_quiet (vk : Vk) (memoryType : Bool) :
    Quiet vk (vk.allocateMemory memoryType).2 := by
  rw [allocateMemory]
  split
  · exact create_quiet vk .memory
  · exact .refl vk

theorem allocateMemory_allocCount (vk : Vk) (memoryType : Bool) :
    (vk.allocateMemory memoryType).2.allocCount = vk.allocCount := by
  rw [allocateMemory]
  split
  · exact create_allocCount vk .memory
  · rfl

theorem countP_ownedBy_of_ne (hkind : kind ≠ .memory) :
    (ownedBy kind handle).countP (isMemory · = true) = 0 := by
  rw [ownedBy]
  split
  · rfl
  · refine Multiset.countP_eq_zero.mpr fun x hx => ?_
    rw [Multiset.mem_singleton.mp hx, isMemory, beq_iff_eq]
    exact hkind

theorem countP_ownedBy_memory (hne : handle ≠ 0) :
    (ownedBy VkKind.memory handle).countP (isMemory · = true) = 1 := by
  rw [Ledger.ownedBy_pos hne]
  rfl

theorem Accounts.create (h : vk.Accounts held) (hkind : kind ≠ .memory) :
    (vk.create kind).2.Accounts (ownedBy kind (vk.create kind).1 + held) where
  ledger := create_owns h.ledger
  allocs := by
    rw [create_allocCount, Multiset.countP_add, countP_ownedBy_of_ne hkind, Nat.zero_add]
    exact h.allocs
  cap := by
    rw [create_allocCount]
    exact h.cap

theorem Accounts.destroy (h : vk.Accounts (ownedBy kind handle + held)) (huses : vk.Uses held)
    (hkind : kind ≠ .memory) : (vk.destroy kind handle).Accounts held where
  ledger := destroy_owns h.ledger huses
  allocs := by
    rw [destroy_allocCount, h.allocs, Multiset.countP_add, countP_ownedBy_of_ne hkind, Nat.zero_add]
  cap := by
    rw [destroy_allocCount]
    exact h.cap

theorem Accounts.ask (h : vk.Accounts held) : vk.ask.2.Accounts held := ⟨h.1, h.2, h.3⟩

theorem Accounts.quiet (h : vk.Accounts held) (hledger : vk'.ledger = vk.ledger)
    (hcount : vk'.allocCount = vk.allocCount) : vk'.Accounts held :=
  ⟨hledger ▸ h.ledger, hcount ▸ h.allocs, hcount ▸ h.cap⟩

theorem vkAllocMax_toNat : vkAllocMax.toNat = 3500 := rfl

theorem counted (hledger : vk.ledger.Owns (ownedBy .memory handle + held)) (hne : handle ≠ 0)
    (hallocs : vk.allocCount.toNat = held.countP (isMemory · = true))
    (hcap : ¬ vkAllocMax ≤ vk.allocCount) :
    ({ vk with allocCount := vk.allocCount + 1 } : Vk).Accounts (ownedBy .memory handle + held) := by
  have hone : (1 : UInt32).toNat = 1 := rfl
  have hlt : vk.allocCount.toNat < 3500 := by
    rw [← vkAllocMax_toNat, ← UInt32.lt_iff_toNat_lt]
    exact UInt32.not_le.mp hcap
  have hnext : (vk.allocCount + 1).toNat = vk.allocCount.toNat + 1 := by
    rw [UInt32.toNat_add, hone, Nat.mod_eq_of_lt]
    omega
  refine ⟨hledger, ?_, ?_⟩
  · show (vk.allocCount + 1).toNat = _
    rw [hnext, hallocs, Multiset.countP_add, countP_ownedBy_memory hne, Nat.add_comm]
  · show vk.allocCount + 1 ≤ vkAllocMax
    rw [UInt32.le_iff_toNat_le, hnext, vkAllocMax_toNat]
    exact hlt

theorem Accounts.uncounted (h : vk.Accounts (ownedBy .memory handle + held)) (huses : vk.Uses held)
    (hne : handle ≠ 0) :
    ({ vk.destroy .memory handle with allocCount := vk.allocCount - 1 } : Vk).Accounts held := by
  obtain ⟨hledger, hallocs, hcap⟩ := h
  rw [Multiset.countP_add, countP_ownedBy_memory hne] at hallocs
  have hone : (1 : UInt32).toNat = 1 := rfl
  have hle : 1 ≤ vk.allocCount := by
    rw [UInt32.le_iff_toNat_le, hone]
    omega
  have hprior : (vk.allocCount - 1).toNat = vk.allocCount.toNat - 1 := by
    rw [UInt32.toNat_sub_of_le _ _ hle, hone]
  refine ⟨destroy_owns hledger huses, ?_, ?_⟩
  · show (vk.allocCount - 1).toNat = _
    omega
  · show vk.allocCount - 1 ≤ vkAllocMax
    rw [UInt32.le_iff_toNat_le] at hcap ⊢
    omega

theorem inFlight_iff {fence : VkHandle} :
    vk.inFlight fence = true ↔ ∃ work ∈ vk.running, work.fence = fence := by
  rw [inFlight, List.any_eq_true]
  simp only [beq_iff_eq]

theorem not_inFlight {fence : VkHandle} (h : ∀ work ∈ vk.running, work.fence ≠ fence) :
    vk.inFlight fence = false := by
  refine Bool.eq_false_iff.mpr fun hflight => ?_
  obtain ⟨work, hwork, heq⟩ := inFlight_iff.mp hflight
  exact h work hwork heq

theorem createFence_cases (vk : Vk) (signaled : Bool) :
    vk.createFence signaled = (0, vk.ask.2) ∨ vk.createFence signaled = (vk.ledger.issued + 1,
      { vk.ask.2 with
        ledger := vk.ledger.create .fence
        signaled := Function.update vk.signaled (vk.ledger.issued + 1) signaled }) := by
  rw [createFence]
  rcases create_cases vk .fence with heq | heq <;> rw [heq]
  · exact Or.inl (if_pos rfl)
  · exact Or.inr (if_neg (Nat.succ_ne_zero _))

theorem createFence_create (vk : Vk) (signaled : Bool) :
    (vk.createFence signaled).1 = (vk.create .fence).1 ∧
      (vk.createFence signaled).2.ledger = (vk.create .fence).2.ledger ∧
      (vk.createFence signaled).2.allocCount = (vk.create .fence).2.allocCount := by
  rw [createFence]
  dsimp only
  split
  · next hzero => exact ⟨hzero.symm, rfl, rfl⟩
  · exact ⟨rfl, rfl, rfl⟩

theorem createFence_quiet (vk : Vk) (signaled : Bool) : Quiet vk (vk.createFence signaled).2 := by
  rcases createFence_cases vk signaled with heq | heq <;> rw [heq]
  · exact .of_ledger _ _ (Nat.le_refl _)
  · refine ⟨rfl, rfl, rfl, rfl, rfl, Nat.le_succ _, fun _ hwork => hwork, fun fence hle => ⟨?_, rfl⟩⟩
    exact Function.update_of_ne (Nat.ne_of_lt (Nat.lt_succ_of_le hle)) _ _

theorem createFence_new (vk : Vk) (signaled : Bool) (hne : (vk.createFence signaled).1 ≠ 0) :
    (vk.createFence signaled).1 = vk.ledger.issued + 1 ∧
      (vk.createFence signaled).2.signaled (vk.createFence signaled).1 = signaled ∧
      (vk.createFence signaled).2.running = vk.running := by
  rcases createFence_cases vk signaled with heq | heq <;> rw [heq] at hne ⊢
  · exact absurd rfl hne
  · exact ⟨rfl, Function.update_self _ _ _, rfl⟩

structure Awaited (vk : Vk) (fence : VkHandle) (vk' : Vk) : Prop where
  answers : vk'.answers = vk.answers
  ledger : vk'.ledger = vk.ledger
  allocCount : vk'.allocCount = vk.allocCount
  sets : vk'.sets = vk.sets
  contents : vk'.contents = vk.contents
  refused : vk'.refused = vk.refused
  hung : vk'.hung = vk.hung
  running : ∀ work ∈ vk'.running, work ∈ vk.running
  fences : ∀ other, other ≠ fence →
    vk'.signaled other = vk.signaled other ∧ vk'.inFlight other = vk.inFlight other

section

variable {fence : VkHandle} {work : Work}

theorem waitForFence_eq (hreliable : Reliable vk.answers)
    (hlive : (VkKind.fence, fence) ∈ vk.ledger.live)
    (hready : vk.signaled fence = true ∨ vk.inFlight fence = true) :
    vk.waitForFence fence = (decide (vk.ask.1.wait = .over), { vk.ask.2 with
      running := vk.running.filter fun work => work.fence != fence
      signaled := Function.update vk.signaled fence true }) := by
  have hasked : (VkKind.fence, fence) ∈ vk.ask.2.ledger.live := hlive
  have hwait : vk.ask.1.wait ≠ .failed := hreliable.wait _
  have hready' : vk.ask.1.wait = .deviceLost ∨ vk.ask.2.signaled fence = true ∨
      vk.ask.2.inFlight fence = true := Or.inr hready
  rw [waitForFence]
  dsimp only
  rw [if_neg (not_not.mpr hasked), if_neg hwait, if_pos hready']
  rfl

theorem inFlight_filter {running : List Work} {other : VkHandle} (hne : other ≠ fence) :
    (running.filter fun work => work.fence != fence).any (fun work => work.fence == other) =
      running.any fun work => work.fence == other := by
  rw [List.any_filter]
  refine congrArg (List.any running) (funext fun work => ?_)
  by_cases heq : work.fence = other
  · rw [heq, bne_iff_ne.mpr hne, Bool.true_and]
  · rw [beq_eq_false_iff_ne.mpr heq, Bool.and_false]

theorem queueSubmit_cases (hidle : vk.inFlight work.fence = false)
    (hsignaled : vk.signaled work.fence = false)
    (hlive : ∀ x ∈ work.reach, x ∈ vk.ledger.live) :
    vk.queueSubmit work = (false, vk.ask.2) ∨
      vk.queueSubmit work = (true, { vk.ask.2 with running := work :: vk.running }) := by
  have hok : ¬ (vk.succeeds.2.signaled work.fence = true ∨ vk.succeeds.2.inFlight work.fence = true ∨
      ∃ x ∈ work.reach, x ∉ vk.succeeds.2.ledger.live) := by
    rintro (hs | hs | ⟨x, hx, hs⟩)
    · exact Bool.false_ne_true (hsignaled.symm.trans hs)
    · exact Bool.false_ne_true (hidle.symm.trans hs)
    · exact hs (hlive x hx)
  rw [queueSubmit]
  dsimp only
  rw [if_neg hok]
  by_cases hsubmitted : vk.succeeds.1 = true
  · rw [hsubmitted]
    exact Or.inr rfl
  · rw [Bool.not_eq_true] at hsubmitted
    rw [hsubmitted]
    exact Or.inl rfl

theorem submitAndWait_awaited (hreliable : Reliable vk.answers)
    (hsignaled : vk.signaled work.fence = false)
    (hidle : ∀ other ∈ vk.running, other.fence ≠ work.fence)
    (hlive : ∀ x ∈ work.reach, x ∈ vk.ledger.live) :
    Awaited vk work.fence (vk.submitAndWait work).2 := by
  rw [submitAndWait]
  rcases queueSubmit_cases (not_inFlight hidle) hsignaled hlive with heq | heq <;> rw [heq]
  · exact ⟨rfl, rfl, rfl, rfl, rfl, rfl, rfl, fun _ hwork => hwork, fun _ _ => ⟨rfl, rfl⟩⟩
  dsimp only
  rw [if_pos rfl, waitForFence_eq]
  · refine ⟨rfl, rfl, rfl, rfl, rfl, rfl, rfl, fun other hother => ?_, fun other hne => ⟨?_, ?_⟩⟩
    · obtain ⟨hmem, hne⟩ := List.mem_filter.mp hother
      rcases List.mem_cons.mp hmem with rfl | hmem
      · exact absurd rfl (bne_iff_ne.mp hne)
      · exact hmem
    · exact Function.update_of_ne hne _ _
    · refine (inFlight_filter hne).trans ?_
      rw [List.any_cons, beq_eq_false_iff_ne.mpr hne.symm, Bool.false_or]
      rfl
  · exact hreliable
  · exact hlive _ work.fenced
  · exact Or.inr (inFlight_iff.mpr ⟨work, List.mem_cons_self, rfl⟩)

end

end Vk

open Vk

section

variable {vk : Vk} {held : Multiset VkObject} {kind : VkKind} {d : Dedicated}

structure Allocated (kind : VkKind) (vk : Vk) (held : Multiset VkObject)
    (r : Bool × Dedicated × Vk) : Prop where
  accounts : r.2.2.Accounts (r.2.1.owned kind + held)
  quiet : Quiet vk r.2.2
  whole : r.1 = true → r.2.1.object ≠ 0 ∧ r.2.1.memory ≠ 0
  nothing : r.1 = false → r.2.1 = .null

theorem Allocated.none {vk' : Vk} (h : vk'.Accounts held) (hquiet : Quiet vk vk') :
    Allocated kind vk held (false, .null, vk') where
  accounts := by
    rw [Dedicated.owned_null, zero_add]
    exact h
  quiet := hquiet
  whole h := by cases h
  nothing _ := rfl

theorem allocDedicated_spec (h : vk.Accounts held) (huses : vk.Uses held) (hkind : kind ≠ .memory) :
    Outcome True (Allocated kind vk held) (allocDedicated kind vk) := by
  have hobject := h.create hkind
  have hquiet := create_quiet vk kind
  rw [allocDedicated]
  generalize vk.create kind = created at hobject hquiet
  obtain ⟨object, vk₁⟩ := created
  dsimp only at hobject hquiet ⊢
  split
  · next hzero =>
    rw [hzero, Ledger.ownedBy_zero, zero_add] at hobject
    exact .returned (.none hobject hquiet)
  next hne =>
  split
  · exact .aborted trivial
  next hcap =>
  have hmemory := allocateMemory_owns vk₁.ask.1.memoryType hobject.ask.ledger
  have hquiet' := hquiet.ask.trans (allocateMemory_quiet vk₁.ask.2 vk₁.ask.1.memoryType)
  have hcount := allocateMemory_allocCount vk₁.ask.2 vk₁.ask.1.memoryType
  generalize vk₁.ask.2.allocateMemory vk₁.ask.1.memoryType = allocated at hmemory hquiet' hcount
  obtain ⟨memory, vk₂⟩ := allocated
  dsimp only at hmemory hquiet' hcount ⊢
  replace hcount : vk₂.allocCount = vk₁.allocCount := hcount
  have hallocs : vk₂.allocCount.toNat = (ownedBy kind object + held).countP (isMemory · = true) := by
    rw [hcount]
    exact hobject.allocs
  have hcap₂ : vk₂.allocCount ≤ vkAllocMax := by
    rw [hcount]
    exact hobject.cap
  split
  · next hzero =>
    rw [hzero, Ledger.ownedBy_zero, zero_add] at hmemory
    exact .returned (.none (Accounts.destroy ⟨hmemory, hallocs, hcap₂⟩ (hquiet'.uses huses) hkind)
      (hquiet'.trans (destroy_quiet _ _ _)))
  next hmemoryNe =>
  have hquiet₃ := hquiet'.ask
  split
  · refine .returned ⟨?_, ?_, fun _ => ⟨hne, hmemoryNe⟩, fun h => (by cases h)⟩
    · have hcounted : Accounts _ _ := counted (show vk₂.ask.2.ledger.Owns _ from hmemory) hmemoryNe
        hallocs (hcount ▸ hcap)
      rwa [← add_assoc, add_comm (ownedBy VkKind.memory memory)] at hcounted
    · exact hquiet₃.trans (.of_ledger _ _ (Nat.le_refl _))
  · have huses₃ := (hquiet₃.uses huses).le (Multiset.le_add_left held (ownedBy kind object))
    have hfreed : (vk₂.ask.2.destroy .memory memory).Accounts (ownedBy kind object + held) :=
      ⟨destroy_owns (show vk₂.ask.2.ledger.Owns _ from hmemory) huses₃,
        by rw [destroy_allocCount]; exact hallocs, by rw [destroy_allocCount]; exact hcap₂⟩
    have hquiet₄ := hquiet₃.trans (destroy_quiet _ .memory memory)
    exact .returned (.none (hfreed.destroy (hquiet₄.uses huses) hkind)
      (hquiet₄.trans (destroy_quiet _ _ _)))

theorem freeDedicated_spec (h : vk.Accounts (d.owned kind + held)) (huses : vk.Uses held)
    (hkind : kind ≠ .memory) :
    (freeDedicated kind vk d).Accounts held ∧ Quiet vk (freeDedicated kind vk d) := by
  rw [Dedicated.owned, add_assoc] at h
  have huses' := huses.le (Multiset.le_add_left held (ownedBy .memory d.memory))
  have hfreed := h.destroy huses' hkind
  have hquiet := destroy_quiet vk kind d.object
  rw [freeDedicated]
  dsimp only
  split
  · next hzero =>
    rw [hzero, Ledger.ownedBy_zero, zero_add] at hfreed
    exact ⟨hfreed, hquiet⟩
  · next hne =>
    have hquiet' := hquiet.trans (destroy_quiet _ .memory d.memory)
    exact ⟨hfreed.uncounted (hquiet.uses huses) hne, hquiet'.trans (.of_ledger _ _ (Nat.le_refl _))⟩

structure Working (vk : Vk) (base mine : Multiset VkObject) (vk' : Vk) : Prop where
  quiet : Quiet vk vk'
  uses : vk.Uses base
  accounts : vk'.Accounts (mine + base)

namespace Working

variable {base mine : Multiset VkObject} {vk' : Vk} {handle : VkHandle}

theorem start (haccounts : vk.Accounts (mine + base)) (huses : vk.Uses base) :
    Working vk base mine vk :=
  ⟨.refl vk, huses, haccounts⟩

theorem uses_now (h : Working vk base mine vk') : vk'.Uses (mine + base) :=
  (h.quiet.uses h.uses).le (Multiset.le_add_left base mine)

theorem perm {mine' : Multiset VkObject} (h : Working vk base mine vk') (heq : mine = mine') :
    Working vk base mine' vk' := heq ▸ h

theorem done (h : Working vk base 0 vk') : vk'.Accounts base := by
  have haccounts := h.accounts
  rwa [zero_add] at haccounts

theorem ask (h : Working vk base mine vk') : Working vk base mine vk'.ask.2 :=
  ⟨h.quiet.ask, h.uses, h.accounts.ask⟩

theorem create (h : Working vk base mine vk') (kind : VkKind) (hkind : kind ≠ .memory) :
    Working vk base (ownedBy kind (vk'.create kind).1 + mine) (vk'.create kind).2 := by
  refine ⟨h.quiet.trans (create_quiet _ _), h.uses, ?_⟩
  rw [add_assoc]
  exact h.accounts.create hkind

theorem destroy (h : Working vk base (ownedBy kind handle + mine) vk') (hkind : kind ≠ .memory) :
    Working vk base mine (vk'.destroy kind handle) := by
  have haccounts := h.accounts
  rw [add_assoc] at haccounts
  exact ⟨h.quiet.trans (destroy_quiet _ _ _), h.uses, haccounts.destroy
    ((h.quiet.uses h.uses).le (Multiset.le_add_left base mine)) hkind⟩

theorem free (h : Working vk base (d.owned kind + mine) vk') (hkind : kind ≠ .memory) :
    Working vk base mine (freeDedicated kind vk' d) := by
  have haccounts := h.accounts
  rw [add_assoc] at haccounts
  obtain ⟨hfreed, hquiet⟩ := freeDedicated_spec haccounts
    ((h.quiet.uses h.uses).le (Multiset.le_add_left base mine)) hkind
  exact ⟨h.quiet.trans hquiet, h.uses, hfreed⟩

theorem alloc (h : Working vk base mine vk') (kind : VkKind) (hkind : kind ≠ .memory) :
    Outcome True (fun r : Bool × Dedicated × Vk =>
        Working vk base (r.2.1.owned kind + mine) r.2.2 ∧
          (r.1 = true → r.2.1.object ≠ 0 ∧ r.2.1.memory ≠ 0) ∧ (r.1 = false → r.2.1 = .null))
      (allocDedicated kind vk') := by
  refine (allocDedicated_spec h.accounts h.uses_now hkind).imp id fun r hr => ?_
  refine ⟨⟨h.quiet.trans hr.quiet, h.uses, ?_⟩, hr.whole, hr.nothing⟩
  rw [add_assoc]
  exact hr.accounts

theorem fence_le {work : Work} (h : Working vk base mine vk') (hwork : work ∈ vk'.running) :
    work.fence ≤ vk'.ledger.issued :=
  (h.accounts.ledger.issued _ (h.uses_now work hwork _ work.fenced)).2

theorem createFence (h : Working vk base mine vk') (signaled : Bool) :
    Working vk base (ownedBy .fence (vk'.createFence signaled).1 + mine)
      (vk'.createFence signaled).2 := by
  have hcreated := h.create .fence (fun h => (by cases h))
  have hquiet := h.quiet.trans (createFence_quiet vk' signaled)
  obtain ⟨hhandle, hledger, hcount⟩ := createFence_create vk' signaled
  rw [← hhandle] at hcreated
  exact ⟨hquiet, h.uses, hcreated.accounts.quiet hledger hcount⟩

theorem awaited {vk'' : Vk} {fence : VkHandle} (h : Working vk base mine vk')
    (hwaited : Awaited vk' fence vk'') (hnew : vk.ledger.issued < fence) :
    Working vk base mine vk'' where
  quiet := {
    answers := hwaited.answers.trans h.quiet.answers
    sets := hwaited.sets.trans h.quiet.sets
    contents := hwaited.contents.trans h.quiet.contents
    refused := hwaited.refused.trans h.quiet.refused
    hung := hwaited.hung.trans h.quiet.hung
    issued := by
      rw [hwaited.ledger]
      exact h.quiet.issued
    running := fun work hwork => h.quiet.running work (hwaited.running work hwork)
    fences := fun other hle => by
      obtain ⟨hsignaled, hflight⟩ := hwaited.fences other
        (Nat.ne_of_lt (Nat.lt_of_le_of_lt hle hnew))
      obtain ⟨hsignaled', hflight'⟩ := h.quiet.fences other hle
      exact ⟨hsignaled.trans hsignaled', hflight.trans hflight'⟩ }
  uses := h.uses
  accounts := h.accounts.quiet hwaited.ledger hwaited.allocCount

-- a new fence is in flight only until it was waited for
theorem oneShot {commands : VkHandle} {reach : List VkObject}
    (h : Working vk base (ownedBy .commandBuffer commands + mine) vk')
    (hreliable : Reliable vk.answers) (hcommands : commands ≠ 0) (hreach : ∀ x ∈ reach, x ∈ mine) :
    Working vk base mine (endOneShot vk' commands reach).2 := by
  have hfence := h.createFence false
  have hnew := createFence_new vk' false
  rw [endOneShot]
  generalize vk'.createFence false = created at hfence hnew
  obtain ⟨fence, vk₁⟩ := created
  dsimp only at hfence hnew ⊢
  split
  · next hzero =>
    rw [hzero, Ledger.ownedBy_zero, zero_add] at hfence
    exact hfence.destroy (fun h => (by cases h))
  next hne =>
  obtain ⟨hissued, hsignaled, hrunning⟩ := hnew hne
  refine ((hfence.awaited (submitAndWait_awaited ?_ hsignaled (fun work hwork => ?_) fun x hx => ?_)
    ?_).destroy (fun h => (by cases h))).destroy (fun h => (by cases h))
  · exact hfence.quiet.answers ▸ hreliable
  · have hle := h.fence_le (hrunning ▸ hwork)
    exact Nat.ne_of_lt (Nat.lt_of_le_of_lt hle (hissued ▸ Nat.lt_succ_self _))
  · rw [hfence.accounts.ledger.live]
    simp only [Multiset.mem_add]
    rcases List.mem_cons.mp hx with rfl | hx
    · exact Or.inl (Or.inl (Ledger.mem_ownedBy hne))
    rcases List.mem_cons.mp hx with rfl | hx
    · exact Or.inl (Or.inr (Or.inl (Ledger.mem_ownedBy hcommands)))
    · exact Or.inl (Or.inr (Or.inr (hreach x hx)))
  · exact hissued ▸ Nat.lt_succ_of_le h.quiet.issued

end Working

/-- A wait for any of the fences returns, unless a frame was refused. -/
structure Vk.Prompt (vk : Vk) (fences : VkHandle → Prop) : Prop where
  reliable : Reliable vk.answers
  issued : ∀ fence, fences fence → fence ≤ vk.ledger.issued
  ready : vk.refused = false → vk.hung = false ∧
    ∀ fence, fences fence → vk.signaled fence = true ∨ vk.inFlight fence = true

namespace Vk

variable {vk' : Vk} {fences : VkHandle → Prop} {fence : VkHandle} {work : Work}

theorem Quiet.prompt (h : Quiet vk vk') (hprompt : vk.Prompt fences) : vk'.Prompt fences where
  reliable := h.answers ▸ hprompt.reliable
  issued fence hfence := Nat.le_trans (hprompt.issued fence hfence) h.issued
  ready hfine := by
    obtain ⟨hhung, hready⟩ := hprompt.ready (h.refused ▸ hfine)
    refine ⟨h.hung.trans hhung, fun fence hfence => ?_⟩
    obtain ⟨hsignaled, hflight⟩ := h.fences fence (hprompt.issued fence hfence)
    rw [hsignaled, hflight]
    exact hready fence hfence

theorem Prompt.ask (h : vk.Prompt fences) : vk.ask.2.Prompt fences := ⟨h.1, h.2, h.3⟩

structure Waited (vk : Vk) (fence : VkHandle) (vk' : Vk) : Prop where
  answers : vk'.answers = vk.answers
  ledger : vk'.ledger = vk.ledger
  allocCount : vk'.allocCount = vk.allocCount
  sets : vk'.sets = vk.sets
  contents : vk'.contents = vk.contents
  refused : vk'.refused = vk.refused
  running : vk'.running = vk.running.filter fun work => work.fence != fence

theorem waitForFence_waited (hreliable : Reliable vk.answers)
    (hlive : (VkKind.fence, fence) ∈ vk.ledger.live) :
    Waited vk fence (vk.waitForFence fence).2 := by
  have hasked : (VkKind.fence, fence) ∈ vk.ask.2.ledger.live := hlive
  have hwait : vk.ask.1.wait ≠ .failed := hreliable.wait _
  rw [waitForFence]
  dsimp only
  rw [if_neg (not_not.mpr hasked), if_neg hwait]
  split
  · exact ⟨rfl, rfl, rfl, rfl, rfl, rfl, rfl⟩
  · next hnot =>
    refine ⟨rfl, rfl, rfl, rfl, rfl, rfl, (List.filter_eq_self.mpr fun work hwork => ?_).symm⟩
    rw [bne_iff_ne]
    exact fun heq => hnot (Or.inr (Or.inr (inFlight_iff.mpr ⟨work, hwork, heq⟩)))

theorem Waited.not_inFlight (h : Waited vk fence vk') : vk'.inFlight fence = false := by
  refine Vk.not_inFlight fun work hwork => ?_
  rw [h.running] at hwork
  exact bne_iff_ne.mp (List.mem_filter.mp hwork).2

theorem waitForFence_prompt (hprompt : vk.Prompt fences)
    (hlive : (VkKind.fence, fence) ∈ vk.ledger.live) (hfence : fences fence) :
    (vk.waitForFence fence).2.Prompt fences := by
  have hwaited := waitForFence_waited hprompt.reliable hlive
  refine ⟨hwaited.answers ▸ hprompt.reliable, hwaited.ledger ▸ hprompt.issued, fun hfine => ?_⟩
  obtain ⟨hhung, hready⟩ := hprompt.ready (hwaited.refused ▸ hfine)
  rw [waitForFence_eq hprompt.reliable hlive (hready fence hfence)]
  refine ⟨hhung, fun other hother => ?_⟩
  show Function.update vk.signaled fence true other = true ∨ _
  by_cases heq : other = fence
  · subst heq
    exact Or.inl (Function.update_self _ _ _)
  · rw [Function.update_of_ne heq]
    exact (hready other hother).imp_right (inFlight_filter heq).trans

theorem deviceWaitIdle_eq (hreliable : Reliable vk.answers) : vk.deviceWaitIdle = { vk.ask.2 with
    running := []
    signaled := fun fence => vk.signaled fence || vk.inFlight fence } := by
  have hwait : vk.ask.1.wait ≠ .failed := hreliable.wait _
  rw [deviceWaitIdle]
  dsimp only
  rw [if_neg hwait]
  rfl

theorem deviceWaitIdle_prompt (hprompt : vk.Prompt fences) : vk.deviceWaitIdle.Prompt fences := by
  rw [deviceWaitIdle_eq hprompt.reliable]
  refine ⟨hprompt.reliable, hprompt.issued, fun hfine => ?_⟩
  obtain ⟨hhung, hready⟩ := hprompt.ready hfine
  refine ⟨hhung, fun fence hfence => Or.inl ?_⟩
  show (vk.signaled fence || vk.inFlight fence) = true
  rw [Bool.or_eq_true]
  exact hready fence hfence

theorem resetFence_eq (hreliable : Reliable vk.answers)
    (hlive : (VkKind.fence, fence) ∈ vk.ledger.live) (hidle : vk.inFlight fence = false) :
    vk.resetFence fence =
      { vk.ask.2 with signaled := Function.update vk.signaled fence false } := by
  have hok : ¬ ((VkKind.fence, fence) ∉ vk.ask.2.ledger.live ∨ vk.ask.2.inFlight fence = true) := by
    rintro (hdead | hflight)
    · exact hdead hlive
    · exact Bool.false_ne_true (hidle.symm.trans hflight)
  rw [resetFence]
  dsimp only
  have hreset : vk.ask.1.reset = true := hreliable.reset _
  rw [if_neg hok, if_pos hreset]
  rfl

-- until the next submission nobody may wait for the fence
theorem resetFence_prompt (hprompt : vk.Prompt fences)
    (hlive : (VkKind.fence, fence) ∈ vk.ledger.live) (hidle : vk.inFlight fence = false) :
    (vk.resetFence fence).Prompt fun other => fences other ∧ other ≠ fence := by
  rw [resetFence_eq hprompt.reliable hlive hidle]
  refine ⟨hprompt.reliable, fun other hother => hprompt.issued other hother.1, fun hfine => ?_⟩
  obtain ⟨hhung, hready⟩ := hprompt.ready hfine
  refine ⟨hhung, fun other ⟨hother, hne⟩ => ?_⟩
  show Function.update vk.signaled fence false other = true ∨ _
  rw [Function.update_of_ne hne]
  exact hready other hother

theorem writeFrame_eq (hidle : vk.inFlight fence = false) : vk.writeFrame fence = vk := by
  rw [writeFrame, hidle]
  rfl

theorem submitFrame_cases (hidle : vk.inFlight work.fence = false)
    (hsignaled : vk.signaled work.fence = false)
    (hlive : ∀ x ∈ work.reach, x ∈ vk.ledger.live) :
    vk.submitFrame work = { vk.ask.2 with refused := true } ∨
      vk.submitFrame work = { vk.ask.2 with running := work :: vk.running } := by
  rw [submitFrame]
  rcases queueSubmit_cases hidle hsignaled hlive with heq | heq <;> rw [heq] <;> dsimp only
  · rw [Bool.not_false, Bool.or_true]
    exact Or.inl rfl
  · rw [Bool.not_true, Bool.or_false]
    exact Or.inr rfl

theorem submitFrame_prompt (work : Work) (hfence : work.fence ≤ vk.ledger.issued)
    (hprompt : vk.Prompt fun fence => fences fence ∧ fence ≠ work.fence) :
    ({ vk.ask.2 with refused := true } : Vk).Prompt fences ∧
      ({ vk.ask.2 with running := work :: vk.running } : Vk).Prompt fences := by
  have hissued : ∀ fence, fences fence → fence ≤ vk.ledger.issued := by
    intro fence hmem
    by_cases heq : fence = work.fence
    · rw [heq]
      exact hfence
    · exact hprompt.issued fence ⟨hmem, heq⟩
  refine ⟨⟨hprompt.reliable, hissued, fun hfine => (by cases hfine)⟩,
    ⟨hprompt.reliable, hissued, fun hfine => ?_⟩⟩
  obtain ⟨hhung, hready⟩ := hprompt.ready hfine
  refine ⟨hhung, fun fence hmem => ?_⟩
  by_cases heq : fence = work.fence
  · exact Or.inr (inFlight_iff.mpr ⟨work, List.mem_cons_self, heq.symm⟩)
  · refine (hready fence ⟨hmem, heq⟩).imp_right fun hflight => ?_
    obtain ⟨other, hother, hslot⟩ := inFlight_iff.mp hflight
    exact inFlight_iff.mpr ⟨other, List.mem_cons_of_mem _ hother, hslot⟩

end Vk

end

end ChoonzMoba
