import ChoonzMoba.Core.ArenaKeeps
import ChoonzMoba.Sim.InitSpec

namespace ChoonzMoba

theorem layoutAll_ok {blocks : List (Nat × Nat)} (halign : PowerAligned blocks) {a : Arena}
    (ha : a.Wf) (hroom : a.offset + blocksNeed blocks ≤ a.reserved) :
    ∃ stop, layoutAll a blocks = some stop := by
  suffices H : ∀ (blocks : List (Nat × Nat)), PowerAligned blocks → ∀ offset,
      offset + blocksNeed blocks ≤ a.reserved →
      ∃ stop, Loop.forEachM blocks (fun stop block => layoutAdvance a stop block.1 block.2) offset =
        some stop from H blocks halign _ hroom
  intro blocks
  induction blocks with
  | nil => exact fun _ offset _ => ⟨offset, rfl⟩
  | cons block blocks ih =>
    intro halign offset hroom
    obtain ⟨k, hk⟩ := halign block (by simp)
    have hneed : blocksNeed (block :: blocks) = (2 ^ k - 1) + block.1 + blocksNeed blocks := by
      simp [blocksNeed, hk]
    rw [hneed] at hroom
    obtain ⟨stop, hstop, hle⟩ := layoutAdvance_ok ha block.1 (k := k)
      (show offset + _ + _ ≤ _ by omega)
    obtain ⟨last, hlast⟩ := ih (fun x hx => halign x (by simp [hx])) stop (by omega)
    exact ⟨last, by rw [Loop.forEachM_cons, hk, hstop, Option.bind_some, hlast]⟩

def Initializes {α : Type} (init : Arena → Initialized α) (need : Nat) (x : α) : Prop :=
  ∀ a : Arena, a.Backed → a.offset + need ≤ a.reserved →
    ∃ b, init a = some (b, some x) ∧ a.Spent b need

theorem Initializes.andThen {α β : Type} {init : Arena → Initialized α}
    {next : Arena → α → Initialized β} {m n : Nat} {x : α} {y : β} (h : Initializes init m x)
    (hnext : Initializes (fun a => next a x) n y) :
    Initializes (fun a => (init a).andThen next) (m + n) y := by
  intro a ha hroom
  obtain ⟨b, hb, hspent⟩ := h a ha (by omega)
  have hoff := hspent.offset_le
  obtain ⟨c, hc, hspent'⟩ := hnext b hspent.backed (by rw [hspent.backing.reserved]; omega)
  refine ⟨c, ?_, hspent.trans hspent'⟩
  simp only [hb, Initialized.andThen]
  exact hc

theorem entityManagerInit_ok {capacity : Nat} (hpos : 0 < capacity) (hmax : capacity ≤ 2 ^ 18) :
    Initializes (fun a => entityManagerInit a capacity) (entityManagerMemoryRequired capacity)
      (.zeroed capacity) := by
  intro a ha hroom
  have hok : ¬ (capacity = 0 ∨ handleIndexMask.toNat + 1 < capacity) := by
    rw [handleIndexMask_toNat]
    omega
  have hneed : blocksNeed [(2 * capacity, 2), (1 * capacity, 1), (4 * capacity, 4)] =
      entityManagerMemoryRequired capacity := by
    rw [entityManagerMemoryRequired, if_neg hok]
    simp [blocksNeed]
    omega
  have halign : PowerAligned [(2 * capacity, 2), (1 * capacity, 1), (4 * capacity, 4)] := by
    intro block hb
    simp only [List.mem_cons, List.not_mem_nil, or_false] at hb
    rcases hb with rfl | rfl | rfl
    · exact ⟨1, rfl⟩
    · exact ⟨0, rfl⟩
    · exact ⟨2, rfl⟩
  rw [← hneed] at hroom ⊢
  obtain ⟨stop, hstop⟩ := layoutAll_ok halign ha.wf hroom
  obtain ⟨b, hb, hspent⟩ := pushAll_ok halign ha hroom
  refine ⟨b, ?_, hspent⟩
  have hguard : ¬ (capacity = 0 ∨ handleIndexMask.toNat + 1 < capacity ∨ a.base = 0 ∨
      a.reserved < a.offset) := by
    have := ha.wf.base_ne
    have := ha.wf.offset_le
    have := ha.wf.committed_le
    rw [handleIndexMask_toNat]
    omega
  simp only [entityManagerInit, if_neg hguard, hstop, hb]
  rfl

theorem Arena.Wf.guard {a : Arena} (h : a.Wf) : ¬ (a.base = 0 ∨ a.reserved < a.offset) := by
  have := h.base_ne
  have := h.offset_le
  have := h.committed_le
  omega

theorem powerAligned_fours {blocks : List (Nat × Nat)} (h : ∀ block ∈ blocks, block.2 = 4) :
    PowerAligned blocks :=
  fun block hb => ⟨2, h block hb⟩

theorem componentPoolMemoryRequired_eq {n : Nat} (hpos : 0 < n) (hmax : n ≤ 2 ^ 18) :
    componentPoolMemoryRequired n n = 4 * n + (4 - 1) + (4 * n + (4 - 1)) + (4 * n + (4 - 1)) := by
  rw [componentPoolMemoryRequired, if_neg]
  rw [handleIndexMask_toNat]
  omega

theorem componentPoolInit_ok {n : Nat} (hpos : 0 < n) (hmax : n ≤ 2 ^ 18) :
    Initializes (fun a => componentPoolInit a n n) (componentPoolMemoryRequired n n) (.zeroed n n) := by
  intro a ha hroom
  have heq := componentPoolMemoryRequired_eq hpos hmax
  have hneed : blocksNeed [(4 * n, 4), (4 * n, 4), (4 * n, 4)] =
      componentPoolMemoryRequired n n := by
    rw [heq]
    simp [blocksNeed]
    omega
  have halign : PowerAligned [(4 * n, 4), (4 * n, 4), (4 * n, 4)] :=
    powerAligned_fours (by simp)
  have hguard : ¬ (componentPoolMemoryRequired n n = 0 ∨ a.base = 0 ∨ a.reserved < a.offset) := by
    have := ha.wf.guard
    omega
  rw [← hneed] at hroom
  obtain ⟨stop, hstop⟩ := layoutAll_ok halign ha.wf hroom
  obtain ⟨b, hb, hspent⟩ := pushAll_ok halign ha hroom
  rw [hneed] at hspent
  refine ⟨b, ?_, hspent⟩
  simp only [componentPoolInit, if_neg hguard, hstop, hb]
  rfl

theorem addAligned_loop {n total : Nat} (hmax : n ≤ 2 ^ 18) (htotal : total ≤ 2 ^ 32)
    {count : Nat} (hcount : count ≤ 3) :
    Loop.forRangeM count (fun total _ => addAligned total (4 * n) 4) total =
      some (total + count * (4 * n + 3)) := by
  obtain ⟨t, ht, hp⟩ := Loop.forRangeM_total (n := count) (s := total)
    (f := fun total _ => addAligned total (4 * n) 4)
    (fun k t => t = total + k * (4 * n + 3)) (by simp)
    (by
      rintro k t hk rfl
      have hmul : k * (4 * n + 3) ≤ 3 * (4 * n + 3) := Nat.mul_le_mul_right _ (by omega)
      have hstep : (k + 1) * (4 * n + 3) = k * (4 * n + 3) + (4 * n + 3) := Nat.succ_mul _ _
      refine ⟨_, ?_, rfl⟩
      rw [addAligned, if_neg (by simp only [sizeMax]; omega), hstep]
      generalize k * (4 * n + 3) = used
      exact congrArg some (by omega))
  rw [ht, hp]

theorem typedPoolMemoryRequired_eq {n count : Nat} (hpos : 0 < n) (hmax : n ≤ 2 ^ 18)
    (hcount : count ≤ 3) : typedPoolMemoryRequired n n count 4 4 =
      componentPoolMemoryRequired n n + count * (4 * n + 3) := by
  have heq := componentPoolMemoryRequired_eq hpos hmax
  rw [typedPoolMemoryRequired, if_neg (by rw [handleIndexMask_toNat]; omega),
    addAligned_loop hmax (by omega) hcount]
  rfl

theorem typedPoolInit_ok (V : Type) [Zero V] {n count : Nat} (hpos : 0 < n) (hmax : n ≤ 2 ^ 18)
    (hcount : count ≤ 3) :
    Initializes (fun a => typedPoolInit V a n n (typedPoolMemoryRequired n n count 4 4) count 4 4)
      (typedPoolMemoryRequired n n count 4 4) (.zeroed n n) := by
  intro a ha hroom
  have heq := typedPoolMemoryRequired_eq hpos hmax hcount
  have hcomponents := componentPoolMemoryRequired_eq hpos hmax
  have hguard := ha.wf.guard
  have hbudget : arenaHasBudget a (typedPoolMemoryRequired n n count 4 4) = true := by
    simp only [arenaHasBudget, Bool.and_eq_true, decide_eq_true_eq]
    omega
  obtain ⟨b, hb, hspent⟩ := componentPoolInit_ok hpos hmax a ha (by omega)
  have hneed : blocksNeed (List.replicate count (4 * n, 4)) = count * (4 * n + 3) := by
    simp [blocksNeed, List.sum_replicate]
    left
    omega
  have hoff := hspent.offset_le
  have halign : PowerAligned (List.replicate count (4 * n, 4)) :=
    powerAligned_fours fun block hblock => by rw [List.eq_of_mem_replicate hblock]
  obtain ⟨c, hc, hspent'⟩ := pushAll_ok halign hspent.backed (by rw [hneed, hspent.backing.reserved]; omega)
  rw [hneed] at hspent'
  refine ⟨c, ?_, heq ▸ hspent.trans hspent'⟩
  have hne : typedPoolMemoryRequired n n count 4 4 ≠ 0 := by omega
  simp only at hb
  simp only [typedPoolInit, hne, hbudget, Bool.not_true, Bool.false_eq_true, or_self, if_false, hb,
    hc]
  rfl

theorem damageEventQueueMemoryRequired_eq {capacity : Nat} (hpos : 0 < capacity)
    (hmax : capacity < 2 ^ 32) :
    damageEventQueueMemoryRequired capacity = (12 * capacity + 3) * 2 := by
  rw [damageEventQueueMemoryRequired, if_neg (by simp only [sizeMax]; omega)]
  simp only
  rw [if_neg (by simp only [sizeMax]; omega)]

theorem damageEventQueueInit_ok {capacity : Nat} (hpos : 0 < capacity) (hmax : capacity < 2 ^ 32) :
    Initializes (fun a => damageEventQueueInit a capacity)
      (damageEventQueueMemoryRequired capacity) (.zeroed capacity) := by
  intro a ha hroom
  have heq := damageEventQueueMemoryRequired_eq hpos hmax
  have hneed : blocksNeed [(12 * capacity, 4), (12 * capacity, 4)] =
      damageEventQueueMemoryRequired capacity := by
    rw [heq]
    simp [blocksNeed]
    omega
  have halign : PowerAligned [(12 * capacity, 4), (12 * capacity, 4)] :=
    powerAligned_fours (by simp)
  have hguard : ¬ (a.base = 0 ∨ a.reserved < a.offset ∨
      damageEventQueueMemoryRequired capacity = 0 ∨
      a.reserved - a.offset < damageEventQueueMemoryRequired capacity) := by
    have := ha.wf.guard
    omega
  rw [← hneed] at hroom
  obtain ⟨stop, hstop⟩ := layoutAll_ok halign ha.wf hroom
  obtain ⟨b, hb, hspent⟩ := pushAll_ok halign ha hroom
  rw [hneed] at hspent
  refine ⟨b, ?_, hspent⟩
  simp only [damageEventQueueInit, if_neg hguard, hstop, hb]
  rfl

theorem addRequired_ok {total required : Nat} (hpos : required ≠ 0)
    (h : total + required ≤ sizeMax) : addRequired total required = some (total + required) := by
  rw [addRequired, if_neg (by omega)]

namespace SimWorld

def entityNeed (config : SimWorldConfig) : Nat :=
  entityManagerMemoryRequired config.maxEntities.toNat

def poolNeed (count : Nat) (config : SimWorldConfig) : Nat :=
  typedPoolMemoryRequired config.maxEntities.toNat config.maxEntities.toNat count 4 4

def queueNeed (config : SimWorldConfig) : Nat :=
  damageEventQueueMemoryRequired config.damageEventCapacity.toNat

theorem memoryRequired_eq {config : SimWorldConfig} (h : simConfigValid config = true) :
    simWorldMemoryRequired config = entityNeed config + (poolNeed 3 config + (poolNeed 2 config +
      (poolNeed 3 config + queueNeed config))) + (4 * config.maxEntities.toNat + 3) := by
  obtain ⟨hpos, hmax, -, -, hevents⟩ := config_bounds h
  have hlt := config.damageEventCapacity.toNat_lt
  have hentity : entityNeed config = 2 * config.maxEntities.toNat + (2 - 1) +
      (1 * config.maxEntities.toNat + (1 - 1)) + (4 * config.maxEntities.toNat + (4 - 1)) := by
    rw [entityNeed, entityManagerMemoryRequired, if_neg (by rw [handleIndexMask_toNat]; omega)]
  have hpool := componentPoolMemoryRequired_eq hpos hmax
  have hthree : poolNeed 3 config = _ := typedPoolMemoryRequired_eq hpos hmax (Nat.le_refl 3)
  have htwo : poolNeed 2 config = _ := typedPoolMemoryRequired_eq hpos hmax (Nat.le_succ 2)
  have hqueue : queueNeed config = _ := damageEventQueueMemoryRequired_eq hevents hlt
  have hsmall : entityNeed config + (poolNeed 3 config + (poolNeed 2 config +
      (poolNeed 3 config + queueNeed config))) + (4 * config.maxEntities.toNat + 3) ≤ sizeMax := by
    simp only [sizeMax]
    omega
  simp only [simWorldMemoryRequired, h, Bool.not_true, Bool.false_eq_true, if_false,
    transformPoolMemoryRequired, velocityPoolMemoryRequired, healthPoolMemoryRequired]
  change ((addRequired 0 (entityNeed config)).bind fun total =>
    (addRequired total (poolNeed 3 config)).bind fun total =>
    (addRequired total (poolNeed 2 config)).bind fun total =>
    (addRequired total (poolNeed 3 config)).bind fun total =>
    (addRequired total (queueNeed config)).bind fun total =>
    if sizeMax - (4 - 1) < 4 * config.maxEntities.toNat then none
    else addRequired total (4 * config.maxEntities.toNat + 4 - 1)).getD 0 = _
  rw [addRequired_ok (by omega) (by omega), Option.bind_some,
    addRequired_ok (by omega) (by omega), Option.bind_some,
    addRequired_ok (by omega) (by omega), Option.bind_some,
    addRequired_ok (by omega) (by omega), Option.bind_some,
    addRequired_ok (by omega) (by omega), Option.bind_some,
    if_neg (by simp only [sizeMax]; omega), addRequired_ok (by omega) (by omega), Option.getD_some]
  omega

theorem simInitPools_ok {config : SimWorldConfig} (h : simConfigValid config = true)
    (seed : UInt64) : Initializes (fun a => simInitPools a seed config)
      (entityNeed config + (poolNeed 3 config + (poolNeed 2 config +
        (poolNeed 3 config + queueNeed config)))) (empty seed config) := by
  obtain ⟨hpos, hmax, -, -, hevents⟩ := config_bounds h
  have hlt := config.damageEventCapacity.toNat_lt
  refine (entityManagerInit_ok hpos hmax).andThen ?_
  refine (typedPoolInit_ok Transform hpos hmax (Nat.le_refl 3)).andThen ?_
  refine (typedPoolInit_ok Velocity hpos hmax (Nat.le_succ 2)).andThen ?_
  refine (typedPoolInit_ok Health hpos hmax (Nat.le_refl 3)).andThen ?_
  refine Initializes.andThen (n := 0) (damageEventQueueInit_ok hevents hlt) ?_
  exact fun a ha _ => ⟨a, rfl, ha.spent⟩

theorem init_spent {config : SimWorldConfig} (h : simConfigValid config = true) (seed : UInt64)
    {a : Arena} (ha : a.Backed) (hroom : a.offset + simWorldMemoryRequired config ≤ a.reserved) :
    (∃ staged, simInitPools a seed config = some (staged, some (empty seed config))) ∧
      ∃ b w, simInit a seed config = some (b, some w) ∧
        b.offset ≤ a.offset + simWorldMemoryRequired config := by
  have heq := memoryRequired_eq h
  have hpos : 0 < config.maxEntities.toNat := (config_bounds h).1
  obtain ⟨staged, hstaged, hspent⟩ := simInitPools_ok h seed a ha (by omega)
  have hoff := hspent.offset_le
  obtain ⟨pushed, address, hpush, -, -, -, hpushed⟩ := arenaPush_ok hspent.backed.wf
    hspent.backed.commits (4 * config.maxEntities.toNat) (k := 2) (by rw [hspent.backing.reserved]; omega)
  obtain ⟨w, hw, -⟩ := init_populated seed h
  have hguard : ¬ (a.base = 0 ∨ a.reserved < a.offset ∨ simWorldMemoryRequired config = 0 ∨
      a.reserved - a.offset < simWorldMemoryRequired config) := by
    have := ha.wf.guard
    omega
  simp only at hstaged
  refine ⟨⟨staged, hstaged⟩, pushed, w, ?_, by omega⟩
  simp only [simInit, if_neg hguard, hstaged]
  rw [show (4 : Nat) = 2 ^ 2 from rfl] at hpush ⊢
  rw [hpush, hw]

theorem init_ok {config : SimWorldConfig} (h : simConfigValid config = true) (seed : UInt64)
    {a : Arena} (ha : a.Backed) (hroom : a.offset + simWorldMemoryRequired config ≤ a.reserved) :
    ∃ b w, simInit a seed config = some (b, some w) := by
  obtain ⟨-, b, w, hinit, -⟩ := init_spent h seed ha hroom
  exact ⟨b, w, hinit⟩

theorem init_refused {config : SimWorldConfig} {a : Arena} (seed : UInt64)
    (h : simConfigValid config = false ∨ a.reserved - a.offset < simWorldMemoryRequired config) :
    simInit a seed config = some (a, none) := by
  refine if_pos (Or.inr (Or.inr ?_))
  rcases h with hinvalid | hbudget
  · refine Or.inl ?_
    simp only [simWorldMemoryRequired, hinvalid, Bool.not_false, if_true]
  · exact Or.inr hbudget

end SimWorld

-- `world` is what the caller's object holds; it is written only when everything has succeeded
def simInitInto (world : SimWorld) (arena : Arena) (seed : UInt64) (config : SimWorldConfig) :
    Option (Bool × SimWorld × Arena) :=
  (simInit arena seed config).map fun r => (r.2.isSome, r.2.getD world, r.1)

theorem simInit_memory_budget {arena : Arena} (wf : arena.Wf) (hcommits : arena.CommitsPages)
    (world : SimWorld) (seed : UInt64) (config : SimWorldConfig) :
    (simConfigValid config = true →
      simWorldMemoryRequired config ≤ arena.reserved - arena.offset →
        (∃ staged pools, simInitPools arena seed config = some (staged, some pools)) ∧
        ∃ started grown, simInitInto world arena seed config = some (true, started, grown) ∧
          grown.offset ≤ arena.offset + simWorldMemoryRequired config) ∧
    (simConfigValid config = false ∨
      arena.reserved - arena.offset < simWorldMemoryRequired config →
        simInitInto world arena seed config = some (false, world, arena)) := by
  constructor
  · intro hvalid hbudget
    have hoffset := wf.offset_le
    have hcommitted := wf.committed_le
    obtain ⟨⟨staged, hpools⟩, grown, started, hinit, hgrown⟩ :=
      SimWorld.init_spent hvalid seed ⟨wf, wf.commitSucceeds hcommits⟩ (by omega)
    refine ⟨⟨staged, _, hpools⟩, started, grown, ?_, hgrown⟩
    rw [simInitInto, hinit]
    rfl
  · intro hrefused
    rw [simInitInto, SimWorld.init_refused seed hrefused]
    rfl

def budgetArena : Arena where
  base := 65537
  offset := 4001
  committed := 4096
  reserved := 8192
  highWater := 4001
  commit := some fun _ => true
  commitGranularity := 4096
  base_le := by decide

theorem simInit_memory_budget_small : ∃ started grown,
    simInitInto (.empty 0 ⟨1, 0, 1⟩) budgetArena 7 ⟨2, 1, 3⟩ = some (true, started, grown) ∧
      grown.offset ≤ 4001 + 294 := by
  have wf : budgetArena.Wf := ⟨by decide, by decide, by decide, by decide⟩
  have hcommits : budgetArena.CommitsPages := Or.inr ⟨_, rfl, fun _ => rfl, by decide⟩
  exact ((simInit_memory_budget wf hcommits _ 7 ⟨2, 1, 3⟩).1 (by decide) (by decide)).2

end ChoonzMoba
