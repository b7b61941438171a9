import ChoonzMoba.Sim.ComponentArrays

namespace ChoonzMoba.Soa

theorem typedPoolInit_bounds {V : Type} [Zero V] {arena pushed : Arena}
    {entityCapacity capacity required arrayCount elementSize elementAlignment : Nat}
    {p : TypedPool V}
    (h : typedPoolInit V arena entityCapacity capacity required arrayCount elementSize
      elementAlignment = some (pushed, some p)) :
    p = .zeroed entityCapacity capacity ∧ entityCapacity ≤ 2 ^ 18 ∧ capacity ≤ entityCapacity := by
  refine ⟨typedPoolInit_some h, ?_⟩
  have hvalid : componentPoolMemoryRequired entityCapacity capacity ≠ 0 := by
    intro hzero
    have hinit : componentPoolInit arena entityCapacity capacity = some (arena, none) := by
      simp [componentPoolInit, hzero]
    unfold typedPoolInit at h
    rw [hinit] at h
    split at h <;> cases h
  have hmask := handleIndexMask_toNat
  rw [componentPoolMemoryRequired] at hvalid
  split at hvalid
  · exact absurd rfl hvalid
  · omega

variable {V P : Type}

theorem get_map {View : Type} (pool : ComponentPool) (e : EntityId) (view : Nat → View) :
    (if componentPoolDenseIndex pool e = componentPoolInvalidDense then none
      else some (view (componentPoolDenseIndex pool e))) =
      (if componentPoolDenseIndex pool e = componentPoolInvalidDense then none
        else some (componentPoolDenseIndex pool e)).map view := by
  split <;> rfl

theorem init_map {init : Initialized (TypedPool V)} {make : TypedPool V → P} {pushed : Arena}
    {p : P}
    (h : (init.map fun r => (r.1, r.2.map make)) = some (pushed, some p)) :
    ∃ staged, init = some (pushed, some staged) ∧ make staged = p := by
  obtain ⟨⟨arena, pool⟩, hinit, hr⟩ := Option.map_eq_some_iff.mp h
  obtain ⟨rfl, hpool⟩ := Prod.mk.inj hr
  obtain ⟨staged, rfl, hstaged⟩ := Option.map_eq_some_iff.mp hpool
  exact ⟨staged, hinit, hstaged⟩

def TransformPool.typed (pool : TransformPool) : TypedPool Transform :=
  ⟨pool.membership, fun d => ⟨pool.positionX d, pool.positionY d, pool.facing d⟩⟩

def transformOps : PoolOps TransformPool Transform TransformView TransformWrite where
  init := transformPoolInit
  membership := TransformPool.membership
  add pool entity v := transformPoolAdd pool entity v.positionX v.positionY v.facing
  remove := transformPoolRemove
  get := transformPoolGet
  read := TransformView.read
  write := TransformWrite.through

theorem update_transform (x y f : Nat → Fix) (d : Nat) (v : Transform) :
    (fun i => (⟨Function.update x d v.positionX i, Function.update y d v.positionY i,
      Function.update f d v.facing i⟩ : Transform)) =
      Function.update (fun i => ⟨x i, y i, f i⟩) d v := by
  funext i
  by_cases h : i = d
  · subst h
    simp
  · simp [h]

def transformLayout :
    PoolLayout transformOps (fun _ => True) TransformWrite.apply where
  typed := TransformPool.typed
  view d := ⟨d, d, d⟩
  injective p q h := by
    obtain ⟨hmembership, hvalues⟩ := TypedPool.mk.inj h
    obtain ⟨m, x, y, f⟩ := p
    obtain ⟨m', x', y', f'⟩ := q
    obtain rfl : m = m' := hmembership
    obtain rfl : x = x' := funext fun d => congrArg Transform.positionX (congrFun hvalues d)
    obtain rfl : y = y' := funext fun d => congrArg Transform.positionY (congrFun hvalues d)
    obtain rfl : f = f' := funext fun d => congrArg Transform.facing (congrFun hvalues d)
    rfl
  membership _ := rfl
  init arena pushed entityCapacity capacity p h := by
    obtain ⟨staged, hinit, rfl⟩ := init_map h
    obtain ⟨rfl, hbounds⟩ := typedPoolInit_bounds hinit
    exact ⟨rfl, hbounds⟩
  add p e v _ := by
    rcases hadd : componentPoolAdd p.membership e with ⟨_ | dense, membership⟩
    · simp [transformOps, transformPoolAdd, typedPoolAdd, TransformPool.typed, hadd]
    · simp [transformOps, transformPoolAdd, typedPoolAdd, TransformPool.typed, hadd,
        update_transform]
  add_invalid _ _ _ h := absurd trivial h
  remove p e := by
    rcases hremove : componentPoolRemove p.membership e with ⟨_ | result, membership⟩
    · simp [transformOps, transformPoolRemove, typedPoolRemove, TransformPool.typed, hremove]
    · by_cases h : result.removedDense = result.movedFromDense
      · simp [transformOps, transformPoolRemove, typedPoolRemove, TransformPool.typed, hremove, h,
          ← update_transform]
        rfl
      · simp [transformOps, transformPoolRemove, typedPoolRemove, TransformPool.typed, hremove, h,
          ← update_transform]
        rfl
  get p e := get_map p.membership e fun d => (⟨d, d, d⟩ : TransformView)
  read _ _ := rfl
  write p d w := by
    cases w <;>
      simp [transformOps, TransformWrite.through, TransformWrite.apply, TransformPool.typed,
        TypedPool.write, ← update_transform]

def VelocityPool.typed (pool : VelocityPool) : TypedPool Velocity :=
  ⟨pool.membership, fun d => ⟨pool.velocityX d, pool.velocityY d⟩⟩

def velocityOps : PoolOps VelocityPool Velocity VelocityView VelocityWrite where
  init := velocityPoolInit
  membership := VelocityPool.membership
  add pool entity v := velocityPoolAdd pool entity v.velocityX v.velocityY
  remove := velocityPoolRemove
  get := velocityPoolGet
  read := VelocityView.read
  write := VelocityWrite.through

theorem update_velocity (x y : Nat → Fix) (d : Nat) (v : Velocity) :
    (fun i => (⟨Function.update x d v.velocityX i, Function.update y d v.velocityY i⟩ :
      Velocity)) = Function.update (fun i => ⟨x i, y i⟩) d v := by
  funext i
  by_cases h : i = d
  · subst h
    simp
  · simp [h]

def velocityLayout : PoolLayout velocityOps (fun _ => True) VelocityWrite.apply where
  typed := VelocityPool.typed
  view d := ⟨d, d⟩
  injective p q h := by
    obtain ⟨hmembership, hvalues⟩ := TypedPool.mk.inj h
    obtain ⟨m, x, y⟩ := p
    obtain ⟨m', x', y'⟩ := q
    obtain rfl : m = m' := hmembership
    obtain rfl : x = x' := funext fun d => congrArg Velocity.velocityX (congrFun hvalues d)
    obtain rfl : y = y' := funext fun d => congrArg Velocity.velocityY (congrFun hvalues d)
    rfl
  membership _ := rfl
  init arena pushed entityCapacity capacity p h := by
    obtain ⟨staged, hinit, rfl⟩ := init_map h
    obtain ⟨rfl, hbounds⟩ := typedPoolInit_bounds hinit
    exact ⟨rfl, hbounds⟩
  add p e v _ := by
    rcases hadd : componentPoolAdd p.membership e with ⟨_ | dense, membership⟩
    · simp [velocityOps, velocityPoolAdd, typedPoolAdd, VelocityPool.typed, hadd]
    · simp [velocityOps, velocityPoolAdd, typedPoolAdd, VelocityPool.typed, hadd, update_velocity]
  add_invalid _ _ _ h := absurd trivial h
  remove p e := by
    rcases hremove : componentPoolRemove p.membership e with ⟨_ | result, membership⟩
    · simp [velocityOps, velocityPoolRemove, typedPoolRemove, VelocityPool.typed, hremove]
    · by_cases h : result.removedDense = result.movedFromDense
      · simp [velocityOps, velocityPoolRemove, typedPoolRemove, VelocityPool.typed, hremove, h,
          ← update_velocity]
        rfl
      · simp [velocityOps, velocityPoolRemove, typedPoolRemove, VelocityPool.typed, hremove, h,
          ← update_velocity]
        rfl
  get p e := get_map p.membership e fun d => (⟨d, d⟩ : VelocityView)
  read _ _ := rfl
  write p d w := by
    cases w <;>
      simp [velocityOps, VelocityWrite.through, VelocityWrite.apply, VelocityPool.typed,
        TypedPool.write, ← update_velocity]

def HealthPool.typed (pool : HealthPool) : TypedPool Health :=
  ⟨pool.membership, fun d => ⟨pool.current d, pool.maximum d, pool.damageCooldown d⟩⟩

def HealthValid (v : Health) : Prop := 0 ≤ v.current ∧ v.current ≤ v.maximum

def healthOps : PoolOps HealthPool Health HealthView HealthWrite where
  init := healthPoolInit
  membership := HealthPool.membership
  add pool entity v := healthPoolAdd pool entity v.current v.maximum v.damageCooldown
  remove := healthPoolRemove
  get := healthPoolGet
  read := HealthView.read
  write := HealthWrite.through

theorem update_health (c m : Nat → Int32) (k : Nat → UInt32) (d : Nat) (v : Health) :
    (fun i => (⟨Function.update c d v.current i, Function.update m d v.maximum i,
      Function.update k d v.damageCooldown i⟩ : Health)) =
      Function.update (fun i => ⟨c i, m i, k i⟩) d v := by
  funext i
  by_cases h : i = d
  · subst h
    simp
  · simp [h]

theorem healthValid_iff (v : Health) :
    HealthValid v ↔ ¬ (v.current < 0 ∨ v.maximum < 0 ∨ v.maximum < v.current) := by
  simp only [HealthValid, not_or, Int32.lt_iff_toInt_lt, Int32.le_iff_toInt_le, not_lt]
  constructor
  · rintro ⟨hcurrent, hle⟩
    exact ⟨hcurrent, Int.le_trans hcurrent hle, hle⟩
  · rintro ⟨hcurrent, -, hle⟩
    exact ⟨hcurrent, hle⟩

def healthLayout : PoolLayout healthOps HealthValid HealthWrite.apply where
  typed := HealthPool.typed
  view d := ⟨d, d, d⟩
  injective p q h := by
    obtain ⟨hmembership, hvalues⟩ := TypedPool.mk.inj h
    obtain ⟨m, c, x, k⟩ := p
    obtain ⟨m', c', x', k'⟩ := q
    obtain rfl : m = m' := hmembership
    obtain rfl : c = c' := funext fun d => congrArg Health.current (congrFun hvalues d)
    obtain rfl : x = x' := funext fun d => congrArg Health.maximum (congrFun hvalues d)
    obtain rfl : k = k' := funext fun d => congrArg Health.damageCooldown (congrFun hvalues d)
    rfl
  membership _ := rfl
  init arena pushed entityCapacity capacity p h := by
    obtain ⟨staged, hinit, rfl⟩ := init_map h
    obtain ⟨rfl, hbounds⟩ := typedPoolInit_bounds hinit
    exact ⟨rfl, hbounds⟩
  add p e v hv := by
    have hguard := (healthValid_iff v).mp hv
    rcases hadd : componentPoolAdd p.membership e with ⟨_ | dense, membership⟩
    · simp [healthOps, healthPoolAdd, typedPoolAdd, HealthPool.typed, hadd, hguard]
    · simp [healthOps, healthPoolAdd, typedPoolAdd, HealthPool.typed, hadd, hguard, update_health]
  add_invalid p e v hv := if_pos (not_not.mp fun h => hv ((healthValid_iff v).mpr h))
  remove p e := by
    rcases hremove : componentPoolRemove p.membership e with ⟨_ | result, membership⟩
    · simp [healthOps, healthPoolRemove, typedPoolRemove, HealthPool.typed, hremove]
    · by_cases h : result.removedDense = result.movedFromDense
      · simp [healthOps, healthPoolRemove, typedPoolRemove, HealthPool.typed, hremove, h,
          ← update_health]
        rfl
      · simp [healthOps, healthPoolRemove, typedPoolRemove, HealthPool.typed, hremove, h,
          ← update_health]
        rfl
  get p e := get_map p.membership e fun d => (⟨d, d, d⟩ : HealthView)
  read _ _ := rfl
  write p d w := by
    cases w <;>
      simp [healthOps, HealthWrite.through, HealthWrite.apply, HealthPool.typed,
        TypedPool.write, ← update_health]

def TransformPool.zeroAt (pool : TransformPool) (d : Nat) : Prop :=
  pool.positionX d = 0 ∧ pool.positionY d = 0 ∧ pool.facing d = 0

def VelocityPool.zeroAt (pool : VelocityPool) (d : Nat) : Prop :=
  pool.velocityX d = 0 ∧ pool.velocityY d = 0

def HealthPool.zeroAt (pool : HealthPool) (d : Nat) : Prop :=
  pool.current d = 0 ∧ pool.maximum d = 0 ∧ pool.damageCooldown d = 0

theorem componentPools_refine_maps {transformPast : List (PoolEvent Transform TransformWrite)}
    {velocityPast : List (PoolEvent Velocity VelocityWrite)}
    {healthPast : List (PoolEvent Health HealthWrite)}
    {transforms : TransformPool × List (EntityId × TransformView)}
    {velocities : VelocityPool × List (EntityId × VelocityView)}
    {health : HealthPool × List (EntityId × HealthView)}
    (htransforms : transformOps.system.Trace transformPast transforms)
    (hvelocities : velocityOps.system.Trace velocityPast velocities)
    (hhealth : healthOps.system.Trace healthPast health) :
    RefinesMap transformOps (fun _ => True) TransformPool.zeroAt
      (contents TransformWrite.apply transformPast) transforms.1 ∧
    RefinesMap velocityOps (fun _ => True) VelocityPool.zeroAt
      (contents VelocityWrite.apply velocityPast) velocities.1 ∧
    RefinesMap healthOps HealthValid HealthPool.zeroAt
      (contents HealthWrite.apply healthPast) health.1 := by
  refine ⟨(PoolAfter.trace transformLayout htransforms).refinesMap fun p d h => ?_,
    (PoolAfter.trace velocityLayout hvelocities).refinesMap fun p d h => ?_,
    (PoolAfter.trace healthLayout hhealth).refinesMap fun p d h => ?_⟩
  · exact ⟨congrArg Transform.positionX h, congrArg Transform.positionY h,
      congrArg Transform.facing h⟩
  · exact ⟨congrArg Velocity.velocityX h, congrArg Velocity.velocityY h⟩
  · exact ⟨congrArg Health.current h, congrArg Health.maximum h,
      congrArg Health.damageCooldown h⟩

def movingRun {V W : Type} (v v' : V) (w : W) : List (PoolEvent V W) :=
  [.added ⟨handleMake 0 1⟩ v true, .added ⟨handleMake 1 1⟩ v' true, .got ⟨handleMake 1 1⟩ true,
    .wrote ⟨handleMake 1 1⟩ w, .removed ⟨handleMake 0 1⟩ true]

theorem componentPools_refine_maps_moved :
    let transforms := System.playAll transformOps.play
      (movingRun ⟨1, 2, 3⟩ ⟨4, 5, 6⟩ (.positionY 9))
      ([], (⟨.zeroed 2 2, fun _ => 0, fun _ => 0, fun _ => 0⟩, []))
    let velocities := System.playAll velocityOps.play
      (movingRun ⟨1, 2⟩ ⟨4, 5⟩ (.velocityX 9))
      ([], (⟨.zeroed 2 2, fun _ => 0, fun _ => 0⟩, []))
    let health := System.playAll healthOps.play
      (movingRun ⟨1, 2, 3⟩ ⟨4, 5, 6⟩ (.damageCooldown 9))
      ([], (⟨.zeroed 2 2, fun _ => 0, fun _ => 0, fun _ => 0⟩, []))
    transformOps.value transforms.2.1 ⟨handleMake 1 1⟩ = some ⟨4, 9, 6⟩ ∧
    velocityOps.value velocities.2.1 ⟨handleMake 1 1⟩ = some ⟨9, 5⟩ ∧
    healthOps.value health.2.1 ⟨handleMake 1 1⟩ = some ⟨4, 5, 9⟩ ∧
    (healthOps.add health.2.1 ⟨handleMake 1 2⟩ ⟨1, 1, 0⟩).1 = false ∧
    (transforms.2.1.positionX 1 = 0 ∧ transforms.2.1.positionY 1 = 0 ∧
      transforms.2.1.facing 1 = 0) := by
  intro transforms velocities health
  have htransforms : transformOps.system.Trace transforms.1 transforms.2 :=
    .playAll transformOps.play_next _
      (.start ⟨rfl, ⟨4096, 0, 128, 128, 0, none, 0, by decide⟩, _, 2, 2, rfl⟩)
  have hvelocities : velocityOps.system.Trace velocities.1 velocities.2 :=
    .playAll velocityOps.play_next _
      (.start ⟨rfl, ⟨4096, 0, 128, 128, 0, none, 0, by decide⟩, _, 2, 2, rfl⟩)
  have hhealth : healthOps.system.Trace health.1 health.2 :=
    .playAll healthOps.play_next _
      (.start ⟨rfl, ⟨4096, 0, 128, 128, 0, none, 0, by decide⟩, _, 2, 2, rfl⟩)
  obtain ⟨htransform, hvelocity, hhealth⟩ :=
    componentPools_refine_maps htransforms hvelocities hhealth
  refine ⟨(htransform.get _ _).mpr ?_, (hvelocity.get _ _).mpr ?_, (hhealth.get _ _).mpr ?_,
    (hhealth.add_fails _ _).mpr ?_, htransform.zeros 1 ?_⟩
  · decide +kernel
  · decide +kernel
  · decide +kernel
  · exact Or.inr (Or.inr (Or.inr (Or.inr (by decide +kernel))))
  · decide +kernel

end ChoonzMoba.Soa
