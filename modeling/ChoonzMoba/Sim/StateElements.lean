import ChoonzMoba.Library.FirstDifference
import ChoonzMoba.Library.LittleEndian
import ChoonzMoba.Sim.SimHash

namespace ChoonzMoba

abbrev StateElement := (SimStateField × Nat) × Nat

namespace SimStateField

def encode (field : SimStateField) (value : Nat) : List UInt8 :=
  match field with
  | tick | rngState | rngInc => LittleEndian.encode 8 value
  | entityGeneration => LittleEndian.encode 2 value
  | entityLiveness => LittleEndian.encode 1 value
  | transformEntity | velocityEntity | healthEntity =>
    if value = 0 then [0] else 1 :: LittleEndian.encode 4 value
  | _ => LittleEndian.encode 4 value

def bound : SimStateField → Nat
  | tick | rngState | rngInc => 256 ^ 8
  | entityGeneration => 256 ^ 2
  | entityLiveness => 256 ^ 1
  | _ => 256 ^ 4

theorem encode_separates {field : SimStateField} {x y : Nat} (hx : x < field.bound)
    (hy : y < field.bound) (hne : x ≠ y) (u v : List UInt8) :
    field.encode x ++ u ≠ field.encode y ++ v := by
  have member : ∀ u v, x < 256 ^ 4 → y < 256 ^ 4 →
      (if x = 0 then [0] else 1 :: LittleEndian.encode 4 x) ++ u ≠
        (if y = 0 then [0] else 1 :: LittleEndian.encode 4 y) ++ v := by
    intro u v hx hy heq
    split at heq
    · split at heq
      · omega
      · simp at heq
    · split at heq
      · simp at heq
      · simp only [List.cons_append, List.cons.injEq, true_and] at heq
        exact hne (LittleEndian.encode_append_inj hx hy heq).1
  cases field
  case transformEntity => exact member u v hx hy
  case velocityEntity => exact member u v hx hy
  case healthEntity => exact member u v hx hy
  all_goals exact fun heq => hne (LittleEndian.encode_append_inj hx hy heq).1

end SimStateField

namespace StateElement

def bytes (element : StateElement) : List UInt8 := element.1.1.encode element.2

def scalar (field : SimStateField) (value : Nat) : StateElement :=
  ((field, simStateDiffNoIndex), value)

def indexed (n : Nat) (field : SimStateField) (value : Nat → Nat) : List StateElement :=
  (List.range n).flatMap fun i => [((field, i), value i)]

end StateElement

open StateElement

def DamageEvent.elements (fields : DamageEventFields) (ordinal : Nat) (event : DamageEvent) :
    List StateElement :=
  [((fields.source, ordinal), event.source.h.toNat),
    ((fields.target, ordinal), event.target.h.toNat),
    ((fields.amount, ordinal), (i32Bits event.amount).toNat)]

def DamageEventQueue.elements (fields : DamageEventFields) (buffer : Nat)
    (queue : DamageEventQueue) : List StateElement :=
  [scalar fields.count (queue.counts buffer)] ++
    (List.range (queue.counts buffer)).flatMap fun ordinal =>
      (queue.buffers buffer ordinal).elements fields ordinal

def Transform.elements (index : Nat) (t : Transform) : List StateElement :=
  [((.positionX, index), (i32Bits t.positionX).toNat),
    ((.positionY, index), (i32Bits t.positionY).toNat),
    ((.facing, index), (i32Bits t.facing).toNat)]

def Velocity.elements (index : Nat) (v : Velocity) : List StateElement :=
  [((.velocityX, index), (i32Bits v.velocityX).toNat),
    ((.velocityY, index), (i32Bits v.velocityY).toNat)]

def Health.elements (index : Nat) (h : Health) : List StateElement :=
  [((.healthCurrent, index), (i32Bits h.current).toNat),
    ((.healthMaximum, index), (i32Bits h.maximum).toNat),
    ((.damageCooldown, index), h.damageCooldown.toNat)]

def TypedPool.elements {V : Type} (count entity : SimStateField)
    (record : Nat → V → List StateElement) (pool : TypedPool V) (manager : EntityManager) :
    List StateElement :=
  [scalar count pool.membership.count] ++
    (List.range manager.nextFresh).flatMap fun index =>
      let e := entityAt manager index
      if typedPoolHas pool e then
        ((entity, index), e.h.toNat) ::
          record index (pool.values (componentPoolDenseIndex pool.membership e))
      else [((entity, index), 0)]

namespace SimWorld

def scalarElements (w : SimWorld) : List StateElement :=
  [scalar .tick w.tick.toNat, scalar .configMaxEntities w.config.maxEntities.toNat,
    scalar .configInitialUnitCount w.config.initialUnitCount.toNat,
    scalar .configDamageEventCapacity w.config.damageEventCapacity.toNat,
    scalar .rngState w.rng.state.toNat, scalar .rngInc w.rng.inc.toNat,
    scalar .entityCapacity w.entities.capacity, scalar .entityLiveCount w.entities.liveCount,
    scalar .entityNextFresh w.entities.nextFresh, scalar .entityFreeCount w.entities.freeCount]

def entityElements (w : SimWorld) : List StateElement :=
  indexed w.entities.nextFresh .entityGeneration w.entities.generations ++
    (indexed w.entities.nextFresh .entityLiveness w.entities.liveness ++
      (indexed w.entities.freeCount .entityFreeStack w.entities.freeStack ++
        indexed simMaxUnits .unitEntity fun unit => (w.unitEntities unit).h.toNat))

def pendingElements (w : SimWorld) : List StateElement :=
  [scalar .pendingDestroyCount w.pendingDestroyCount] ++
    indexed w.pendingDestroyCount .pendingDestroyEntity fun i => (w.pendingDestroy i).h.toNat

def eventElements (w : SimWorld) : List StateElement :=
  w.damageEvents.elements readFields w.damageEvents.readIndex ++
    w.damageEvents.elements writeFields w.damageEvents.writeIndex

def componentElements (w : SimWorld) : List StateElement :=
  w.transforms.elements .transformCount .transformEntity Transform.elements w.entities ++
    (w.velocities.elements .velocityCount .velocityEntity Velocity.elements w.entities ++
      w.health.elements .healthCount .healthEntity Health.elements w.entities)

def elements (w : SimWorld) : List StateElement :=
  w.scalarElements ++ (w.entityElements ++ (w.pendingElements ++
    (w.eventElements ++ w.componentElements)))

end SimWorld

section

variable {σ : Type} (u8 : σ → UInt8 → σ)

def absorb (elements : List StateElement) (hash : σ) : σ :=
  (elements.flatMap StateElement.bytes).foldl u8 hash

theorem absorb_append (as bs : List StateElement) (hash : σ) :
    absorb u8 (as ++ bs) hash = absorb u8 bs (absorb u8 as hash) := by
  simp [absorb, List.flatMap_append, List.foldl_append]

theorem absorb_cons (a : StateElement) (bs : List StateElement) (hash : σ) :
    absorb u8 (a :: bs) hash = absorb u8 bs (absorb u8 [a] hash) :=
  absorb_append u8 [a] bs hash

theorem absorb_range (n : Nat) (elements : Nat → List StateElement) (hash : σ) :
    absorb u8 ((List.range n).flatMap elements) hash =
      Loop.forRange n (fun hash i => absorb u8 (elements i) hash) hash := by
  induction n with
  | zero => rfl
  | succ n ih =>
    rw [List.range_succ, List.flatMap_append, absorb_append, ih, Loop.forRange_succ]
    simp

theorem hashU16Le_eq (hash : σ) (value : UInt16) :
    hashU16Le u8 hash value = (LittleEndian.encode 2 value.toNat).foldl u8 hash := by
  rw [LittleEndian.encode_uint16]
  rfl

theorem hashU32Le_eq (hash : σ) (value : UInt32) :
    hashU32Le u8 hash value = (LittleEndian.encode 4 value.toNat).foldl u8 hash := by
  rw [LittleEndian.encode_uint32, hashU32Le]
  have h0 : value >>> UInt32.ofNat (0 * 8) = value := by simp
  simp only [Loop.forRange_succ, Loop.forRange_zero, h0]
  rfl

theorem hashU32Le_ofNat (hash : σ) (n : Nat) :
    hashU32Le u8 hash (UInt32.ofNat n) = (LittleEndian.encode 4 n).foldl u8 hash := by
  rw [hashU32Le_eq, LittleEndian.encode_uint32_ofNat]

theorem hashU64Le_eq (hash : σ) (value : UInt64) :
    hashU64Le u8 hash value = (LittleEndian.encode 8 value.toNat).foldl u8 hash := by
  rw [LittleEndian.encode_uint64, hashU64Le]
  have h0 : value >>> UInt64.ofNat (0 * 8) = value := by simp
  simp only [Loop.forRange_succ, Loop.forRange_zero, h0]
  rfl

theorem absorb_one (a : StateElement) (hash : σ) : absorb u8 [a] hash = a.bytes.foldl u8 hash := by
  simp [absorb]

theorem absorb_cons_cons (a b : StateElement) (cs : List StateElement) (hash : σ) :
    absorb u8 (a :: b :: cs) hash = absorb u8 (b :: cs) (a.bytes.foldl u8 hash) := by
  rw [absorb_cons, absorb_one]

theorem absorb_indexed (n : Nat) (field : SimStateField) (value : Nat → Nat) (hash : σ) :
    absorb u8 (indexed n field value) hash =
      Loop.forRange n (fun hash i => (field.encode (value i)).foldl u8 hash) hash := by
  simp only [indexed, absorb_range, absorb_one, StateElement.bytes]

theorem hashScalars_eq (hash : σ) (w : SimWorld) :
    hashScalars u8 hash w = absorb u8 w.scalarElements hash := by
  simp only [hashScalars, hashU64Le_eq, hashU32Le_eq, LittleEndian.encode_uint32_ofNat,
    SimWorld.scalarElements, absorb_cons_cons, absorb_one]
  rfl

theorem hashDamageEvent_eq (fields : DamageEventFields)
    (hfields : fields = readFields ∨ fields = writeFields) (ordinal : Nat) (hash : σ)
    (event : DamageEvent) :
    hashDamageEvent u8 hash event = absorb u8 (event.elements fields ordinal) hash := by
  simp only [hashDamageEvent, hashU32Le_eq, DamageEvent.elements, absorb_cons_cons, absorb_one]
  rcases hfields with rfl | rfl <;> rfl

theorem hashDamagePhase_eq (fields : DamageEventFields)
    (hfields : fields = readFields ∨ fields = writeFields) (buffer : Nat) (hash : σ)
    (queue : DamageEventQueue) :
    hashDamagePhase u8 buffer hash queue = absorb u8 (queue.elements fields buffer) hash := by
  have hcount : hashU32Le u8 hash (UInt32.ofNat (queue.counts buffer)) =
      absorb u8 [scalar fields.count (queue.counts buffer)] hash := by
    rw [hashU32Le_ofNat, absorb_one]
    rcases hfields with rfl | rfl <;> rfl
  rw [hashDamagePhase, DamageEventQueue.elements, absorb_append, absorb_range, hcount]
  congr 1
  funext hash ordinal
  exact hashDamageEvent_eq u8 fields hfields ordinal hash _

theorem entity_ne_null {V : Type} {pool : TypedPool V} {e : EntityId}
    (h : typedPoolHas pool e = true) : e.h.toNat ≠ 0 := by
  intro hz
  have hnull : e.h = handleNull := UInt32.toNat_inj.mp hz
  have hfits : entityFits pool.membership e = false := by simp [entityFits, hnull]
  simp [typedPoolHas, componentPoolHas, hfits] at h

theorem hashComponents_eq {V : Type} {count entity : SimStateField}
    {elements : Nat → V → List StateElement} {record : σ → V → σ}
    (hcount : ∀ n, count.encode n = LittleEndian.encode 4 n)
    (hentity : ∀ n, entity.encode n = if n = 0 then [0] else 1 :: LittleEndian.encode 4 n)
    (hrecord : ∀ hash index v, record hash v = absorb u8 (elements index v) hash)
    (pool : TypedPool V) (hash : σ) (w : SimWorld) :
    hashComponents u8 record pool hash w =
      absorb u8 (pool.elements count entity elements w.entities) hash := by
  have hfirst : hashU32Le u8 hash (UInt32.ofNat pool.membership.count) =
      absorb u8 [scalar count pool.membership.count] hash := by
    rw [hashU32Le_ofNat, absorb_one]
    exact congrArg (List.foldl u8 hash) (hcount _).symm
  rw [hashComponents, TypedPool.elements, absorb_append, absorb_range, hfirst]
  congr 1
  funext hash index
  dsimp only
  split
  · next hhas =>
    have hne := entity_ne_null hhas
    rw [absorb_cons, absorb_one, ← hrecord, StateElement.bytes, hentity, if_neg hne,
      List.foldl_cons, hashU32Le_eq]
  · rw [absorb_one, StateElement.bytes, hentity, if_pos rfl]
    rfl

theorem hashTransform_eq (hash : σ) (w : SimWorld) : hashTransform u8 hash w = absorb u8
    (w.transforms.elements .transformCount .transformEntity Transform.elements w.entities) hash := by
  refine hashComponents_eq u8 (fun _ => rfl) (fun _ => rfl) (fun hash index t => ?_) _ _ _
  simp only [hashU32Le_eq, Transform.elements, absorb_cons_cons, absorb_one]
  rfl

theorem hashVelocity_eq (hash : σ) (w : SimWorld) : hashVelocity u8 hash w = absorb u8
    (w.velocities.elements .velocityCount .velocityEntity Velocity.elements w.entities) hash := by
  refine hashComponents_eq u8 (fun _ => rfl) (fun _ => rfl) (fun hash index v => ?_) _ _ _
  simp only [hashU32Le_eq, Velocity.elements, absorb_cons_cons, absorb_one]
  rfl

theorem hashHealth_eq (hash : σ) (w : SimWorld) : hashHealth u8 hash w = absorb u8
    (w.health.elements .healthCount .healthEntity Health.elements w.entities) hash := by
  refine hashComponents_eq u8 (fun _ => rfl) (fun _ => rfl) (fun hash index h => ?_) _ _ _
  simp only [hashU32Le_eq, Health.elements, absorb_cons_cons, absorb_one]
  rfl

theorem hashWorld_eq (hash : σ) (w : SimWorld) :
    hashWorld u8 hash w = absorb u8 w.elements hash := by
  have hliveness : ∀ (hash : σ) (i : Nat), u8 hash (UInt8.ofNat (w.entities.liveness i)) =
      (SimStateField.entityLiveness.encode (w.entities.liveness i)).foldl u8 hash := fun _ _ => rfl
  have hpending : ∀ hash : σ, hashU32Le u8 hash (UInt32.ofNat w.pendingDestroyCount) =
      absorb u8 [scalar .pendingDestroyCount w.pendingDestroyCount] hash := by
    intro hash
    rw [hashU32Le_ofNat, absorb_one]
    rfl
  simp only [hashWorld, SimWorld.elements, SimWorld.entityElements, SimWorld.pendingElements,
    SimWorld.eventElements, SimWorld.componentElements, absorb_append, absorb_indexed,
    ← hashScalars_eq, ← hashTransform_eq, ← hashVelocity_eq, ← hashHealth_eq, hashDamageEvents,
    ← hashDamagePhase_eq u8 readFields (Or.inl rfl),
    ← hashDamagePhase_eq u8 writeFields (Or.inr rfl), ← hpending, hliveness, hashU16Le_eq,
    LittleEndian.encode_uint16_ofNat, hashU32Le_eq, LittleEndian.encode_uint32_ofNat]
  rfl

end

theorem foldl_append_singleton (bytes front : List UInt8) :
    bytes.foldl (fun bytes b => bytes ++ [b]) front = front ++ bytes := by
  induction bytes generalizing front with
  | nil => simp
  | cons b bytes ih => rw [List.foldl_cons, ih, List.append_assoc]; rfl

theorem simHashBytes_eq (w : SimWorld) :
    simHashBytes w = w.elements.flatMap StateElement.bytes := by
  rw [simHashBytes, hashWorld_eq, absorb, foldl_append_singleton, List.nil_append]

theorem simHashState_eq {w : SimWorld} (h : canonicalWorldValid w = true) :
    simHashState w = (simHashBytes w).foldl hashU8 fnv1a64Offset := by
  rw [simHashBytes_eq, simHashState, h, hashWorld_eq]
  rfl

end ChoonzMoba
