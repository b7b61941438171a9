import ChoonzMoba.Sim.StateElements

namespace ChoonzMoba

open FirstDifference StateElement

def SimStateDiff.parts (diff : SimStateDiff) : (SimStateField × Nat) × Nat × Nat :=
  ((diff.field, diff.index), diff.expectedValue, diff.actualValue)

abbrev DiffDescribes (diff : Option SimStateDiff) (expected actual : List StateElement) : Prop :=
  Describes SimStateDiff.parts diff expected actual

theorem diffAt_orElse {field : SimStateField} {i x y : Nat} {s : Option SimStateDiff}
    {cs ds : List StateElement} (h : x = y → DiffDescribes s cs ds) :
    DiffDescribes (diffAt field i x y <|> s) (((field, i), x) :: cs) (((field, i), y) :: ds) := by
  by_cases hxy : x = y
  · subst hxy
    have hrest := h rfl
    have hnone : (diffAt field i x x <|> s) = s := by simp [diffAt]
    rw [hnone]
    cases s with
    | none => exact congrArg (((field, i), x) :: ·) hrest
    | some d => exact At.prepend hrest [((field, i), x)]
  · have hsome : (diffAt field i x y <|> s) = some ⟨field, i, x, y⟩ := by simp [diffAt, hxy]
    rw [hsome]
    exact ⟨[], cs, ds, rfl, rfl, hxy⟩

theorem diffAt_describes (field : SimStateField) (i x y : Nat) :
    DiffDescribes (diffAt field i x y) [((field, i), x)] [((field, i), y)] := by
  by_cases hxy : x = y
  · subst hxy
    rw [diffAt, if_neg (not_not.mpr rfl)]
    rfl
  · rw [diffAt, if_pos hxy]
    exact ⟨[], [], [], rfl, rfl, hxy⟩

theorem diffScalar_orElse {field : SimStateField} {x y : Nat} {s : Option SimStateDiff}
    {cs ds : List StateElement} (h : x = y → DiffDescribes s cs ds) :
    DiffDescribes (diffScalar field x y <|> s) (scalar field x :: cs) (scalar field y :: ds) :=
  diffAt_orElse h

theorem diffLoop_indexed (n : Nat) (field : SimStateField) (x y : Nat → Nat) :
    DiffDescribes (diffLoop n fun i => diffAt field i (x i) (y i)) (indexed n field x)
      (indexed n field y) :=
  Describes.findSome fun i _ => diffAt_describes field i (x i) (y i)

theorem diffDamageEventRecord_describes (fields : DamageEventFields) (expected actual : DamageEvent)
    (ordinal : Nat) : DiffDescribes (diffDamageEventRecord expected actual ordinal fields)
      (expected.elements fields ordinal) (actual.elements fields ordinal) :=
  diffAt_orElse fun _ => diffAt_orElse fun _ => diffAt_describes _ _ _ _

theorem diffDamagePhase_describes (fields : DamageEventFields) (expected actual : DamageEventQueue)
    (i j : Nat) : DiffDescribes (diffDamagePhase fields expected actual i j)
      (expected.elements fields i) (actual.elements fields j) := by
  refine diffScalar_orElse fun hcount => ?_
  rw [← hcount]
  exact Describes.findSome fun ordinal _ => diffDamageEventRecord_describes fields _ _ ordinal

theorem diffDamageEvents_describes (expected actual : SimWorld) :
    DiffDescribes (diffDamageEvents expected actual) expected.eventElements actual.eventElements :=
  (diffDamagePhase_describes readFields _ _ _ _).orElse
    fun _ => diffDamagePhase_describes writeFields _ _ _ _

theorem diffTransformRecord_describes (index : Nat) (e a : Transform) : DiffDescribes
    (diffAt .positionX index (i32Bits e.positionX).toNat (i32Bits a.positionX).toNat <|>
      diffAt .positionY index (i32Bits e.positionY).toNat (i32Bits a.positionY).toNat <|>
      diffAt .facing index (i32Bits e.facing).toNat (i32Bits a.facing).toNat)
    (e.elements index) (a.elements index) :=
  diffAt_orElse fun _ => diffAt_orElse fun _ => diffAt_describes _ _ _ _

theorem diffVelocityRecord_describes (index : Nat) (e a : Velocity) : DiffDescribes
    (diffAt .velocityX index (i32Bits e.velocityX).toNat (i32Bits a.velocityX).toNat <|>
      diffAt .velocityY index (i32Bits e.velocityY).toNat (i32Bits a.velocityY).toNat)
    (e.elements index) (a.elements index) :=
  diffAt_orElse fun _ => diffAt_describes _ _ _ _

theorem diffHealthRecord_describes (index : Nat) (e a : Health) : DiffDescribes
    (diffAt .healthCurrent index (i32Bits e.current).toNat (i32Bits a.current).toNat <|>
      diffAt .healthMaximum index (i32Bits e.maximum).toNat (i32Bits a.maximum).toNat <|>
      diffAt .damageCooldown index e.damageCooldown.toNat a.damageCooldown.toNat)
    (e.elements index) (a.elements index) :=
  diffAt_orElse fun _ => diffAt_orElse fun _ => diffAt_describes _ _ _ _

theorem diffComponents_describes {V : Type} {count entity : SimStateField}
    {record : Nat → V → V → Option SimStateDiff} {elements : Nat → V → List StateElement}
    (hrecord : ∀ index e a, DiffDescribes (record index e a) (elements index e) (elements index a))
    {expected actual : SimWorld} (hfresh : expected.entities.nextFresh = actual.entities.nextFresh)
    (expectedPool actualPool : TypedPool V) :
    DiffDescribes (diffComponents count entity record expected actual expectedPool actualPool)
      (expectedPool.elements count entity elements expected.entities)
      (actualPool.elements count entity elements actual.entities) := by
  refine diffScalar_orElse fun _ => ?_
  rw [← hfresh]
  refine Describes.findSome fun index _ => ?_
  dsimp only
  generalize entityAt expected.entities index = e
  generalize entityAt actual.entities index = a
  cases he : typedPoolHas expectedPool e <;> cases ha : typedPoolHas actualPool a
  · exact (rfl : [((entity, index), 0)] = [((entity, index), 0)])
  · exact ⟨[], [], _, rfl, rfl, (entity_ne_null ha).symm⟩
  · exact ⟨[], _, [], rfl, rfl, entity_ne_null he⟩
  · simp only [ne_eq, not_true_eq_false, Bool.not_true, Bool.false_eq_true, if_false, if_true]
    by_cases hh : e.h = a.h
    · rw [if_neg (not_not.mpr hh), hh]
      have hrest := hrecord index (expectedPool.values (componentPoolDenseIndex expectedPool.membership e))
        (actualPool.values (componentPoolDenseIndex actualPool.membership a))
      cases hr : record index _ _ with
      | none =>
        rw [hr] at hrest
        exact congrArg (((entity, index), a.h.toNat) :: ·) hrest
      | some d =>
        rw [hr] at hrest
        exact At.prepend hrest [((entity, index), a.h.toNat)]
    · rw [if_pos hh]
      exact ⟨[], _, _, rfl, rfl, fun hc => hh (UInt32.toNat_inj.mp hc)⟩

theorem diffWorld_describes (expected actual : SimWorld) :
    DiffDescribes (diffWorld expected actual) expected.elements actual.elements := by
  unfold diffWorld SimWorld.elements SimWorld.scalarElements SimWorld.entityElements
    SimWorld.pendingElements SimWorld.componentElements
  simp only [List.cons_append, List.nil_append, List.append_assoc]
  refine diffScalar_orElse fun _ => diffScalar_orElse fun _ => diffScalar_orElse fun _ =>
    diffScalar_orElse fun _ => diffScalar_orElse fun _ => diffScalar_orElse fun _ =>
    diffScalar_orElse fun _ => diffScalar_orElse fun _ => diffScalar_orElse fun hfresh =>
    diffScalar_orElse fun hfree => ?_
  rw [← hfresh, ← hfree]
  refine (diffLoop_indexed _ _ _ _).orElse fun _ => ?_
  refine (diffLoop_indexed _ _ _ _).orElse fun _ => ?_
  refine (diffLoop_indexed _ _ _ _).orElse fun _ => ?_
  refine (diffLoop_indexed _ _ _ _).orElse fun _ => ?_
  refine diffScalar_orElse fun hpending => ?_
  rw [← hpending]
  refine (diffLoop_indexed _ _ _ _).orElse fun _ => ?_
  refine (diffDamageEvents_describes expected actual).orElse fun _ => ?_
  refine (diffComponents_describes diffTransformRecord_describes hfresh _ _).orElse fun _ => ?_
  refine (diffComponents_describes diffVelocityRecord_describes hfresh _ _).orElse fun _ => ?_
  exact diffComponents_describes diffHealthRecord_describes hfresh _ _

structure SimWorld.Encodable (w : SimWorld) : Prop where
  capacity : w.entities.capacity < 256 ^ 4
  liveCount : w.entities.liveCount < 256 ^ 4
  nextFresh : w.entities.nextFresh < 256 ^ 4
  freeCount : w.entities.freeCount < 256 ^ 4
  generations : ∀ i < w.entities.nextFresh, w.entities.generations i < 256 ^ 2
  liveness : ∀ i < w.entities.nextFresh, w.entities.liveness i < 256 ^ 1
  freeStack : ∀ i < w.entities.freeCount, w.entities.freeStack i < 256 ^ 4
  pending : w.pendingDestroyCount < 256 ^ 4
  reading : w.damageEvents.counts w.damageEvents.readIndex < 256 ^ 4
  writing : w.damageEvents.counts w.damageEvents.writeIndex < 256 ^ 4
  transforms : w.transforms.membership.count < 256 ^ 4
  velocities : w.velocities.membership.count < 256 ^ 4
  health : w.health.membership.count < 256 ^ 4

namespace StateElement

def Fits (elements : List StateElement) : Prop := ∀ a ∈ elements, a.2 < a.1.1.bound

theorem Fits.append {as bs : List StateElement} (ha : Fits as) (hb : Fits bs) : Fits (as ++ bs) :=
  fun a h => (List.mem_append.mp h).elim (ha a) (hb a)

theorem Fits.cons {a : StateElement} {bs : List StateElement} (ha : a.2 < a.1.1.bound)
    (hb : Fits bs) : Fits (a :: bs) :=
  List.forall_mem_cons.mpr ⟨ha, hb⟩

theorem Fits.nil : Fits [] := by
  intro a h
  cases h

theorem Fits.range {n : Nat} {elements : Nat → List StateElement}
    (h : ∀ i < n, Fits (elements i)) : Fits ((List.range n).flatMap elements) := by
  intro a ha
  obtain ⟨i, hi, hmem⟩ := List.mem_flatMap.mp ha
  exact h i (List.mem_range.mp hi) a hmem

theorem Fits.indexed {n : Nat} {field : SimStateField} {value : Nat → Nat}
    (h : ∀ i < n, value i < field.bound) : Fits (indexed n field value) :=
  Fits.range fun i hi => Fits.cons (h i hi) Fits.nil

end StateElement

open StateElement in
theorem DamageEventQueue.elements_fit {fields : DamageEventFields}
    (hfields : fields = readFields ∨ fields = writeFields) {buffer : Nat} {q : DamageEventQueue}
    (hcount : q.counts buffer < 256 ^ 4) : Fits (q.elements fields buffer) := by
  have hword : ∀ x : UInt32, x.toNat < 256 ^ 4 := fun x => x.toNat_lt
  rcases hfields with rfl | rfl
  · exact Fits.append (Fits.cons hcount Fits.nil) (Fits.range fun _ _ =>
      Fits.cons (hword _) (Fits.cons (hword _) (Fits.cons (hword _) Fits.nil)))
  · exact Fits.append (Fits.cons hcount Fits.nil) (Fits.range fun _ _ =>
      Fits.cons (hword _) (Fits.cons (hword _) (Fits.cons (hword _) Fits.nil)))

open StateElement in
theorem TypedPool.elements_fit {V : Type} {count entity : SimStateField}
    (hcount : count.bound = 256 ^ 4) (hentity : entity.bound = 256 ^ 4)
    {record : Nat → V → List StateElement} (hrecord : ∀ i v, Fits (record i v))
    {pool : TypedPool V} (hpool : pool.membership.count < 256 ^ 4) (m : EntityManager) :
    Fits (pool.elements count entity record m) := by
  refine Fits.append (Fits.cons (hcount ▸ hpool) Fits.nil) (Fits.range fun i _ => ?_)
  dsimp only
  split
  · exact Fits.cons (hentity ▸ UInt32.toNat_lt _) (hrecord _ _)
  · refine Fits.cons ?_ Fits.nil
    rw [hentity]
    exact (by decide : 0 < 256 ^ 4)

open StateElement in
theorem SimWorld.Encodable.fits {w : SimWorld} (h : w.Encodable) : Fits w.elements := by
  have hword : ∀ x : UInt32, x.toNat < 256 ^ 4 := fun x => x.toNat_lt
  have hlong : ∀ x : UInt64, x.toNat < 256 ^ 8 := fun x => x.toNat_lt
  have hscalars : Fits w.scalarElements :=
    Fits.cons (hlong _) (Fits.cons (hword _) (Fits.cons (hword _) (Fits.cons (hword _)
      (Fits.cons (hlong _) (Fits.cons (hlong _) (Fits.cons h.capacity (Fits.cons h.liveCount
      (Fits.cons h.nextFresh (Fits.cons h.freeCount Fits.nil)))))))))
  have hentities : Fits w.entityElements :=
    (Fits.indexed h.generations).append ((Fits.indexed h.liveness).append
      ((Fits.indexed h.freeStack).append (Fits.indexed fun _ _ => hword _)))
  have hpending : Fits w.pendingElements :=
    (Fits.cons h.pending Fits.nil).append (Fits.indexed fun _ _ => hword _)
  have hevents : Fits w.eventElements :=
    (DamageEventQueue.elements_fit (Or.inl rfl) h.reading).append
      (DamageEventQueue.elements_fit (Or.inr rfl) h.writing)
  have hcomponents : Fits w.componentElements := by
    refine Fits.append (TypedPool.elements_fit rfl rfl (fun i v => ?_) h.transforms _)
      (Fits.append (TypedPool.elements_fit rfl rfl (fun i v => ?_) h.velocities _)
        (TypedPool.elements_fit rfl rfl (fun i v => ?_) h.health _))
    · exact Fits.cons (hword _) (Fits.cons (hword _) (Fits.cons (hword _) Fits.nil))
    · exact Fits.cons (hword _) (Fits.cons (hword _) Fits.nil)
    · exact Fits.cons (hword _) (Fits.cons (hword _) (Fits.cons (hword _) Fits.nil))
  exact hscalars.append (hentities.append (hpending.append (hevents.append hcomponents)))

theorem entityManagerValid_bounds {m : EntityManager} {capacity : Nat}
    (h : entityManagerValid m capacity = true) :
    m.capacity = capacity ∧ m.nextFresh ≤ capacity ∧ m.liveCount ≤ m.nextFresh ∧
      m.freeCount ≤ m.nextFresh ∧
      (∀ i < m.nextFresh, m.generations i ≤ handleGenMask.toNat ∧ m.liveness i ≤ 1) ∧
      ∀ i < m.freeCount, m.freeStack i < m.nextFresh := by
  unfold entityManagerValid at h
  split at h
  · cases h
  · next hguard =>
    split at h
    · cases h
    · next observed hloop =>
      split at h
      · cases h
      · simp only [List.all_eq_true, List.mem_range, Bool.and_eq_true, decide_eq_true_eq] at h
        refine ⟨by omega, by omega, by omega, by omega, ?_, fun i hi => (h i hi).1⟩
        -- the loop only returns after every allocated slot passed its check
        refine Loop.forRangeM_partial (fun k _ => ∀ i < k, m.generations i ≤ handleGenMask.toNat ∧
          m.liveness i ≤ 1) (fun i hi => absurd hi (Nat.not_lt_zero i)) ?_ hloop
        intro k t u _ hprev hstep i hi
        simp only [entityManagerObserveStep] at hstep
        split at hstep
        · cases hstep
        · rcases Nat.lt_succ_iff_lt_or_eq.mp hi with hlt | rfl
          · exact hprev i hlt
          · omega

theorem membershipValid_count {p : ComponentPool} {m : EntityManager} {capacity : Nat}
    (h : membershipValid p m capacity = true) : p.count ≤ capacity := by
  unfold membershipValid at h
  split at h
  · cases h
  · omega

theorem canonical_encodable {w : SimWorld} (h : canonicalWorldValid w = true) : w.Encodable := by
  simp only [canonicalWorldValid, Bool.and_eq_true, decide_eq_true_eq] at h
  obtain ⟨⟨⟨⟨⟨⟨⟨⟨-, hentities⟩, htr⟩, hvel⟩, hhealth⟩, hqueue⟩, hpending⟩, -⟩, -⟩ := h
  have hmax : w.config.maxEntities.toNat < 256 ^ 4 := w.config.maxEntities.toNat_lt
  have hevents : w.config.damageEventCapacity.toNat < 256 ^ 4 := UInt32.toNat_lt _
  obtain ⟨hcap, hfresh, hlive, hfree, hslots, hstack⟩ := entityManagerValid_bounds hentities
  have hcounts : ∀ i < 2, w.damageEvents.counts i ≤ w.config.damageEventCapacity.toNat ∧
      w.damageEvents.readIndex < 2 ∧ w.damageEvents.writeIndex < 2 := by
    simp only [damageQueueValidForWorld] at hqueue
    split at hqueue
    · cases hqueue
    · next hguard =>
      simp only [Bool.or_eq_true, Bool.not_eq_true', decide_eq_true_eq, not_or, Bool.not_eq_false,
        not_not] at hguard
      have hvalid := (DamageEventQueue.isValid_iff _).mp hguard.1
      intro i hi
      exact ⟨hguard.2 ▸ hvalid.counts_le i hi, hvalid.read_lt, hvalid.write_lt⟩
  obtain ⟨-, hread, hwrite⟩ := hcounts 0 (by decide)
  have hgens : ∀ i < w.entities.nextFresh, w.entities.generations i < 256 ^ 2 := by
    intro i hi
    have := (hslots i hi).1
    rw [handleGenMask_toNat] at this
    omega
  refine ⟨by omega, by omega, by omega, by omega, hgens, fun i hi => ?_, fun i hi => ?_, by omega,
    ?_, ?_, ?_, ?_, ?_⟩
  · have := (hslots i hi).2
    omega
  · have := hstack i hi
    omega
  · exact Nat.lt_of_le_of_lt (hcounts _ hread).1 hevents
  · exact Nat.lt_of_le_of_lt (hcounts _ hwrite).1 hevents
  · exact Nat.lt_of_le_of_lt (membershipValid_count htr) hmax
  · exact Nat.lt_of_le_of_lt (membershipValid_count hvel) hmax
  · exact Nat.lt_of_le_of_lt (membershipValid_count hhealth) hmax

theorem elements_eq_iff_bytes {a b : SimWorld} (ha : canonicalWorldValid a = true)
    (hb : canonicalWorldValid b = true) :
    a.elements = b.elements ↔ simHashBytes a = simHashBytes b := by
  rw [simHashBytes_eq, simHashBytes_eq]
  constructor
  · intro h
    rw [h]
  · intro h
    have hdiff := diffWorld_describes a b
    cases hd : diffWorld a b with
    | none => exact (hdiff.eq_iff).mp hd
    | some d =>
      rw [hd] at hdiff
      obtain ⟨front, ra, rb, hea, heb, hne⟩ := id hdiff
      have hx := (canonical_encodable ha).fits (d.parts.1, d.parts.2.1) (by rw [hea]; simp)
      have hy := (canonical_encodable hb).fits (d.parts.1, d.parts.2.2) (by rw [heb]; simp)
      exact absurd h (At.flatMap_ne hdiff _ fun u v =>
        SimStateField.encode_separates hx hy hne u v)

end ChoonzMoba
