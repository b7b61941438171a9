import ChoonzMoba.Sim.Invariant
import Mathlib.Algebra.Order.BigOperators.Group.List

namespace ChoonzMoba

namespace World

variable {w : World}

theorem aimed_concat (w : World) (done : List SimCommand) (c : SimCommand) (kind : UInt8)
    (e : EntityId) : w.aimed (done ++ [c]) kind e =
      w.aimed done kind e ++ if c.kind = kind ∧ w.units c.unitIndex.toNat = e then [c] else [] := by
  rw [aimed, List.filter_append, aimed]
  by_cases h : c.kind = kind ∧ w.units c.unitIndex.toNat = e <;> simp [h]

theorem velocityAfter_concat (w : World) (done : List SimCommand) (c : SimCommand)
    (e : EntityId) : w.velocityAfter (done ++ [c]) e =
      if c.kind = simCommandSetVelocity ∧ w.units c.unitIndex.toNat = e then
        fun _ => ⟨c.valueX, c.valueY⟩ else w.velocityAfter done e := by
  funext v
  rw [velocityAfter, aimed_concat]
  by_cases h : c.kind = simCommandSetVelocity ∧ w.units c.unitIndex.toNat = e
  · rw [if_pos h, if_pos h, List.getLast?_concat]
  · rw [if_neg h, if_neg h, List.append_nil, velocityAfter]

@[simp] theorem velocityAfter_nil (w : World) (e : EntityId) : w.velocityAfter [] e = id := rfl

def damageEvent (w : World) (c : SimCommand) : DamageEvent :=
  ⟨.null, w.units c.unitIndex.toNat, c.amount⟩

def damageEvents (w : World) (commands : List SimCommand) : List DamageEvent :=
  (commands.filter fun c => decide (c.kind = simCommandDamage)).map w.damageEvent

end World

namespace TypedPool

variable {V : Type} {p q : TypedPool V} {n : Nat}

theorem Shaped.of_membership (h : p.Shaped n) (hm : q.membership = p.membership) : q.Shaped n :=
  ⟨hm ▸ h.inv, hm ▸ h.entityCapacity, hm ▸ h.capacity⟩

end TypedPool

theorem simCommand_kind {c : SimCommand} {players units : Nat}
    (h : simCommandIsCanonical c players units = true) (hk : c.kind ≠ simCommandSetVelocity) :
    c.kind = simCommandDamage ∧ 0 ≤ c.amount := by
  simp only [simCommandIsCanonical, if_neg hk] at h
  split at h
  · cases h
  · split at h
    · next hd =>
      simp only [Bool.and_eq_true, decide_eq_true_eq] at h
      exact ⟨hd, h.2⟩
    · cases h

theorem damageEvent_canonical {target : EntityId} {amount : Int32} (hg : handleGen target.h ≠ 0)
    (ha : 0 ≤ amount) : damageEventIsCanonical ⟨.null, target, amount⟩ = true := by
  have hneg : ¬ amount < 0 := Int32.not_lt.mpr ha
  simp [damageEventIsCanonical, hg, hneg, EntityId.null]

theorem damageEventIsCanonical_amount {event : DamageEvent}
    (h : damageEventIsCanonical event = true) : 0 ≤ event.amount := by
  unfold damageEventIsCanonical at h
  split at h
  · cases h
  · next hn => exact Int32.not_lt.mp fun hlt => hn (Or.inr hlt)

namespace SimWorld

variable {w : SimWorld}

theorem Ready.target (ready : w.Ready) {c : SimCommand}
    (h : w.unitEntities c.unitIndex.toNat ≠ .null) :
    w.entities.table.Alive (w.unitEntities c.unitIndex.toNat) ∧
      (w.velocities.lookup (w.unitEntities c.unitIndex.toNat)).isSome ∧
      (w.health.lookup (w.unitEntities c.unitIndex.toNat)).isSome :=
  ⟨(ready.units _ h).2.1, (ready.units _ h).2.2.2.1, (ready.units _ h).2.2.2.2⟩

structure Applied (w t : SimWorld) (done : List SimCommand) : Prop where
  frame : t = { w with velocities := t.velocities, damageEvents := t.damageEvents }
  membership : t.velocities.membership = w.velocities.membership
  velocities : t.velocities.lookup =
    fun e => (w.velocities.lookup e).map (w.abstract.velocityAfter done e)
  events : t.damageEvents.Valid
  capacity : t.damageEvents.capacity = w.damageEvents.capacity
  reading : t.damageEvents.readList = []
  writing : t.damageEvents.writeList = w.abstract.damageEvents done

theorem Applied.unitEntities {t : SimWorld} {done : List SimCommand} (h : Applied w t done) :
    t.unitEntities = w.unitEntities := by
  rw [h.frame]

theorem Applied.setVelocity (inv : w.CoreInv) (ready : w.Ready) {t : SimWorld}
    {done : List SimCommand} {c : SimCommand} (h : Applied w t done)
    (hk : c.kind = simCommandSetVelocity) (hc : w.unitEntities c.unitIndex.toNat ≠ .null) :
    ∃ u, applyCommand t c = some u ∧ Applied w u (done ++ [c]) := by
  have htarget := (ready.target hc).2.1
  have hinv : t.velocities.membership.Inv := h.membership ▸ inv.velocities.inv
  have hholds : t.velocities.membership.Holds (w.unitEntities c.unitIndex.toNat) := by
    rw [h.membership]
    exact (TypedPool.lookup_isSome inv.velocities.inv _).mp htarget
  let dense := t.velocities.membership.sparse (handleIndex (w.unitEntities c.unitIndex.toNat).h) - 1
  refine ⟨{ t with velocities := t.velocities.write dense ⟨c.valueX, c.valueY⟩ }, ?_, ?_⟩
  · simp only [applyCommand, if_pos hk, h.unitEntities, velocityPoolGet,
      TypedPool.get_eq hinv hholds]
    rfl
  · refine ⟨?_, h.membership, ?_, h.events, h.capacity, h.reading, ?_⟩
    · rw [h.frame]
    · funext e
      change (t.velocities.write _ _).lookup e = _
      rw [TypedPool.write_lookup hinv hholds, h.velocities]
      by_cases he : e = w.unitEntities c.unitIndex.toNat
      · subst he
        obtain ⟨v, hv⟩ := Option.isSome_iff_exists.mp htarget
        simp [World.velocityAfter_concat, hk, hv, abstract]
      · have hne : ¬ w.unitEntities c.unitIndex.toNat = e := fun heq => he heq.symm
        simp [Function.update_of_ne he, World.velocityAfter_concat, abstract, hne]
    · have hd : c.kind ≠ simCommandDamage := by rw [hk]; decide
      rw [h.writing]
      simp [World.damageEvents, hd]

theorem Applied.damage (ready : w.Ready) {t : SimWorld}
    {done : List SimCommand} {c : SimCommand} (h : Applied w t done)
    (hk : c.kind ≠ simCommandSetVelocity) (hc : w.unitEntities c.unitIndex.toNat ≠ .null)
    (hcanon : simCommandIsCanonical c simMaxPlayers simMaxUnits = true)
    (hroom : (w.abstract.damageEvents done).length < w.damageEvents.capacity) :
    ∃ u, applyCommand t c = some u ∧ Applied w u (done ++ [c]) := by
  have htarget := (ready.target hc).1
  obtain ⟨hd, hamount⟩ := simCommand_kind hcanon hk
  obtain ⟨q, hq, hvalid, hcap, hread, hwrite⟩ := DamageEventQueue.append_spec h.events
    (damageEvent_canonical htarget.1 hamount) (by rw [h.writing, h.capacity]; exact hroom)
  refine ⟨{ t with damageEvents := q }, ?_, ?_⟩
  · simp only [applyCommand, if_neg hk, h.unitEntities, hq]
  · refine ⟨?_, h.membership, ?_, hvalid, hcap.trans h.capacity, hread.trans h.reading, ?_⟩
    · rw [h.frame]
    · funext e
      simp [h.velocities, World.velocityAfter_concat, hk]
    · rw [hwrite, h.writing]
      simp [World.damageEvents, World.damageEvent, hd, abstract]

theorem CoreInv.apply (inv : w.CoreInv) {commands : Option SimCommandBuffer}
    (hv : simValidateCommands w commands = true) :
    ∃ t, sysApplyCommands w commands = some (true, t) ∧ Applied w t (commandRecords commands) := by
  obtain ⟨ready, hacc⟩ := (inv.validate_iff commands).mp hv
  have hstart : Applied w w [] := by
    refine ⟨rfl, rfl, ?_, inv.events, rfl, ready.reading, ready.writing⟩
    funext e
    rw [World.velocityAfter_nil, Option.map_id, id]
  cases commands with
  | none =>
    refine ⟨w, ?_, hstart⟩
    simp [sysApplyCommands, hv]
  | some buffer =>
    obtain ⟨-, -, hall, hcount⟩ := hacc
    obtain ⟨t, ht, happ⟩ := Loop.forEachM_total buffer.records (f := applyCommand) (s := w)
      (fun done t => Applied w t done) hstart (by
        intro done c rest t hrec happ
        have hc := hall c (by rw [hrec]; simp)
        by_cases hk : c.kind = simCommandSetVelocity
        · exact happ.setVelocity inv ready hk hc.2
        · refine happ.damage ready hk hc.2 hc.1 ?_
          have hd := (simCommand_kind hc.1 hk).1
          rw [hrec, List.countP_append, List.countP_cons] at hcount
          simp only [hd, decide_true, if_true] at hcount
          rw [World.damageEvents, List.length_map, ← List.countP_eq_length_filter,
            inv.events_capacity]
          exact Nat.lt_of_lt_of_le (by omega) hcount)
    refine ⟨t, ?_, happ⟩
    simp [sysApplyCommands, hv, ht]

end SimWorld

theorem World.displaced_eq (x v : Int32) :
    fixAddWrap x (fixMul v simDtFixed) = World.displaced x v := by
  apply Int32.toInt_inj.mp
  rw [fixAddWrap_toInt, fixMul_toInt, World.displaced, Int32.toInt_ofInt, Int.add_bmod_bmod]
  rfl

namespace TypedPool

variable {V : Type} {p : TypedPool V} {n : Nat}

theorem Shaped.orderedView (h : p.Shaped n) : ∃ view q,
    componentPoolOrderedView p.membership = (some view, q) ∧ view.list = p.membership.members ∧
      ({ p with membership := q } : TypedPool V).Shaped n ∧
      ({ p with membership := q } : TypedPool V).lookup = p.lookup := by
  obtain ⟨view, q, hview, hlist, hinv, hq⟩ := h.inv.orderedView
  refine ⟨view, q, hview, hlist, ⟨hinv, ?_, ?_⟩, ?_⟩
  · simpa only [hq] using h.entityCapacity
  · simpa only [hq] using h.capacity
  · rw [hq]
    rfl

theorem lookup_eq_none_of_not_mem (h : p.Shaped n) {e : EntityId}
    (he : e ∉ p.membership.members) : p.lookup e = none :=
  lookup_of_not_holds h.inv fun hholds => he ((h.inv.mem_members e).mpr hholds)

end TypedPool

namespace SimWorld

variable {w : SimWorld} {n : Nat}

theorem moveEntity_spec (ht : w.transforms.Shaped n) (hv : w.velocities.Shaped n) {e : EntityId}
    (he : w.transforms.membership.Holds e) :
    ∃ u, moveEntity w e = some u ∧ u = { w with transforms := u.transforms } ∧
      u.transforms.membership = w.transforms.membership ∧
      u.transforms.lookup = Function.update w.transforms.lookup e
        ((w.transforms.lookup e).map fun t => World.advanced t (w.velocities.lookup e)) := by
  have hget := TypedPool.get_eq ht.inv he
  have hlook := TypedPool.lookup_of_holds ht.inv he
  by_cases hvel : w.velocities.membership.Holds e
  · have hgetv := TypedPool.get_eq hv.inv hvel
    simp only [moveEntity, transformPoolGet, velocityPoolGet, hget, hgetv]
    refine ⟨_, rfl, rfl, rfl, ?_⟩
    rw [TypedPool.write_lookup ht.inv he, hlook, TypedPool.lookup_of_holds hv.inv hvel]
    simp only [World.displaced_eq, Option.map_some, World.advanced]
  · have hnone := TypedPool.lookup_of_not_holds hv.inv hvel
    have hgetv : typedPoolGet w.velocities e = none := by
      apply TypedPool.get_none
      rwa [← Bool.not_eq_true, hv.inv.has_iff]
    simp only [moveEntity, transformPoolGet, velocityPoolGet, hget, hgetv]
    refine ⟨w, rfl, rfl, rfl, ?_⟩
    rw [hnone]
    simp [World.advanced]

theorem orderedPass {V : Type} (pool : SimWorld → TypedPool V) (change : EntityId → V → V)
    (step : SimWorld → EntityId → Option SimWorld) (Frame : SimWorld → Prop) (start : SimWorld)
    {p : TypedPool V} (hp : p.Shaped n) (hframe : Frame start) (hshape : (pool start).Shaped n)
    (hlook : (pool start).lookup = p.lookup)
    (hstep : ∀ t e, Frame t → (pool t).Shaped n → (pool t).membership.Holds e →
      ∃ u, step t e = some u ∧ Frame u ∧ (pool u).membership = (pool t).membership ∧
        (pool u).lookup =
          Function.update (pool t).lookup e (((pool t).lookup e).map (change e))) :
    ∃ t, Loop.forEachM p.membership.members step start = some t ∧ Frame t ∧ (pool t).Shaped n ∧
      (pool t).lookup = fun e => (p.lookup e).map (change e) := by
  obtain ⟨t, hrun, ⟨hframe', hmember⟩, hpoint⟩ := Loop.forEachM_pointwise (f := step) (s := start)
    hp.inv.members_nodup (fun t => (pool t).lookup) (fun e => Option.map (change e))
    (fun t => Frame t ∧ (pool t).membership = (pool start).membership) ⟨hframe, rfl⟩ (by
      rintro e t he ⟨hframe, hmember⟩
      have hholds : (pool t).membership.Holds e := by
        rw [hmember, ← TypedPool.lookup_ne_none hshape.inv, hlook, TypedPool.lookup_ne_none hp.inv]
        exact (hp.inv.mem_members e).mp he
      obtain ⟨u, hu, huframe, humember, hulook⟩ := hstep t e hframe (hshape.of_membership hmember)
        hholds
      exact ⟨u, hu, ⟨huframe, humember.trans hmember⟩, hulook⟩)
  refine ⟨t, hrun, hframe', hshape.of_membership hmember, funext fun e => ?_⟩
  rw [hpoint e, hlook]
  split
  · rfl
  · next he =>
    rw [TypedPool.lookup_eq_none_of_not_mem hp he]
    rfl

theorem sysMovement_spec (ht : w.transforms.Shaped n) (hv : w.velocities.Shaped n) :
    ∃ u, sysMovement w = some (true, u) ∧ u = { w with transforms := u.transforms } ∧
      u.transforms.Shaped n ∧ u.transforms.lookup = fun e =>
        (w.transforms.lookup e).map fun t => World.advanced t (w.velocities.lookup e) := by
  obtain ⟨view, q, hview, hlist, hshape, hlook⟩ := ht.orderedView
  obtain ⟨t, hrun, hframe, hshape', hlook'⟩ := orderedPass SimWorld.transforms
    (fun e x => World.advanced x (w.velocities.lookup e)) moveEntity
    (fun t => t = { w with transforms := t.transforms })
    { w with transforms := { w.transforms with membership := q } } ht rfl hshape hlook (by
      intro t e hframe hshape hholds
      have htv : t.velocities = w.velocities := by rw [hframe]
      obtain ⟨u, hu, huframe, humember, hulook⟩ := moveEntity_spec hshape (htv ▸ hv) hholds
      rw [htv] at hulook
      exact ⟨u, hu, by rw [huframe, hframe], humember, hulook⟩)
  refine ⟨t, ?_, hframe, hshape', hlook'⟩
  simp only [sysMovement, hview, hlist]
  rw [hrun]
  rfl

theorem coolEntity_spec (hh : w.health.Shaped n) {e : EntityId}
    (he : w.health.membership.Holds e) :
    ∃ u, coolEntity w e = some u ∧ u = { w with health := u.health } ∧
      u.health.membership = w.health.membership ∧
      u.health.lookup = Function.update w.health.lookup e
        ((w.health.lookup e).map World.rested) := by
  have hget := TypedPool.get_eq hh.inv he
  have hlook := TypedPool.lookup_of_holds hh.inv he
  simp only [coolEntity, healthPoolGet, hget]
  split
  · next hpos =>
    refine ⟨_, rfl, rfl, rfl, ?_⟩
    rw [TypedPool.write_lookup hh.inv he, hlook]
    simp only [Option.map_some, World.rested, World.cooled, if_pos hpos]
  · next hpos =>
    refine ⟨w, rfl, rfl, rfl, ?_⟩
    rw [hlook]
    simp only [Option.map_some, World.rested, World.cooled, if_neg hpos]
    rw [← hlook, Function.update_eq_self]

theorem sysCooldownTick_spec (hh : w.health.Shaped n) :
    ∃ u, sysCooldownTick w = some (true, u) ∧ u = { w with health := u.health } ∧
      u.health.Shaped n ∧ u.health.lookup = fun e => (w.health.lookup e).map World.rested := by
  obtain ⟨view, q, hview, hlist, hshape, hlook⟩ := hh.orderedView
  obtain ⟨t, hrun, hframe, hshape', hlook'⟩ := orderedPass SimWorld.health (fun _ => World.rested)
    coolEntity (fun t => t = { w with health := t.health })
    { w with health := { w.health with membership := q } } hh rfl hshape hlook (by
      intro t e hframe hshape hholds
      obtain ⟨u, hu, huframe, humember, hulook⟩ := coolEntity_spec hshape hholds
      exact ⟨u, hu, by rw [huframe, hframe], humember, hulook⟩)
  refine ⟨t, ?_, hframe, hshape', hlook'⟩
  simp only [sysCooldownTick, hview, hlist]
  rw [hrun]
  rfl

end SimWorld

namespace World

def dealt (events : List DamageEvent) (e : EntityId) : Int :=
  ((events.filter fun event => decide (event.target = e)).map fun event => event.amount.toInt).sum

def wounded (events : List DamageEvent) (e : EntityId) : Bool :=
  (events.filter fun event => decide (event.target = e)).any fun event => decide (0 < event.amount)

theorem dealt_concat (done : List DamageEvent) (event : DamageEvent) (e : EntityId) :
    dealt (done ++ [event]) e =
      dealt done e + if event.target = e then event.amount.toInt else 0 := by
  rw [dealt, List.filter_append, dealt]
  by_cases h : event.target = e <;> simp [h]

theorem wounded_concat (done : List DamageEvent) (event : DamageEvent) (e : EntityId) :
    wounded (done ++ [event]) e =
      (wounded done e || (decide (event.target = e) && decide (0 < event.amount))) := by
  rw [wounded, List.filter_append, wounded]
  by_cases h : event.target = e <;> simp [h]

theorem dealt_nonneg {events : List DamageEvent} (h : ∀ event ∈ events, 0 ≤ event.amount)
    (e : EntityId) : 0 ≤ dealt events e := by
  apply List.sum_nonneg
  intro x hx
  obtain ⟨event, hevent, rfl⟩ := List.mem_map.mp hx
  exact Int32.le_iff_toInt_le.mp (h event (List.mem_filter.mp hevent).1)

theorem dealt_damageEvents (w : World) (commands : List SimCommand) (e : EntityId) :
    dealt (w.damageEvents commands) e = w.damageTo commands e := by
  simp only [dealt, damageEvents, damageTo, aimed, List.filter_map, List.map_map,
    List.filter_filter]
  congr 2
  apply List.filter_congr
  intro c _
  change (decide (w.units c.unitIndex.toNat = e) && decide (c.kind = simCommandDamage)) = _
  rw [Bool.decide_and, Bool.and_comm]

theorem wounded_damageEvents (w : World) (commands : List SimCommand) (e : EntityId) :
    wounded (w.damageEvents commands) e = w.hurt commands e := by
  simp only [wounded, damageEvents, hurt, aimed, List.filter_map, List.any_map,
    List.filter_filter]
  congr 1
  apply List.filter_congr
  intro c _
  change (decide (w.units c.unitIndex.toNat = e) && decide (c.kind = simCommandDamage)) = _
  rw [Bool.decide_and, Bool.and_comm]

theorem struck_zero {h : Health} (hc : 0 ≤ h.current) : struck 0 false h = h := by
  have hpos := Int32.le_iff_toInt_le.mp hc
  have hmax : max 0 (h.current.toInt - 0) = h.current.toInt := by
    rw [Int.sub_zero]
    exact max_eq_right hpos
  simp only [struck, hmax, Int32.ofInt_toInt]
  rfl

theorem struck_current {h : Health} {damage : Int} (hc : 0 ≤ h.current) (hd : 0 ≤ damage)
    (hit : Bool) : (struck damage hit h).current.toInt = max 0 (h.current.toInt - damage) := by
  have hpos := Int32.le_iff_toInt_le.mp hc
  have hlt := h.current.toInt_lt
  rw [Int32.toInt_zero] at hpos
  rw [struck, Int32.toInt_ofInt_of_le] <;> omega

def hitOnce (amount : Int32) (h : Health) : Health :=
  { h with
    current := if h.current ≤ amount then 0 else h.current - amount
    damageCooldown := if 0 < amount then 3 else h.damageCooldown }

theorem hitOnce_struck {h : Health} {damage : Int} {amount : Int32} {hit : Bool}
    (hc : 0 ≤ h.current) (hd : 0 ≤ damage) (ha : 0 ≤ amount) :
    hitOnce amount (struck damage hit h) =
      struck (damage + amount.toInt) (hit || decide (0 < amount)) h := by
  have hcur := struck_current hc hd hit
  have hcur' := struck_current hc (Int.add_nonneg hd (Int32.le_iff_toInt_le.mp ha))
    (hit || decide (0 < amount))
  have hpos := Int32.le_iff_toInt_le.mp ha
  have hlt := (struck damage hit h).current.toInt_lt
  rw [Int32.toInt_zero] at hpos
  have hcurrent : (hitOnce amount (struck damage hit h)).current =
      (struck (damage + amount.toInt) (hit || decide (0 < amount)) h).current := by
    apply Int32.toInt_inj.mp
    rw [hcur', hitOnce]
    split
    · next hle =>
      have hle' := Int32.le_iff_toInt_le.mp hle
      rw [hcur] at hle'
      rw [Int32.toInt_zero]
      omega
    · next hle =>
      rw [Int32.le_iff_toInt_le, hcur] at hle
      rw [Int32.toInt_sub, Int.bmod_eq_of_le] <;> omega
  have hcooldown : (hitOnce amount (struck damage hit h)).damageCooldown =
      (struck (damage + amount.toInt) (hit || decide (0 < amount)) h).damageCooldown := by
    by_cases hp : 0 < amount <;> simp [hitOnce, struck, hp]
  exact (Health.mk.injEq ..).mpr ⟨hcurrent, rfl, hcooldown⟩

end World

namespace SimWorld

variable {w : SimWorld} {n : Nat}

theorem resolveEvent_spec (hh : w.health.Shaped n) (event : DamageEvent)
    (he : w.health.membership.Holds event.target) :
    ∃ u, resolveEvent w event = some u ∧ u = { w with health := u.health } ∧
      u.health.membership = w.health.membership ∧
      u.health.lookup = Function.update w.health.lookup event.target
        ((w.health.lookup event.target).map (World.hitOnce event.amount)) := by
  have hget := TypedPool.get_eq hh.inv he
  simp only [resolveEvent, healthPoolGet, hget]
  refine ⟨_, rfl, rfl, rfl, ?_⟩
  rw [TypedPool.write_lookup hh.inv he, TypedPool.lookup_of_holds hh.inv he]
  rfl

def Legal (health : EntityId → Option Health) : Prop :=
  ∀ e h, health e = some h → 0 ≤ h.current ∧ h.current ≤ h.maximum

theorem resolveEvents_spec (hh : w.health.Shaped n) (legal : Legal w.health.lookup)
    (events : List DamageEvent)
    (hevents : ∀ event ∈ events, 0 ≤ event.amount ∧ w.health.membership.Holds event.target) :
    ∃ u, Loop.forEachM events resolveEvent w = some u ∧ u = { w with health := u.health } ∧
      u.health.membership = w.health.membership ∧ u.health.lookup = fun e =>
        (w.health.lookup e).map (World.struck (World.dealt events e) (World.wounded events e)) := by
  obtain ⟨u, hu, hframe, hmem, hlook⟩ := Loop.forEachM_total events (f := resolveEvent)
    (s := w) (fun done t => t = { w with health := t.health } ∧
      t.health.membership = w.health.membership ∧ t.health.lookup = fun e =>
        (w.health.lookup e).map (World.struck (World.dealt done e) (World.wounded done e)))
    (by
      refine ⟨rfl, rfl, ?_⟩
      funext e
      cases he : w.health.lookup e with
      | none => rfl
      | some h => exact congrArg some (World.struck_zero (legal e h he).1).symm)
    (by
      rintro done event rest t rfl ⟨hframe, hmem, hlook⟩
      obtain ⟨hamount, hholds⟩ := hevents event (by simp)
      have hamounts : ∀ event ∈ done, 0 ≤ event.amount :=
        fun event he => (hevents event (by simp [he])).1
      have hnonneg := World.dealt_nonneg hamounts
      obtain ⟨u, hu, huframe, humem, hulook⟩ := resolveEvent_spec (hh.of_membership hmem)
        event (hmem ▸ hholds)
      refine ⟨u, hu, by rw [huframe, hframe], humem.trans hmem, ?_⟩
      rw [hulook, hlook]
      funext e
      rw [World.dealt_concat, World.wounded_concat]
      by_cases he : e = event.target
      · subst he
        rw [Function.update_self]
        beta_reduce
        cases hcur : w.health.lookup event.target with
        | none => rfl
        | some h =>
          simp only [Option.map_some, if_true, decide_true, Bool.true_and,
            World.hitOnce_struck (legal _ h hcur).1 (hnonneg _) hamount]
      · have hne : ¬ event.target = e := fun h => he h.symm
        simp [Function.update_of_ne he, hne])
  exact ⟨u, hu, hframe, hmem, hlook⟩

theorem CoreInv.combat (inv : w.CoreInv) {events : List DamageEvent}
    (hread : w.damageEvents.readList = events)
    (hevents : ∀ event ∈ events, damageEventIsCanonical event = true ∧
      event.source = .null ∧ w.entities.table.Alive event.target ∧
      (w.health.lookup event.target).isSome) :
    ∃ u, sysCombatResolve w = some (true, u) ∧ u = { w with health := u.health } ∧
      u.health.membership = w.health.membership ∧ u.health.lookup = fun e =>
        (w.health.lookup e).map (World.struck (World.dealt events e) (World.wounded events e)) := by
  obtain ⟨view, hview, hlist⟩ := DamageEventQueue.read_spec inv.events
  rw [hread] at hlist
  have hall : events.all (damageEventResolvable w) = true := by
    rw [List.all_eq_true]
    intro event he
    obtain ⟨hcanon, hsource, halive, hhealth⟩ := hevents event he
    simp [damageEventResolvable, hcanon, hsource, (inv.alive_iff _).mpr halive, healthPoolHas,
      TypedPool.has_eq_isSome, hhealth, EntityId.null]
  obtain ⟨u, hu, hframe, hmem, hlook⟩ := resolveEvents_spec inv.health inv.health_legal
    events (by
      intro event he
      obtain ⟨hcanon, -, -, hhealth⟩ := hevents event he
      exact ⟨damageEventIsCanonical_amount hcanon, (TypedPool.lookup_isSome inv.health.inv _).mp hhealth⟩)
  refine ⟨u, ?_, hframe, hmem, hlook⟩
  simp [sysCombatResolve, hview, hlist, hall, hu]

end SimWorld

end ChoonzMoba
