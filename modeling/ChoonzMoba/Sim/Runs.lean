import ChoonzMoba.Sim.Legal

namespace ChoonzMoba

namespace SimWorld

variable {w : SimWorld}

theorem mem_cleared {V : Type} {components : EntityId → Option V} {es : List EntityId}
    {e : EntityId} : (World.cleared components es e).isSome ↔ (components e).isSome ∧ e ∉ es := by
  by_cases h : e ∈ es <;> simp [World.cleared, h]

theorem LegalInv.tick (inv : w.LegalInv) {commands : Option SimCommandBuffer}
    (hacc : w.abstract.Accepts commands) :
    ∃ u, simTick w commands = some (true, u) ∧ u.LegalInv ∧
      u.abstract = w.abstract.tickWith (commandRecords commands) := by
  obtain ⟨u, hu, uinv, ucount, uabs⟩ := inv.core.tick inv.ready hacc
  have heq : u.abstract = _ := uabs
  rw [World.tickWith, World.foldl_destroy_eq] at heq
  have hentities : u.entities.table =
      (w.pendingList.foldl World.destroy (w.abstract.integrate (commandRecords commands))).entities :=
    congrArg World.entities heq
  have halive : ∀ e, u.entities.table.Alive e ↔ w.entities.table.Alive e ∧ e ∉ w.pendingList := by
    intro e
    rw [hentities]
    exact World.foldl_destroy_alive inv.ready.pending_nodup inv.ready.pending_alive e
  have htr : ∀ e, (u.transforms.lookup e).isSome ↔
      (w.transforms.lookup e).isSome ∧ e ∉ w.pendingList := by
    intro e
    rw [show u.transforms.lookup = _ from congrArg World.transforms heq]
    exact mem_cleared.trans (by simp [World.integrate, abstract])
  have hvel : ∀ e, (u.velocities.lookup e).isSome ↔
      (w.velocities.lookup e).isSome ∧ e ∉ w.pendingList := by
    intro e
    rw [show u.velocities.lookup = _ from congrArg World.velocities heq]
    exact mem_cleared.trans (by simp [World.integrate, abstract])
  have hhealth : ∀ e, (u.health.lookup e).isSome ↔
      (w.health.lookup e).isSome ∧ e ∉ w.pendingList := by
    intro e
    rw [show u.health.lookup = _ from congrArg World.health heq]
    exact mem_cleared.trans (by simp [World.integrate, abstract])
  have hunits : ∀ i, u.unitEntities i = if w.unitEntities i ∈ w.pendingList then .null
      else w.unitEntities i := congrFun (congrArg World.units heq)
  have hslot : ∀ i, u.unitEntities i ≠ .null →
      w.unitEntities i ∉ w.pendingList ∧ u.unitEntities i = w.unitEntities i := by
    intro i hi
    have hkept : w.unitEntities i ∉ w.pendingList := by
      intro hmem
      rw [hunits, if_pos hmem] at hi
      exact hi rfl
    exact ⟨hkept, by rw [hunits, if_neg hkept]⟩
  have hnone : u.pendingList = [] := congrArg World.pending heq
  refine ⟨u, hu, ⟨uinv, ⟨?_, ?_, ?_, ?_, ?_, ?_⟩, ?_, ?_, ?_, ?_⟩, uabs⟩
  · exact (congrArg World.reading heq).trans inv.ready.reading
  · exact (congrArg World.writing heq).trans inv.ready.writing
  · intro i hi
    obtain ⟨hkept, hunit⟩ := hslot i hi
    rw [hunit] at hi ⊢
    obtain ⟨hlt, hal, ht, hv, hh⟩ := inv.ready.units i hi
    rw [show u.config = w.config from congrArg World.config heq]
    exact ⟨hlt, (halive _).mpr ⟨hal, hkept⟩, (htr _).mpr ⟨ht, hkept⟩, (hvel _).mpr ⟨hv, hkept⟩,
      (hhealth _).mpr ⟨hh, hkept⟩⟩
  · rw [ucount]
    exact Nat.zero_le _
  · rw [hnone]
    simp
  · rw [hnone]
    exact List.nodup_nil
  · exact fun e he => (halive e).mpr ⟨inv.transforms_alive e ((htr e).mp he).1, ((htr e).mp he).2⟩
  · exact fun e he => (halive e).mpr ⟨inv.velocities_alive e ((hvel e).mp he).1, ((hvel e).mp he).2⟩
  · exact fun e he => (halive e).mpr ⟨inv.health_alive e ((hhealth e).mp he).1, ((hhealth e).mp he).2⟩
  · intro i j hi hij
    have hj : u.unitEntities j ≠ .null := hij ▸ hi
    rw [(hslot i hi).2, (hslot j hj).2] at hij
    exact inv.slots_distinct i j ((hslot i hi).2 ▸ hi) hij

theorem LegalInv.run (inv : w.LegalInv) {op : Op} (legal : op.Legal w) :
    ∃ u, op.run w = some ((w.abstract.run op).1, u) ∧ u.LegalInv ∧
      u.abstract = (w.abstract.run op).2 := by
  cases op with
  | tick commands =>
    by_cases hacc : w.abstract.Accepts commands
    · obtain ⟨u, hu, hinv, habs⟩ := inv.tick hacc
      exact ⟨u, by simp [Op.run, hu, World.run, hacc], hinv, by simp [World.run, hacc, habs]⟩
    · have hrejected := tick_rejected fun h => hacc ((inv.validate_iff commands).mp h)
      exact ⟨w, by simp [Op.run, hrejected, World.run, hacc], inv, by simp [World.run, hacc]⟩
  | destroyDeferred entity =>
    obtain ⟨u, hu, hinv, habs⟩ := inv.destroyDeferred entity
    exact ⟨u, by simp [Op.run, hu, World.run], hinv, habs⟩
  | create =>
    obtain ⟨hid, hinv, habs⟩ := inv.create
    exact ⟨_, by simp [Op.run, hid, World.run], hinv, habs⟩
  | transformAdd entity positionX positionY facing =>
    obtain ⟨q, hq, hinv, habs⟩ := inv.transformAdd ((inv.core.alive_iff entity).mp legal)
      ⟨positionX, positionY, facing⟩
    exact ⟨_, by simp [Op.run, transformPoolAdd, hq, World.run], hinv, habs⟩
  | velocityAdd entity velocityX velocityY =>
    obtain ⟨q, hq, hinv, habs⟩ := inv.velocityAdd ((inv.core.alive_iff entity).mp legal)
      ⟨velocityX, velocityY⟩
    exact ⟨_, by simp [Op.run, velocityPoolAdd, hq, World.run], hinv, habs⟩
  | healthAdd entity current maximum damageCooldown =>
    obtain ⟨q, hq, hinv, habs⟩ := inv.healthAdd ((inv.core.alive_iff entity).mp legal)
      current maximum damageCooldown
    exact ⟨_, by simp [Op.run, hq, World.run], hinv, habs⟩

end SimWorld

end ChoonzMoba
