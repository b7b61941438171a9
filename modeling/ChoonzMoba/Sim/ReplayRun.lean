import ChoonzMoba.Sim.InitTotal
import ChoonzMoba.Sim.ReplayFile
import ChoonzMoba.Sim.SimHash

namespace ChoonzMoba

def InitialWorld (seed : UInt64) (w : SimWorld) : Prop :=
  ∃ arena pushed, simInit arena seed simWorldConfigDefault = some (pushed, some w)

def replayRun (w : SimWorld) (ticks : List ReplayTick) : Option SimWorld :=
  Loop.forEachM ticks (fun w t => ensured (simTick w (some (.ofList t.commands)))) w

def HashesTrue (w : SimWorld) (ticks : List ReplayTick) : Prop :=
  ∀ i (hi : i < ticks.length), ∃ u, replayRun w (ticks.take (i + 1)) = some u ∧
    simHashState u = ticks[i].expectedHash

theorem InitialWorld.unique {seed : UInt64} {w u : SimWorld} (hw : InitialWorld seed w)
    (hu : InitialWorld seed u) : w = u := by
  obtain ⟨arena, pushed, hw⟩ := hw
  obtain ⟨arena', pushed', hu⟩ := hu
  have hloop := (simInit_some hw).2
  rw [(simInit_some hu).2] at hloop
  exact (Option.some.inj hloop).symm

theorem replayRun_cons {w u : SimWorld} {t : ReplayTick}
    (h : simTick w (some (.ofList t.commands)) = some (true, u)) (ticks : List ReplayTick) :
    replayRun w (t :: ticks) = replayRun u ticks := by
  rw [replayRun, Loop.forEachM_cons, h]
  rfl

theorem hashesTrue_nil (w : SimWorld) : HashesTrue w [] := nofun

theorem hashesTrue_cons {w u : SimWorld} {t : ReplayTick} {ticks : List ReplayTick}
    (h : simTick w (some (.ofList t.commands)) = some (true, u)) :
    HashesTrue w (t :: ticks) ↔ simHashState u = t.expectedHash ∧ HashesTrue u ticks := by
  constructor
  · intro hall
    refine ⟨?_, fun i hi => ?_⟩
    · obtain ⟨v, hv, hhash⟩ := hall 0 (Nat.succ_pos _)
      rw [List.take_succ_cons, replayRun_cons h] at hv
      cases hv
      exact hhash
    · obtain ⟨v, hv, hhash⟩ := hall (i + 1) (Nat.succ_lt_succ hi)
      rw [List.take_succ_cons, replayRun_cons h] at hv
      exact ⟨v, hv, hhash⟩
  · rintro ⟨hhash, hall⟩ i hi
    rw [List.take_succ_cons, replayRun_cons h]
    cases i with
    | zero => exact ⟨u, rfl, hhash⟩
    | succ i => exact hall i (Nat.lt_of_succ_lt_succ hi)

/-- What holds of every world a replay passes through: the units stay, so nothing a replay can
contain is ever rejected. -/
structure ReplayWorld (w : SimWorld) : Prop where
  legal : w.LegalInv
  config : w.config = simWorldConfigDefault
  pending : w.pendingDestroyCount = 0
  units : ∀ i < simMaxUnits, w.unitEntities i ≠ .null

theorem InitialWorld.replayWorld {seed : UInt64} {w : SimWorld} (h : InitialWorld seed w) :
    ReplayWorld w := by
  obtain ⟨arena, pushed, hinit⟩ := h
  have hpop := SimWorld.populated_of_init hinit
  exact ⟨hpop.legal, hpop.config_eq, hpop.pending, fun i hi => (hpop.units i).mpr hi⟩

theorem initialWorld_exists (seed : UInt64) {arena : Arena} (backed : arena.Backed)
    (room : arena.offset + simWorldMemoryRequired simWorldConfigDefault ≤ arena.reserved) :
    ∃ pushed w, simInit arena seed simWorldConfigDefault = some (pushed, some w) :=
  SimWorld.init_ok (by decide) seed backed room

theorem canonical_players {c : SimCommand} {playerCount : Nat} (hp : playerCount ≤ simMaxPlayers)
    (h : simCommandIsCanonical c playerCount simMaxUnits = true) :
    simCommandIsCanonical c simMaxPlayers simMaxUnits = true ∧
      c.unitIndex.toNat < simMaxUnits := by
  unfold simCommandIsCanonical at h ⊢
  split at h
  · cases h
  · next hguard =>
    rw [if_neg (by simp only [simMaxPlayers] at *; omega)]
    exact ⟨h, by omega⟩

theorem ReplayWorld.accepts {w : SimWorld} (hw : ReplayWorld w) {t : ReplayTick}
    {playerCount : UInt32} (hp : playerCount.toNat ≤ simMaxPlayers) (valid : t.Valid playerCount) :
    w.abstract.Accepts (some (.ofList t.commands)) := by
  refine ⟨valid.count, Or.inr rfl, fun c hc => ?_, ?_⟩
  · obtain ⟨hcanonical, hunit⟩ := canonical_players hp (valid.canonical c hc)
    exact ⟨hcanonical, hw.units _ hunit⟩
  · have hcapacity : w.abstract.config.damageEventCapacity.toNat = simMaxCommandsPerTick := by
      show w.config.damageEventCapacity.toNat = _
      rw [hw.config]
      rfl
    rw [hcapacity]
    exact Nat.le_trans List.countP_le_length valid.count

theorem ReplayWorld.tick {w : SimWorld} (hw : ReplayWorld w) {t : ReplayTick}
    {playerCount : UInt32} (hp : playerCount.toNat ≤ simMaxPlayers) (valid : t.Valid playerCount) :
    ∃ u, simTick w (some (.ofList t.commands)) = some (true, u) ∧ ReplayWorld u := by
  obtain ⟨u, hu, hlegal, habs⟩ := hw.legal.tick (hw.accepts hp valid)
  have hnone : w.pendingList = [] := by
    rw [SimWorld.pendingList, hw.pending]
    rfl
  have hpending : w.abstract.pending = [] := hnone
  rw [World.tickWith, hpending] at habs
  have hunits : u.unitEntities = w.unitEntities := congrArg World.units habs
  have hleft : u.pendingList = [] := congrArg World.pending habs
  refine ⟨u, hu, hlegal, (congrArg World.config habs).trans hw.config, ?_, fun i hi => ?_⟩
  · simpa [SimWorld.pendingList] using hleft
  · rw [hunits]
    exact hw.units i hi

theorem ReplayWorld.run {w : SimWorld} (hw : ReplayWorld w) {ticks : List ReplayTick}
    {playerCount : UInt32} (hp : playerCount.toNat ≤ simMaxPlayers)
    (valid : ∀ t ∈ ticks, t.Valid playerCount) :
    ∃ u, replayRun w ticks = some u ∧ ReplayWorld u := by
  induction ticks generalizing w with
  | nil => exact ⟨w, rfl, hw⟩
  | cons t ticks ih =>
    obtain ⟨hvalid, hrest⟩ := List.forall_mem_cons.mp valid
    obtain ⟨v, hv, hvw⟩ := hw.tick hp hvalid
    obtain ⟨u, hu, huw⟩ := ih hvw hrest
    refine ⟨u, ?_, huw⟩
    rw [replayRun_cons hv]
    exact hu

end ChoonzMoba
