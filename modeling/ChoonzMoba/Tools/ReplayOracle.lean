import ChoonzMoba.Sim.Oracle
import ChoonzMoba.Tools.ReplayToolSpec

namespace ChoonzMoba

section

variable {seed tick : UInt64} {playerCount : UInt32} {w u : SimWorld} {ticks : List ReplayTick}

/-- What the oracle reports of a run, which has nothing of the storage in it. -/
structure SimOracleResult.Reports (result : SimOracleResult) (ticks : List ReplayTick)
    (u : SimWorld) : Prop where
  tickCount : result.tickCount = simOracleTicks
  commandCount : result.commandCount = UInt64.ofNat (ticks.flatMap (·.commands)).length
  finalStateHash : result.finalStateHash = simHashState u
  hashStreamDigest : result.hashStreamDigest =
    (ticks.flatMap fun t => LittleEndian.encode 8 t.expectedHash.toNat).foldl hashU8 fnv1a64Offset
  logicHash : result.logicHash = simLogicHash

theorem simOracleRun_of_world {worldStorage : UInt64} {worldStorageSize : Nat}
    (hstorage : worldStorage ≠ 0)
    (hsize : simWorldMemoryRequired simWorldConfigDefault ≤ worldStorageSize)
    (hfits : worldStorageSize ≤ uintptrMax - worldStorage.toNat)
    (hinit : InitialWorld simOracleSeed w)
    (hrun : PlaceholderRun simOracleSeed simOraclePlayers 0 w ticks u)
    (hlength : ticks.length = simOracleTicks.toNat) (prior : SimOracleResult) :
    simOracleRun worldStorage worldStorageSize (some prior) =
      some (true, some (ticks.foldl SimOracleResult.absorb
        { tickCount := simOracleTicks
          commandCount := 0
          finalStateHash := 0
          hashStreamDigest := fnv1a64Offset
          logicHash := simLogicHash })) := by
  obtain ⟨arena, harena, hwf, hoffset, hreserved, hcommitted, -⟩ := arenaInit_ok worldStorage
    worldStorageSize worldStorageSize hstorage (Nat.le_refl _) hfits none 0
  have hfixed : arenaInitFixed worldStorage worldStorageSize = some arena := harena
  have hbacked : arena.Backed := ⟨hwf, Or.inl (hcommitted.trans hreserved.symm)⟩
  obtain ⟨pushed, started, hstarted⟩ := initialWorld_exists simOracleSeed hbacked
    (by rw [hoffset, Nat.zero_add, hreserved]; exact hsize)
  have hsame : started = w := InitialWorld.unique ⟨arena, pushed, hstarted⟩ hinit
  subst hsame
  have hguard : ¬ (worldStorage = 0 ∨ (some prior).isNone = true) := by
    rintro (h | h)
    · exact hstorage h
    · cases h
  have hloop := hrun.simOracleLoop
    { tickCount := simOracleTicks
      commandCount := 0
      finalStateHash := 0
      hashStreamDigest := fnv1a64Offset
      logicHash := simLogicHash }
  rw [hlength] at hloop
  rw [simOracleRun, if_neg hguard]
  dsimp only
  rw [if_neg (Nat.not_lt_of_le hsize), hfixed, Option.bind_some, hstarted, Option.bind_some]
  dsimp only
  rw [hloop, Option.map_some]

theorem simOracleRun_exact :
    simWorldMemoryRequired simWorldConfigDefault ≤ simOracleWorldStorageSize ∧
    (∃ (w u : SimWorld) (ticks : List ReplayTick) (result : SimOracleResult),
      InitialWorld simOracleSeed w ∧
      PlaceholderRun simOracleSeed simOraclePlayers 0 w ticks u ∧
      ticks.length = simOracleTicks.toNat ∧ HashesTrue w ticks ∧ result.Reports ticks u ∧
      (∀ worldStorage worldStorageSize prior, worldStorage ≠ 0 →
        simWorldMemoryRequired simWorldConfigDefault ≤ worldStorageSize →
        worldStorageSize ≤ uintptrMax - worldStorage.toNat →
        simOracleRun worldStorage worldStorageSize (some prior) = some (true, some result)) ∧
      ∀ writer : ByteWriter, writer.Ready → ticks.length * 44 ≤ writer.room →
        ∃ v, recordTicks simOracleSeed simOraclePlayers simOracleTicks.toNat 0 w writer =
            some (.stopped .ok u v) ∧
          v.bytes = writer.bytes ++ ticks.flatMap ReplayTick.encode) ∧
    ∀ worldStorage worldStorageSize out,
      (worldStorage = 0 ∨ out = none ∨
        worldStorageSize < simWorldMemoryRequired simWorldConfigDefault) →
      simOracleRun worldStorage worldStorageSize out = some (false, out) := by
  have hplayers : ¬ (simOraclePlayers = 0 ∨ simMaxPlayers < simOraclePlayers.toNat) := by decide
  refine ⟨by decide, ?_, fun worldStorage worldStorageSize out hrefused => ?_⟩
  · obtain ⟨w, -, hinit⟩ := initCliWorld_ok
      (Platform.holding_reserves [] worldBytes_le) simOracleSeed
    obtain ⟨ticks, u, hrun, hlength⟩ : ∃ ticks u,
        PlaceholderRun simOracleSeed simOraclePlayers 0 w ticks u ∧
          ticks.length = simOracleTicks.toNat :=
      placeholderRun_exists hplayers _ 0 hinit.replayWorld
    have hne : ticks ≠ [] := by
      rintro rfl
      exact absurd hlength (by decide)
    refine ⟨w, u, ticks, _, hinit, hrun, hlength, hrun.hashesTrue, ?_,
      fun worldStorage worldStorageSize prior hstorage hsize hfits =>
        simOracleRun_of_world hstorage hsize hfits hinit hrun hlength prior,
      fun writer hwriter hroom => ?_⟩
    · exact {
        tickCount := (absorb_tickCount _).1
        commandCount := (absorb_commandCount _).trans (UInt64.zero_add _)
        finalStateHash := hrun.finalStateHash _ hne
        hashStreamDigest := absorb_hashStreamDigest _
        logicHash := (absorb_tickCount _).2 }
    · rw [← hlength]
      exact hrun.recordTicks hplayers hwriter hroom
  · rw [simOracleRun]
    split
    · rfl
    · next hguard =>
      obtain ⟨hstorage, hout⟩ := not_or.mp hguard
      rcases hrefused with h | rfl | h
      · exact absurd h hstorage
      · exact absurd rfl hout
      · exact if_pos h

end

end ChoonzMoba
