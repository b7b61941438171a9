import ChoonzMoba.Sim.ReplayRun
import ChoonzMoba.Sim.StateElements

namespace ChoonzMoba

def simOracleSeed : UInt64 := 1

def simOraclePlayers : UInt32 := 2

def simOracleTicks : UInt64 := 10000

def simOracleWorldStorageSize : Nat := 2 * 1024 * 1024

structure SimOracleResult where
  tickCount : UInt64
  commandCount : UInt64
  finalStateHash : UInt64
  hashStreamDigest : UInt64
  logicHash : UInt64

/-- The outer `none` is an abort, the inner one a tick that was refused. -/
def simOracleLoop : Nat → UInt64 → SimWorld → SimOracleResult → Option (Option SimOracleResult)
  | 0, _, _, result => some (some result)
  | left + 1, tick, world, result =>
    let commands := replayGeneratePlaceholderCommands simOracleSeed tick simOraclePlayers
    match simTick world (some (.ofList commands)) with
    | none => none
    | some (false, _) => some none
    | some (true, world) =>
      let hash := simHashState world
      simOracleLoop left (tick + 1) world
        { result with
          commandCount := result.commandCount + UInt64.ofNat commands.length
          finalStateHash := hash
          hashStreamDigest := hashU64Le hashU8 result.hashStreamDigest hash }

def simOracleRun (worldStorage : UInt64) (worldStorageSize : Nat) (out : Option SimOracleResult) :
    Option (Bool × Option SimOracleResult) :=
  if worldStorage = 0 ∨ out.isNone then some (false, out)
  else
    let config := simWorldConfigDefault
    if worldStorageSize < simWorldMemoryRequired config then some (false, out)
    else
      (arenaInitFixed worldStorage worldStorageSize).bind fun arena =>
      (simInit arena simOracleSeed config).bind fun (_, world) =>
      match world with
      | none => some (false, out)
      | some world =>
        (simOracleLoop simOracleTicks.toNat 0 world
          { tickCount := simOracleTicks
            commandCount := 0
            finalStateHash := 0
            hashStreamDigest := fnv1a64Offset
            logicHash := simLogicHash }).map fun result =>
          match result with
          | none => (false, out)
          | some result => (true, some result)

inductive PlaceholderRun (seed : UInt64) (playerCount : UInt32) :
    UInt64 → SimWorld → List ReplayTick → SimWorld → Prop
  | done {tick : UInt64} {w : SimWorld} : PlaceholderRun seed playerCount tick w [] w
  | tick {tick : UInt64} {w v u : SimWorld} {t : ReplayTick} {ticks : List ReplayTick} :
      t.commands = replayGeneratePlaceholderCommands seed tick playerCount →
      simTick w (some (.ofList t.commands)) = some (true, v) →
      t.expectedHash = simHashState v →
      PlaceholderRun seed playerCount (tick + 1) v ticks u →
      PlaceholderRun seed playerCount tick w (t :: ticks) u

section

variable {seed tick : UInt64} {playerCount : UInt32} {w u : SimWorld} {ticks : List ReplayTick}

theorem placeholderRun_exists
    (hplayers : ¬ (playerCount = 0 ∨ simMaxPlayers < playerCount.toNat)) (left : Nat)
    (tick : UInt64) (hw : ReplayWorld w) :
    ∃ ticks u, PlaceholderRun seed playerCount tick w ticks u ∧ ticks.length = left := by
  induction left generalizing tick w with
  | zero => exact ⟨[], w, .done, rfl⟩
  | succ left ih =>
    have hp : playerCount.toNat ≤ simMaxPlayers := Nat.le_of_not_lt fun h => hplayers (Or.inr h)
    obtain ⟨v, hv, hvw⟩ := hw.tick hp
      (replayGeneratePlaceholderCommands_valid seed tick 0 hplayers)
    obtain ⟨ticks, u, hrun, hlength⟩ := ih (tick + 1) hvw
    exact ⟨⟨_, simHashState v⟩ :: ticks, u, .tick rfl hv rfl hrun,
      congrArg Nat.succ hlength⟩

theorem PlaceholderRun.hashesTrue (h : PlaceholderRun seed playerCount tick w ticks u) :
    HashesTrue w ticks := by
  induction h with
  | done => exact hashesTrue_nil _
  | tick _ hv hhash _ ih => exact (hashesTrue_cons hv).mpr ⟨hhash.symm, ih⟩

def SimOracleResult.absorb (result : SimOracleResult) (t : ReplayTick) : SimOracleResult :=
  { result with
    commandCount := result.commandCount + UInt64.ofNat t.commands.length
    finalStateHash := t.expectedHash
    hashStreamDigest := hashU64Le hashU8 result.hashStreamDigest t.expectedHash }

-- stated by `rfl`: unfolding the recursion would evaluate `simTick` on the way
theorem simOracleLoop_succ (left : Nat) (tick : UInt64) (world : SimWorld)
    (result : SimOracleResult) :
    simOracleLoop (left + 1) tick world result =
      match simTick world (some (.ofList
        (replayGeneratePlaceholderCommands simOracleSeed tick simOraclePlayers))) with
      | none => none
      | some (false, _) => some none
      | some (true, world) =>
        simOracleLoop left (tick + 1) world (result.absorb
          ⟨replayGeneratePlaceholderCommands simOracleSeed tick simOraclePlayers,
            simHashState world⟩) := by rfl

theorem PlaceholderRun.simOracleLoop (h : PlaceholderRun simOracleSeed simOraclePlayers tick w ticks u)
    (result : SimOracleResult) :
    ChoonzMoba.simOracleLoop ticks.length tick w result =
      some (some (ticks.foldl SimOracleResult.absorb result)) := by
  generalize hseed : simOracleSeed = seed at h
  generalize hplayers : simOraclePlayers = players at h
  induction h generalizing result with
  | done => rfl
  | @tick _ _ _ _ t _ hcommands hv hhash _ ih =>
    have hcons : t = ⟨t.commands, t.expectedHash⟩ := rfl
    rw [List.length_cons, simOracleLoop_succ, hseed, hplayers, ← hcommands, hv]
    dsimp only
    rw [ih, List.foldl_cons, hcons, hhash]

theorem absorb_tickCount (result : SimOracleResult) :
    (ticks.foldl SimOracleResult.absorb result).tickCount = result.tickCount ∧
      (ticks.foldl SimOracleResult.absorb result).logicHash = result.logicHash := by
  induction ticks generalizing result with
  | nil => exact ⟨rfl, rfl⟩
  | cons t ticks ih => exact ih (result.absorb t)

theorem absorb_commandCount (result : SimOracleResult) :
    (ticks.foldl SimOracleResult.absorb result).commandCount =
      result.commandCount + UInt64.ofNat (ticks.flatMap (·.commands)).length := by
  induction ticks generalizing result with
  | nil => exact (UInt64.add_zero _).symm
  | cons t ticks ih =>
    rw [List.foldl_cons, ih, List.flatMap_cons, List.length_append, UInt64.ofNat_add,
      ← UInt64.add_assoc]
    rfl

theorem absorb_hashStreamDigest (result : SimOracleResult) :
    (ticks.foldl SimOracleResult.absorb result).hashStreamDigest =
      (ticks.flatMap fun t => LittleEndian.encode 8 t.expectedHash.toNat).foldl hashU8
        result.hashStreamDigest := by
  induction ticks generalizing result with
  | nil => rfl
  | cons t ticks ih =>
    rw [List.foldl_cons, ih, List.flatMap_cons, List.foldl_append, SimOracleResult.absorb,
      hashU64Le_eq]

theorem PlaceholderRun.finalStateHash (h : PlaceholderRun seed playerCount tick w ticks u)
    (result : SimOracleResult) (hne : ticks ≠ []) :
    (ticks.foldl SimOracleResult.absorb result).finalStateHash = simHashState u := by
  induction h generalizing result with
  | done => exact absurd rfl hne
  | tick _ _ hhash hrest ih =>
    cases hrest with
    | done => exact hhash
    | tick hcommands hv hhash' hrest' => exact ih _ (List.cons_ne_nil _ _)

end

end ChoonzMoba
