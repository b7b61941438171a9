import ChoonzMoba.Sim.Init
import ChoonzMoba.Sim.ReplayFile
import ChoonzMoba.Sim.SimHash

namespace ChoonzMoba

def maxReplayFileBytes : Nat := 256 * 1024 * 1024

inductive CliExit where
  | success
  | usageOrIo
  | invalidReplay
  | divergence
deriving DecidableEq, Repr

/-- What the tool asks of the operating system. -/
structure Platform where
  arenaReserve : Nat → Option Arena
  fileSize : String → Option Nat
  fileRead : String → Arena → Option (List UInt8)
  fileWrite : String → List UInt8 → Bool

def recordCapacity (tickCount : UInt64) : Option Nat :=
  let tickBytes :=
    replayTickBaseEncodedSize + replayPlaceholderMaxCommands * replayCommandEncodedSize
  if (sizeMax - replayHeaderEncodedSize) / tickBytes < tickCount.toNat then none
  else some (replayHeaderEncodedSize + tickCount.toNat * tickBytes)

/-- The outer `none` is the aborted process, the inner one the returned `false`. -/
def initCliWorld (p : Platform) (seed : UInt64) : Option (Option SimWorld) :=
  let config := simWorldConfigDefault
  let required := simWorldMemoryRequired config
  if required = 0 then some none
  else
    match p.arenaReserve required with
    | none => some none
    | some arena => (simInit arena seed config).map Prod.snd

inductive RecordLoop where
  | rejected (tick : UInt64)
  | stopped (status : ReplayStatus) (world : SimWorld) (writer : ByteWriter)

def recordTicks (seed : UInt64) (playerCount : UInt32) :
    Nat → UInt64 → SimWorld → ByteWriter → Option RecordLoop
  | 0, _, world, writer => some (.stopped .ok world writer)
  | left + 1, tick, world, writer =>
    let commands := replayGeneratePlaceholderCommands seed tick playerCount
    let commandBuffer := SimCommandBuffer.ofList commands
    match simTick world (some commandBuffer) with
    | none => none
    | some (false, _) => some (.rejected tick)
    | some (true, world) =>
      match replayWriteTick writer playerCount (some commandBuffer) (simHashState world) with
      | (.ok, writer) => recordTicks seed playerCount left (tick + 1) world writer
      | (status, writer) => some (.stopped status world writer)

-- stated by `rfl`: unfolding the recursion would evaluate `simTick` on the way
theorem recordTicks_succ (seed : UInt64) (playerCount : UInt32) (left : Nat) (tick : UInt64)
    (world : SimWorld) (writer : ByteWriter) :
    recordTicks seed playerCount (left + 1) tick world writer =
      match simTick world (some (.ofList
        (replayGeneratePlaceholderCommands seed tick playerCount))) with
      | none => none
      | some (false, _) => some (.rejected tick)
      | some (true, world) =>
        match replayWriteTick writer playerCount
            (some (.ofList (replayGeneratePlaceholderCommands seed tick playerCount)))
            (simHashState world) with
        | (.ok, writer) => recordTicks seed playerCount left (tick + 1) world writer
        | (status, writer) => some (.stopped status world writer) := by rfl

inductive RecordOutcome where
  | usage
  | tooLarge
  | noBuffer
  | noWorld
  | rejected (tick : UInt64)
  | failed (status : ReplayStatus)
  | notWritten
  | recorded (tickCount : UInt64) (playerCount : UInt32) (bytes : List UInt8) (finalHash : UInt64)

def RecordOutcome.exit : RecordOutcome → CliExit
  | recorded .. => .success
  | _ => .usageOrIo

def commandRecord (p : Platform) (outPath : String) (tickCount seed playersValue : UInt64) :
    Option RecordOutcome :=
  if outPath = "" ∨ replayMaxTicks < tickCount ∨ playersValue = 0 ∨
      simMaxPlayers < playersValue.toNat then some .usage
  else
    match recordCapacity tickCount with
    | none => some .tooLarge
    | some capacity =>
      if maxReplayFileBytes < capacity then some .tooLarge
      else
        match p.arenaReserve (if 0 < capacity then capacity else 1) with
        | none => some .noBuffer
        | some arena =>
          match arenaPush arena capacity 1 with
          | none => none
          | some _ =>
            let writer := byteWriterInit (some fun _ => 0) capacity
            let playerCount := playersValue.toUInt32
            let written := replayWriteHeader writer (replayHeaderMake seed playerCount tickCount)
            match initCliWorld p seed with
            | none => none
            | some none => some .noWorld
            | some (some world) =>
              let loop :=
                match written with
                | (.ok, writer) => recordTicks seed playerCount tickCount.toNat 0 world writer
                | (status, writer) => some (.stopped status world writer)
              match loop with
              | none => none
              | some (.rejected tick) => some (.rejected tick)
              | some (.stopped status world writer) =>
                if status ≠ .ok then some (.failed status)
                else if !p.fileWrite outPath writer.bytes then some .notWritten
                else some (.recorded tickCount playerCount writer.bytes (simHashState world))

def loadReplay (p : Platform) (path : String) : Except CliExit (List UInt8) :=
  match p.fileSize path with
  | none => .error .usageOrIo
  | some statSize =>
    if maxReplayFileBytes < statSize then .error .invalidReplay
    else
      let reserveSize := if 0 < statSize then statSize else 1
      let reserveSize :=
        if reserveSize ≤ sizeMax - memDefaultAlign then reserveSize + memDefaultAlign
        else reserveSize
      match p.arenaReserve reserveSize with
      | none => .error .usageOrIo
      | some arena =>
        match p.fileRead path arena with
        | none => .error .usageOrIo
        | some bytes =>
          if maxReplayFileBytes < bytes.length then .error .invalidReplay else .ok bytes

inductive VerifyLoop where
  | diverged (tick expected actual : UInt64)
  | stopped (status : ReplayStatus) (reader : ByteReader) (finalHash : UInt64)

def verifyTicks (playerCount : UInt32) :
    Nat → UInt64 → ReplayTickOut → ByteReader → SimWorld → UInt64 → Option VerifyLoop
  | 0, _, _, reader, _, finalHash => some (.stopped .ok reader finalHash)
  | left + 1, tick, out, reader, world, finalHash =>
    let out := { out with commandCount := 0, expectedHash := 0 }
    match replayReadTick reader playerCount simMaxCommandsPerTick out with
    | (.ok, out, reader) =>
      match simTick world (some out.buffer) with
      | none => none
      | some (false, _) => some (.stopped .badCommand reader finalHash)
      | some (true, world) =>
        let finalHash := simHashState world
        if finalHash ≠ out.expectedHash then some (.diverged tick out.expectedHash finalHash)
        else verifyTicks playerCount left (tick + 1) out reader world finalHash
    | (status, _, reader) => some (.stopped status reader finalHash)

theorem verifyTicks_succ (playerCount : UInt32) (left : Nat) (tick : UInt64) (out : ReplayTickOut)
    (reader : ByteReader) (world : SimWorld) (finalHash : UInt64) :
    verifyTicks playerCount (left + 1) tick out reader world finalHash =
      match replayReadTick reader playerCount simMaxCommandsPerTick
          { out with commandCount := 0, expectedHash := 0 } with
      | (.ok, out, reader) =>
        match simTick world (some out.buffer) with
        | none => none
        | some (false, _) => some (.stopped .badCommand reader finalHash)
        | some (true, world) =>
          let finalHash := simHashState world
          if finalHash ≠ out.expectedHash then some (.diverged tick out.expectedHash finalHash)
          else verifyTicks playerCount left (tick + 1) out reader world finalHash
      | (status, _, reader) => some (.stopped status reader finalHash) := by
  rfl

inductive VerifyOutcome where
  | notLoaded (exit : CliExit)
  | noWorld
  | diverged (tick expected actual : UInt64)
  | invalid (status : ReplayStatus)
  | verified (tickCount finalHash : UInt64)
deriving DecidableEq, Repr

def VerifyOutcome.exit : VerifyOutcome → CliExit
  | notLoaded exit => exit
  | noWorld => .usageOrIo
  | diverged .. => .divergence
  | invalid _ => .invalidReplay
  | verified .. => .success

def VerifyLoop.finish (tickCount : UInt64) : VerifyLoop → VerifyOutcome
  | diverged tick expected actual => .diverged tick expected actual
  | stopped status reader finalHash =>
    let status := if status = .ok then replayRequireEnd reader else status
    if status ≠ .ok then .invalid status else .verified tickCount finalHash

def commandVerify (p : Platform) (path : String) : Option VerifyOutcome :=
  match loadReplay p path with
  | .error exit => some (.notLoaded exit)
  | .ok bytes =>
    match replayReadHeader (byteReaderOf bytes) .zeroed with
    | (.ok, header, reader) =>
      match initCliWorld p header.seed with
      | none => none
      | some none => some .noWorld
      | some (some world) =>
        (verifyTicks header.playerCount header.tickCount.toNat 0 .zeroed reader world
          (simHashState world)).map (·.finish header.tickCount)
    | (status, _, _) => some (.invalid status)

end ChoonzMoba
