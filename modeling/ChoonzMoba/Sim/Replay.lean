import ChoonzMoba.Serialize.ByteIo
import ChoonzMoba.Library.Codec
import ChoonzMoba.Sim.World

namespace ChoonzMoba

def replayMagic : List UInt8 := [77, 79, 66, 65, 82, 80, 76, 89]

def replayFormatVersion : UInt32 := 1

def simLogicHash : UInt64 := 0xab96814425ba80a4

def replayMaxTicks : UInt64 := 1000000

def replayHeaderEncodedSize : Nat := 44

def replayTickBaseEncodedSize : Nat := 12

def replayCommandEncodedSize : Nat := 16

def replayPlaceholderMaxCommands : Nat := 2

structure ReplayHeader where
  formatVersion : UInt32
  simLogicHash : UInt64
  seed : UInt64
  tickRate : UInt32
  playerCount : UInt32
  tickCount : UInt64
deriving DecidableEq, Repr

inductive ReplayStatus where
  | ok
  | truncated
  | badMagic
  | badVersion
  | badLogicHash
  | badTickRate
  | badPlayerCount
  | badTickCount
  | badCommandCount
  | badCommand
  | overflow
  | trailingBytes
deriving DecidableEq, Repr

def validateHeader (header : ReplayHeader) : ReplayStatus :=
  if header.formatVersion ≠ replayFormatVersion then .badVersion
  else if header.simLogicHash ≠ simLogicHash then .badLogicHash
  else if header.tickRate ≠ UInt32.ofNat simHz.toNat then .badTickRate
  else if header.playerCount = 0 ∨ simMaxPlayers < header.playerCount.toNat then .badPlayerCount
  else if replayMaxTicks < header.tickCount then .badTickCount
  else .ok

def writerHas (writer : ByteWriter) (size : Nat) : Bool × ByteWriter :=
  if !writer.ok ∨ writer.capacity < writer.offset ∨ writer.capacity - writer.offset < size then
    (false, { writer with ok := false })
  else (true, writer)

def readerFail {α : Type} (reader : ByteReader) (status : ReplayStatus) (out : α) :
    ReplayStatus × α × ByteReader :=
  (status, out, { reader with ok := false })

def mix64 (value : UInt64) : UInt64 :=
  let value := value ^^^ (value >>> 30)
  let value := value * 0xbf58476d1ce4e5b9
  let value := value ^^^ (value >>> 27)
  let value := value * 0x94d049bb133111eb
  value ^^^ (value >>> 31)

def replayGeneratePlaceholderCommands (seed tick : UInt64) (playerCount : UInt32) :
    List SimCommand :=
  if playerCount = 0 ∨ simMaxPlayers < playerCount.toNat then []
  else
    let bits := mix64 (seed ^^^ (tick + 0x9e3779b97f4a7c15))
    let players := playerCount.toUInt64
    let units := UInt64.ofNat simMaxUnits
    let move :=
      if tick % 30 = 0 then
        let x := ((bits >>> 16) % 7).toInt64.toInt32 - 3
        let y := ((bits >>> 24) % 7).toInt64.toInt32 - 3
        [{ kind := simCommandSetVelocity
           playerId := ((bits >>> 8) % players).toUInt8
           unitIndex := (bits % units).toUInt16
           valueX := fixFromInt x
           valueY := fixFromInt y
           amount := 0 }]
      else []
    let damage :=
      if tick % 17 = 0 then
        [{ kind := simCommandDamage
           playerId := ((bits >>> 32) % players).toUInt8
           unitIndex := ((bits >>> 40) % units).toUInt16
           valueX := 0
           valueY := 0
           amount := ((bits >>> 48) % 9).toInt64.toInt32 + 1 }]
      else []
    move ++ damage

def replayHeaderMake (seed : UInt64) (playerCount : UInt32) (tickCount : UInt64) : ReplayHeader :=
  { formatVersion := replayFormatVersion
    simLogicHash := simLogicHash
    seed := seed
    tickRate := UInt32.ofNat simHz.toNat
    playerCount := playerCount
    tickCount := tickCount }

def replayWriteHeader (writer : ByteWriter) (header : ReplayHeader) : ReplayStatus × ByteWriter :=
  if validateHeader header ≠ .ok then (validateHeader header, writer)
  else
    match writerHas writer replayHeaderEncodedSize with
    | (false, writer) => (.overflow, writer)
    | (true, writer) =>
      let writer := (byteWriterWriteBytes writer replayMagic).2
      let writer := (byteWriterWriteU32 writer header.formatVersion).2
      let writer := (byteWriterWriteU64 writer header.simLogicHash).2
      let writer := (byteWriterWriteU64 writer header.seed).2
      let writer := (byteWriterWriteU32 writer header.tickRate).2
      let writer := (byteWriterWriteU32 writer header.playerCount).2
      let writer := (byteWriterWriteU64 writer header.tickCount).2
      (if byteWriterOk writer then .ok else .overflow, writer)

/-- Reads on the cursor, a copy of the reader that is kept only when all of them succeed. -/
abbrev CursorRead (α : Type) := StateT ByteReader (Except ReplayStatus) α

def readHeaderFields : CursorRead ReplayHeader := do
  let formatVersion ← byteReaderReadU32.orFail .truncated
  let simLogicHash ← byteReaderReadU64.orFail .truncated
  let seed ← byteReaderReadU64.orFail .truncated
  let tickRate ← byteReaderReadU32.orFail .truncated
  let playerCount ← byteReaderReadU32.orFail .truncated
  let tickCount ← byteReaderReadU64.orFail .truncated
  pure ⟨formatVersion, simLogicHash, seed, tickRate, playerCount, tickCount⟩

def readMagicAndFields : CursorRead (List UInt8 × ReplayHeader) := do
  let magic ← (byteReaderReadBytes 8).orFail .truncated
  let header ← readHeaderFields
  pure (magic, header)

def replayReadHeader (reader : ByteReader) (outHeader : ReplayHeader) :
    ReplayStatus × ReplayHeader × ByteReader :=
  if !reader.ok then readerFail reader .truncated outHeader
  else
    match readMagicAndFields.run reader with
    | .error status => readerFail reader status outHeader
    | .ok ((magic, header), cursor) =>
      if magic ≠ replayMagic then readerFail reader .badMagic outHeader
      else if validateHeader header ≠ .ok then readerFail reader (validateHeader header) outHeader
      else if byteReaderRemaining cursor / replayTickBaseEncodedSize < header.tickCount.toNat then
        readerFail reader .truncated outHeader
      else (.ok, header, cursor)

def writeCommand (writer : ByteWriter) (command : SimCommand) : ByteWriter :=
  let writer := (byteWriterWriteU8 writer command.kind).2
  let writer := (byteWriterWriteU8 writer command.playerId).2
  let writer := (byteWriterWriteU16 writer command.unitIndex).2
  let writer := (byteWriterWriteI32 writer command.valueX).2
  let writer := (byteWriterWriteI32 writer command.valueY).2
  (byteWriterWriteI32 writer command.amount).2

def replayWriteTick (writer : ByteWriter) (playerCount : UInt32)
    (commands : Option SimCommandBuffer) (expectedHash : UInt64) : ReplayStatus × ByteWriter :=
  if playerCount = 0 ∨ simMaxPlayers < playerCount.toNat then (.badPlayerCount, writer)
  else
    let count := commands.elim 0 SimCommandBuffer.count
    let data := commands.elim [] SimCommandBuffer.records
    if simMaxCommandsPerTick < count then (.badCommandCount, writer)
    else if 0 < count ∧ commands.elim true (fun buffer => buffer.commands.isNone) then
      (.badCommand, writer)
    else if !data.all (fun command =>
        simCommandIsCanonical command playerCount.toNat simMaxUnits) then (.badCommand, writer)
    else
      match writerHas writer (replayTickBaseEncodedSize + count * replayCommandEncodedSize) with
      | (false, writer) => (.overflow, writer)
      | (true, writer) =>
        let writer := (byteWriterWriteU32 writer (UInt32.ofNat count)).2
        let writer := (byteWriterWriteU64 writer expectedHash).2
        let writer := Loop.forEach data writeCommand writer
        (if byteWriterOk writer then .ok else .overflow, writer)

def readCommand (playerCount : UInt32) : CursorRead SimCommand := do
  let kind ← byteReaderReadU8.orFail .truncated
  let playerId ← byteReaderReadU8.orFail .truncated
  let unitIndex ← byteReaderReadU16.orFail .truncated
  let valueX ← byteReaderReadI32.orFail .truncated
  let valueY ← byteReaderReadI32.orFail .truncated
  let amount ← byteReaderReadI32.orFail .truncated
  let command := ⟨kind, playerId, unitIndex, valueX, valueY, amount⟩
  if simCommandIsCanonical command playerCount.toNat simMaxUnits then pure command
  else throw .badCommand

/-- The decoded tick: `scratch` up to the count, and the hash. -/
structure ReplayTick where
  commands : List SimCommand
  expectedHash : UInt64
deriving DecidableEq, Repr

def readTickFields (playerCount : UInt32) (commandCapacity : Nat) (hasCommands : Bool) :
    CursorRead ReplayTick := do
  let count ← byteReaderReadU32.orFail .truncated
  let expectedHash ← byteReaderReadU64.orFail .truncated
  if simMaxCommandsPerTick < count.toNat then throw .badCommandCount
  else if commandCapacity < count.toNat ∨ (0 < count.toNat ∧ !hasCommands) then throw .overflow
  else
    let scratch ← Source.readTimes (readCommand playerCount) count.toNat
    pure ⟨scratch, expectedHash⟩

/-- The output arguments of `replay_read_tick`; no `commands` is a null array. -/
structure ReplayTickOut where
  commands : Option (Nat → SimCommand)
  commandCount : Nat
  expectedHash : UInt64

def replayReadTick (reader : ByteReader) (playerCount : UInt32) (commandCapacity : Nat)
    (out : ReplayTickOut) : ReplayStatus × ReplayTickOut × ByteReader :=
  if !reader.ok then readerFail reader .truncated out
  else if playerCount = 0 ∨ simMaxPlayers < playerCount.toNat then
    readerFail reader .badPlayerCount out
  else
    match (readTickFields playerCount commandCapacity out.commands.isSome).run reader with
    | .error status => readerFail reader status out
    | .ok (tick, cursor) =>
      (.ok,
        { commands := out.commands.map fun commands i => tick.commands.getD i (commands i)
          commandCount := tick.commands.length
          expectedHash := tick.expectedHash },
        cursor)

def ReplayTickOut.buffer (out : ReplayTickOut) : SimCommandBuffer :=
  { count := out.commandCount
    commands := out.commands.map fun commands => .ofFn fun i => commands i }

def replayRequireEnd (reader : ByteReader) : ReplayStatus :=
  if !reader.ok then .truncated
  else if byteReaderRemaining reader = 0 then .ok
  else .trailingBytes

end ChoonzMoba
