import ChoonzMoba.Serialize.ByteIoSpec
import ChoonzMoba.Sim.Replay

namespace ChoonzMoba

open ByteWriter Source

def SimCommand.encode (c : SimCommand) : List UInt8 :=
  [c.kind] ++ ([c.playerId] ++ (LittleEndian.encode 2 c.unitIndex.toNat ++
    (LittleEndian.encode 4 c.valueX.toUInt32.toNat ++
      (LittleEndian.encode 4 c.valueY.toUInt32.toNat ++
        LittleEndian.encode 4 c.amount.toUInt32.toNat))))

def ReplayTick.encode (t : ReplayTick) : List UInt8 :=
  LittleEndian.encode 4 t.commands.length ++ (LittleEndian.encode 8 t.expectedHash.toNat ++
    t.commands.flatMap SimCommand.encode)

def ReplayHeader.encodeFields (h : ReplayHeader) : List UInt8 :=
  LittleEndian.encode 4 h.formatVersion.toNat ++ (LittleEndian.encode 8 h.simLogicHash.toNat ++
    (LittleEndian.encode 8 h.seed.toNat ++ (LittleEndian.encode 4 h.tickRate.toNat ++
      (LittleEndian.encode 4 h.playerCount.toNat ++ LittleEndian.encode 8 h.tickCount.toNat))))

def ReplayHeader.encode (h : ReplayHeader) : List UInt8 := replayMagic ++ h.encodeFields

def ReplayHeader.Valid (h : ReplayHeader) : Prop := validateHeader h = .ok

structure ReplayTick.Valid (playerCount : UInt32) (t : ReplayTick) : Prop where
  count : t.commands.length ≤ simMaxCommandsPerTick
  canonical : ∀ c ∈ t.commands, simCommandIsCanonical c playerCount.toNat simMaxUnits = true

@[simp] theorem SimCommand.encode_length (c : SimCommand) :
    c.encode.length = replayCommandEncodedSize := by
  simp [encode, replayCommandEncodedSize]

@[simp] theorem ReplayHeader.encode_length (h : ReplayHeader) :
    h.encode.length = replayHeaderEncodedSize := by
  simp [encode, encodeFields, replayMagic, replayHeaderEncodedSize]

@[simp] theorem ReplayTick.encode_length (t : ReplayTick) : t.encode.length =
    replayTickBaseEncodedSize + t.commands.length * replayCommandEncodedSize := by
  simp [encode, List.length_flatMap, replayTickBaseEncodedSize]
  omega

theorem ReplayHeader.valid_iff (h : ReplayHeader) : h.Valid ↔
    h.formatVersion = replayFormatVersion ∧ h.simLogicHash = ChoonzMoba.simLogicHash ∧
      h.tickRate = UInt32.ofNat simHz.toNat ∧
      ¬ (h.playerCount = 0 ∨ simMaxPlayers < h.playerCount.toNat) ∧
      h.tickCount.toNat ≤ replayMaxTicks.toNat := by
  rw [Valid, validateHeader, ← Nat.not_lt, ← UInt64.lt_iff_toNat_lt]
  split_ifs <;> simp_all

theorem ReplayTick.Valid.count_toNat {playerCount : UInt32} {t : ReplayTick}
    (valid : t.Valid playerCount) : (UInt32.ofNat t.commands.length).toNat = t.commands.length := by
  have := valid.count
  unfold simMaxCommandsPerTick at this
  rw [UInt32.toNat_ofNat']
  omega

theorem writerHas_eq (w : ByteWriter) (size : Nat) : writerHas w size =
    if w.Fits size then (true, w) else (false, { w with ok := false }) := by
  rw [writerHas]
  by_cases h : w.Fits size
  · have hok := h.1.1
    have hle := h.1.2
    have hroom := h.2
    rw [ByteWriter.room] at hroom
    rw [if_pos h, hok, if_neg]
    rw [Bool.not_true, not_or, not_or]
    exact ⟨Bool.false_ne_true, Nat.not_lt_of_le hle, Nat.not_lt_of_le hroom⟩
  · rw [if_neg h, if_pos]
    by_contra hfits
    simp only [Bool.not_eq_true', not_or, Bool.not_eq_false, Nat.not_lt] at hfits
    exact h ⟨⟨hfits.1, hfits.2.1⟩, hfits.2.2⟩

theorem writeCommand_puts (c : SimCommand) : Puts (fun w => writeCommand w c) c.encode :=
  (puts_u8 c.kind).andThen <| (puts_u8 c.playerId).andThen <|
    (puts_u16 c.unitIndex).andThen <| (puts_i32 c.valueX).andThen <|
      (puts_i32 c.valueY).andThen (puts_i32 c.amount)

theorem replayWriteHeader_eq (w : ByteWriter) (h : ReplayHeader) : replayWriteHeader w h =
    if validateHeader h ≠ .ok then (validateHeader h, w)
    else if w.Fits replayHeaderEncodedSize then (.ok, w.put h.encode)
    else (.overflow, { w with ok := false }) := by
  have hputs : Puts _ h.encode :=
    (puts_bytes replayMagic).andThen <| (puts_u32 h.formatVersion).andThen <|
      (puts_u64 h.simLogicHash).andThen <| (puts_u64 h.seed).andThen <|
        (puts_u32 h.tickRate).andThen <| (puts_u32 h.playerCount).andThen
          (puts_u64 h.tickCount)
  rw [replayWriteHeader, writerHas_eq]
  by_cases hvalid : validateHeader h ≠ .ok
  · rw [if_pos hvalid, if_pos hvalid]
  · rw [if_neg hvalid, if_neg hvalid]
    by_cases hfits : w.Fits replayHeaderEncodedSize
    · rw [if_pos hfits, if_pos hfits]
      rw [← h.encode_length] at hfits
      have hput := hputs w hfits
      dsimp only at hput ⊢
      rw [hput]
      exact Prod.ext (if_pos hfits.put.1) rfl
    · rw [if_neg hfits, if_neg hfits]

theorem replayWriteHeader_ok {w : ByteWriter} (hw : w.Ready) {h : ReplayHeader} (valid : h.Valid)
    (hroom : replayHeaderEncodedSize ≤ w.room) :
    ∃ u, replayWriteHeader w h = (.ok, u) ∧ u.Ready ∧ u.bytes = w.bytes ++ h.encode ∧
      u.room = w.room - replayHeaderEncodedSize := by
  have hfits : w.Fits replayHeaderEncodedSize := ⟨hw, hroom⟩
  have hvalid : ¬ validateHeader h ≠ .ok := not_not.mpr valid
  refine ⟨w.put h.encode, ?_, ?_, put_bytes w _, ?_⟩
  · rw [replayWriteHeader_eq, if_neg hvalid, if_pos hfits]
  · rw [← h.encode_length] at hfits
    exact hfits.put
  · rw [put_room, h.encode_length]

def CommandsMatch (commands : Option SimCommandBuffer) (records : List SimCommand) : Prop :=
  commands.elim 0 SimCommandBuffer.count = records.length ∧
    commands.elim [] SimCommandBuffer.records = records

theorem SimCommandBuffer.records_length {buffer : SimCommandBuffer}
    (h : buffer.count = 0 ∨ buffer.commands.isSome = true) :
    buffer.records.length = buffer.count := by
  unfold records
  cases hc : buffer.commands with
  | none => simpa [hc, eq_comm] using h
  | some commands => simp

theorem CommandsMatch.ofList (records : List SimCommand) :
    CommandsMatch (some (.ofList records)) records :=
  ⟨rfl, rfl⟩

theorem CommandsMatch.data {commands : Option SimCommandBuffer} {records : List SimCommand}
    (h : CommandsMatch commands records) :
    ¬ (0 < records.length ∧ commands.elim true (fun buffer => buffer.commands.isNone) = true) := by
  rintro ⟨hpos, hnone⟩
  obtain ⟨-, rfl⟩ := h
  cases commands with
  | none => cases hpos
  | some buffer =>
    have hnull : buffer.commands = none := Option.isNone_iff_eq_none.mp hnone
    simp [SimCommandBuffer.records, hnull] at hpos

def replayTickStatus (playerCount : UInt32) (commands : Option SimCommandBuffer) : ReplayStatus :=
  if playerCount = 0 ∨ simMaxPlayers < playerCount.toNat then .badPlayerCount
  else
    let count := commands.elim 0 SimCommandBuffer.count
    if simMaxCommandsPerTick < count then .badCommandCount
    else if 0 < count ∧ commands.elim true (fun buffer => buffer.commands.isNone) then .badCommand
    else if !(commands.elim [] SimCommandBuffer.records).all (fun command =>
        simCommandIsCanonical command playerCount.toNat simMaxUnits) then .badCommand
    else .ok

def replayTickOf (commands : Option SimCommandBuffer) (expectedHash : UInt64) : ReplayTick :=
  ⟨commands.elim [] SimCommandBuffer.records, expectedHash⟩

theorem commandsMatch_of_data {commands : Option SimCommandBuffer}
    (h : ¬ (0 < commands.elim 0 SimCommandBuffer.count ∧
      commands.elim true (fun buffer => buffer.commands.isNone) = true)) :
    CommandsMatch commands (commands.elim [] SimCommandBuffer.records) := by
  refine ⟨?_, rfl⟩
  cases commands with
  | none => rfl
  | some buffer =>
    refine (SimCommandBuffer.records_length ?_).symm
    rw [not_and_or, Nat.not_lt, Nat.le_zero, Bool.not_eq_true] at h
    refine h.imp id fun hsome => ?_
    rw [← Option.not_isNone]
    exact congrArg Bool.not hsome

theorem replayWriteTick_eq (w : ByteWriter) (playerCount : UInt32)
    (commands : Option SimCommandBuffer) (expectedHash : UInt64) :
    replayWriteTick w playerCount commands expectedHash =
      if replayTickStatus playerCount commands ≠ .ok then (replayTickStatus playerCount commands, w)
      else if w.Fits (replayTickOf commands expectedHash).encode.length then
        (.ok, w.put (replayTickOf commands expectedHash).encode)
      else (.overflow, { w with ok := false }) := by
  rw [replayWriteTick, replayTickStatus]
  by_cases hplayers : playerCount = 0 ∨ simMaxPlayers < playerCount.toNat
  · simp only [if_pos hplayers, ne_eq, reduceCtorEq, not_false_eq_true, if_true]
  rw [if_neg hplayers, if_neg hplayers]
  dsimp only
  by_cases hcount : simMaxCommandsPerTick < commands.elim 0 SimCommandBuffer.count
  · simp only [if_pos hcount, ne_eq, reduceCtorEq, not_false_eq_true, if_true]
  rw [if_neg hcount, if_neg hcount]
  by_cases hdata : 0 < commands.elim 0 SimCommandBuffer.count ∧
      commands.elim true (fun buffer => buffer.commands.isNone) = true
  · simp only [if_pos hdata, ne_eq, reduceCtorEq, not_false_eq_true, if_true]
  rw [if_neg hdata, if_neg hdata]
  have hlen := (commandsMatch_of_data hdata).1
  have hputs : Puts _ (replayTickOf commands expectedHash).encode :=
    (LittleEndian.encode_uint32_ofNat _ ▸ puts_u32
      (UInt32.ofNat (commands.elim [] SimCommandBuffer.records).length)).andThen <|
        (puts_u64 expectedHash).andThen
          (Puts.forEach writeCommand_puts (commands.elim [] SimCommandBuffer.records))
  split
  · rfl
  · have hneeded : replayTickBaseEncodedSize + commands.elim 0 SimCommandBuffer.count *
        replayCommandEncodedSize = (replayTickOf commands expectedHash).encode.length := by
      rw [ReplayTick.encode_length, hlen]
      rfl
    rw [writerHas_eq, hneeded, if_neg (not_not.mpr rfl)]
    by_cases hfits : w.Fits (replayTickOf commands expectedHash).encode.length
    · rw [if_pos hfits, if_pos hfits]
      have hput := hputs w hfits
      dsimp only at hput ⊢
      rw [hlen, hput]
      exact Prod.ext (if_pos hfits.put.1) rfl
    · rw [if_neg hfits, if_neg hfits]

theorem replayWriteTick_ok {w : ByteWriter} (hw : w.Ready) {playerCount : UInt32}
    (hplayers : ¬ (playerCount = 0 ∨ simMaxPlayers < playerCount.toNat))
    {commands : Option SimCommandBuffer} {t : ReplayTick}
    (hdata : CommandsMatch commands t.commands) (valid : t.Valid playerCount)
    (hroom : t.encode.length ≤ w.room) :
    ∃ u, replayWriteTick w playerCount commands t.expectedHash = (.ok, u) ∧ u.Ready ∧
      u.bytes = w.bytes ++ t.encode ∧ u.room = w.room - t.encode.length := by
  have hfits : w.Fits t.encode.length := ⟨hw, hroom⟩
  have htick : replayTickOf commands t.expectedHash = t := by rw [replayTickOf, hdata.2]
  have hall : (!t.commands.all fun command =>
      simCommandIsCanonical command playerCount.toNat simMaxUnits) = false := by
    simpa using valid.canonical
  have hstatus : replayTickStatus playerCount commands = .ok := by
    simp only [replayTickStatus, if_neg hplayers, hdata.1, hdata.2,
      if_neg (Nat.not_lt_of_le valid.count), if_neg hdata.data, hall, Bool.false_eq_true, if_false]
  refine ⟨w.put t.encode, ?_, hfits.put, put_bytes w _, put_room w _⟩
  rw [replayWriteTick_eq, htick, if_neg (not_not.mpr hstatus), if_pos hfits]

section

variable (playerCount : UInt32)

theorem reads_command : byteSource.Reads (readCommand playerCount) SimCommand.encode
    (fun c => simCommandIsCanonical c playerCount.toNat simMaxUnits = true) := by
  refine Reads.congr ((reads_u8 _).bind SimCommand.kind (fun kind _ =>
    (reads_u8 _).bind SimCommand.playerId (fun playerId _ =>
      (reads_u16 _).bind SimCommand.unitIndex (fun unitIndex _ =>
        (reads_i32 _).bind SimCommand.valueX (fun valueX _ =>
          (reads_i32 _).bind SimCommand.valueY (fun valueY _ =>
            (reads_i32 _).bind SimCommand.amount (fun amount _ => reads_checked _ _ _)
              fun _ _ h => congrArg SimCommand.amount h.2)
            fun _ _ h => congrArg SimCommand.valueY h.2.2)
          fun _ _ h => congrArg SimCommand.valueX h.2.2.2)
        fun _ _ h => congrArg SimCommand.unitIndex h.2.2.2.2)
      fun _ _ h => congrArg SimCommand.playerId h.2.2.2.2.2)
    fun _ _ h => congrArg SimCommand.kind h.2.2.2.2.2.2) (fun c => ?_) fun c _ => ?_
  · simp
  · simp [SimCommand.encode]

theorem reads_tick (capacity : Nat) (hasCommands : Bool) :
    byteSource.Reads (readTickFields playerCount capacity hasCommands) ReplayTick.encode
      (fun t => t.Valid playerCount ∧ t.commands.length ≤ capacity ∧
        (0 < t.commands.length → hasCommands = true)) := by
  refine Reads.congr ((reads_u32 _).bind (fun t => UInt32.ofNat t.commands.length) (fun count _ =>
    (reads_u64 _).bind ReplayTick.expectedHash (fun hash _ =>
      (((reads_command playerCount).times count.toNat).bind ReplayTick.commands
        (fun scratch _ => reads_pure _) fun _ _ h => congrArg ReplayTick.commands h).unless _ _
          |>.unless _ _) ?_) ?_) (fun t => ?_) fun t _ => ?_
  · exact fun _ _ h => congrArg ReplayTick.expectedHash h.2.2.2
  · rintro count t ⟨-, -, -, ⟨hlen, -⟩, -⟩
    rw [hlen, UInt32.ofNat_toNat]
  · constructor
    · rintro ⟨valid, hcap, hdata⟩
      rw [valid.count_toNat]
      refine ⟨trivial, trivial, Nat.not_lt_of_le valid.count, ?_, ⟨rfl, valid.canonical⟩, rfl⟩
      rintro (hover | ⟨hpos, hnull⟩)
      · exact Nat.not_lt_of_le hcap hover
      · rw [hdata hpos] at hnull
        cases hnull
    · rintro ⟨-, -, hcount, hcap, ⟨hlen, hall⟩, -⟩
      rw [← hlen] at hcount hcap
      rw [not_or, Nat.not_lt] at hcap
      refine ⟨⟨Nat.le_of_not_lt hcount, hall⟩, hcap.1, fun hpos => ?_⟩
      by_contra hnull
      exact hcap.2 ⟨hpos, by rw [Bool.eq_false_of_not_eq_true hnull]; rfl⟩
  · rw [List.append_nil, ReplayTick.encode, LittleEndian.encode_uint32_ofNat]

theorem reads_headerFields :
    byteSource.Reads readHeaderFields ReplayHeader.encodeFields (fun _ => True) := by
  refine Reads.congr ((reads_u32 _).bind ReplayHeader.formatVersion (fun formatVersion _ =>
    (reads_u64 _).bind ReplayHeader.simLogicHash (fun logicHash _ =>
      (reads_u64 _).bind ReplayHeader.seed (fun seed _ =>
        (reads_u32 _).bind ReplayHeader.tickRate (fun tickRate _ =>
          (reads_u32 _).bind ReplayHeader.playerCount (fun playerCount _ =>
            (reads_u64 _).bind ReplayHeader.tickCount (fun tickCount _ => reads_pure _)
              fun _ _ h => congrArg ReplayHeader.tickCount h)
            fun _ _ h => congrArg ReplayHeader.playerCount h.2)
          fun _ _ h => congrArg ReplayHeader.tickRate h.2.2)
        fun _ _ h => congrArg ReplayHeader.seed h.2.2.2)
      fun _ _ h => congrArg ReplayHeader.simLogicHash h.2.2.2.2)
    fun _ _ h => congrArg ReplayHeader.formatVersion h.2.2.2.2.2) (fun r => ?_) fun r _ => ?_
  · simp
  · simp [ReplayHeader.encodeFields]

end

theorem reads_magicAndFields : byteSource.Reads readMagicAndFields
    (fun r => r.1 ++ r.2.encodeFields) (fun r => r.1.length = 8 ∧ True) :=
  (reads_bytes _ 8).pair reads_headerFields

theorem fails_magicAndFields : Fails readMagicAndFields (· ≠ .ok) :=
  (fails_orFail _ nofun).bind fun _ => Fails.bind
    ((fails_orFail _ nofun).bind fun _ => (fails_orFail _ nofun).bind fun _ =>
      (fails_orFail _ nofun).bind fun _ => (fails_orFail _ nofun).bind fun _ =>
        (fails_orFail _ nofun).bind fun _ => (fails_orFail _ nofun).bind fun _ => fails_pure _)
    fun _ => fails_pure _

theorem fails_command (playerCount : UInt32) : Fails (readCommand playerCount) (· ≠ .ok) :=
  (fails_orFail _ nofun).bind fun _ => (fails_orFail _ nofun).bind fun _ =>
    (fails_orFail _ nofun).bind fun _ => (fails_orFail _ nofun).bind fun _ =>
      (fails_orFail _ nofun).bind fun _ => (fails_orFail _ nofun).bind fun _ =>
        (fails_pure _).ite (fails_throw nofun)

theorem fails_tick (playerCount : UInt32) (capacity : Nat) (hasCommands : Bool) :
    Fails (readTickFields playerCount capacity hasCommands) (· ≠ .ok) :=
  (fails_orFail _ nofun).bind fun _ => (fails_orFail _ nofun).bind fun _ =>
    (fails_throw nofun).ite <| (fails_throw nofun).ite <|
      ((fails_command playerCount).times _).bind fun _ => fails_pure _

theorem byteReaderRemaining_eq {r : ByteReader} (hr : r.Ready) :
    byteReaderRemaining r = r.rest.length := by
  rw [byteReaderRemaining, if_neg (Nat.not_lt_of_le hr.2), ByteReader.rest_length]

theorem replayReadHeader_ok_iff {r u : ByteReader} (hr : r.Ready) (out : ReplayHeader)
    {h : ReplayHeader} :
    replayReadHeader r out = (.ok, h, u) ↔
      h.Valid ∧ r.rest = h.encode ++ u.rest ∧
        h.tickCount.toNat ≤ u.rest.length / replayTickBaseEncodedSize ∧
        u = r.skip replayHeaderEncodedSize := by
  have hlen : ∀ h : ReplayHeader, (replayMagic ++ h.encodeFields).length = replayHeaderEncodedSize :=
    ReplayHeader.encode_length
  simp only [replayReadHeader, hr.1, Bool.not_true, Bool.false_eq_true, if_false]
  cases hread : readMagicAndFields.run r with
  | error status =>
    have hstatus := fails_magicAndFields r status hread
    refine iff_of_false (fun h => hstatus (congrArg Prod.fst h)) ?_
    rintro ⟨valid, hrest, -, -⟩
    obtain ⟨t, ht, -⟩ := reads_magicAndFields.of_append hr (a := (replayMagic, h)) ⟨rfl, trivial⟩ hrest
    rw [hread] at ht
    cases ht
  | ok result =>
    obtain ⟨⟨magic, header⟩, cursor⟩ := result
    obtain ⟨⟨hmagic, -⟩, hfront, hcursor⟩ := (reads_magicAndFields r hr _ _).mp hread
    obtain ⟨-, hrest, hready⟩ := reads_magicAndFields.split hr hread
    dsimp only
    constructor
    · intro heq
      split at heq
      · cases heq
      · next hm =>
        split at heq
        · next hv => exact absurd (congrArg Prod.fst heq) hv
        · next hv =>
          split at heq
          · cases heq
          · next hc =>
            cases heq
            rw [not_not] at hm hv
            subst hm
            rw [hlen] at hcursor
            rw [byteReaderRemaining_eq hready] at hc
            exact ⟨hv, hrest, Nat.le_of_not_lt hc, hcursor⟩
    · rintro ⟨valid, hrest', hcount, rfl⟩
      obtain ⟨t, ht, -⟩ :=
        reads_magicAndFields.of_append hr (a := (replayMagic, h)) ⟨rfl, trivial⟩ hrest'
      rw [hread] at ht
      cases ht
      have hvalid : ¬ validateHeader h ≠ .ok := not_not.mpr valid
      rw [hlen] at hcursor
      have hskip : cursor = r.skip replayHeaderEncodedSize := hcursor
      rw [if_neg (not_not.mpr rfl), if_neg hvalid, byteReaderRemaining_eq hready, hskip,
        if_neg (Nat.not_lt_of_le hcount)]

def ReplayTickOut.filled (out : ReplayTickOut) (t : ReplayTick) : ReplayTickOut :=
  { commands := out.commands.map fun commands i => t.commands.getD i (commands i)
    commandCount := t.commands.length
    expectedHash := t.expectedHash }

theorem replayReadTick_ok_iff {r u : ByteReader} (hr : r.Ready) {playerCount : UInt32}
    (hplayers : ¬ (playerCount = 0 ∨ simMaxPlayers < playerCount.toNat)) {out out' : ReplayTickOut}
    (hout : out.commands.isSome = true) :
    replayReadTick r playerCount simMaxCommandsPerTick out = (.ok, out', u) ↔
      ∃ t : ReplayTick, t.Valid playerCount ∧ out' = out.filled t ∧
        r.rest = t.encode ++ u.rest ∧ u = r.skip t.encode.length := by
  simp only [replayReadTick, hr.1, hout, Bool.not_true, Bool.false_eq_true, if_false,
    if_neg hplayers]
  have hreads := reads_tick playerCount simMaxCommandsPerTick true
  cases hread : (readTickFields playerCount simMaxCommandsPerTick true).run r with
  | error status =>
    have hstatus := fails_tick playerCount simMaxCommandsPerTick true r status hread
    refine iff_of_false (fun h => hstatus (congrArg Prod.fst h)) ?_
    rintro ⟨t, valid, -, hrest, -⟩
    obtain ⟨v, hv, -⟩ := hreads.of_append hr ⟨valid, valid.count, fun _ => rfl⟩ hrest
    rw [hread] at hv
    cases hv
  | ok result =>
    obtain ⟨t, cursor⟩ := result
    obtain ⟨⟨valid, -⟩, hrest, -⟩ := hreads.split hr hread
    obtain ⟨-, -, hcursor⟩ := (hreads r hr t cursor).mp hread
    dsimp only
    constructor
    · rintro ⟨⟩
      exact ⟨t, valid, rfl, hrest, hcursor⟩
    · rintro ⟨t', valid', rfl, hrest', rfl⟩
      obtain ⟨v, hv, -⟩ := hreads.of_append hr ⟨valid', valid'.count, fun _ => rfl⟩ hrest'
      rw [hread] at hv
      cases hv
      rw [hcursor]
      rfl

theorem generated_player (x : UInt64) {playerCount : UInt32}
    (hplayers : ¬ (playerCount = 0 ∨ simMaxPlayers < playerCount.toNat)) :
    (x % playerCount.toUInt64).toUInt8.toNat < playerCount.toNat := by
  have hpos : 0 < playerCount.toNat := by
    rw [Nat.pos_iff_ne_zero]
    exact fun h => hplayers (Or.inl (UInt32.toNat_inj.mp h))
  have hle : playerCount.toNat ≤ 10 := Nat.le_of_not_lt fun h => hplayers (Or.inr h)
  have hlt := Nat.mod_lt x.toNat hpos
  rw [UInt64.toNat_toUInt8, UInt64.toNat_mod, UInt32.toNat_toUInt64]
  omega

theorem generated_unit (x : UInt64) : (x % UInt64.ofNat simMaxUnits).toUInt16.toNat < simMaxUnits := by
  have hlt := Nat.mod_lt x.toNat (show 0 < 64 by decide)
  rw [UInt64.toNat_toUInt16, UInt64.toNat_mod]
  simp only [simMaxUnits, UInt64.reduceOfNat, UInt64.reduceToNat]
  omega

theorem generated_amount (x : UInt64) : 0 ≤ (x % 9).toInt64.toInt32 + 1 := by
  have hall : ∀ k < 9, 0 ≤ (UInt64.ofNat k).toInt64.toInt32 + 1 := by decide
  have hlt : (x % 9).toNat < 9 := Nat.mod_lt _ (by decide)
  have h := hall _ hlt
  rwa [UInt64.ofNat_toNat] at h

theorem replayGeneratePlaceholderCommands_length (seed tick : UInt64) (playerCount : UInt32) :
    (replayGeneratePlaceholderCommands seed tick playerCount).length ≤
      replayPlaceholderMaxCommands := by
  unfold replayGeneratePlaceholderCommands replayPlaceholderMaxCommands
  split
  · exact Nat.zero_le _
  · dsimp only
    split <;> split <;> simp

theorem replayGeneratePlaceholderCommands_valid (seed tick hash : UInt64) {playerCount : UInt32}
    (hplayers : ¬ (playerCount = 0 ∨ simMaxPlayers < playerCount.toNat)) :
    ReplayTick.Valid playerCount
      ⟨replayGeneratePlaceholderCommands seed tick playerCount, hash⟩ := by
  refine ⟨Nat.le_trans (replayGeneratePlaceholderCommands_length seed tick playerCount) (by decide),
    fun c hc => ?_⟩
  have hguard : ∀ c : SimCommand, c.playerId.toNat < playerCount.toNat →
      c.unitIndex.toNat < simMaxUnits → ¬ (playerCount.toNat = 0 ∨ simMaxPlayers < playerCount.toNat ∨
        simMaxUnits < simMaxUnits ∨ playerCount.toNat ≤ c.playerId.toNat ∨
          simMaxUnits ≤ c.unitIndex.toNat) := by
    intro c hp hu
    omega
  simp only [replayGeneratePlaceholderCommands, if_neg hplayers, List.mem_append] at hc
  rcases hc with hc | hc
  · split at hc
    · obtain rfl := List.mem_singleton.mp hc
      rw [simCommandIsCanonical, if_neg (hguard _ (generated_player _ hplayers) (generated_unit _)),
        if_pos rfl]
      rfl
    · cases hc
  · split at hc
    · obtain rfl := List.mem_singleton.mp hc
      rw [simCommandIsCanonical, if_neg (hguard _ (generated_player _ hplayers) (generated_unit _)),
        if_neg (show ¬ simCommandDamage = simCommandSetVelocity by decide), if_pos rfl]
      simp [generated_amount]
    · cases hc

end ChoonzMoba
