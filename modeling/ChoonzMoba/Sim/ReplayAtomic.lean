import ChoonzMoba.Sim.ReplayCodec

namespace ChoonzMoba

open ByteWriter Source

-- The same functions with every pointer they take; `none` is a null pointer.

def replayWriteHeaderTo (writer : Option ByteWriter) (header : Option ReplayHeader) :
    ReplayStatus × Option ByteWriter :=
  match header with
  | none => (.overflow, writer)
  | some header =>
    match writer with
    | some writer =>
      let r := replayWriteHeader writer header
      (r.1, some r.2)
    | none => (if validateHeader header ≠ .ok then validateHeader header else .overflow, none)

def replayWriteTickTo (writer : Option ByteWriter) (playerCount : UInt32)
    (commands : Option SimCommandBuffer) (expectedHash : UInt64) :
    ReplayStatus × Option ByteWriter :=
  match writer with
  | some writer =>
    let r := replayWriteTick writer playerCount commands expectedHash
    (r.1, some r.2)
  | none =>
    let status := replayTickStatus playerCount commands
    (if status ≠ .ok then status else .overflow, none)

def replayReadHeaderFrom (reader : Option ByteReader) (outHeader : Option ReplayHeader) :
    ReplayStatus × Option ReplayHeader × Option ByteReader :=
  match reader, outHeader with
  | some reader, some outHeader =>
    let r := replayReadHeader reader outHeader
    (r.1, some r.2.1, some r.2.2)
  | reader, outHeader => (.truncated, outHeader, reader.map ByteReader.closed)

structure ReplayTickPointers where
  commands : Option (Nat → SimCommand)
  commandCount : Option Nat
  expectedHash : Option UInt64

def replayReadTickFrom (reader : Option ByteReader) (playerCount : UInt32) (commandCapacity : Nat)
    (out : ReplayTickPointers) : ReplayStatus × ReplayTickPointers × Option ByteReader :=
  match reader, out.commandCount, out.expectedHash with
  | some reader, some commandCount, some expectedHash =>
    let r := replayReadTick reader playerCount commandCapacity
      ⟨out.commands, commandCount, expectedHash⟩
    (r.1, ⟨r.2.1.commands, some r.2.1.commandCount, some r.2.1.expectedHash⟩, some r.2.2)
  | reader, _, _ => (.truncated, out, reader.map ByteReader.closed)

section

variable {r : ByteReader} {α : Type}

theorem orFail_ready {n : Nat} {value : List UInt8 → α} {status : ReplayStatus}
    {result : α × ByteReader} (h : ((fixedRead n value).orFail status).run r = .ok result) :
    r.Ready := by
  by_contra hclosed
  have hhas : ¬ r.Has n := fun h => hclosed h.1
  simp only [StateT.run, ByteRead.orFail, fixedRead, if_neg hhas] at h
  cases h

theorem readMagicAndFields_cursor {magic : List UInt8} {header : ReplayHeader} {cursor : ByteReader}
    (h : readMagicAndFields.run r = .ok ((magic, header), cursor)) :
    cursor = r.skip replayHeaderEncodedSize := by
  have hready : r.Ready := by
    rw [readMagicAndFields, run_bind_eq_ok] at h
    obtain ⟨a, u, hfirst, -⟩ := h
    rw [byteReaderReadBytes_eq] at hfirst
    exact orFail_ready hfirst
  obtain ⟨⟨hmagic, -⟩, -, hcursor⟩ := (reads_magicAndFields r hready _ _).mp h
  have hlength : (magic ++ header.encodeFields).length = replayHeaderEncodedSize := by
    rw [List.length_append, hmagic]
    exact header.encode_length
  rw [hlength] at hcursor
  exact hcursor

theorem readTickFields_cursor {playerCount : UInt32} {capacity : Nat} {hasCommands : Bool}
    {t : ReplayTick} {cursor : ByteReader}
    (h : (readTickFields playerCount capacity hasCommands).run r = .ok (t, cursor)) :
    cursor = r.skip (replayTickBaseEncodedSize + t.commands.length * replayCommandEncodedSize) := by
  have hready : r.Ready := by
    rw [readTickFields, run_bind_eq_ok] at h
    obtain ⟨a, u, hfirst, -⟩ := h
    rw [byteReaderReadU32_eq] at hfirst
    exact orFail_ready hfirst
  obtain ⟨-, -, hcursor⟩ := (reads_tick playerCount capacity hasCommands r hready _ _).mp h
  rw [t.encode_length] at hcursor
  exact hcursor

inductive Steps (r : ByteReader) (out : α) (size : α → Nat) : ReplayStatus × α × ByteReader → Prop
  | failed {status : ReplayStatus} : status ≠ .ok → Steps r out size (status, out, r.closed)
  | read (result : α) : Steps r out size (.ok, result, r.skip (size result))

theorem replayReadHeader_steps (r : ByteReader) (out : ReplayHeader) :
    Steps r out (fun _ => replayHeaderEncodedSize) (replayReadHeader r out) := by
  rw [replayReadHeader]
  split
  · exact .failed (by decide)
  cases hread : readMagicAndFields.run r with
  | error status => exact .failed (fails_magicAndFields r status hread)
  | ok result =>
    obtain ⟨⟨magic, header⟩, cursor⟩ := result
    dsimp only
    split
    · exact .failed (by decide)
    split
    · next hinvalid => exact .failed hinvalid
    split
    · exact .failed (by decide)
    · rw [readMagicAndFields_cursor hread]
      exact .read header

theorem replayReadTick_steps (r : ByteReader) (playerCount : UInt32) (capacity : Nat)
    (out : ReplayTickOut) :
    Steps r out
      (fun out => replayTickBaseEncodedSize + out.commandCount * replayCommandEncodedSize)
      (replayReadTick r playerCount capacity out) := by
  rw [replayReadTick]
  split
  · exact .failed (by decide)
  split
  · exact .failed (by decide)
  cases hread : (readTickFields playerCount capacity out.commands.isSome).run r with
  | error status => exact .failed (fails_tick playerCount capacity _ r status hread)
  | ok result =>
    obtain ⟨t, cursor⟩ := result
    dsimp only
    rw [readTickFields_cursor hread]
    exact .read (out.filled t)

end

inductive Writes (w : Option ByteWriter) (n : Nat) : ReplayStatus × Option ByteWriter → Prop
  | failed {status : ReplayStatus} {u : Option ByteWriter} : status ≠ .ok →
      u = w ∨ u = w.map (fun w => { w with ok := false }) → Writes w n (status, u)
  | written {before after : ByteWriter} : w = some before → before.Appended after n →
      Writes w n (.ok, some after)

theorem replayWriteHeaderTo_writes (writer : Option ByteWriter) (header : Option ReplayHeader) :
    Writes writer replayHeaderEncodedSize (replayWriteHeaderTo writer header) := by
  cases header with
  | none => exact .failed nofun (Or.inl rfl)
  | some header =>
    cases writer with
    | none =>
      simp only [replayWriteHeaderTo]
      split
      · next hinvalid => exact .failed hinvalid (Or.inl rfl)
      · exact .failed nofun (Or.inl rfl)
    | some w =>
      simp only [replayWriteHeaderTo, replayWriteHeader_eq]
      split
      · next hinvalid => exact .failed hinvalid (Or.inl rfl)
      split
      · next hfits =>
        rw [← header.encode_length] at hfits ⊢
        exact .written rfl hfits.appended
      · exact .failed nofun (Or.inr rfl)

theorem replayTickStatus_count {playerCount : UInt32} {commands : Option SimCommandBuffer}
    (h : replayTickStatus playerCount commands = .ok) (expectedHash : UInt64) :
    (replayTickOf commands expectedHash).encode.length = replayTickBaseEncodedSize +
      commands.elim 0 SimCommandBuffer.count * replayCommandEncodedSize := by
  rw [replayTickStatus] at h
  split at h
  · cases h
  dsimp only at h
  split at h
  · cases h
  split at h
  · cases h
  · next hdata =>
    rw [ReplayTick.encode_length, (commandsMatch_of_data hdata).1]
    rfl

theorem replayWriteTickTo_writes (writer : Option ByteWriter) (playerCount : UInt32)
    (commands : Option SimCommandBuffer) (expectedHash : UInt64) :
    Writes writer (replayTickBaseEncodedSize +
        commands.elim 0 SimCommandBuffer.count * replayCommandEncodedSize)
      (replayWriteTickTo writer playerCount commands expectedHash) := by
  cases writer with
  | none =>
    simp only [replayWriteTickTo]
    split
    · next hinvalid => exact .failed hinvalid (Or.inl rfl)
    · exact .failed nofun (Or.inl rfl)
  | some w =>
    simp only [replayWriteTickTo, replayWriteTick_eq]
    split
    · next hinvalid => exact .failed hinvalid (Or.inl rfl)
    next hvalid =>
    rw [← replayTickStatus_count (not_not.mp hvalid) expectedHash]
    split
    · next hfits => exact .written rfl hfits.appended
    · exact .failed nofun (Or.inr rfl)

theorem replayReadHeaderFrom_steps (reader : Option ByteReader) (out : Option ReplayHeader) :
    ((replayReadHeaderFrom reader out).1 ≠ .ok →
      (replayReadHeaderFrom reader out).2 = (out, reader.map ByteReader.closed)) ∧
    ((replayReadHeaderFrom reader out).1 = .ok → ∃ before, reader = some before ∧
      (replayReadHeaderFrom reader out).2.2 = some (before.skip replayHeaderEncodedSize)) := by
  cases reader with
  | none => exact ⟨fun _ => rfl, nofun⟩
  | some r =>
    cases out with
    | none => exact ⟨fun _ => rfl, nofun⟩
    | some out =>
      have hsteps := replayReadHeader_steps r out
      simp only [replayReadHeaderFrom]
      generalize replayReadHeader r out = result at hsteps
      cases hsteps with
      | failed hstatus => exact ⟨fun _ => rfl, fun hok => absurd hok hstatus⟩
      | read header => exact ⟨fun hfail => absurd rfl hfail, fun _ => ⟨r, rfl, rfl⟩⟩

theorem replayReadTickFrom_steps (reader : Option ByteReader) (playerCount : UInt32)
    (capacity : Nat) (out : ReplayTickPointers) :
    ((replayReadTickFrom reader playerCount capacity out).1 ≠ .ok →
      (replayReadTickFrom reader playerCount capacity out).2 =
        (out, reader.map ByteReader.closed)) ∧
    ((replayReadTickFrom reader playerCount capacity out).1 = .ok → ∃ before count,
      reader = some before ∧
      (replayReadTickFrom reader playerCount capacity out).2.1.commandCount = some count ∧
      (replayReadTickFrom reader playerCount capacity out).2.2 =
        some (before.skip (replayTickBaseEncodedSize + count * replayCommandEncodedSize))) := by
  obtain ⟨commands, commandCount, expectedHash⟩ := out
  cases reader with
  | none => exact ⟨fun _ => rfl, nofun⟩
  | some r =>
    cases commandCount with
    | none => exact ⟨fun _ => rfl, nofun⟩
    | some count =>
      cases expectedHash with
      | none => exact ⟨fun _ => rfl, nofun⟩
      | some hash =>
        have hsteps := replayReadTick_steps r playerCount capacity ⟨commands, count, hash⟩
        simp only [replayReadTickFrom]
        generalize replayReadTick r playerCount capacity ⟨commands, count, hash⟩ = result at hsteps
        cases hsteps with
        | failed hstatus => exact ⟨fun _ => rfl, fun hok => absurd hok hstatus⟩
        | read out => exact ⟨fun hfail => absurd rfl hfail, fun _ => ⟨r, _, rfl, rfl, rfl⟩⟩

theorem replay_steps_atomic :
    (∀ reader out,
      ((replayReadHeaderFrom reader out).1 ≠ .ok →
        (replayReadHeaderFrom reader out).2 = (out, reader.map ByteReader.closed)) ∧
      ((replayReadHeaderFrom reader out).1 = .ok → ∃ before, reader = some before ∧
        (replayReadHeaderFrom reader out).2.2 = some (before.skip replayHeaderEncodedSize))) ∧
    (∀ reader playerCount capacity out,
      ((replayReadTickFrom reader playerCount capacity out).1 ≠ .ok →
        (replayReadTickFrom reader playerCount capacity out).2 =
          (out, reader.map ByteReader.closed)) ∧
      ((replayReadTickFrom reader playerCount capacity out).1 = .ok → ∃ before count,
        reader = some before ∧
        (replayReadTickFrom reader playerCount capacity out).2.1.commandCount = some count ∧
        (replayReadTickFrom reader playerCount capacity out).2.2 =
          some (before.skip (replayTickBaseEncodedSize + count * replayCommandEncodedSize)))) ∧
    (∀ writer header,
      Writes writer replayHeaderEncodedSize (replayWriteHeaderTo writer header)) ∧
    ∀ writer playerCount commands expectedHash,
      Writes writer (replayTickBaseEncodedSize +
          commands.elim 0 SimCommandBuffer.count * replayCommandEncodedSize)
        (replayWriteTickTo writer playerCount commands expectedHash) :=
  ⟨replayReadHeaderFrom_steps, replayReadTickFrom_steps, replayWriteHeaderTo_writes,
    replayWriteTickTo_writes⟩

def recordedBytes : List UInt8 :=
  [77, 79, 66, 65, 82, 80, 76, 89, 1, 0, 0, 0, 164, 128, 186, 37, 68, 129, 150, 171, 9, 0, 0, 0, 0,
    0, 0, 0, 30, 0, 0, 0, 2, 0, 0, 0, 1, 0, 0, 0, 0, 0, 0, 0,
    2, 0, 0, 0, 77, 0, 0, 0, 0, 0, 0, 0, 1, 0, 0, 0, 0, 0, 1, 0, 0, 0, 0, 0, 0, 0, 0, 0, 2, 1, 0, 0, 0,
    0, 0, 0, 0, 0, 0, 0, 7, 0, 0, 0]

def recordedReader (size : Nat) : ByteReader := byteReaderInit (some (recordedBytes.getD · 0)) size

theorem replay_steps_atomic_recorded :
    let stale := replayHeaderMake 1 1 5
    let out : ReplayTickPointers := ⟨some fun _ => ⟨0, 0, 0, 0, 0, 0⟩, some 3, some 4⟩
    (replayReadHeaderFrom (some (recordedReader 43)) (some stale)).2 =
      (some stale, some (recordedReader 43).closed) ∧
    (replayReadHeaderFrom (some (recordedReader 88)) (some stale)).2.2 =
      some ((recordedReader 88).skip 44) ∧
    (replayReadTickFrom (some ((recordedReader 87).skip 44)) 2 4 out).2 =
      (out, some ((recordedReader 87).skip 44).closed) ∧
    (replayReadTickFrom (some ((recordedReader 88).skip 44)) 2 4 out).2.2 =
      some (((recordedReader 88).skip 44).skip 44) := by
  intro stale out
  obtain ⟨hheader, htick, -, -⟩ := replay_steps_atomic
  refine ⟨(hheader _ _).1 (by decide +kernel), ?_, (htick _ _ _ _).1 (by decide +kernel), ?_⟩
  · obtain ⟨before, hbefore, hskip⟩ := (hheader (some (recordedReader 88)) (some stale)).2
      (by decide +kernel)
    rw [hskip, ← Option.some.inj hbefore]
    rfl
  · obtain ⟨before, count, hbefore, hcount, hskip⟩ :=
      (htick (some ((recordedReader 88).skip 44)) 2 4 out).2 (by decide +kernel)
    have htwo : (replayReadTickFrom (some ((recordedReader 88).skip 44)) 2 4 out).2.1.commandCount =
        some 2 := by decide +kernel
    have hcount' : count = 2 := Option.some.inj (hcount.symm.trans htwo)
    rw [hskip, ← Option.some.inj hbefore, hcount']
    rfl

end ChoonzMoba
