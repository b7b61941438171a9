import ChoonzMoba.Sim.ReplayCodec
import ChoonzMoba.Sim.Systems

namespace ChoonzMoba

def writeTicks (playerCount : UInt32) : List ReplayTick → ByteWriter → ReplayStatus × ByteWriter
  | [], writer => (.ok, writer)
  | t :: ticks, writer =>
    match replayWriteTick writer playerCount (some (.ofList t.commands)) t.expectedHash with
    | (.ok, writer) => writeTicks playerCount ticks writer
    | (status, writer) => (status, writer)

def writeReplay (writer : ByteWriter) (header : ReplayHeader) (ticks : List ReplayTick) :
    ReplayStatus × ByteWriter :=
  match replayWriteHeader writer header with
  | (.ok, writer) => writeTicks header.playerCount ticks writer
  | (status, writer) => (status, writer)

def readTicks (playerCount : UInt32) :
    Nat → ReplayTickOut → ByteReader → ReplayStatus × List ReplayTick × ByteReader
  | 0, _, reader => (.ok, [], reader)
  | n + 1, out, reader =>
    match replayReadTick reader playerCount simMaxCommandsPerTick out with
    | (.ok, out, reader) =>
      let rest := readTicks playerCount n out reader
      (rest.1, ⟨out.buffer.records, out.expectedHash⟩ :: rest.2.1, rest.2.2)
    | (status, _, reader) => (status, [], reader)

def noCommand : SimCommand := ⟨0, 0, 0, 0, 0, 0⟩

def ReplayTickOut.zeroed : ReplayTickOut := ⟨some fun _ => noCommand, 0, 0⟩

def ReplayHeader.zeroed : ReplayHeader := ⟨0, 0, 0, 0, 0, 0⟩

def byteReaderOf (bytes : List UInt8) : ByteReader :=
  byteReaderInit (some fun i => bytes.getD i 0) bytes.length

def readReplay (bytes : List UInt8) : ReplayStatus × ReplayHeader × List ReplayTick :=
  match replayReadHeader (byteReaderOf bytes) .zeroed with
  | (.ok, header, reader) =>
    match readTicks header.playerCount header.tickCount.toNat .zeroed reader with
    | (.ok, ticks, reader) => (replayRequireEnd reader, header, ticks)
    | (status, ticks, _) => (status, header, ticks)
  | (status, header, _) => (status, header, [])

structure IsReplay (h : ReplayHeader) (ticks : List ReplayTick) : Prop where
  header : h.Valid
  count : ticks.length = h.tickCount.toNat
  ticks : ∀ t ∈ ticks, t.Valid h.playerCount

def encodeReplay (h : ReplayHeader) (ticks : List ReplayTick) : List UInt8 :=
  h.encode ++ ticks.flatMap ReplayTick.encode

def replaySize (ticks : List ReplayTick) : Nat :=
  replayHeaderEncodedSize + (ticks.map fun t =>
    replayTickBaseEncodedSize + t.commands.length * replayCommandEncodedSize).sum

theorem encodeReplay_length (h : ReplayHeader) (ticks : List ReplayTick) :
    (encodeReplay h ticks).length = replaySize ticks := by
  simp [encodeReplay, replaySize, List.length_flatMap]

theorem ReplayHeader.Valid.players {h : ReplayHeader} (valid : h.Valid) :
    ¬ (h.playerCount = 0 ∨ simMaxPlayers < h.playerCount.toNat) :=
  (h.valid_iff.mp valid).2.2.2.1

theorem filled_buffer {out : ReplayTickOut} (hout : out.commands.isSome = true) (t : ReplayTick) :
    (out.filled t).buffer = .ofList t.commands := by
  obtain ⟨commands, hcommands⟩ := Option.isSome_iff_exists.mp hout
  simp only [ReplayTickOut.filled, ReplayTickOut.buffer, SimCommandBuffer.ofList, hcommands,
    Option.map_some, SimCommandBuffer.mk.injEq, heq_eq_eq, true_and, Option.some.injEq]
  apply Vector.ext
  intro i hi
  simp

theorem filled_records {out : ReplayTickOut} (hout : out.commands.isSome = true) (t : ReplayTick) :
    (out.filled t).buffer.records = t.commands := by
  rw [filled_buffer hout]
  rfl

section

variable {playerCount : UInt32} (hplayers : ¬ (playerCount = 0 ∨ simMaxPlayers < playerCount.toNat))

include hplayers

theorem writeTicks_ok {ticks : List ReplayTick} (valid : ∀ t ∈ ticks, t.Valid playerCount)
    {w : ByteWriter} (hw : w.Ready) (hroom : (ticks.flatMap ReplayTick.encode).length ≤ w.room) :
    ∃ u, writeTicks playerCount ticks w = (.ok, u) ∧ u.Ready ∧
      u.bytes = w.bytes ++ ticks.flatMap ReplayTick.encode := by
  induction ticks generalizing w with
  | nil => exact ⟨w, rfl, hw, (List.append_nil _).symm⟩
  | cons t ticks ih =>
    obtain ⟨hvalid, hrest⟩ := List.forall_mem_cons.mp valid
    rw [List.flatMap_cons, List.length_append] at hroom
    obtain ⟨v, hv, hready, hbytes, hleft⟩ := replayWriteTick_ok hw hplayers
      (CommandsMatch.ofList t.commands) hvalid (by omega)
    obtain ⟨u, hu, hready', hbytes'⟩ := ih hrest hready (by omega)
    refine ⟨u, ?_, hready', ?_⟩
    · rw [writeTicks, hv]
      exact hu
    · rw [hbytes', hbytes, List.flatMap_cons, List.append_assoc]

theorem readTicks_ok_iff {n : Nat} (out : ReplayTickOut) (hout : out.commands.isSome = true)
    {r u : ByteReader} (hr : r.Ready) {ticks : List ReplayTick} :
    readTicks playerCount n out r = (.ok, ticks, u) ↔
      ticks.length = n ∧ (∀ t ∈ ticks, t.Valid playerCount) ∧
        r.rest = ticks.flatMap ReplayTick.encode ++ u.rest ∧
        u = r.skip (ticks.flatMap ReplayTick.encode).length := by
  induction n generalizing out r ticks with
  | zero =>
    constructor
    · rintro ⟨⟩
      exact ⟨rfl, nofun, rfl, rfl⟩
    · rintro ⟨hlen, -, -, rfl⟩
      obtain rfl := List.length_eq_zero_iff.mp hlen
      rfl
  | succ n ih =>
    have hfilled : ∀ t : ReplayTick, (out.filled t).commands.isSome = true := by
      intro t
      simpa [ReplayTickOut.filled] using hout
    constructor
    · intro h
      rw [readTicks] at h
      split at h
      · next out' v hstep =>
        obtain ⟨t, valid, rfl, hrest, hv⟩ := (replayReadTick_ok_iff hr hplayers hout).mp hstep
        obtain ⟨hready, -⟩ := hr.skip_append hrest
        cases hnext : readTicks playerCount n (out.filled t) v with
        | mk status next =>
          rw [hnext] at h
          obtain ⟨ticks', u'⟩ := next
          cases h
          obtain ⟨hlen, hall, hrest', hu⟩ := (ih _ (hfilled t) (hv ▸ hready)).mp hnext
          rw [filled_records hout]
          refine ⟨by rw [List.length_cons, hlen], List.forall_mem_cons.mpr ⟨valid, hall⟩, ?_, ?_⟩
          · rw [hrest, hrest', List.flatMap_cons, List.append_assoc]
            rfl
          · rw [hu, hv, ByteReader.skip_skip, List.flatMap_cons, List.length_append]
            rfl
      · next status _ v hstatus hstep => exact (hstatus (congrArg Prod.fst h)).elim
    · rintro ⟨hlen, hall, hrest, rfl⟩
      cases ticks with
      | nil => cases hlen
      | cons t ticks =>
        obtain ⟨valid, hall⟩ := List.forall_mem_cons.mp hall
        rw [List.flatMap_cons, List.append_assoc] at hrest
        obtain ⟨hready, hskip⟩ := hr.skip_append hrest
        have hstep := (replayReadTick_ok_iff hr hplayers hout).mpr
          ⟨t, valid, rfl, hrest.trans (congrArg _ hskip.symm), rfl⟩
        have hend : r.skip ((t :: ticks).flatMap ReplayTick.encode).length =
            (r.skip t.encode.length).skip (ticks.flatMap ReplayTick.encode).length := by
          rw [ByteReader.skip_skip, List.flatMap_cons, List.length_append]
        have hnext := (ih _ (hfilled t) hready).mpr ⟨Nat.succ.inj hlen, hall, hskip, hend⟩
        simp only [readTicks, hstep, hnext, filled_records hout]
        rfl

end

@[simp] theorem byteReaderOf_rest (bytes : List UInt8) : (byteReaderOf bytes).rest = bytes := by
  apply List.ext_getElem
  · simp [byteReaderOf, byteReaderInit]
  · intro i h1 h2
    simp [ByteReader.rest, ByteReader.window, byteReaderOf, byteReaderInit, h2]

theorem byteReaderOf_ready (bytes : List UInt8) : (byteReaderOf bytes).Ready :=
  ⟨rfl, Nat.zero_le _⟩

theorem replayRequireEnd_ok_iff {r : ByteReader} (hr : r.Ready) :
    replayRequireEnd r = .ok ↔ r.rest = [] := by
  simp only [replayRequireEnd, hr.1, byteReaderRemaining_eq hr, List.length_eq_zero_iff,
    Bool.not_true, Bool.false_eq_true, if_false]
  split
  · next h => exact iff_of_true rfl h
  · next h => exact iff_of_false nofun h

theorem flatMap_encode_length (ticks : List ReplayTick) :
    ticks.length * replayTickBaseEncodedSize ≤ (ticks.flatMap ReplayTick.encode).length := by
  induction ticks with
  | nil => exact Nat.le_refl _
  | cons t ticks ih =>
    rw [List.flatMap_cons, List.length_append, List.length_cons, Nat.succ_mul, t.encode_length]
    omega

theorem IsReplay.count_le {h : ReplayHeader} {ticks : List ReplayTick} (replay : IsReplay h ticks)
    (more : List UInt8) : h.tickCount.toNat ≤
      (ticks.flatMap ReplayTick.encode ++ more).length / replayTickBaseEncodedSize := by
  rw [Nat.le_div_iff_mul_le (by decide), List.length_append, ← replay.count]
  exact Nat.le_trans (flatMap_encode_length ticks) (Nat.le_add_right _ _)

theorem readReplay_ok_iff {bytes : List UInt8} {h : ReplayHeader} {ticks : List ReplayTick} :
    readReplay bytes = (.ok, h, ticks) ↔ IsReplay h ticks ∧ bytes = encodeReplay h ticks := by
  have hready := byteReaderOf_ready bytes
  have hrest := byteReaderOf_rest bytes
  unfold readReplay
  constructor
  · intro heq
    split at heq
    · next header reader hheader =>
      obtain ⟨valid, hbytes, -, hreader⟩ := (replayReadHeader_ok_iff hready _).mp hheader
      obtain ⟨hready', -⟩ := hready.skip_append hbytes
      rw [header.encode_length, ← hreader] at hready'
      split at heq
      · next ticks' reader' hticks =>
        obtain ⟨hlen, hall, hrest', hreader'⟩ :=
          (readTicks_ok_iff valid.players _ rfl hready').mp hticks
        obtain ⟨hready'', -⟩ := hready'.skip_append hrest'
        rw [← hreader'] at hready''
        obtain ⟨hend, rfl, rfl⟩ : replayRequireEnd reader' = .ok ∧ header = h ∧ ticks' = ticks := by
          simpa using heq
        refine ⟨⟨valid, hlen, hall⟩, ?_⟩
        rw [(replayRequireEnd_ok_iff hready'').mp hend, List.append_nil] at hrest'
        rw [← hrest, hbytes, hrest', encodeReplay]
      · next hstatus _ => exact (hstatus (congrArg Prod.fst heq)).elim
    · next hstatus _ => exact (hstatus (congrArg Prod.fst heq)).elim
  · rintro ⟨replay, rfl⟩
    have hbytes : (byteReaderOf (encodeReplay h ticks)).rest =
        h.encode ++ ticks.flatMap ReplayTick.encode := hrest
    obtain ⟨hready', hrest'⟩ := hready.skip_append hbytes
    rw [h.encode_length] at hready' hrest'
    have hheader := (replayReadHeader_ok_iff hready .zeroed).mpr
      ⟨replay.header, hbytes.trans (congrArg _ hrest'.symm),
        by simpa [hrest'] using replay.count_le [], rfl⟩
    have hlast := hrest'.trans (List.append_nil _).symm
    obtain ⟨hready'', hend⟩ := hready'.skip_append hlast
    have hticks := (readTicks_ok_iff replay.header.players .zeroed rfl hready').mpr
      ⟨replay.count, replay.ticks, hlast.trans (congrArg _ hend.symm), rfl⟩
    simp only [hheader, hticks, (replayRequireEnd_ok_iff hready'').mpr hend]

theorem writeReplay_ok {h : ReplayHeader} {ticks : List ReplayTick} (replay : IsReplay h ticks)
    (memory : Nat → UInt8) {capacity : Nat} (hroom : replaySize ticks ≤ capacity) :
    ∃ w, writeReplay (byteWriterInit (some memory) capacity) h ticks = (.ok, w) ∧
      w.bytes = encodeReplay h ticks := by
  rw [← encodeReplay_length h ticks, encodeReplay, List.length_append, h.encode_length] at hroom
  have hready : (byteWriterInit (some memory) capacity).Ready := ⟨rfl, Nat.zero_le _⟩
  have hcap : (byteWriterInit (some memory) capacity).room = capacity := rfl
  obtain ⟨v, hv, hready', hbytes, hleft⟩ := replayWriteHeader_ok hready replay.header
    (by rw [hcap]; omega)
  obtain ⟨u, hu, -, hbytes'⟩ := writeTicks_ok replay.header.players replay.ticks hready'
    (by rw [hleft, hcap]; omega)
  refine ⟨u, ?_, ?_⟩
  · rw [writeReplay, hv]
    exact hu
  · rw [hbytes', hbytes]
    rfl

theorem accepted_recordable {w : SimWorld} {commands : Option SimCommandBuffer}
    (h : simValidateCommands w commands = true) :
    ∃ records, CommandsMatch commands records ∧
      ∀ hash, ReplayTick.Valid (UInt32.ofNat simMaxPlayers) ⟨records, hash⟩ := by
  cases commands with
  | none => exact ⟨[], ⟨rfl, rfl⟩, fun _ => ⟨Nat.zero_le _, nofun⟩⟩
  | some buffer =>
    simp only [simValidateCommands, simBufferAccepted, simCommandAccepted, Bool.and_eq_true,
      Bool.or_eq_true, decide_eq_true_eq, List.all_eq_true] at h
    obtain ⟨-, ⟨⟨hcount, hdata⟩, hall⟩, -⟩ := h
    have hlen := SimCommandBuffer.records_length hdata
    exact ⟨buffer.records, ⟨hlen.symm, rfl⟩, fun _ => ⟨hlen.trans_le hcount, fun c hc => (hall c hc).1⟩⟩

theorem replayCodec_bijection :
    (∀ h ticks, IsReplay h ticks → ∀ memory capacity, replaySize ticks ≤ capacity →
      ∃ w, writeReplay (byteWriterInit (some memory) capacity) h ticks = (.ok, w) ∧
        readReplay w.bytes = (.ok, h, ticks)) ∧
      (∀ bytes h ticks, readReplay bytes = (.ok, h, ticks) →
        ∀ memory capacity, bytes.length ≤ capacity →
          ∃ w, writeReplay (byteWriterInit (some memory) capacity) h ticks = (.ok, w) ∧
            w.bytes = bytes) ∧
      ∀ world commands next, simTick world commands = some (true, next) →
        ∀ (hash : UInt64) (writer : ByteWriter), writer.Ready →
          replayTickBaseEncodedSize + commands.elim 0 SimCommandBuffer.count *
            replayCommandEncodedSize ≤ writer.room →
          (replayWriteTick writer (UInt32.ofNat simMaxPlayers) commands hash).1 = .ok := by
  refine ⟨?_, ?_, ?_⟩
  · intro h ticks replay memory capacity hroom
    obtain ⟨w, hw, hbytes⟩ := writeReplay_ok replay memory hroom
    exact ⟨w, hw, readReplay_ok_iff.mpr ⟨replay, hbytes⟩⟩
  · intro bytes h ticks hread memory capacity hroom
    obtain ⟨replay, rfl⟩ := readReplay_ok_iff.mp hread
    rw [encodeReplay_length] at hroom
    exact writeReplay_ok replay memory hroom
  · intro world commands next htick hash writer hwriter hroom
    have hvalid : simValidateCommands world commands = true := by
      by_contra hc
      rw [simTick, if_pos (by simpa using hc)] at htick
      cases htick
    obtain ⟨records, hmatch, valid⟩ := accepted_recordable hvalid
    rw [hmatch.1] at hroom
    obtain ⟨u, hu, -⟩ := replayWriteTick_ok hwriter (by decide) hmatch (valid hash)
      (by rw [ReplayTick.encode_length]; exact hroom)
    rw [hu]

end ChoonzMoba
