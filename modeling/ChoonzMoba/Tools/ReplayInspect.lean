import ChoonzMoba.Tools.ReplayToolSpec

namespace ChoonzMoba

def inspectTicks (playerCount : UInt32) :
    Nat → ReplayTickOut → ByteReader → UInt64 → ReplayStatus × ByteReader × UInt64
  | 0, _, reader, totalCommands => (.ok, reader, totalCommands)
  | left + 1, out, reader, totalCommands =>
    let out := { out with commandCount := 0, expectedHash := 0 }
    match replayReadTick reader playerCount simMaxCommandsPerTick out with
    | (status, out, reader) =>
      -- the count is added before the status is looked at
      let totalCommands := totalCommands + UInt64.ofNat out.commandCount
      if status = .ok then inspectTicks playerCount left out reader totalCommands
      else (status, reader, totalCommands)

inductive InspectOutcome where
  | notLoaded (exit : CliExit)
  | invalid (status : ReplayStatus)
  | inspected (header : ReplayHeader) (totalCommands : UInt64) (bytes : Nat)
deriving DecidableEq, Repr

def InspectOutcome.exit : InspectOutcome → CliExit
  | notLoaded exit => exit
  | invalid _ => .invalidReplay
  | inspected .. => .success

def commandInspect (p : Platform) (path : String) : InspectOutcome :=
  match loadReplay p path with
  | .error exit => .notLoaded exit
  | .ok bytes =>
    match replayReadHeader (byteReaderOf bytes) .zeroed with
    | (.ok, header, reader) =>
      match inspectTicks header.playerCount header.tickCount.toNat .zeroed reader 0 with
      | (status, reader, totalCommands) =>
        let status := if status = .ok then replayRequireEnd reader else status
        if status ≠ .ok then .invalid status else .inspected header totalCommands bytes.length
    | (status, _, _) => .invalid status

def replayCommands (ticks : List ReplayTick) : List SimCommand := ticks.flatMap ReplayTick.commands

theorem replayCommands_length_le {playerCount : UInt32} {ticks : List ReplayTick}
    (valid : ∀ t ∈ ticks, t.Valid playerCount) :
    (replayCommands ticks).length ≤ ticks.length * simMaxCommandsPerTick := by
  induction ticks with
  | nil => exact Nat.le_refl _
  | cons t ticks ih =>
    obtain ⟨ht, hrest⟩ := List.forall_mem_cons.mp valid
    have hle := ih hrest
    have hcount := ht.count
    unfold replayCommands at hle ⊢
    rw [List.flatMap_cons, List.length_append, List.length_cons, Nat.succ_mul]
    omega

theorem IsReplay.commands_lt {h : ReplayHeader} {ticks : List ReplayTick}
    (replay : IsReplay h ticks) : (replayCommands ticks).length < 2 ^ 64 := by
  have hle := replayCommands_length_le replay.ticks
  have hticks : h.tickCount.toNat ≤ 1000000 := (h.valid_iff.mp replay.header).2.2.2.2
  rw [replay.count, simMaxCommandsPerTick] at hle
  omega

section

variable {playerCount : UInt32} (hplayers : ¬ (playerCount = 0 ∨ simMaxPlayers < playerCount.toNat))

include hplayers

theorem inspectTicks_read (left : Nat) (total : UInt64) {out : ReplayTickOut}
    (hout : out.commands.isSome = true) {r : ByteReader} (hr : r.Ready) {t : ReplayTick}
    (valid : t.Valid playerCount) {more : List UInt8} (hrest : r.rest = t.encode ++ more) :
    ∃ out', out'.commands.isSome = true ∧
      inspectTicks playerCount (left + 1) out r total =
        inspectTicks playerCount left out' (r.skip t.encode.length)
          (total + UInt64.ofNat t.commands.length) := by
  obtain ⟨-, hskip⟩ := hr.skip_append hrest
  have hfresh : ({ out with commandCount := 0, expectedHash := 0 } : ReplayTickOut).commands.isSome =
      true := hout
  have hread := (replayReadTick_ok_iff hr hplayers hfresh).mpr
    ⟨t, valid, rfl, hrest.trans (congrArg _ hskip.symm), rfl⟩
  refine ⟨ReplayTickOut.filled { out with commandCount := 0, expectedHash := 0 } t, ?_, ?_⟩
  · simpa [ReplayTickOut.filled] using hout
  · rw [inspectTicks]
    simp only [hread, if_true]
    rfl

theorem inspectTicks_cases (left : Nat) (total : UInt64) {out : ReplayTickOut}
    (hout : out.commands.isSome = true) {r : ByteReader} (hr : r.Ready) :
    (inspectTicks playerCount (left + 1) out r total).1 ≠ .ok ∨
      ∃ t : ReplayTick, t.Valid playerCount ∧
        r.rest = t.encode ++ (r.skip t.encode.length).rest := by
  have hfresh : ({ out with commandCount := 0, expectedHash := 0 } : ReplayTickOut).commands.isSome =
      true := hout
  cases hread : replayReadTick r playerCount simMaxCommandsPerTick
      { out with commandCount := 0, expectedHash := 0 } with
  | mk status result =>
    obtain ⟨out', u⟩ := result
    by_cases hstatus : status = .ok
    · subst hstatus
      obtain ⟨t, valid, -, hrest, rfl⟩ := (replayReadTick_ok_iff hr hplayers hfresh).mp hread
      exact Or.inr ⟨t, valid, hrest⟩
    · refine Or.inl ?_
      rw [inspectTicks]
      simp only [hread, if_neg hstatus]
      exact hstatus

theorem inspectTicks_ok_iff (left : Nat) (total : UInt64) (out : ReplayTickOut)
    (hout : out.commands.isSome = true) {r u : ByteReader} (hr : r.Ready) {sum : UInt64} :
    inspectTicks playerCount left out r total = (.ok, u, sum) ↔
      ∃ ticks : List ReplayTick, ticks.length = left ∧ (∀ t ∈ ticks, t.Valid playerCount) ∧
        r.rest = ticks.flatMap ReplayTick.encode ++ u.rest ∧
        u = r.skip (ticks.flatMap ReplayTick.encode).length ∧
        sum = total + UInt64.ofNat (replayCommands ticks).length := by
  have hsum : ∀ (total : UInt64) (t : ReplayTick) ticks,
      total + UInt64.ofNat (replayCommands (t :: ticks)).length =
        total + UInt64.ofNat t.commands.length + UInt64.ofNat (replayCommands ticks).length := by
    intro total t ticks
    unfold replayCommands
    rw [List.flatMap_cons, List.length_append, UInt64.ofNat_add, UInt64.add_assoc]
  induction left generalizing total out r with
  | zero =>
    constructor
    · rintro ⟨⟩
      exact ⟨[], rfl, nofun, rfl, rfl, (UInt64.add_zero _).symm⟩
    · rintro ⟨ticks, hlen, -, -, rfl, rfl⟩
      obtain rfl := List.length_eq_zero_iff.mp hlen
      exact congrArg (fun n => (ReplayStatus.ok, r, n)) (UInt64.add_zero total).symm
  | succ left ih =>
    constructor
    · intro h
      rcases inspectTicks_cases hplayers left total hout hr with
        hstop | ⟨t, valid, hrest⟩
      · rw [h] at hstop
        exact absurd rfl hstop
      · obtain ⟨hready, -⟩ := hr.skip_append hrest
        obtain ⟨out', hout', hstep⟩ :=
          inspectTicks_read hplayers left total hout hr valid hrest
        rw [hstep] at h
        obtain ⟨ticks, hlen, hall, hrest', hu, htotal⟩ := (ih _ _ hout' hready).mp h
        refine ⟨t :: ticks, by rw [List.length_cons, hlen], List.forall_mem_cons.mpr ⟨valid, hall⟩,
          ?_, ?_, htotal.trans (hsum total t ticks).symm⟩
        · rw [hrest, hrest', List.flatMap_cons, List.append_assoc]
        · rw [hu, ByteReader.skip_skip, List.flatMap_cons, List.length_append]
    · rintro ⟨ticks, hlen, hall, hrest, hu, rfl⟩
      cases ticks with
      | nil => cases hlen
      | cons t ticks =>
        obtain ⟨valid, hall⟩ := List.forall_mem_cons.mp hall
        rw [List.flatMap_cons, List.append_assoc] at hrest
        obtain ⟨hready, hskip⟩ := hr.skip_append hrest
        obtain ⟨out', hout', hstep⟩ :=
          inspectTicks_read hplayers left total hout hr valid hrest
        rw [hstep]
        refine (ih _ _ hout' hready).mpr
          ⟨ticks, Nat.succ.inj hlen, hall, hskip, ?_, hsum total t ticks⟩
        rw [hu, ByteReader.skip_skip, List.flatMap_cons, List.length_append]

theorem verifyTicks_formed (tick finalHash : UInt64) (out : ReplayTickOut)
    (hout : out.commands.isSome = true) {r : ByteReader} (hr : r.Ready) {w : SimWorld}
    (hw : ReplayWorld w) {ticks : List ReplayTick} (valid : ∀ t ∈ ticks, t.Valid playerCount)
    {more : List UInt8} (hrest : r.rest = ticks.flatMap ReplayTick.encode ++ more) :
    (∃ hash, verifyTicks playerCount ticks.length tick out r w finalHash =
        some (.stopped .ok (r.skip (ticks.flatMap ReplayTick.encode).length) hash)) ∨
      ∃ at' expected actual, verifyTicks playerCount ticks.length tick out r w finalHash =
        some (.diverged at' expected actual) := by
  have hp : playerCount.toNat ≤ simMaxPlayers := Nat.le_of_not_lt fun h => hplayers (Or.inr h)
  induction ticks generalizing tick finalHash out r w with
  | nil => exact Or.inl ⟨finalHash, rfl⟩
  | cons t ticks ih =>
    obtain ⟨ht, hall⟩ := List.forall_mem_cons.mp valid
    rw [List.flatMap_cons, List.append_assoc] at hrest
    obtain ⟨hready, hskip⟩ := hr.skip_append hrest
    obtain ⟨v, hv, hvw⟩ := hw.tick hp ht
    obtain ⟨out', hout', hstep⟩ := verifyTicks_read hplayers hout hr ht hrest hv
    rw [List.length_cons, hstep]
    split
    · exact Or.inr ⟨_, _, _, rfl⟩
    · have hnext := ih (tick + 1) (simHashState v) out' hout' hready hvw hall hskip
      rw [ByteReader.skip_skip, ← List.length_append, ← List.flatMap_cons] at hnext
      exact hnext

end

section

variable {p : Platform} {path : String} {bytes : List UInt8}
  (loaded : loadReplay p path = .ok bytes)

include loaded

theorem commandInspect_inspected_iff {h : ReplayHeader} {total : UInt64} {size : Nat} :
    commandInspect p path = .inspected h total size ↔
      ∃ ticks, IsReplay h ticks ∧ bytes = encodeReplay h ticks ∧
        total.toNat = (replayCommands ticks).length ∧ size = bytes.length := by
  have hready := byteReaderOf_ready bytes
  have hrest := byteReaderOf_rest bytes
  constructor
  · intro hinspect
    simp only [commandInspect, loaded] at hinspect
    split at hinspect
    · next header reader hheader =>
      obtain ⟨valid, hbytes, -, hreader⟩ := (replayReadHeader_ok_iff hready _).mp hheader
      obtain ⟨hready', -⟩ := hready.skip_append hbytes
      rw [header.encode_length, ← hreader] at hready'
      cases hticks : inspectTicks header.playerCount header.tickCount.toNat .zeroed reader 0 with
      | mk status result =>
        obtain ⟨u, sum⟩ := result
        rw [hticks] at hinspect
        by_cases hstatus : status = .ok
        · subst hstatus
          obtain ⟨ticks, hlen, hall, hrest', hu, hsum⟩ :=
            (inspectTicks_ok_iff valid.players _ _ _ rfl hready').mp hticks
          obtain ⟨hready'', -⟩ := hready'.skip_append hrest'
          rw [← hu] at hready''
          by_cases hend : replayRequireEnd u = .ok
          · obtain ⟨rfl, rfl, rfl⟩ : header = h ∧ sum = total ∧ bytes.length = size := by
              simpa [hend] using hinspect
            have replay : IsReplay header ticks := ⟨valid, hlen, hall⟩
            rw [(replayRequireEnd_ok_iff hready'').mp hend, List.append_nil] at hrest'
            refine ⟨ticks, replay, ?_, ?_, rfl⟩
            · rw [← hrest, hbytes, hrest', encodeReplay]
            · rw [hsum, UInt64.zero_add, UInt64.toNat_ofNat', Nat.mod_eq_of_lt replay.commands_lt]
          · simp [hend] at hinspect
        · simp [hstatus] at hinspect
    · cases hinspect
  · rintro ⟨ticks, replay, rfl, htotal, rfl⟩
    have hbytes : (byteReaderOf (encodeReplay h ticks)).rest =
        h.encode ++ ticks.flatMap ReplayTick.encode := hrest
    obtain ⟨hready', hrest'⟩ := hready.skip_append hbytes
    rw [h.encode_length] at hready' hrest'
    have hheader := (replayReadHeader_ok_iff hready .zeroed).mpr
      ⟨replay.header, hbytes.trans (congrArg _ hrest'.symm),
        by simpa [hrest'] using replay.count_le [], rfl⟩
    have hlast := hrest'.trans (List.append_nil _).symm
    obtain ⟨hready'', hend⟩ := hready'.skip_append hlast
    have hsum : total = 0 + UInt64.ofNat (replayCommands ticks).length := by
      rw [UInt64.zero_add, ← htotal, UInt64.ofNat_toNat]
    have hticks := (inspectTicks_ok_iff replay.header.players _ 0 .zeroed rfl hready').mpr
      ⟨ticks, replay.count, replay.ticks, hlast.trans (congrArg _ hend.symm), rfl, hsum⟩
    simp only [commandInspect, loaded, hheader, hticks, (replayRequireEnd_ok_iff hready'').mpr hend]
    rfl

theorem commandVerify_formed (hworld : p.Reserves worldBytes) {h : ReplayHeader}
    {ticks : List ReplayTick} (replay : IsReplay h ticks) (hbytes : bytes = encodeReplay h ticks) :
    (∃ hash, commandVerify p path = some (.verified h.tickCount hash)) ∨
      ∃ tick expected actual, tick < h.tickCount ∧
        commandVerify p path = some (.diverged tick expected actual) := by
  have hcount := replay.count_le []
  rw [List.append_nil] at hcount
  obtain ⟨r, w, hr, hrest, initial, heq⟩ :=
    commandVerify_header loaded hworld replay.header hbytes hcount
  have hlast := hrest.trans (List.append_nil _).symm
  obtain ⟨hready, hend⟩ := hr.skip_append hlast
  rw [heq, ← replay.count]
  have hsmall : ticks.length < 2 ^ 64 := replay.count.trans_lt h.tickCount.toNat_lt
  rcases verifyTicks_formed replay.header.players 0 (simHashState w) .zeroed rfl hr
      initial.replayWorld replay.ticks hlast with ⟨hash, hrun⟩ | ⟨at', expected, actual, hrun⟩
  · refine Or.inl ⟨hash, ?_⟩
    rw [hrun, Option.map_some]
    exact congrArg some
      (finish_verified_iff.mpr ⟨rfl, _, rfl, (replayRequireEnd_ok_iff hready).mpr hend⟩)
  · obtain ⟨front, -, -, hlt, htick, -⟩ :=
      (verifyTicks_diverged_iff replay.header.players rfl hr initial.replayWorld).mp hrun
    refine Or.inr ⟨at', expected, actual, ?_, ?_⟩
    · rw [UInt64.lt_iff_toNat_lt, htick, UInt64.zero_add, UInt64.toNat_ofNat',
        Nat.mod_eq_of_lt (Nat.lt_trans hlt hsmall), ← replay.count]
      exact hlt
    · rw [hrun]
      rfl

theorem commandInspect_exact (hworld : p.Reserves worldBytes) :
    (∀ h total size, commandInspect p path = .inspected h total size ↔
        ∃ ticks, IsReplay h ticks ∧ bytes = encodeReplay h ticks ∧
          total.toNat = (replayCommands ticks).length ∧ size = bytes.length) ∧
      ((commandInspect p path).exit = .success ∨ (commandInspect p path).exit = .invalidReplay) ∧
      (∀ h total size, commandInspect p path = .inspected h total size →
        (∃ hash, commandVerify p path = some (.verified h.tickCount hash)) ∨
          ∃ tick expected actual, tick < h.tickCount ∧
            commandVerify p path = some (.diverged tick expected actual)) ∧
      (∀ tickCount hash, commandVerify p path = some (.verified tickCount hash) →
        ∃ h total, commandInspect p path = .inspected h total bytes.length ∧
          h.tickCount = tickCount) := by
  refine ⟨fun h total size => commandInspect_inspected_iff loaded, ?_, ?_, ?_⟩
  · have hloaded : ∀ exit, commandInspect p path ≠ .notLoaded exit := by
      intro exit
      simp only [commandInspect, loaded]
      split
      · split
        · split <;> exact nofun
        · exact nofun
      · exact nofun
    cases hout : commandInspect p path with
    | notLoaded exit => exact absurd hout (hloaded exit)
    | invalid status => exact Or.inr rfl
    | inspected h total size => exact Or.inl rfl
  · intro h total size hinspect
    obtain ⟨ticks, replay, hbytes, -, -⟩ := (commandInspect_inspected_iff loaded).mp hinspect
    exact commandVerify_formed loaded hworld replay hbytes
  · intro tickCount hash hverify
    obtain ⟨h, ticks, w, replay, hbytes, -, -, htickCount⟩ :=
      (commandVerify_verified_iff loaded hworld).mp ⟨hash, hverify⟩
    refine ⟨h, UInt64.ofNat (replayCommands ticks).length, ?_, htickCount⟩
    refine (commandInspect_inspected_iff loaded).mpr ⟨ticks, replay, hbytes, ?_, rfl⟩
    rw [UInt64.toNat_ofNat', Nat.mod_eq_of_lt replay.commands_lt]

end

theorem commandInspect_exact_one : ∃ bytes,
    loadReplay (.holding bytes) "match.mbr" = .ok bytes ∧
      (Platform.holding bytes).Reserves worldBytes ∧
      commandInspect (.holding bytes) "match.mbr" = .inspected (replayHeaderMake 1 2 1) 1 72 := by
  have replay : IsReplay (replayHeaderMake 1 2 1) [⟨[⟨simCommandDamage, 1, 3, 0, 0, 5⟩], 7⟩] := by
    refine ⟨headerMake_valid (by decide) (by decide), rfl, ?_⟩
    intro t ht
    obtain rfl := List.mem_singleton.mp ht
    exact ⟨by decide, by decide⟩
  have hlen : (encodeReplay (replayHeaderMake 1 2 1)
      [⟨[⟨simCommandDamage, 1, 3, 0, 0, 5⟩], 7⟩]).length = 72 := encodeReplay_length _ _
  have hmax := hlen.trans_le (show 72 ≤ maxReplayFileBytes by decide)
  have loaded := loadReplay_ok (Platform.holding_holds "match.mbr" hmax)
    (hlen.symm ▸ (by decide : 0 < 72)) hmax
  have hworld := Platform.holding_reserves (encodeReplay (replayHeaderMake 1 2 1)
    [⟨[⟨simCommandDamage, 1, 3, 0, 0, 5⟩], 7⟩]) worldBytes_le
  exact ⟨_, loaded, hworld, ((commandInspect_exact loaded hworld).1 _ _ _).mpr
    ⟨_, replay, rfl, rfl, hlen.symm⟩⟩

end ChoonzMoba
