import ChoonzMoba.Sim.Oracle
import ChoonzMoba.Tools.ReplayTool

namespace ChoonzMoba

def Platform.Reserves (p : Platform) (size : Nat) : Prop :=
  ∃ arena, p.arenaReserve size = some arena ∧ arena.Backed ∧ arena.offset = 0 ∧
    size ≤ arena.reserved

def worldBytes : Nat := simWorldMemoryRequired simWorldConfigDefault

theorem initCliWorld_ok {p : Platform} (hworld : p.Reserves worldBytes) (seed : UInt64) :
    ∃ w, initCliWorld p seed = some (some w) ∧ InitialWorld seed w := by
  obtain ⟨arena, hreserve, backed, hoffset, hsize⟩ := hworld
  obtain ⟨pushed, w, hinit⟩ :=
    initialWorld_exists seed backed (by rw [hoffset, Nat.zero_add]; exact hsize)
  have hrequired : ¬ worldBytes = 0 := by
    have hfits := hinit
    simp only [simInit] at hfits
    split at hfits
    · cases hfits
    · next hguard =>
      simp only [not_or] at hguard
      exact hguard.2.2.1
  refine ⟨w, ?_, arena, pushed, hinit⟩
  unfold worldBytes at hreserve hrequired
  simp only [initCliWorld, if_neg hrequired, hreserve, hinit, Option.map_some]

theorem recordCapacity_eq {tickCount : UInt64} (h : tickCount.toNat ≤ replayMaxTicks.toNat) :
    recordCapacity tickCount = some (replayHeaderEncodedSize + tickCount.toNat * 44) := by
  have hmax : replayMaxTicks.toNat = 1000000 := rfl
  rw [recordCapacity, if_neg]
  · rfl
  · simp only [sizeMax, replayHeaderEncodedSize, replayTickBaseEncodedSize,
      replayPlaceholderMaxCommands, replayCommandEncodedSize]
    omega

theorem recordCapacity_le {tickCount : UInt64} (h : tickCount ≤ replayMaxTicks) {capacity : Nat}
    (hcapacity : recordCapacity tickCount = some capacity) : capacity ≤ maxReplayFileBytes := by
  have hticks := UInt64.le_iff_toNat_le.mp h
  have hmax : replayMaxTicks.toNat = 1000000 := rfl
  rw [recordCapacity_eq hticks, Option.some.injEq] at hcapacity
  rw [← hcapacity, replayHeaderEncodedSize, maxReplayFileBytes]
  omega

section

variable {seed tick : UInt64} {playerCount : UInt32} {w u : SimWorld} {ticks : List ReplayTick}

theorem PlaceholderRun.valid (h : PlaceholderRun seed playerCount tick w ticks u)
    (hplayers : ¬ (playerCount = 0 ∨ simMaxPlayers < playerCount.toNat)) :
    ∀ t ∈ ticks, t.Valid playerCount ∧ t.encode.length ≤ 44 := by
  induction h with
  | done => nofun
  | @tick tick _ _ _ t _ hcommands _ _ _ ih =>
    refine List.forall_mem_cons.mpr ⟨⟨?_, ?_⟩, ih⟩
    · have h := replayGeneratePlaceholderCommands_valid seed tick t.expectedHash hplayers
      rw [← hcommands] at h
      exact h
    · have hcount := replayGeneratePlaceholderCommands_length seed tick playerCount
      rw [← hcommands, replayPlaceholderMaxCommands] at hcount
      rw [t.encode_length, replayTickBaseEncodedSize, replayCommandEncodedSize]
      omega

theorem flatMap_encode_le (h : ∀ t ∈ ticks, t.encode.length ≤ 44) :
    (ticks.flatMap ReplayTick.encode).length ≤ ticks.length * 44 := by
  induction ticks with
  | nil => exact Nat.le_refl 0
  | cons t ticks ih =>
    rw [List.forall_mem_cons] at h
    have hrest := ih h.2
    rw [List.flatMap_cons, List.length_append, List.length_cons]
    omega

theorem PlaceholderRun.recordTicks (h : PlaceholderRun seed playerCount tick w ticks u)
    (hplayers : ¬ (playerCount = 0 ∨ simMaxPlayers < playerCount.toNat)) {writer : ByteWriter}
    (hwriter : writer.Ready) (hroom : ticks.length * 44 ≤ writer.room) :
    ∃ v, ChoonzMoba.recordTicks seed playerCount ticks.length tick w writer =
        some (.stopped .ok u v) ∧
      v.bytes = writer.bytes ++ ticks.flatMap ReplayTick.encode := by
  have hvalid := h.valid hplayers
  induction h generalizing writer with
  | done => exact ⟨writer, rfl, (List.append_nil _).symm⟩
  | @tick tick _ v _ t _ hcommands hv hhash _ ih =>
    obtain ⟨⟨htick, hsize⟩, hrest⟩ := List.forall_mem_cons.mp hvalid
    rw [List.length_cons] at hroom
    obtain ⟨next, hnext, hready, hbytes, hleft⟩ := replayWriteTick_ok hwriter hplayers
      (CommandsMatch.ofList t.commands) htick (by omega)
    obtain ⟨last, hlast, hwritten⟩ := ih hready (by rw [hleft]; omega) hrest
    refine ⟨last, ?_, ?_⟩
    · rw [hhash] at hnext
      rw [List.length_cons, recordTicks_succ, ← hcommands, hv]
      simp only [hnext]
      exact hlast
    · rw [hwritten, hbytes, List.flatMap_cons, List.append_assoc]

end

/-- The body of a replay goes wrong at `t`: everything before is right, its own hash is not. -/
structure FirstMismatch (playerCount : UInt32) (w : SimWorld) (body : List UInt8)
    (front : List ReplayTick) (t : ReplayTick) (actual : UInt64) : Prop where
  valid : ∀ s ∈ front ++ [t], s.Valid playerCount
  body : (front ++ [t]).flatMap ReplayTick.encode <+: body
  before : HashesTrue w front
  after : ∃ v, replayRun w (front ++ [t]) = some v ∧ simHashState v = actual
  wrong : actual ≠ t.expectedHash

theorem firstMismatch_nil {playerCount : UInt32} {w v : SimWorld} {body : List UInt8}
    {t : ReplayTick} {actual : UInt64}
    (hv : simTick w (some (.ofList t.commands)) = some (true, v)) :
    FirstMismatch playerCount w body [] t actual ↔ t.Valid playerCount ∧ t.encode <+: body ∧
      simHashState v = actual ∧ actual ≠ t.expectedHash := by
  constructor
  · rintro ⟨valid, hbody, -, ⟨u, hu, hhash⟩, wrong⟩
    rw [List.nil_append, replayRun_cons hv] at hu
    cases hu
    exact ⟨valid t (by simp), by simpa using hbody, hhash, wrong⟩
  · rintro ⟨valid, hbody, hhash, wrong⟩
    refine ⟨by simpa using valid, by simpa using hbody, hashesTrue_nil w, ⟨v, ?_, hhash⟩, wrong⟩
    rw [List.nil_append, replayRun_cons hv]
    rfl

theorem firstMismatch_cons {playerCount : UInt32} {w v : SimWorld} {rest : List UInt8}
    {s t : ReplayTick} {front : List ReplayTick} {actual : UInt64}
    (hv : simTick w (some (.ofList s.commands)) = some (true, v)) :
    FirstMismatch playerCount w (s.encode ++ rest) (s :: front) t actual ↔
      s.Valid playerCount ∧ simHashState v = s.expectedHash ∧
        FirstMismatch playerCount v rest front t actual := by
  have hrun : replayRun w (s :: front ++ [t]) = replayRun v (front ++ [t]) := replayRun_cons hv _
  constructor
  · rintro ⟨valid, hbody, before, after, wrong⟩
    rw [List.cons_append, List.forall_mem_cons] at valid
    rw [List.cons_append, List.flatMap_cons, List.prefix_append_right_inj] at hbody
    rw [hrun] at after
    obtain ⟨hhash, before⟩ := (hashesTrue_cons hv).mp before
    exact ⟨valid.1, hhash, valid.2, hbody, before, after, wrong⟩
  · rintro ⟨hs, hhash, valid, hbody, before, after, wrong⟩
    refine ⟨List.forall_mem_cons.mpr ⟨hs, valid⟩, ?_, (hashesTrue_cons hv).mpr ⟨hhash, before⟩, ?_,
      wrong⟩
    · rw [List.cons_append, List.flatMap_cons, List.prefix_append_right_inj]
      exact hbody
    · rw [hrun]
      exact after

section

variable {playerCount : UInt32} (hplayers : ¬ (playerCount = 0 ∨ simMaxPlayers < playerCount.toNat))

include hplayers

theorem verifyTicks_read {left : Nat} {tick finalHash : UInt64} {out : ReplayTickOut}
    (hout : out.commands.isSome = true) {r : ByteReader} (hr : r.Ready) {w v : SimWorld}
    {t : ReplayTick} (valid : t.Valid playerCount) {more : List UInt8}
    (hrest : r.rest = t.encode ++ more)
    (hv : simTick w (some (.ofList t.commands)) = some (true, v)) :
    ∃ out', out'.commands.isSome = true ∧
      verifyTicks playerCount (left + 1) tick out r w finalHash =
        if simHashState v ≠ t.expectedHash then
          some (.diverged tick t.expectedHash (simHashState v))
        else verifyTicks playerCount left (tick + 1) out' (r.skip t.encode.length) v
          (simHashState v) := by
  obtain ⟨-, hskip⟩ := hr.skip_append hrest
  have hfresh : ({ out with commandCount := 0, expectedHash := 0 } : ReplayTickOut).commands.isSome =
      true := hout
  have hread := (replayReadTick_ok_iff hr hplayers hfresh).mpr
    ⟨t, valid, rfl, hrest.trans (congrArg _ hskip.symm), rfl⟩
  refine ⟨ReplayTickOut.filled { out with commandCount := 0, expectedHash := 0 } t, ?_, ?_⟩
  · simpa [ReplayTickOut.filled] using hout
  · rw [verifyTicks_succ, hread]
    simp only [filled_buffer hfresh, hv]
    rfl

theorem verifyTicks_cases {left : Nat} {tick finalHash : UInt64} {out : ReplayTickOut}
    (hout : out.commands.isSome = true) {r : ByteReader} (hr : r.Ready) {w : SimWorld}
    (hw : ReplayWorld w) :
    (∃ status u, status ≠ .ok ∧ verifyTicks playerCount (left + 1) tick out r w finalHash =
        some (.stopped status u finalHash)) ∨
      ∃ (t : ReplayTick) (v : SimWorld), t.Valid playerCount ∧
        r.rest = t.encode ++ (r.skip t.encode.length).rest ∧
        simTick w (some (.ofList t.commands)) = some (true, v) := by
  have hp : playerCount.toNat ≤ simMaxPlayers := Nat.le_of_not_lt fun h => hplayers (Or.inr h)
  have hfresh : ({ out with commandCount := 0, expectedHash := 0 } : ReplayTickOut).commands.isSome =
      true := hout
  cases hread : replayReadTick r playerCount simMaxCommandsPerTick
      { out with commandCount := 0, expectedHash := 0 } with
  | mk status result =>
    obtain ⟨out', u⟩ := result
    by_cases hstatus : status = .ok
    · subst hstatus
      obtain ⟨t, valid, -, hrest, rfl⟩ := (replayReadTick_ok_iff hr hplayers hfresh).mp hread
      obtain ⟨v, hv, -⟩ := hw.tick hp valid
      exact Or.inr ⟨t, v, valid, hrest, hv⟩
    · refine Or.inl ⟨status, u, hstatus, ?_⟩
      rw [verifyTicks_succ, hread]
      cases status <;> first | rfl | exact absurd rfl hstatus

theorem verifyTicks_ok_iff (left : Nat) (tick finalHash : UInt64) (out : ReplayTickOut)
    (hout : out.commands.isSome = true) {r u : ByteReader} (hr : r.Ready) {w : SimWorld}
    (hw : ReplayWorld w) :
    (∃ hash, verifyTicks playerCount left tick out r w finalHash = some (.stopped .ok u hash)) ↔
      ∃ ticks : List ReplayTick, ticks.length = left ∧ (∀ t ∈ ticks, t.Valid playerCount) ∧
        r.rest = ticks.flatMap ReplayTick.encode ++ u.rest ∧
        u = r.skip (ticks.flatMap ReplayTick.encode).length ∧ HashesTrue w ticks := by
  have hp : playerCount.toNat ≤ simMaxPlayers := Nat.le_of_not_lt fun h => hplayers (Or.inr h)
  induction left generalizing tick finalHash out r w with
  | zero =>
    constructor
    · rintro ⟨hash, h⟩
      cases h
      exact ⟨[], rfl, nofun, rfl, rfl, hashesTrue_nil w⟩
    · rintro ⟨ticks, hlen, -, -, rfl, -⟩
      obtain rfl := List.length_eq_zero_iff.mp hlen
      exact ⟨finalHash, rfl⟩
  | succ left ih =>
    constructor
    · rintro ⟨hash, h⟩
      rcases verifyTicks_cases hplayers hout hr hw with
        ⟨status, _, hstatus, hstop⟩ | ⟨t, v, valid, hrest, hv⟩
      · rw [hstop] at h
        cases h
        exact absurd rfl hstatus
      · obtain ⟨hready, -⟩ := hr.skip_append hrest
        obtain ⟨out', hout', hstep⟩ := verifyTicks_read hplayers hout hr valid hrest hv
        rw [hstep] at h
        split at h
        · cases h
        · next hhash =>
          obtain ⟨v', hv', hvw⟩ := hw.tick hp valid
          rw [hv] at hv'
          cases hv'
          obtain ⟨ticks, hlen, hall, hrest', hu, htrue⟩ := (ih _ _ _ hout' hready hvw).mp ⟨hash, h⟩
          refine ⟨t :: ticks, by rw [List.length_cons, hlen], List.forall_mem_cons.mpr ⟨valid, hall⟩,
            ?_, ?_, (hashesTrue_cons hv).mpr ⟨not_not.mp hhash, htrue⟩⟩
          · rw [hrest, hrest', List.flatMap_cons, List.append_assoc]
          · rw [hu, ByteReader.skip_skip, List.flatMap_cons, List.length_append]
    · rintro ⟨ticks, hlen, hall, hrest, hu, htrue⟩
      cases ticks with
      | nil => cases hlen
      | cons t ticks =>
        obtain ⟨valid, hall⟩ := List.forall_mem_cons.mp hall
        rw [List.flatMap_cons, List.append_assoc] at hrest
        obtain ⟨v, hv, hvw⟩ := hw.tick hp valid
        obtain ⟨hready, hskip⟩ := hr.skip_append hrest
        obtain ⟨out', hout', hstep⟩ := verifyTicks_read hplayers hout hr valid hrest hv
        obtain ⟨hhash, htrue⟩ := (hashesTrue_cons hv).mp htrue
        rw [hstep, if_neg (not_not.mpr hhash)]
        refine (ih _ _ _ hout' hready hvw).mpr ⟨ticks, Nat.succ.inj hlen, hall, hskip, ?_, htrue⟩
        rw [hu, ByteReader.skip_skip, List.flatMap_cons, List.length_append]

theorem verifyTicks_diverged_iff {left : Nat} {tick finalHash : UInt64} {out : ReplayTickOut}
    (hout : out.commands.isSome = true) {r : ByteReader} (hr : r.Ready) {w : SimWorld}
    (hw : ReplayWorld w) {at' expected actual : UInt64} :
    verifyTicks playerCount left tick out r w finalHash = some (.diverged at' expected actual) ↔
      ∃ front t, FirstMismatch playerCount w r.rest front t actual ∧ front.length < left ∧
        at' = tick + UInt64.ofNat front.length ∧ expected = t.expectedHash := by
  have hp : playerCount.toNat ≤ simMaxPlayers := Nat.le_of_not_lt fun h => hplayers (Or.inr h)
  induction left generalizing tick finalHash out r w with
  | zero =>
    refine iff_of_false nofun ?_
    rintro ⟨front, t, -, hlt, -⟩
    cases hlt
  | succ left ih =>
    have htick : ∀ n, tick + UInt64.ofNat (n + 1) = tick + 1 + UInt64.ofNat n := by
      intro n
      rw [UInt64.ofNat_add, UInt64.add_comm (UInt64.ofNat n), ← UInt64.add_assoc]
      rfl
    constructor
    · intro h
      rcases verifyTicks_cases hplayers hout hr hw with
        ⟨status, _, -, hstop⟩ | ⟨t, v, valid, hrest, hv⟩
      · rw [hstop] at h
        cases h
      · obtain ⟨hready, hskip⟩ := hr.skip_append hrest
        obtain ⟨out', hout', hstep⟩ := verifyTicks_read hplayers hout hr valid hrest hv
        rw [hstep] at h
        split at h
        · next hhash =>
          cases h
          exact ⟨[], t, (firstMismatch_nil hv).mpr ⟨valid, ⟨_, hrest.symm⟩, rfl, hhash⟩,
            Nat.succ_pos left, (UInt64.add_zero _).symm, rfl⟩
        · next hhash =>
          obtain ⟨v', hv', hvw⟩ := hw.tick hp valid
          rw [hv] at hv'
          cases hv'
          obtain ⟨front, s, hmis, hlt, hat, hexp⟩ := (ih hout' hready hvw).mp h
          refine ⟨t :: front, s, ?_, Nat.succ_lt_succ hlt, ?_, hexp⟩
          · rw [hrest]
            exact (firstMismatch_cons hv).mpr ⟨valid, not_not.mp hhash, hmis⟩
          · rw [hat, List.length_cons, htick]
    · rintro ⟨front, t, hmis, hlt, rfl, rfl⟩
      cases front with
      | nil =>
        obtain ⟨v, hv, -⟩ := hw.tick hp (hmis.valid t (by simp))
        obtain ⟨valid, ⟨more, hrest⟩, rfl, wrong⟩ := (firstMismatch_nil hv).mp hmis
        obtain ⟨out', -, hstep⟩ := verifyTicks_read hplayers hout hr valid hrest.symm hv
        rw [hstep, if_pos wrong]
        exact congrArg (fun n => some (VerifyLoop.diverged n _ _)) (UInt64.add_zero tick).symm
      | cons s front =>
        obtain ⟨v, hv, hvw⟩ := hw.tick hp (hmis.valid s (by simp))
        obtain ⟨more, hmore⟩ := hmis.body
        rw [List.cons_append, List.flatMap_cons, List.append_assoc] at hmore
        rw [← hmore] at hmis
        obtain ⟨valid, hhash, hmis⟩ := (firstMismatch_cons hv).mp hmis
        obtain ⟨hready, hskip⟩ := hr.skip_append hmore.symm
        obtain ⟨out', hout', hstep⟩ := verifyTicks_read hplayers hout hr valid hmore.symm hv
        rw [hstep, if_neg (not_not.mpr hhash)]
        rw [← hskip] at hmis
        exact (ih hout' hready hvw).mpr ⟨front, t, hmis, Nat.lt_of_succ_lt_succ hlt, htick _, rfl⟩

end

section

variable {p : Platform} {path : String} {bytes : List UInt8}
  (loaded : loadReplay p path = .ok bytes)

include loaded

theorem commandVerify_header (hworld : p.Reserves worldBytes) {h : ReplayHeader} (valid : h.Valid)
    {body : List UInt8}
    (hbytes : bytes = h.encode ++ body)
    (hcount : h.tickCount.toNat ≤ body.length / replayTickBaseEncodedSize) :
    ∃ r w, r.Ready ∧ r.rest = body ∧ InitialWorld h.seed w ∧ commandVerify p path =
      (verifyTicks h.playerCount h.tickCount.toNat 0 .zeroed r w (simHashState w)).map
        (·.finish h.tickCount) := by
  have hready := byteReaderOf_ready bytes
  have hrest : (byteReaderOf bytes).rest = h.encode ++ body :=
    (byteReaderOf_rest bytes).trans hbytes
  obtain ⟨hready', hskip⟩ := hready.skip_append hrest
  rw [h.encode_length] at hready' hskip
  have hheader := (replayReadHeader_ok_iff hready .zeroed).mpr
    ⟨valid, hrest.trans (congrArg _ hskip.symm), hskip.symm ▸ hcount, rfl⟩
  obtain ⟨w, hw, initial⟩ := initCliWorld_ok hworld h.seed
  refine ⟨_, w, hready', hskip, initial, ?_⟩
  simp only [commandVerify, loaded, hheader, hw]

theorem commandVerify_rejected (reject : ∀ h body, ReplayHeader.Valid h →
      bytes = h.encode ++ body → body.length / replayTickBaseEncodedSize < h.tickCount.toNat) :
    ∃ status, commandVerify p path = some (.invalid status) := by
  cases hheader : replayReadHeader (byteReaderOf bytes) .zeroed with
  | mk status result =>
    obtain ⟨h, r⟩ := result
    by_cases hstatus : status = .ok
    · subst hstatus
      obtain ⟨valid, hrest, hcount, -⟩ :=
        (replayReadHeader_ok_iff (byteReaderOf_ready bytes) _).mp hheader
      have hlt := reject h r.rest valid ((byteReaderOf_rest bytes).symm.trans hrest)
      exact absurd hcount (Nat.not_le_of_lt hlt)
    · refine ⟨status, ?_⟩
      simp only [commandVerify, loaded, hheader]

end

theorem finish_verified_iff {n tickCount hash : UInt64} {l : VerifyLoop} :
    l.finish n = .verified tickCount hash ↔
      tickCount = n ∧ ∃ r, l = .stopped .ok r hash ∧ replayRequireEnd r = .ok := by
  cases l with
  | diverged tick expected actual => simp [VerifyLoop.finish]
  | stopped status r finalHash =>
    by_cases hstatus : status = .ok
    · subst hstatus
      by_cases hend : replayRequireEnd r = .ok
      · simp [VerifyLoop.finish, hend, eq_comm]
      · simp [VerifyLoop.finish, hend]
    · simp [VerifyLoop.finish, hstatus]

theorem finish_diverged_iff {n tick expected actual : UInt64} {l : VerifyLoop} :
    l.finish n = .diverged tick expected actual ↔ l = .diverged tick expected actual := by
  cases l with
  | diverged tick expected actual => simp [VerifyLoop.finish]
  | stopped status r finalHash =>
    by_cases hstatus : status = .ok
    · by_cases hend : replayRequireEnd r = .ok <;> simp [VerifyLoop.finish, hstatus, hend]
    · simp [VerifyLoop.finish, hstatus]

theorem finish_loaded {n : UInt64} {exit : CliExit} (l : VerifyLoop) :
    l.finish n ≠ .notLoaded exit := by
  cases l with
  | diverged tick expected actual => simp [VerifyLoop.finish]
  | stopped status r finalHash =>
    by_cases hstatus : status = .ok
    · by_cases hend : replayRequireEnd r = .ok <;> simp [VerifyLoop.finish, hstatus, hend]
    · simp [VerifyLoop.finish, hstatus]

theorem exit_success_iff {out : VerifyOutcome} (h : ∀ exit, out ≠ .notLoaded exit) :
    out.exit = .success ↔ ∃ tickCount hash, out = .verified tickCount hash := by
  cases out with
  | notLoaded exit => exact absurd rfl (h exit)
  | _ => simp [VerifyOutcome.exit]

section

variable {p : Platform} {path : String} {bytes : List UInt8}
  (loaded : loadReplay p path = .ok bytes) (hworld : p.Reserves worldBytes)

include loaded hworld

theorem commandVerify_verified_iff {tickCount : UInt64} :
    (∃ hash, commandVerify p path = some (.verified tickCount hash)) ↔
      ∃ h ticks w, IsReplay h ticks ∧ bytes = encodeReplay h ticks ∧ InitialWorld h.seed w ∧
        HashesTrue w ticks ∧ h.tickCount = tickCount := by
  constructor
  · rintro ⟨hash, hverify⟩
    by_cases reject : ∀ h body, ReplayHeader.Valid h → bytes = h.encode ++ body →
        body.length / replayTickBaseEncodedSize < h.tickCount.toNat
    · obtain ⟨status, hstatus⟩ := commandVerify_rejected loaded reject
      rw [hverify] at hstatus
      cases hstatus
    · push Not at reject
      obtain ⟨h, body, valid, hbytes, hcount⟩ := reject
      obtain ⟨r, w, hr, rfl, initial, heq⟩ := commandVerify_header loaded hworld valid hbytes hcount
      rw [hverify] at heq
      obtain ⟨l, hl, hfinish⟩ := Option.map_eq_some_iff.mp heq.symm
      obtain ⟨rfl, u, rfl, hend⟩ := finish_verified_iff.mp hfinish
      obtain ⟨ticks, hlen, hall, hrest, hu, htrue⟩ :=
        (verifyTicks_ok_iff valid.players _ _ _ _ rfl hr initial.replayWorld).mp ⟨hash, hl⟩
      obtain ⟨hready, -⟩ := hr.skip_append hrest
      rw [← hu] at hready
      rw [(replayRequireEnd_ok_iff hready).mp hend, List.append_nil] at hrest
      exact ⟨h, ticks, w, ⟨valid, hlen, hall⟩, by rw [hbytes, hrest, encodeReplay], initial, htrue,
        rfl⟩
  · rintro ⟨h, ticks, w, replay, hbytes, initial, htrue, rfl⟩
    have hcount := replay.count_le []
    rw [List.append_nil] at hcount
    obtain ⟨r, w', hr, hrest, initial', heq⟩ :=
      commandVerify_header loaded hworld replay.header hbytes hcount
    obtain rfl := initial'.unique initial
    have hlast := hrest.trans (List.append_nil _).symm
    obtain ⟨hready, hend⟩ := hr.skip_append hlast
    obtain ⟨hash, hverify⟩ := (verifyTicks_ok_iff replay.header.players _ 0 (simHashState w') .zeroed
      rfl hr initial'.replayWorld).mpr
        ⟨ticks, replay.count, replay.ticks, hlast.trans (congrArg _ hend.symm), rfl, htrue⟩
    refine ⟨hash, ?_⟩
    rw [heq, hverify, Option.map_some]
    exact congrArg some (finish_verified_iff.mpr ⟨rfl, _, rfl, (replayRequireEnd_ok_iff hready).mpr hend⟩)

theorem commandVerify_diverged_iff {tick expected actual : UInt64} :
    commandVerify p path = some (.diverged tick expected actual) ↔
      ∃ h body w front t, ReplayHeader.Valid h ∧ bytes = h.encode ++ body ∧
        h.tickCount.toNat ≤ body.length / replayTickBaseEncodedSize ∧ InitialWorld h.seed w ∧
        FirstMismatch h.playerCount w body front t actual ∧ front.length < h.tickCount.toNat ∧
        tick.toNat = front.length ∧ expected = t.expectedHash := by
  constructor
  · intro hverify
    by_cases reject : ∀ h body, ReplayHeader.Valid h → bytes = h.encode ++ body →
        body.length / replayTickBaseEncodedSize < h.tickCount.toNat
    · obtain ⟨status, hstatus⟩ := commandVerify_rejected loaded reject
      rw [hverify] at hstatus
      cases hstatus
    · push Not at reject
      obtain ⟨h, body, valid, hbytes, hcount⟩ := reject
      obtain ⟨r, w, hr, rfl, initial, heq⟩ := commandVerify_header loaded hworld valid hbytes hcount
      rw [hverify] at heq
      obtain ⟨l, hl, hfinish⟩ := Option.map_eq_some_iff.mp heq.symm
      rw [finish_diverged_iff.mp hfinish,
        verifyTicks_diverged_iff valid.players rfl hr initial.replayWorld] at hl
      obtain ⟨front, t, hmis, hlt, htick, hexpected⟩ := hl
      have hsmall : front.length < 2 ^ 64 := Nat.lt_trans hlt h.tickCount.toNat_lt
      refine ⟨h, r.rest, w, front, t, valid, hbytes, hcount, initial, hmis, hlt, ?_, hexpected⟩
      rw [htick, UInt64.zero_add, UInt64.toNat_ofNat', Nat.mod_eq_of_lt hsmall]
  · rintro ⟨h, body, w, front, t, valid, hbytes, hcount, initial, hmis, hlt, htick, hexpected⟩
    obtain ⟨r, w', hr, rfl, initial', heq⟩ := commandVerify_header loaded hworld valid hbytes hcount
    obtain rfl := initial'.unique initial
    rw [heq, (verifyTicks_diverged_iff valid.players rfl hr initial'.replayWorld).mpr
      ⟨front, t, hmis, hlt, ?_, hexpected⟩]
    · rfl
    · rw [UInt64.zero_add, ← htick, UInt64.ofNat_toNat]

end

theorem decoded_accepted {h : ReplayHeader} (valid : h.Valid) {w : SimWorld} (hw : ReplayWorld w)
    {reader after : ByteReader} (hr : reader.Ready) {out out' : ReplayTickOut}
    (hout : out.commands.isSome = true)
    (hread : replayReadTick reader h.playerCount simMaxCommandsPerTick out = (.ok, out', after)) :
    ∃ v, simTick w (some out'.buffer) = some (true, v) := by
  obtain ⟨t, hvalid, rfl, -⟩ := (replayReadTick_ok_iff hr valid.players hout).mp hread
  obtain ⟨v, hv, -⟩ := hw.tick (Nat.le_of_not_lt fun h => valid.players (Or.inr h)) hvalid
  rw [filled_buffer hout]
  exact ⟨v, hv⟩

structure Platform.Holds (p : Platform) (path : String) (bytes : List UInt8) : Prop where
  size : p.fileSize path = some bytes.length
  reserves : p.Reserves (bytes.length + memDefaultAlign)
  read : ∀ arena : Arena, arena.Backed → arena.offset = 0 →
    bytes.length + memDefaultAlign ≤ arena.reserved → p.fileRead path arena = some bytes

theorem loadReplay_ok {p : Platform} {path : String} {bytes : List UInt8} (h : p.Holds path bytes)
    (hpos : 0 < bytes.length) (hmax : bytes.length ≤ maxReplayFileBytes) :
    loadReplay p path = .ok bytes := by
  obtain ⟨arena, hreserve, backed, hoffset, hsize⟩ := h.reserves
  have halign : bytes.length ≤ sizeMax - memDefaultAlign := Nat.le_trans hmax (by decide)
  simp only [loadReplay, h.size, if_neg (Nat.not_lt_of_le hmax), if_pos hpos, if_pos halign,
    hreserve, h.read arena backed hoffset hsize]

theorem headerMake_valid {seed tickCount : UInt64} {playerCount : UInt32}
    (hplayers : ¬ (playerCount = 0 ∨ simMaxPlayers < playerCount.toNat))
    (hticks : tickCount ≤ replayMaxTicks) : (replayHeaderMake seed playerCount tickCount).Valid :=
  (ReplayHeader.valid_iff _).mpr ⟨rfl, rfl, rfl, hplayers, UInt64.le_iff_toNat_le.mp hticks⟩

theorem commandRecord_ok {p : Platform} {outPath : String} (seed : UInt64)
    {tickCount playersValue : UInt64} (hpath : outPath ≠ "") (hticks : tickCount ≤ replayMaxTicks)
    (hpositive : playersValue ≠ 0)
    (hplayers : playersValue.toNat ≤ simMaxPlayers) {capacity : Nat}
    (hcapacity : recordCapacity tickCount = some capacity) (hbuffer : p.Reserves capacity)
    (hworld : p.Reserves worldBytes) (hwrite : ∀ bytes, p.fileWrite outPath bytes = true) :
    ∃ ticks w u,
      let h := replayHeaderMake seed playersValue.toUInt32 tickCount
      commandRecord p outPath tickCount seed playersValue = some (.recorded tickCount
          playersValue.toUInt32 (encodeReplay h ticks) (simHashState u)) ∧
        (encodeReplay h ticks).length ≤ capacity ∧ IsReplay h ticks ∧ InitialWorld seed w ∧
        PlaceholderRun seed playersValue.toUInt32 0 w ticks u := by
  have hticksNat : tickCount.toNat ≤ replayMaxTicks.toNat := UInt64.le_iff_toNat_le.mp hticks
  have hsize := recordCapacity_eq hticksNat
  rw [hcapacity, Option.some.injEq] at hsize
  have hmax := recordCapacity_le hticks hcapacity
  have hpos : 0 < capacity := by
    rw [hsize]
    exact Nat.add_pos_left (by decide) _
  have hcount : playersValue.toUInt32.toNat = playersValue.toNat := by
    rw [UInt64.toNat_toUInt32]
    unfold simMaxPlayers at hplayers
    omega
  have hpc : ¬ (playersValue.toUInt32 = 0 ∨ simMaxPlayers < playersValue.toUInt32.toNat) := by
    rw [← UInt32.toNat_inj, hcount, not_or]
    exact ⟨fun h => hpositive (UInt64.toNat_inj.mp h), Nat.not_lt_of_le hplayers⟩
  have hguard : ¬ (outPath = "" ∨ replayMaxTicks < tickCount ∨ playersValue = 0 ∨
      simMaxPlayers < playersValue.toNat) := by
    simp only [not_or]
    exact ⟨hpath, UInt64.not_lt.mpr hticks, hpositive, Nat.not_lt_of_le hplayers⟩
  obtain ⟨arena, hreserve, backed, hoffset, hroom⟩ := hbuffer
  obtain ⟨pushed, address, hpush, -⟩ := arenaPush_ok backed.wf backed.commits capacity (k := 0)
    (by rw [hoffset]; simpa using hroom)
  have hready : (byteWriterInit (some fun _ => 0) capacity).Ready := ⟨rfl, Nat.zero_le _⟩
  have hfull : (byteWriterInit (some fun _ => 0) capacity).room = capacity := rfl
  have hvalid : (replayHeaderMake seed playersValue.toUInt32 tickCount).Valid :=
    headerMake_valid hpc hticks
  obtain ⟨writer, hheader, hready', hbytes, hleft⟩ := replayWriteHeader_ok hready hvalid
    (by rw [hfull, hsize]; exact Nat.le_add_right _ _)
  obtain ⟨w, hw, initial⟩ := initCliWorld_ok hworld seed
  obtain ⟨ticks, u, hrun, hlen⟩ : ∃ ticks u,
      PlaceholderRun seed playersValue.toUInt32 0 w ticks u ∧ ticks.length = tickCount.toNat :=
    placeholderRun_exists hpc _ 0 initial.replayWorld
  have hall := hrun.valid hpc
  have hfits := flatMap_encode_le fun t ht => (hall t ht).2
  obtain ⟨v, hloop, hbytes'⟩ := hrun.recordTicks hpc hready' (by rw [hleft, hfull, hsize]; omega)
  rw [hlen] at hloop hfits
  have hwritten : v.bytes =
      encodeReplay (replayHeaderMake seed playersValue.toUInt32 tickCount) ticks := by
    have hempty : (byteWriterInit (some fun _ => 0) capacity).bytes = [] := rfl
    rw [hbytes', hbytes, hempty, List.nil_append, encodeReplay]
  refine ⟨ticks, w, u, ?_, ?_, ⟨hvalid, hlen, fun t ht => (hall t ht).1⟩, initial, hrun⟩
  · rw [Nat.pow_zero] at hpush
    simp only [commandRecord, if_neg hguard, hcapacity, if_neg (Nat.not_lt_of_le hmax), if_pos hpos,
      hreserve, hpush, hheader, hw, hloop, hwrite, hwritten]
    simp
  · rw [encodeReplay, List.length_append, ReplayHeader.encode_length, hsize]
    omega

def Platform.holding (bytes : List UInt8) : Platform where
  arenaReserve size := arenaInit 4096 size size none 0
  fileSize _ := some bytes.length
  fileRead _ _ := some bytes
  fileWrite _ _ := true

theorem Platform.holding_reserves (bytes : List UInt8) {size : Nat} (h : size ≤ 2 ^ 63) :
    (Platform.holding bytes).Reserves size := by
  obtain ⟨arena, harena, hwf, hoffset, hreserved, hcommitted, -⟩ := arenaInit_ok 4096 size size
    (by decide) (Nat.le_refl _) (Nat.le_trans h (by decide)) none 0
  exact ⟨arena, harena, ⟨hwf, Or.inl (hcommitted.trans hreserved.symm)⟩, hoffset, hreserved.ge⟩

theorem Platform.holding_holds (path : String) {bytes : List UInt8}
    (h : bytes.length ≤ maxReplayFileBytes) : (Platform.holding bytes).Holds path bytes where
  size := rfl
  reserves := by
    refine holding_reserves bytes ?_
    unfold maxReplayFileBytes at h
    unfold memDefaultAlign
    omega
  read _ _ _ _ := rfl

theorem worldBytes_le : worldBytes ≤ 2 ^ 63 := by decide

theorem commandVerify_exact {p : Platform} {path : String} {bytes : List UInt8}
    (loaded : loadReplay p path = .ok bytes) (hworld : p.Reserves worldBytes) :
    ((∃ out, commandVerify p path = some out ∧ out.exit = .success) ↔
        ∃ h ticks w, IsReplay h ticks ∧ bytes = encodeReplay h ticks ∧ InitialWorld h.seed w ∧
          HashesTrue w ticks) ∧
      (∀ tick expected actual, commandVerify p path = some (.diverged tick expected actual) ↔
        ∃ h body w front t, ReplayHeader.Valid h ∧ bytes = h.encode ++ body ∧
          h.tickCount.toNat ≤ body.length / replayTickBaseEncodedSize ∧ InitialWorld h.seed w ∧
          FirstMismatch h.playerCount w body front t actual ∧ front.length < h.tickCount.toNat ∧
          tick.toNat = front.length ∧ expected = t.expectedHash) ∧
      (∀ h w front u, ReplayHeader.Valid h → InitialWorld h.seed w →
        (∀ t ∈ front, ReplayTick.Valid h.playerCount t) → replayRun w front = some u →
          ∀ reader out out' after, ByteReader.Ready reader → out.commands.isSome = true →
            replayReadTick reader h.playerCount simMaxCommandsPerTick out = (.ok, out', after) →
              ∃ v, simTick u (some out'.buffer) = some (true, v)) := by
  refine ⟨?_, fun tick expected actual => commandVerify_diverged_iff loaded hworld, ?_⟩
  · have hloaded : ∀ out, commandVerify p path = some out → ∀ exit, out ≠ .notLoaded exit := by
      rintro out hout exit rfl
      simp only [commandVerify, loaded] at hout
      split at hout
      · split at hout
        · cases hout
        · cases hout
        · obtain ⟨l, -, hl⟩ := Option.map_eq_some_iff.mp hout
          exact finish_loaded l hl
      · cases hout
    constructor
    · rintro ⟨out, hout, hexit⟩
      obtain ⟨tickCount, hash, rfl⟩ := (exit_success_iff (hloaded out hout)).mp hexit
      obtain ⟨h, ticks, w, replay, hbytes, initial, htrue, -⟩ :=
        (commandVerify_verified_iff loaded hworld).mp ⟨hash, hout⟩
      exact ⟨h, ticks, w, replay, hbytes, initial, htrue⟩
    · rintro ⟨h, ticks, w, replay, hbytes, initial, htrue⟩
      obtain ⟨hash, hverify⟩ := (commandVerify_verified_iff loaded hworld).mpr
        ⟨h, ticks, w, replay, hbytes, initial, htrue, rfl⟩
      exact ⟨_, hverify, rfl⟩
  · intro h w front u valid initial hall hrun reader out out' after hr hout hread
    obtain ⟨v, hv, hvw⟩ := initial.replayWorld.run
      (Nat.le_of_not_lt fun hlt => valid.players (Or.inr hlt)) hall
    rw [hrun] at hv
    cases hv
    exact decoded_accepted valid hvw hr hout hread

theorem commandVerify_exact_recorded : ∃ bytes, 44 < bytes.length ∧
    loadReplay (.holding bytes) "match.mbr" = .ok bytes ∧
      ∃ out, commandVerify (.holding bytes) "match.mbr" = some out ∧ out.exit = .success := by
  obtain ⟨ticks, w, u, -, hfits, replay, initial, hrun⟩ := commandRecord_ok (p := .holding [])
    1 (show "match.mbr" ≠ "" by decide) (show 3 ≤ replayMaxTicks by decide)
    (show (2 : UInt64) ≠ 0 by decide) (by decide) (show recordCapacity 3 = some 176 by decide)
    (Platform.holding_reserves [] (by decide)) (Platform.holding_reserves [] worldBytes_le) fun _ => rfl
  have hmax := Nat.le_trans hfits (show 176 ≤ maxReplayFileBytes by decide)
  have hcount : ticks.length = 3 := replay.count
  have hmore := flatMap_encode_length ticks
  have hlong : 44 < (encodeReplay (replayHeaderMake 1 2 3) ticks).length := by
    rw [encodeReplay, List.length_append, ReplayHeader.encode_length]
    rw [hcount] at hmore
    unfold replayHeaderEncodedSize
    unfold replayTickBaseEncodedSize at hmore
    omega
  have loaded := loadReplay_ok (Platform.holding_holds "match.mbr" hmax)
    (Nat.zero_lt_of_lt hlong) hmax
  exact ⟨_, hlong, loaded, (commandVerify_exact loaded
    (Platform.holding_reserves _ worldBytes_le)).1.mpr ⟨_, ticks, w, replay, rfl, initial, hrun.hashesTrue⟩⟩

theorem commandRecord_verifies {p : Platform} {outPath : String} (seed : UInt64)
    {tickCount playersValue : UInt64} (hpath : outPath ≠ "")
    (hticks : tickCount ≤ replayMaxTicks) (hpositive : playersValue ≠ 0)
    (hplayers : playersValue.toNat ≤ simMaxPlayers)
    (hbuffer : p.Reserves (replayHeaderEncodedSize + tickCount.toNat * 44))
    (hworld : p.Reserves worldBytes) (hwrite : ∀ bytes, p.fileWrite outPath bytes = true) :
    (∀ tick playerCount, (replayGeneratePlaceholderCommands seed tick playerCount).length ≤
        replayPlaceholderMaxCommands) ∧
      ∃ capacity ticks w u, recordCapacity tickCount = some capacity ∧
        let h := replayHeaderMake seed playersValue.toUInt32 tickCount
        let bytes := encodeReplay h ticks
        commandRecord p outPath tickCount seed playersValue =
            some (.recorded tickCount playersValue.toUInt32 bytes (simHashState u)) ∧
          bytes.length ≤ capacity ∧ IsReplay h ticks ∧ InitialWorld seed w ∧
          PlaceholderRun seed playersValue.toUInt32 0 w ticks u ∧
          ∀ (q : Platform) path, q.Holds path bytes → q.Reserves worldBytes →
            ∃ hash, commandVerify q path = some (.verified tickCount hash) := by
  refine ⟨fun tick playerCount => replayGeneratePlaceholderCommands_length seed tick playerCount, ?_⟩
  have hcapacity := recordCapacity_eq (UInt64.le_iff_toNat_le.mp hticks)
  obtain ⟨ticks, w, u, hrecord, hfits, replay, initial, hrun⟩ := commandRecord_ok seed
    hpath hticks hpositive hplayers hcapacity hbuffer hworld hwrite
  refine ⟨_, ticks, w, u, hcapacity, hrecord, hfits, replay, initial, hrun,
    fun q path holds hreserves => ?_⟩
  have hpos : 0 < (encodeReplay (replayHeaderMake seed playersValue.toUInt32 tickCount)
      ticks).length := by
    rw [encodeReplay_length, replaySize]
    exact Nat.add_pos_left (by decide) _
  have loaded := loadReplay_ok holds hpos (Nat.le_trans hfits (recordCapacity_le hticks hcapacity))
  exact (commandVerify_verified_iff loaded hreserves).mpr
    ⟨_, ticks, w, replay, rfl, initial, hrun.hashesTrue, rfl⟩

theorem commandRecord_verifies_three : ∃ ticks u,
    let bytes := encodeReplay (replayHeaderMake 1 2 3) ticks
    commandRecord (.holding []) "match.mbr" 3 1 2 = some (.recorded 3 2 bytes (simHashState u)) ∧
      ticks.length = 3 ∧ bytes.length ≤ 176 ∧
      ∃ hash, commandVerify (.holding bytes) "match.mbr" = some (.verified 3 hash) := by
  obtain ⟨capacity, ticks, w, u, hcapacity, hrecord, hfits, replay, -, -, hverify⟩ :=
    (commandRecord_verifies (p := .holding []) 1 (show "match.mbr" ≠ "" by decide)
      (show 3 ≤ replayMaxTicks by decide) (show (2 : UInt64) ≠ 0 by decide) (by decide)
      (Platform.holding_reserves [] (by decide)) (Platform.holding_reserves [] worldBytes_le)
      fun _ => rfl).2
  obtain rfl : 176 = capacity := Option.some.inj hcapacity
  exact ⟨ticks, u, hrecord, replay.count, hfits, hverify _ _
    (Platform.holding_holds "match.mbr" (Nat.le_trans hfits (by decide)))
    (Platform.holding_reserves _ worldBytes_le)⟩

end ChoonzMoba
