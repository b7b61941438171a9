import ChoonzMoba.Assets.RegistryRun

namespace ChoonzMoba

structure AssetWorld.CommitsPages (w : AssetWorld) : Prop where
  level : w.registry.levelArena.CommitsPages
  global : w.registry.globalArena.CommitsPages
  io : w.registry.ioArena.CommitsPages

section

variable {w t u start : AssetWorld}

theorem AssetWorld.Inv.canCommit (inv : w.Inv) (h : w.CommitsPages) : w.CanCommit where
  level := inv.registry.arenas.level.commitSucceeds h.level
  global := inv.registry.arenas.global.commitSucceeds h.global
  io := inv.registry.arenas.io.commitSucceeds h.io

theorem Retires.arenas {p : Nat → Bool} (h : Retires w p t) :
    t.registry.levelArena = w.registry.levelArena ∧
      t.registry.globalArena = w.registry.globalArena ∧
      t.registry.ioArena = w.registry.ioArena ∧
      t.registry.ioBaseOffset = w.registry.ioBaseOffset := by
  have hlevel := congrArg AssetRegistry.levelArena h.frame
  have hglobal := congrArg AssetRegistry.globalArena h.frame
  have hio := congrArg AssetRegistry.ioArena h.frame
  have hbase := congrArg AssetRegistry.ioBaseOffset h.frame
  exact ⟨hlevel, hglobal, hio, hbase⟩

theorem Retires.canCommit {p : Nat → Bool} (h : Retires w p t) (hs : w.CanCommit) :
    t.CanCommit := by
  obtain ⟨hlevel, hglobal, hio, -⟩ := h.arenas
  exact ⟨hlevel ▸ hs.level, hglobal ▸ hs.global, hio ▸ hs.io⟩

theorem Acquired.canCommit {path : List UInt8} {type : AssetType} {lifetime : Nat}
    {Offered : AssetContent → Prop} {h : AssetHandle}
    (hu : Acquired w path type lifetime Offered h u) (hs : w.CanCommit) : u.CanCommit := by
  cases hu with
  | shared _ =>
    rw [AssetWorld.share]
    split
    · exact ⟨hs.level, hs.global, hs.io⟩
    · exact hs
  | issued _ _ hcommits =>
    have hkeeps := hcommits.stores.keeps
    rw [AssetRegistry.lifetimeArena] at hkeeps
    by_cases hlevel : lifetime = assetLifetimeLevel
    · rw [if_pos hlevel] at hkeeps
      refine ⟨?_, ?_, hs.io⟩
      · show Arena.CommitSucceeds (if _ then _ else _)
        rw [if_pos hlevel]
        exact hkeeps.commits hs.level
      · show Arena.CommitSucceeds (if _ then _ else _)
        rw [if_pos hlevel]
        exact hs.global
    · rw [if_neg hlevel] at hkeeps
      refine ⟨?_, ?_, hs.io⟩
      · show Arena.CommitSucceeds (if _ then _ else _)
        rw [if_neg hlevel]
        exact hs.level
      · show Arena.CommitSucceeds (if _ then _ else _)
        rw [if_neg hlevel]
        exact hkeeps.commits hs.global

theorem Answered.canCommit {path : Option CString} {type : AssetType} {lifetime : Nat}
    {Offered : AssetContent → Prop} {r : AssetHandle × AssetWorld}
    (hr : Answered w path type lifetime Offered r) (hs : w.CanCommit) : r.2.CanCommit := by
  cases hr with
  | refused hio => exact ⟨hs.level, hs.global, hio.keeps.commits hs.io⟩
  | acquired _ hu hio =>
    have hcommit := hu.canCommit hs
    exact ⟨hcommit.level, hcommit.global, hio.keeps.commits hs.io⟩

theorem Transition.canCommit {op : RegistryOp} {answer : RegistryAnswer}
    (h : Transition w op answer t) (hs : w.CanCommit) : t.CanCommit := by
  cases h with
  | request hanswered => exact hanswered.canCommit hs
  | release hreleased =>
    cases hreleased with
    | refused _ => exact hs
    | dropped _ _ _ => exact ⟨hs.level, hs.global, hs.io⟩
    | retired _ _ _ hretires => exact hretires.canCommit hs
  | unload _ hretires _ =>
    have hcommit := hretires.canCommit hs
    exact ⟨hcommit.level, hcommit.global, hcommit.io⟩
  | shutdown _ hretires _ _ =>
    have hcommit := hretires.canCommit hs
    exact ⟨hcommit.level, hcommit.global, hcommit.io⟩
  | closed _ _ => exact hs

def AssetWorld.IoEmpty (w : AssetWorld) : Prop :=
  w.registry.ioArena.offset = w.registry.ioBaseOffset

theorem AssetWorld.IoEmpty.rewinds (h : w.IoEmpty) {io : Arena} (hio : w.registry.Rewinds io) :
    io.offset = w.registry.ioBaseOffset :=
  hio.offset.elim (fun hsame => hsame.trans h) id

theorem Transition.ioEmpty {op : RegistryOp} {answer : RegistryAnswer}
    (h : Transition w op answer t) (hempty : w.IoEmpty) : t.IoEmpty := by
  have hretires_empty : ∀ {p : Nat → Bool} {u}, Retires w p u → u.IoEmpty := by
    intro p u hretires
    obtain ⟨-, -, hio, hbase⟩ := hretires.arenas
    rw [AssetWorld.IoEmpty, hio, hbase]
    exact hempty
  cases h with
  | request hanswered =>
    cases hanswered with
    | refused hio => exact hempty.rewinds hio
    | acquired _ hu hio => exact (hempty.rewinds hio).trans hu.setting.ioBaseOffset.symm
  | release hreleased =>
    cases hreleased with
    | refused _ => exact hempty
    | dropped _ _ _ => exact hempty
    | retired _ _ _ hretires => exact hretires_empty hretires
  | unload _ hretires _ =>
    have hbefore := hretires_empty hretires
    exact hbefore
  | shutdown _ _ _ _ => exact rfl
  | closed _ _ => exact hempty

theorem trace_setting (hstart : RegistryInitialized start) {past : List RegistryEvent}
    (htrace : (registrySystem start).Trace past w) :
    w.IoEmpty ∧ (start.CanCommit → w.CanCommit) := by
  induction htrace with
  | start h =>
    subst h
    exact ⟨hstart.fresh.ioBase.symm, id⟩
  | step hpast hnext ih =>
    obtain ⟨rfl, rfl, hstep⟩ := hnext
    have htransition := registryStep_transition (trace_inv hstart hpast) hstep
    exact ⟨htransition.ioEmpty ih.1, fun hs => htransition.canCommit (ih.2 hs)⟩

theorem Acquired.ne_null {path : List UInt8} {type : AssetType} {lifetime : Nat}
    {Offered : AssetContent → Prop} {h : AssetHandle} (inv : w.Inv)
    (hu : Acquired w path type lifetime Offered h u) : handleIsNull h = false := by
  cases hu with
  | shared hregistered => exact slotHandle_ne_null inv.registry hregistered.live
  | issued _ _ hcommits => exact slotHandle_ne_null (hcommits.inv inv).registry committed_live

theorem assetRequest_fails_without_trace (hstart : RegistryInitialized start)
    (hcommits : start.CommitsPages) (past : List RegistryEvent)
    (htrace : (registrySystem start).Trace past w) :
    (∀ request : AssetRequest, ∃ h t, request.run w = some (h, t) ∧
      (handleIsNull h = true → ∃ io, t = w.withIo io ∧ w.registry.ioArena.SameBacking io ∧
        io.offset = w.registry.ioBaseOffset)) ∧
    ∀ op, ∃ answer t, registryStep w op = some (answer, t) := by
  have inv := trace_inv hstart htrace
  obtain ⟨hempty, hkeeps⟩ := trace_setting hstart htrace
  have hs := hkeeps (hstart.inv.canCommit hcommits)
  constructor
  · intro request
    obtain ⟨⟨h, t⟩, hrun, hanswered⟩ := (request.outcome inv).total (not_not.mpr hs)
    refine ⟨h, t, hrun, fun hnull => ?_⟩
    cases hanswered with
    | refused hio => exact ⟨_, rfl, hio.keeps.backing, hempty.rewinds hio⟩
    | acquired _ hu _ =>
      rw [hu.ne_null inv] at hnull
      cases hnull
  · intro op
    obtain ⟨r, hr, -⟩ := (registryStep_outcome inv op).total (not_not.mpr hs)
    exact ⟨r.1, r.2, hr⟩

theorem assetRequest_fails_without_trace_texture :
    ∃ past w, (registrySystem exampleWorld).Trace past w ∧ w.registry.liveCount = 1 ∧
      (∀ request : AssetRequest, ∃ h t, request.run w = some (h, t) ∧
        (handleIsNull h = true → ∃ io, t = w.withIo io ∧ w.registry.ioArena.SameBacking io ∧
          io.offset = w.registry.ioBaseOffset)) ∧
      ∀ op, ∃ answer t, registryStep w op = some (answer, t) := by
  obtain ⟨r, hr, hcount, -⟩ := exampleWorld_texture
  have htrace : (registrySystem exampleWorld).Trace [⟨exampleWorld, exampleTexture, r.1, r.2⟩] r.2 :=
    .step (.start rfl) ⟨rfl, rfl, hr⟩
  have hcommits : exampleWorld.CommitsPages :=
    ⟨Or.inl (by decide +kernel), Or.inl (by decide +kernel), Or.inl (by decide +kernel)⟩
  exact ⟨_, r.2, htrace, hcount,
    assetRequest_fails_without_trace exampleWorld_initialized hcommits _ htrace⟩

end

end ChoonzMoba
