import ChoonzMoba.Game.Present
import ChoonzMoba.Sim.InitSpec

open Records

namespace ChoonzMoba

/-- What a renderer may know of a tick. -/
structure Extraction where
  tick : UInt64
  liveCount : Nat
  units : Nat → RenderSnapshotUnit

namespace World

def shownUnit (w : World) (slot : Nat) : RenderSnapshotUnit :=
  if w.units slot = .null then .empty
  else
    match w.transforms (w.units slot) with
    | none => .empty
    | some transform =>
      ⟨w.units slot, transform.positionX, transform.positionY, transform.facing⟩

def liveUnits (w : World) (n : Nat) : Nat :=
  (List.range n).countP fun slot => decide (w.units slot ≠ .null)

def extraction (w : World) : Extraction where
  tick := w.tick
  liveCount := w.liveUnits simMaxUnits
  units := w.shownUnit

theorem liveUnits_le (w : World) (n : Nat) : w.liveUnits n ≤ n :=
  Nat.le_trans List.countP_le_length (Nat.le_of_eq List.length_range)

theorem liveUnits_succ (w : World) (n : Nat) :
    w.liveUnits (n + 1) = w.liveUnits n + if w.units n = .null then 0 else 1 := by
  rw [liveUnits, List.range_succ, List.countP_append, ← liveUnits, List.countP_singleton]
  by_cases h : w.units n = .null
  · simp [h]
  · simp [h]

end World

namespace SimWorld

variable {w : SimWorld} {scan : SnapshotScan} {n i : Nat}

def Extractable (w : SimWorld) (slot : Nat) : Prop :=
  w.unitEntities slot ≠ .null → entityManagerIsAlive w.entities (w.unitEntities slot) = true ∧
    ∃ view, transformPoolGetConst w.transforms (w.unitEntities slot) = some view

def UnitMissing (w : SimWorld) (slot : Nat) : Prop :=
  w.unitEntities slot ≠ .null ∧
    (entityManagerIsAlive w.entities (w.unitEntities slot) = false ∨
      transformPoolHas w.transforms (w.unitEntities slot) = false)

structure Scanned (w : SimWorld) (n : Nat) (scan : SnapshotScan) : Prop where
  entities : ∀ i < n, scan.entities i = w.unitEntities i
  transforms : ∀ i < n, w.unitEntities i ≠ .null →
    scan.transforms i = transformPoolGetConst w.transforms (w.unitEntities i)
  liveCount : scan.liveCount = w.abstract.liveUnits n

theorem Scanned.start (w : SimWorld) : w.Scanned 0 .start :=
  ⟨fun i hi => absurd hi (Nat.not_lt_zero i), fun i hi => absurd hi (Nat.not_lt_zero i), rfl⟩

theorem Scanned.slot (h : w.Scanned n scan) (hn : w.Extractable n) :
    ∃ next, snapshotScanSlot w scan n = some next ∧ w.Scanned (n + 1) next := by
  have hentities : ∀ i < n + 1, Function.update scan.entities n (w.unitEntities n) i =
      w.unitEntities i := by
    intro i hi
    rcases Nat.lt_succ_iff_lt_or_eq.mp hi with hlt | rfl
    · rw [Function.update_of_ne (Nat.ne_of_lt hlt), h.entities i hlt]
    · rw [Function.update_self]
  have hcount := w.abstract.liveUnits_succ n
  unfold snapshotScanSlot
  by_cases hnull : w.unitEntities n = .null
  · rw [if_pos (show w.abstract.units n = .null from hnull), Nat.add_zero] at hcount
    refine ⟨_, if_pos ((EntityId.h_eq_null _).mpr hnull), hentities, fun i hi hne => ?_, ?_⟩
    · rcases Nat.lt_succ_iff_lt_or_eq.mp hi with hlt | rfl
      · exact h.transforms i hlt hne
      · exact absurd hnull hne
    · rw [hcount]
      exact h.liveCount
  · obtain ⟨halive, view, hview⟩ := hn hnull
    rw [if_neg (show w.abstract.units n ≠ .null from hnull)] at hcount
    dsimp only
    rw [if_neg fun hc => hnull ((EntityId.h_eq_null _).mp hc), halive, hview]
    refine ⟨_, rfl, hentities, fun i hi hne => ?_, ?_⟩
    · dsimp only
      rcases Nat.lt_succ_iff_lt_or_eq.mp hi with hlt | rfl
      · rw [Function.update_of_ne (Nat.ne_of_lt hlt), h.transforms i hlt hne]
      · rw [Function.update_self, hview]
    · rw [hcount, ← h.liveCount]

theorem scan_ok (h : ∀ i < n, w.Extractable i) :
    ∃ scan, Loop.forRangeM n (snapshotScanSlot w) .start = some scan ∧ w.Scanned n scan :=
  Loop.forRangeM_total (fun i scan => w.Scanned i scan) (.start w) fun i _ hi hs => hs.slot (h i hi)

theorem UnitMissing.slot (h : w.UnitMissing i) (scan : SnapshotScan) :
    snapshotScanSlot w scan i = none := by
  obtain ⟨hne, hmissing⟩ := h
  unfold snapshotScanSlot
  dsimp only
  rw [if_neg fun hc => hne ((EntityId.h_eq_null _).mp hc)]
  rcases hmissing with halive | hhas
  · rw [halive]
    rfl
  · rw [transformPoolGetConst, TypedPool.get_none hhas]
    exact ite_self _

theorem UnitMissing.scan_none (h : w.UnitMissing i) (hi : i < n) :
    Loop.forRangeM n (snapshotScanSlot w) .start = none := by
  induction n with
  | zero => exact absurd hi (Nat.not_lt_zero i)
  | succ n ih =>
    rw [Loop.forRangeM_succ]
    rcases Nat.lt_succ_iff_lt_or_eq.mp hi with hlt | rfl
    · rw [ih hlt, Option.bind_none]
    · exact Option.bind_eq_none_iff.mpr fun scan _ => h.slot scan

theorem UnitMissing.extract (h : w.UnitMissing i) (hi : i < simMaxUnits) (out : RenderSnapshot)
    (memory : Nat → UInt8) : snapshotExtract w out memory = some (false, out, memory) := by
  unfold snapshotExtract
  rw [h.scan_none hi]
  exact ite_self _

theorem LegalInv.view (inv : w.LegalInv) (slot : Nat) (hne : w.unitEntities slot ≠ .null) :
    ∃ view, transformPoolGetConst w.transforms (w.unitEntities slot) = some view ∧
      w.transforms.lookup (w.unitEntities slot) = some (w.transforms.values view) := by
  have hpool := inv.core.transforms.inv
  obtain ⟨-, -, hsome, -, -⟩ := inv.ready.units slot hne
  have hholds := (TypedPool.lookup_isSome hpool _).mp hsome
  exact ⟨_, TypedPool.get_eq hpool hholds, TypedPool.lookup_of_holds hpool hholds⟩

theorem LegalInv.extractable (inv : w.LegalInv) (slot : Nat) : w.Extractable slot := by
  intro hne
  obtain ⟨-, halive, -⟩ := inv.ready.units slot hne
  obtain ⟨view, hview, -⟩ := inv.view slot hne
  exact ⟨(inv.core.alive_iff _).mpr halive, view, hview⟩

theorem LegalInv.unit (inv : w.LegalInv) (h : w.Scanned n scan) (hi : i < n) :
    snapshotUnit w scan i = some (w.abstract.shownUnit i) := by
  rw [snapshotUnit, World.shownUnit, h.entities i hi]
  by_cases hnull : w.unitEntities i = .null
  · rw [if_pos ((EntityId.h_eq_null _).mpr hnull),
      if_pos (show w.abstract.units i = .null from hnull)]
  · obtain ⟨view, hview, hlookup⟩ := inv.view i hnull
    have htransform : w.abstract.transforms (w.abstract.units i) =
        some (w.transforms.values view) := hlookup
    rw [if_neg fun hc => hnull ((EntityId.h_eq_null _).mp hc),
      if_neg (show w.abstract.units i ≠ .null from hnull), h.transforms i hi hnull, hview,
      htransform]
    rfl

theorem LegalInv.extract (inv : w.LegalInv) {out : RenderSnapshot} (hout : out.units ≠ 0)
    (memory : Nat → UInt8) : snapshotExtract w out memory =
      some (true, ⟨w.tick, w.abstract.extraction.liveCount, out.units⟩,
        unitLayout.fill memory out.units simMaxUnits w.abstract.extraction.units) := by
  obtain ⟨scan, hscan, hscanned⟩ := scan_ok (n := simMaxUnits) fun i _ => inv.extractable i
  have hwrite : Loop.forRangeM simMaxUnits (fun memory slot =>
      (snapshotUnit w scan slot).map (unitLayout.store memory out.units slot)) memory =
      some (unitLayout.fill memory out.units simMaxUnits w.abstract.extraction.units) := by
    refine Loop.forRangeM_eq_some fun memory slot hslot => ?_
    rw [inv.unit hscanned hslot]
    rfl
  rw [snapshotExtract, if_neg hout, hscan]
  dsimp only
  rw [hwrite, hscanned.liveCount]
  rfl

end SimWorld

structure RenderSnapshot.Shows (snapshot : RenderSnapshot) (memory : Nat → UInt8)
    (extraction : Extraction) : Prop where
  tick : snapshot.tick = extraction.tick
  liveCount : snapshot.liveCount = extraction.liveCount
  units : ∀ slot < simMaxUnits,
    unitLayout.load memory snapshot.units slot = extraction.units slot

theorem RenderSnapshot.shows_filled (units : Nat) (memory : Nat → UInt8) (e : Extraction) :
    (RenderSnapshot.mk e.tick e.liveCount units).Shows
      (unitLayout.fill memory units simMaxUnits e.units) e :=
  ⟨rfl, rfl, fun _ hslot => Layout.load_fill memory units e.units hslot⟩

theorem RenderSnapshot.Shows.fill_apart {snapshot : RenderSnapshot} {memory : Nat → UInt8}
    {e : Extraction} (h : snapshot.Shows memory e) {units : Nat} (values : Nat → RenderSnapshotUnit)
    (hapart : unitLayout.Apart units simMaxUnits snapshot.units simMaxUnits) :
    snapshot.Shows (unitLayout.fill memory units simMaxUnits values) e :=
  ⟨h.tick, h.liveCount, fun slot hslot => by
    rw [Layout.load_fill_apart memory values hapart hslot, h.units slot hslot]⟩

structure PresentState.Holds (state : PresentState) (memory : Nat → UInt8)
    (previous current : World) : Prop where
  previous_ne : state.previous.units ≠ 0
  current_ne : state.current.units ≠ 0
  apart : unitLayout.Apart state.previous.units simMaxUnits state.current.units simMaxUnits
  previous : state.previous.Shows memory previous.extraction
  current : state.current.Shows memory current.extraction

namespace PresentState

variable {state first : PresentState} {memory staged : Nat → UInt8} {previous current : World}
  {w : SimWorld} {arena pushed : Arena}

theorem Holds.valid (h : state.Holds memory previous current) : presentStateValid state = true := by
  have hdistinct : state.previous.units ≠ state.current.units := by
    have hsize : 0 < unitLayout.size * simMaxUnits := by decide
    intro hc
    rcases h.apart with hle | hle
    · rw [hc] at hle
      omega
    · rw [hc] at hle
      omega
  have hprevious : state.previous.liveCount ≤ simMaxUnits := by
    rw [h.previous.liveCount]
    exact previous.liveUnits_le simMaxUnits
  have hcurrent : state.current.liveCount ≤ simMaxUnits := by
    rw [h.current.liveCount]
    exact current.liveUnits_le simMaxUnits
  simp only [presentStateValid, Bool.and_eq_true, decide_eq_true_eq]
  exact ⟨⟨⟨⟨h.previous_ne, h.current_ne⟩, hdistinct⟩, hprevious⟩, hcurrent⟩

def rotated (state : PresentState) (w : World) : PresentState :=
  ⟨state.current, ⟨w.tick, w.extraction.liveCount, state.previous.units⟩⟩

theorem Holds.capture (h : state.Holds memory previous current) (inv : w.LegalInv) :
    ∃ memory', presentCapture state memory w = some (true, state.rotated w.abstract, memory') ∧
      (state.rotated w.abstract).Holds memory' current w.abstract := by
  refine ⟨unitLayout.fill memory state.previous.units simMaxUnits w.abstract.extraction.units, ?_,
    h.current_ne, h.previous_ne, Or.symm h.apart, h.current.fill_apart _ h.apart,
    RenderSnapshot.shows_filled _ memory w.abstract.extraction⟩
  rw [presentCapture, h.valid, inv.extract h.previous_ne]
  rfl

theorem capture_rejected {slot : Nat} (h : w.UnitMissing slot) (hslot : slot < simMaxUnits)
    (state : PresentState) (memory : Nat → UInt8) :
    presentCapture state memory w = some (false, state, memory) := by
  rw [presentCapture, h.extract hslot]
  exact ite_self _

end PresentState

structure PresentState.Allocated (state : PresentState) (arena pushed : Arena) : Prop where
  blocks : ∃ between,
    arenaPush arena (unitLayout.size * simMaxUnits) unitAlign =
      some (between, state.previous.units) ∧
    arenaPush between (unitLayout.size * simMaxUnits) unitAlign =
      some (pushed, state.current.units)
  apart : state.previous.units + unitLayout.size * simMaxUnits ≤ state.current.units
  previous_ne : state.previous.units ≠ 0

theorem allocated_of_pushes {arena between pushed : Arena} {state : PresentState}
    (hfirst : arenaPush arena (unitLayout.size * simMaxUnits) unitAlign =
      some (between, state.previous.units))
    (hsecond : arenaPush between (unitLayout.size * simMaxUnits) unitAlign =
      some (pushed, state.current.units)) : state.Allocated arena pushed := by
  obtain ⟨hbase, -, hfrom, hstop, hbacking, -⟩ := arenaPush_spec hfirst
  obtain ⟨-, -, hfrom', -⟩ := arenaPush_spec hsecond
  rw [hbacking.base] at hfrom'
  exact ⟨⟨between, hfirst, hsecond⟩, by omega, by omega⟩

theorem PresentState.copied_holds {previousUnits currentUnits : Nat} (memory : Nat → UInt8)
    (w : World) (hprevious : previousUnits ≠ 0)
    (hle : previousUnits + unitLayout.size * simMaxUnits ≤ currentUnits) :
    (PresentState.mk ⟨w.tick, w.extraction.liveCount, previousUnits⟩
      ⟨w.tick, w.extraction.liveCount, currentUnits⟩).Holds
      (unitLayout.copy (unitLayout.fill memory currentUnits simMaxUnits w.extraction.units)
        previousUnits currentUnits simMaxUnits) w w := by
  have hapart : unitLayout.Apart previousUnits simMaxUnits currentUnits simMaxUnits := Or.inl hle
  have hcurrent := RenderSnapshot.shows_filled currentUnits memory w.extraction
  rw [Layout.copy_eq_fill _ hapart]
  refine ⟨hprevious, ?_, hapart, ⟨rfl, rfl, fun slot hslot => ?_⟩, hcurrent.fill_apart _ hapart⟩
  · dsimp only
    omega
  · rw [Layout.load_fill _ _ _ hslot]
    exact hcurrent.units slot hslot

theorem presentInit_holds {state first : PresentState} {arena pushed : Arena}
    {memory staged : Nat → UInt8} {w : SimWorld} (inv : w.LegalInv)
    (h : presentInit state arena memory w = some (true, first, pushed, staged)) :
    first.Allocated arena pushed ∧ first.Holds staged w.abstract w.abstract := by
  unfold presentInit at h
  split at h
  · cases h
  · dsimp only at h
    obtain ⟨⟨between, previousUnits, zeroed⟩, hfirst, h⟩ := Option.bind_eq_some_iff.mp h
    obtain ⟨⟨last, currentUnits, cleared⟩, hsecond, h⟩ := Option.bind_eq_some_iff.mp h
    have hallocated : PresentState.Allocated
        ⟨⟨w.tick, w.abstract.extraction.liveCount, previousUnits⟩,
          ⟨w.tick, w.abstract.extraction.liveCount, currentUnits⟩⟩ arena last :=
      allocated_of_pushes (arenaPushZero_some hfirst).1 (arenaPushZero_some hsecond).1
    have hprevious := hallocated.previous_ne
    have hle := hallocated.apart
    have hcurrent : (RenderSnapshot.mk 0 0 currentUnits).units ≠ 0 := by
      dsimp only at *
      omega
    rw [inv.extract hcurrent] at h
    cases h
    exact ⟨hallocated, PresentState.copied_holds cleared w.abstract hprevious hle⟩

theorem presentInit_ok (state : PresentState) {arena : Arena} (wf : arena.Wf)
    (hs : arena.CommitSucceeds) (memory : Nat → UInt8) {w : SimWorld} (inv : w.LegalInv)
    (hroom : presentMemoryRequired ≤ arena.reserved - arena.offset) :
    ∃ first pushed staged,
      presentInit state arena memory w = some (true, first, pushed, staged) := by
  have hrequired : presentMemoryRequired =
      2 * ((unitAlign - 1) + unitLayout.size * simMaxUnits) := rfl
  have hpad : 0 < unitLayout.size * simMaxUnits := by decide
  have halign : unitAlign = 2 ^ 2 := rfl
  rw [halign] at hrequired
  obtain ⟨between, previousUnits, zeroed, hfirst, hwf, hcommit, hreserved, hoffset⟩ :=
    arenaPushZero_ok wf hs memory (unitLayout.size * simMaxUnits) (k := 2) (by omega)
  obtain ⟨pushed, currentUnits, cleared, hsecond, -⟩ :=
    arenaPushZero_ok hwf hcommit zeroed (unitLayout.size * simMaxUnits) (k := 2) (by omega)
  have hallocated : PresentState.Allocated ⟨⟨0, 0, previousUnits⟩, ⟨0, 0, currentUnits⟩⟩ arena pushed :=
    allocated_of_pushes (arenaPushZero_some hfirst).1 (arenaPushZero_some hsecond).1
  have hle := hallocated.apart
  have hcurrent : currentUnits ≠ 0 := by
    dsimp only at hle
    omega
  rw [← halign] at hfirst hsecond
  have hbase := wf.base_ne
  have hguard : ¬ (arena.base = 0 ∨ arena.reserved < arena.offset ∨
      arena.reserved - arena.offset < presentMemoryRequired) := by omega
  have hextract := inv.extract (show (RenderSnapshot.mk 0 0 currentUnits).units ≠ 0 from hcurrent)
  rw [presentInit, if_neg hguard]
  dsimp only
  rw [hfirst, Option.bind_some, hsecond, Option.bind_some, hextract]
  exact ⟨_, _, _, rfl⟩

end ChoonzMoba
