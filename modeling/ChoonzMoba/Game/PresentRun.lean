import ChoonzMoba.Game.PresentSpec
import ChoonzMoba.Sim.Refinement

open Records

namespace ChoonzMoba

inductive PresentEvent where
  | simulated (op : Op) (result : OpResult)
  | captured (world : SimWorld) (accepted : Bool)

structure PresentSession where
  world : SimWorld
  present : PresentState
  memory : Nat → UInt8

def PresentSession.Step (s : PresentSession) : PresentEvent → PresentSession → Prop
  | .simulated op result, t =>
    op.Legal s.world ∧ ∃ world, op.run s.world = some (result, world) ∧ t = { s with world := world }
  | .captured world accepted, t =>
    world = s.world ∧ ∃ present memory,
      presentCapture s.present s.memory s.world = some (accepted, present, memory) ∧
        t = ⟨s.world, present, memory⟩

def presentSystem (first : PresentSession) : System PresentSession PresentEvent where
  initial s := s = first
  next := PresentSession.Step

structure LastTwo where
  previous : SimWorld
  current : SimWorld

/-- The worlds of the last two captures; the initial world stands for those not made yet. -/
def lastTwo (initial : SimWorld) : List PresentEvent → LastTwo
  | [] => ⟨initial, initial⟩
  | .simulated _ _ :: past => lastTwo initial past
  | .captured world _ :: past => ⟨(lastTwo initial past).current, world⟩

def SameArrays (first state : PresentState) : Prop :=
  (state.previous.units = first.previous.units ∧ state.current.units = first.current.units) ∨
    (state.previous.units = first.current.units ∧ state.current.units = first.previous.units)

structure PresentInv (first : PresentSession) (past : List PresentEvent) (s : PresentSession) :
    Prop where
  world : s.world.LegalInv
  arrays : SameArrays first.present s.present
  holds : s.present.Holds s.memory (lastTwo first.world past).previous.abstract
    (lastTwo first.world past).current.abstract
  accepted : ∀ world accepted, .captured world accepted ∈ past → accepted = true

namespace PresentInv

variable {first s t : PresentSession} {past : List PresentEvent}

theorem simulated (h : PresentInv first past s) {op : Op} {result : OpResult} {world : SimWorld}
    (legal : op.Legal s.world) (hrun : op.run s.world = some (result, world)) :
    PresentInv first (.simulated op result :: past) { s with world := world } where
  world := by
    obtain ⟨u, hu, hinv, -⟩ := h.world.run legal
    rw [hrun] at hu
    cases hu
    exact hinv
  arrays := h.arrays
  holds := h.holds
  accepted world accepted hmem := by
    rcases List.mem_cons.mp hmem with heq | hmem
    · cases heq
    · exact h.accepted world accepted hmem

theorem captured (h : PresentInv first past s) {accepted : Bool} {present : PresentState}
    {memory : Nat → UInt8}
    (hcapture : presentCapture s.present s.memory s.world = some (accepted, present, memory)) :
    PresentInv first (.captured s.world accepted :: past) ⟨s.world, present, memory⟩ := by
  obtain ⟨memory', hrun, hholds⟩ := h.holds.capture h.world
  rw [hcapture] at hrun
  cases hrun
  refine ⟨h.world, ?_, hholds, fun world accepted hmem => ?_⟩
  · rcases h.arrays with ⟨hprevious, hcurrent⟩ | ⟨hprevious, hcurrent⟩
    · exact Or.inr ⟨hcurrent, hprevious⟩
    · exact Or.inl ⟨hcurrent, hprevious⟩
  · rcases List.mem_cons.mp hmem with heq | hmem
    · cases heq
      rfl
    · exact h.accepted world accepted hmem

theorem step (h : PresentInv first past s) {event : PresentEvent} (hstep : s.Step event t) :
    PresentInv first (event :: past) t := by
  cases event with
  | simulated op result =>
    obtain ⟨legal, world, hrun, rfl⟩ := hstep
    exact h.simulated legal hrun
  | captured world accepted =>
    obtain ⟨rfl, present, memory, hcapture, rfl⟩ := hstep
    exact h.captured hcapture

theorem run (hworld : first.world.LegalInv)
    (hholds : first.present.Holds first.memory first.world.abstract first.world.abstract)
    (h : (presentSystem first).Trace past s) : PresentInv first past s := by
  induction h with
  | start hs =>
    cases hs
    exact ⟨hworld, Or.inl ⟨rfl, rfl⟩, hholds, fun _ _ hmem => (by cases hmem)⟩
  | step _ hnext ih => exact ih.step hnext

end PresentInv

structure PresentSafe (arena pushed : Arena) (first : PresentSession) (past : List PresentEvent)
    (s : PresentSession) : Prop where
  allocated : first.present.Allocated arena pushed
  arrays : SameArrays first.present s.present
  accepted : ∀ world accepted, .captured world accepted ∈ past → accepted = true
  captures : ∃ present memory,
    presentCapture s.present s.memory s.world = some (true, present, memory)
  previous : s.present.previous.Shows s.memory
    (lastTwo first.world past).previous.abstract.extraction
  current : s.present.current.Shows s.memory
    (lastTwo first.world past).current.abstract.extraction
  rejected : ∀ state memory world slot, slot < simMaxUnits → world.UnitMissing slot →
    presentCapture state memory world = some (false, state, memory)

theorem present_last_two {world : SimWorld} (reachable : legalRuns.Reachable world)
    {state present : PresentState} {arena pushed : Arena} {memory staged : Nat → UInt8}
    (hinit : presentInit state arena memory world = some (true, present, pushed, staged))
    (past : List PresentEvent) (s : PresentSession)
    (h : (presentSystem ⟨world, present, staged⟩).Trace past s) :
    PresentSafe arena pushed ⟨world, present, staged⟩ past s := by
  have hworld := SimWorld.reachable_legal reachable
  obtain ⟨hallocated, hholds⟩ := presentInit_holds hworld hinit
  have inv := PresentInv.run hworld hholds h
  obtain ⟨after, hcapture, -⟩ := inv.holds.capture inv.world
  exact
    { allocated := hallocated
      arrays := inv.arrays
      accepted := inv.accepted
      captures := ⟨_, after, hcapture⟩
      previous := inv.holds.previous
      current := inv.holds.current
      rejected := fun state memory _ _ hslot hmissing =>
        PresentState.capture_rejected hmissing hslot state memory }

theorem present_last_two_captured : ∃ arena pushed first s,
    PresentSafe arena pushed first [.captured first.world true] s := by
  obtain ⟨world, arena, pushed, hw⟩ := SimWorld.started_exists
  have reachable : legalRuns.Reachable world := .initial ⟨arena, 7, _, pushed, hw⟩
  have hworld := SimWorld.reachable_legal reachable
  obtain ⟨own, -, hwf, hoff, hres, hcom, -⟩ :=
    arenaInit_ok 16 4096 4096 (by decide) (Nat.le_refl _) (by decide) none 0
  obtain ⟨present, last, staged, hinit⟩ := presentInit_ok ⟨⟨0, 0, 0⟩, ⟨0, 0, 0⟩⟩ hwf
    (Or.inl (hcom.trans hres.symm)) (fun _ => 0) hworld (by rw [hoff, hres]; decide)
  have hstart : (presentSystem ⟨world, present, staged⟩).Trace [] ⟨world, present, staged⟩ :=
    .start rfl
  obtain ⟨next, memory, hcapture⟩ := (present_last_two reachable hinit _ _ hstart).captures
  have hcaptured : (presentSystem ⟨world, present, staged⟩).Trace [.captured world true]
      ⟨world, next, memory⟩ := hstart.step ⟨rfl, next, memory, hcapture, rfl⟩
  exact ⟨own, last, _, _, present_last_two reachable hinit _ _ hcaptured⟩

end ChoonzMoba
