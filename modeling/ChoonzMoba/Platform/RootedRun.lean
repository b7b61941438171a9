import ChoonzMoba.Platform.RootedExact

namespace ChoonzMoba

variable {Node : Type}

def RootedJob.callsLeft (job : RootedJob) (s : RootedState Node) : Nat :=
  let opened := s.components.length
  match s.pc with
  | .openRoot => 3 * s.rest.length + job.maxBytes + opened + 14
  | .rootAttributes => 3 * s.rest.length + job.maxBytes + opened + 13
  | .rootFinalPath => 3 * s.rest.length + job.maxBytes + opened + 12
  | .openComponent => 3 * s.rest.length + job.maxBytes + opened + 11
  | .attributes _ => 3 * s.rest.length + job.maxBytes + opened + 9
  | .finalPath => job.maxBytes + opened + 8
  | .information => job.maxBytes + opened + 7
  | .fileSize => job.maxBytes + opened + 6
  | .alloc size => size + opened + 5
  | .read size => size - s.buffer.length + opened + 4
  | .close _ => opened + 2
  | .closeRoot _ => 1
  | .finished _ => 0

variable {job : RootedJob} {calm : Prop} {before : FileSystem Node} {s t : RootedState Node}

theorem withSeparator_length (path : WidePath) : (withSeparator path).length ≤ path.length + 1 := by
  unfold withSeparator
  split
  · exact Nat.le_succ _
  · rw [List.length_append]
    rfl

theorem closeHandle_frame (s : RootedState Node) (handle : Nat) :
    ∃ handles misused, s.closeHandle handle = { s with handles := handles, misused := misused } := by
  unfold RootedState.closeHandle
  split
  · exact ⟨_, s.misused, rfl⟩
  · exact ⟨s.handles, true, rfl⟩

theorem release_frame (s : RootedState Node) (size : Nat) :
    ∃ block misused, s.release size = { s with block := block, misused := misused } := by
  unfold RootedState.release
  split
  · exact ⟨none, s.misused, rfl⟩
  · exact ⟨s.block, true, rfl⟩

theorem RootedStep.bounds (h : RootedStep job s t) (bounds : RootedBounds s) : RootedBounds t := by
  obtain ⟨hcomponents, hcurrent, hterminated⟩ := bounds
  cases h with
  | refuse | openRoot | rootFails | rootAttributes | file | finalPath | information | fileSize
  | alloc | deliver | closed =>
    exact ⟨hcomponents, hcurrent, fun ⟨_, h⟩ => (by cases h)⟩
  | rootFinalPath _ _ _ hroom =>
    refine ⟨hcomponents, ?_, fun ⟨_, h⟩ => (by cases h)⟩
    exact (withSeparator_length _).trans (by omega)
  | fails _ hlength => exact ⟨hcomponents, hlength, fun ⟨_, h⟩ => (by cases h)⟩
  | @openComponent segment _ _ _ _ hopens =>
    have hlength : (s.current ++ segment).length < currentCapacity := by
      have := hopens.current
      rw [List.length_append]
      omega
    exact ⟨hopens.components, hlength.le, fun _ => hlength⟩
  | directory hpc =>
    refine ⟨hcomponents, ?_, fun ⟨_, h⟩ => (by cases h)⟩
    show (s.current ++ [backslash]).length ≤ currentCapacity
    rw [List.length_append]
    exact hterminated ⟨_, hpc⟩
  | read => exact ⟨hcomponents, hcurrent, hterminated⟩
  | @short size =>
    obtain ⟨block, misused, heq⟩ := release_frame s size
    rw [heq]
    exact ⟨hcomponents, hcurrent, fun ⟨_, h⟩ => (by cases h)⟩
  | @close success handle components hpc hcons =>
    obtain ⟨handles, misused, heq⟩ := closeHandle_frame s handle
    rw [heq]
    rw [hcons] at hcomponents
    exact ⟨Nat.le_of_succ_le hcomponents, hcurrent, hterminated⟩
  | closeRoot =>
    obtain ⟨handles, misused, heq⟩ := closeHandle_frame s s.root
    rw [heq]
    exact ⟨hcomponents, hcurrent, fun ⟨_, h⟩ => (by cases h)⟩
  | finished => exact ⟨hcomponents, hcurrent, hterminated⟩

theorem RootedStep.callsLeft (h : RootedStep job s t) (hpc : ∀ success, s.pc ≠ .finished success) :
    job.callsLeft t < job.callsLeft s := by
  cases h with
  | refuse hpc | openRoot hpc | rootAttributes hpc | rootFinalPath hpc | file hpc | finalPath hpc
  | information hpc | closed hpc | alloc hpc | deliver hpc =>
    unfold RootedJob.callsLeft
    rw [hpc]
    dsimp only [List.length_nil]
    omega
  | rootFails hpc =>
    unfold RootedJob.callsLeft
    rcases hpc with hpc | hpc
    all_goals
      rw [hpc]
      dsimp only
      omega
  | fails hgives =>
    unfold RootedJob.callsLeft
    generalize s.pc = pc at hgives
    cases hgives
    all_goals
      dsimp only
      omega
  | @openComponent segment rest _ _ hpc hopens =>
    obtain ⟨hrest, -, -⟩ := rootedSegment_spec hopens.scan
    have hpos := List.length_pos_iff.mpr hopens.valid.nonempty
    have hlength := congrArg List.length hrest
    rw [List.length_append] at hlength
    unfold RootedJob.callsLeft
    rw [hpc]
    dsimp only [List.length_cons]
    omega
  | directory hpc _ _ _ hrest =>
    have hpos := List.length_pos_iff.mpr hrest
    have hlength := List.length_tail (l := s.rest)
    unfold RootedJob.callsLeft
    rw [hpc]
    dsimp only
    omega
  | fileSize hpc _ hsize =>
    unfold RootedJob.callsLeft
    rw [hpc]
    dsimp only
    omega
  | read hpc _ hlt hne =>
    have hpos := List.length_pos_iff.mpr hne
    unfold RootedJob.callsLeft
    rw [hpc]
    dsimp only
    rw [List.length_append]
    omega
  | @short size hpc =>
    obtain ⟨block, misused, heq⟩ := release_frame s size
    unfold RootedJob.callsLeft
    rw [hpc, heq]
    dsimp only [RootedState.fail]
    omega
  | @close success handle components hpc hcons =>
    obtain ⟨handles, misused, heq⟩ := closeHandle_frame s handle
    unfold RootedJob.callsLeft
    rw [heq]
    dsimp only
    rw [hpc, hcons]
    exact Nat.lt_succ_self _
  | closeRoot hpc =>
    unfold RootedJob.callsLeft
    rw [hpc]
    exact Nat.one_pos
  | finished hfinished => exact absurd hfinished (hpc _)

theorem RootedStep.stopped (h : RootedStep job s t) {success : Bool}
    (hpc : s.pc = .finished success) : t = s := by
  cases h with
  | finished => rfl
  | rootFails hother => rcases hother with hother | hother <;> rw [hpc] at hother <;> cases hother
  | fails hgives =>
    rw [hpc] at hgives
    cases hgives
  | refuse hother | openRoot hother | rootAttributes hother | rootFinalPath hother
  | openComponent hother | directory hother | file hother | finalPath hother | information hother
  | fileSize hother | alloc hother | read hother | short hother | deliver hother | close hother
  | closed hother | closeRoot hother =>
    rw [hpc] at hother
    cases hother

theorem RootedStep.out_eq (h : RootedStep job s t) :
    t.out = s.out ∨ s.pc = .read s.buffer.length ∧ t.out = some s.buffer := by
  cases h with
  | deliver hpc hsize => exact Or.inr ⟨hsize ▸ hpc, rfl⟩
  | @short size =>
    obtain ⟨block, misused, heq⟩ := release_frame s size
    rw [heq]
    exact Or.inl rfl
  | @close success handle =>
    obtain ⟨handles, misused, heq⟩ := closeHandle_frame s handle
    rw [heq]
    exact Or.inl rfl
  | closeRoot =>
    obtain ⟨handles, misused, heq⟩ := closeHandle_frame s s.root
    rw [heq]
    exact Or.inl rfl
  | refuse | openRoot | rootFails | rootAttributes | rootFinalPath | fails | openComponent
  | directory | file | finalPath | information | fileSize | alloc | read | closed | finished =>
    exact Or.inl rfl

theorem RootedOwns.other (h : RootedOwns s) (fs : FileSystem Node) :
    RootedOwns { s with fs := fs } :=
  ⟨h.sound, h.opens, h.shallow, h.block, h.out⟩

variable [DecidableEq Node]

end ChoonzMoba
