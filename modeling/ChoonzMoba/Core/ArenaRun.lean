import ChoonzMoba.Core.Arena
import ChoonzMoba.Library.Regions
import ChoonzMoba.Library.System

open Regions

namespace ChoonzMoba

def memset (memory : Nat → UInt8) (address : Nat) (value : UInt8) (size : Nat) : Nat → UInt8 :=
  fun i => if address ≤ i ∧ i < address + size then value else memory i

def arenaPushZero (a : Arena) (memory : Nat → UInt8) (size align : Nat) :
    Option (Arena × Nat × (Nat → UInt8)) :=
  (arenaPush a size align).map fun (b, address) => (b, address, memset memory address 0 size)

theorem arenaPushZero_some {a b : Arena} {memory memory' : Nat → UInt8} {size align address : Nat}
    (h : arenaPushZero a memory size align = some (b, address, memory')) :
    arenaPush a size align = some (b, address) ∧ memory' = memset memory address 0 size := by
  obtain ⟨pushed, hpush, heq⟩ := Option.map_eq_some_iff.mp h
  cases heq
  exact ⟨hpush, rfl⟩

theorem arenaPushZero_keeps {a b : Arena} {memory memory' : Nat → UInt8} {size align address : Nat}
    (h : arenaPushZero a memory size align = some (b, address, memory')) {i : Nat}
    (hi : i < a.base + a.offset) : memory' i = memory i := by
  obtain ⟨hpushed, rfl⟩ := arenaPushZero_some h
  obtain ⟨-, -, hfrom, -⟩ := arenaPush_spec hpushed
  exact if_neg (by omega)

theorem arenaPushZero_ok {a : Arena} (wf : a.Wf) (hs : a.CommitSucceeds) (memory : Nat → UInt8)
    (size : Nat) {k : Nat} (hroom : a.offset + (2 ^ k - 1) + size ≤ a.reserved) :
    ∃ b address memory', arenaPushZero a memory size (2 ^ k) = some (b, address, memory') ∧
      b.Wf ∧ b.CommitSucceeds ∧ b.reserved = a.reserved ∧
      b.offset ≤ a.offset + (2 ^ k - 1) + size := by
  obtain ⟨b, address, hpush, hwf, hcommit, hbacking, hoffset⟩ := arenaPush_ok wf hs size hroom
  exact ⟨b, address, _, Option.map_eq_some_iff.mpr ⟨_, hpush, rfl⟩, hwf, hcommit,
    hbacking.reserved, hoffset⟩

def arenaReset (a : Arena) : Arena := { a with offset := 0 }

structure TempMemory where
  savedOffset : Nat
deriving DecidableEq, Repr

def tempBegin (a : Arena) : TempMemory := { savedOffset := a.offset }

inductive ArenaCall
  | push (size align address : Nat)
  | pushZero (size align address : Nat)
  | tempBegin
  | tempEnd
  | reset
deriving DecidableEq, Repr

structure ArenaEvent where
  call : ArenaCall
  offset : Nat
deriving DecidableEq, Repr

structure ArenaSession where
  arena : Arena
  temps : List TempMemory
  memory : Nat → UInt8

-- a push that fails an `ENSURE` has no next state
def ArenaSession.Step (s : ArenaSession) : ArenaCall → ArenaSession → Prop
  | .push size align address, t =>
    ∃ b, arenaPush s.arena size align = some (b, address) ∧ t = { s with arena := b }
  | .pushZero size align address, t =>
    ∃ b memory, arenaPushZero s.arena s.memory size align = some (b, address, memory) ∧
      t = { s with arena := b, memory := memory }
  | .tempBegin, t => t = { s with temps := ChoonzMoba.tempBegin s.arena :: s.temps }
  | .tempEnd, t => ∃ temp temps, s.temps = temp :: temps ∧
      t = { s with arena := ChoonzMoba.tempEnd s.arena temp.savedOffset, temps := temps }
  | .reset, t => s.temps = [] ∧ t = { s with arena := arenaReset s.arena }

def arenaSystem (start : Arena) : System ArenaSession ArenaEvent where
  initial s := s.arena = start ∧ s.temps = []
  next s event t := s.Step event.call t ∧ event.offset = t.arena.offset

/-- The blocks not reclaimed yet, by the temps that were open when they were pushed. -/
def liveFrames : List ArenaEvent → List (List Region)
  | [] => [[]]
  | event :: past =>
    match event.call with
    | .push size _ address => take ⟨address, address + size⟩ (liveFrames past)
    | .pushZero size _ address => take ⟨address, address + size⟩ (liveFrames past)
    | .tempBegin => [] :: liveFrames past
    | .tempEnd => (liveFrames past).tail
    | .reset => [[]]

def liveBlocks (past : List ArenaEvent) : List Region := (liveFrames past).flatten

def peakOffset (past : List ArenaEvent) : Nat := (past.map (·.offset)).foldr max 0

def ArenaCall.Pushes (call : ArenaCall) (size align address : Nat) : Prop :=
  call = .push size align address ∨ call = .pushZero size align address

theorem ArenaCall.Pushes.inj {call : ArenaCall} {size align address size' align' address' : Nat}
    (h : call.Pushes size align address) (h' : call.Pushes size' align' address') :
    size' = size ∧ align' = align ∧ address' = address := by
  rcases h with rfl | rfl
  · rcases h' with h' | h'
    · cases h'
      exact ⟨rfl, rfl, rfl⟩
    · cases h'
  · rcases h' with h' | h'
    · cases h'
    · cases h'
      exact ⟨rfl, rfl, rfl⟩

structure ArenaInv (start : Arena) (past : List ArenaEvent) (s : ArenaSession) : Prop where
  backing : start.SameBacking s.arena
  offset_le : s.arena.offset ≤ s.arena.committed
  committed_le : s.arena.committed ≤ s.arena.reserved
  nested : Nested (start.base + s.arena.offset) (s.temps.map (start.base + ·.savedOffset))
    (liveFrames past)
  aligned : ∀ event ∈ past, ∀ size align address, event.call.Pushes size align address →
    align ∣ address ∧ start.base ≤ address ∧ address + size ≤ start.base + s.arena.committed
  reached : s.arena.offset ≤ s.arena.highWater
  peak : s.arena.highWater = peakOffset past

theorem ArenaInv.start {base : UInt64} {reserved committed granularity : Nat}
    {commit : Option (Nat → Bool)} {start : Arena}
    (h : arenaInit base reserved committed commit granularity = some start) {s : ArenaSession}
    (hs : s.arena = start ∧ s.temps = []) : ArenaInv start [] s := by
  obtain ⟨rfl, htemps⟩ := hs
  unfold arenaInit at h
  split at h
  · cases h
  split at h
  · cases h
  split at h
  · cases h
  next hcommitted _ =>
  have hinit := Option.some.inj h
  refine ⟨⟨rfl, rfl, rfl, rfl⟩, ?_, ?_, ?_, fun _ hevent => (by cases hevent), ?_, ?_⟩
  · rw [← hinit]
    exact Nat.zero_le _
  · rw [← hinit]
    exact Nat.le_of_not_lt hcommitted
  · rw [htemps]
    exact .root trivial
  · rw [← hinit]
  · rw [← hinit]
    rfl

variable {start : Arena} {past : List ArenaEvent} {s : ArenaSession} {event : ArenaEvent}

theorem peakOffset_cons (event : ArenaEvent) (past : List ArenaEvent) :
    peakOffset (event :: past) = max event.offset (peakOffset past) := rfl

theorem ArenaInv.push (h : ArenaInv start past s) {b : Arena} {size align address : Nat}
    (hpush : arenaPush s.arena size align = some (b, address)) (memory : Nat → UInt8)
    (hoffset : event.offset = b.offset) (hcall : event.call.Pushes size align address) :
    ArenaInv start (event :: past) { s with arena := b, memory := memory } := by
  obtain ⟨-, hdvd, hfrom, hstop, hbacking, hle, hcommitted, -, hgrown, -, hhigh⟩ :=
    arenaPush_spec hpush
  have hframes : liveFrames (event :: past) =
      take ⟨address, address + size⟩ (liveFrames past) := by
    rcases hcall with hcall | hcall
    · rw [liveFrames, hcall]
    · rw [liveFrames, hcall]
  rw [h.backing.base] at hfrom hstop
  refine ⟨h.backing.trans hbacking, hle, hcommitted, ?_, ?_, ?_, ?_⟩
  · rw [hframes, ← hstop]
    exact h.nested.take (r := ⟨address, address + size⟩) hfrom (Nat.le_add_right _ _)
  · intro event' hevent size' align' address' hpushes
    rcases List.mem_cons.mp hevent with rfl | hevent
    · obtain ⟨rfl, rfl, rfl⟩ := hcall.inj hpushes
      exact ⟨hdvd, by omega, by dsimp only; omega⟩
    · obtain ⟨hdvd', hfrom', hstop'⟩ := h.aligned event' hevent size' align' address' hpushes
      exact ⟨hdvd', hfrom', by dsimp only; omega⟩
  · rw [hhigh]
    exact Nat.le_max_right _ _
  · rw [peakOffset_cons, hoffset, hhigh, h.peak, Nat.max_comm]

theorem ArenaInv.lower (h : ArenaInv start past s) {offset : Nat} {temps : List TempMemory}
    (hle : offset ≤ s.arena.offset) (hoffset : event.offset = offset)
    (hcall : ∀ size align address, ¬event.call.Pushes size align address)
    (hnested : Nested (start.base + offset) (temps.map (start.base + ·.savedOffset))
      (liveFrames (event :: past))) :
    ArenaInv start (event :: past)
      { s with arena := { s.arena with offset := offset }, temps := temps } := by
  refine ⟨h.backing.trans ⟨rfl, rfl, rfl, rfl⟩, Nat.le_trans hle h.offset_le, h.committed_le,
    hnested, ?_, Nat.le_trans hle h.reached, ?_⟩
  · intro event' hevent size align address hpushes
    rcases List.mem_cons.mp hevent with rfl | hevent
    · exact absurd hpushes (hcall size align address)
    · exact h.aligned event' hevent size align address hpushes
  · have hpeak := Nat.le_trans hle h.reached
    rw [h.peak] at hpeak
    rw [peakOffset_cons, hoffset, Nat.max_eq_right hpeak]
    exact h.peak

theorem ArenaInv.step (h : ArenaInv start past s) {t : ArenaSession}
    (hstep : s.Step event.call t) (hoffset : event.offset = t.arena.offset) :
    ArenaInv start (event :: past) t := by
  have hnested := h.nested
  obtain ⟨call, offset⟩ := event
  cases call with
  | push size align address =>
    obtain ⟨b, hpush, rfl⟩ := hstep
    exact h.push hpush s.memory hoffset (.inl rfl)
  | pushZero size align address =>
    obtain ⟨b, memory, hpush, rfl⟩ := hstep
    exact h.push (arenaPushZero_some hpush).1 memory hoffset (.inr rfl)
  | tempBegin =>
    cases hstep
    exact h.lower (Nat.le_refl _) hoffset (by rintro _ _ _ (hcall | hcall) <;> cases hcall)
      hnested.mark
  | tempEnd =>
    obtain ⟨temp, temps, htemps, rfl⟩ := hstep
    rw [htemps] at hnested
    obtain ⟨hmark, hrest⟩ := hnested.rewind
    exact h.lower (Nat.le_of_add_le_add_left hmark) hoffset
      (by rintro _ _ _ (hcall | hcall) <;> cases hcall) hrest
  | reset =>
    obtain ⟨htemps, rfl⟩ := hstep
    have hempty : Nested (start.base + 0) [] [[]] := .root trivial
    rw [← List.map_nil (f := fun temp : TempMemory => start.base + temp.savedOffset), ← htemps] at hempty
    exact h.lower (Nat.zero_le _) hoffset (by rintro _ _ _ (hcall | hcall) <;> cases hcall) hempty

theorem ArenaInv.run {base : UInt64} {reserved committed granularity : Nat}
    {commit : Option (Nat → Bool)}
    (hinit : arenaInit base reserved committed commit granularity = some start)
    (h : (arenaSystem start).Trace past s) : ArenaInv start past s := by
  induction h with
  | start hs => exact ArenaInv.start hinit hs
  | step _ hnext ih => exact ih.step hnext.1 hnext.2

def Arena.NoRoom (a : Arena) (size align : Nat) : Prop :=
  ∀ address, align ∣ address → a.base + a.offset ≤ address → a.base + a.reserved < address + size

theorem arenaPush_noRoom {a : Arena} {size align : Nat} (h : a.NoRoom size align) :
    arenaPush a size align = none := by
  cases hpush : arenaPush a size align with
  | none => rfl
  | some r =>
    obtain ⟨b, address⟩ := r
    obtain ⟨-, hdvd, hfrom, hstop, hbacking, hle, hcommitted, -⟩ := arenaPush_spec hpush
    have hover := h address hdvd hfrom
    rw [hbacking.reserved] at hcommitted
    omega

abbrev Arena.withCommit (a : Arena) (commit : Nat → Bool) : Arena :=
  { a with commit := some commit }

theorem commitSize_bounds {reserved committed stop gran : Nat} (hgran : 0 < gran)
    (hstop : stop ≤ reserved) (hgrow : committed < stop) :
    committed < (if reserved < (stop + gran - 1) / gran * gran then reserved
      else (stop + gran - 1) / gran * gran) ∧
    (if reserved < (stop + gran - 1) / gran * gran then reserved
      else (stop + gran - 1) / gran * gran) ≤ reserved := by
  have hdiv := Nat.div_add_mod (stop + gran - 1) gran
  have hmod := Nat.mod_lt (stop + gran - 1) hgran
  rw [Nat.mul_comm]
  split
  · omega
  · omega

theorem arenaCommit_asks {a : Arena} {stop : Nat} (hstop : stop ≤ a.reserved)
    {commit commit' : Nat → Bool} (hcommit : a.commit = some commit)
    (hagree : ∀ asked, a.committed < asked → asked ≤ a.reserved → commit' asked = commit asked) :
    arenaCommit (a.withCommit commit') stop =
      (arenaCommit a stop).map (·.withCommit commit') := by
  rcases Nat.lt_or_ge a.committed stop with hgrow | hle
  · have hgran : 0 < (if a.commitGranularity ≠ 0 then a.commitGranularity else 1) := by
      split
      · exact Nat.pos_of_ne_zero ‹_›
      · exact Nat.one_pos
    obtain ⟨hmore, hkept⟩ := commitSize_bounds hgran hstop hgrow
    rw [arenaCommit, arenaCommit, hcommit, if_neg (Nat.not_le_of_lt hgrow),
      if_neg (Nat.not_le_of_lt hgrow)]
    dsimp only
    generalize (if a.commitGranularity ≠ 0 then a.commitGranularity else 1) = gran at *
    generalize (if a.reserved < (stop + gran - 1) / gran * gran then a.reserved
      else (stop + gran - 1) / gran * gran) = want at *
    rw [hagree want hmore hkept]
    split
    · rfl
    · split
      · rfl
      · rfl
  · rw [arenaCommit, arenaCommit, if_pos hle, if_pos hle]
    rfl

theorem arenaPush_asks {a : Arena} (size align : Nat) {commit commit' : Nat → Bool}
    (hcommit : a.commit = some commit)
    (hagree : ∀ asked, a.committed < asked → asked ≤ a.reserved → commit' asked = commit asked) :
    arenaPush (a.withCommit commit') size align =
      (arenaPush a size align).map fun r => (r.1.withCommit commit', r.2) := by
  rw [arenaPush, arenaPush]
  dsimp only
  split_ifs with hbase halign hstate haddress hwrap hbelow hroom
  · rfl
  · rfl
  · rfl
  · rfl
  · rfl
  · rfl
  · rfl
  · rw [arenaCommit_asks (by omega) hcommit hagree]
    generalize arenaCommit a _ = grown
    cases grown with
    | none => rfl
    | some grown => rfl

structure ArenaSafe (start : Arena) (past : List ArenaEvent) (s : ArenaSession) : Prop where
  base : s.arena.base = start.base
  reserved : s.arena.reserved = start.reserved
  block : ∀ event ∈ past, ∀ size align address, event.call.Pushes size align address →
    align ∣ address ∧ start.base ≤ address ∧ address + size ≤ start.base + s.arena.committed
  disjoint : (liveBlocks past).Pairwise Region.Disjoint
  taken : ∀ r ∈ liveBlocks past, r.stop ≤ start.base + s.arena.offset
  offset_le : s.arena.offset ≤ s.arena.committed
  committed_le : s.arena.committed ≤ s.arena.reserved
  peak : s.arena.highWater = peakOffset past
  zeroes : ∀ size align b address memory,
    arenaPushZero s.arena s.memory size align = some (b, address, memory) →
    ∀ r ∈ liveBlocks past, ∀ i < r.stop, memory i = s.memory i
  no_room : ∀ size align, s.arena.NoRoom size align → arenaPush s.arena size align = none
  asks : ∀ size align commit commit', s.arena.commit = some commit →
    (∀ asked, s.arena.committed < asked → asked ≤ s.arena.reserved →
      commit' asked = commit asked) →
    arenaPush (s.arena.withCommit commit') size align =
      (arenaPush s.arena size align).map fun r => (r.1.withCommit commit', r.2)

theorem arenaRun_safe (base : UInt64) (reserved committed granularity : Nat)
    (commit : Option (Nat → Bool)) (start : Arena)
    (hinit : arenaInit base reserved committed commit granularity = some start)
    (past : List ArenaEvent) (s : ArenaSession) (h : (arenaSystem start).Trace past s) :
    ArenaSafe start past s := by
  have inv := ArenaInv.run hinit h
  exact
    { base := inv.backing.base
      reserved := inv.backing.reserved
      block := inv.aligned
      disjoint := inv.nested.flatten.pairwise
      taken := fun r hr => inv.nested.flatten.stop_le hr
      offset_le := inv.offset_le
      committed_le := inv.committed_le
      peak := inv.peak
      zeroes := by
        intro size align b address memory hpush r hr i hi
        have htaken := inv.nested.flatten.stop_le hr
        rw [← inv.backing.base] at htaken
        exact arenaPushZero_keeps hpush (hi.trans_le htaken)
      no_room := fun _ _ => arenaPush_noRoom
      asks := fun size align _ _ => arenaPush_asks size align }

def sampleArena (offset committed highWater : Nat) : Arena :=
  ⟨8192, offset, committed, 64, highWater, some fun _ => true, 16, by decide⟩

theorem arenaRun_safe_two :
    ArenaSafe (sampleArena 0 16 0)
      [⟨.push 8 16 8208, 24⟩, ⟨.tempBegin, 10⟩, ⟨.push 10 8 8192, 10⟩]
      ⟨sampleArena 24 32 24, [⟨10⟩], fun _ => 0⟩ := by
  have hinit : (arenaSystem (sampleArena 0 16 0)).Trace [] ⟨sampleArena 0 16 0, [], fun _ => 0⟩ :=
    .start ⟨rfl, rfl⟩
  have hfirst : (arenaSystem (sampleArena 0 16 0)).Trace [⟨.push 10 8 8192, 10⟩]
      ⟨sampleArena 10 16 10, [], fun _ => 0⟩ := hinit.step ⟨⟨_, rfl, rfl⟩, rfl⟩
  have htemp : (arenaSystem (sampleArena 0 16 0)).Trace [⟨.tempBegin, 10⟩, ⟨.push 10 8 8192, 10⟩]
      ⟨sampleArena 10 16 10, [⟨10⟩], fun _ => 0⟩ := hfirst.step ⟨rfl, rfl⟩
  exact arenaRun_safe 8192 64 16 16 (some fun _ => true) _ rfl _ _
    (htemp.step ⟨⟨_, rfl, rfl⟩, rfl⟩)

end ChoonzMoba
