import ChoonzMoba.Library.System
import Mathlib.Data.List.Basic
import Mathlib.Data.List.Nodup
import Mathlib.Logic.Function.Basic
import Mathlib.Order.Lattice
import Mathlib.Tactic.Common

inductive DeferredEvent (T : Type) where
  | issued (index generation : Nat)
  | retired (index generation : Nat) (due : T)
  | collected (now : T) (released : List Nat)
  | idle

inductive SlotPhase (T : Type) where
  | free
  | alive
  | retiring (due : T)

/-- Slots that are reused only after a collection at or past the time they were retired for. -/
@[ext]
structure DeferredSlots (T : Type) where
  capacity : Nat
  generation : Nat → Nat
  phase : Nat → SlotPhase T
  free : List Nat

section

variable {T : Type} [LinearOrder T]

def SlotPhase.dueBy (now : T) : SlotPhase T → Bool
  | retiring due => decide (due ≤ now)
  | free => false
  | alive => false

def SlotPhase.isAlive : SlotPhase T → Bool
  | alive => true
  | free => false
  | retiring _ => false

def SlotPhase.isRetiring : SlotPhase T → Bool
  | retiring _ => true
  | free => false
  | alive => false

namespace DeferredEvent

def releases (i : Nat) : DeferredEvent T → Bool
  | collected _ released => decide (i ∈ released)
  | issued _ _ => false
  | retired _ _ _ => false
  | idle => false

def retires (i : Nat) : DeferredEvent T → Bool
  | retired index _ _ => decide (index = i)
  | issued _ _ => false
  | collected _ _ => false
  | idle => false

end DeferredEvent

namespace DeferredSlots

def due (s : DeferredSlots T) (now : T) : List Nat :=
  (List.range s.capacity).filter fun i => (s.phase i).dueBy now

def issue (s : DeferredSlots T) (i : Nat) (rest : List Nat) : DeferredSlots T :=
  { s with phase := Function.update s.phase i .alive, free := rest }

def retire (s : DeferredSlots T) (i : Nat) (due : T) : DeferredSlots T :=
  { s with phase := Function.update s.phase i (.retiring due) }

def release (s : DeferredSlots T) (released : List Nat) : DeferredSlots T :=
  { s with
    generation := fun i => if i ∈ released then s.generation i + 1 else s.generation i
    phase := fun i => if i ∈ released then .free else s.phase i
    free := released.reverse ++ s.free }

def aliveCount (s : DeferredSlots T) : Nat :=
  (List.range s.capacity).countP fun i => (s.phase i).isAlive

inductive Step (s : DeferredSlots T) : DeferredEvent T → DeferredSlots T → Prop
  | idle : Step s .idle s
  | issue {i : Nat} {rest : List Nat} : s.free = i :: rest →
      Step s (.issued i (s.generation i)) (s.issue i rest)
  | retire {i : Nat} {due : T} : s.phase i = .alive →
      Step s (.retired i (s.generation i) due) (s.retire i due)
  | collect {now : T} : Step s (.collected now (s.due now)) (s.release (s.due now))

def fresh (capacity : Nat) : DeferredSlots T where
  capacity := capacity
  generation := fun _ => 1
  phase := fun _ => .free
  free := List.range capacity

def system : System (DeferredSlots T) (DeferredEvent T) where
  initial s := ∃ capacity, s = fresh capacity
  next := Step

structure Inv (s : DeferredSlots T) : Prop where
  nodup : s.free.Nodup
  mem_free : ∀ i, i ∈ s.free ↔ i < s.capacity ∧ s.phase i = .free
  inside : ∀ i, s.capacity ≤ i → s.phase i = .free

def Outstanding (past : List (DeferredEvent T)) (i g : Nat) : Prop :=
  ∃ later earlier, past = later ++ .issued i g :: earlier ∧ ∀ due, .retired i g due ∉ later

def Pending (past : List (DeferredEvent T)) (i : Nat) (due : T) : Prop :=
  ∃ later earlier g, past = later ++ .retired i g due :: earlier ∧
    ∀ now released, .collected now released ∈ later → i ∉ released

variable {s t : DeferredSlots T} {past later earlier : List (DeferredEvent T)}
  {event : DeferredEvent T} {i g : Nat} {due now : T} {rest released : List Nat}

theorem mem_due (inv : s.Inv) : i ∈ s.due now ↔ ∃ due, s.phase i = .retiring due ∧ due ≤ now := by
  rw [DeferredSlots.due, List.mem_filter, List.mem_range]
  cases hphase : s.phase i with
  | free => simp [SlotPhase.dueBy]
  | alive => simp [SlotPhase.dueBy]
  | retiring due =>
    have hinside : i < s.capacity := by
      by_contra hge
      cases hphase.symm.trans (inv.inside i (Nat.le_of_not_lt hge))
    simp [SlotPhase.dueBy, hinside]

theorem due_nodup (s : DeferredSlots T) (now : T) : (s.due now).Nodup :=
  List.nodup_range.filter _

omit [LinearOrder T] in
theorem fresh_inv (capacity : Nat) : (fresh (T := T) capacity).Inv where
  nodup := List.nodup_range
  mem_free i := by simp [fresh]
  inside _ _ := rfl

omit [LinearOrder T] in
theorem Inv.retiring_inside (inv : s.Inv) (h : ∃ due, s.phase i = .retiring due) :
    i < s.capacity := by
  obtain ⟨due, hphase⟩ := h
  by_contra hge
  cases hphase.symm.trans (inv.inside i (Nat.le_of_not_lt hge))

omit [LinearOrder T] in
theorem Inv.release (inv : s.Inv) (hnodup : released.Nodup)
    (hretiring : ∀ i ∈ released, ∃ due, s.phase i = .retiring due) : (s.release released).Inv := by
  refine ⟨?_, fun j => ?_, fun j hj => ?_⟩
  · refine List.nodup_append'.mpr
      ⟨List.nodup_reverse.mpr hnodup, inv.nodup, fun j hdue hfree => ?_⟩
    obtain ⟨due, hphase⟩ := hretiring j (List.mem_reverse.mp hdue)
    cases hphase.symm.trans ((inv.mem_free j).mp hfree).2
  · simp only [DeferredSlots.release, List.mem_append, List.mem_reverse, inv.mem_free j]
    by_cases hdue : j ∈ released
    · simp [hdue, inv.retiring_inside (hretiring j hdue)]
    · simp [hdue]
  · simp only [DeferredSlots.release]
    split
    · rfl
    · exact inv.inside j hj

theorem due_retiring (inv : s.Inv) (hi : i ∈ s.due now) : ∃ due, s.phase i = .retiring due := by
  obtain ⟨due, hphase, -⟩ := (mem_due inv).mp hi
  exact ⟨due, hphase⟩

theorem Inv.step (inv : s.Inv) (h : Step s event t) : t.Inv := by
  cases h with
  | idle => exact inv
  | @issue i rest hfree =>
    have hin := (inv.mem_free i).mp (hfree ▸ List.mem_cons_self)
    have hnodup := inv.nodup
    rw [hfree, List.nodup_cons] at hnodup
    refine ⟨hnodup.2, fun j => ?_, fun j hj => ?_⟩
    · have hmem := inv.mem_free j
      rw [hfree, List.mem_cons] at hmem
      by_cases hne : j = i
      · subst hne
        simp [DeferredSlots.issue, hnodup.1]
      · simpa [DeferredSlots.issue, hne] using hmem
    · have hne : j ≠ i := Nat.ne_of_gt (Nat.lt_of_lt_of_le hin.1 hj)
      simpa only [DeferredSlots.issue, Function.update_of_ne hne] using inv.inside j hj
  | @retire i due halive =>
    have hinside : i < s.capacity := by
      by_contra hge
      cases halive.symm.trans (inv.inside i (Nat.le_of_not_lt hge))
    refine ⟨inv.nodup, fun j => ?_, fun j hj => ?_⟩
    · refine (inv.mem_free j).trans ?_
      by_cases hne : j = i
      · subst hne
        simp [DeferredSlots.retire, halive]
      · simp [DeferredSlots.retire, hne]
    · have hne : j ≠ i := Nat.ne_of_gt (Nat.lt_of_lt_of_le hinside hj)
      simpa only [DeferredSlots.retire, Function.update_of_ne hne] using inv.inside j hj
  | @collect now => exact inv.release (s.due_nodup now) fun i => due_retiring inv

theorem countP_update (p : Nat → Bool) {i n : Nat} (hi : i < n) (b : Bool) :
    (List.range n).countP (Function.update p i b) + (p i).toNat =
      (List.range n).countP p + b.toNat := by
  induction n with
  | zero => exact absurd hi (Nat.not_lt_zero i)
  | succ n ih =>
    rw [List.range_succ, List.countP_append, List.countP_append, List.countP_singleton,
      List.countP_singleton]
    by_cases hin : i = n
    · subst hin
      have hsame : (List.range i).countP (Function.update p i b) = (List.range i).countP p :=
        List.countP_congr fun j hj => by
          rw [Function.update_of_ne (Nat.ne_of_lt (List.mem_range.mp hj))]
      rw [hsame, Function.update_self]
      cases b <;> cases p i <;> simp
    · have hlt := ih (Nat.lt_of_le_of_ne (Nat.le_of_lt_succ hi) hin)
      rw [Function.update_of_ne (Ne.symm hin)]
      omega

omit [LinearOrder T] in
theorem aliveCount_set (s : DeferredSlots T) (phase : SlotPhase T) (free : List Nat)
    (hi : i < s.capacity) :
    aliveCount { s with phase := Function.update s.phase i phase, free := free } +
      (s.phase i).isAlive.toNat = s.aliveCount + phase.isAlive.toNat := by
  rw [aliveCount, aliveCount,
    ← countP_update (fun j => (s.phase j).isAlive) hi phase.isAlive]
  refine congrArg (· + _) (List.countP_congr fun j _ => ?_)
  by_cases hij : j = i
  · subst hij
    simp
  · simp [hij]

omit [LinearOrder T] in
theorem aliveCount_issue (inv : s.Inv) (hfree : s.free = i :: rest) :
    (s.issue i rest).aliveCount = s.aliveCount + 1 := by
  obtain ⟨hi, hphase⟩ := (inv.mem_free i).mp (hfree ▸ List.mem_cons_self)
  have hset := s.aliveCount_set .alive rest hi
  rwa [hphase] at hset

omit [LinearOrder T] in
theorem aliveCount_retire (hi : i < s.capacity) (halive : s.phase i = .alive) (due : T) :
    (s.retire i due).aliveCount + 1 = s.aliveCount := by
  have hset := s.aliveCount_set (.retiring due) s.free hi
  rwa [halive] at hset

omit [LinearOrder T] in
theorem aliveCount_le (s : DeferredSlots T) : s.aliveCount ≤ s.capacity := by
  have hle : s.aliveCount ≤ (List.range s.capacity).length := List.countP_le_length
  rwa [List.length_range] at hle

omit [LinearOrder T] in
theorem aliveCount_lt (inv : s.Inv) (hi : i ∈ s.free) : s.aliveCount < s.capacity := by
  obtain ⟨hlt, hfree⟩ := (inv.mem_free i).mp hi
  have hset := aliveCount_set s .alive s.free hlt
  have hle : aliveCount { s with phase := Function.update s.phase i .alive, free := s.free } ≤
      s.capacity := aliveCount_le _
  rw [hfree] at hset
  simp only [SlotPhase.isAlive, Bool.toNat_false, Bool.toNat_true] at hset
  omega

omit [LinearOrder T] in
theorem aliveCount_release (hretiring : ∀ i ∈ released, ∃ due, s.phase i = .retiring due) :
    (s.release released).aliveCount = s.aliveCount := by
  refine List.countP_congr fun i _ => ?_
  by_cases hi : i ∈ released
  · obtain ⟨due, hphase⟩ := hretiring i hi
    simp [release, hi, hphase, SlotPhase.isAlive]
  · simp [release, hi]

omit [LinearOrder T] in
theorem release_append (s : DeferredSlots T) (hi : i ∉ released) :
    (s.release released).release [i] = s.release (released ++ [i]) := by
  ext j
  · rfl
  · by_cases hij : j = i
    · subst hij
      simp [release, hi]
    · simp [release, hij]
  · by_cases hij : j = i
    · simp [release, hij]
    · simp [release, hij]
  · simp [release]

omit [LinearOrder T] in
theorem release_nil (s : DeferredSlots T) : s.release [] = s := by
  ext j <;> simp [release]

theorem Inv.issued_free (inv : s.Inv) (h : Step s (.issued i g) t) : s.phase i = .free := by
  cases h with
  | issue hfree => exact ((inv.mem_free i).mp (hfree ▸ List.mem_cons_self)).2

omit [LinearOrder T] in
theorem issue_phase (s : DeferredSlots T) (i : Nat) (rest : List Nat) :
    (s.issue i rest).phase i = .alive := Function.update_self _ _ _

omit [LinearOrder T] in
theorem issue_phase_of_ne {j : Nat} (s : DeferredSlots T) (rest : List Nat) (hj : j ≠ i) :
    (s.issue i rest).phase j = s.phase j := Function.update_of_ne hj _ _

omit [LinearOrder T] in
theorem retire_phase (s : DeferredSlots T) (i : Nat) (due : T) :
    (s.retire i due).phase i = .retiring due := Function.update_self _ _ _

omit [LinearOrder T] in
theorem retire_phase_of_ne {j : Nat} (s : DeferredSlots T) (due : T) (hj : j ≠ i) :
    (s.retire i due).phase j = s.phase j := Function.update_of_ne hj _ _

omit [LinearOrder T] in
theorem release_phase (s : DeferredSlots T) (hi : i ∈ released) :
    (s.release released).phase i = .free := if_pos hi

omit [LinearOrder T] in
theorem release_phase_of_notMem (s : DeferredSlots T) (hi : i ∉ released) :
    (s.release released).phase i = s.phase i := if_neg hi

theorem retire_due_only (hlater : ∀ j due', s.phase j = .retiring due' → now < due')
    (hi : i < s.capacity) (hdue : due ≤ now) : (s.retire i due).due now = [i] := by
  have hphase : ∀ j, ((s.retire i due).phase j).dueBy now = (j == i) := by
    intro j
    by_cases hj : j = i
    · subst hj
      simp [DeferredSlots.retire, SlotPhase.dueBy, hdue]
    · rw [DeferredSlots.retire, beq_eq_false_iff_ne.mpr hj]
      simp only [Function.update_of_ne hj]
      cases hphase : s.phase j with
      | free => rfl
      | alive => rfl
      | retiring due' => exact decide_eq_false (not_le_of_gt (hlater j due' hphase))
  have hcount : List.count i (List.range (s.retire i due).capacity) = 1 :=
    List.count_eq_one_of_mem List.nodup_range (List.mem_range.mpr hi)
  rw [DeferredSlots.due]
  simp only [hphase]
  rw [List.filter_beq, hcount]
  rfl

theorem trace_inv (h : system.Trace past s) : s.Inv := by
  induction h with
  | start h =>
    obtain ⟨capacity, rfl⟩ := h
    exact fresh_inv capacity
  | step _ hstep ih => exact ih.step hstep

omit [LinearOrder T] in
theorem outstanding_cons : Outstanding (event :: past) i g ↔
    event = .issued i g ∨ (∀ due, event ≠ .retired i g due) ∧ Outstanding past i g := by
  constructor
  · rintro ⟨later, earlier, hsplit, hlater⟩
    cases later with
    | nil => exact Or.inl (List.cons.inj hsplit).1
    | cons first later =>
      obtain ⟨rfl, hpast⟩ := List.cons.inj hsplit
      exact Or.inr ⟨fun due heq => hlater due (heq ▸ List.mem_cons_self),
        later, earlier, hpast, fun due hmem => hlater due (List.mem_cons_of_mem _ hmem)⟩
  · rintro (rfl | ⟨hevent, later, earlier, rfl, hlater⟩)
    · exact ⟨[], past, rfl, fun _ => List.not_mem_nil⟩
    · refine ⟨event :: later, earlier, rfl, fun due hmem => ?_⟩
      rcases List.mem_cons.mp hmem with heq | hmem
      · exact hevent due heq.symm
      · exact hlater due hmem

omit [LinearOrder T] in
theorem pending_cons : Pending (event :: past) i due ↔
    (∃ g, event = .retired i g due) ∨
      (∀ now released, event = .collected now released → i ∉ released) ∧ Pending past i due := by
  constructor
  · rintro ⟨later, earlier, g, hsplit, hlater⟩
    cases later with
    | nil => exact Or.inl ⟨g, (List.cons.inj hsplit).1⟩
    | cons first later =>
      obtain ⟨rfl, hpast⟩ := List.cons.inj hsplit
      refine Or.inr ⟨fun now released heq => hlater now released (heq ▸ List.mem_cons_self),
        later, earlier, g, hpast, fun now released hmem =>
          hlater now released (List.mem_cons_of_mem _ hmem)⟩
  · rintro (⟨g, rfl⟩ | ⟨hevent, later, earlier, g, rfl, hlater⟩)
    · exact ⟨[], past, g, rfl, fun _ _ hmem => absurd hmem List.not_mem_nil⟩
    · refine ⟨event :: later, earlier, g, rfl, fun now released hmem => ?_⟩
      rcases List.mem_cons.mp hmem with heq | hmem
      · exact hevent now released heq.symm
      · exact hlater now released hmem

theorem alive_iff (h : system.Trace past s) :
    s.phase i = .alive ∧ s.generation i = g ↔ Outstanding past i g := by
  induction h with
  | start h =>
    obtain ⟨capacity, rfl⟩ := h
    exact iff_of_false (fun h => nomatch h.1) fun ⟨later, _, hsplit, _⟩ => by
      cases later <;> cases hsplit
  | @step past s t event htrace hstep ih =>
    have inv := trace_inv htrace
    rw [outstanding_cons, ← ih]
    cases hstep with
    | idle => simp
    | @issue j rest hfree =>
      have hphase := inv.issued_free (.issue hfree)
      by_cases hij : i = j
      · subst hij
        simp [DeferredSlots.issue, hphase]
      · simp [DeferredSlots.issue, hij, Ne.symm hij]
    | @retire j due halive =>
      by_cases hij : i = j
      · subst hij
        simp [DeferredSlots.retire, halive]
      · simp [DeferredSlots.retire, hij, Ne.symm hij]
    | @collect now =>
      by_cases hdue : i ∈ s.due now
      · obtain ⟨due, hphase, -⟩ := (mem_due inv).mp hdue
        simp [release, hdue, hphase]
      · simp [release, hdue]

theorem pending_iff (h : system.Trace past s) :
    s.phase i = .retiring due ↔ Pending past i due := by
  induction h with
  | start h =>
    obtain ⟨capacity, rfl⟩ := h
    exact iff_of_false nofun fun ⟨later, _, _, hsplit, _⟩ => by cases later <;> cases hsplit
  | @step past s t event htrace hstep ih =>
    have inv := trace_inv htrace
    rw [pending_cons, ← ih]
    cases hstep with
    | idle => simp
    | @issue j rest hfree =>
      have hphase := inv.issued_free (.issue hfree)
      by_cases hij : i = j
      · subst hij
        simp [DeferredSlots.issue, hphase]
      · simp [DeferredSlots.issue, hij]
    | @retire j due' halive =>
      by_cases hij : i = j
      · subst hij
        simp [DeferredSlots.retire, halive]
      · simp [DeferredSlots.retire, hij, Ne.symm hij]
    | @collect now =>
      by_cases hdue : i ∈ s.due now
      · simp [release, hdue]
      · simp [release, hdue]

theorem generation_eq (h : system.Trace past s) (i : Nat) :
    s.generation i = past.countP (DeferredEvent.releases i) + 1 := by
  induction h with
  | start h =>
    obtain ⟨capacity, rfl⟩ := h
    rfl
  | @step past s t event htrace hstep ih =>
    rw [List.countP_cons]
    cases hstep with
    | idle => exact ih
    | issue hfree => exact ih
    | retire halive => exact ih
    | @collect now =>
      simp only [release, DeferredEvent.releases, decide_eq_true_eq]
      split <;> omega

theorem issued_generation (h : system.Trace past s) (hissued : .issued i g ∈ past) :
    g < s.generation i ∨ g = s.generation i ∧ s.phase i ≠ .free := by
  induction h with
  | start _ => cases hissued
  | @step past s t event htrace hstep ih =>
    have inv := trace_inv htrace
    cases hstep with
    | idle =>
      obtain hnever | hpast := List.mem_cons.mp hissued
      · cases hnever
      · exact ih hpast
    | @issue j rest hfree =>
      have hphase := inv.issued_free (.issue hfree)
      obtain hnow | hpast := List.mem_cons.mp hissued
      · cases hnow
        exact Or.inr ⟨rfl, by simp [DeferredSlots.issue]⟩
      · rcases ih hpast with hlt | ⟨rfl, hused⟩
        · exact Or.inl hlt
        · have hij : i ≠ j := by
            rintro rfl
            exact hused hphase
          exact Or.inr ⟨rfl, by simpa [DeferredSlots.issue, hij] using hused⟩
    | @retire j due halive =>
      obtain hnever | hpast := List.mem_cons.mp hissued
      · cases hnever
      · rcases ih hpast with hlt | ⟨rfl, hused⟩
        · exact Or.inl hlt
        · refine Or.inr ⟨rfl, ?_⟩
          by_cases hij : i = j
          · simp [DeferredSlots.retire, hij]
          · simpa [DeferredSlots.retire, hij] using hused
    | @collect now =>
      obtain hnever | hpast := List.mem_cons.mp hissued
      · cases hnever
      · by_cases hdue : i ∈ s.due now
        · left
          simp only [release, if_pos hdue]
          rcases ih hpast with hlt | ⟨rfl, -⟩
          · exact Nat.lt_succ_of_lt hlt
          · exact Nat.lt_succ_self _
        · simpa [release, hdue] using ih hpast

theorem issued_once (h : system.Trace (.issued i g :: past) s) : .issued i g ∉ past := by
  intro hissued
  cases h with
  | step htrace hstep =>
    cases hstep with
    | issue hfree =>
      rcases issued_generation htrace hissued with hlt | ⟨-, hused⟩
      · exact Nat.lt_irrefl _ hlt
      · exact hused ((trace_inv htrace).issued_free (.issue hfree))

theorem releases_eq (h : system.Trace past s) (i : Nat) :
    past.countP (DeferredEvent.releases i) + (s.phase i).isRetiring.toNat =
      past.countP (DeferredEvent.retires i) := by
  induction h with
  | start h =>
    obtain ⟨capacity, rfl⟩ := h
    rfl
  | @step past s t event htrace hstep ih =>
    have inv := trace_inv htrace
    rw [List.countP_cons, List.countP_cons, ← ih]
    cases hstep with
    | idle => rfl
    | @issue j rest hfree =>
      have hphase := inv.issued_free (.issue hfree)
      by_cases hij : i = j
      · subst hij
        simp [DeferredSlots.issue, hphase, DeferredEvent.releases, DeferredEvent.retires,
          SlotPhase.isRetiring]
      · simp [DeferredSlots.issue, hij, DeferredEvent.releases, DeferredEvent.retires]
    | @retire j due halive =>
      by_cases hij : i = j
      · subst hij
        simp [DeferredSlots.retire, halive, DeferredEvent.releases, DeferredEvent.retires,
          SlotPhase.isRetiring]
      · simp [DeferredSlots.retire, hij, Ne.symm hij, DeferredEvent.releases,
          DeferredEvent.retires]
    | @collect now =>
      by_cases hdue : i ∈ s.due now
      · obtain ⟨due, hphase, -⟩ := (mem_due inv).mp hdue
        simp [release, hdue, hphase, DeferredEvent.releases, DeferredEvent.retires,
          SlotPhase.isRetiring]
      · simp [release, hdue, DeferredEvent.releases, DeferredEvent.retires]

theorem reuse_deferred (h : system.Trace (later ++ .retired i g due :: past) s) :
    s.phase i = .retiring due ∨
      ∃ now released, .collected now released ∈ later ∧ i ∈ released ∧ due ≤ now := by
  induction later generalizing s with
  | nil =>
    cases h with
    | step htrace hstep =>
      cases hstep with
      | retire halive => exact Or.inl (Function.update_self _ _ _)
  | cons event later ih =>
    cases h with
    | @step _ u _ _ htrace hstep =>
      rcases ih htrace with hphase | ⟨now, released, hmem, hin, hdue⟩
      · have inv := trace_inv htrace
        cases hstep with
        | idle => exact Or.inl hphase
        | @issue j rest hfree =>
          have hne : i ≠ j := by
            rintro rfl
            cases hphase.symm.trans ((inv.mem_free i).mp (hfree ▸ List.mem_cons_self)).2
          exact Or.inl ((Function.update_of_ne hne _ _).trans hphase)
        | @retire j due' halive =>
          have hne : i ≠ j := by
            rintro rfl
            cases hphase.symm.trans halive
          exact Or.inl ((Function.update_of_ne hne _ _).trans hphase)
        | @collect now =>
          by_cases hin : i ∈ u.due now
          · obtain ⟨due', hphase', hle⟩ := (mem_due inv).mp hin
            cases hphase.symm.trans hphase'
            exact Or.inr ⟨now, _, List.mem_cons_self, hin, hle⟩
          · exact Or.inl ((if_neg hin).trans hphase)
      · exact Or.inr ⟨now, released, List.mem_cons_of_mem _ hmem, hin, hdue⟩

end DeferredSlots

end
