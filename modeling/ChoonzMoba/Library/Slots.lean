import ChoonzMoba.Library.System
import Mathlib.Logic.Function.Basic
import Mathlib.Data.List.Basic
import Mathlib.Data.List.Nodup
import Mathlib.Data.Nat.ModEq
import Mathlib.Tactic.Common

inductive SlotEvent where
  | issued (index generation : Nat)
  | retired (index : Nat)
  | idle
deriving DecidableEq

@[ext]
structure Slots where
  fresh : Nat
  generation : Nat → Nat
  live : Nat → Bool
  free : List Nat

namespace Slots

def empty : Slots where
  fresh := 0
  generation := fun _ => 0
  live := fun _ => false
  free := []

def Alive (s : Slots) (i g : Nat) : Prop := s.live i = true ∧ s.generation i = g

-- a freed slot is reissued at its own generation; a new slot starts at generation one; a retired
-- slot moves to the next of `limit` generations
inductive Step (limit : Nat) (s : Slots) : SlotEvent → Slots → Prop
  | idle : Step limit s .idle s
  | recycle {i : Nat} {rest : List Nat} : s.free = i :: rest →
      Step limit s (.issued i (s.generation i))
        { s with live := Function.update s.live i true, free := rest }
  | fresh : s.free = [] →
      Step limit s (.issued s.fresh 1)
        { s with
          fresh := s.fresh + 1
          generation := Function.update s.generation s.fresh 1
          live := Function.update s.live s.fresh true }
  | retire {i : Nat} : s.live i = true →
      Step limit s (.retired i)
        { s with
          generation := Function.update s.generation i (s.generation i % limit + 1)
          live := Function.update s.live i false
          free := i :: s.free }

def system (limit : Nat) : System Slots SlotEvent where
  initial s := s = empty
  next := Step limit

def retirements (i : Nat) (past : List SlotEvent) : Nat := past.count (.retired i)

def reusable : List SlotEvent → List Nat
  | [] => []
  | .issued i _ :: past => (reusable past).erase i
  | .retired i :: past => i :: reusable past
  | .idle :: past => reusable past

structure Inv (s : Slots) : Prop where
  unissued : ∀ i, s.fresh ≤ i → s.live i = false
  nodup : s.free.Nodup
  mem_free : ∀ i, i ∈ s.free ↔ i < s.fresh ∧ s.live i = false

structure History (limit : Nat) (past : List SlotEvent) (s : Slots) : Prop where
  generation : ∀ i < s.fresh, s.generation i = retirements i past % limit + 1
  unissued : ∀ i, s.fresh ≤ i → retirements i past = 0
  issued : ∀ i g later earlier, past = later ++ .issued i g :: earlier →
    i < s.fresh ∧ g = retirements i earlier % limit + 1
  alive : ∀ i, s.live i = true → .issued i (s.generation i) ∈ past
  free : s.free = reusable past

variable {limit : Nat} {s t : Slots} {past later earlier : List SlotEvent} {event : SlotEvent}
  {i g : Nat}

theorem empty_inv : empty.Inv where
  unissued := fun _ _ => rfl
  nodup := List.nodup_nil
  mem_free := by simp [empty]

theorem Inv.lt_fresh (inv : s.Inv) (hlive : s.live i = true) : i < s.fresh := by
  by_contra hge
  have hdead := inv.unissued i (Nat.le_of_not_lt hge)
  rw [hlive] at hdead
  cases hdead

theorem Inv.step (inv : s.Inv) (h : Step limit s event t) : t.Inv := by
  cases h with
  | idle => exact inv
  | @recycle i rest hfree =>
    have hin := (inv.mem_free i).mp (by rw [hfree]; exact List.mem_cons_self)
    have hnodup := inv.nodup
    rw [hfree, List.nodup_cons] at hnodup
    refine ⟨fun j hj => ?_, hnodup.2, fun j => ?_⟩
    · have hne : j ≠ i := Nat.ne_of_gt (Nat.lt_of_lt_of_le hin.1 hj)
      simpa only [Function.update_of_ne hne] using inv.unissued j hj
    · have hmem := inv.mem_free j
      rw [hfree, List.mem_cons] at hmem
      by_cases hne : j = i
      · subst hne
        simp [hnodup.1]
      · simpa [hne] using hmem
  | fresh hfree =>
    refine ⟨fun j hj => ?_, inv.nodup, fun j => ?_⟩
    · have hne : j ≠ s.fresh := Nat.ne_of_gt hj
      simpa only [Function.update_of_ne hne] using inv.unissued j (Nat.le_of_succ_le hj)
    · refine (inv.mem_free j).trans ?_
      by_cases hne : j = s.fresh
      · subst hne
        simp
      · simp only [Function.update_of_ne hne]
        exact and_congr_left fun _ => ⟨Nat.lt_succ_of_lt, fun h => by omega⟩
  | @retire i hlive =>
    have hlt := inv.lt_fresh hlive
    refine ⟨fun j hj => ?_, List.nodup_cons.mpr ⟨fun hmem => ?_, inv.nodup⟩, fun j => ?_⟩
    · have hne : j ≠ i := Nat.ne_of_gt (Nat.lt_of_lt_of_le hlt hj)
      simpa only [Function.update_of_ne hne] using inv.unissued j hj
    · have hdead := ((inv.mem_free i).mp hmem).2
      rw [hlive] at hdead
      cases hdead
    · rw [List.mem_cons, inv.mem_free j]
      by_cases hne : j = i
      · subst hne
        simp [hlt]
      · simp [hne]

theorem Inv.step_issued (inv : s.Inv) (h : Step limit s (.issued i g) t) :
    s.live i = false ∧ t.live i = true ∧ ∀ j rest, s.free = j :: rest → i = j := by
  cases h with
  | @recycle _ rest hfree =>
    have hin := (inv.mem_free i).mp (by rw [hfree]; exact List.mem_cons_self)
    refine ⟨hin.2, Function.update_self _ _ _, fun j others hj => ?_⟩
    rw [hfree] at hj
    exact (List.cons.inj hj).1
  | fresh hfree =>
    refine ⟨inv.unissued _ (Nat.le_refl _), Function.update_self _ _ _, fun j others hj => ?_⟩
    rw [hfree] at hj
    cases hj

def liveSlots (s : Slots) : List Nat := (List.range s.fresh).filter s.live

theorem Inv.mem_liveSlots (inv : s.Inv) : i ∈ s.liveSlots ↔ s.live i = true := by
  rw [liveSlots, List.mem_filter, List.mem_range]
  exact and_iff_right_of_imp inv.lt_fresh

theorem Inv.live_add_free (inv : s.Inv) : s.liveSlots.length + s.free.length = s.fresh := by
  have hdead : s.free.Perm ((List.range s.fresh).filter fun i => !s.live i) := by
    rw [List.perm_ext_iff_of_nodup inv.nodup (List.nodup_range.filter _)]
    intro i
    rw [inv.mem_free i, List.mem_filter, List.mem_range, Bool.not_eq_true']
  rw [liveSlots, hdead.length_eq, ← List.length_eq_length_filter_add, List.length_range]

theorem retirements_cons (event : SlotEvent) (past : List SlotEvent) (i : Nat) :
    retirements i (event :: past) = retirements i past + if event = .retired i then 1 else 0 := by
  rw [retirements, List.count_cons]
  simp [retirements]

theorem retirements_other (past : List SlotEvent) (h : event ≠ .retired i) :
    retirements i (event :: past) = retirements i past := by
  rw [retirements_cons, if_neg h, Nat.add_zero]

theorem retirements_append (later earlier : List SlotEvent) (i : Nat) :
    retirements i (later ++ earlier) = retirements i later + retirements i earlier :=
  List.count_append

theorem empty_history : History limit [] empty where
  generation := fun i hi => absurd hi (Nat.not_lt_zero i)
  unissued := fun _ _ => rfl
  issued := by simp
  alive := fun i h => by simp [empty] at h
  free := rfl

private theorem History.issued_cons (h : History limit past s) (hfresh : s.fresh ≤ t.fresh)
    (hevent : ∀ i g, event = .issued i g → i < t.fresh ∧ g = retirements i past % limit + 1) :
    ∀ i g later earlier, event :: past = later ++ .issued i g :: earlier →
      i < t.fresh ∧ g = retirements i earlier % limit + 1 := by
  intro i g later earlier hsplit
  cases later with
  | nil =>
    obtain ⟨rfl, rfl⟩ := List.cons.inj hsplit
    exact hevent i g rfl
  | cons first later =>
    have hold := h.issued i g later earlier (List.cons.inj hsplit).2
    exact ⟨Nat.lt_of_lt_of_le hold.1 hfresh, hold.2⟩

theorem History.idle (h : History limit past s) : History limit (.idle :: past) s where
  generation i hi := by
    rw [retirements_other _ (by simp)]
    exact h.generation i hi
  unissued i hi := by
    rw [retirements_other _ (by simp)]
    exact h.unissued i hi
  issued := h.issued_cons (Nat.le_refl _) fun _ _ heq => by cases heq
  alive i hi := List.mem_cons_of_mem _ (h.alive i hi)
  free := h.free

theorem History.recycled (h : History limit past s) (inv : s.Inv) {rest : List Nat}
    (hfree : s.free = i :: rest) : History limit (.issued i (s.generation i) :: past)
      { s with live := Function.update s.live i true, free := rest } where
  generation j hj := by
    rw [retirements_other _ (by simp)]
    exact h.generation j hj
  unissued j hj := by
    rw [retirements_other _ (by simp)]
    exact h.unissued j hj
  issued := by
    have hin := (inv.mem_free i).mp (hfree ▸ List.mem_cons_self)
    refine h.issued_cons (Nat.le_refl _) fun j g heq => ?_
    cases heq
    exact ⟨hin.1, h.generation i hin.1⟩
  alive j hj := by
    by_cases hne : j = i
    · rw [hne]
      exact List.mem_cons_self
    · simp only [Function.update_of_ne hne] at hj
      exact List.mem_cons_of_mem _ (h.alive j hj)
  free := by rw [reusable, ← h.free, hfree, List.erase_cons_head]

theorem History.extended (h : History limit past s) (hfree : s.free = []) :
    History limit (.issued s.fresh 1 :: past)
      { s with
        fresh := s.fresh + 1
        generation := Function.update s.generation s.fresh 1
        live := Function.update s.live s.fresh true } where
  generation j hj := by
    have hnone := h.unissued s.fresh (Nat.le_refl _)
    rw [retirements_other _ (by simp)]
    by_cases hne : j = s.fresh
    · subst hne
      simp [hnone]
    · simp only [Function.update_of_ne hne]
      exact h.generation j (Nat.lt_of_le_of_ne (Nat.le_of_lt_succ hj) hne)
  unissued j hj := by
    rw [retirements_other _ (by simp)]
    exact h.unissued j (Nat.le_of_succ_le hj)
  issued := by
    have hnone := h.unissued s.fresh (Nat.le_refl _)
    refine h.issued_cons (Nat.le_succ _) fun j g heq => ?_
    cases heq
    exact ⟨Nat.lt_succ_self _, by simp [hnone]⟩
  alive j hj := by
    by_cases hne : j = s.fresh
    · subst hne
      simp
    · simp only [Function.update_of_ne hne] at hj ⊢
      exact List.mem_cons_of_mem _ (h.alive j hj)
  free := by
    rw [reusable, ← h.free, hfree]
    rfl

theorem History.retired (h : History limit past s) (inv : s.Inv) (hlive : s.live i = true) :
    History limit (.retired i :: past)
      { s with
        generation := Function.update s.generation i (s.generation i % limit + 1)
        live := Function.update s.live i false
        free := i :: s.free } where
  generation j hj := by
    by_cases hne : j = i
    · subst hne
      simp only [Function.update_self, h.generation j hj]
      rw [retirements_cons, if_pos rfl, Nat.mod_add_mod]
    · simp only [Function.update_of_ne hne]
      rw [retirements_other _ (by simpa using Ne.symm hne)]
      exact h.generation j hj
  unissued j hj := by
    have hne : j ≠ i := Nat.ne_of_gt (Nat.lt_of_lt_of_le (inv.lt_fresh hlive) hj)
    rw [retirements_other _ (by simpa using Ne.symm hne)]
    exact h.unissued j hj
  issued := h.issued_cons (Nat.le_refl _) fun _ _ heq => by cases heq
  alive j hj := by
    by_cases hne : j = i
    · subst hne
      simp at hj
    · simp only [Function.update_of_ne hne] at hj ⊢
      exact List.mem_cons_of_mem _ (h.alive j hj)
  free := by rw [reusable, ← h.free]

theorem History.step (h : History limit past s) (inv : s.Inv) (hstep : Step limit s event t) :
    History limit (event :: past) t := by
  cases hstep with
  | idle => exact h.idle
  | recycle hfree => exact h.recycled inv hfree
  | fresh hfree => exact h.extended hfree
  | retire hlive => exact h.retired inv hlive

theorem trace_inv (h : (system limit).Trace past s) : s.Inv := by
  induction h with
  | start h =>
    subst h
    exact empty_inv
  | step _ hstep ih => exact ih.step hstep

theorem trace_history (h : (system limit).Trace past s) : History limit past s := by
  induction h with
  | start h =>
    subst h
    exact empty_history
  | step hpast hstep ih => exact ih.step (trace_inv hpast) hstep

theorem History.alive_iff (h : History limit (later ++ .issued i g :: earlier) s) :
    s.Alive i g ↔ s.live i = true ∧ limit ∣ retirements i later := by
  have hissued := h.issued i g later earlier rfl
  refine and_congr_right fun _ => ?_
  rw [h.generation i hissued.1, hissued.2, retirements_append, retirements_other _ (by simp),
    Nat.add_right_cancel_iff, Nat.add_comm]
  exact Nat.add_modEq_left_iff

theorem History.issued_of_alive (h : History limit past s) (halive : s.Alive i g) :
    .issued i g ∈ past := by
  have hmem := h.alive i halive.1
  rwa [halive.2] at hmem

end Slots
