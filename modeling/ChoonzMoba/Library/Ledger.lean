import Mathlib.Algebra.BigOperators.Group.Finset.Basic
import Mathlib.Data.Multiset.UnionInter
import Mathlib.Logic.Function.Basic
import Mathlib.Tactic.Abel
import Mathlib.Tactic.Common

/-- Objects of several kinds, numbered in the order of their creation; zero is no object. -/
structure Ledger (Kind : Type) where
  issued : Nat
  live : Multiset (Kind × Nat)
  misused : Bool

def ownedBy {Kind : Type} (kind : Kind) (handle : Nat) : Multiset (Kind × Nat) :=
  if handle = 0 then 0 else {(kind, handle)}

def heldBy {α : Type} (n : Nat) (f : Nat → Multiset α) : Multiset α := ∑ i ∈ Finset.range n, f i

def heldByOthers {α : Type} (n : Nat) (f : Nat → Multiset α) (i : Nat) : Multiset α :=
  ∑ j ∈ (Finset.range n).erase i, f j

section

variable {α : Type} {n i j : Nat} {f g : Nat → Multiset α} {x : α} {s : Multiset α}

theorem heldBy_split (hi : i < n) : heldBy n f = f i + heldByOthers n f i :=
  (Finset.add_sum_erase _ _ (Finset.mem_range.mpr hi)).symm

theorem heldByOthers_congr (h : ∀ j, j < n → j ≠ i → g j = f j) :
    heldByOthers n g i = heldByOthers n f i := by
  refine Finset.sum_congr rfl fun j hj => ?_
  obtain ⟨hne, hlt⟩ := Finset.mem_erase.mp hj
  exact h j (Finset.mem_range.mp hlt) hne

theorem heldBy_congr (h : ∀ j, j < n → g j = f j) : heldBy n g = heldBy n f :=
  Finset.sum_congr rfl fun j hj => h j (Finset.mem_range.mp hj)

theorem heldBy_update {β : Type} (own : β → Multiset α) (holders : Nat → β) (hi : i < n)
    (holder : β) : heldBy n (fun j => own (Function.update holders i holder j)) =
      own holder + heldByOthers n (fun j => own (holders j)) i := by
  rw [heldBy_split hi, Function.update_self]
  refine congrArg _ (heldByOthers_congr fun j _ hne => ?_)
  rw [Function.update_of_ne hne]

theorem mem_heldBy : x ∈ heldBy n f ↔ ∃ i < n, x ∈ f i := by
  rw [heldBy, Multiset.mem_sum]
  simp only [Finset.mem_range]

theorem mem_heldByOthers : x ∈ heldByOthers n f i ↔ ∃ j < n, j ≠ i ∧ x ∈ f j := by
  rw [heldByOthers, Multiset.mem_sum]
  simp only [Finset.mem_erase, Finset.mem_range]
  exact ⟨fun ⟨j, ⟨hne, hlt⟩, hx⟩ => ⟨j, hlt, hne, hx⟩, fun ⟨j, hlt, hne, hx⟩ => ⟨j, ⟨hne, hlt⟩, hx⟩⟩

theorem heldBy_zero (h : ∀ i, i < n → f i = 0) : heldBy n f = 0 :=
  Finset.sum_eq_zero fun i hi => h i (Finset.mem_range.mp hi)

theorem heldBy_succ : heldBy (n + 1) f = f n + heldBy n f := by
  rw [heldBy, Finset.sum_range_succ, add_comm]
  rfl

end

namespace Ledger

variable {Kind : Type} [DecidableEq Kind]

def empty : Ledger Kind := ⟨0, 0, false⟩

def create (l : Ledger Kind) (kind : Kind) : Ledger Kind :=
  { l with issued := l.issued + 1, live := (kind, l.issued + 1) ::ₘ l.live }

def destroy (l : Ledger Kind) (busy : Kind × Nat → Bool) (kind : Kind) (handle : Nat) :
    Ledger Kind :=
  if (kind, handle) ∈ l.live ∧ ¬ busy (kind, handle) then
    { l with live := l.live.erase (kind, handle) }
  else { l with misused := true }

structure Owns (l : Ledger Kind) (held : Multiset (Kind × Nat)) : Prop where
  sound : l.misused = false
  live : l.live = held
  nodup : held.Nodup
  issued : ∀ x ∈ held, 0 < x.2 ∧ x.2 ≤ l.issued

variable {l : Ledger Kind} {held : Multiset (Kind × Nat)} {kind : Kind} {handle : Nat}
  {busy : Kind × Nat → Bool}

omit [DecidableEq Kind] in
@[simp] theorem ownedBy_zero : ownedBy kind 0 = 0 := if_pos rfl

omit [DecidableEq Kind] in
theorem ownedBy_pos (h : handle ≠ 0) : ownedBy kind handle = {(kind, handle)} := if_neg h

omit [DecidableEq Kind] in
theorem mem_ownedBy (h : handle ≠ 0) : (kind, handle) ∈ ownedBy kind handle := by
  rw [ownedBy_pos h]
  exact Multiset.mem_singleton_self _

omit [DecidableEq Kind] in
theorem mem_ownedBy_iff {x : Kind × Nat} :
    x ∈ ownedBy kind handle ↔ handle ≠ 0 ∧ x = (kind, handle) := by
  rw [ownedBy]
  split
  · next hzero => exact ⟨fun h => absurd h (Multiset.notMem_zero _), fun h => absurd hzero h.1⟩
  · next hne =>
    exact ⟨fun h => ⟨hne, Multiset.mem_singleton.mp h⟩,
      fun h => h.2 ▸ Multiset.mem_singleton_self _⟩

omit [DecidableEq Kind] in
theorem Owns.empty : (empty : Ledger Kind).Owns 0 :=
  ⟨rfl, rfl, Multiset.nodup_zero, fun _ hx => absurd hx (Multiset.notMem_zero _)⟩

omit [DecidableEq Kind] in
theorem Owns.create (h : l.Owns held) :
    (l.create kind).Owns (ownedBy kind (l.issued + 1) + held) := by
  rw [ownedBy_pos (Nat.succ_ne_zero _), Multiset.singleton_add]
  refine ⟨h.sound, congrArg _ h.live, Multiset.nodup_cons.mpr ⟨fun hmem => ?_, h.nodup⟩,
    fun x hx => ?_⟩
  · exact Nat.not_succ_le_self _ (h.issued _ hmem).2
  · rcases Multiset.mem_cons.mp hx with rfl | hx
    · exact ⟨Nat.succ_pos _, Nat.le_refl _⟩
    · exact ⟨(h.issued x hx).1, Nat.le_succ_of_le (h.issued x hx).2⟩

omit [DecidableEq Kind] in
theorem Owns.not_held (h : l.Owns (ownedBy kind handle + held)) (hne : handle ≠ 0) :
    (kind, handle) ∉ held := by
  have hnodup := h.nodup
  rw [ownedBy_pos hne, Multiset.singleton_add, Multiset.nodup_cons] at hnodup
  exact hnodup.1

theorem destroy_issued (l : Ledger Kind) (busy : Kind × Nat → Bool) (kind : Kind) (handle : Nat) :
    (l.destroy busy kind handle).issued = l.issued := by
  rw [Ledger.destroy]
  split <;> rfl

theorem Owns.destroy (h : l.Owns (ownedBy kind handle + held)) (hne : handle ≠ 0)
    (hbusy : busy (kind, handle) = false) : (l.destroy busy kind handle).Owns held := by
  have hnot := h.not_held hne
  obtain ⟨hsound, hlive, hnodup, hissued⟩ := h
  rw [ownedBy_pos hne, Multiset.singleton_add] at hlive hnodup hissued
  have hmem : (kind, handle) ∈ l.live := by
    rw [hlive]
    exact Multiset.mem_cons_self _ _
  rw [Ledger.destroy, if_pos ⟨hmem, by rw [hbusy]; exact Bool.false_ne_true⟩]
  refine ⟨hsound, ?_, (Multiset.nodup_cons.mp hnodup).2, fun x hx =>
    hissued x (Multiset.mem_cons_of_mem hx)⟩
  show l.live.erase (kind, handle) = held
  rw [hlive, Multiset.erase_cons_head]

end Ledger
