import Mathlib.Algebra.Group.Nat.Defs
import Mathlib.Data.List.Basic
import Mathlib.Tactic.Common

namespace Blocks

variable {α : Type} {width : Nat}

def cut (width : Nat) : Nat → List α → List (List α)
  | 0, _ => []
  | n + 1, as => as.take width :: cut width n (as.drop width)

@[simp] theorem cut_length (width n : Nat) (as : List α) : (cut width n as).length = n := by
  induction n generalizing as with
  | zero => rfl
  | succ n ih => rw [cut, List.length_cons, ih]

theorem length_of_mem_cut {n : Nat} {as block : List α} (h : n * width ≤ as.length)
    (hblock : block ∈ cut width n as) : block.length = width := by
  induction n generalizing as with
  | zero => cases hblock
  | succ n ih =>
    rw [Nat.succ_mul] at h
    rcases List.mem_cons.mp hblock with rfl | hblock
    · rw [List.length_take]
      omega
    · refine ih ?_ hblock
      rw [List.length_drop]
      omega

theorem flatten_cut (n : Nat) (as : List α) : (cut width n as).flatten = as.take (n * width) := by
  induction n generalizing as with
  | zero => rw [Nat.zero_mul]; rfl
  | succ n ih =>
    rw [cut, List.flatten_cons, ih, Nat.succ_mul, Nat.add_comm, List.take_add]

theorem flatten_length {blocks : List (List α)} (h : ∀ block ∈ blocks, block.length = width) :
    blocks.flatten.length = blocks.length * width := by
  induction blocks with
  | nil => rw [List.length_nil, Nat.zero_mul]; rfl
  | cons block blocks ih =>
    obtain ⟨hblock, hblocks⟩ := List.forall_mem_cons.mp h
    rw [List.flatten_cons, List.length_append, hblock, ih hblocks, List.length_cons, Nat.succ_mul,
      Nat.add_comm]

theorem window {blocks : List (List α)} (h : ∀ block ∈ blocks, block.length = width)
    (rest : List α) {i : Nat} (hi : i < blocks.length) :
    ((blocks.flatten ++ rest).drop (i * width)).take width = blocks[i] := by
  induction blocks generalizing i with
  | nil => cases hi
  | cons block blocks ih =>
    obtain ⟨hblock, hblocks⟩ := List.forall_mem_cons.mp h
    rw [List.flatten_cons, List.append_assoc]
    cases i with
    | zero => rw [Nat.zero_mul, List.drop_zero, List.take_left' hblock]; rfl
    | succ i =>
      rw [Nat.succ_mul, Nat.add_comm, ← List.drop_drop, List.drop_left' hblock]
      exact ih hblocks (Nat.lt_of_succ_lt_succ hi)

end Blocks
