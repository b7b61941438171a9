import Mathlib.Data.List.Basic
import Mathlib.Data.List.Nodup
import Mathlib.Logic.Function.Basic
import Mathlib.Tactic.Common

def Chain {κ : Type} (next : κ → κ) (null : κ) : κ → List κ → Prop
  | head, [] => head = null
  | head, node :: nodes => head = node ∧ node ≠ null ∧ Chain next null (next node) nodes

namespace Chain

variable {κ : Type} {next next' : κ → κ} {null head node : κ} {nodes : List κ}

theorem head_cons (h : Chain next null head nodes) (hne : head ≠ null) :
    ∃ rest, nodes = head :: rest ∧ Chain next null (next head) rest := by
  cases nodes with
  | nil => exact absurd h hne
  | cons node nodes =>
    obtain ⟨rfl, -, hrest⟩ := h
    exact ⟨nodes, rfl, hrest⟩

theorem congr (h : Chain next null head nodes) (heq : ∀ node ∈ nodes, next' node = next node) :
    Chain next' null head nodes := by
  induction nodes generalizing head with
  | nil => exact h
  | cons node nodes ih =>
    rw [List.forall_mem_cons] at heq
    refine ⟨h.1, h.2.1, ?_⟩
    rw [heq.1]
    exact ih h.2.2 heq.2

theorem update [DecidableEq κ] (h : Chain next null head nodes) (hnode : node ∉ nodes) (link : κ) :
    Chain (Function.update next node link) null head nodes :=
  h.congr fun _ hn => Function.update_of_ne (ne_of_mem_of_not_mem hn hnode) _ _

theorem push [DecidableEq κ] (h : Chain next null head nodes) (hnode : node ∉ nodes)
    (hne : node ≠ null) : Chain (Function.update next node head) null node (node :: nodes) := by
  refine ⟨rfl, hne, ?_⟩
  rw [Function.update_self]
  exact h.update hnode head

theorem range' {next : Nat → Nat} {null start count : Nat} (hnull : start + count ≤ null)
    (hlink : ∀ i, start ≤ i → i + 1 < start + count → next i = i + 1)
    (hlast : 0 < count → next (start + count - 1) = null) :
    Chain next null (if count = 0 then null else start) (List.range' start count) := by
  induction count generalizing start with
  | zero => rfl
  | succ count ih =>
    rw [if_neg (Nat.succ_ne_zero count), List.range'_succ]
    refine ⟨rfl, by omega, ?_⟩
    have hrest := @ih (start + 1) (by omega) (fun i hi hlt => hlink i (by omega) (by omega))
      fun _ => by
        have hlast := hlast (Nat.succ_pos count)
        rwa [show start + (count + 1) - 1 = start + 1 + count - 1 by omega] at hlast
    have hnext : next start = if count = 0 then null else start + 1 := by
      split
      · next hcount =>
        subst hcount
        exact hlast Nat.one_pos
      · exact hlink start (Nat.le_refl _) (by omega)
    rw [hnext]
    exact hrest

theorem range {next : Nat → Nat} {null count : Nat} (hcount : 0 < count) (hnull : count ≤ null)
    (hnext : ∀ i < count, next i = if i + 1 < count then i + 1 else null) :
    Chain next null 0 (List.range count) := by
  have hchain : Chain next null (if count = 0 then null else 0) (List.range' 0 count) :=
    range' (by omega) (fun i _ hi => by rw [hnext i (by omega), if_pos (by omega)])
      fun _ => by rw [hnext (0 + count - 1) (by omega), if_neg (by omega)]
  rw [if_neg (Nat.ne_of_gt hcount), ← List.range_eq_range'] at hchain
  exact hchain

end Chain
