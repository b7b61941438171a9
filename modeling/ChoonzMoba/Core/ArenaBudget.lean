import ChoonzMoba.Core.ArenaKeeps
import ChoonzMoba.Library.Loop

namespace ChoonzMoba

def pushAll (arena : Arena) (blocks : List (Nat × Nat)) : Option Arena :=
  Loop.forEachM blocks (fun arena block => (arenaPush arena block.1 block.2).map Prod.fst) arena

def blocksNeed (blocks : List (Nat × Nat)) : Nat :=
  (blocks.map fun block => (block.2 - 1) + block.1).sum

def PowerAligned (blocks : List (Nat × Nat)) : Prop := ∀ block ∈ blocks, ∃ k, block.2 = 2 ^ k

theorem blocksNeed_cons (block : Nat × Nat) (blocks : List (Nat × Nat)) :
    blocksNeed (block :: blocks) = (block.2 - 1) + block.1 + blocksNeed blocks := rfl

theorem blocksNeed_perm {blocks blocks' : List (Nat × Nat)} (h : blocks.Perm blocks') :
    blocksNeed blocks = blocksNeed blocks' :=
  (h.map _).sum_nat

structure Arena.Backed (a : Arena) : Prop where
  wf : a.Wf
  commits : a.CommitSucceeds

structure Arena.Spent (a b : Arena) (need : Nat) : Prop where
  backed : b.Backed
  backing : a.SameBacking b
  offset_le : b.offset ≤ a.offset + need

theorem Arena.Backed.spent {a : Arena} (h : a.Backed) : a.Spent a 0 :=
  ⟨h, ⟨rfl, rfl, rfl, rfl⟩, Nat.le_refl _⟩

theorem Arena.Spent.trans {a b c : Arena} {m n : Nat} (hab : a.Spent b m) (hbc : b.Spent c n) :
    a.Spent c (m + n) := by
  refine ⟨hbc.backed, hab.backing.trans hbc.backing, ?_⟩
  have := hab.offset_le
  have := hbc.offset_le
  omega

theorem pushAll_ok {blocks : List (Nat × Nat)} (halign : PowerAligned blocks) {a : Arena}
    (ha : a.Backed) (hroom : a.offset + blocksNeed blocks ≤ a.reserved) :
    ∃ b, pushAll a blocks = some b ∧ a.Spent b (blocksNeed blocks) := by
  induction blocks generalizing a with
  | nil => exact ⟨a, rfl, ha.spent⟩
  | cons block blocks ih =>
    obtain ⟨k, hk⟩ := halign block (by simp)
    rw [blocksNeed_cons, hk] at hroom ⊢
    obtain ⟨b, address, hpush, hwf, hcommit, hback, hoff⟩ := arenaPush_ok ha.wf ha.commits block.1
      (k := k) (by omega)
    obtain ⟨c, hc, hspent⟩ := ih (fun x hx => halign x (by simp [hx])) (a := b) ⟨hwf, hcommit⟩
      (by rw [hback.reserved]; omega)
    refine ⟨c, ?_, Arena.Spent.trans ⟨⟨hwf, hcommit⟩, hback, by omega⟩ hspent⟩
    simp only [pushAll, Loop.forEachM_cons, hk, hpush, Option.map_some, Option.bind_some]
    exact hc

end ChoonzMoba
