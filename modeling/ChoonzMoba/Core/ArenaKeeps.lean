import ChoonzMoba.Core.Arena
import ChoonzMoba.Library.Outcome

namespace ChoonzMoba

structure Arena.Keeps (a b : Arena) : Prop where
  backing : a.SameBacking b
  wf : b.Wf
  commits : a.CommitSucceeds → b.CommitSucceeds

structure Arena.Pushed (a : Arena) (size : Nat) (b : Arena) (address : Nat) : Prop where
  keeps : a.Keeps b
  start : a.base + a.offset ≤ address
  stop : address + size = a.base + b.offset

variable {a b c : Arena} {size align address : Nat}

theorem Arena.Wf.keeps (wf : a.Wf) : a.Keeps a := ⟨⟨rfl, rfl, rfl, rfl⟩, wf, id⟩

theorem Arena.Keeps.trans (h : a.Keeps b) (h' : b.Keeps c) : a.Keeps c :=
  ⟨h.backing.trans h'.backing, h'.wf, fun hs => h'.commits (h.commits hs)⟩

theorem Arena.Keeps.rewind (h : a.Keeps b) {offset : Nat} (hoffset : offset ≤ b.offset) :
    a.Keeps { b with offset } :=
  ⟨⟨h.backing.base, h.backing.reserved, h.backing.commit, h.backing.commitGranularity⟩,
    ⟨h.wf.base_ne, Nat.le_trans hoffset h.wf.offset_le, h.wf.committed_le, h.wf.address⟩,
    h.commits⟩

theorem Arena.SameBacking.commitSucceeds (h : a.SameBacking b) (hold : a.committed ≤ b.committed)
    (hle : b.committed ≤ b.reserved) (hs : a.CommitSucceeds) : b.CommitSucceeds := by
  rcases hs with hfull | ⟨hgranularity, commit, hcommit, hall⟩
  · left
    rw [h.reserved] at hle ⊢
    exact Nat.le_antisymm hle (hfull ▸ hold)
  · right
    rw [h.commitGranularity, h.reserved, h.commit]
    exact ⟨hgranularity, commit, hcommit, hall⟩

theorem Arena.pushed (h : arenaPush a size align = some (b, address)) : a.Pushed size b address := by
  obtain ⟨hbase, -, hstart, hstop, hbacking, hoffset, hcommitted, -, hold, haddress, -⟩ :=
    arenaPush_spec h
  refine ⟨⟨hbacking, ⟨?_, hoffset, hcommitted, ?_⟩, ?_⟩, hstart, hstop⟩
  · rwa [hbacking.base]
  · rwa [hbacking.base, hbacking.reserved]
  · exact hbacking.commitSucceeds hold hcommitted

theorem arenaPush_offset_le {k : Nat} (hroom : a.base + a.offset + (2 ^ k - 1) < 2 ^ 64)
    (h : arenaPush a size (2 ^ k) = some (b, address)) :
    b.offset ≤ a.offset + (2 ^ k - 1) + size := by
  have hk : k ≤ 64 := by
    by_contra hgt
    have := Nat.pow_lt_pow_right (a := 2) (by decide) (Nat.lt_of_not_le hgt)
    omega
  obtain ⟨-, hdown, -⟩ := align_up hroom hk
  unfold arenaPush at h
  dsimp only at h
  generalize ((a.base + a.offset + (2 ^ k - 1)) &&& (uintptrMax - (2 ^ k - 1))) = aligned at *
  iterate 7
    split at h
    · cases h
  split at h
  · cases h
  · cases h
    dsimp only
    omega

theorem Arena.Wf.push_outcome (wf : a.Wf) (size : Nat) {k : Nat}
    (hroom : a.offset + (2 ^ k - 1) + size ≤ a.reserved) :
    Outcome (¬ a.CommitSucceeds)
      (fun r => a.Pushed size r.1 r.2 ∧ r.1.offset ≤ a.offset + (2 ^ k - 1) + size)
      (arenaPush a size (2 ^ k)) := by
  have haddress := wf.address
  rw [uintptrMax] at haddress
  cases h : arenaPush a size (2 ^ k) with
  | none =>
    refine .aborted fun hs => ?_
    obtain ⟨b, address, hsome, -⟩ := arenaPush_ok wf hs size hroom
    rw [h] at hsome
    cases hsome
  | some r => exact .returned ⟨Arena.pushed h, arenaPush_offset_le (by omega) h⟩

def Arena.CommitsPages (a : Arena) : Prop :=
  a.committed = a.reserved ∨
    ∃ commit, a.commit = some commit ∧ (∀ size, commit size = true) ∧ a.commitGranularity ≤ a.base

theorem Arena.Wf.commitSucceeds {a : Arena} (wf : a.Wf) (h : a.CommitsPages) :
    a.CommitSucceeds := by
  rcases h with hfull | ⟨commit, hcommit, hall, hpage⟩
  · exact Or.inl hfull
  · have haddress := wf.address
    refine Or.inr ⟨?_, commit, hcommit, hall⟩
    simp only [uintptrMax, sizeMax] at *
    omega

end ChoonzMoba
