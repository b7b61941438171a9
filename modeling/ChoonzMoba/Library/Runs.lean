import Mathlib.Data.List.Basic
import Mathlib.Data.List.Chain
import Mathlib.Order.Lattice
import Mathlib.Tactic.Common

/-- `count` equal keys in a row, the first of them at `base`. -/
structure Run (κ : Type) where
  key : κ
  base : Nat
  count : Nat

namespace Run

variable {κ : Type} [DecidableEq κ]

-- the latest run comes first
def extend (runs : List (Run κ)) (position : Nat) (k : κ) : List (Run κ) :=
  match runs with
  | [] => [⟨k, position, 1⟩]
  | last :: earlier =>
    if last.key = k then { last with count := last.count + 1 } :: earlier
    else ⟨k, position, 1⟩ :: last :: earlier

def Contiguous : List (Run κ) → Nat → Prop
  | [], stop => stop = 0
  | last :: earlier, stop => last.base + last.count = stop ∧ 0 < last.count ∧
      Contiguous earlier last.base

structure Groups (ks : List κ) (runs : List (Run κ)) : Prop where
  contiguous : Contiguous runs ks.length
  keyAt : ∀ r ∈ runs, ∀ j, r.base ≤ j → j < r.base + r.count → ks[j]? = some r.key
  adjacent : (runs.map key).IsChain (· ≠ ·)

variable {ks : List κ} {runs earlier : List (Run κ)} {r last : Run κ} {stop : Nat}

omit [DecidableEq κ] in
theorem Groups.nil : Groups (κ := κ) [] [] := ⟨rfl, nofun, List.isChain_nil⟩

omit [DecidableEq κ] in
theorem Contiguous.le (h : Contiguous runs stop) (hr : r ∈ runs) : r.base + r.count ≤ stop := by
  induction runs generalizing stop with
  | nil => cases hr
  | cons last earlier ih =>
    obtain ⟨hstop, hpos, hearlier⟩ := h
    rcases List.mem_cons.mp hr with rfl | hr
    · exact Nat.le_of_eq hstop
    · have := ih hearlier hr
      omega

theorem Groups.extend (h : Groups ks runs) (k : κ) :
    Groups (ks ++ [k]) (extend runs ks.length k) := by
  obtain ⟨hcontiguous, hkey, hadjacent⟩ := h
  have hold : ∀ r ∈ runs, ∀ j, r.base ≤ j → j < r.base + r.count →
      (ks ++ [k])[j]? = some r.key := by
    intro r hr j hbase hj
    rw [List.getElem?_append_left (Nat.lt_of_lt_of_le hj (hcontiguous.le hr))]
    exact hkey r hr j hbase hj
  have hnew : (ks ++ [k])[ks.length]? = some k := by simp
  cases runs with
  | nil =>
    have hlength : ks.length = 0 := hcontiguous
    refine ⟨?_, fun r hr j hbase hj => ?_, List.isChain_singleton _⟩
    · rw [List.length_append, hlength]
      exact ⟨rfl, Nat.one_pos, rfl⟩
    · obtain rfl := List.mem_singleton.mp hr
      obtain rfl : j = ks.length := by
        dsimp only at hbase hj
        omega
      exact hnew
  | cons last earlier =>
    obtain ⟨hstop, hpos, hearlier⟩ := hcontiguous
    rw [Run.extend]
    by_cases hsame : last.key = k
    · rw [if_pos hsame]
      refine ⟨⟨?_, Nat.succ_pos _, hearlier⟩, fun r hr j hbase hj => ?_, hadjacent⟩
      · rw [List.length_append, ← hstop]
        rfl
      · rcases List.mem_cons.mp hr with rfl | hr
        · by_cases hlast : j < last.base + last.count
          · exact hold last List.mem_cons_self j hbase hlast
          · obtain rfl : j = ks.length := by
              dsimp only at hbase hj
              omega
            rw [hnew]
            exact congrArg some hsame.symm
        · exact hold r (List.mem_cons_of_mem _ hr) j hbase hj
    · rw [if_neg hsame]
      refine ⟨⟨?_, Nat.one_pos, hstop, hpos, hearlier⟩, fun r hr j hbase hj => ?_, ?_⟩
      · rw [List.length_append]
        rfl
      · rcases List.mem_cons.mp hr with rfl | hr
        · obtain rfl : j = ks.length := by
            dsimp only at hbase hj
            omega
          exact hnew
        · exact hold r hr j hbase hj
      · rw [List.map_cons]
        exact List.isChain_cons_cons.mpr ⟨Ne.symm hsame, hadjacent⟩

omit [DecidableEq κ] in
theorem Contiguous.ranges (h : Contiguous runs stop) :
    runs.reverse.flatMap (fun r => List.range' r.base r.count) = List.range stop := by
  induction runs generalizing stop with
  | nil =>
    obtain rfl := h
    rfl
  | cons last earlier ih =>
    obtain ⟨hstop, hpos, hearlier⟩ := h
    rw [List.reverse_cons, List.flatMap_append, ih hearlier, List.flatMap_singleton, ← hstop,
      List.range_eq_range', List.range_eq_range', ← List.range'_append_1, Nat.zero_add]

omit [DecidableEq κ] in
theorem Contiguous.pairwise (h : Contiguous runs stop) :
    runs.Pairwise fun later earlier => earlier.base + earlier.count ≤ later.base := by
  induction runs generalizing stop with
  | nil => exact List.Pairwise.nil
  | cons last earlier ih =>
    obtain ⟨-, -, hearlier⟩ := h
    exact List.pairwise_cons.mpr ⟨fun r hr => hearlier.le hr, ih hearlier⟩

omit [DecidableEq κ] in
theorem Contiguous.pos (h : Contiguous runs stop) (hr : r ∈ runs) : 0 < r.count := by
  induction runs generalizing stop with
  | nil => cases hr
  | cons last earlier ih =>
    obtain ⟨-, hpos, hearlier⟩ := h
    rcases List.mem_cons.mp hr with rfl | hr
    · exact hpos
    · exact ih hearlier hr

omit [DecidableEq κ] in
theorem Contiguous.length_le (h : Contiguous runs stop) : runs.length ≤ stop := by
  induction runs generalizing stop with
  | nil => exact Nat.zero_le stop
  | cons last earlier ih =>
    obtain ⟨hstop, hpos, hearlier⟩ := h
    have := ih hearlier
    rw [List.length_cons]
    omega

omit [DecidableEq κ] in
theorem descending_of_adjacent {ρ : Type} [LinearOrder ρ] {rank : κ → ρ} {ks : List κ}
    (hrank : Function.Injective rank) (hle : ks.Pairwise fun a b => rank b ≤ rank a)
    (hne : ks.IsChain (· ≠ ·)) : ks.IsChain fun a b => rank b < rank a := by
  induction ks with
  | nil => exact List.isChain_nil
  | cons a ks ih =>
    obtain ⟨hfirst, hle⟩ := List.pairwise_cons.mp hle
    cases ks with
    | nil => exact List.isChain_singleton a
    | cons b ks =>
      obtain ⟨hab, hne⟩ := List.isChain_cons_cons.mp hne
      have hlt : rank b < rank a :=
        lt_of_le_of_ne (hfirst b List.mem_cons_self) fun heq => hab (hrank heq.symm)
      exact List.isChain_cons_cons.mpr ⟨hlt, ih hle hne⟩

omit [DecidableEq κ] in
theorem Groups.nodup {ρ : Type} [LinearOrder ρ] {rank : κ → ρ} (h : Groups ks runs)
    (hrank : Function.Injective rank) (hsorted : ks.Pairwise fun a b => rank a ≤ rank b) :
    (runs.map key).Nodup := by
  have hfirst : ∀ r ∈ runs, ks[r.base]? = some r.key := fun r hr =>
    h.keyAt r hr r.base (Nat.le_refl _) (Nat.lt_add_of_pos_right (h.contiguous.pos hr))
  have hle : (runs.map key).Pairwise fun a b => rank b ≤ rank a := by
    rw [List.pairwise_map]
    refine h.contiguous.pairwise.imp_of_mem fun {later earlier} hlater hearlier hbefore => ?_
    obtain ⟨hlt, hkey⟩ := List.getElem?_eq_some_iff.mp (hfirst later hlater)
    obtain ⟨hlt', hkey'⟩ := List.getElem?_eq_some_iff.mp (hfirst earlier hearlier)
    rw [← hkey, ← hkey']
    have hpos := h.contiguous.pos hearlier
    exact List.pairwise_iff_getElem.mp hsorted _ _ hlt' hlt (by omega)
  have : IsTrans κ fun a b => rank b < rank a := ⟨fun _ _ _ hab hbc => hbc.trans hab⟩
  have hlt := List.isChain_iff_pairwise.mp (descending_of_adjacent hrank hle h.adjacent)
  exact hlt.imp fun hba hab => (hab ▸ hba).false

end Run
