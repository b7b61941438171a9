import Mathlib.Data.List.Basic
import Mathlib.Data.List.Nodup
import Mathlib.Logic.Function.Basic

namespace Loop

variable {σ α : Type}

def forRange (n : Nat) (f : σ → Nat → σ) (s : σ) : σ :=
  (List.range n).foldl f s

def forRangeM (n : Nat) (f : σ → Nat → Option σ) (s : σ) : Option σ :=
  (List.range n).foldlM f s

def forEach (xs : List α) (f : σ → α → σ) (s : σ) : σ :=
  xs.foldl f s

def forEachM (xs : List α) (f : σ → α → Option σ) (s : σ) : Option σ :=
  xs.foldlM f s

@[simp] theorem forRange_zero (f : σ → Nat → σ) (s : σ) : forRange 0 f s = s := rfl

theorem forRange_succ (n : Nat) (f : σ → Nat → σ) (s : σ) :
    forRange (n + 1) f s = f (forRange n f s) n := by
  simp [forRange, List.range_succ]

@[simp] theorem forRangeM_zero (f : σ → Nat → Option σ) (s : σ) :
    forRangeM 0 f s = some s := rfl

theorem forRangeM_succ (n : Nat) (f : σ → Nat → Option σ) (s : σ) :
    forRangeM (n + 1) f s = (forRangeM n f s).bind (f · n) := by
  simp [forRangeM, List.range_succ, List.foldlM_append]

@[simp] theorem forEachM_nil (f : σ → α → Option σ) (s : σ) :
    forEachM [] f s = some s := rfl

@[simp] theorem forEachM_cons (x : α) (xs : List α) (f : σ → α → Option σ) (s : σ) :
    forEachM (x :: xs) f s = (f s x).bind (forEachM xs f) := rfl

theorem forRangeM_eq_some {n : Nat} {f : σ → Nat → Option σ} {g : σ → Nat → σ} {s : σ}
    (h : ∀ t i, i < n → f t i = some (g t i)) : forRangeM n f s = some (forRange n g s) := by
  induction n with
  | zero => rfl
  | succ n ih =>
    rw [forRangeM_succ, ih fun t i hi => h t i (Nat.lt_succ_of_lt hi), Option.bind_some,
      h _ n n.lt_succ_self, forRange_succ]

theorem forRange_append {α : Type} (n : Nat) (f : Nat → α) (as : List α) :
    forRange n (fun as i => as ++ [f i]) as = as ++ (List.range n).map f := by
  induction n with
  | zero => simp
  | succ n ih => rw [forRange_succ, ih, List.range_succ, List.map_append, List.append_assoc]; rfl

theorem forRange_invariant {n : Nat} {f : σ → Nat → σ} {s : σ} (P : Nat → σ → Prop)
    (start : P 0 s) (keep : ∀ i t, i < n → P i t → P (i + 1) (f t i)) :
    P n (forRange n f s) := by
  induction n with
  | zero => exact start
  | succ n ih =>
    rw [forRange_succ]
    exact keep n _ (Nat.lt_succ_self n) (ih fun i t hi => keep i t (Nat.lt_succ_of_lt hi))

theorem forRangeM_total {n : Nat} {f : σ → Nat → Option σ} {s : σ} (P : Nat → σ → Prop)
    (start : P 0 s) (keep : ∀ i t, i < n → P i t → ∃ u, f t i = some u ∧ P (i + 1) u) :
    ∃ t, forRangeM n f s = some t ∧ P n t := by
  induction n with
  | zero => exact ⟨s, rfl, start⟩
  | succ n ih =>
    obtain ⟨t, ht, hp⟩ := ih fun i t hi => keep i t (Nat.lt_succ_of_lt hi)
    obtain ⟨u, hu, hq⟩ := keep n t (Nat.lt_succ_self n) hp
    exact ⟨u, by rw [forRangeM_succ, ht, Option.bind_some, hu], hq⟩

theorem forRangeM_partial {n : Nat} {f : σ → Nat → Option σ} {s t : σ} (P : Nat → σ → Prop)
    (start : P 0 s) (keep : ∀ i t u, i < n → P i t → f t i = some u → P (i + 1) u)
    (h : forRangeM n f s = some t) : P n t := by
  induction n generalizing t with
  | zero => cases h; exact start
  | succ n ih =>
    rw [forRangeM_succ, Option.bind_eq_some_iff] at h
    obtain ⟨u, hu, hb⟩ := h
    exact keep n u t (Nat.lt_succ_self n)
      (ih (fun i t u hi => keep i t u (Nat.lt_succ_of_lt hi)) hu) hb

theorem forEachM_total (xs : List α) {f : σ → α → Option σ} {s : σ}
    (P : List α → σ → Prop) (start : P [] s)
    (keep : ∀ done x rest t, xs = done ++ x :: rest → P done t →
      ∃ u, f t x = some u ∧ P (done ++ [x]) u) :
    ∃ t, forEachM xs f s = some t ∧ P xs t := by
  -- the loop is split at `done`, so the invariant can speak of the records already visited
  suffices H : ∀ (rest done : List α) (t : σ), xs = done ++ rest → P done t →
      ∃ u, forEachM rest f t = some u ∧ P xs u from H xs [] s rfl start
  intro rest
  induction rest with
  | nil =>
    intro done t hx hp
    rw [List.append_nil] at hx
    exact ⟨t, rfl, hx ▸ hp⟩
  | cons x rest ih =>
    intro done t hx hp
    obtain ⟨u, hu, hq⟩ := keep done x rest t hx hp
    obtain ⟨v, hv, hr⟩ := ih (done ++ [x]) u (by rw [hx, List.append_assoc]; rfl) hq
    exact ⟨v, by rw [forEachM_cons, hu, Option.bind_some, hv], hr⟩

theorem forEachM_pointwise {κ β : Type} [DecidableEq κ] {xs : List κ} {f : σ → κ → Option σ}
    {s : σ} (nodup : xs.Nodup) (look : σ → κ → β) (g : κ → β → β) (I : σ → Prop) (start : I s)
    (keep : ∀ x t, x ∈ xs → I t → ∃ u, f t x = some u ∧ I u ∧
      look u = Function.update (look t) x (g x (look t x))) :
    ∃ t, forEachM xs f s = some t ∧ I t ∧
      ∀ k, look t k = if k ∈ xs then g k (look s k) else look s k := by
  obtain ⟨t, ht, hI, hlook⟩ := forEachM_total xs (f := f) (s := s)
    (fun done t => I t ∧ ∀ k, look t k = if k ∈ done then g k (look s k) else look s k)
    ⟨start, fun k => by simp⟩ (by
      rintro done x rest t rfl ⟨hI, hlook⟩
      obtain ⟨u, hu, hIu, hupd⟩ := keep x t (by simp) hI
      have hx : x ∉ done := fun hmem =>
        (List.nodup_append.mp nodup).2.2 x hmem x (by simp) rfl
      refine ⟨u, hu, hIu, fun k => ?_⟩
      rw [hupd]
      by_cases hk : k = x
      · subst hk
        simp [hlook, hx]
      · simp [hlook, hk])
  exact ⟨t, ht, hI, hlook⟩

end Loop
