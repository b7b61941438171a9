import Mathlib.Algebra.Group.Nat.Defs
import Mathlib.Data.List.Basic
import Mathlib.Logic.Function.Basic
import Mathlib.Tactic.Common

-- Open addressing on `n` cyclic slots: `dist n a p` is how far a probe that started at `a` has come
-- when it looks at `p`.
namespace RobinHood

section

variable (n : Nat)

def next (p : Nat) : Nat := (p + 1) % n

def dist (a p : Nat) : Nat := (p + (n - a)) % n

def slotAt (a i : Nat) : Nat := (a + i) % n

variable {n} {a p q i : Nat}

theorem next_lt (hp : p < n) : next n p < n := Nat.mod_lt _ (Nat.zero_lt_of_lt hp)

theorem dist_lt (hp : p < n) : dist n a p < n := Nat.mod_lt _ (Nat.zero_lt_of_lt hp)

theorem slotAt_lt (ha : a < n) : slotAt n a i < n := Nat.mod_lt _ (Nat.zero_lt_of_lt ha)

theorem dist_eq (ha : a < n) (hp : p < n) :
    dist n a p = if a ≤ p then p - a else p + n - a := by
  unfold dist
  split
  · rw [show p + (n - a) = p - a + n by omega, Nat.add_mod_right, Nat.mod_eq_of_lt (by omega)]
  · rw [show p + (n - a) = p + n - a by omega, Nat.mod_eq_of_lt (by omega)]

theorem next_eq (hp : p < n) : next n p = if p + 1 = n then 0 else p + 1 := by
  unfold next
  split
  · next h => rw [h, Nat.mod_self]
  · exact Nat.mod_eq_of_lt (by omega)

theorem slotAt_eq (ha : a < n) (hi : i < n) :
    slotAt n a i = if a + i < n then a + i else a + i - n := by
  unfold slotAt
  split
  · next h => exact Nat.mod_eq_of_lt h
  · next h => rw [Nat.mod_eq_sub_mod (by omega), Nat.mod_eq_of_lt (by omega)]

theorem dist_self (ha : a < n) : dist n a a = 0 := by
  rw [dist_eq ha ha, if_pos (Nat.le_refl a), Nat.sub_self]

theorem dist_next (ha : a < n) (hp : p < n) (hroom : dist n a p + 1 < n) :
    dist n a (next n p) = dist n a p + 1 := by
  have hdist := dist_eq ha hp
  have hdistNext := dist_eq ha (next_lt hp)
  have hnext := next_eq hp
  split at hdist <;> split at hdistNext <;> split at hnext <;> omega

theorem slotAt_dist (ha : a < n) (hp : p < n) : slotAt n a (dist n a p) = p := by
  rw [slotAt_eq ha (dist_lt hp), dist_eq ha hp]
  split <;> split <;> omega

theorem next_slotAt (a i : Nat) : next n (slotAt n a i) = slotAt n a (i + 1) := by
  rw [next, slotAt, slotAt, Nat.mod_add_mod, Nat.add_assoc]

theorem dist_back (ha : a < n) (hp : p < n) (haway : dist n a (next n p) ≠ 0) :
    dist n a (next n p) = dist n a p + 1 := by
  have hdist := dist_eq ha hp
  have hdistNext := dist_eq ha (next_lt hp)
  have hnext := next_eq hp
  split at hdist <;> split at hdistNext <;> split at hnext <;> omega

theorem dist_injective (ha : a < n) (hp : p < n) (hq : q < n) (h : dist n a p = dist n a q) :
    p = q := by
  rw [← slotAt_dist ha hp, h, slotAt_dist ha hq]

theorem next_injective (hp : p < n) (hq : q < n) (h : next n p = next n q) : p = q := by
  rw [next_eq hp, next_eq hq] at h
  split at h <;> split at h <;> omega

theorem dist_step (hp : p < n) (hq : q < n) (hne : p ≠ q) :
    dist n p q = dist n (next n p) q + 1 := by
  have hdist := dist_eq hp hq
  have hdistNext := dist_eq (next_lt hp) hq
  have hnext := next_eq hp
  split at hdist <;> split at hdistNext <;> split at hnext <;> omega

end

section

variable {E : Type} {n : Nat} {home : E → Nat} {T : Nat → Option E} {p q z : Nat} {e s c : E}

/-- Nobody is farther from home than one more than the entry just before. -/
def Ordered (n : Nat) (home : E → Nat) (T : Nat → Option E) : Prop :=
  ∀ p < n, ∀ e, T (next n p) = some e → dist n (home e) (next n p) = 0 ∨
    ∃ s, T p = some s ∧ dist n (home e) (next n p) ≤ dist n (home s) p + 1

def Fits (n : Nat) (home : E → Nat) (T : Nat → Option E) (q d : Nat) : Prop :=
  d = 0 ∨ ∃ p < n, next n p = q ∧ ∃ s, T p = some s ∧ d ≤ dist n (home s) p + 1

theorem Ordered.empty (n : Nat) (home : E → Nat) : Ordered n home (fun _ => none) := by
  intro p _ e h
  cases h

theorem Ordered.chain (h : Ordered n home T) (hhome : home e < n) (hq : q < n) (he : T q = some e)
    {i : Nat} (hi : i ≤ dist n (home e) q) :
    ∃ s, T (slotAt n (home e) i) = some s ∧ i ≤ dist n (home s) (slotAt n (home e) i) := by
  obtain ⟨k, hk⟩ : ∃ k, i + k = dist n (home e) q := ⟨_, Nat.add_sub_cancel' hi⟩
  induction k generalizing i with
  | zero =>
    rw [Nat.add_zero] at hk
    rw [hk, slotAt_dist hhome hq]
    exact ⟨e, he, Nat.le_refl _⟩
  | succ k ih =>
    obtain ⟨s, hs, hle⟩ := ih (i := i + 1) (by omega) (by omega)
    rw [← next_slotAt] at hs hle
    rcases h _ (slotAt_lt hhome) s hs with hzero | ⟨r, hr, hle'⟩
    · omega
    · exact ⟨r, hr, by omega⟩

theorem Ordered.before_empty (h : Ordered n home T) (hhome : home e < n) (hq : q < n)
    (he : T q = some e) (hz : z < n) (hempty : T z = none) :
    dist n (home e) q < dist n (home e) z := by
  by_contra hge
  obtain ⟨s, hs, -⟩ := h.chain hhome hq he (Nat.le_of_not_lt hge)
  rw [slotAt_dist hhome hz, hempty] at hs
  cases hs

theorem Ordered.fill (h : Ordered n home T) (hempty : T q = none)
    (hfits : Fits n home T q (dist n (home c) q)) :
    Ordered n home (Function.update T q (some c)) := by
  intro p hp e he
  by_cases hpq : next n p = q
  · rw [hpq, Function.update_self] at he
    cases he
    rcases hfits with hzero | ⟨r, hr, hrq, s, hs, hle⟩
    · rw [hpq]
      exact Or.inl hzero
    · have hrp : p = r := next_injective hp hr (hpq.trans hrq.symm)
      subst hrp
      have hne : p ≠ q := by
        rintro rfl
        rw [hempty] at hs
        cases hs
      rw [Function.update_of_ne hne, hpq]
      exact Or.inr ⟨s, hs, hle⟩
  · rw [Function.update_of_ne hpq] at he
    rcases h p hp e he with hzero | ⟨s, hs, hle⟩
    · exact Or.inl hzero
    · have hne : p ≠ q := by
        rintro rfl
        rw [hempty] at hs
        cases hs
      rw [Function.update_of_ne hne]
      exact Or.inr ⟨s, hs, hle⟩

theorem Ordered.swap (h : Ordered n home T) (hs : T q = some s)
    (hfits : Fits n home T q (dist n (home c) q)) (hpoor : dist n (home s) q < dist n (home c) q) :
    Ordered n home (Function.update T q (some c)) := by
  intro p hp e he
  by_cases hpq : next n p = q
  · rw [hpq, Function.update_self] at he
    cases he
    rcases hfits with hzero | ⟨r, hr, hrq, x, hx, hle⟩
    · rw [hpq]
      exact Or.inl hzero
    · have hrp : p = r := next_injective hp hr (hpq.trans hrq.symm)
      subst hrp
      rw [hpq]
      by_cases hpself : p = q
      · subst hpself
        rw [Function.update_self]
        exact Or.inr ⟨c, rfl, Nat.le_succ _⟩
      · rw [Function.update_of_ne hpself]
        exact Or.inr ⟨x, hx, hle⟩
  · rw [Function.update_of_ne hpq] at he
    rcases h p hp e he with hzero | ⟨x, hx, hle⟩
    · exact Or.inl hzero
    · by_cases hpself : p = q
      · subst hpself
        rw [hs] at hx
        cases hx
        rw [Function.update_self]
        exact Or.inr ⟨c, rfl, by omega⟩
      · rw [Function.update_of_ne hpself]
        exact Or.inr ⟨x, hx, hle⟩

theorem Ordered.replace (h : Ordered n home T) (hs : T q = some s) (hhome : home c = home s) :
    Ordered n home (Function.update T q (some c)) := by
  intro p hp e he
  have hpred : ∀ x, T p = some x → ∃ y, Function.update T q (some c) p = some y ∧
      home y = home x := by
    intro x hx
    by_cases hpq : p = q
    · subst hpq
      rw [hs] at hx
      cases hx
      exact ⟨c, Function.update_self .., hhome⟩
    · exact ⟨x, by rw [Function.update_of_ne hpq, hx], rfl⟩
  have hold : ∃ x, T (next n p) = some x ∧ home e = home x := by
    by_cases hpq : next n p = q
    · rw [hpq, Function.update_self] at he
      cases he
      exact ⟨s, by rw [hpq, hs], hhome⟩
    · rw [Function.update_of_ne hpq] at he
      exact ⟨e, he, rfl⟩
  obtain ⟨x, hx, hex⟩ := hold
  rw [hex]
  rcases h p hp x hx with hzero | ⟨r, hr, hle⟩
  · exact Or.inl hzero
  · obtain ⟨y, hy, hyr⟩ := hpred r hr
    exact Or.inr ⟨y, hy, by rw [hyr]; exact hle⟩

/-- A probe that started at `a` for an entry that satisfies `hit` and has come to `p`. -/
structure Probing (n : Nat) (home : E → Nat) (T : Nat → Option E) (hit : E → Prop) (a p : Nat) :
    Prop where
  lt : p < n
  fits : Fits n home T p (dist n a p)
  unseen : ∀ q < n, ∀ e, T q = some e → hit e → dist n a p ≤ dist n a q
  ahead : ∀ z < n, T z = none → dist n a p ≤ dist n a z

variable {hit : E → Prop} {a : Nat}

theorem Probing.start (ha : a < n) : Probing n home T hit a a := by
  have hzero := dist_self ha
  refine ⟨ha, Or.inl hzero, fun q _ e _ _ => ?_, fun z _ _ => ?_⟩
  · rw [hzero]
    exact Nat.zero_le _
  · rw [hzero]
    exact Nat.zero_le _

theorem Probing.lt_empty (h : Probing n home T hit a p) (ha : a < n) (hs : T p = some s)
    (hz : z < n) (hempty : T z = none) : dist n a p < dist n a z := by
  refine Nat.lt_of_le_of_ne (h.ahead z hz hempty) fun heq => ?_
  rw [dist_injective ha h.lt hz heq, hempty] at hs
  cases hs

theorem Probing.next_dist (h : Probing n home T hit a p) (ha : a < n) (hs : T p = some s)
    (hz : z < n) (hempty : T z = none) : dist n a (next n p) = dist n a p + 1 := by
  have hlt := h.lt_empty ha hs hz hempty
  have hbound := dist_lt (n := n) (a := a) hz
  exact dist_next ha h.lt (by omega)

theorem Probing.next (h : Probing n home T hit a p) (ha : a < n) (hs : T p = some s)
    (hmiss : ¬ hit s) (hrich : dist n a p ≤ dist n (home s) p) (hz : z < n) (hempty : T z = none) :
    Probing n home T hit a (next n p) := by
  have hnext := h.next_dist ha hs hz hempty
  refine ⟨next_lt h.lt, ?_, fun q hq e he hhit => ?_, fun z' hz' hempty' => ?_⟩
  · exact Or.inr ⟨p, h.lt, rfl, s, hs, by omega⟩
  · have hne : dist n a p ≠ dist n a q := fun heq => by
      rw [← dist_injective ha h.lt hq heq, hs] at he
      cases he
      exact hmiss hhit
    have hle := h.unseen q hq e he hhit
    omega
  · have hlt := h.lt_empty ha hs hz' hempty'
    omega

theorem Probing.miss_of_empty (h : Probing n home T hit a p) (ordered : Ordered n home T)
    (ha : a < n) (hhome : ∀ e, hit e → home e = a) (hempty : T p = none) :
    ∀ q < n, ∀ e, T q = some e → ¬ hit e := by
  intro q hq e he hhit
  have hbefore := ordered.before_empty (by rw [hhome e hhit]; exact ha) hq he h.lt hempty
  have hle := h.unseen q hq e he hhit
  rw [hhome e hhit] at hbefore
  omega

theorem Probing.miss_of_poor (h : Probing n home T hit a p) (ordered : Ordered n home T)
    (ha : a < n) (hhome : ∀ e, hit e → home e = a) (hs : T p = some s)
    (hpoor : dist n (home s) p < dist n a p) : ∀ q < n, ∀ e, T q = some e → ¬ hit e := by
  intro q hq e he hhit
  have hhe := hhome e hhit
  have hle := h.unseen q hq e he hhit
  rw [← hhe] at hle hpoor
  obtain ⟨r, hr, hfar⟩ := ordered.chain (by rw [hhe]; exact ha) hq he hle
  rw [slotAt_dist (by rw [hhe]; exact ha) h.lt, hs] at hr
  rw [slotAt_dist (by rw [hhe]; exact ha) h.lt] at hfar
  cases hr
  omega

theorem Probing.displaced (h : Probing n home T hit (home c) p) (ordered : Ordered n home T)
    (hhome : home s < n) (hs : T p = some s) (hpoor : dist n (home s) p < dist n (home c) p) :
    dist n (home s) (RobinHood.next n p) = dist n (home s) p + 1 ∧
      Probing n home (Function.update T p (some c)) (fun _ => False) (home s)
        (RobinHood.next n p) := by
  have hbound := dist_lt (n := n) (a := home c) h.lt
  have hnext := dist_next hhome h.lt (by omega)
  refine ⟨hnext, next_lt h.lt, ?_, fun _ _ _ _ h => h.elim, fun z' hz' hempty' => ?_⟩
  · exact Or.inr ⟨p, h.lt, rfl, c, Function.update_self .., by omega⟩
  · have hne : z' ≠ p := by
      rintro rfl
      rw [Function.update_self] at hempty'
      cases hempty'
    rw [Function.update_of_ne hne] at hempty'
    have hbefore := ordered.before_empty hhome h.lt hs hz' hempty'
    omega

theorem Ordered.shift (h : Ordered n home T) (hp : p < n) (hhome : home e < n) (hs : T p = some s)
    (he : T (next n p) = some e) (haway : dist n (home e) (next n p) ≠ 0) :
    Ordered n home (Function.update T p (some e)) := by
  have hback := dist_back hhome hp haway
  have hle : dist n (home e) (next n p) ≤ dist n (home s) p + 1 := by
    rcases h p hp e he with hzero | ⟨r, hr, hle⟩
    · exact absurd hzero haway
    · rw [hs] at hr
      cases hr
      exact hle
  intro q hq x hx
  by_cases hqp : next n q = p
  · rw [hqp, Function.update_self] at hx
    cases hx
    by_cases hself : q = p
    · subst hself
      rw [hqp] at hback
      omega
    · rw [Function.update_of_ne hself, hqp]
      subst hqp
      rcases h q hq s hs with hzero | ⟨r, hr, hle'⟩
      · exact Or.inl (by omega)
      · exact Or.inr ⟨r, hr, by omega⟩
  · rw [Function.update_of_ne hqp] at hx
    by_cases hself : q = p
    · subst hself
      rw [he] at hx
      cases hx
      rw [Function.update_self]
      exact Or.inr ⟨e, rfl, by omega⟩
    · rw [Function.update_of_ne hself]
      exact h q hq x hx

theorem Ordered.clear (h : Ordered n home T)
    (hnext : ∀ e, T (next n p) = some e → dist n (home e) (next n p) = 0) :
    Ordered n home (Function.update T p none) := by
  intro q hq e he
  by_cases hqp : next n q = p
  · rw [hqp, Function.update_self] at he
    cases he
  · rw [Function.update_of_ne hqp] at he
    by_cases hself : q = p
    · subst hself
      exact Or.inl (hnext e he)
    · rw [Function.update_of_ne hself]
      exact h q hq e he

end

section

variable {E : Type} {n : Nat} {T : Nat → Option E} {p : Nat}

def entries (n : Nat) (T : Nat → Option E) : List E := (List.range n).filterMap T

theorem mem_entries {e : E} : e ∈ entries n T ↔ ∃ p < n, T p = some e := by
  simp [entries]

theorem entries_succ : entries (n + 1) T = entries n T ++ (T n).toList := by
  rw [entries, List.range_succ, List.filterMap_append]
  cases h : T n <;> simp [entries, h]

theorem entries_length_le : (entries n T).length ≤ n := by
  have h := List.length_filterMap_le T (List.range n)
  rwa [List.length_range] at h

theorem entries_sublist {i : Nat} (hi : i ≤ n) : (entries i T).Sublist (entries n T) :=
  (List.range_sublist.mpr hi).filterMap T

theorem entries_congr {S : Nat → Option E} (h : ∀ p < n, S p = T p) :
    entries n S = entries n T :=
  List.filterMap_congr fun p hp => h p (List.mem_range.mp hp)

theorem entries_update (hp : p < n) (x : Option E) :
    (entries n (Function.update T p x)).Perm (x.toList ++ entries n (Function.update T p none)) := by
  induction n with
  | zero => cases hp
  | succ n ih =>
    rw [entries_succ, entries_succ]
    rcases Nat.lt_succ_iff_lt_or_eq.mp hp with hlt | rfl
    · rw [Function.update_of_ne (by omega), Function.update_of_ne (by omega), ← List.append_assoc]
      exact (ih hlt).append_right _
    · rw [Function.update_self, Function.update_self,
        entries_congr (S := Function.update T p x) (T := Function.update T p none)]
      · simpa using List.perm_append_comm
      · intro q hq
        rw [Function.update_of_ne (by omega), Function.update_of_ne (by omega)]

theorem entries_split (hp : p < n) {s : E} (hs : T p = some s) :
    (entries n T).Perm (s :: entries n (Function.update T p none)) := by
  have h := entries_update (T := T) hp (some s)
  rwa [← hs, Function.update_eq_self, hs] at h

theorem entries_fill (hp : p < n) (hempty : T p = none) (c : E) :
    (entries n (Function.update T p (some c))).Perm (c :: entries n T) := by
  have h := entries_update (T := T) hp (some c)
  rwa [show Function.update T p none = T by rw [← hempty, Function.update_eq_self]] at h

theorem entries_move {q : Nat} (hp : p < n) (hq : q < n) (hne : p ≠ q) {e : E} (he : T q = some e) :
    (entries n (Function.update (Function.update T p (some e)) q none)).Perm
      (entries n (Function.update T p none)) := by
  rw [Function.update_comm hne]
  refine (entries_update hp (some e)).trans ?_
  rw [Function.update_comm hne.symm]
  exact (entries_split hq (by rw [Function.update_of_ne hne.symm, he])).symm

theorem exists_empty (h : (entries n T).length < n) : ∃ z < n, T z = none := by
  by_contra hall
  have hfull : ∀ p < n, T p ≠ none := fun p hp hnone => hall ⟨p, hp, hnone⟩
  have hlength : (entries n T).length = n := by
    rw [entries, List.length_filterMap_eq_countP, List.countP_eq_length.mpr, List.length_range]
    intro p hp
    exact Option.isSome_iff_ne_none.mpr (hfull p (List.mem_range.mp hp))
  omega

end

end RobinHood
