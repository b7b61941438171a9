import Mathlib.Data.List.Basic

namespace FirstDifference

variable {κ ν β D : Type}

def At (as bs : List (κ × ν)) (k : κ) (x y : ν) : Prop :=
  ∃ front ra rb, as = front ++ (k, x) :: ra ∧ bs = front ++ (k, y) :: rb ∧ x ≠ y

/-- A walk over two element lists reports exactly their first difference. -/
def Describes (parts : D → κ × ν × ν) (r : Option D) (as bs : List (κ × ν)) : Prop :=
  match r with
  | none => as = bs
  | some d => At as bs (parts d).1 (parts d).2.1 (parts d).2.2

variable {parts : D → κ × ν × ν}

theorem At.append {as bs : List (κ × ν)} {k : κ} {x y : ν} (h : At as bs k x y)
    (cs ds : List (κ × ν)) : At (as ++ cs) (bs ++ ds) k x y := by
  obtain ⟨front, ra, rb, rfl, rfl, hne⟩ := h
  exact ⟨front, ra ++ cs, rb ++ ds, by simp, by simp, hne⟩

theorem At.prepend {as bs : List (κ × ν)} {k : κ} {x y : ν} (h : At as bs k x y)
    (cs : List (κ × ν)) : At (cs ++ as) (cs ++ bs) k x y := by
  obtain ⟨front, ra, rb, rfl, rfl, hne⟩ := h
  exact ⟨cs ++ front, ra, rb, by simp, by simp, hne⟩

theorem Describes.orElse {r s : Option D} {as bs cs ds : List (κ × ν)}
    (hr : Describes parts r as bs) (hs : as = bs → Describes parts s cs ds) :
    Describes parts (r <|> s) (as ++ cs) (bs ++ ds) := by
  cases r with
  | some d => exact At.append hr cs ds
  | none =>
    have heq : as = bs := hr
    subst heq
    have hs' := hs rfl
    cases s with
    | none => exact congrArg (as ++ ·) hs'
    | some d => exact At.prepend hs' as

theorem Describes.findSome {n : Nat} {f : Nat → Option D} {as bs : Nat → List (κ × ν)}
    (h : ∀ i < n, Describes parts (f i) (as i) (bs i)) :
    Describes parts ((List.range n).findSome? f) ((List.range n).flatMap as)
      ((List.range n).flatMap bs) := by
  induction n with
  | zero => rfl
  | succ n ih =>
    have hstep := (ih fun i hi => h i (Nat.lt_succ_of_lt hi)).orElse
      fun _ => h n (Nat.lt_succ_self n)
    simpa [List.range_succ, List.findSome?_append] using hstep

theorem Describes.eq_iff {r : Option D} {as bs : List (κ × ν)} (h : Describes parts r as bs) :
    r = none ↔ as = bs := by
  cases r with
  | none => exact iff_of_true rfl h
  | some d =>
    refine iff_of_false (by simp) ?_
    obtain ⟨front, ra, rb, rfl, rfl, hne⟩ := h
    intro heq
    have := List.append_cancel_left heq
    simp only [List.cons.injEq, Prod.mk.injEq, true_and] at this
    exact hne this.1

theorem At.flatMap_ne {as bs : List (κ × ν)} {k : κ} {x y : ν} (h : At as bs k x y)
    (encode : κ × ν → List β)
    (separates : ∀ u v, encode (k, x) ++ u ≠ encode (k, y) ++ v) :
    as.flatMap encode ≠ bs.flatMap encode := by
  obtain ⟨front, ra, rb, rfl, rfl, -⟩ := h
  intro heq
  simp only [List.flatMap_append, List.flatMap_cons, List.append_cancel_left_eq] at heq
  exact separates _ _ heq

end FirstDifference
