import ChoonzMoba.Library.Outcome

/-- A step that says whether it went well; `none` is an abort. -/
abbrev Guarded (σ : Type) := σ → Option (Bool × σ)

namespace Guarded

variable {σ : Type}

def andThen (f g : Guarded σ) : Guarded σ := fun s =>
  (f s).bind fun (ok, t) => if ok then g t else some (false, t)

def upTo (f : Nat → Guarded σ) : Nat → Guarded σ
  | 0 => fun s => some (true, s)
  | n + 1 => andThen (upTo f n) (f n)

def Spec (aborts : Prop) (P Q F : σ → Prop) (f : Guarded σ) : Prop :=
  ∀ s, P s → Outcome aborts (fun r => if r.1 then Q r.2 else F r.2) (f s)

variable {aborts : Prop} {P Q R F : σ → Prop} {f g : Guarded σ}

theorem Spec.andThen (hf : Spec aborts P Q F f) (hg : Spec aborts Q R F g) :
    Spec aborts P R F (andThen f g) := by
  intro s hs
  refine (hf s hs).bind fun ⟨ok, t⟩ ht => ?_
  cases ok with
  | true => exact hg t ht
  | false => exact .returned ht

theorem Spec.upTo {f : Nat → Guarded σ} {n : Nat} (I : Nat → σ → Prop)
    (hf : ∀ i, i < n → Spec aborts (I i) (I (i + 1)) F (f i)) :
    Spec aborts (I 0) (I n) F (upTo f n) := by
  induction n with
  | zero => exact fun s hs => .returned hs
  | succ n ih =>
    exact Spec.andThen (ih fun i hi => hf i (Nat.lt_succ_of_lt hi)) (hf n (Nat.lt_succ_self n))

theorem Spec.imp {P' Q' F' : σ → Prop} (hf : Spec aborts P Q F f) (hP : ∀ s, P' s → P s)
    (hQ : ∀ s, Q s → Q' s) (hF : ∀ s, F s → F' s) : Spec aborts P' Q' F' f := by
  intro s hs
  refine (hf s (hP s hs)).imp id fun r hr => ?_
  split
  · next hok =>
    rw [if_pos hok] at hr
    exact hQ _ hr
  · next hok =>
    rw [if_neg hok] at hr
    exact hF _ hr

end Guarded
