import Mathlib.Data.List.Basic

structure System (State Label : Type) where
  initial : State → Prop
  next : State → Label → State → Prop

namespace System

variable {S L : Type} (sys : System S L)

inductive Trace : List L → S → Prop
  | start {s : S} : sys.initial s → Trace [] s
  | step {past : List L} {s t : S} {l : L} : Trace past s → sys.next s l t → Trace (l :: past) t

def Reachable (s : S) : Prop := ∃ past, sys.Trace past s

structure Invariant (I : S → Prop) : Prop where
  initial : ∀ s, sys.initial s → I s
  next : ∀ s l t, I s → sys.next s l t → I t

variable {sys} {C : Type} (play : S → C → L × S)

def playAll : List C → List L × S → List L × S
  | [], r => r
  | c :: calls, r => playAll calls ((play r.2 c).1 :: r.1, (play r.2 c).2)

variable {play}

theorem Trace.playAll (hplay : ∀ s c, sys.next s (play s c).1 (play s c).2) (calls : List C)
    {r : List L × S} (h : sys.Trace r.1 r.2) :
    sys.Trace (playAll play calls r).1 (playAll play calls r).2 := by
  induction calls generalizing r with
  | nil => exact h
  | cons c calls ih => exact ih (.step h (hplay r.2 c))

variable (attempt : S → L → Option S)

def tryAll : S → List L → Option S
  | s, [] => some s
  | s, l :: labels => (attempt s l).bind fun t => tryAll t labels

variable {attempt}

theorem Trace.tryAll (hattempt : ∀ s l t, attempt s l = some t → sys.next s l t) {past labels : List L}
    {s t : S} (h : sys.Trace past s) (hrun : System.tryAll attempt s labels = some t) :
    sys.Trace (labels.reverse ++ past) t := by
  induction labels generalizing past s with
  | nil =>
    cases hrun
    exact h
  | cons l labels ih =>
    obtain ⟨u, hu, hrest⟩ := Option.bind_eq_some_iff.mp hrun
    rw [List.reverse_cons, List.append_assoc]
    exact ih (.step h (hattempt s l u hu)) hrest

theorem Reachable.tryAll (hattempt : ∀ s l t, attempt s l = some t → sys.next s l t)
    {labels : List L} {s t : S} (h : sys.Reachable s)
    (hrun : System.tryAll attempt s labels = some t) : sys.Reachable t :=
  h.elim fun _ hpast => ⟨_, hpast.tryAll hattempt hrun⟩

theorem Reachable.initial {s : S} (h : sys.initial s) : sys.Reachable s :=
  ⟨[], .start h⟩

theorem Invariant.reachable {I : S → Prop} (inv : sys.Invariant I) {s : S}
    (hs : sys.Reachable s) : I s := by
  obtain ⟨past, hp⟩ := hs
  induction hp with
  | start h => exact inv.initial _ h
  | step _ h ih => exact inv.next _ _ _ ih h

end System
