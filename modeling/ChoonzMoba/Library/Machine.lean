import Mathlib.Data.List.Basic

/-- A deterministic program driven from outside: `none` is an abort. -/
structure Machine (State Input Output : Type) where
  allowed : State → Input → Prop
  step : State → Input → Option (Output × State)

namespace Machine

variable {S I O : Type} (m : Machine S I O)

def run : S → List I → Option (List O × S)
  | s, [] => some ([], s)
  | s, i :: is => (m.step s i).bind fun r => (run r.2 is).map fun q => (r.1 :: q.1, q.2)

def AllowedRun : S → List I → Prop
  | _, [] => True
  | s, i :: is => m.allowed s i ∧ ∀ r, m.step s i = some r → AllowedRun r.2 is

def Bisimulation (R : S → S → Prop) : Prop :=
  ∀ s t i, R s t → m.allowed s i → m.allowed t i ∧
    ∃ o s' t', m.step s i = some (o, s') ∧ m.step t i = some (o, t') ∧ R s' t'

def goodRun (good : S → Bool) : S → List I → Bool
  | _, [] => true
  | s, i :: is => good s && (m.step s i).all fun r => goodRun good r.2 is

variable {m}

theorem AllowedRun.of_good {good : S → Bool} (hgood : ∀ s i, good s = true → m.allowed s i) {s : S}
    {is : List I} (h : m.goodRun good s is = true) : m.AllowedRun s is := by
  induction is generalizing s with
  | nil => trivial
  | cons i is ih =>
    rw [goodRun, Bool.and_eq_true] at h
    refine ⟨hgood s i h.1, fun r hr => ih ?_⟩
    have hrest := h.2
    rwa [hr] at hrest

theorem Bisimulation.run {R : S → S → Prop} (h : m.Bisimulation R) {s t : S} (hst : R s t)
    {is : List I} (allowed : m.AllowedRun s is) :
    m.AllowedRun t is ∧
      ∃ os s' t', m.run s is = some (os, s') ∧ m.run t is = some (os, t') ∧ R s' t' := by
  induction is generalizing s t with
  | nil => exact ⟨trivial, [], s, t, rfl, rfl, hst⟩
  | cons i is ih =>
    obtain ⟨hi, hrest⟩ := allowed
    obtain ⟨hti, o, s1, t1, hs1, ht1, h1⟩ := h s t i hst hi
    obtain ⟨htrest, os, s2, t2, hs2, ht2, h2⟩ := ih h1 (hrest _ hs1)
    refine ⟨⟨hti, fun r hr => ?_⟩, o :: os, s2, t2, ?_, ?_, h2⟩
    · rw [ht1] at hr
      cases hr
      exact htrest
    · simp [Machine.run, hs1, hs2]
    · simp [Machine.run, ht1, ht2]

end Machine
