import Mathlib.Data.List.Basic
import Mathlib.Tactic.Common

namespace Regions

structure Region where
  start : Nat
  stop : Nat
deriving DecidableEq, Repr

def Region.Disjoint (r r' : Region) : Prop := r.stop ≤ r'.start ∨ r'.stop ≤ r.start

-- the newest first, each above the ones before it
def Below : Nat → List Region → Prop
  | _, [] => True
  | top, r :: rs => r.stop ≤ top ∧ r.start ≤ r.stop ∧ Below r.start rs

theorem Below.mono {top top' : Nat} {rs : List Region} (h : Below top rs) (hle : top ≤ top') :
    Below top' rs := by
  cases rs with
  | nil => trivial
  | cons r rs => exact ⟨Nat.le_trans h.1 hle, h.2⟩

theorem Below.stop_le {top : Nat} {rs : List Region} (h : Below top rs) {r : Region}
    (hr : r ∈ rs) : r.stop ≤ top := by
  induction rs generalizing top with
  | nil => cases hr
  | cons r' rs ih =>
    obtain ⟨hstop, hstart, hrest⟩ := h
    rcases List.mem_cons.mp hr with rfl | hr
    · exact hstop
    · exact Nat.le_trans (ih hrest hr) (Nat.le_trans hstart hstop)

theorem Below.pairwise {top : Nat} {rs : List Region} (h : Below top rs) :
    rs.Pairwise Region.Disjoint := by
  induction rs generalizing top with
  | nil => exact .nil
  | cons r rs ih =>
    obtain ⟨-, -, hrest⟩ := h
    exact List.pairwise_cons.mpr ⟨fun r' hr' => Or.inr (hrest.stop_le hr'), ih hrest⟩

/-- The regions taken since each mark, with the marks still open. -/
inductive Nested : Nat → List Nat → List (List Region) → Prop
  | root {top : Nat} {rs : List Region} : Below top rs → Nested top [] [rs]
  | marked {top mark : Nat} {marks : List Nat} {rs : List Region} {outer : List (List Region)} :
      mark ≤ top → Below top (rs ++ outer.flatten) → Nested mark marks outer →
      Nested top (mark :: marks) (rs :: outer)

variable {top : Nat} {marks : List Nat} {frames : List (List Region)}

theorem Nested.flatten (h : Nested top marks frames) : Below top frames.flatten := by
  cases h with
  | root h => rwa [List.flatten_cons, List.flatten_nil, List.append_nil]
  | marked _ h _ => rwa [List.flatten_cons]

def take (r : Region) : List (List Region) → List (List Region)
  | [] => []
  | rs :: outer => (r :: rs) :: outer

theorem Nested.take (h : Nested top marks frames) {r : Region} (hstart : top ≤ r.start)
    (hstop : r.start ≤ r.stop) : Nested r.stop marks (take r frames) := by
  cases h with
  | root h => exact .root ⟨Nat.le_refl _, hstop, h.mono hstart⟩
  | marked hmark h houter =>
    exact .marked (Nat.le_trans hmark (Nat.le_trans hstart hstop))
      ⟨Nat.le_refl _, hstop, h.mono hstart⟩ houter

theorem Nested.mark (h : Nested top marks frames) : Nested top (top :: marks) ([] :: frames) :=
  .marked (Nat.le_refl _) h.flatten h

theorem Nested.rewind {mark : Nat} (h : Nested top (mark :: marks) frames) :
    mark ≤ top ∧ Nested mark marks frames.tail := by
  cases h with
  | marked hmark _ houter => exact ⟨hmark, houter⟩

end Regions
