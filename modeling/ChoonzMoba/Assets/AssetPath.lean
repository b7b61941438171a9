import ChoonzMoba.Assets.AssetId
import Mathlib.Data.List.Basic
import Mathlib.Data.UInt
import Mathlib.Tactic.Common

namespace ChoonzMoba

def ascii (s : String) : List UInt8 := s.toList.map byte

def portableBytes : List UInt8 := ascii "abcdefghijklmnopqrstuvwxyz0123456789._-"

def deviceDigits : List UInt8 := ascii "123456789"

def deviceNames : List (List UInt8) :=
  [byte 'c', byte 'o', byte 'n'] :: [byte 'p', byte 'r', byte 'n'] ::
    [byte 'a', byte 'u', byte 'x'] :: [byte 'n', byte 'u', byte 'l'] ::
    (deviceDigits.map fun d => [byte 'c', byte 'o', byte 'm', d]) ++
    deviceDigits.map fun d => [byte 'l', byte 'p', byte 't', d]

def stem (segment : List UInt8) : List UInt8 := segment.takeWhile (· != byte '.')

structure SegmentValid (segment : List UInt8) : Prop where
  nonempty : segment ≠ []
  portable : ∀ c ∈ segment, c ∈ portableBytes
  noTrailingDot : segment.getLast? ≠ some (byte '.')
  noDevice : stem segment ∉ deviceNames

theorem portable_iff (c : UInt8) : assetPortableChar c = true ↔ c ∈ portableBytes := by
  have h : ∀ b : BitVec 8, assetPortableChar ⟨b⟩ = true ↔ (⟨b⟩ : UInt8) ∈ portableBytes := by
    decide +kernel
  exact h c.toBitVec

theorem digit_iff (c : UInt8) : (byte '1' ≤ c && c ≤ byte '9') = true ↔ c ∈ deviceDigits := by
  have h : ∀ b : BitVec 8, (byte '1' ≤ (⟨b⟩ : UInt8) && (⟨b⟩ : UInt8) ≤ byte '9') = true ↔
      (⟨b⟩ : UInt8) ∈ deviceDigits := by
    decide +kernel
  exact h c.toBitVec

section

variable {pre segment post : List UInt8}

theorem getD_mid (pre segment post : List UInt8) {i : Nat} (hi : i < segment.length) :
    (pre ++ segment ++ post).getD (pre.length + i) 0 = segment.getD i 0 := by
  rw [List.getD_eq_getElem?_getD, List.getD_eq_getElem?_getD, List.append_assoc,
    List.getElem?_append_right (Nat.le_add_right _ _), Nat.add_sub_cancel_left,
    List.getElem?_append_left hi]

theorem assetStemEnd_eq (pre segment post : List UInt8) (fuel i : Nat)
    (hfuel : i + fuel = segment.length) :
    assetStemEnd (pre ++ segment ++ post) (pre.length + segment.length) fuel (pre.length + i) =
      pre.length + i + (stem (segment.drop i)).length := by
  induction fuel generalizing i with
  | zero =>
    rw [assetStemEnd, List.drop_eq_nil_of_le (by omega)]
    rfl
  | succ fuel ih =>
    have hi : i < segment.length := by omega
    rw [assetStemEnd, getD_mid pre segment post hi, List.drop_eq_getElem_cons hi, stem,
      List.takeWhile_cons, ← List.getElem_eq_getD (h := hi)]
    by_cases hdot : segment[i] = byte '.'
    · rw [if_neg (fun h => h.2 hdot)]
      simp [hdot]
    · rw [if_pos ⟨by omega, hdot⟩, Nat.add_assoc, ih (i + 1) (by omega)]
      simp only [bne_iff_ne, ne_eq, hdot, not_false_eq_true, if_true, List.length_cons, stem]
      omega

theorem stem_getD (pre segment post : List UInt8) {i : Nat} (hi : i < (stem segment).length) :
    (pre ++ segment ++ post).getD (pre.length + i) 0 = (stem segment).getD i 0 := by
  have hsplit : segment = stem segment ++ segment.dropWhile (· != byte '.') :=
    (List.takeWhile_append_dropWhile ..).symm
  rw [show pre ++ segment ++ post =
    pre ++ stem segment ++ (segment.dropWhile (· != byte '.') ++ post) by
      rw [List.append_assoc, List.append_assoc, ← List.append_assoc (stem segment), ← hsplit]]
  exact getD_mid _ _ _ hi

theorem deviceNames_of_three (a b c : UInt8) : [a, b, c] ∈ deviceNames ↔
    (((a == byte 'c' && b == byte 'o' && c == byte 'n') ||
    (a == byte 'p' && b == byte 'r' && c == byte 'n') ||
    (a == byte 'a' && b == byte 'u' && c == byte 'x') ||
    (a == byte 'n' && b == byte 'u' && c == byte 'l')) = true) := by
  simp [deviceNames, and_assoc, or_assoc]

theorem deviceNames_of_four (a b c d : UInt8) : [a, b, c, d] ∈ deviceNames ↔
    ((byte '1' ≤ d && d ≤ byte '9') &&
      ((a == byte 'c' && b == byte 'o' && c == byte 'm') ||
       (a == byte 'l' && b == byte 'p' && c == byte 't'))) = true := by
  rw [Bool.and_eq_true, digit_iff]
  simp [deviceNames]
  tauto

theorem deviceNames_length {name : List UInt8} (h : name ∈ deviceNames) :
    name.length = 3 ∨ name.length = 4 := by
  simp only [deviceNames, List.cons_append, List.mem_cons, List.mem_append,
    List.mem_map] at h
  rcases h with rfl | rfl | rfl | rfl | ⟨d, -, rfl⟩ | ⟨d, -, rfl⟩
  · exact Or.inl rfl
  · exact Or.inl rfl
  · exact Or.inl rfl
  · exact Or.inl rfl
  · exact Or.inr rfl
  · exact Or.inr rfl

theorem assetReservedDeviceSegment_iff (pre segment post : List UInt8) :
    assetReservedDeviceSegment (pre ++ segment ++ post) pre.length (pre.length + segment.length) =
      true ↔ stem segment ∈ deviceNames := by
  have hstem := assetStemEnd_eq pre segment post segment.length 0 (Nat.zero_add _)
  rw [Nat.add_zero, List.drop_zero] at hstem
  have hletter : ∀ i < (stem segment).length,
      (pre ++ segment ++ post).getD (pre.length + i) 0 = (stem segment).getD i 0 :=
    fun i hi => stem_getD pre segment post hi
  rw [assetReservedDeviceSegment, Nat.add_sub_cancel_left, hstem, Nat.add_sub_cancel_left]
  generalize stem segment = name at hletter
  split
  · next hthree =>
    obtain ⟨a, b, c, rfl⟩ := List.length_eq_three.mp hthree
    rw [deviceNames_of_three]
    dsimp only
    rw [hletter 0 (by simp), hletter 1 (by simp), hletter 2 (by simp)]
    rfl
  · next hthree =>
    split
    · next hfour =>
      match name, hfour with
      | [a, b, c, d], _ =>
        rw [deviceNames_of_four]
        dsimp only
        rw [hletter 0 (by simp), hletter 1 (by simp), hletter 2 (by simp), hletter 3 (by simp)]
        rfl
    · next hfour =>
      constructor
      · intro h
        cases h
      · intro h
        rcases deviceNames_length h with h | h
        · exact absurd h hthree
        · exact absurd h hfour

theorem segment_all_iff (pre segment post : List UInt8) :
    ((List.range' pre.length segment.length).all fun i =>
      assetPortableChar ((pre ++ segment ++ post).getD i 0)) = true ↔
      ∀ c ∈ segment, c ∈ portableBytes := by
  rw [List.all_eq_true]
  constructor
  · intro h c hc
    obtain ⟨i, hi, rfl⟩ := List.getElem_of_mem hc
    have hi' := h (pre.length + i) (List.mem_range'_1.mpr ⟨Nat.le_add_right _ _, by omega⟩)
    rw [getD_mid pre segment post hi, ← List.getElem_eq_getD (h := hi)] at hi'
    exact (portable_iff _).mp hi'
  · intro h i hi
    obtain ⟨hle, hlt⟩ := List.mem_range'_1.mp hi
    obtain ⟨j, rfl⟩ := Nat.exists_eq_add_of_le hle
    have hj : j < segment.length := by omega
    rw [getD_mid pre segment post hj, ← List.getElem_eq_getD (h := hj)]
    exact (portable_iff _).mpr (h _ (List.getElem_mem hj))

theorem assetLiteralSegmentValid_iff (pre segment post : List UInt8) :
    assetLiteralSegmentValid (pre ++ segment ++ post) pre.length (pre.length + segment.length) =
      true ↔ SegmentValid segment := by
  have hletter : ∀ i < segment.length, (pre ++ segment ++ post).getD (pre.length + i) 0 =
      segment.getD i 0 := fun i hi => getD_mid pre segment post hi
  rw [assetLiteralSegmentValid, Nat.add_sub_cancel_left]
  by_cases hempty : segment = []
  · subst hempty
    rw [if_pos (by simp)]
    exact iff_of_false Bool.false_ne_true fun h => h.nonempty rfl
  have hpos := List.length_pos_iff.mpr hempty
  have hlast : (pre ++ segment ++ post).getD (pre.length + segment.length - 1) 0 = byte '.' ↔
      segment.getLast? = some (byte '.') := by
    rw [Nat.add_sub_assoc hpos, hletter _ (by omega), ← List.getElem_eq_getD (h := by omega),
      List.getLast?_eq_getElem?, List.getElem?_eq_getElem (by omega), Option.some.injEq]
  rw [if_neg (by omega)]
  by_cases hdot : segment.getLast? = some (byte '.')
  · have hno : ¬ SegmentValid segment := fun h => h.noTrailingDot hdot
    split
    · exact iff_of_false Bool.false_ne_true hno
    · split
      · exact iff_of_false Bool.false_ne_true hno
      · rw [if_pos (Or.inl (hlast.mpr hdot))]
        exact iff_of_false Bool.false_ne_true hno
  · -- a "." or ".." segment ends in a dot, so these two checks never fire on their own
    have hone : ¬ (segment.length = 1 ∧ (pre ++ segment ++ post).getD pre.length 0 = byte '.') := by
      rintro ⟨hlength, hfirst⟩
      refine hdot (hlast.mp ?_)
      rw [hlength, Nat.add_sub_cancel]
      exact hfirst
    have htwo : ¬ (segment.length = 2 ∧ (pre ++ segment ++ post).getD pre.length 0 = byte '.' ∧
        (pre ++ segment ++ post).getD (pre.length + 1) 0 = byte '.') := by
      rintro ⟨hlength, -, hsecond⟩
      refine hdot (hlast.mp ?_)
      rw [hlength]
      exact hsecond
    rw [if_neg hone, if_neg htwo]
    have hdev := assetReservedDeviceSegment_iff pre segment post
    by_cases hdevice : stem segment ∈ deviceNames
    · rw [if_pos (Or.inr (hdev.mpr hdevice))]
      exact iff_of_false Bool.false_ne_true fun h => h.noDevice hdevice
    · rw [if_neg (not_or.mpr ⟨fun h => hdot (hlast.mp h), fun h => hdevice (hdev.mp h)⟩),
        segment_all_iff]
      exact ⟨fun h => ⟨hempty, h, hdot, hdevice⟩, fun h => h.portable⟩

end

end ChoonzMoba
