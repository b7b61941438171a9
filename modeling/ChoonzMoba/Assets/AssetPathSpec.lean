import ChoonzMoba.Assets.AssetPath
import Mathlib.Data.List.TakeWhile

namespace ChoonzMoba

section

variable {p : UInt8 → Bool} {word rest : List UInt8} {x : UInt8}

theorem getElem?_done (done rest : List UInt8) (x : UInt8) :
    (done ++ x :: rest)[done.length]? = some x := by
  rw [List.getElem?_append_right (Nat.le_refl _), Nat.sub_self, List.getElem?_cons_zero]

theorem readWhile_eq (done : List UInt8) (fuel : Nat) (hword : ∀ c ∈ word, p c = true)
    (hx : p x = false)
    (hfuel : word.length < fuel) :
    readWhile p (done ++ word ++ x :: rest) fuel done.length = some (done.length + word.length) := by
  induction word generalizing done fuel with
  | nil =>
    obtain ⟨fuel, rfl⟩ := Nat.exists_eq_succ_of_ne_zero (Nat.ne_of_gt hfuel)
    rw [List.append_nil, readWhile, getElem?_done, Option.bind_some, hx]
    rfl
  | cons c word ih =>
    obtain ⟨fuel, rfl⟩ := Nat.exists_eq_succ_of_ne_zero (Nat.ne_of_gt (Nat.zero_lt_of_lt hfuel))
    have hrest := ih (done ++ [c]) fuel
      (fun d hd => hword d (List.mem_cons_of_mem c hd)) (Nat.lt_of_succ_lt_succ hfuel)
    rw [List.length_append, List.length_singleton, List.append_assoc done [c] word,
      List.singleton_append] at hrest
    rw [readWhile, List.append_assoc, List.cons_append, getElem?_done, Option.bind_some,
      hword c List.mem_cons_self, if_pos rfl, ← List.cons_append, ← List.append_assoc, hrest,
      List.length_cons, Nat.add_right_comm, Nat.add_assoc]

def Portable (word : List UInt8) : Prop := ∀ c ∈ word, c ∈ portableBytes

instance : Decidable (Portable word) := List.decidableBAll (· ∈ portableBytes) word

theorem portable_cons (c : UInt8) (word : List UInt8) :
    Portable (c :: word) ↔ c ∈ portableBytes ∧ Portable word := List.forall_mem_cons

theorem copySegment_eq (done acc : List UInt8)
    (hlength : acc.length + word.length < assetPathMax) :
    copySegment (done ++ word ++ rest) word.length done.length acc =
      some (if Portable (word.map foldCase) then some (acc ++ word.map foldCase) else none) := by
  induction word generalizing done acc with
  | nil => simp [copySegment, Portable]
  | cons c word ih =>
    rw [List.length_cons] at hlength
    rw [List.length_cons, copySegment, List.append_assoc, List.cons_append, getElem?_done,
      Option.bind_some]
    dsimp only
    have hportable := portable_iff (foldCase c)
    by_cases hc : assetPortableChar (foldCase c) = true
    · have hrest := ih (done ++ [c]) (acc ++ [foldCase c])
        (by rw [List.length_append, List.length_singleton]; omega)
      rw [List.length_append, List.length_singleton, List.append_assoc done [c] word,
        List.singleton_append] at hrest
      rw [if_pos hc, pushNormalized, if_pos (by omega), Option.bind_some, ← List.cons_append,
        ← List.append_assoc, hrest, List.map_cons, List.append_assoc, List.singleton_append]
      simp only [portable_cons, hportable.mp hc, true_and]
    · rw [if_neg hc, List.map_cons, if_neg]
      exact fun h => hc (hportable.mpr (h _ List.mem_cons_self))

def joinSegment (acc segment : List UInt8) : List UInt8 :=
  if acc = [] then segment else acc ++ byte '/' :: segment

theorem joinSegment_length_le (acc segment : List UInt8) :
    acc.length ≤ (joinSegment acc segment).length := by
  rw [joinSegment]
  split
  · next h =>
    rw [h]
    exact Nat.zero_le _
  · rw [List.length_append]
    exact Nat.le_add_right _ _

noncomputable def foldSegments : List (List UInt8) → List UInt8 → Option (List UInt8)
  | [], acc => some acc
  | segment :: segments, acc =>
    open Classical in
    if segment = [] ∨ segment = [byte '.'] then foldSegments segments acc
    else if SegmentValid (segment.map foldCase) ∧
        (joinSegment acc (segment.map foldCase)).length < assetPathMax then
      foldSegments segments (joinSegment acc (segment.map foldCase))
    else none

theorem foldSegments_skip (segments : List (List UInt8)) (acc : List UInt8) :
    foldSegments ([] :: segments) acc = foldSegments segments acc := by
  rw [foldSegments, if_pos (Or.inl rfl)]

theorem foldSegments_separators {word : List UInt8} (hword : ∀ c ∈ word, isSeparator c = true)
    (rest acc : List UInt8) :
    foldSegments ((word ++ rest).splitOnP isSeparator) acc =
      foldSegments (rest.splitOnP isSeparator) acc := by
  induction word with
  | nil => rfl
  | cons c word ih =>
    rw [List.cons_append, List.splitOnP_cons_eq_if_modifyHead, if_pos (hword c List.mem_cons_self),
      foldSegments_skip, ih fun d hd => hword d (List.mem_cons_of_mem c hd)]

theorem foldSegments_word {word : List UInt8} (hword : ∀ c ∈ word, isSeparator c = false)
    (rest acc : List UInt8) (hrest : ∀ c ∈ rest.head?, isSeparator c = true) :
    foldSegments ((word ++ rest).splitOnP isSeparator) acc =
      foldSegments (word :: rest.splitOnP isSeparator) acc := by
  have hcons : ∀ (l l' : List (List UInt8)), (∀ acc, foldSegments l acc = foldSegments l' acc) →
      foldSegments (word :: l) acc = foldSegments (word :: l') acc := by
    intro l l' h
    rw [foldSegments, foldSegments, h, h]
  cases rest with
  | nil =>
    rw [List.append_nil, List.splitOnP_eq_singleton hword, List.splitOnP_nil]
    exact hcons _ _ fun acc => (foldSegments_skip [] acc).symm
  | cons c rest =>
    have hc := hrest c rfl
    rw [List.splitOnP_append_cons_of_forall_mem hword c hc, List.splitOnP_cons_eq_if_modifyHead,
      if_pos hc]
    exact hcons _ _ fun acc => (foldSegments_skip _ acc).symm

theorem literalValid_iff (pre segment : List UInt8) :
    assetLiteralSegmentValid (pre ++ segment) pre.length (pre ++ segment).length = true ↔
      SegmentValid segment := by
  have h := assetLiteralSegmentValid_iff pre segment []
  rwa [List.append_nil, ← List.length_append] at h

-- `pre` is the text before the segment, with its separator
theorem placeSegment_eq {acc word pre : List UInt8} (done rest : List UInt8)
    (hpre : pre.length = if acc.length ≠ 0 then acc.length + 1 else acc.length)
    (hjoin : pre ++ word.map foldCase = joinSegment acc (word.map foldCase)) (hword : word ≠ [])
    (next : List UInt8 → Option (Option (List UInt8))) :
    (if assetPathMax - pre.length ≤ word.length then some none
    else
      unlessRejected (copySegment (done ++ word ++ rest) word.length done.length pre)
        fun normalized =>
        if assetLiteralSegmentValid normalized
            (if acc.length ≠ 0 then acc.length + 1 else acc.length) normalized.length then
          next normalized
        else some none) =
      open Classical in
      if SegmentValid (word.map foldCase) ∧
          (joinSegment acc (word.map foldCase)).length < assetPathMax then
        next (joinSegment acc (word.map foldCase))
      else some none := by
  have hpos := List.length_pos_iff.mpr hword
  have hlength : (joinSegment acc (word.map foldCase)).length = pre.length + word.length := by
    rw [← hjoin, List.length_append, List.length_map]
  rw [hlength, ← hpre]
  split
  · next hlong => rw [if_neg fun h => by have := h.2; omega]
  · next hshort =>
    have hfits : pre.length + word.length < assetPathMax := by omega
    rw [copySegment_eq done pre hfits]
    by_cases hportable : Portable (word.map foldCase)
    · rw [if_pos hportable]
      simp only [unlessRejected, Option.bind_some]
      by_cases hvalid : SegmentValid (word.map foldCase)
      · rw [if_pos ((literalValid_iff pre _).mpr hvalid), if_pos ⟨hvalid, hfits⟩, hjoin]
      · rw [if_neg fun h => hvalid ((literalValid_iff pre _).mp h), if_neg fun h => hvalid h.1]
    · rw [if_neg hportable, if_neg fun h => hportable h.1.portable]
      rfl

theorem appendSegment_eq {acc word : List UInt8} (done rest : List UInt8) (hword : word ≠ [])
    (hacc : acc.length < assetPathMax) (next : List UInt8 → Option (Option (List UInt8))) :
    (unlessRejected (appendSeparator acc) fun normalized =>
      if assetPathMax - normalized.length ≤ word.length then some none
      else
        unlessRejected (copySegment (done ++ word ++ rest) word.length done.length normalized)
          fun normalized =>
          if assetLiteralSegmentValid normalized
              (if acc.length ≠ 0 then acc.length + 1 else acc.length) normalized.length then
            next normalized
          else some none) =
      open Classical in
      if SegmentValid (word.map foldCase) ∧
          (joinSegment acc (word.map foldCase)).length < assetPathMax then
        next (joinSegment acc (word.map foldCase))
      else some none := by
  rw [appendSeparator]
  by_cases hempty : acc = []
  · subst hempty
    exact placeSegment_eq done rest rfl rfl hword next
  · have hne : acc.length ≠ 0 := fun h => hempty (List.length_eq_zero_iff.mp h)
    rw [if_pos hne]
    have hjoin : (acc ++ [byte '/']) ++ word.map foldCase = joinSegment acc (word.map foldCase) := by
      rw [joinSegment, if_neg hempty, List.append_assoc, List.singleton_append]
    have hlength : (acc ++ [byte '/']).length = acc.length + 1 := by
      rw [List.length_append, List.length_singleton]
    by_cases hfull : assetPathMax ≤ acc.length + 1
    · have hlong : ¬ (SegmentValid (word.map foldCase) ∧
          (joinSegment acc (word.map foldCase)).length < assetPathMax) := by
        rintro ⟨-, hlt⟩
        rw [← hjoin, List.length_append, hlength, List.length_map] at hlt
        omega
      rw [if_pos hfull, if_neg hlong]
      rfl
    · rw [if_neg hfull, pushNormalized, if_pos hacc]
      have hpre : (acc ++ [byte '/']).length =
          if acc.length ≠ 0 then acc.length + 1 else acc.length := by
        rw [hlength, if_pos hne]
      exact placeSegment_eq done rest hpre hjoin hword next

theorem exists_segment (rest : List UInt8) :
    ∃ separators word tail, rest = separators ++ word ++ tail ∧
      (∀ c ∈ separators, isSeparator c = true) ∧ (∀ c ∈ word, isSeparator c = false) ∧
      (∀ c ∈ tail.head?, isSeparator c = true) ∧ (word = [] → tail = []) := by
  refine ⟨rest.takeWhile isSeparator,
    (rest.dropWhile isSeparator).takeWhile fun c => !isSeparator c,
    (rest.dropWhile isSeparator).dropWhile fun c => !isSeparator c, ?_, ?_, ?_, ?_, ?_⟩
  · rw [List.append_assoc, List.takeWhile_append_dropWhile, List.takeWhile_append_dropWhile]
  · exact fun c hc => List.mem_takeWhile_imp hc
  · intro c hc
    have h := List.mem_takeWhile_imp hc
    rwa [Bool.not_eq_true'] at h
  · intro c hc
    have h := List.head?_dropWhile_not (fun c => !isSeparator c) (rest.dropWhile isSeparator)
    rw [Option.mem_def.mp hc] at h
    simpa using h
  · intro hnil
    have h := List.head?_dropWhile_not isSeparator rest
    cases hrest : rest.dropWhile isSeparator with
    | nil => rfl
    | cons c tail =>
      rw [hrest] at hnil h
      simp only [List.head?_cons] at h
      rw [List.takeWhile_cons, h] at hnil
      simp at hnil

theorem separator_ne_zero {c : UInt8} (h : isSeparator c = true) : c ≠ 0 := by
  rintro rfl
  exact absurd h (by decide)

theorem getElem?_split {path done rest : List UInt8} {x : UInt8} (h : path = done ++ x :: rest) :
    path[done.length]? = some x := by
  rw [h, getElem?_done]

theorem readWhile_split {path done : List UInt8} (h : path = done ++ word ++ x :: rest)
    (hword : ∀ c ∈ word, p c = true) (hx : p x = false) :
    readWhile p path path.length done.length = some (done.length + word.length) := by
  subst h
  refine readWhile_eq done _ hword hx ?_
  simp only [List.length_append, List.length_cons]
  omega

theorem foldSegments_cons {word : List UInt8} (hword : word ≠ []) (segments : List (List UInt8))
    (acc : List UInt8) :
    foldSegments (word :: segments) acc =
      open Classical in
      if word = [byte '.'] then foldSegments segments acc
      else if SegmentValid (word.map foldCase) ∧
          (joinSegment acc (word.map foldCase)).length < assetPathMax then
        foldSegments segments (joinSegment acc (word.map foldCase))
      else none := by
  rw [foldSegments]
  by_cases hdot : word = [byte '.']
  · rw [if_pos (Or.inr hdot), if_pos hdot]
  · rw [if_neg (by simp [hword, hdot]), if_neg hdot]

theorem segmentValid_not_parent : ¬ SegmentValid ([byte '.', byte '.'].map foldCase) := fun h =>
  h.noTrailingDot (by decide)

theorem readWhile_segment {path done word tail : List UInt8}
    (hpath : path = done ++ word ++ tail ++ [0]) (hzero : 0 ∉ word)
    (hword : ∀ c ∈ word, isSeparator c = false)
    (htail : ∀ c ∈ tail.head?, isSeparator c = true) :
    readWhile (fun c => c != 0 && !isSeparator c) path path.length done.length =
      some (done.length + word.length) := by
  have hletters : ∀ c ∈ word, (c != 0 && !isSeparator c) = true := by
    intro c hc
    have hne : c ≠ 0 := fun h => hzero (h ▸ hc)
    simp [hword c hc, hne]
  cases tail with
  | nil =>
    rw [List.append_nil] at hpath
    exact readWhile_split hpath hletters (by decide)
  | cons t tail =>
    rw [List.append_assoc _ (t :: tail), List.cons_append] at hpath
    have ht : isSeparator t = true := htail t rfl
    exact readWhile_split hpath hletters (by rw [ht, Bool.not_true, Bool.and_false])

section

variable {path done word rest : List UInt8} (hpath : path = done ++ word ++ rest)
include hpath

theorem getD_segment {i : Nat} (hi : i < word.length) :
    path.getD (done.length + i) 0 = word.getD i 0 := by
  rw [hpath, getD_mid done word rest hi]

theorem segment_dot_iff :
    word.length = 1 ∧ path.getD done.length 0 = byte '.' ↔ word = [byte '.'] := by
  constructor
  · rintro ⟨hlength, hfirst⟩
    obtain ⟨c, rfl⟩ := List.length_eq_one_iff.mp hlength
    have hc : path.getD done.length 0 = c := getD_segment hpath (i := 0) (by simp)
    rw [← hc, hfirst]
  · intro hdot
    have hfirst := getD_segment hpath (i := 0) (by simp [hdot])
    rw [hdot] at hfirst ⊢
    exact ⟨rfl, hfirst⟩

theorem segment_parent_iff :
    word.length = 2 ∧ path.getD done.length 0 = byte '.' ∧
      path.getD (done.length + 1) 0 = byte '.' ↔ word = [byte '.', byte '.'] := by
  constructor
  · rintro ⟨hlength, hfirst, hsecond⟩
    obtain ⟨c, d, rfl⟩ := List.length_eq_two.mp hlength
    have hc : path.getD done.length 0 = c := getD_segment hpath (i := 0) (by simp)
    have hd : path.getD (done.length + 1) 0 = d := getD_segment hpath (i := 1) (by simp)
    rw [← hc, ← hd, hfirst, hsecond]
  · intro hparent
    have hfirst := getD_segment hpath (i := 0) (by simp [hparent])
    have hsecond := getD_segment hpath (i := 1) (by simp [hparent])
    rw [hparent] at hfirst hsecond ⊢
    exact ⟨rfl, hfirst, hsecond⟩

end

theorem normalizeLoop_end {path separators : List UInt8} (done acc : List UInt8) (fuel : Nat)
    (hpath : path = done ++ separators ++ [0])
    (hseparators : ∀ c ∈ separators, isSeparator c = true) :
    normalizeLoop path (fuel + 1) done.length acc = some (some acc) := by
  have hread : readWhile isSeparator path path.length done.length =
      some (done.length + separators.length) := readWhile_split hpath hseparators (by decide)
  have hend : path[done.length + separators.length]? = some 0 := by
    rw [← List.length_append]
    exact getElem?_split hpath
  cases separators with
  | nil =>
    have hfirst : path[done.length]? = some 0 := hend
    rw [normalizeLoop, hfirst, Option.bind_some, if_pos rfl]
  | cons c cs =>
    have hfirst : path[done.length]? = some c := by
      rw [hpath]
      exact getElem?_split (List.append_assoc done (c :: cs) [0])
    rw [normalizeLoop, hfirst, Option.bind_some,
      if_neg (separator_ne_zero (hseparators c List.mem_cons_self)), hread, Option.bind_some, hend,
      Option.bind_some, if_pos rfl]

theorem normalizeLoop_eq {path rest : List UInt8} (done acc : List UInt8) (fuel : Nat)
    (hpath : path = done ++ rest ++ [0]) (hzero : 0 ∉ rest) (hfuel : rest.length < fuel)
    (hacc : acc.length < assetPathMax) :
    normalizeLoop path fuel done.length acc =
      some (foldSegments (rest.splitOnP isSeparator) acc) := by
  classical
  induction fuel generalizing rest acc done with
  | zero => cases hfuel
  | succ fuel ih =>
    obtain ⟨separators, word, tail, rfl, hseparators, hword, htail, hnil⟩ := exists_segment rest
    rw [List.append_assoc separators, foldSegments_separators hseparators,
      foldSegments_word hword tail acc htail]
    cases word with
    | nil =>
      cases hnil rfl
      rw [foldSegments_skip, List.splitOnP_nil, foldSegments_skip, foldSegments]
      rw [List.append_nil, List.append_nil] at hpath
      exact normalizeLoop_end done acc fuel hpath hseparators
    | cons w word =>
      have hw : isSeparator w = false := hword w List.mem_cons_self
      have hw0 : w ≠ 0 := fun h => hzero (by rw [← h]; simp)
      have hpath' : path = (done ++ separators) ++ w :: (word ++ tail ++ [0]) := by
        rw [hpath]
        simp only [List.append_assoc, List.cons_append]
      obtain ⟨first, hfirst, hhead⟩ : ∃ first, path[done.length]? = some first ∧ first ≠ 0 := by
        cases separators with
        | nil =>
          rw [List.append_nil] at hpath'
          exact ⟨w, getElem?_split hpath', hw0⟩
        | cons c cs =>
          rw [List.append_assoc] at hpath'
          exact ⟨c, getElem?_split hpath', separator_ne_zero (hseparators c List.mem_cons_self)⟩
      have hread : readWhile isSeparator path path.length done.length =
          some (done.length + separators.length) := readWhile_split hpath' hseparators hw
      have hstart : path[done.length + separators.length]? = some w := by
        rw [← List.length_append]
        exact getElem?_split hpath'
      have hscan : readWhile (fun c => c != 0 && !isSeparator c) path path.length
          (done ++ separators).length = some ((done ++ separators).length + (w :: word).length) :=
        readWhile_segment (by rw [hpath]; simp only [List.append_assoc])
          (fun h => hzero (List.mem_append_left _ (List.mem_append_right _ h))) hword htail
      have hdone : (done ++ separators ++ w :: word).length =
          (done ++ separators).length + (w :: word).length := List.length_append
      have hrec : ∀ acc : List UInt8, acc.length < assetPathMax →
          normalizeLoop path fuel (done ++ separators ++ w :: word).length acc =
            some (foldSegments (tail.splitOnP isSeparator) acc) := fun acc hacc =>
        ih (done ++ separators ++ w :: word) acc (by rw [hpath]; simp only [List.append_assoc])
          (fun h => hzero (List.mem_append_right _ h))
          (by simp only [List.length_append, List.length_cons] at hfuel ⊢; omega) hacc
      rw [normalizeLoop, hfirst, Option.bind_some, if_neg hhead, hread, Option.bind_some, hstart,
        Option.bind_some, if_neg hw0, ← List.length_append, hscan, Option.bind_some]
      dsimp only
      rw [Nat.add_sub_cancel_left, ← hdone, foldSegments_cons (List.cons_ne_nil w word)]
      have hsplit : path = done ++ separators ++ w :: word ++ (tail ++ [0]) := by
        rw [hpath]
        simp only [List.append_assoc]
      have hone := segment_dot_iff hsplit
      have htwo := segment_parent_iff hsplit
      by_cases hdot : w :: word = [byte '.']
      · rw [if_pos (hone.mpr hdot), if_pos hdot]
        exact hrec acc hacc
      · rw [if_neg fun h => hdot (hone.mp h), if_neg hdot]
        by_cases hparent : w :: word = [byte '.', byte '.']
        · rw [if_pos (htwo.mpr hparent), if_neg]
          rw [hparent]
          exact fun h => segmentValid_not_parent h.1
        · rw [if_neg fun h => hparent (htwo.mp h), if_neg (show (w :: word).length ≠ 0 from Nat.succ_ne_zero _)]
          have hbody := appendSegment_eq (done ++ separators) (tail ++ [0]) (List.cons_ne_nil w word)
            hacc (normalizeLoop path fuel (done ++ separators ++ w :: word).length)
          rw [← hsplit] at hbody
          refine hbody.trans ?_
          split
          · next hvalid => exact hrec _ hvalid.2
          · rfl

def asciiLower (c : UInt8) : UInt8 := byte (Char.ofNat c.toNat).toLower

theorem foldCase_eq (c : UInt8) : foldCase c = asciiLower c := by
  have h : ∀ b : BitVec 8, foldCase ⟨b⟩ = asciiLower ⟨b⟩ := by
    decide +kernel
  exact h c.toBitVec

def segmentCounts (segment : List UInt8) : Bool := segment != [] && segment != ascii "."

def pathSegments (path : List UInt8) : List (List UInt8) :=
  (path.splitOnP fun c => c == byte '/' || c == byte '\\').filter segmentCounts

def canonicalSegments (path : List UInt8) : List (List UInt8) :=
  (pathSegments path).map fun segment => segment.map asciiLower

structure NormalizesTo (path canonical : List UInt8) : Prop where
  nonempty : path ≠ []
  relative : ∀ c ∈ path.head?, c ≠ byte '/' ∧ c ≠ byte '\\'
  someSegment : pathSegments path ≠ []
  noParent : ascii ".." ∉ pathSegments path
  segments : ∀ segment ∈ canonicalSegments path, SegmentValid segment
  joined : canonical = [byte '/'].intercalate (canonicalSegments path)
  length : canonical.length ≤ assetPathMax - 1

def joinAll (acc : List UInt8) (segments : List (List UInt8)) : List UInt8 :=
  segments.foldl joinSegment acc

theorem joinAll_length_le (acc : List UInt8) (segments : List (List UInt8)) :
    acc.length ≤ (joinAll acc segments).length := by
  induction segments generalizing acc with
  | nil => exact Nat.le_refl _
  | cons segment segments ih =>
    exact Nat.le_trans (joinSegment_length_le acc segment) (ih (joinSegment acc segment))

def keepSegments (segments : List (List UInt8)) : List (List UInt8) :=
  (segments.filter segmentCounts).map fun segment => segment.map asciiLower

theorem foldSegments_eq_some (segments : List (List UInt8)) {acc canonical : List UInt8}
    (hacc : acc.length < assetPathMax) :
    foldSegments segments acc = some canonical ↔
      (∀ segment ∈ keepSegments segments, SegmentValid segment) ∧
        joinAll acc (keepSegments segments) = canonical ∧ canonical.length < assetPathMax := by
  classical
  induction segments generalizing acc with
  | nil =>
    simp only [foldSegments, keepSegments, joinAll, List.filter_nil, List.map_nil, List.not_mem_nil,
      List.foldl_nil, Option.some.injEq, false_implies, implies_true, true_and]
    constructor
    · rintro rfl
      exact ⟨rfl, hacc⟩
    · exact fun h => h.1
  | cons segment segments ih =>
    have hdot : [byte '.'] = ascii "." := by decide
    have hfold : segment.map foldCase = segment.map asciiLower :=
      List.map_congr_left fun c _ => foldCase_eq c
    rw [foldSegments, hdot, hfold]
    by_cases hskip : segment = [] ∨ segment = ascii "."
    · have hdrop : ¬ segmentCounts segment = true := by
        rw [segmentCounts, Bool.and_eq_true, bne_iff_ne, bne_iff_ne]
        exact fun h => hskip.elim h.1 h.2
      rw [if_pos hskip, ih hacc, keepSegments, keepSegments, List.filter_cons_of_neg hdrop]
    · have hkeep : segmentCounts segment = true := by
        rw [segmentCounts, Bool.and_eq_true, bne_iff_ne, bne_iff_ne]
        exact not_or.mp hskip
      have hcons : keepSegments (segment :: segments) =
          segment.map asciiLower :: keepSegments segments := by
        rw [keepSegments, List.filter_cons_of_pos hkeep, List.map_cons, keepSegments]
      have hjoin : joinAll acc (segment.map asciiLower :: keepSegments segments) =
          joinAll (joinSegment acc (segment.map asciiLower)) (keepSegments segments) := rfl
      rw [if_neg hskip, hcons, List.forall_mem_cons, hjoin]
      split
      · next hstep =>
        rw [ih hstep.2]
        simp only [hstep.1, true_and]
      · next hstep =>
        refine iff_of_false nofun ?_
        rintro ⟨⟨hvalid, -⟩, rfl, hlt⟩
        exact hstep ⟨hvalid, Nat.lt_of_le_of_lt (joinAll_length_le _ _) hlt⟩

theorem joinAll_of_ne_nil {acc : List UInt8} (hacc : acc ≠ []) (segments : List (List UInt8)) :
    joinAll acc segments = acc ++ segments.flatMap fun segment => byte '/' :: segment := by
  induction segments generalizing acc with
  | nil => exact (List.append_nil acc).symm
  | cons segment segments ih =>
    have hjoin : joinSegment acc segment = acc ++ byte '/' :: segment := if_neg hacc
    have hne : joinSegment acc segment ≠ [] := by
      rw [hjoin]
      exact List.append_ne_nil_of_right_ne_nil _ (List.cons_ne_nil _ _)
    have hstep : joinAll acc (segment :: segments) = joinAll (joinSegment acc segment) segments := rfl
    rw [hstep, ih hne, hjoin, List.flatMap_cons, List.append_assoc]

theorem intercalate_cons_eq (x : UInt8) (segment : List UInt8) (segments : List (List UInt8)) :
    [x].intercalate (segment :: segments) = segment ++ segments.flatMap fun s => x :: s := by
  induction segments generalizing segment with
  | nil => rw [List.intercalate_singleton, List.flatMap_nil, List.append_nil]
  | cons next segments ih =>
    rw [List.intercalate_cons_cons, ih, List.flatMap_cons, List.append_assoc, List.singleton_append,
      List.cons_append]

theorem joinAll_eq_intercalate {segments : List (List UInt8)} (h : ∀ segment ∈ segments, segment ≠ []) :
    joinAll [] segments = [byte '/'].intercalate segments := by
  cases segments with
  | nil => rfl
  | cons segment segments =>
    have hstep : joinAll [] (segment :: segments) = joinAll segment segments := rfl
    rw [hstep, joinAll_of_ne_nil (h segment List.mem_cons_self), intercalate_cons_eq]

theorem keepSegments_ne_nil {segments : List (List UInt8)} {segment : List UInt8}
    (h : segment ∈ keepSegments segments) : segment ≠ [] := by
  obtain ⟨raw, hraw, rfl⟩ := List.mem_map.mp h
  have hne := (List.mem_filter.mp hraw).2
  simp only [segmentCounts, Bool.and_eq_true, bne_iff_ne] at hne
  exact fun hnil => hne.1 (List.map_eq_nil_iff.mp hnil)

theorem normalizesTo_iff {path canonical : List UInt8} (hrelative : ∀ c ∈ path.head?,
    c ≠ byte '/' ∧ c ≠ byte '\\') :
    NormalizesTo path canonical ↔
      foldSegments (path.splitOnP isSeparator) [] = some canonical ∧ canonical ≠ [] := by
  have hkeep : keepSegments (path.splitOnP isSeparator) = canonicalSegments path := rfl
  rw [foldSegments_eq_some _ (by decide), hkeep,
    joinAll_eq_intercalate fun segment h => keepSegments_ne_nil (hkeep ▸ h)]
  constructor
  · intro h
    refine ⟨⟨h.segments, h.joined.symm, ?_⟩, ?_⟩
    · exact Nat.lt_of_le_of_lt h.length (by decide)
    · rw [h.joined]
      cases hsegments : canonicalSegments path with
      | nil => exact absurd (List.map_eq_nil_iff.mp hsegments) h.someSegment
      | cons segment segments =>
        rw [intercalate_cons_eq]
        have hmem : segment ∈ keepSegments (path.splitOnP isSeparator) := by
          rw [hkeep, hsegments]
          exact List.mem_cons_self
        have hne := keepSegments_ne_nil hmem
        exact fun hnil => hne (List.append_eq_nil_iff.mp hnil).1
  · rintro ⟨⟨hsegments, hjoined, hlength⟩, hne⟩
    have hsome : pathSegments path ≠ [] := by
      intro hnil
      rw [canonicalSegments, hnil] at hjoined
      exact hne hjoined.symm
    refine ⟨?_, hrelative, hsome, ?_, hsegments, hjoined.symm, Nat.le_pred_of_lt hlength⟩
    · rintro rfl
      exact hsome (by decide)
    · intro hparent
      have hvalid := hsegments _ (List.mem_map_of_mem hparent)
      exact hvalid.noTrailingDot (by decide)

end

end ChoonzMoba
