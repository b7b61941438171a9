import ChoonzMoba.Platform.RootedRead

namespace ChoonzMoba

section

variable {α : Type} {p : α → Bool} {f : α → α}

theorem splitOnP_map (hf : ∀ x, p (f x) = p x) (l : List α) :
    (l.map f).splitOnP p = (l.splitOnP p).map (List.map f) := by
  induction l with
  | nil => rfl
  | cons x l ih =>
    rw [List.map_cons, List.splitOnP_cons_eq_if_modifyHead, List.splitOnP_cons_eq_if_modifyHead,
      hf, ih]
    split
    · rfl
    · cases l.splitOnP p with
      | nil => rfl
      | cons y ys => rfl

end

variable {c : UInt16} {path path' root child segment rest rest' : WidePath}

theorem foldWide_separator (c : UInt16) :
    isPathSeparator (foldWide c) = isPathSeparator c := by
  unfold isPathSeparator foldWide backslash slash
  grind

theorem pathNames_append (hc : isPathSeparator c = true) (path path' : WidePath) :
    pathNames (path ++ c :: path') = pathNames path ++ pathNames path' := by
  rw [pathNames, List.splitOnP_append_cons _ _ hc, List.filter_append]
  rfl

theorem pathNames_fold (path : WidePath) :
    pathNames (path.map foldWide) = (pathNames path).map (List.map foldWide) := by
  have hne : ∀ name : WidePath, decide (name.map foldWide ≠ []) = decide (name ≠ []) := by
    intro name
    rw [decide_eq_decide, ne_eq, List.map_eq_nil_iff]
  rw [pathNames, splitOnP_map foldWide_separator, List.filter_map]
  exact congrArg _ (List.filter_congr fun name _ => hne name)

theorem pathNames_trim (path : WidePath) :
    pathNames (path.rdropWhile isPathSeparator) = pathNames path := by
  induction path using List.reverseRecOn with
  | nil => rfl
  | append_singleton path c ih =>
    rw [List.rdropWhile_concat]
    split
    · next hc => rw [ih, pathNames_append hc, show pathNames [] = [] from rfl, List.append_nil]
    · rfl

-- what the check accepts lies below the root, but for the case of the letters
theorem descendant_names (h : win32PathIsDescendant root child = true) : ∃ names,
    (pathNames child).map (List.map foldWide) =
      (pathNames root ++ names).map (List.map foldWide) := by
  unfold win32PathIsDescendant at h
  dsimp only at h
  split at h
  · cases h
  · next hguard =>
    rw [not_or, not_or, not_not] at hguard
    obtain ⟨-, -, hprefix⟩ := hguard
    obtain ⟨c, hhead, hc⟩ := (Option.any_eq_true _ _).mp h
    obtain ⟨tail, htail⟩ := List.head?_eq_some_iff.mp hhead
    have hnames := congrArg pathNames hprefix
    rw [pathNames_fold, pathNames_fold, pathNames_trim] at hnames
    refine ⟨pathNames tail, ?_⟩
    conv_lhs => rw [← List.take_append_drop (root.rdropWhile isPathSeparator).length child, htail]
    rw [pathNames_append hc, List.map_append, List.map_append, hnames]

theorem rootedSegment_spec (h : rootedSegment rest = some (segment, rest')) :
    rest = segment ++ rest' ∧ (∀ c ∈ segment, isPathSeparator c = false ∧ c ≠ colon) ∧
      (rest' = [] ∨ ∃ tail, rest' = slash :: tail) := by
  induction rest generalizing segment with
  | nil =>
    cases h
    exact ⟨rfl, fun c hc => absurd hc List.not_mem_nil, Or.inl rfl⟩
  | cons c cs ih =>
    rw [rootedSegment] at h
    split at h
    · next hslash =>
      cases h
      exact ⟨rfl, fun c hc => absurd hc List.not_mem_nil, Or.inr ⟨cs, by rw [hslash]⟩⟩
    · next hslash =>
      split at h
      · cases h
      · next hother =>
        obtain ⟨⟨tail, after⟩, hrec, heq⟩ := Option.map_eq_some_iff.mp h
        cases heq
        obtain ⟨hrest, hchars, hend⟩ := ih hrec
        refine ⟨congrArg _ hrest, fun d hd => ?_, hend⟩
        rcases List.mem_cons.mp hd with rfl | hd
        · rw [not_or] at hother
          exact ⟨Bool.or_eq_false_iff.mpr
            ⟨beq_eq_false_iff_ne.mpr hother.1, beq_eq_false_iff_ne.mpr hslash⟩, hother.2⟩
        · exact hchars d hd

def segments (path : WidePath) : List WidePath := path.splitOnP (· == slash)

theorem segment_noSlash (hchars : ∀ c ∈ segment, isPathSeparator c = false ∧ c ≠ colon) :
    ∀ c ∈ segment, (c == slash) = false :=
  fun c hc => (Bool.or_eq_false_iff.mp (hchars c hc).1).2

theorem segments_last (h : rootedSegment rest = some (segment, [])) :
    segments rest = [segment] := by
  obtain ⟨hrest, hchars, -⟩ := rootedSegment_spec h
  rw [hrest, List.append_nil]
  exact List.splitOnP_eq_singleton (segment_noSlash hchars)

theorem segments_cons (h : rootedSegment rest = some (segment, rest')) (hrest : rest' ≠ []) :
    segments rest = segment :: segments rest'.tail := by
  obtain ⟨heq, hchars, hnil | ⟨tail, rfl⟩⟩ := rootedSegment_spec h
  · exact absurd hnil hrest
  · rw [heq]
    exact List.splitOnP_append_cons_of_forall_mem (segment_noSlash hchars) slash (beq_self_eq_true _)
      tail

theorem withSeparator_valid (hvalid : NameValid path) (pre : WidePath) :
    withSeparator (pre ++ path) = pre ++ path ++ [backslash] := by
  obtain ⟨init, c, rfl⟩ := (List.eq_nil_or_concat path).resolve_left hvalid.nonempty
  have hc := (hvalid.chars c (by simp)).1
  rw [withSeparator, List.concat_eq_append, ← List.append_assoc, List.getLast?_append]
  exact if_neg (by simp [hc])

end ChoonzMoba
