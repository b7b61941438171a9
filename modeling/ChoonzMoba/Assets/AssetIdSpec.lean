import ChoonzMoba.Assets.AssetPathSpec

namespace ChoonzMoba

def PathBuffer.text (b : PathBuffer) : List UInt8 := List.ofFn fun i : Fin b.length => b.bytes i

def PathBuffer.holding (b : PathBuffer) (text : List UInt8) : PathBuffer where
  bytes i := if i < (text ++ [0]).length then (text ++ [0]).getD i 0 else b.bytes i
  length := text.length

theorem PathBuffer.text_holding (b : PathBuffer) (text : List UInt8) :
    (b.holding text).text = text := by
  apply List.ext_getElem
  · rw [PathBuffer.text, List.length_ofFn, PathBuffer.holding]
  · intro i _ hi
    have hlt : i < (text ++ [0]).length := by
      rw [List.length_append]
      exact Nat.lt_add_right _ hi
    simp only [PathBuffer.text, PathBuffer.holding, List.getElem_ofFn, if_pos hlt]
    rw [← List.getElem_eq_getD (h := hlt), List.getElem_append_left hi]

theorem NormalizesTo.unique {path s t : List UInt8} (hs : NormalizesTo path s)
    (ht : NormalizesTo path t) : s = t :=
  hs.joined.trans ht.joined.symm

theorem assetPathNormalize_accepts {path canonical : List UInt8} (hpath : 0 ∉ path)
    (h : NormalizesTo path canonical) (out : PathBuffer) {outCapacity : Nat}
    (hcapacity : canonical.length < outCapacity) :
    assetPathNormalize (some (path ++ [0])) out outCapacity =
      some (true, out.holding canonical) := by
  obtain ⟨hfold, hne⟩ := (normalizesTo_iff h.relative).mp h
  have hloop := normalizeLoop_eq [] [] ((path ++ [0]).length + 1)
    (List.nil_append (path ++ [0])).symm hpath (by rw [List.length_append]; omega) (by decide)
  have hlength := h.length
  have hmax : assetPathMax - 1 = 511 := rfl
  cases path with
  | nil => exact absurd rfl h.nonempty
  | cons c path =>
    have hc : c ≠ 0 := fun h => hpath (by rw [h]; exact List.mem_cons_self)
    have hhead := h.relative c rfl
    rw [List.length_nil] at hloop
    rw [assetPathNormalize, if_neg (Nat.ne_of_gt (Nat.zero_lt_of_lt hcapacity)), List.cons_append,
      List.getElem?_cons_zero, Option.bind_some, if_neg (by simp [hc, hhead]), ← List.cons_append,
      hloop, hfold, Option.bind_some]
    dsimp only
    rw [if_neg (by rw [List.length_eq_zero_iff]; exact not_or.mpr ⟨hne, by omega⟩), pushNormalized,
      if_pos (by rw [assetPathMax]; omega)]
    rfl

theorem assetPathNormalize_rejects {path : List UInt8} (hpath : 0 ∉ path) (out : PathBuffer)
    {outCapacity : Nat} (h : ∀ canonical, NormalizesTo path canonical →
      outCapacity ≤ canonical.length) :
    assetPathNormalize (some (path ++ [0])) out outCapacity = some (false, out) := by
  rw [assetPathNormalize]
  split
  · rfl
  have hloop := normalizeLoop_eq [] [] ((path ++ [0]).length + 1)
    (List.nil_append (path ++ [0])).symm hpath (by rw [List.length_append]; omega) (by decide)
  rw [List.length_nil] at hloop
  rw [hloop, Option.bind_some]
  have hfirst : (path ++ [0])[0]? = some (path.headD 0) := by
    cases path <;> rfl
  rw [hfirst, Option.bind_some]
  split
  · rfl
  · next hhead =>
    have hrelative : ∀ c ∈ path.head?, c ≠ byte '/' ∧ c ≠ byte '\\' := by
      intro c hc
      rw [List.headD_eq_head?_getD, Option.mem_def.mp hc] at hhead
      exact (not_or.mp (not_or.mp hhead).2)
    cases hfold : foldSegments (path.splitOnP isSeparator) [] with
    | none => rfl
    | some canonical =>
      dsimp only
      split
      · rfl
      · next hfits =>
        obtain ⟨hne, hlt⟩ := not_or.mp hfits
        have hnormal := (normalizesTo_iff hrelative).mpr
          ⟨hfold, fun h => hne (List.length_eq_zero_iff.mpr h)⟩
        exact absurd (h canonical hnormal) (by omega)

theorem assetPathNormalize_exact (path : List UInt8) (hpath : 0 ∉ path) (out : PathBuffer)
    (outCapacity : Nat) :
    (∃ canonical, NormalizesTo path canonical ∧ canonical.length < outCapacity ∧
      assetPathNormalize (some (path ++ [0])) out outCapacity =
        some (true, out.holding canonical)) ∨
    ((¬ ∃ canonical, NormalizesTo path canonical ∧ canonical.length < outCapacity) ∧
      assetPathNormalize (some (path ++ [0])) out outCapacity = some (false, out)) := by
  by_cases h : ∃ canonical, NormalizesTo path canonical ∧ canonical.length < outCapacity
  · obtain ⟨canonical, hnormal, hlt⟩ := h
    exact Or.inl ⟨canonical, hnormal, hlt, assetPathNormalize_accepts hpath hnormal out hlt⟩
  · refine Or.inr ⟨h, assetPathNormalize_rejects hpath out fun canonical hnormal => ?_⟩
    exact Nat.le_of_not_lt fun hlt => h ⟨canonical, hnormal, hlt⟩

theorem assetPathNormalize_exact_texture :
    (∃ canonical, NormalizesTo (ascii "Textures/./Hero.TGA") canonical ∧ canonical.length < 512 ∧
      assetPathNormalize (some (ascii "Textures/./Hero.TGA" ++ [0])) ⟨fun _ => 0, 0⟩ 512 =
        some (true, PathBuffer.holding ⟨fun _ => 0, 0⟩ canonical)) ∨
    ((¬ ∃ canonical, NormalizesTo (ascii "Textures/./Hero.TGA") canonical ∧
        canonical.length < 512) ∧
      assetPathNormalize (some (ascii "Textures/./Hero.TGA" ++ [0])) ⟨fun _ => 0, 0⟩ 512 =
        some (false, ⟨fun _ => 0, 0⟩)) :=
  assetPathNormalize_exact (ascii "Textures/./Hero.TGA") (by decide) ⟨fun _ => 0, 0⟩ 512

def Canonical (path : List UInt8) : Prop := ∀ segment ∈ path.splitOn (byte '/'), SegmentValid segment

def fnv1a (path : List UInt8) : AssetId :=
  path.foldl (fun hash c => (hash ^^^ c.toUInt64) * assetFnv1aPrime) assetFnv1aOffset

theorem portable_not_separator {c : UInt8} (h : c ∈ portableBytes) :
    c ≠ byte '/' ∧ c ≠ byte '\\' ∧ c ≠ 0 ∧ asciiLower c = c := by
  have hall : ∀ c ∈ portableBytes, c ≠ byte '/' ∧ c ≠ byte '\\' ∧ c ≠ 0 ∧ asciiLower c = c := by
    decide +kernel
  exact hall c h

theorem SegmentValid.not_mem {segment : List UInt8} (h : SegmentValid segment) :
    byte '/' ∉ segment := fun hmem =>
  (portable_not_separator (h.portable _ hmem)).1 rfl

theorem NormalizesTo.canonical {path canonical : List UInt8} (h : NormalizesTo path canonical) :
    Canonical canonical := by
  have hne : canonicalSegments path ≠ [] := fun hnil =>
    h.someSegment (List.map_eq_nil_iff.mp hnil)
  intro segment hsegment
  rw [h.joined, List.splitOn_intercalate _ (fun s hs => (h.segments s hs).not_mem) hne] at hsegment
  exact h.segments segment hsegment

theorem Canonical.mem {path : List UInt8} (h : Canonical path) {c : UInt8} (hc : c ∈ path) :
    c = byte '/' ∨ c ∈ portableBytes := by
  by_cases hslash : c = byte '/'
  · exact Or.inl hslash
  · refine Or.inr ?_
    have hsplit : ∃ segment ∈ path.splitOn (byte '/'), c ∈ segment := by
      have hjoin : [byte '/'].intercalate (path.splitOn (byte '/')) = path :=
        List.intercalate_splitOn (byte '/')
      rw [← hjoin] at hc
      rcases hsegments : path.splitOn (byte '/') with _ | ⟨first, rest⟩
      · exact absurd hsegments (List.splitOn_ne_nil _ _)
      · rw [hsegments, intercalate_cons_eq, List.mem_append, List.mem_flatMap] at hc
        rcases hc with hfirst | ⟨segment, hsegment, hmem⟩
        · exact ⟨first, List.mem_cons_self, hfirst⟩
        · rcases List.mem_cons.mp hmem with h | hmem
          · exact absurd h hslash
          · exact ⟨segment, List.mem_cons_of_mem _ hsegment, hmem⟩
    obtain ⟨segment, hsegment, hmem⟩ := hsplit
    exact (h segment hsegment).portable c hmem

theorem splitOnP_congr {p q : UInt8 → Bool} {path : List UInt8} (h : ∀ c ∈ path, p c = q c) :
    path.splitOnP p = path.splitOnP q := by
  induction path with
  | nil => rfl
  | cons c path ih =>
    rw [List.splitOnP_cons_eq_if_modifyHead, List.splitOnP_cons_eq_if_modifyHead,
      h c List.mem_cons_self, ih fun d hd => h d (List.mem_cons_of_mem c hd)]

theorem Canonical.normalizesTo {path : List UInt8} (h : Canonical path)
    (hlength : path.length ≤ assetPathMax - 1) : NormalizesTo path path := by
  have hsplit : (path.splitOnP fun c => c == byte '/' || c == byte '\\') =
      path.splitOn (byte '/') := by
    rw [List.splitOn_eq_splitOnP]
    refine splitOnP_congr fun c hc => ?_
    rcases h.mem hc with rfl | hportable
    · rfl
    · obtain ⟨-, hback, -⟩ := portable_not_separator hportable
      rw [beq_eq_false_iff_ne.mpr hback, Bool.or_false]
  have hcounts : ∀ segment ∈ path.splitOn (byte '/'), segmentCounts segment = true := by
    intro segment hsegment
    have hvalid := h segment hsegment
    rw [segmentCounts, Bool.and_eq_true, bne_iff_ne, bne_iff_ne]
    refine ⟨hvalid.nonempty, ?_⟩
    rintro rfl
    exact hvalid.noTrailingDot (by decide)
  have hsegments : pathSegments path = path.splitOn (byte '/') := by
    rw [pathSegments, hsplit, List.filter_eq_self]
    exact hcounts
  have hlower : ∀ segment ∈ path.splitOn (byte '/'), segment.map asciiLower = segment := by
    intro segment hsegment
    refine (List.map_congr_left fun c hc => ?_).trans (List.map_id segment)
    exact (portable_not_separator ((h segment hsegment).portable c hc)).2.2.2
  have hcanonical : canonicalSegments path = path.splitOn (byte '/') := by
    rw [canonicalSegments, hsegments]
    exact (List.map_congr_left hlower).trans (List.map_id _)
  have hnonempty : path ≠ [] := by
    rintro rfl
    exact (h [] (by decide)).nonempty rfl
  refine ⟨hnonempty, ?_, ?_, ?_, ?_, ?_, hlength⟩
  · intro c hc
    have hmem : c ∈ path := List.mem_of_mem_head? hc
    rcases h.mem hmem with rfl | hportable
    · -- a leading slash leaves an empty first segment
      obtain ⟨tail, rfl⟩ := List.head?_eq_some_iff.mp hc
      refine absurd rfl (h [] ?_).nonempty
      rw [List.splitOn_cons_eq_if_modifyHead, if_pos (beq_self_eq_true _)]
      exact List.mem_cons_self
    · exact ⟨(portable_not_separator hportable).1, (portable_not_separator hportable).2.1⟩
  · rw [hsegments]
    exact List.splitOn_ne_nil _ _
  · rw [hsegments]
    exact fun hparent => (h _ hparent).noTrailingDot (by decide)
  · rw [hcanonical]
    exact h
  · rw [hcanonical, List.intercalate_splitOn]

def hashFrom (hash : AssetId) (path : List UInt8) : AssetId :=
  path.foldl (fun hash c => (hash ^^^ c.toUInt64) * assetFnv1aPrime) hash

def scanFrom (path : List UInt8) (start count : Nat) (s : AssetId × Nat) : Option (AssetId × Nat) :=
  (List.range' start count).foldlM (assetIdByte path) s

theorem scanFrom_add (path : List UInt8) (start a b : Nat) (s : AssetId × Nat) :
    scanFrom path start (a + b) s = (scanFrom path start a s).bind (scanFrom path (start + a) b) := by
  rw [scanFrom, ← List.range'_append_1, List.foldlM_append]
  rfl

theorem scanFrom_word (done word rest : List UInt8) (hword : byte '/' ∉ word) (hash : AssetId)
    (begins : Nat) :
    scanFrom (done ++ word ++ rest) done.length word.length (hash, begins) =
      if Portable word then some (hashFrom hash word, begins) else none := by
  induction word generalizing done hash with
  | nil => simp [scanFrom, hashFrom, Portable]
  | cons c word ih =>
    have hc : c ≠ byte '/' := fun h => hword (h ▸ List.mem_cons_self)
    have hrest := ih (done ++ [c]) (fun h => hword (List.mem_cons_of_mem c h))
      ((hash ^^^ c.toUInt64) * assetFnv1aPrime)
    rw [List.length_append, List.length_singleton, List.append_assoc done [c] word,
      List.singleton_append] at hrest
    have hget : (done ++ c :: word ++ rest).getD done.length 0 = c :=
      getD_mid done (c :: word) rest (Nat.succ_pos word.length)
    rw [List.length_cons, Nat.add_comm word.length 1, scanFrom_add, scanFrom]
    simp only [List.range'_one, List.foldlM_cons, List.foldlM_nil, assetIdByte, hget, if_neg hc]
    by_cases hportable : assetPortableChar c = true
    · rw [if_pos hportable]
      refine hrest.trans ?_
      simp only [portable_cons, (portable_iff c).mp hportable, true_and]
      rfl
    · rw [if_neg hportable, if_neg]
      · rfl
      · exact fun h => hportable ((portable_iff c).mpr (h c List.mem_cons_self))

theorem scanFrom_canonical {path : List UInt8} (done text : List UInt8) (hpath : path = done ++ text)
    (hash : AssetId) :
    ((scanFrom path done.length text.length (hash, done.length)).bind fun r =>
      if assetLiteralSegmentValid path r.2 path.length then some r.1 else none) =
      open Classical in
      if Canonical text then some (hashFrom hash text) else none := by
  classical
  -- on the length of what is left, one segment a step
  induction hn : text.length using Nat.strongRecOn generalizing done text hash with
  | ind n ih =>
    subst hn
    by_cases hslash : byte '/' ∈ text
    · obtain ⟨word, rest, rfl, hword⟩ := List.eq_append_cons_of_mem hslash
      have hsplit : (word ++ byte '/' :: rest).splitOn (byte '/') = word :: rest.splitOn (byte '/') :=
        List.splitOn_append_cons_self_of_not_mem hword rest
      have hcanonical : Canonical (word ++ byte '/' :: rest) ↔ SegmentValid word ∧ Canonical rest := by
        rw [Canonical, hsplit, List.forall_mem_cons]
        rfl
      have hparts : path = done ++ word ++ byte '/' :: rest := by
        rw [hpath, List.append_assoc]
      have hwordScan := scanFrom_word done word (byte '/' :: rest) hword hash done.length
      rw [← hparts] at hwordScan
      have hvalid : assetLiteralSegmentValid path done.length (done.length + word.length) = true ↔
          SegmentValid word := by
        rw [hparts]
        exact assetLiteralSegmentValid_iff done word (byte '/' :: rest)
      have hget : path.getD (done.length + word.length) 0 = byte '/' := by
        rw [hparts, ← List.length_append]
        rw [List.getD_eq_getElem?_getD, getElem?_done, Option.getD_some]
      have hrest := ih rest.length (by rw [List.length_append, List.length_cons]; omega)
        (done ++ word ++ [byte '/']) rest (by rw [hparts, List.append_assoc _ [byte '/']]; rfl)
        ((hashFrom hash word ^^^ (byte '/').toUInt64) * assetFnv1aPrime) rfl
      have hdone : (done ++ word ++ [byte '/']).length = done.length + word.length + 1 := by
        rw [List.length_append, List.length_append, List.length_singleton]
      rw [hdone] at hrest
      rw [List.length_append, List.length_cons, Nat.add_comm rest.length 1, scanFrom_add, hwordScan]
      by_cases hportable : Portable word
      · rw [if_pos hportable, Option.bind_some, scanFrom_add]
        by_cases hword' : SegmentValid word
        · have hstep : scanFrom path (done.length + word.length) 1 (hashFrom hash word, done.length) =
              some ((hashFrom hash word ^^^ (byte '/').toUInt64) * assetFnv1aPrime,
                done.length + word.length + 1) := by
            simp only [scanFrom, List.range'_one, List.foldlM_cons, List.foldlM_nil, assetIdByte, hget,
              if_true, hvalid.mpr hword']
            rfl
          rw [hstep, Option.bind_some, hrest]
          simp only [hcanonical, hword', true_and]
          simp only [hashFrom, List.foldl_append, List.foldl_cons]
        · have hstep : scanFrom path (done.length + word.length) 1 (hashFrom hash word, done.length) =
              none := by
            simp only [scanFrom, List.range'_one, List.foldlM_cons, List.foldlM_nil, assetIdByte, hget,
              if_true, if_neg fun h => hword' (hvalid.mp h)]
            rfl
          rw [hstep, if_neg fun h => hword' (hcanonical.mp h).1]
          rfl
      · rw [if_neg hportable, if_neg fun h => hportable (hcanonical.mp h).1.portable]
        rfl
    · have hscan := scanFrom_word done text [] hslash hash done.length
      rw [List.append_nil, ← hpath] at hscan
      have hvalid : assetLiteralSegmentValid path done.length path.length = true ↔
          SegmentValid text := by
        have h := assetLiteralSegmentValid_iff done text []
        rwa [List.append_nil, ← hpath, ← List.length_append, ← hpath] at h
      have hcanonical : Canonical text ↔ SegmentValid text := by
        rw [Canonical, List.splitOn_eq_singleton hslash, List.forall_mem_singleton]
      rw [hscan]
      by_cases hportable : Portable text
      · rw [if_pos hportable, Option.bind_some]
        simp only [hvalid, hcanonical]
      · rw [if_neg hportable, if_neg fun h => hportable (hcanonical.mp h).portable]
        rfl

theorem assetIdNormalizedBytes_eq (path : List UInt8) :
    assetIdNormalizedBytes path path.length =
      open Classical in
      if Canonical path then fnv1a path else assetIdNull := by
  classical
  have hscan := scanFrom_canonical [] path (List.nil_append path).symm assetFnv1aOffset
  have hloop : scanFrom path 0 path.length (assetFnv1aOffset, 0) =
      Loop.forRangeM path.length (assetIdByte path) (assetFnv1aOffset, 0) := by
    rw [scanFrom, Loop.forRangeM, List.range_eq_range']
  rw [List.length_nil, hloop] at hscan
  rw [assetIdNormalizedBytes]
  split
  · next hguard =>
    rw [if_neg]
    intro hcanonical
    have hempty : [] ∈ path.splitOn (byte '/') := by
      rcases hguard with hlength | hfirst | hlast
      · rw [List.length_eq_zero_iff.mp hlength]
        decide
      · cases path with
        | nil => decide
        | cons c path =>
          cases (show c = byte '/' from hfirst)
          rw [List.splitOn_cons_eq_if_modifyHead, if_pos (beq_self_eq_true _)]
          exact List.mem_cons_self
      · cases path using List.reverseRecOn with
        | nil => decide
        | append_singleton path c =>
          have hc : c = byte '/' := by
            rw [List.length_append, List.length_singleton, Nat.add_sub_cancel,
              List.getD_eq_getElem?_getD, getElem?_done, Option.getD_some] at hlast
            exact hlast
          rw [hc, List.splitOn_append_cons_self]
          exact List.mem_append_right _ (by decide)
    exact (hcanonical [] hempty).nonempty rfl
  · revert hscan
    cases Loop.forRangeM path.length (assetIdByte path) (assetFnv1aOffset, 0) with
    | none =>
      intro hscan
      by_cases hcanonical : Canonical path
      · rw [if_pos hcanonical] at hscan
        cases hscan
      · rw [if_neg hcanonical]
    | some r =>
      obtain ⟨hash, begins⟩ := r
      intro hscan
      rw [Option.bind_some] at hscan
      by_cases hcanonical : Canonical path
      · rw [if_pos hcanonical] at hscan ⊢
        split at hscan
        · next hvalid =>
          obtain rfl : hash = fnv1a path := Option.some.inj hscan
          dsimp only
          split
          · next hnull =>
            rcases hnull with hinvalid | hzero
            · rw [hvalid] at hinvalid
              cases hinvalid
            · exact hzero.symm
          · rfl
        · cases hscan
      · rw [if_neg hcanonical] at hscan ⊢
        split at hscan
        · cases hscan
        · next hinvalid =>
          dsimp only
          rw [if_pos (Or.inl (Bool.eq_false_iff.mpr hinvalid))]

theorem assetIdLiteral_eq (path : List UInt8) :
    assetIdLiteral path = assetIdNormalizedBytes path path.length := by
  rw [assetIdLiteral]
  split
  · rfl
  · next hshort =>
    rw [assetIdNormalizedBytes, if_pos (Or.inl (by omega))]

theorem assetPathNormalize_normalizesTo {path : List UInt8} (hpath : 0 ∉ path) {out r : PathBuffer}
    {outCapacity : Nat} (h : assetPathNormalize (some (path ++ [0])) out outCapacity =
      some (true, r)) :
    ∃ canonical, NormalizesTo path canonical ∧ canonical.length < outCapacity ∧
      r = out.holding canonical := by
  by_cases hform : ∃ canonical, NormalizesTo path canonical ∧ canonical.length < outCapacity
  · obtain ⟨canonical, hnormal, hlt⟩ := hform
    rw [assetPathNormalize_accepts hpath hnormal out hlt] at h
    cases h
    exact ⟨canonical, hnormal, hlt, rfl⟩
  · rw [assetPathNormalize_rejects hpath out fun canonical hnormal =>
      Nat.le_of_not_lt fun hlt => hform ⟨canonical, hnormal, hlt⟩] at h
    cases h

theorem Canonical.zero_not_mem {path : List UInt8} (h : Canonical path) : 0 ∉ path := by
  intro hzero
  rcases h.mem hzero with hslash | hportable
  · exact absurd hslash (by decide)
  · exact (portable_not_separator hportable).2.2.1 rfl

theorem assetIdFromPath_canonical {path : List UInt8} (h : Canonical path)
    (hlength : path.length < assetPathMax) (outId : AssetId)
    (hid : assetIdNormalizedBytes path path.length ≠ assetIdNull) :
    assetIdFromPath (some (path ++ [0])) outId =
      some (true, assetIdNormalizedBytes path path.length) := by
  have hnormal := assetPathNormalize_accepts h.zero_not_mem
    (h.normalizesTo (Nat.le_pred_of_lt hlength)) ⟨fun _ => 0, 0⟩ hlength
  have htext := PathBuffer.text_holding ⟨fun _ => 0, 0⟩ path
  rw [PathBuffer.text] at htext
  rw [assetIdFromPath, hnormal, Option.map_some]
  dsimp only
  rw [htext, if_pos rfl]
  have hholding : (PathBuffer.holding ⟨fun _ => 0, 0⟩ path).length = path.length := rfl
  rw [hholding, if_neg hid]

theorem assetPath_one_canonical_form (path : List UInt8) (hpath : 0 ∉ path) :
    (∀ out outCapacity r, assetPathNormalize (some (path ++ [0])) out outCapacity = some (true, r) →
      assetIdNormalizedBytes r.text r.length = fnv1a r.text ∧
      ∀ out' outCapacity', r.length < outCapacity' →
        assetPathNormalize (some (r.text ++ [0])) out' outCapacity' =
          some (true, out'.holding r.text)) ∧
    assetIdLiteral path = assetIdNormalizedBytes path path.length ∧
    (path.length < assetPathMax → assetIdLiteral path ≠ assetIdNull →
      (∀ out outCapacity, path.length < outCapacity →
        assetPathNormalize (some (path ++ [0])) out outCapacity = some (true, out.holding path)) ∧
      ∀ outId, assetIdFromPath (some (path ++ [0])) outId = some (true, assetIdLiteral path)) ∧
    (path.length < assetPathMax → ∀ out,
      assetPathNormalize (some (path ++ [0])) out assetPathMax ≠ some (true, out.holding path) →
      assetIdLiteral path = assetIdNull) := by
  have hliteral : assetIdLiteral path ≠ assetIdNull → Canonical path := by
    classical
    intro hid
    by_contra hcanonical
    rw [assetIdLiteral_eq, assetIdNormalizedBytes_eq, if_neg hcanonical] at hid
    exact hid rfl
  have hself : path.length < assetPathMax → assetIdLiteral path ≠ assetIdNull →
      ∀ out outCapacity, path.length < outCapacity →
        assetPathNormalize (some (path ++ [0])) out outCapacity = some (true, out.holding path) :=
    fun hlength hid out outCapacity hcapacity => assetPathNormalize_accepts hpath
      ((hliteral hid).normalizesTo (Nat.le_pred_of_lt hlength)) out hcapacity
  refine ⟨fun out outCapacity r h => ?_, assetIdLiteral_eq path, fun hlength hid => ?_,
    fun hlength out hother => ?_⟩
  · classical
    obtain ⟨canonical, hnormal, -, rfl⟩ := assetPathNormalize_normalizesTo hpath h
    have hcanonical := hnormal.canonical
    rw [PathBuffer.text_holding]
    refine ⟨?_, fun out' outCapacity' hcapacity => ?_⟩
    · have hid := assetIdNormalizedBytes_eq canonical
      rw [if_pos hcanonical] at hid
      exact hid
    · exact assetPathNormalize_accepts hcanonical.zero_not_mem
        (hcanonical.normalizesTo hnormal.length) out' hcapacity
  · refine ⟨hself hlength hid, fun outId => ?_⟩
    rw [assetIdLiteral_eq] at hid ⊢
    exact assetIdFromPath_canonical (hliteral (by rwa [assetIdLiteral_eq])) hlength outId hid
  · by_contra hid
    exact hother (hself hlength hid out assetPathMax hlength)

theorem assetPath_one_canonical_form_texture :
    assetIdLiteral (ascii "textures/hero.tga") ≠ assetIdNull ∧
    ∀ outId, assetIdFromPath (some (ascii "textures/hero.tga" ++ [0])) outId =
      some (true, assetIdLiteral (ascii "textures/hero.tga")) := by
  have hid : assetIdLiteral (ascii "textures/hero.tga") ≠ assetIdNull := by decide +kernel
  have hshort : (ascii "textures/hero.tga").length < assetPathMax := by decide
  exact ⟨hid, ((assetPath_one_canonical_form (ascii "textures/hero.tga") (by decide)).2.2.1
    hshort hid).2⟩

end ChoonzMoba
