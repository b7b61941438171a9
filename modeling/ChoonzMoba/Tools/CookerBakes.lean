import ChoonzMoba.Assets.MbaSpec
import ChoonzMoba.Assets.RegistryAcquire
import ChoonzMoba.Assets.TgaFile
import ChoonzMoba.Tools.CookerSpec

namespace ChoonzMoba

section

variable {system : CookerSystem} {job : CookerJob} {file : TgaFile} {t : MbaTexture}

theorem arenaPush_whole {a : Arena} (hbase : a.base ≠ 0) (haligned : a.base % memDefaultAlign = 0)
    (hoffset : a.offset = 0) (hcommitted : a.committed = a.reserved)
    (hfits : a.base + a.reserved ≤ uintptrMax - memDefaultAlign) :
    ∃ b, arenaPush a a.reserved memDefaultAlign = some (b, a.base) := by
  have hlow : a.base + 0 + (memDefaultAlign - 1) < 2 ^ 64 := by
    simp only [uintptrMax, memDefaultAlign] at *
    omega
  have haddress : (a.base + 0 + (memDefaultAlign - 1)) &&& (uintptrMax - (memDefaultAlign - 1)) =
      a.base := by
    have h := land_not_mask (k := 4) hlow (by decide)
    rw [show memDefaultAlign - 1 = 2 ^ 4 - 1 from rfl] at h ⊢
    rw [h]
    simp only [memDefaultAlign] at haligned
    omega
  have hcommit : arenaCommit a a.reserved = some a := if_pos hcommitted.ge
  rw [arenaPush, hoffset]
  dsimp only
  rw [if_neg hbase, if_neg (by decide), if_neg (by omega),
    if_neg (by simp only [uintptrMax] at *; omega),
    if_neg (by simp only [uintptrMax, memDefaultAlign] at *; omega), haddress,
    if_neg (Nat.lt_irrefl _), Nat.sub_self, Nat.zero_add, if_neg (by omega), hcommit]
  exact ⟨_, rfl⟩

theorem cookerDecode_file (system : CookerSystem) (file : TgaFile)
    (hsize : file.width * file.height * 4 ≠ 0) :
    cookerDecode system file.bytes (file.width * file.height * 4) =
      some (some ⟨file.width, file.height, system.pixelsAt.toNat,
        file.info.place 0 file.body.pixels fun _ => 0⟩) := by
  have hcount : file.width * file.height < 2 ^ 32 := file.header.pixelCount_lt
  have hbelow := system.pixelsAt_below
  have hzero : system.pixelsAt.toNat ≠ 0 := fun h => system.pixelsAt_ne (UInt64.toNat_inj.mp h)
  obtain ⟨arena, harena⟩ : ∃ arena, arenaInitFixed system.pixelsAt (file.width * file.height * 4) =
      some arena ∧ arena.base = system.pixelsAt.toNat ∧ arena.offset = 0 ∧
        arena.committed = file.width * file.height * 4 ∧
        arena.reserved = file.width * file.height * 4 := by
    rw [arenaInitFixed, arenaInit, if_neg fun h => system.pixelsAt_ne h.1,
      if_neg (Nat.lt_irrefl _), if_neg (by simp only [uintptrMax]; omega)]
    exact ⟨_, rfl, rfl, rfl, rfl, rfl⟩
  obtain ⟨hinit, hbase, hoffset, hcommitted, hreserved⟩ := harena
  obtain ⟨b, hpush⟩ := arenaPush_whole (a := arena) (by rwa [hbase])
    (by rw [hbase]; exact system.pixelsAt_aligned) hoffset (hcommitted.trans hreserved.symm)
    (by rw [hbase, hreserved]; simp only [uintptrMax, memDefaultAlign]; omega)
  rw [hreserved, hbase] at hpush
  have halloc : memAlloc arenaAllocator arena (file.width * file.height * 4) memDefaultAlign =
      some (system.pixelsAt.toNat, b) := by
    rw [memAlloc, arenaAllocator]
    dsimp only
    rw [arenaAllocFn, if_neg hsize, if_neg (by decide), hpush]
    rfl
  rw [cookerDecode, hinit, Option.bind_some, file.tgaDecode_eq, halloc, Option.map_some,
    Option.map_some, if_neg hzero]

theorem assetIdFromPath_cases (path : CString) (outId : AssetId) :
    (∃ canonical, NormalizesTo path.text canonical ∧ assetIdOf canonical ≠ assetIdNull ∧
      assetIdFromPath (some path.bytes) outId = some (true, assetIdOf canonical)) ∨
    ((∀ canonical, NormalizesTo path.text canonical → assetIdOf canonical = assetIdNull) ∧
      assetIdFromPath (some path.bytes) outId = some (false, outId)) := by
  by_cases hform : ∃ canonical, NormalizesTo path.text canonical
  · obtain ⟨canonical, hnormal⟩ := hform
    have hlt : canonical.length < assetPathMax := Nat.lt_of_le_pred (by decide) hnormal.length
    have htext := PathBuffer.text_holding ⟨fun _ => 0, 0⟩ canonical
    rw [PathBuffer.text] at htext
    have hid : assetIdFromPath (some path.bytes) outId =
        if assetIdOf canonical = assetIdNull then some (false, outId)
        else some (true, assetIdOf canonical) := by
      rw [assetIdFromPath, CString.bytes,
        assetPathNormalize_accepts path.terminated hnormal ⟨fun _ => 0, 0⟩ hlt, Option.map_some]
      dsimp only
      rw [htext, if_pos rfl]
      exact apply_ite some _ _ _
    by_cases hnull : assetIdOf canonical = assetIdNull
    · refine .inr ⟨fun other hother => ?_, by rw [hid, if_pos hnull]⟩
      rwa [hother.unique hnormal]
    · exact .inl ⟨canonical, hnormal, hnull, by rw [hid, if_neg hnull]⟩
  · refine .inr ⟨fun canonical hnormal => absurd ⟨canonical, hnormal⟩ hform, ?_⟩
    rw [assetIdFromPath, CString.bytes, assetPathNormalize_rejects path.terminated _
      fun canonical hnormal => absurd ⟨canonical, hnormal⟩ hform]
    rfl

structure CookerJob.Bakes (job : CookerJob) (system : CookerSystem) (file : TgaFile)
    (t : MbaTexture) : Prop where
  contents : system.contents job.input = some file.bytes
  whole : system.readsWhole job.input = true
  named : ∃ canonical, NormalizesTo job.assetPath.text canonical ∧ t.assetId = assetIdOf canonical
  width : t.width.toNat = file.width
  height : t.height.toNat = file.height
  shows : file.Shows fun i => t.pixels.getD i 0

theorem TgaFile.Shows.unique {f g : Nat → UInt8} (hf : file.Shows f) (hg : file.Shows g) :
    ∀ i < file.width * file.height * 4, f i = g i := by
  intro i hi
  have hpixel : i / 4 < file.width * file.height := Nat.div_lt_of_lt_mul (by rwa [Nat.mul_comm])
  have hwidth : 0 < file.width := by
    refine Nat.pos_of_ne_zero fun h => ?_
    rw [h, Nat.zero_mul] at hpixel
    exact absurd hpixel (Nat.not_lt_zero _)
  have hy : i / 4 / file.width < file.height := Nat.div_lt_of_lt_mul hpixel
  have hx : i / 4 % file.width < file.width := Nat.mod_lt _ hwidth
  obtain ⟨pixel, hpixel, hfour⟩ := hf.pixel _ hy _ hx
  obtain ⟨other, hother, hfour'⟩ := hg.pixel _ hy _ hx
  obtain rfl : pixel = other := Option.some.inj (hpixel.symm.trans hother)
  have hbytes := List.map_inj_left.mp (hfour.trans hfour'.symm) (i % 4)
    (List.mem_range.mpr (Nat.mod_lt _ (by decide)))
  have hplace : (i / 4 / file.width * file.width + i / 4 % file.width) * 4 + i % 4 = i := by
    rw [Nat.div_add_mod', Nat.div_add_mod']
  rwa [hplace] at hbytes

def TgaFile.decoded (file : TgaFile) : List UInt8 :=
  (List.range (file.width * file.height * 4)).map (file.info.place 0 file.body.pixels fun _ => 0)

theorem CookerJob.Bakes.pixels_eq (h : job.Bakes system file t) : t.pixels = file.decoded := by
  have hlength : t.pixels.length = file.width * file.height * 4 := by
    rw [t.pixels_length, h.width, h.height]
  refine List.ext_getElem ?_ fun i hi _ => ?_
  · rw [hlength, TgaFile.decoded, List.length_map, List.length_range]
  · have hsame := h.shows.unique (file.shows fun _ => 0) i (hlength ▸ hi)
    rw [List.getD_eq_getElem _ _ hi] at hsame
    rw [hsame]
    simp [TgaFile.decoded]

def TgaFile.cooked (file : TgaFile) : MbaTextureSource where
  rgba8 := some file.decoded
  rgba8Bytes := file.width * file.height * 4
  width := UInt32.ofNat file.width
  height := UInt32.ofNat file.height
  readable pixels h := by
    cases h
    rw [TgaFile.decoded, List.length_map, List.length_range]

theorem TgaFile.width_toNat (file : TgaFile) : (UInt32.ofNat file.width).toNat = file.width :=
  UInt32.toNat_ofNat_of_lt' (Nat.lt_of_lt_of_le file.header.width.toNat_lt (by decide))

theorem TgaFile.height_toNat (file : TgaFile) : (UInt32.ofNat file.height).toNat = file.height :=
  UInt32.toNat_ofNat_of_lt' (Nat.lt_of_lt_of_le file.header.height.toNat_lt (by decide))

theorem TgaFile.cooked_shows (file : TgaFile) : file.Shows fun i => file.decoded.getD i 0 where
  pixel y hy x hx := by
    obtain ⟨pixel, hpixel, hfour⟩ := (file.shows fun _ => 0).pixel y hy x hx
    refine ⟨pixel, hpixel, (List.map_inj_left.mpr fun k hk => ?_).trans hfour⟩
    have hk := List.mem_range.mp hk
    have hplace : (y * file.width + x) * 4 + k < file.width * file.height * 4 := by
      have hrow : (y + 1) * file.width ≤ file.height * file.width := Nat.mul_le_mul_right _ hy
      rw [Nat.add_mul, Nat.mul_comm file.height] at hrow
      omega
    simp [TgaFile.decoded, hplace]

theorem CookerJob.Bakes.source_eq (h : job.Bakes system file t) : t.source = file.cooked := by
  have hpixels := h.pixels_eq
  have hbytes : t.pixels.length = file.width * file.height * 4 := by
    rw [t.pixels_length, h.width, h.height]
  have hwidth : t.width = UInt32.ofNat file.width :=
    UInt32.toNat_inj.mp (h.width.trans file.width_toNat.symm)
  have hheight : t.height = UInt32.ofNat file.height :=
    UInt32.toNat_inj.mp (h.height.trans file.height_toNat.symm)
  simp only [MbaTexture.source, TgaFile.cooked, hwidth, hheight, hpixels,
    ← hpixels ▸ hbytes]

theorem CookerJob.bakes_of_source {canonical : List UInt8}
    (hcontents : system.contents job.input = some file.bytes)
    (hwhole : system.readsWhole job.input = true)
    (hnormal : NormalizesTo job.assetPath.text canonical) (hid : t.assetId = assetIdOf canonical)
    (hsource : t.source = file.cooked) : job.Bakes system file t where
  contents := hcontents
  whole := hwhole
  named := ⟨canonical, hnormal, hid⟩
  width := (congrArg (fun source => source.width.toNat) hsource).trans file.width_toNat
  height := (congrArg (fun source => source.height.toNat) hsource).trans file.height_toNat
  shows := by
    have hpixels : t.pixels = file.decoded :=
      Option.some.inj (congrArg MbaTextureSource.rgba8 hsource)
    rw [hpixels]
    exact file.cooked_shows

theorem cookerBake_file (system : CookerSystem) (job : CookerJob) (t : MbaTexture) :
    cookerBake system job t.assetId t.source = cookerWriteFile system job.output t.file := by
  have hmeasure := (mbaTextureMeasure_iff t.assetId t.id_ne).mpr ⟨t, rfl, rfl, rfl⟩
  rw [cookerBake, hmeasure]
  dsimp only
  rw [t.encodes _ (Nat.le_refl _)]
  dsimp only
  rw [if_neg fun h => h rfl, ← t.file_length, memcpy_range_zero]

theorem cookerBake_refuses {assetId : AssetId} {texture : MbaTextureSource}
    (hid : assetId ≠ assetIdNull) (hno : ∀ t : MbaTexture, t.assetId = assetId → t.source ≠ texture) :
    cookerBake system job assetId texture = cookerRefuses := by
  have hmeasure : mbaTextureMeasure (some texture) = none := by
    cases h : mbaTextureMeasure (some texture) with
    | none => rfl
    | some bytes =>
      obtain ⟨t, ht, hsource, -⟩ := (mbaTextureMeasure_iff assetId hid).mp h
      exact absurd hsource (hno t ht)
  rw [cookerBake, hmeasure]

theorem TgaFile.bytes_ne (file : TgaFile) : file.bytes ≠ [] := by
  refine List.ne_nil_of_length_pos ?_
  rw [TgaFile.bytes, List.length_append, TgaHeader.bytes_length]
  omega

theorem cookerMain_comes {argv : List CString} {canonical : List UInt8} (hjob : job.GivenBy argv)
    (hnormal : NormalizesTo job.assetPath.text canonical) (hid : assetIdOf canonical ≠ assetIdNull)
    (hcontents : system.contents job.input = some file.bytes)
    (hwhole : system.readsWhole job.input = true) :
    cookerMain system argv =
      some (cookerBake system job (assetIdOf canonical) file.cooked) := by
  have hassetId : assetIdFromPath (some job.assetPath.bytes) assetIdNull =
      some (true, assetIdOf canonical) := by
    rcases assetIdFromPath_cases job.assetPath assetIdNull with ⟨other, hother, -, h⟩ | ⟨h, -⟩
    · rwa [hother.unique hnormal] at h
    · exact absurd (h canonical hnormal) hid
  have hread : cookerReadFile system job.input = some file.bytes := by
    rw [cookerReadFile, hcontents, Option.bind_some, if_neg]
    exact not_or.mpr ⟨file.bytes_ne, by simp [hwhole]⟩
  have hsize : file.width * file.height * 4 ≠ 0 :=
    Nat.mul_ne_zero (Nat.mul_ne_zero file.header.width_ne file.header.height_ne) (by decide)
  have hsource : decodedSource ⟨file.width, file.height, system.pixelsAt.toNat,
      file.info.place 0 file.body.pixels fun _ => 0⟩ (file.width * file.height * 4) =
        file.cooked := by
    simp only [decodedSource, TgaFile.cooked, TgaFile.decoded, readMemory, Nat.zero_add]
  rw [cookerMain, cookerParseOptions_iff.mpr hjob]
  dsimp only
  rw [hassetId, Option.bind_some, if_neg fun h => (by cases h), hread]
  dsimp only
  rw [file.tgaInspect_eq, Option.bind_some]
  dsimp only
  rw [cookerDecode_file system file hsize, Option.map_some]
  exact congrArg (fun texture => some (cookerBake system job _ texture)) hsource

theorem cookerMain_bakes {argv : List CString} (hjob : job.GivenBy argv)
    (hbakes : job.Bakes system file t) :
    cookerMain system argv = some (cookerWriteFile system job.output t.file) := by
  obtain ⟨canonical, hnormal, hid⟩ := hbakes.named
  rw [cookerMain_comes hjob hnormal (hid ▸ t.id_ne) hbakes.contents hbakes.whole, ← hid,
    ← hbakes.source_eq, cookerBake_file]

theorem cookerMain_refuses {argv : List CString} (hjob : job.GivenBy argv)
    (hno : ∀ file t, ¬ job.Bakes system file t) : cookerMain system argv = some cookerRefuses := by
  rcases assetIdFromPath_cases job.assetPath assetIdNull with
    ⟨canonical, hnormal, hid, hassetId⟩ | ⟨-, hassetId⟩
  · by_cases hfile : ∃ file : TgaFile, system.contents job.input = some file.bytes ∧
      system.readsWhole job.input = true
    · obtain ⟨file, hcontents, hwhole⟩ := hfile
      rw [cookerMain_comes hjob hnormal hid hcontents hwhole, cookerBake_refuses hid]
      exact fun t ht hsource => hno file t
        (CookerJob.bakes_of_source hcontents hwhole hnormal ht hsource)
    · rw [cookerMain, cookerParseOptions_iff.mpr hjob]
      dsimp only
      rw [hassetId, Option.bind_some, if_neg fun h => (by cases h)]
      cases hread : cookerReadFile system job.input with
      | none => rfl
      | some data =>
        obtain ⟨other, hcontents, hdata⟩ := Option.bind_eq_some_iff.mp hread
        split at hdata
        · cases hdata
        next hreadable =>
        cases hdata
        have hwhole : system.readsWhole job.input = true :=
          Bool.eq_true_of_not_eq_false fun h => hreadable (.inr h)
        have hinspect : tgaInspect (some data) = some none := by
          rw [tgaInspect, inspectTga_rejects fun file hbytes =>
            hfile ⟨file, hbytes ▸ hcontents, hwhole⟩]
          rfl
        dsimp only
        rw [hinspect]
        rfl
  · rw [cookerMain, cookerParseOptions_iff.mpr hjob]
    dsimp only
    rw [hassetId]
    rfl

theorem cookerMain_usage {argv : List CString} (hno : ∀ job : CookerJob, ¬ job.GivenBy argv) :
    cookerMain system argv = some ⟨2, none⟩ := by
  have hparse : cookerParseOptions argv = none := by
    cases h : cookerParseOptions argv with
    | none => rfl
    | some job => exact absurd (cookerParseOptions_iff.mp h) (hno job)
  rw [cookerMain, hparse]

theorem CookerJob.Bakes.loads_same {w u u' : AssetWorld} {cooked loose : PlatformFile}
    {scratch : Nat → UInt8} {texture : AssetTextureSource} {canonical : List UInt8}
    (h : job.Bakes system file t) (hnormal : NormalizesTo job.assetPath.text canonical)
    (hcooked : cooked.data = some t.file) (hloose : loose.data = some file.bytes)
    (hdecoded : decodedTexture scratch loose u = some (some texture, u')) :
    ∃ baked, bakedTexture (assetIdOf canonical) cooked w = some (some baked, w) ∧
      ∀ gpu content, baked.Shows gpu content ↔ texture.Shows gpu content := by
  obtain ⟨named, hnamed, hid⟩ := h.named
  rw [hnamed.unique hnormal] at hid
  have hbaked : bakedTexture (assetIdOf canonical) cooked w =
      some (some ⟨some fun i => t.pixels.getD i 0, t.width, t.height⟩, w) := by
    rw [bakedTexture, hcooked, mbaInspect_file, Option.map_some, Option.bind_some,
      if_pos ⟨hid, rfl⟩]
    rfl
  have htexture : texture = ⟨some (file.info.place 0 file.body.pixels scratch),
      UInt32.ofNat file.width, UInt32.ofNat file.height⟩ := by
    rw [decodedTexture, hloose, file.tgaInspect_eq, Option.bind_some] at hdecoded
    dsimp only at hdecoded
    split at hdecoded
    · cases hdecoded
    rw [file.tgaDecode_eq, Option.map_map] at hdecoded
    obtain ⟨r, -, hr⟩ := Option.map_eq_some_iff.mp hdecoded
    rw [Function.comp_apply] at hr
    split at hr
    · cases hr
    · exact (Option.some.inj (Prod.mk.inj hr).1).symm
  have hwidth : t.width = UInt32.ofNat file.width :=
    UInt32.toNat_inj.mp (h.width.trans file.width_toNat.symm)
  have hheight : t.height = UInt32.ofNat file.height :=
    UInt32.toNat_inj.mp (h.height.trans file.height_toNat.symm)
  have hpixels : readMemory (fun i => t.pixels.getD i 0) 0 (textureBytes t.width t.height) =
      readMemory (file.info.place 0 file.body.pixels scratch) 0 (textureBytes t.width t.height) := by
    refine List.map_inj_left.mpr fun i hi => ?_
    rw [textureBytes, h.width, h.height, List.mem_range] at hi
    rw [Nat.zero_add]
    exact h.shows.unique (file.shows scratch) i hi
  refine ⟨_, hbaked, fun gpu content => ?_⟩
  rw [htexture, ← hwidth, ← hheight]
  simp only [AssetTextureSource.Shows, AssetTextureSource.content, Option.some.injEq,
    exists_eq_left', hpixels]

theorem CookerJob.GivenBy.unique {other : CookerJob} {argv : List CString} (h : job.GivenBy argv)
    (hother : other.GivenBy argv) : job = other :=
  Option.some.inj ((cookerParseOptions_iff.mpr h).symm.trans (cookerParseOptions_iff.mpr hother))

structure CookerJob.Opens (job : CookerJob) (system : CookerSystem) : Prop where
  parent : system.createsParent job.output = true
  output : system.opensOutput job.output = true

theorem cookerWriteFile_opens (hopens : job.Opens system) (t : MbaTexture) :
    cookerWriteFile system job.output t.file =
      ⟨if system.takesBytes job.output then 0 else 1, some t.file⟩ := by
  have hne : t.file ≠ [] := by
    refine List.ne_nil_of_length_pos ?_
    rw [t.file_length, MbaTexture.fileBytes, mbaHeaderBytes]
    omega
  rw [cookerWriteFile, if_neg]
  rintro (h | h | h)
  · exact hne h
  · rw [hopens.parent] at h
    cases h
  · rw [hopens.output] at h
    cases h

theorem cookerWriteFile_closed (hclosed : ¬ job.Opens system) (bytes : List UInt8) :
    cookerWriteFile system job.output bytes = cookerRefuses := by
  refine if_pos (or_iff_not_imp_left.mpr fun _ => or_iff_not_imp_left.mpr fun hparent => ?_)
  exact Bool.eq_false_of_not_eq_true fun houtput =>
    hclosed ⟨Bool.eq_true_of_not_eq_false hparent, houtput⟩

structure CookerEnd.Exact (stop : CookerEnd) (system : CookerSystem) (argv : List CString) :
    Prop where
  code : stop.code ≤ 2
  usage : stop.code = 2 ↔ ∀ job : CookerJob, ¬ job.GivenBy argv
  cooked : stop.code = 0 ↔ ∃ (job : CookerJob) (file : TgaFile) (t : MbaTexture),
    job.GivenBy argv ∧ job.Bakes system file t ∧ job.Opens system ∧
      system.takesBytes job.output = true
  handed : ∀ bytes, stop.handed = some bytes ↔
    ∃ (job : CookerJob) (file : TgaFile) (t : MbaTexture),
      job.GivenBy argv ∧ job.Bakes system file t ∧ job.Opens system ∧ bytes = t.file

theorem cookerMain_hands {argv : List CString} (hjob : job.GivenBy argv)
    (hbakes : job.Bakes system file t) (hopens : job.Opens system) :
    cookerMain system argv =
      some ⟨if system.takesBytes job.output then 0 else 1, some t.file⟩ :=
  (cookerMain_bakes hjob hbakes).trans (congrArg some (cookerWriteFile_opens hopens t))

theorem cookerEnd_exact_hands {argv : List CString} (hjob : job.GivenBy argv)
    (hbakes : job.Bakes system file t) (hopens : job.Opens system) :
    CookerEnd.Exact ⟨if system.takesBytes job.output then 0 else 1, some t.file⟩ system argv where
  code := by
    dsimp only
    split <;> decide
  usage := by
    refine iff_of_false ?_ fun h => h job hjob
    dsimp only
    split <;> decide
  cooked := by
    constructor
    · intro h
      refine ⟨job, file, t, hjob, hbakes, hopens, Decidable.byContradiction fun hrefuses => ?_⟩
      rw [if_neg hrefuses] at h
      cases h
    · rintro ⟨other, -, -, hother, -, -, htakes⟩
      rw [hjob.unique hother]
      exact if_pos htakes
  handed bytes := by
    constructor
    · rintro ⟨⟩
      exact ⟨job, file, t, hjob, hbakes, hopens, rfl⟩
    · rintro ⟨other, file', t', hother, hbakes', hopens', rfl⟩
      have hsame := (cookerMain_hands hjob hbakes hopens).symm.trans
        (cookerMain_hands hother hbakes' hopens')
      exact congrArg CookerEnd.handed (Option.some.inj hsame)

theorem cookerEnd_exact_refuses {argv : List CString} (hjob : job.GivenBy argv)
    (hno : ∀ file t, job.Bakes system file t → ¬ job.Opens system) :
    cookerRefuses.Exact system argv where
  code := by decide
  usage := iff_of_false (by decide) fun h => h job hjob
  cooked := by
    refine iff_of_false (by decide) ?_
    rintro ⟨other, file, t, hother, hbakes, hopens, -⟩
    obtain rfl := hjob.unique hother
    exact hno file t hbakes hopens
  handed bytes := by
    refine iff_of_false (fun h => (by cases h)) ?_
    rintro ⟨other, file, t, hother, hbakes, hopens, -⟩
    obtain rfl := hjob.unique hother
    exact hno file t hbakes hopens

theorem cookerMain_exact (system : CookerSystem) (argv : List CString) :
    (∃ stop, cookerMain system argv = some stop ∧ stop.Exact system argv) ∧
    ∀ (job : CookerJob) (file : TgaFile) (t : MbaTexture) (canonical : List UInt8),
      job.Bakes system file t → NormalizesTo job.assetPath.text canonical →
      ∀ (cooked loose : PlatformFile), cooked.data = some t.file → loose.data = some file.bytes →
      ∀ scratch w u u' texture, decodedTexture scratch loose u = some (some texture, u') →
      ∃ baked, bakedTexture (assetIdOf canonical) cooked w = some (some baked, w) ∧
        ∀ gpu content, baked.Shows gpu content ↔ texture.Shows gpu content := by
  refine ⟨?_, fun job file t canonical hbakes hnormal cooked loose hcooked hloose scratch w u u'
    texture hdecoded => hbakes.loads_same hnormal hcooked hloose hdecoded⟩
  by_cases hgiven : ∃ job : CookerJob, job.GivenBy argv
  · obtain ⟨job, hjob⟩ := hgiven
    by_cases hbakes : ∃ file t, job.Bakes system file t
    · obtain ⟨file, t, hbakes⟩ := hbakes
      by_cases hopens : job.Opens system
      · exact ⟨_, cookerMain_hands hjob hbakes hopens, cookerEnd_exact_hands hjob hbakes hopens⟩
      · refine ⟨_, (cookerMain_bakes hjob hbakes).trans
          (congrArg some (cookerWriteFile_closed hopens t.file)), cookerEnd_exact_refuses hjob ?_⟩
        exact fun _ _ _ h => hopens h
    · have hno : ∀ file t, ¬ job.Bakes system file t := fun file t h => hbakes ⟨file, t, h⟩
      exact ⟨_, cookerMain_refuses hjob hno, cookerEnd_exact_refuses hjob
        fun file t h => absurd h (hno file t)⟩
  · have hno : ∀ job : CookerJob, ¬ job.GivenBy argv := fun job h => hgiven ⟨job, h⟩
    exact ⟨_, cookerMain_usage hno, {
      code := Nat.le_refl 2
      usage := iff_of_true rfl hno
      cooked := iff_of_false (by decide) fun ⟨job, _, _, h, _⟩ => hno job h
      handed := fun bytes => iff_of_false (fun h => (by cases h))
        fun ⟨job, _, _, h, _⟩ => hno job h }⟩

def pairSystem : CookerSystem where
  contents _ := some rawPair.bytes
  readsWhole _ := true
  createsParent _ := true
  opensOutput _ := true
  takesBytes _ := true
  pixelsAt := 4096
  pixelsAt_ne := by decide
  pixelsAt_aligned := by decide
  pixelsAt_below := by decide

def pairJob : CookerJob where
  input := .of (ascii "pair.tga")
  assetPath := .of (ascii "Pair.mba")
  output := .of (ascii "out.mba")

def pairArguments : List CString :=
  [.of (ascii "cooker"), .of cookerOutputOption, pairJob.output, .of cookerInputOption,
    pairJob.input, .of cookerAssetOption, pairJob.assetPath]

theorem cookerMain_exact_pair :
    ∃ stop, cookerMain pairSystem pairArguments = some stop ∧ stop.code = 0 := by
  obtain ⟨⟨stop, hstop, hexact⟩, -⟩ := cookerMain_exact pairSystem pairArguments
  have hgiven : pairJob.GivenBy pairArguments := cookerParseOptions_iff.mp rfl
  have hnamed : (assetIdFromPath (some pairJob.assetPath.bytes) assetIdNull).map Prod.fst =
      some true := by decide +kernel
  rcases assetIdFromPath_cases pairJob.assetPath assetIdNull with
    ⟨canonical, hnormal, hid, -⟩ | ⟨-, hrejects⟩
  · let texture : MbaTexture :=
      ⟨assetIdOf canonical, 2, 1, rawPair.decoded, hid, by decide, by decide, rfl, by decide⟩
    have hbakes : pairJob.Bakes pairSystem rawPair texture :=
      CookerJob.bakes_of_source rfl rfl hnormal rfl rfl
    exact ⟨stop, hstop, hexact.cooked.mpr
      ⟨pairJob, rawPair, texture, hgiven, hbakes, ⟨rfl, rfl⟩, rfl⟩⟩
  · rw [hrejects] at hnamed
    cases hnamed

end

end ChoonzMoba
