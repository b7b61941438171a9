import ChoonzMoba.Assets.TgaPackets

namespace ChoonzMoba

structure TgaHeader where
  id : List UInt8
  ignored : List UInt8
  width : UInt16
  height : UInt16
  bitsPerPixel : UInt8
  descriptor : UInt8
  id_length : id.length < 256
  ignored_length : ignored.length = 9
  width_ne : width.toNat ≠ 0
  height_ne : height.toNat ≠ 0
  depth : bitsPerPixel = 24 ∨ bitsPerPixel = 32
  leftToRight : descriptor &&& 0x10 = 0
  notInterleaved : descriptor &&& 0xC0 = 0
  attributes : descriptor &&& 0x0f = 0 ∨ bitsPerPixel = 32 ∧ descriptor &&& 0x0f = 8

namespace TgaHeader

variable (h : TgaHeader)

def bytes (imageType : UInt8) : List UInt8 :=
  ([UInt8.ofNat h.id.length, 0, imageType] ++ h.ignored) ++
    (LittleEndian.encode 2 h.width.toNat ++ (LittleEndian.encode 2 h.height.toNat ++
      (h.bitsPerPixel :: h.descriptor :: h.id)))

def bytesPerPixel : Nat := (h.bitsPerPixel / 8).toNat

def pixelCount : Nat := h.width.toNat * h.height.toNat

def topLeft : Bool := decide (h.descriptor &&& 0x20 ≠ 0)

def info (imageType : UInt8) (available : Nat) : TgaInfo where
  pixels := 18 + h.id.length
  pixelBytesAvailable := available
  pixelCount := h.pixelCount
  width := h.width.toNat
  height := h.height.toNat
  bytesPerPixel := h.bytesPerPixel
  imageType := imageType
  topLeft := h.topLeft

theorem bytes_length (imageType : UInt8) : (h.bytes imageType).length = 18 + h.id.length := by
  simp [bytes, h.ignored_length]
  omega

theorem bytes_set (imageType other : UInt8) : (h.bytes imageType).set 2 other = h.bytes other := rfl

theorem bytesPerPixel_range : 0 < h.bytesPerPixel ∧ h.bytesPerPixel ≤ 4 := by
  rw [bytesPerPixel]
  rcases h.depth with hd | hd <;> rw [hd] <;> decide

theorem pixelCount_lt : h.pixelCount < 2 ^ 32 := by
  have hwidth := Nat.le_of_lt_succ h.width.toNat_lt
  have hheight := Nat.le_of_lt_succ h.height.toNat_lt
  calc h.pixelCount ≤ 65535 * 65535 := Nat.mul_le_mul hwidth hheight
    _ < 2 ^ 32 := by decide

end TgaHeader

theorem tgaReadU16le_eq {data : List UInt8} {offset : Nat} (h : offset + 2 ≤ data.length) :
    tgaReadU16le data offset = some (LittleEndian.decode (slice data offset 2)) := by
  have hvalue := uint16_value fun i => data.getD (offset + i) 0
  rw [← slice_eq_map h] at hvalue
  rw [tgaReadU16le, getElem?_eq_getD (by omega), Option.bind_some, getElem?_eq_getD (by omega),
    Option.map_some, ← hvalue]
  rfl

theorem tgaReadU16le_after (front rest : List UInt8) (value : UInt16) :
    tgaReadU16le (front ++ (LittleEndian.encode 2 value.toNat ++ rest)) front.length =
      some value.toNat := by
  have hslice : slice (front ++ (LittleEndian.encode 2 value.toNat ++ rest)) front.length 2 =
      LittleEndian.encode 2 value.toNat :=
    (slice_append_left front _ 0 2).trans (slice_front (LittleEndian.encode_length _ _) rest)
  rw [tgaReadU16le_eq, hslice, LittleEndian.decode_encode_of_lt value.toNat_lt]
  rw [List.length_append, List.length_append, LittleEndian.encode_length]
  omega

theorem TgaHeader.reads (h : TgaHeader) (imageType : UInt8) (rest : List UInt8) :
    (h.bytes imageType ++ rest)[0]? = some (UInt8.ofNat h.id.length) ∧
      (h.bytes imageType ++ rest)[1]? = some 0 ∧
      (h.bytes imageType ++ rest)[2]? = some imageType ∧
      tgaReadU16le (h.bytes imageType ++ rest) 12 = some h.width.toNat ∧
      tgaReadU16le (h.bytes imageType ++ rest) 14 = some h.height.toNat ∧
      (h.bytes imageType ++ rest)[16]? = some h.bitsPerPixel ∧
      (h.bytes imageType ++ rest)[17]? = some h.descriptor := by
  let front : List UInt8 := [UInt8.ofNat h.id.length, 0, imageType] ++ h.ignored
  let size : List UInt8 := LittleEndian.encode 2 h.width.toNat
  have hfront : front.length = 12 := by
    rw [List.length_append, h.ignored_length]
    rfl
  have hsize : (front ++ size).length = 14 := by
    rw [List.length_append, hfront, LittleEndian.encode_length]
  have htail : (front ++ size ++ LittleEndian.encode 2 h.height.toNat).length = 16 := by
    rw [List.length_append, hsize, LittleEndian.encode_length]
  have htwelve : h.bytes imageType ++ rest = front ++ (size ++
      (LittleEndian.encode 2 h.height.toNat ++ (h.bitsPerPixel :: h.descriptor :: (h.id ++ rest)))) := by
    simp only [bytes, front, size, List.append_assoc, List.cons_append]
  have hfourteen := htwelve
  rw [← List.append_assoc front] at hfourteen
  have hsixteen := hfourteen
  rw [← List.append_assoc (front ++ size)] at hsixteen
  refine ⟨rfl, rfl, rfl, ?_, ?_, ?_, ?_⟩
  · rw [htwelve, ← hfront]
    exact tgaReadU16le_after front _ h.width
  · rw [hfourteen, ← hsize]
    exact tgaReadU16le_after (front ++ size) _ h.height
  · rw [hsixteen, List.getElem?_append_right (by omega), htail]
    rfl
  · rw [hsixteen, List.getElem?_append_right (by omega), htail]
    rfl

theorem inspectTga_header (h : TgaHeader) {imageType : UInt8}
    (himage : imageType = 2 ∨ imageType = 10) (rest : List UInt8) :
    inspectTga (some (h.bytes imageType ++ rest)) =
      (tgaPixelsPresent (h.bytes imageType ++ rest) imageType (18 + h.id.length) rest.length
        h.bytesPerPixel h.pixelCount).map fun present =>
          if present then some (h.info imageType rest.length) else none := by
  have hlength : (h.bytes imageType ++ rest).length = 18 + h.id.length + rest.length := by
    rw [List.length_append, h.bytes_length]
  have hid : (UInt8.ofNat h.id.length).toNat = h.id.length := by
    rw [UInt8.toNat_ofNat', Nat.mod_eq_of_lt h.id_length]
  obtain ⟨h0, h1, h2, h12, h14, h16, h17⟩ := h.reads imageType rest
  rw [inspectTga]
  simp only [h0, h1, h2, h12, h14, h16, h17, Option.bind_some, hid]
  rw [if_neg (by omega), if_neg, if_neg, if_neg (by omega)]
  · have havailable : (h.bytes imageType ++ rest).length - (18 + h.id.length) = rest.length := by
      omega
    rw [havailable]
    rfl
  · have hattributes := h.attributes
    rintro (⟨hbits, hne⟩ | ⟨-, hne, hne'⟩)
    · rcases hattributes with hzero | ⟨hother, -⟩
      · exact hne hzero
      · rw [hbits] at hother
        cases hother
    · rcases hattributes with hzero | ⟨-, height⟩
      · exact hne hzero
      · exact hne' height
  · rintro (hmap | ⟨hraw, hrle⟩ | ⟨hbits, hbits'⟩ | hwidth | hheight | hright | hinterleaved)
    · exact hmap rfl
    · exact himage.elim hraw hrle
    · exact h.depth.elim hbits hbits'
    · exact h.width_ne hwidth
    · exact h.height_ne hheight
    · exact hright h.leftToRight
    · exact hinterleaved h.notInterleaved

theorem exists_size {data : List UInt8} {offset value : Nat} (h : offset + 2 ≤ data.length)
    (hread : tgaReadU16le data offset = some value) : ∃ size : UInt16, size.toNat = value ∧
      LittleEndian.encode 2 size.toNat = slice data offset 2 := by
  rw [tgaReadU16le_eq h] at hread
  obtain rfl := Option.some.inj hread
  have hlt := LittleEndian.decode_lt (slice data offset 2)
  rw [slice_length h] at hlt
  refine ⟨UInt16.ofNat (LittleEndian.decode (slice data offset 2)),
    UInt16.toNat_ofNat_of_lt' hlt, ?_⟩
  rw [LittleEndian.encode_uint16_ofNat, encode_decode_slice h]

theorem header_split {data : List UInt8}
    {idLength colorMapType imageType bitsPerPixel descriptor : UInt8} {width height : UInt16}
    (hsize : 18 ≤ data.length) (h0 : data[0]? = some idLength)
    (h1 : data[1]? = some colorMapType) (h2 : data[2]? = some imageType)
    (hwidth : LittleEndian.encode 2 width.toNat = slice data 12 2)
    (hheight : LittleEndian.encode 2 height.toNat = slice data 14 2)
    (h16 : data[16]? = some bitsPerPixel) (h17 : data[17]? = some descriptor) :
    ([idLength, colorMapType, imageType] ++ slice data 3 9) ++
        (LittleEndian.encode 2 width.toNat ++ (LittleEndian.encode 2 height.toNat ++
          ([bitsPerPixel, descriptor] ++ slice data 18 idLength.toNat))) ++
      data.drop (18 + idLength.toNat) = data := by
  have hfront : slice data 0 3 = [idLength, colorMapType, imageType] := by
    rw [slice_eq_map (by omega)]
    simp [List.range_succ, h0, h1, h2]
  have hmiddle : slice data 16 2 = [bitsPerPixel, descriptor] := by
    rw [slice_eq_map (by omega)]
    simp [List.range_succ, h16, h17]
  rw [← hfront, ← hmiddle, hwidth, hheight]
  simp only [List.append_assoc]
  rw [slice_append_drop, slice_append_drop data 16, slice_append_drop data 14,
    slice_append_drop data 12, slice_append_drop data 3, slice_append_drop data 0, List.drop_zero]

theorem exists_header {data : List UInt8} {info : TgaInfo}
    (h : inspectTga (some data) = some (some info)) : ∃ (header : TgaHeader) (imageType : UInt8)
      (rest : List UInt8), (imageType = 2 ∨ imageType = 10) ∧
        data = header.bytes imageType ++ rest := by
  rw [inspectTga] at h
  dsimp only at h
  by_cases hsize : data.length < 18
  · rw [if_pos hsize] at h
    cases h
  rw [Nat.not_lt] at hsize
  obtain ⟨idLength, h0⟩ : ∃ b, data[0]? = some b := exists_getElem? (by omega)
  obtain ⟨colorMapType, h1⟩ : ∃ b, data[1]? = some b := exists_getElem? (by omega)
  obtain ⟨imageType, h2⟩ : ∃ b, data[2]? = some b := exists_getElem? (by omega)
  obtain ⟨width, h12⟩ : ∃ v, tgaReadU16le data 12 = some v := tgaReadU16le_total (by omega)
  obtain ⟨height, h14⟩ : ∃ v, tgaReadU16le data 14 = some v := tgaReadU16le_total (by omega)
  obtain ⟨bitsPerPixel, h16⟩ : ∃ b, data[16]? = some b := exists_getElem? (by omega)
  obtain ⟨descriptor, h17⟩ : ∃ b, data[17]? = some b := exists_getElem? (by omega)
  simp only [if_neg (Nat.not_lt_of_le hsize), h0, h1, h2, h12, h14, h16, h17, Option.bind_some] at h
  split at h
  · cases h
  next hheader =>
  split at h
  · cases h
  next hattributes =>
  split at h
  · cases h
  next hid =>
  clear h
  simp only [not_or, not_and_or, not_not] at hheader hattributes
  obtain ⟨rfl, himage, hbits, hwidth, hheight, hright, hinterleaved⟩ := hheader
  obtain ⟨width', rfl, hwidth'⟩ := exists_size (by omega) h12
  obtain ⟨height', rfl, hheight'⟩ := exists_size (by omega) h14
  have hidLength : (slice data 18 idLength.toNat).length = idLength.toNat := slice_length (by omega)
  have hidByte : UInt8.ofNat (slice data 18 idLength.toNat).length = idLength := by
    rw [hidLength, UInt8.ofNat_toNat]
  let header : TgaHeader :=
    { id := slice data 18 idLength.toNat
      ignored := slice data 3 9
      width := width'
      height := height'
      bitsPerPixel := bitsPerPixel
      descriptor := descriptor
      id_length := by
        rw [hidLength]
        exact idLength.toNat_lt
      ignored_length := slice_length (by omega)
      width_ne := hwidth
      height_ne := hheight
      depth := hbits
      leftToRight := hright
      notInterleaved := hinterleaved
      attributes := by
        rcases hbits with rfl | rfl
        · exact .inl (hattributes.1.resolve_left (not_not.mpr rfl))
        · exact (hattributes.2.resolve_left (not_not.mpr rfl)).imp id fun h8 => ⟨rfl, h8⟩ }
  refine ⟨header, imageType, data.drop (18 + idLength.toNat), himage, ?_⟩
  rw [TgaHeader.bytes, hidByte]
  exact (header_split hsize h0 h1 h2 hwidth' hheight' h16 h17).symm

structure TgaFile where
  header : TgaHeader
  body : TgaBody
  tail : List UInt8
  count : body.pixels.length = header.pixelCount
  depth : ∀ pixel ∈ body.pixels, pixel.length = header.bytesPerPixel

namespace TgaFile

variable (file : TgaFile)

def bytes : List UInt8 :=
  file.header.bytes file.body.imageType ++ (file.body.bytes ++ file.tail)

def info : TgaInfo :=
  file.header.info file.body.imageType (file.body.bytes ++ file.tail).length

def width : Nat := file.header.width.toNat

def height : Nat := file.header.height.toNat

theorem imageType_range : file.body.imageType = 2 ∨ file.body.imageType = 10 := by
  cases file.body with
  | raw pixels => exact .inl rfl
  | rle packets => exact .inr rfl

theorem inspectTga_eq : inspectTga (some file.bytes) = some (some file.info) := by
  have hfront := file.header.bytes_length file.body.imageType
  have hdata : file.bytes = file.header.bytes file.body.imageType ++ (file.body.bytes ++ file.tail) :=
    rfl
  have hextent := congrArg List.length hdata
  rw [List.length_append, hfront] at hextent
  have hpresent := file.body.present hdata hfront hextent.symm file.depth
    file.header.bytesPerPixel_range file.count file.header.pixelCount_lt
  rw [hdata] at hpresent ⊢
  rw [inspectTga_header file.header file.imageType_range, hpresent]
  rfl

theorem valid : file.info.Valid file.bytes := by
  obtain ⟨r, hr, hvalid⟩ := inspectTga_total (some file.bytes)
  rw [file.inspectTga_eq, Option.some.injEq] at hr
  obtain ⟨data, hdata, hinfo⟩ := hvalid file.info hr.symm
  rwa [Option.some.inj hdata]

theorem data_eq : file.bytes = file.header.bytes file.body.imageType ++
    (file.body.bytes ++ file.tail) := rfl

theorem sources_read : ReadsPixels file.bytes file.info.bytesPerPixel
    (file.body.sources file.info) file.body.pixels :=
  file.body.sources_read file.data_eq (file.header.bytes_length _) file.depth

theorem decode_eq (rgba8 : Nat → UInt8) :
    (if file.info.imageType = 2 then tgaDecodeRaw file.bytes file.info rgba8
      else tgaDecodeLoop file.bytes file.info (file.info.pixelCount + 1) rgba8 0 0) =
      some (file.info.place 0 file.body.pixels rgba8) :=
  file.valid.decode_eq file.data_eq (file.header.bytes_length _) rfl file.depth file.count rgba8

theorem pixelCount_fits : ¬ sizeMax / 4 < file.info.pixelCount := by
  have hlt := file.header.pixelCount_lt
  refine Nat.not_lt_of_le (Nat.le_trans (Nat.le_of_lt hlt) ?_)
  decide

theorem tgaInspect_eq : tgaInspect (some file.bytes) =
    some (some (file.width, file.height, file.width * file.height * 4)) := by
  rw [tgaInspect, file.inspectTga_eq, Option.map_some, Option.bind_some,
    if_neg file.pixelCount_fits]
  rfl

theorem tgaDecode_eq {σ : Type} (alloc : Allocator σ) (state : σ) (fresh : Nat → UInt8) :
    tgaDecode (some file.bytes) alloc state fresh =
      (memAlloc alloc state (file.width * file.height * 4) memDefaultAlign).map fun r =>
        if r.1 = 0 then (none, r.2)
        else (some ⟨file.width, file.height, r.1, file.info.place 0 file.body.pixels fresh⟩, r.2) := by
  have hbytes : file.info.pixelCount * 4 = file.width * file.height * 4 := rfl
  rw [tgaDecode]
  dsimp only
  rw [file.inspectTga_eq, Option.bind_some]
  dsimp only
  rw [if_neg file.pixelCount_fits, file.decode_eq, hbytes]
  cases memAlloc alloc state (file.width * file.height * 4) memDefaultAlign with
  | none => rfl
  | some r =>
    simp only [Option.bind_some, Option.map_some]
    split <;> rfl

structure WritesOnce : Prop where
  count : (file.body.sources file.info).length = file.width * file.height
  reads : ReadsPixels file.bytes file.info.bytesPerPixel (file.body.sources file.info)
    file.body.pixels
  writes : ∀ {σ : Type} (write : σ → Nat → Nat → Option σ) (s : σ),
    tgaDecodeWith write file.bytes file.info s =
      writeEach write 0 (file.body.sources file.info) s
  places : ((List.range (file.width * file.height)).map
    (outputPixel file.width file.height file.header.topLeft)).Perm
      (List.range (file.width * file.height))

theorem writesOnce : file.WritesOnce where
  count := (file.body.sources_length file.info).trans file.count
  reads := file.sources_read
  writes write s := file.body.decodeWith_eq write file.data_eq (file.header.bytes_length _) rfl
    file.depth file.count s
  places := outputPixel_perm _ _ _

structure Shows (rgba8 : Nat → UInt8) : Prop where
  pixel : ∀ y < file.height, ∀ x < file.width, ∃ pixel : List UInt8,
    file.body.pixels[(if file.header.topLeft then y else file.height - 1 - y) * file.width + x]? =
        some pixel ∧
      (List.range 4).map (fun k => rgba8 ((y * file.width + x) * 4 + k)) =
        [pixel.getD 2 0, pixel.getD 1 0, pixel.getD 0 0,
          if file.header.bytesPerPixel = 4 then pixel.getD 3 0 else 255]

theorem shows (rgba8 : Nat → UInt8) : file.Shows (file.info.place 0 file.body.pixels rgba8) where
  pixel y hy x hx := by
    have hplace := outputPixel_row file.header.topLeft hx hy
    generalize hi : (if file.header.topLeft then y else file.height - 1 - y) * file.width + x = i
      at hplace ⊢
    have hlt : i < file.body.pixels.length := by
      rw [file.count, ← hi]
      exact inputPixel_lt file.header.topLeft hx hy
    refine ⟨file.body.pixels[i], List.getElem?_eq_getElem hlt, ?_⟩
    have hlength := file.depth _ (List.getElem_mem hlt)
    have hcount : file.body.pixels.length = file.info.width * file.info.height := file.count
    rw [← hplace, ← rgbaOf_eq hlength file.valid.bytesPerPixel]
    exact TgaInfo.place_pixel hcount hlt rgba8

end TgaFile

theorem exists_file {data : List UInt8} {info : TgaInfo}
    (h : inspectTga (some data) = some (some info)) :
    ∃ file : TgaFile, file.bytes = data ∧ file.info = info := by
  obtain ⟨header, imageType, rest, himage, rfl⟩ := exists_header h
  rw [inspectTga_header header himage] at h
  obtain ⟨present, hpresent, hinfo⟩ := Option.map_eq_some_iff.mp h
  cases present with
  | false => cases hinfo
  | true =>
    cases hinfo
    have hfront := header.bytes_length imageType
    obtain ⟨body, tail, rfl, rfl, hdepth, hcount⟩ := exists_body himage rfl hfront
      (by rw [List.length_append, hfront]) header.bytesPerPixel_range hpresent
    exact ⟨⟨header, body, tail, hcount, hdepth⟩, rfl, rfl⟩

theorem inspectTga_rejects {data : List UInt8} (hno : ∀ file : TgaFile, file.bytes ≠ data) :
    inspectTga (some data) = some none := by
  obtain ⟨r, hr, -⟩ := inspectTga_total (some data)
  cases r with
  | none => exact hr
  | some info =>
    obtain ⟨file, hfile, -⟩ := exists_file hr
    exact absurd hfile (hno file)

section

variable {σ : Type}

theorem tgaInspectInto_eq (bytes : Option (List UInt8)) (width height rgba8Bytes : Nat) :
    tgaInspectInto bytes (some width) (some height) (some rgba8Bytes) =
      (tgaInspect bytes).map fun r =>
        match r with
        | none => (false, some width, some height, some rgba8Bytes)
        | some (width, height, rgba8Bytes) => (true, some width, some height, some rgba8Bytes) := by
  unfold tgaInspectInto
  exact if_neg (by simp)

theorem tgaDecode_exact (data : List UInt8) (alloc : Allocator σ) (state : σ)
    (fresh : Nat → UInt8) (width height rgba8Bytes : Nat) (prior : TgaImage) :
    (∀ file : TgaFile, file.bytes = data →
      tgaInspectInto (some data) (some width) (some height) (some rgba8Bytes) =
        some (true, some file.width, some file.height, some (file.width * file.height * 4)) ∧
      file.WritesOnce ∧
      ∀ address state',
        memAlloc alloc state (file.width * file.height * 4) memDefaultAlign =
          some (address, state') →
        (address = 0 → tgaDecodeInto (some data) alloc state fresh (some prior) =
          some (false, some prior, state')) ∧
        (address ≠ 0 → ∃ rgba8, tgaDecodeInto (some data) alloc state fresh (some prior) =
            some (true, some ⟨file.width, file.height, address, rgba8⟩, state') ∧
          tgaDecodeWith (writePixel data file.info) data file.info fresh = some rgba8 ∧
          file.Shows rgba8)) ∧
    ((∀ file : TgaFile, file.bytes ≠ data) →
      tgaInspectInto (some data) (some width) (some height) (some rgba8Bytes) =
        some (false, some width, some height, some rgba8Bytes) ∧
      tgaDecodeInto (some data) alloc state fresh (some prior) = some (false, some prior, state)) := by
  constructor
  · rintro file rfl
    refine ⟨?_, file.writesOnce, fun address state' halloc => ?_⟩
    · rw [tgaInspectInto_eq, file.tgaInspect_eq]
      rfl
    · rw [tgaDecodeInto, file.tgaDecode_eq, halloc]
      refine ⟨fun h => by simp [h], fun h => ?_⟩
      refine ⟨file.info.place 0 file.body.pixels fresh, by simp [h], ?_, file.shows fresh⟩
      rw [← tgaDecode_eq_with, file.decode_eq]
  · intro hno
    have hinspect := inspectTga_rejects hno
    constructor
    · rw [tgaInspectInto_eq, tgaInspect, hinspect]
      rfl
    · rw [tgaDecodeInto, tgaDecode]
      dsimp only
      rw [hinspect]
      rfl

def pairHeader : TgaHeader where
  id := []
  ignored := [0, 0, 0, 0, 0, 0, 0, 0, 0]
  width := 2
  height := 1
  bitsPerPixel := 24
  descriptor := 0x20
  id_length := by decide
  ignored_length := rfl
  width_ne := by decide
  height_ne := by decide
  depth := .inl rfl
  leftToRight := by decide
  notInterleaved := by decide
  attributes := .inl (by decide)

def runPair : TgaFile where
  header := pairHeader
  body := .rle [.run 2 [1, 2, 3] (by decide) (by decide)]
  tail := [9]
  count := rfl
  depth := by decide

def rawPair : TgaFile where
  header := pairHeader
  body := .raw [[1, 2, 3], [1, 2, 3]]
  tail := []
  count := rfl
  depth := by decide

theorem tgaDecode_exact_pair :
    let alloc : Allocator Unit := ⟨fun state _ _ _ _ => some (64, state)⟩
    let prior : TgaImage := ⟨0, 0, 0, fun _ => 0⟩
    tgaInspectInto (some runPair.bytes) (some 0) (some 0) (some 0) =
      some (true, some 2, some 1, some 8) ∧
    (∃ rgba8, tgaDecodeInto (some runPair.bytes) alloc () (fun _ => 0) (some prior) =
        some (true, some ⟨2, 1, 64, rgba8⟩, ()) ∧ runPair.Shows rgba8) ∧
    tgaDecodeInto (some []) alloc () (fun _ => 0) (some prior) =
      some (false, some prior, ()) := by
  intro alloc prior
  obtain ⟨hinspect, -, hdecode⟩ :=
    (tgaDecode_exact runPair.bytes alloc () (fun _ => 0) 0 0 0 prior).1 runPair rfl
  obtain ⟨rgba8, hrgba8, -, hshows⟩ := (hdecode 64 () rfl).2 (by decide)
  have hempty : ∀ file : TgaFile, file.bytes ≠ [] := fun file h => by
    have hlength := congrArg List.length h
    rw [file.data_eq, List.length_append, file.header.bytes_length, List.length_nil] at hlength
    omega
  exact ⟨hinspect, ⟨rgba8, hrgba8, hshows⟩,
    ((tgaDecode_exact [] alloc () (fun _ => 0) 0 0 0 prior).2 hempty).2⟩

theorem TgaFile.tgaDecode_congr (file other : TgaFile) (hheader : file.header = other.header)
    (hpixels : file.body.pixels = other.body.pixels) (alloc : Allocator σ) (state : σ)
    (fresh : Nat → UInt8) :
    tgaDecode (some file.bytes) alloc state fresh = tgaDecode (some other.bytes) alloc state fresh := by
  have hwidth : file.info.width = other.info.width := congrArg (·.width.toNat) hheader
  have hheight : file.info.height = other.info.height := congrArg (·.height.toNat) hheader
  have htopLeft : file.info.topLeft = other.info.topLeft := congrArg TgaHeader.topLeft hheader
  rw [file.tgaDecode_eq, other.tgaDecode_eq, TgaInfo.place_congr hwidth hheight htopLeft, hpixels,
    TgaFile.width, TgaFile.height, hheader]
  rfl

theorem exists_file_of_decode {data : List UInt8} {alloc : Allocator σ} {state state' : σ}
    {fresh : Nat → UInt8} {image : TgaImage}
    (h : tgaDecode (some data) alloc state fresh = some (some image, state')) :
    ∃ file : TgaFile, file.bytes = data := by
  by_contra hno
  rw [tgaDecode] at h
  dsimp only at h
  rw [inspectTga_rejects fun file hfile => hno ⟨file, hfile⟩] at h
  cases h

open RunLength

theorem tgaDecode_rle_raw {data : List UInt8} {alloc : Allocator σ} {state state' : σ}
    {fresh : Nat → UInt8} {image : TgaImage}
    (h : tgaDecode (some data) alloc state fresh = some (some image, state')) :
    (data[2]? = some 10 →
      ∃ (header : TgaHeader) (packets : List TgaPacket) (tail : List UInt8),
        data = header.bytes 10 ++ (packetsBytes packets ++ tail) ∧
        (expand packets).length = header.pixelCount ∧
        (∀ pixel ∈ expand packets, pixel.length = header.bytesPerPixel) ∧
        ∀ more, tgaDecode (some ((header.bytes 10).set 2 2 ++ ((expand packets).flatten ++ more)))
          alloc state fresh = some (some image, state')) ∧
    (data[2]? = some 2 →
      ∃ (header : TgaHeader) (pixels : List (List UInt8)) (tail : List UInt8),
        data = header.bytes 2 ++ (pixels.flatten ++ tail) ∧
        pixels.length = header.pixelCount ∧
        (∀ pixel ∈ pixels, pixel.length = header.bytesPerPixel) ∧
        ∀ packets : List TgaPacket, expand packets = pixels →
          ∀ more, tgaDecode (some ((header.bytes 2).set 2 10 ++ (packetsBytes packets ++ more)))
            alloc state fresh = some (some image, state')) := by
  obtain ⟨⟨header, body, tail, hcount, hdepth⟩, rfl⟩ := exists_file_of_decode h
  have htype := (header.reads body.imageType (body.bytes ++ tail)).2.2.1
  constructor
  · intro hrle
    cases body with
    | raw pixels =>
      rw [TgaFile.bytes, htype] at hrle
      cases hrle
    | rle packets =>
      refine ⟨header, packets, tail, rfl, hcount, hdepth, fun more => ?_⟩
      let rle : TgaFile := ⟨header, .rle packets, tail, hcount, hdepth⟩
      let raw : TgaFile := ⟨header, .raw (expand packets), more, hcount, hdepth⟩
      have hsame : tgaDecode (some raw.bytes) alloc state fresh =
          tgaDecode (some rle.bytes) alloc state fresh :=
        raw.tgaDecode_congr rle rfl rfl alloc state fresh
      rw [header.bytes_set]
      exact hsame.trans h
  · intro hraw
    cases body with
    | raw pixels =>
      refine ⟨header, pixels, tail, rfl, hcount, hdepth, ?_⟩
      rintro packets rfl more
      let raw : TgaFile := ⟨header, .raw (expand packets), tail, hcount, hdepth⟩
      let rle : TgaFile := ⟨header, .rle packets, more, hcount, hdepth⟩
      have hsame : tgaDecode (some rle.bytes) alloc state fresh =
          tgaDecode (some raw.bytes) alloc state fresh :=
        rle.tgaDecode_congr raw rfl rfl alloc state fresh
      rw [header.bytes_set]
      exact hsame.trans h
    | rle packets =>
      rw [TgaFile.bytes, htype] at hraw
      cases hraw

theorem tgaDecode_rle_raw_pair :
    let alloc : Allocator Unit := ⟨fun state _ _ _ _ => some (64, state)⟩
    let image : Nat → UInt8 := runPair.info.place 0 [[1, 2, 3], [1, 2, 3]] fun _ => 0
    (∃ (header : TgaHeader) (packets : List TgaPacket) (tail : List UInt8),
      runPair.bytes = header.bytes 10 ++ (packetsBytes packets ++ tail) ∧
      (expand packets).length = header.pixelCount ∧
      (∀ pixel ∈ expand packets, pixel.length = header.bytesPerPixel) ∧
      ∀ more, tgaDecode (some ((header.bytes 10).set 2 2 ++ ((expand packets).flatten ++ more)))
        alloc () (fun _ => 0) = some (some ⟨2, 1, 64, image⟩, ())) ∧
    (∃ (header : TgaHeader) (pixels : List (List UInt8)) (tail : List UInt8),
      rawPair.bytes = header.bytes 2 ++ (pixels.flatten ++ tail) ∧
      pixels.length = header.pixelCount ∧
      (∀ pixel ∈ pixels, pixel.length = header.bytesPerPixel) ∧
      ∀ packets : List TgaPacket, expand packets = pixels →
        ∀ more, tgaDecode (some ((header.bytes 2).set 2 10 ++ (packetsBytes packets ++ more)))
          alloc () (fun _ => 0) = some (some ⟨2, 1, 64, image⟩, ())) := by
  intro alloc image
  have hrun : tgaDecode (some runPair.bytes) alloc () (fun _ => 0) =
      some (some ⟨2, 1, 64, image⟩, ()) := runPair.tgaDecode_eq alloc () fun _ => 0
  have hraw : tgaDecode (some rawPair.bytes) alloc () (fun _ => 0) =
      some (some ⟨2, 1, 64, image⟩, ()) :=
    (rawPair.tgaDecode_congr runPair rfl rfl alloc () fun _ => 0).trans hrun
  exact ⟨(tgaDecode_rle_raw hrun).1 rfl, (tgaDecode_rle_raw hraw).2 rfl⟩

end

end ChoonzMoba
