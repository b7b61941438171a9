import ChoonzMoba.Assets.Mba
import ChoonzMoba.Library.LittleEndian
import ChoonzMoba.Serialize.ByteIoSpec

namespace ChoonzMoba

open LittleEndian

section

variable {data : List UInt8} {offset : Nat}

def slice (data : List UInt8) (offset width : Nat) : List UInt8 := (data.drop offset).take width

theorem slice_length {width : Nat} (h : offset + width ≤ data.length) :
    (slice data offset width).length = width := by
  rw [slice, List.length_take, List.length_drop]
  omega

theorem slice_append (data : List UInt8) (offset a b : Nat) :
    slice data offset a ++ slice data (offset + a) b = slice data offset (a + b) := by
  rw [slice, slice, slice, List.take_add, List.drop_drop]

theorem slice_append_left (front rest : List UInt8) (offset width : Nat) :
    slice (front ++ rest) (front.length + offset) width = slice rest offset width := by
  rw [slice, ← List.drop_drop, List.drop_left, slice]

theorem slice_front {front : List UInt8} {width : Nat} (h : front.length = width)
    (rest : List UInt8) : slice (front ++ rest) 0 width = front := by
  rw [slice, List.drop_zero, List.take_left' h]

theorem slice_append_drop (data : List UInt8) (offset width : Nat) :
    slice data offset width ++ data.drop (offset + width) = data.drop offset := by
  rw [slice, ← List.drop_drop, List.take_append_drop]

theorem slice_eq_map {width : Nat} (h : offset + width ≤ data.length) :
    slice data offset width = (List.range width).map fun i => data.getD (offset + i) 0 := by
  apply List.ext_getElem
  · rw [slice_length h, List.length_map, List.length_range]
  · intro i hi _
    rw [slice_length h] at hi
    rw [List.getElem_map, List.getElem_range, ← List.getElem_eq_getD (h := by omega)]
    simp [slice]

theorem encode_decode_slice {width : Nat} (h : offset + width ≤ data.length) :
    encode width (decode (slice data offset width)) = slice data offset width := by
  have hslice := encode_decode (slice data offset width)
  rwa [slice_length h] at hslice

theorem getElem?_eq_getD {i : Nat} (h : i < data.length) : data[i]? = some (data.getD i 0) := by
  rw [List.getElem?_eq_getElem h, ← List.getElem_eq_getD (h := h)]

theorem mbaReadU32le_eq (h : offset + 4 ≤ data.length) :
    mbaReadU32le data offset = some (UInt32.ofNat (decode (slice data offset 4))) := by
  have hvalue := uint32_value fun i => data.getD (offset + i) 0
  rw [← slice_eq_map h] at hvalue
  have hword : Loop.forRange 4 (fun (value : UInt32) i =>
      value ||| ((data.getD (offset + i) 0).toUInt32 <<< UInt32.ofNat (i * 8))) 0 =
      UInt32.ofNat (decode (slice data offset 4)) := by
    rw [← hvalue, UInt32.ofNat_toNat]
  rw [← hword, mbaReadU32le, getElem?_eq_getD (by omega), getElem?_eq_getD (by omega),
    getElem?_eq_getD (by omega), getElem?_eq_getD (by omega)]
  simp [Loop.forRange, List.range_succ]

theorem mbaReadU64le_eq (h : offset + 8 ≤ data.length) :
    mbaReadU64le data offset = some (UInt64.ofNat (decode (slice data offset 8))) := by
  have hvalue := uint64_value fun i => data.getD (offset + i) 0
  rw [← slice_eq_map h] at hvalue
  have hword : Loop.forRange 8 (fun (value : UInt64) i =>
      value ||| ((data.getD (offset + i) 0).toUInt64 <<< UInt64.ofNat (i * 8))) 0 =
      UInt64.ofNat (decode (slice data offset 8)) := by
    rw [← hvalue, UInt64.ofNat_toNat]
  rw [← hword, mbaReadU64le]
  obtain ⟨result, hresult, heq⟩ := Loop.forRangeM_total (n := 8)
    (f := fun (result : UInt64) i =>
      (data[offset + i]?).map fun b => result ||| (b.toUInt64 <<< UInt64.ofNat (i * 8)))
    (s := 0) (fun i result => result = Loop.forRange i (fun (value : UInt64) i =>
      value ||| ((data.getD (offset + i) 0).toUInt64 <<< UInt64.ofNat (i * 8))) 0) rfl
    (fun i result hi heq => by
      rw [getElem?_eq_getD (by omega), Option.map_some]
      exact ⟨_, rfl, by rw [Loop.forRange_succ, heq]⟩)
  rw [hresult, heq]

theorem exists_u32 (data : List UInt8) (offset : Nat) (h : offset + 4 ≤ data.length) :
    ∃ value : UInt32, mbaReadU32le data offset = some value ∧
      slice data offset 4 = encode 4 value.toNat := by
  refine ⟨_, mbaReadU32le_eq h, ?_⟩
  rw [encode_uint32_ofNat, encode_decode_slice h]

theorem exists_u64 (data : List UInt8) (offset : Nat) (h : offset + 8 ≤ data.length) :
    ∃ value : UInt64, mbaReadU64le data offset = some value ∧
      slice data offset 8 = encode 8 value.toNat := by
  refine ⟨_, mbaReadU64le_eq h, ?_⟩
  rw [encode_uint64_ofNat, encode_decode_slice h]

end

def MbaHeader.encode (h : MbaHeader) : List UInt8 :=
  LittleEndian.encode 4 h.magic.toNat ++ (LittleEndian.encode 4 h.version.toNat ++
    (LittleEndian.encode 4 h.type.toNat ++ (LittleEndian.encode 4 h.payloadBytes.toNat ++
    (LittleEndian.encode 8 h.assetId.toNat ++ (LittleEndian.encode 4 h.flags.toNat ++
    LittleEndian.encode 4 h.reserved.toNat)))))

def textureHeader (width height format dataBytes : UInt32) : List UInt8 :=
  encode 4 width.toNat ++ (encode 4 height.toNat ++ (encode 4 format.toNat ++
    encode 4 dataBytes.toNat))

theorem MbaHeader.encode_length (h : MbaHeader) : h.encode.length = mbaHeaderBytes := by
  simp [MbaHeader.encode, mbaHeaderBytes]

theorem textureHeader_length (width height format dataBytes : UInt32) :
    (textureHeader width height format dataBytes).length = mbaTexturePayloadHeaderBytes := by
  simp [textureHeader, mbaTexturePayloadHeaderBytes]

theorem u32_append_inj {a b : UInt32} {u v : List UInt8}
    (h : encode 4 a.toNat ++ u = encode 4 b.toNat ++ v) : a = b ∧ u = v := by
  obtain ⟨heq, hrest⟩ := encode_append_inj a.toNat_lt b.toNat_lt h
  exact ⟨UInt32.toNat_inj.mp heq, hrest⟩

theorem u64_append_inj {a b : UInt64} {u v : List UInt8}
    (h : encode 8 a.toNat ++ u = encode 8 b.toNat ++ v) : a = b ∧ u = v := by
  obtain ⟨heq, hrest⟩ := encode_append_inj a.toNat_lt b.toNat_lt h
  exact ⟨UInt64.toNat_inj.mp heq, hrest⟩

theorem MbaHeader.encode_append_inj {h k : MbaHeader} {u v : List UInt8}
    (heq : h.encode ++ u = k.encode ++ v) : h = k ∧ u = v := by
  simp only [MbaHeader.encode, List.append_assoc] at heq
  obtain ⟨hmagic, heq⟩ := u32_append_inj heq
  obtain ⟨hversion, heq⟩ := u32_append_inj heq
  obtain ⟨htype, heq⟩ := u32_append_inj heq
  obtain ⟨hpayload, heq⟩ := u32_append_inj heq
  obtain ⟨hid, heq⟩ := u64_append_inj heq
  obtain ⟨hflags, heq⟩ := u32_append_inj heq
  obtain ⟨hreserved, hrest⟩ := u32_append_inj heq
  cases h
  cases k
  cases hmagic
  cases hversion
  cases htype
  cases hpayload
  cases hid
  cases hflags
  cases hreserved
  exact ⟨rfl, hrest⟩

theorem textureHeader_append_inj {a b c d a' b' c' d' : UInt32} {u v : List UInt8}
    (heq : textureHeader a b c d ++ u = textureHeader a' b' c' d' ++ v) :
    a = a' ∧ b = b' ∧ c = c' ∧ d = d' ∧ u = v := by
  simp only [textureHeader, List.append_assoc] at heq
  obtain ⟨ha, heq⟩ := u32_append_inj heq
  obtain ⟨hb, heq⟩ := u32_append_inj heq
  obtain ⟨hc, heq⟩ := u32_append_inj heq
  obtain ⟨hd, heq⟩ := u32_append_inj heq
  exact ⟨ha, hb, hc, hd, heq⟩

theorem mbaReadHeader_eq {data : List UInt8} (h : mbaHeaderBytes ≤ data.length) :
    ∃ header, mbaReadHeader data = some header ∧
      data = header.encode ++ data.drop mbaHeaderBytes := by
  have hbound : 32 ≤ data.length := h
  obtain ⟨magic, hmagic, smagic⟩ := exists_u32 data 0 (by omega)
  obtain ⟨version, hversion, sversion⟩ := exists_u32 data 4 (by omega)
  obtain ⟨type, htype, stype⟩ := exists_u32 data 8 (by omega)
  obtain ⟨payloadBytes, hpayload, spayload⟩ := exists_u32 data 12 (by omega)
  obtain ⟨assetId, hid, sid⟩ := exists_u64 data 16 (by omega)
  obtain ⟨flags, hflags, sflags⟩ := exists_u32 data 24 (by omega)
  obtain ⟨reserved, hreserved, sreserved⟩ := exists_u32 data 28 (by omega)
  refine ⟨⟨magic, version, type, payloadBytes, assetId, flags, reserved⟩, ?_, ?_⟩
  · simp only [mbaReadHeader, hmagic, hversion, htype, hpayload, hid, hflags, hreserved,
      Option.bind_some, Option.map_some]
  · have hheader : slice data 0 32 = data.take 32 := rfl
    simp only [MbaHeader.encode]
    rw [← smagic, ← sversion, ← stype, ← spayload, ← sid, ← sflags, ← sreserved,
      slice_append data 24 4 4, slice_append data 16 8 8, slice_append data 12 4 16,
      slice_append data 8 4 20, slice_append data 4 4 24, slice_append data 0 4 28, hheader]
    exact (List.take_append_drop 32 data).symm

theorem readTextureHeader_eq {data : List UInt8}
    (h : mbaHeaderBytes + mbaTexturePayloadHeaderBytes ≤ data.length) :
    ∃ width height format dataBytes, mbaReadU32le data mbaHeaderBytes = some width ∧
      mbaReadU32le data (mbaHeaderBytes + 4) = some height ∧
      mbaReadU32le data (mbaHeaderBytes + 8) = some format ∧
      mbaReadU32le data (mbaHeaderBytes + 12) = some dataBytes ∧
      data.drop mbaHeaderBytes = textureHeader width height format dataBytes ++
        data.drop (mbaHeaderBytes + mbaTexturePayloadHeaderBytes) := by
  have hbound : 48 ≤ data.length := h
  obtain ⟨width, hwidth, swidth⟩ := exists_u32 data 32 (by omega)
  obtain ⟨height, hheight, sheight⟩ := exists_u32 data 36 (by omega)
  obtain ⟨format, hformat, sformat⟩ := exists_u32 data 40 (by omega)
  obtain ⟨dataBytes, hdata, sdata⟩ := exists_u32 data 44 (by omega)
  refine ⟨width, height, format, dataBytes, hwidth, hheight, hformat, hdata, ?_⟩
  have hheader : slice data 32 16 = (data.drop 32).take 16 := rfl
  have hdrop : data.drop (32 + 16) = (data.drop 32).drop 16 := List.drop_drop.symm
  simp only [textureHeader, mbaHeaderBytes, mbaTexturePayloadHeaderBytes]
  rw [← swidth, ← sheight, ← sformat, ← sdata, slice_append data 40 4 4, slice_append data 36 4 8,
    slice_append data 32 4 12, hheader, hdrop]
  exact (List.take_append_drop 16 _).symm

structure MbaTexture where
  assetId : AssetId
  width : UInt32
  height : UInt32
  pixels : List UInt8
  id_ne : assetId ≠ assetIdNull
  width_ne : width ≠ 0
  height_ne : height ≠ 0
  pixels_length : pixels.length = width.toNat * height.toNat * 4
  pixels_fit : pixels.length ≤ 2 ^ 32 - 1 - mbaTexturePayloadHeaderBytes

namespace MbaTexture

def header (t : MbaTexture) : MbaHeader where
  magic := mbaMagic
  version := mbaVersion
  type := MbaAssetType.texture.value
  payloadBytes := UInt32.ofNat (mbaTexturePayloadHeaderBytes + t.pixels.length)
  assetId := t.assetId
  flags := 0
  reserved := 0

def payloadHeader (t : MbaTexture) : List UInt8 :=
  textureHeader t.width t.height MbaTextureFormat.rgba8.value (UInt32.ofNat t.pixels.length)

def file (t : MbaTexture) : List UInt8 := t.header.encode ++ (t.payloadHeader ++ t.pixels)

def view (t : MbaTexture) : MbaAssetView where
  header := t.header
  texture :=
    { rgba8 := t.pixels
      rgba8Bytes := t.pixels.length
      width := t.width
      height := t.height
      format := MbaTextureFormat.rgba8.value }

def source (t : MbaTexture) : MbaTextureSource where
  rgba8 := some t.pixels
  rgba8Bytes := t.pixels.length
  width := t.width
  height := t.height
  readable := fun _ h => by rw [Option.some.inj h]

def fileBytes (t : MbaTexture) : Nat :=
  mbaHeaderBytes + mbaTexturePayloadHeaderBytes + t.pixels.length

theorem file_length (t : MbaTexture) : t.file.length = t.fileBytes := by
  rw [file, List.length_append, List.length_append, MbaHeader.encode_length, payloadHeader,
    textureHeader_length, fileBytes, Nat.add_assoc]

end MbaTexture

theorem mbaTexturePixelBytes_eq (width height : UInt32) :
    mbaTexturePixelBytes width height =
      if width ≠ 0 ∧ height ≠ 0 ∧ width.toNat * height.toNat ≤ sizeMax / 4 then
        some (width.toNat * height.toNat * 4)
      else none := by
  have hw := width.toNat_lt
  have hh := height.toNat_lt
  have hmul : (width.toUInt64 * height.toUInt64).toNat = width.toNat * height.toNat := by
    rw [UInt64.toNat_mul, UInt32.toNat_toUInt64, UInt32.toNat_toUInt64, Nat.mod_eq_of_lt]
    have hle := Nat.mul_le_mul (Nat.le_pred_of_lt hw) (Nat.le_pred_of_lt hh)
    refine Nat.lt_of_le_of_lt hle (by decide)
  rw [mbaTexturePixelBytes]
  split
  · next hzero => rw [if_neg fun h => hzero.elim h.1 h.2.1]
  · next hzero =>
    obtain ⟨hw0, hh0⟩ := not_or.mp hzero
    dsimp only
    rw [hmul]
    split
    · next hlarge => rw [if_neg fun h => Nat.not_le_of_lt hlarge h.2.2]
    · next hfits => rw [if_pos ⟨hw0, hh0, Nat.le_of_not_lt hfits⟩]

theorem MbaTexture.pixelBytes (t : MbaTexture) :
    mbaTexturePixelBytes t.width t.height = some t.pixels.length := by
  have hfit := t.pixels_fit
  have hlength := t.pixels_length
  have hpixels : t.width.toNat * t.height.toNat ≤ sizeMax / 4 := by
    simp only [sizeMax, mbaTexturePayloadHeaderBytes] at *
    omega
  rw [mbaTexturePixelBytes_eq, if_pos ⟨t.width_ne, t.height_ne, hpixels⟩, hlength]

theorem mbaTextureMeasure_iff {source : MbaTextureSource} {fileBytes : Nat} (assetId : AssetId)
    (hid : assetId ≠ assetIdNull) :
    mbaTextureMeasure (some source) = some fileBytes ↔
      ∃ t : MbaTexture, t.assetId = assetId ∧ t.source = source ∧ t.fileBytes = fileBytes := by
  constructor
  · intro h
    obtain ⟨rgba8, rgba8Bytes, width, height, readable⟩ := source
    cases rgba8 with
    | none => cases h
    | some pixels =>
      have hreadable := readable pixels rfl
      subst hreadable
      simp only [mbaTextureMeasure, Option.bind_some, mbaTexturePixelBytes_eq] at h
      split at h
      · next hdims =>
        rw [Option.bind_some] at h
        split at h
        · cases h
        · next hok =>
          simp only [not_or, Nat.not_lt, not_not] at hok
          cases h
          exact ⟨⟨assetId, width, height, pixels, hid, hdims.1, hdims.2.1, hok.1, by omega⟩, rfl, rfl,
            by simp only [MbaTexture.fileBytes, hok.1]⟩
      · cases h
  · rintro ⟨t, -, rfl, rfl⟩
    have hfit := t.pixels_fit
    simp only [mbaTextureMeasure, MbaTexture.source, Option.bind_some, t.pixelBytes]
    rw [if_neg]
    · rfl
    · simp only [sizeMax, mbaTexturePayloadHeaderBytes, mbaHeaderBytes] at *
      omega

theorem mbaWriteU32le_eq (data : Nat → UInt8) (offset : Nat) (value : UInt32) :
    mbaWriteU32le data offset value = memcpy data offset (encode 4 value.toNat) := by
  rw [mbaWriteU32le, encode_uint32]

theorem mbaWriteU64le_eq (data : Nat → UInt8) (offset : Nat) (value : UInt64) :
    mbaWriteU64le data offset value = memcpy data offset (encode 8 value.toNat) := by
  rw [mbaWriteU64le, encode_uint64]
  rfl

theorem MbaTexture.encodes (t : MbaTexture) (destination : Nat → UInt8) {capacity : Nat}
    (hcapacity : t.fileBytes ≤ capacity) :
    mbaEncodeTexture (some destination) capacity t.assetId (some t.source) =
      some (t.fileBytes, memcpy destination 0 t.file) := by
  have hmeasure := (mbaTextureMeasure_iff t.assetId t.id_ne).mpr ⟨t, rfl, rfl, rfl⟩
  have hpayload : t.fileBytes - mbaHeaderBytes =
      mbaTexturePayloadHeaderBytes + t.pixels.length := by
    rw [MbaTexture.fileBytes]
    omega
  have hstep : ∀ (as bs : List UInt8) (offset : Nat), offset = as.length →
      memcpy (memcpy destination 0 as) offset bs = memcpy destination 0 (as ++ bs) := by
    rintro as bs _ rfl
    have h := ByteWriter.memcpy_append destination 0 as bs
    rwa [Nat.zero_add] at h
  have hpixels : t.source.rgba8 = some t.pixels := rfl
  rw [mbaEncodeTexture, Option.bind_some, if_neg t.id_ne, Option.bind_some, hmeasure,
    Option.bind_some, if_neg (Nat.not_lt_of_le hcapacity), hpixels, Option.map_some,
    Option.some.injEq, Prod.mk.injEq]
  refine ⟨rfl, ?_⟩
  simp only [hpayload, mbaWriteU32le_eq, mbaWriteU64le_eq]
  iterate 11 rw [hstep _ _ _ (by simp [mbaHeaderBytes, mbaTexturePayloadHeaderBytes])]
  simp only [MbaTexture.file, MbaHeader.encode, MbaTexture.header, MbaTexture.payloadHeader,
    textureHeader, MbaTexture.source, List.append_assoc]

theorem memcpy_range_zero (data : Nat → UInt8) (bs : List UInt8) :
    (List.range bs.length).map (memcpy data 0 bs) = bs := by
  have h := ByteWriter.memcpy_range data 0 bs
  rwa [Nat.zero_add, List.range_zero, List.map_nil, List.nil_append] at h

theorem memcpy_beyond (data : Nat → UInt8) (bs : List UInt8) {i : Nat} (hi : bs.length ≤ i) :
    memcpy data 0 bs i = data i := by
  rw [memcpy, if_pos (Nat.zero_le i), Nat.sub_zero, List.getD_eq_getElem?_getD,
    List.getElem?_eq_none hi]
  rfl

theorem MbaTexture.payloadBytes (t : MbaTexture) :
    t.header.payloadBytes.toNat = mbaTexturePayloadHeaderBytes + t.pixels.length := by
  have hfit := t.pixels_fit
  refine UInt32.toNat_ofNat_of_lt' ?_
  simp only [mbaTexturePayloadHeaderBytes, UInt32.size] at *
  omega

structure MbaHeader.Accepted (header : MbaHeader) (size : Nat) : Prop where
  magic : header.magic = mbaMagic
  version : header.version = mbaVersion
  assetId : header.assetId ≠ assetIdNull
  flags : header.flags = 0
  reserved : header.reserved = 0
  size : size = mbaHeaderBytes + header.payloadBytes.toNat

theorem MbaHeader.checks_iff (header : MbaHeader) {size : Nat} :
    ¬ (header.magic ≠ mbaMagic ∨ header.version ≠ mbaVersion ∨ header.assetId = assetIdNull ∨
      header.flags ≠ 0 ∨ header.reserved ≠ 0 ∨
      sizeMax - mbaHeaderBytes < header.payloadBytes.toNat ∨
      size - mbaHeaderBytes < header.payloadBytes.toNat ∨
      size ≠ mbaHeaderBytes + header.payloadBytes.toNat) ↔ header.Accepted size := by
  have hpayload := header.payloadBytes.toNat_lt
  simp only [not_or, not_not]
  constructor
  · rintro ⟨h1, h2, h3, h4, h5, -, -, h8⟩
    exact ⟨h1, h2, h3, h4, h5, h8⟩
  · rintro ⟨h1, h2, h3, h4, h5, h6⟩
    refine ⟨h1, h2, h3, h4, h5, ?_, ?_, h6⟩
    · simp only [sizeMax, mbaHeaderBytes]
      omega
    · omega

theorem MbaTexture.accepted (t : MbaTexture) : t.header.Accepted t.file.length := by
  refine ⟨rfl, rfl, t.id_ne, rfl, rfl, ?_⟩
  rw [t.file_length, t.payloadBytes, MbaTexture.fileBytes, Nat.add_assoc]

theorem exists_texture {data : List UInt8} {header : MbaHeader} {width height dataBytes : UInt32}
    (hlayout : data = header.encode ++ data.drop mbaHeaderBytes)
    (haccepted : header.Accepted data.length) (htype : header.type = MbaAssetType.texture.value)
    (hlong : mbaTexturePayloadHeaderBytes ≤ header.payloadBytes.toNat)
    (htail : data.drop mbaHeaderBytes =
      textureHeader width height MbaTextureFormat.rgba8.value dataBytes ++
        data.drop (mbaHeaderBytes + mbaTexturePayloadHeaderBytes))
    (hwidth : width ≠ 0) (hheight : height ≠ 0)
    (hbytes : dataBytes.toNat = width.toNat * height.toNat * 4)
    (hpayload : dataBytes = header.payloadBytes - UInt32.ofNat mbaTexturePayloadHeaderBytes) :
    ∃ t : MbaTexture, data = t.file ∧ t.view =
      { header
        texture :=
          { rgba8 := data.drop (mbaHeaderBytes + mbaTexturePayloadHeaderBytes)
            rgba8Bytes := dataBytes.toNat
            width, height
            format := MbaTextureFormat.rgba8.value } } := by
  have hsize := haccepted.size
  have hlt := header.payloadBytes.toNat_lt
  have hsub : dataBytes.toNat = header.payloadBytes.toNat - mbaTexturePayloadHeaderBytes := by
    rw [hpayload, UInt32.toNat_sub_of_le]
    · rfl
    · exact UInt32.le_iff_toNat_le.mpr hlong
  have hlength : (data.drop (mbaHeaderBytes + mbaTexturePayloadHeaderBytes)).length =
      dataBytes.toNat := by
    rw [List.length_drop, hsize, hsub]
    omega
  have hfits : dataBytes.toNat ≤ 2 ^ 32 - 1 - mbaTexturePayloadHeaderBytes := by
    rw [hsub]
    omega
  have hword : header.payloadBytes =
      UInt32.ofNat (mbaTexturePayloadHeaderBytes +
        (data.drop (mbaHeaderBytes + mbaTexturePayloadHeaderBytes)).length) := by
    rw [hlength, hsub, Nat.add_sub_cancel' hlong, UInt32.ofNat_toNat]
  have hheader : header =
      { magic := mbaMagic
        version := mbaVersion
        type := MbaAssetType.texture.value
        payloadBytes := UInt32.ofNat (mbaTexturePayloadHeaderBytes +
          (data.drop (mbaHeaderBytes + mbaTexturePayloadHeaderBytes)).length)
        assetId := header.assetId
        flags := 0
        reserved := 0 } :=
    MbaHeader.ext haccepted.magic haccepted.version htype hword rfl haccepted.flags
      haccepted.reserved
  refine ⟨⟨header.assetId, width, height,
    data.drop (mbaHeaderBytes + mbaTexturePayloadHeaderBytes), haccepted.assetId, hwidth, hheight,
    by rw [hlength, hbytes], by rw [hlength]; exact hfits⟩, ?_, ?_⟩
  · rw [MbaTexture.file, MbaTexture.header, MbaTexture.payloadHeader, ← hheader]
    dsimp only
    rw [hlength, UInt32.ofNat_toNat, ← htail]
    exact hlayout
  · rw [MbaTexture.view, MbaTexture.header, ← hheader]
    dsimp only
    rw [hlength]

theorem mbaInspectTexture_iff {data : List UInt8} {header : MbaHeader}
    (hlayout : data = header.encode ++ data.drop mbaHeaderBytes)
    (haccepted : header.Accepted data.length) (htype : header.type = MbaAssetType.texture.value) :
    ∃ r, mbaInspectTexture data header = some r ∧
      ∀ view, r = some view ↔ ∃ t : MbaTexture, data = t.file ∧ t.view = view := by
  rw [mbaInspectTexture]
  split
  · next hshort =>
    refine ⟨none, rfl, fun view => iff_of_false nofun ?_⟩
    rintro ⟨t, hfile, -⟩
    have hheader := (MbaHeader.encode_append_inj (hlayout.symm.trans hfile)).1
    rw [hheader, t.payloadBytes] at hshort
    omega
  · next hlong =>
    have hbound : mbaHeaderBytes + mbaTexturePayloadHeaderBytes ≤ data.length := by
      rw [haccepted.size]
      omega
    obtain ⟨width, height, format, dataBytes, hwidth, hheight, hformat, hdata, htail⟩ :=
      readTextureHeader_eq hbound
    dsimp only
    rw [hwidth, hheight, hformat, hdata]
    refine ⟨_, rfl, fun view => ?_⟩
    dsimp only
    rw [mbaTexturePixelBytes_eq]
    constructor
    · intro h
      split at h
      · cases h
      next hrgba8 =>
      split at h
      · next hdims =>
        rw [Option.bind_some] at h
        split at h
        · cases h
        · next hsizes =>
          obtain ⟨hbytes, hpayload⟩ := not_or.mp hsizes
          obtain rfl : format = MbaTextureFormat.rgba8.value := not_not.mp hrgba8
          obtain ⟨t, hfile, hview⟩ := exists_texture hlayout haccepted htype (Nat.le_of_not_lt hlong)
            htail hdims.1 hdims.2.1 (not_not.mp hbytes) (not_not.mp hpayload)
          exact ⟨t, hfile, hview.trans (Option.some.inj h)⟩
      · cases h
    · rintro ⟨t, hfile, rfl⟩
      obtain ⟨hheader, hrest⟩ := MbaHeader.encode_append_inj (hlayout.symm.trans hfile)
      obtain ⟨rfl, rfl, rfl, rfl, hpixels⟩ := textureHeader_append_inj (htail.symm.trans hrest)
      have hfit := t.pixels_fit
      have hdata : (UInt32.ofNat t.pixels.length).toNat = t.pixels.length := by
        refine UInt32.toNat_ofNat_of_lt' ?_
        simp only [mbaTexturePayloadHeaderBytes, UInt32.size] at *
        omega
      have hpixelBytes := t.pixelBytes
      rw [mbaTexturePixelBytes_eq] at hpixelBytes
      rw [if_neg (by simp), hpixelBytes, Option.bind_some, if_neg, hpixels, hheader, hdata]
      · rfl
      · rw [hdata, hheader]
        simp only [not_or, not_not, true_and]
        apply UInt32.toNat_inj.mp
        rw [hdata, UInt32.toNat_sub_of_le, t.payloadBytes]
        · exact (Nat.add_sub_cancel_left ..).symm
        · exact UInt32.le_iff_toNat_le.mpr (by rw [t.payloadBytes]; exact Nat.le_add_right _ _)

theorem mbaInspect_iff (data : List UInt8) :
    ∃ r, mbaInspect (some data) = some r ∧
      ∀ view, r = some view ↔ ∃ t : MbaTexture, data = t.file ∧ t.view = view := by
  rw [mbaInspect]
  split
  · next hshort =>
    refine ⟨none, rfl, fun view => iff_of_false nofun ?_⟩
    rintro ⟨t, rfl, -⟩
    rw [t.file_length, MbaTexture.fileBytes] at hshort
    omega
  · next hlong =>
    obtain ⟨header, hread, hlayout⟩ := mbaReadHeader_eq (Nat.le_of_not_lt hlong)
    rw [hread, Option.bind_some]
    split
    · next hbad =>
      refine ⟨none, rfl, fun view => iff_of_false nofun ?_⟩
      rintro ⟨t, rfl, -⟩
      have hheader := (MbaHeader.encode_append_inj (hlayout.symm.trans rfl)).1
      exact (header.checks_iff.mpr (hheader ▸ t.accepted)) hbad
    · next hgood =>
      have haccepted := header.checks_iff.mp hgood
      split
      · next htype => exact mbaInspectTexture_iff hlayout haccepted htype
      · next htype =>
        refine ⟨none, rfl, fun view => iff_of_false nofun ?_⟩
        rintro ⟨t, rfl, -⟩
        have hheader := (MbaHeader.encode_append_inj (hlayout.symm.trans rfl)).1
        exact htype (by rw [hheader]; rfl)

theorem mbaInspect_file (t : MbaTexture) : mbaInspect (some t.file) = some (some t.view) := by
  obtain ⟨r, hr, hview⟩ := mbaInspect_iff t.file
  rw [hr, (hview t.view).mpr ⟨t, rfl, rfl⟩]

theorem mbaInspect_accepts {data : List UInt8} {view : MbaAssetView}
    (h : mbaInspect (some data) = some (some view)) :
    ∃ t : MbaTexture, data = t.file ∧ t.view = view := by
  obtain ⟨r, hr, hview⟩ := mbaInspect_iff data
  exact (hview view).mp (Option.some.inj (hr.symm.trans h))

theorem mbaInspect_wrong_length {data : List UInt8} {payloadBytes : UInt32}
    (hread : mbaReadU32le data 12 = some payloadBytes)
    (hlength : data.length ≠ mbaHeaderBytes + payloadBytes.toNat) :
    mbaInspect (some data) = some none := by
  obtain ⟨r, hr, hview⟩ := mbaInspect_iff data
  rw [hr]
  cases r with
  | none => rfl
  | some view =>
    obtain ⟨t, rfl, -⟩ := (hview view).mp rfl
    have hlong : mbaHeaderBytes ≤ t.file.length := by
      rw [t.file_length, MbaTexture.fileBytes]
      omega
    obtain ⟨header, hheader, hlayout⟩ := mbaReadHeader_eq hlong
    have heq : header = t.header := (MbaHeader.encode_append_inj (hlayout.symm.trans rfl)).1
    have hpayload : header.payloadBytes = payloadBytes := by
      simp only [mbaReadHeader, hread, Option.bind_eq_some_iff, Option.map_eq_some_iff] at hheader
      obtain ⟨_, -, _, -, _, -, _, hpay, _, -, _, -, _, -, hfields⟩ := hheader
      rw [← hfields]
      exact (Option.some.inj hpay).symm
    rw [← hpayload, heq] at hlength
    exact absurd t.accepted.size hlength

theorem mbaTexture_bijective_codec :
    (∀ (assetId : AssetId) (source : MbaTextureSource) (fileBytes : Nat)
      (destination : Nat → UInt8) (capacity : Nat), assetId ≠ assetIdNull →
      mbaTextureMeasure (some source) = some fileBytes → fileBytes ≤ capacity →
      ∃ bytes view, mbaEncodeTexture (some destination) capacity assetId (some source) =
          some (fileBytes, bytes) ∧
        (∀ i, fileBytes ≤ i → bytes i = destination i) ∧
        mbaInspect (some ((List.range fileBytes).map bytes)) = some (some view) ∧
        view.header.assetId = assetId ∧ view.texture.width = source.width ∧
        view.texture.height = source.height ∧ source.rgba8 = some view.texture.rgba8 ∧
        view.texture.rgba8Bytes = source.rgba8Bytes) ∧
    (∀ (data : List UInt8) (view : MbaAssetView), mbaInspect (some data) = some (some view) →
      ∃ source : MbaTextureSource, source.rgba8 = some view.texture.rgba8 ∧
        source.rgba8Bytes = view.texture.rgba8Bytes ∧ source.width = view.texture.width ∧
        source.height = view.texture.height ∧
        mbaTextureMeasure (some source) = some data.length ∧
        ∀ (destination : Nat → UInt8) (capacity : Nat), data.length ≤ capacity →
          ∃ bytes, mbaEncodeTexture (some destination) capacity view.header.assetId (some source) =
              some (data.length, bytes) ∧ (List.range data.length).map bytes = data) ∧
    (∀ data : List UInt8, mbaInspect (some data) ≠ none) ∧
    (∀ (data : List UInt8) (payloadBytes : UInt32), mbaReadU32le data 12 = some payloadBytes →
      data.length ≠ mbaHeaderBytes + payloadBytes.toNat → mbaInspect (some data) = some none) := by
  refine ⟨?_, ?_, ?_, fun data payloadBytes => mbaInspect_wrong_length⟩
  · intro assetId source fileBytes destination capacity hid hmeasure hcapacity
    obtain ⟨t, rfl, rfl, rfl⟩ := (mbaTextureMeasure_iff assetId hid).mp hmeasure
    refine ⟨_, t.view, t.encodes destination hcapacity, fun i hi => ?_, ?_, rfl, rfl, rfl, rfl, rfl⟩
    · exact memcpy_beyond destination t.file (by rw [t.file_length]; exact hi)
    · rw [← t.file_length, memcpy_range_zero]
      exact mbaInspect_file t
  · intro data view h
    obtain ⟨t, rfl, rfl⟩ := mbaInspect_accepts h
    have hmeasure := (mbaTextureMeasure_iff t.assetId t.id_ne).mpr ⟨t, rfl, rfl, rfl⟩
    rw [t.file_length]
    refine ⟨t.source, rfl, rfl, rfl, rfl, hmeasure, fun destination capacity hcapacity => ?_⟩
    refine ⟨_, t.encodes destination hcapacity, ?_⟩
    rw [← t.file_length]
    exact memcpy_range_zero destination t.file
  · intro data h
    obtain ⟨r, hr, -⟩ := mbaInspect_iff data
    rw [h] at hr
    cases hr

def sixPixels : MbaTextureSource where
  rgba8 := some ((List.range 24).map fun i => UInt8.ofNat (i * 11))
  rgba8Bytes := 24
  width := 3
  height := 2
  readable := fun _ h => by rw [← Option.some.inj h]; rfl

theorem mbaTexture_bijective_codec_six_pixels :
    ∃ bytes view, mbaEncodeTexture (some fun _ => 9) 80 7 (some sixPixels) = some (72, bytes) ∧
      (∀ i, 72 ≤ i → bytes i = 9) ∧
      mbaInspect (some ((List.range 72).map bytes)) = some (some view) ∧
      view.header.assetId = 7 ∧ view.texture.width = 3 ∧ view.texture.height = 2 ∧
      view.texture.rgba8 = (List.range 24).map (fun i => UInt8.ofNat (i * 11)) ∧
      view.texture.rgba8Bytes = 24 := by
  obtain ⟨bytes, view, hencode, hkept, hview, hid, hwidth, hheight, hpixels, hsize⟩ :=
    mbaTexture_bijective_codec.1 7 sixPixels 72 (fun _ => 9) 80 (by decide) (by rfl) (by decide)
  exact ⟨bytes, view, hencode, hkept, hview, hid, hwidth, hheight,
    (Option.some.inj hpixels).symm, hsize⟩

end ChoonzMoba
