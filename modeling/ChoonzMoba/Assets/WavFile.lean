import ChoonzMoba.Assets.WavGrammar

namespace ChoonzMoba

def riffTag : List UInt8 := [byte 'R', byte 'I', byte 'F', byte 'F']

def waveTag : List UInt8 := [byte 'W', byte 'A', byte 'V', byte 'E']

structure WavFormat where
  channels : UInt16
  sampleRate : UInt32
  bits : UInt16
  channels_range : channels = 1 ∨ channels = 2
  sampleRate_pos : 0 < sampleRate.toNat
  sampleRate_le : sampleRate.toNat ≤ 384000
  bits_range : bits = 8 ∨ bits = 16 ∨ bits = 24 ∨ bits = 32

def WavFormat.blockAlign (f : WavFormat) : Nat := f.channels.toNat * (f.bits.toNat / 8)

def WavFormat.byteRate (f : WavFormat) : Nat := f.sampleRate.toNat * f.blockAlign

def WavFormat.fields (f : WavFormat) : List UInt8 :=
  wavFields 1 f.channels.toNat f.sampleRate.toNat f.byteRate f.blockAlign f.bits.toNat

structure WavFile where
  chunks : List Riff.Chunk
  format : WavFormat
  extra : List UInt8
  pcm : List UInt8
  fmt_once : Riff.payloads fmtTag chunks = [format.fields ++ extra]
  data_once : Riff.payloads dataTag chunks = [pcm]
  pcm_ne : pcm ≠ []
  pcm_blocks : format.blockAlign ∣ pcm.length
  size_lt : 4 + (Riff.bytes chunks).length < 2 ^ 32

def WavFile.bytes (file : WavFile) : List UInt8 :=
  riffTag ++ (LittleEndian.encode 4 (4 + (Riff.bytes file.chunks).length) ++
    (waveTag ++ Riff.bytes file.chunks))

def WavFormat.info (f : WavFormat) (pcmBytes : Nat) : WavInfo where
  pcmBytes := pcmBytes
  sampleRate := f.sampleRate
  frameCount := UInt32.ofNat (pcmBytes / f.blockAlign)
  channels := f.channels
  bitsPerSample := f.bits

def WavFile.info (file : WavFile) : WavInfo := file.format.info file.pcm.length

theorem WavFormat.blockAlign_pos (f : WavFormat) : 0 < f.blockAlign := by
  rw [WavFormat.blockAlign]
  rcases f.channels_range with hc | hc <;> rcases f.bits_range with hb | hb | hb | hb <;>
    rw [hc, hb] <;> decide

theorem WavFormat.blockAlign_le (f : WavFormat) : f.blockAlign ≤ 8 := by
  rw [WavFormat.blockAlign]
  rcases f.channels_range with hc | hc <;> rcases f.bits_range with hb | hb | hb | hb <;>
    rw [hc, hb] <;> decide

theorem WavFormat.byteRate_lt (f : WavFormat) : f.byteRate < 2 ^ 32 :=
  calc f.sampleRate.toNat * f.blockAlign ≤ 384000 * 8 :=
        Nat.mul_le_mul f.sampleRate_le f.blockAlign_le
    _ < 2 ^ 32 := by decide

theorem fmtFields_eq_iff {chunks : WavChunks} {f : WavFormat} :
    fmtFields chunks = f.fields ↔ chunks.format = 1 ∧ chunks.channels = f.channels ∧
      chunks.sampleRate = f.sampleRate ∧ chunks.byteRate.toNat = f.byteRate ∧
      chunks.blockAlign.toNat = f.blockAlign ∧ chunks.bits = f.bits := by
  have halign : f.blockAlign < 256 ^ 2 := Nat.lt_of_le_of_lt f.blockAlign_le (by decide)
  constructor
  · intro h
    rw [fmtFields, WavFormat.fields, wavFields, wavFields] at h
    obtain ⟨hformat, h⟩ := LittleEndian.encode_append_inj chunks.format.toNat_lt (by decide) h
    obtain ⟨hchannels, h⟩ :=
      LittleEndian.encode_append_inj chunks.channels.toNat_lt f.channels.toNat_lt h
    obtain ⟨hrate, h⟩ :=
      LittleEndian.encode_append_inj chunks.sampleRate.toNat_lt f.sampleRate.toNat_lt h
    obtain ⟨hbyteRate, h⟩ :=
      LittleEndian.encode_append_inj chunks.byteRate.toNat_lt f.byteRate_lt h
    obtain ⟨hblock, h⟩ := LittleEndian.encode_append_inj chunks.blockAlign.toNat_lt halign h
    have hbits := congrArg LittleEndian.decode h
    rw [LittleEndian.decode_encode_of_lt chunks.bits.toNat_lt,
      LittleEndian.decode_encode_of_lt f.bits.toNat_lt] at hbits
    exact ⟨UInt16.toNat_inj.mp hformat, UInt16.toNat_inj.mp hchannels, UInt32.toNat_inj.mp hrate,
      hbyteRate, hblock, UInt16.toNat_inj.mp hbits⟩
  · rintro ⟨hformat, hchannels, hrate, hbyteRate, hblock, hbits⟩
    rw [fmtFields, WavFormat.fields, hformat, hchannels, hrate, hbyteRate, hblock, hbits]
    rfl

theorem wavParsed_of_format {chunks : WavChunks} {f : WavFormat} (size : Nat)
    (hfmt : chunks.sawFmt = true) (hdata : chunks.sawData = true)
    (hfields : fmtFields chunks = f.fields) (hpos : chunks.pcmBytes ≠ 0)
    (hlt : chunks.pcmBytes < 2 ^ 32) (hblocks : f.blockAlign ∣ chunks.pcmBytes) :
    wavParsed size size chunks = some ⟨f.info chunks.pcmBytes, chunks.pcm⟩ := by
  obtain ⟨hformat, hchannels, hrate, hbyteRate, hblock, hbits⟩ := fmtFields_eq_iff.mp hfields
  have hrange : ¬ f.channels = 0 ∧ ¬ 2 < f.channels := by
    rcases f.channels_range with h | h <;> rw [h] <;> decide
  have hrate_pos : f.sampleRate ≠ 0 := fun h => by
    have := f.sampleRate_pos
    rw [h] at this
    exact Nat.lt_irrefl _ this
  have hrate_le : ¬ 384000 < f.sampleRate := by
    rw [UInt32.lt_iff_toNat_lt]
    exact Nat.not_lt_of_le f.sampleRate_le
  have hwidth : ¬ (f.bits ≠ 8 ∧ f.bits ≠ 16 ∧ f.bits ≠ 24 ∧ f.bits ≠ 32) := by
    rcases f.bits_range with h | h | h | h <;> simp [h]
  have halign : f.channels.toNat * (f.bits / 8).toNat = f.blockAlign := by
    rw [UInt16.toNat_div]
    rfl
  have hle := f.blockAlign_le
  have hframes := Nat.div_le_self chunks.pcmBytes f.blockAlign
  have hbyteRate_lt := f.byteRate_lt
  rw [wavParsed, hformat, hchannels, hrate, hbits, hfmt, hdata,
    if_neg (by simpa [hrange, hrate_pos, hrate_le] using hwidth)]
  dsimp only
  rw [halign, hblock, hbyteRate, if_neg]
  · rfl
  · have hpos' := f.blockAlign_pos
    have hmod := Nat.mod_eq_zero_of_dvd hblocks
    have hrate_eq : f.sampleRate.toNat * f.blockAlign = f.byteRate := rfl
    rw [hrate_eq]
    omega

theorem exists_format_of_wavParsed {chunks : WavChunks} {size cursor : Nat} {parsed : WavParsed}
    (h : wavParsed size cursor chunks = some parsed) :
    chunks.sawFmt = true ∧ chunks.sawData = true ∧ ∃ f : WavFormat, fmtFields chunks = f.fields ∧
      chunks.pcmBytes ≠ 0 ∧ f.blockAlign ∣ chunks.pcmBytes ∧
      parsed = ⟨f.info chunks.pcmBytes, chunks.pcm⟩ := by
  rw [wavParsed] at h
  split at h
  · cases h
  next hheader =>
  dsimp only at h
  split at h
  · cases h
  next hrates =>
  simp only [not_or, not_and_or, not_not, Bool.not_eq_false] at hheader hrates
  obtain ⟨-, hfmt, hdata, hformat, hchannels, hchannels_le, hrate, hrate_le, hbits⟩ := hheader
  obtain ⟨halign, -, hblock, -, hbyteRate, hpos, hmod, -⟩ := hrates
  cases h
  let f : WavFormat :=
    { channels := chunks.channels
      sampleRate := chunks.sampleRate
      bits := chunks.bits
      channels_range := by
        rw [UInt16.lt_iff_toNat_lt] at hchannels_le
        simp only [← UInt16.toNat_inj] at hchannels ⊢
        simp at hchannels hchannels_le ⊢
        omega
      sampleRate_pos := Nat.pos_of_ne_zero fun h => hrate (UInt32.toNat_inj.mp h)
      sampleRate_le := Nat.le_of_not_lt fun h => hrate_le (UInt32.lt_iff_toNat_lt.mpr h)
      bits_range := hbits }
  have hf : chunks.channels.toNat * (chunks.bits / 8).toNat = f.blockAlign := by
    rw [UInt16.toNat_div]
    rfl
  rw [hf] at hblock hbyteRate hmod ⊢
  exact ⟨hfmt, hdata, f, fmtFields_eq_iff.mpr ⟨hformat, rfl, rfl, hbyteRate, hblock, rfl⟩, hpos,
    Nat.dvd_of_mod_eq_zero hmod, rfl⟩

section

variable {data : List UInt8}

theorem WavChunks.Seen.pcm_slice {chunks : WavChunks} {seen : List Riff.Chunk} {payload : List UInt8}
    (hseen : chunks.Seen data seen) (h : Riff.payloads dataTag seen = [payload]) :
    chunks.sawData = true ∧ slice data chunks.pcm chunks.pcmBytes = payload := by
  obtain ⟨-, hnone⟩ | ⟨hsaw, hone⟩ := hseen.data
  · rw [hnone] at h
    cases h
  · rw [hone] at h
    exact ⟨hsaw, List.singleton_inj.mp h⟩

theorem WavChunks.seen_start (data : List UInt8) : WavChunks.start.Seen data [] :=
  ⟨.inl ⟨rfl, rfl⟩, .inl ⟨rfl, rfl⟩⟩

theorem parseWav_eq (hsize : 12 ≤ data.length) : ∃ riffPayload : UInt32,
    slice data 4 4 = LittleEndian.encode 4 riffPayload.toNat ∧
      parseWav (some data) =
        if slice data 0 4 = riffTag ∧ slice data 8 4 = waveTag ∧
          riffPayload.toNat + 8 = data.length then
          unlessRejected (wavChunkLoop data (data.length + 1) 12 .start) fun (cursor, chunks) =>
            some (wavParsed data.length cursor chunks)
        else some none := by
  obtain ⟨riffPayload, hvalue, hslice⟩ := exists_wavU32 (by omega : 4 + 4 ≤ data.length)
  refine ⟨riffPayload, hslice, ?_⟩
  have hriff : wavTag data 0 'R' 'I' 'F' 'F' = some (decide (slice data 0 4 = riffTag)) :=
    wavTag_eq (by omega) 'R' 'I' 'F' 'F'
  have hwave : wavTag data 8 'W' 'A' 'V' 'E' = some (decide (slice data 8 4 = waveTag)) :=
    wavTag_eq (by omega) 'W' 'A' 'V' 'E'
  rw [parseWav]
  dsimp only
  rw [if_neg (Nat.not_lt_of_le hsize), hriff, hwave, Option.bind_some, Option.bind_some, hvalue,
    Option.bind_some]
  by_cases h0 : slice data 0 4 = riffTag <;> by_cases h8 : slice data 8 4 = waveTag <;>
    by_cases h4 : riffPayload.toNat + 8 = data.length <;> simp [h0, h8, h4]

theorem exists_file_of_seen {last : WavChunks} {chunks : List Riff.Chunk} {size cursor : Nat}
    {parsed : WavParsed}
    (hseen : last.Seen data chunks) (hextent : last.Inside data)
    (hlt : 4 + (Riff.bytes chunks).length < 2 ^ 32)
    (h : wavParsed size cursor last = some parsed) :
    ∃ file : WavFile, file.chunks = chunks ∧ parsed.info = file.info ∧
      parsed.pcm + file.pcm.length ≤ data.length ∧
      slice data parsed.pcm file.pcm.length = file.pcm := by
  obtain ⟨hsawFmt, hsawData, f, hfields, hpos, hblocks, rfl⟩ := exists_format_of_wavParsed h
  have hlength : (slice data last.pcm last.pcmBytes).length = last.pcmBytes := slice_length hextent
  obtain ⟨hno, -⟩ | ⟨-, extra, hfmt⟩ := hseen.fmt
  · rw [hsawFmt] at hno
    cases hno
  obtain ⟨hno, -⟩ | ⟨-, hdata⟩ := hseen.data
  · rw [hsawData] at hno
    cases hno
  refine ⟨{
    chunks := chunks
    format := f
    extra := extra
    pcm := slice data last.pcm last.pcmBytes
    fmt_once := hfields ▸ hfmt
    data_once := hdata
    pcm_ne := fun hnil => hpos (by rw [← hlength, hnil, List.length_nil])
    pcm_blocks := hlength.symm ▸ hblocks
    size_lt := hlt }, rfl, congrArg f.info hlength.symm, ?_, congrArg (slice data last.pcm) hlength⟩
  show last.pcm + (slice data last.pcm last.pcmBytes).length ≤ data.length
  rw [hlength]
  exact hextent

theorem parseWav_sound {parsed : WavParsed} (h : parseWav (some data) = some (some parsed)) :
    ∃ file : WavFile, file.bytes = data ∧ parsed.info = file.info ∧
      parsed.pcm + file.pcm.length ≤ data.length ∧
      slice data parsed.pcm file.pcm.length = file.pcm := by
  by_cases hsize : data.length < 12
  · rw [parseWav] at h
    dsimp only at h
    rw [if_pos hsize] at h
    cases h
  rw [Nat.not_lt] at hsize
  obtain ⟨riffPayload, hslice, heq⟩ := parseWav_eq hsize
  rw [heq] at h
  split at h
  · next hheader =>
    obtain ⟨hriff, hwave, hpayload⟩ := hheader
    have hfront : (data.take 12).length = 12 := List.length_take_of_le hsize
    have hrest : (data.drop 12).length = data.length - 12 := List.length_drop
    have hinside : WavChunks.start.Inside data := Nat.zero_le _
    obtain ⟨r, hr, hstop, -⟩ := wavChunkLoop_spec
      (by omega : (data.drop 12).length < data.length + 1) (List.take_append_drop 12 data).symm
      (WavChunks.seen_start data) hinside
    obtain ⟨r', hr', hlast⟩ :=
      wavChunkLoop_total (by omega : data.length - 12 < data.length + 1) hinside
    rw [hfront] at hr
    obtain rfl : r = r' := Option.some.inj (hr.symm.trans hr')
    rw [hr, unlessRejected, Option.bind_some] at h
    cases r with
    | none => cases h
    | some result =>
      obtain ⟨stop, last⟩ := result
      obtain ⟨-, chunks, hbytes, hseen⟩ := hstop stop last rfl
      rw [List.nil_append] at hseen
      have hriffPayload := riffPayload.toNat_lt
      have hfield : 4 + (Riff.bytes chunks).length = riffPayload.toNat := by
        rw [← hbytes, hrest]
        omega
      obtain ⟨file, rfl, hfile⟩ := exists_file_of_seen hseen (hlast stop last rfl)
        (hfield ▸ hriffPayload) (Option.some.inj h)
      refine ⟨file, ?_, hfile⟩
      rw [WavFile.bytes, hfield, ← hslice, ← hriff, ← hwave, ← hbytes, slice_append_drop data 8,
        slice_append_drop data 4, slice_append_drop data 0, List.drop_zero]
  · cases h

theorem WavFile.bytes_length (file : WavFile) :
    file.bytes.length = 12 + (Riff.bytes file.chunks).length := by
  rw [WavFile.bytes, List.length_append, List.length_append, List.length_append,
    LittleEndian.encode_length, riffTag, waveTag]
  simp only [List.length_cons, List.length_nil]
  omega

theorem WavFile.onceEach (file : WavFile) : OnceEach ([] ++ file.chunks) := by
  rw [List.nil_append]
  refine ⟨?_, ?_, ?_⟩
  · rw [file.fmt_once, List.length_singleton]
  · rw [file.fmt_once]
    intro payload hpayload
    rw [List.mem_singleton.mp hpayload, List.length_append]
    exact Nat.le_add_right 16 file.extra.length
  · rw [file.data_once, List.length_singleton]

theorem parseWav_header (file : WavFile) : ∃ last, parseWav (some file.bytes) =
      some (wavParsed file.bytes.length file.bytes.length last) ∧
    last.Inside file.bytes ∧ last.Seen file.bytes file.chunks := by
  have hlength := file.bytes_length
  obtain ⟨riffPayload, hslice, heq⟩ := parseWav_eq (by omega : 12 ≤ file.bytes.length)
  have hriff : slice file.bytes 0 4 = riffTag := slice_front rfl _
  have hsize : slice file.bytes 4 4 =
      LittleEndian.encode 4 (4 + (Riff.bytes file.chunks).length) := by
    rw [WavFile.bytes]
    exact (slice_append_left riffTag _ 0 4).trans (slice_front (LittleEndian.encode_length _ _) _)
  have hassoc : file.bytes = (riffTag ++ LittleEndian.encode 4
      (4 + (Riff.bytes file.chunks).length)) ++ (waveTag ++ Riff.bytes file.chunks) := by
    rw [WavFile.bytes, List.append_assoc]
  have hwave : slice file.bytes 8 4 = waveTag := by
    rw [hassoc]
    exact (slice_append_left _ _ 0 4).trans (slice_front rfl _)
  have hpayload : riffPayload.toNat + 8 = file.bytes.length := by
    rw [hslice] at hsize
    have := congrArg LittleEndian.decode hsize
    rw [LittleEndian.decode_encode_of_lt riffPayload.toNat_lt,
      LittleEndian.decode_encode_of_lt file.size_lt] at this
    omega
  rw [if_pos ⟨hriff, hwave, hpayload⟩] at heq
  have hinside : WavChunks.start.Inside file.bytes := Nat.zero_le _
  have hfront : (riffTag ++ (LittleEndian.encode 4 (4 + (Riff.bytes file.chunks).length) ++
      waveTag)).length = 12 := by
    rw [List.length_append, List.length_append, LittleEndian.encode_length]
    rfl
  have hdata : file.bytes = (riffTag ++ (LittleEndian.encode 4
      (4 + (Riff.bytes file.chunks).length) ++ waveTag)) ++ Riff.bytes file.chunks := by
    rw [WavFile.bytes, List.append_assoc, List.append_assoc]
  obtain ⟨r, hr, hstop, hall⟩ := wavChunkLoop_spec
    (by omega : (Riff.bytes file.chunks).length < file.bytes.length + 1) hdata
    (WavChunks.seen_start file.bytes) hinside
  obtain ⟨r', hr', hlast⟩ := wavChunkLoop_total
    (by omega : file.bytes.length - 12 < file.bytes.length + 1) hinside
  rw [hfront] at hr
  obtain rfl : r = r' := Option.some.inj (hr.symm.trans hr')
  cases r with
  | none => exact absurd rfl (hall file.chunks rfl file.onceEach)
  | some result =>
    obtain ⟨stop, last⟩ := result
    obtain ⟨rfl, more, hmore, hseen⟩ := hstop stop last rfl
    obtain rfl := Riff.bytes_injective hmore
    rw [hr, unlessRejected, Option.bind_some] at heq
    exact ⟨last, heq, hlast _ last rfl, hseen⟩

theorem parseWav_complete (file : WavFile) :
    ∃ parsed, parseWav (some file.bytes) = some (some parsed) ∧ parsed.info = file.info ∧
      slice file.bytes parsed.pcm file.pcm.length = file.pcm := by
  obtain ⟨last, hparse, hinside, hseen⟩ := parseWav_header file
  obtain ⟨hsawData, hpcm⟩ := hseen.pcm_slice file.data_once
  have hlength : last.pcmBytes = file.pcm.length := by
    rw [← hpcm, slice_length hinside]
  obtain ⟨-, hnone⟩ | ⟨hsawFmt, extra, hfmt⟩ := hseen.fmt
  · rw [file.fmt_once] at hnone
    cases hnone
  have hfields : fmtFields last = file.format.fields := by
    have hpayload := List.singleton_inj.mp (hfmt.symm.trans file.fmt_once)
    refine (List.append_inj hpayload ?_).1
    rw [fmtFields, wavFields_length, WavFormat.fields, wavFields_length]
  have hlt : last.pcmBytes < 2 ^ 32 := by
    obtain ⟨c, -, hc⟩ := Riff.mem_payloads (by rw [file.data_once]; exact List.mem_singleton_self _)
    rw [hlength, ← hc]
    exact c.payload_lt
  have hpos : last.pcmBytes ≠ 0 := by
    rw [hlength]
    exact fun h => file.pcm_ne (List.length_eq_zero_iff.mp h)
  refine ⟨_, hparse.trans (congrArg some (wavParsed_of_format file.bytes.length hsawFmt hsawData
    hfields hpos hlt (hlength ▸ file.pcm_blocks))), ?_, ?_⟩
  · rw [hlength]
    rfl
  · rw [← hlength]
    exact hpcm

theorem parseWav_rejects (hno : ∀ file : WavFile, file.bytes ≠ data) :
    parseWav (some data) = some none := by
  obtain ⟨r, hr, -⟩ := parseWav_total (some data)
  cases r with
  | none => exact hr
  | some parsed =>
    obtain ⟨file, hfile, -⟩ := parseWav_sound hr
    exact absurd hfile (hno file)

theorem WavFile.frames (file : WavFile) :
    file.info.frameCount.toNat * file.format.blockAlign = file.info.pcmBytes := by
  obtain ⟨c, -, hc⟩ := Riff.mem_payloads (by rw [file.data_once]; exact List.mem_singleton_self _)
  have hlt : file.pcm.length < 2 ^ 32 := hc ▸ c.payload_lt
  have hframes := Nat.div_le_self file.pcm.length file.format.blockAlign
  have hcount : file.info.frameCount.toNat = file.pcm.length / file.format.blockAlign :=
    UInt32.toNat_ofNat_of_lt' (Nat.lt_of_le_of_lt hframes hlt)
  rw [hcount]
  exact Nat.div_mul_cancel file.pcm_blocks

def WavPcm.info (out : WavPcm) : WavInfo :=
  ⟨out.pcmBytes, out.sampleRate, out.frameCount, out.channels, out.bitsPerSample⟩

theorem wavDecodePcm_file {σ : Type} (file : WavFile) (alloc : Allocator σ) {state state' : σ}
    {address : Nat} (halloc : memAlloc alloc state file.info.pcmBytes memDefaultAlign =
      some (address, state')) :
    (address = 0 → wavDecodePcm (some file.bytes) alloc state = some (none, state')) ∧
      (address ≠ 0 → ∃ out : WavPcm,
        wavDecodePcm (some file.bytes) alloc state = some (some out, state') ∧
        out.address = address ∧ out.info = file.info ∧
        (List.range out.pcmBytes).map out.pcm = file.pcm) := by
  obtain ⟨parsed, hparsed, hinfo, hslice⟩ := parseWav_complete file
  obtain ⟨r, hr, hinside⟩ := parseWav_total (some file.bytes)
  obtain rfl : some parsed = r := Option.some.inj (hparsed.symm.trans hr)
  obtain ⟨data, hdata, hextent⟩ := hinside parsed rfl
  obtain rfl := Option.some.inj hdata
  rw [hinfo] at hextent
  rw [wavDecodePcm]
  dsimp only
  rw [hparsed, Option.bind_some]
  dsimp only
  rw [hinfo, halloc, Option.bind_some]
  dsimp only
  refine ⟨fun h => by rw [if_pos h], fun h => ?_⟩
  rw [if_neg h, if_neg (Nat.not_lt_of_le hextent)]
  refine ⟨_, rfl, rfl, rfl, ?_⟩
  rw [← hslice]
  exact (slice_eq_map hextent).symm

theorem wav_accepts_grammar {σ : Type} (data : List UInt8) (prior : WavInfo) (priorPcm : WavPcm)
    (alloc : Allocator σ) (state : σ) :
    (∀ file : WavFile, file.bytes = data →
      wavInspectPcmInto (some data) (some prior) = some (true, some file.info) ∧
      file.info.frameCount.toNat * file.format.blockAlign = file.info.pcmBytes ∧
      ∀ address state',
        memAlloc alloc state file.info.pcmBytes memDefaultAlign = some (address, state') →
        (address = 0 → wavDecodePcmInto (some data) alloc state (some priorPcm) =
          some (false, some priorPcm, state')) ∧
        (address ≠ 0 → ∃ out, wavDecodePcmInto (some data) alloc state (some priorPcm) =
            some (true, some out, state') ∧
          out.address = address ∧ out.info = file.info ∧
          (List.range out.pcmBytes).map out.pcm = file.pcm)) ∧
    ((∀ file : WavFile, file.bytes ≠ data) →
      wavInspectPcmInto (some data) (some prior) = some (false, some prior) ∧
      wavDecodePcmInto (some data) alloc state (some priorPcm) =
        some (false, some priorPcm, state)) := by
  constructor
  · rintro file rfl
    obtain ⟨parsed, hparsed, hinfo, -⟩ := parseWav_complete file
    refine ⟨?_, file.frames, fun address state' halloc => ?_⟩
    · simp only [wavInspectPcmInto, wavInspectPcm, hparsed, Option.map_some, hinfo]
    · obtain ⟨hnull, hsome⟩ := wavDecodePcm_file file alloc halloc
      rw [wavDecodePcmInto]
      refine ⟨fun h => by rw [hnull h]; rfl, fun h => ?_⟩
      obtain ⟨out, hout, hrest⟩ := hsome h
      exact ⟨out, by rw [hout]; rfl, hrest⟩
  · intro hno
    have hparse := parseWav_rejects hno
    constructor
    · rw [wavInspectPcmInto, wavInspectPcm, hparse]
      rfl
    · rw [wavDecodePcmInto, wavDecodePcm]
      dsimp only
      rw [hparse]
      rfl

def oneFrame : WavFile where
  chunks := [⟨[0, 0, 0, 0], [], [], rfl, by decide, rfl⟩,
    ⟨fmtTag, wavFields 1 1 48000 96000 2 16, [], rfl, by decide, by decide⟩,
    ⟨dataTag, [1, 2], [], rfl, by decide, rfl⟩]
  format := ⟨1, 48000, 16, .inl rfl, by decide, by decide, .inr (.inl rfl)⟩
  extra := []
  pcm := [1, 2]
  fmt_once := by decide
  data_once := by decide
  pcm_ne := by decide
  pcm_blocks := by decide
  size_lt := by decide

theorem wav_accepts_grammar_frame :
    let alloc : Allocator Unit := ⟨fun state _ _ _ _ => some (64, state)⟩
    let prior : WavInfo := ⟨0, 0, 0, 0, 0⟩
    let priorPcm : WavPcm := ⟨0, fun _ => 0, 0, 0, 0, 0, 0⟩
    wavInspectPcmInto (some oneFrame.bytes) (some prior) =
      some (true, some ⟨2, 48000, 1, 1, 16⟩) ∧
    (∃ out, wavDecodePcmInto (some oneFrame.bytes) alloc () (some priorPcm) =
        some (true, some out, ()) ∧
      out.address = 64 ∧ out.info = ⟨2, 48000, 1, 1, 16⟩ ∧
      (List.range out.pcmBytes).map out.pcm = [1, 2]) ∧
    wavInspectPcmInto (some []) (some prior) = some (false, some prior) := by
  intro alloc prior priorPcm
  obtain ⟨hinspect, -, hdecode⟩ :=
    (wav_accepts_grammar oneFrame.bytes prior priorPcm alloc ()).1 oneFrame rfl
  have hempty : ∀ file : WavFile, file.bytes ≠ [] := fun file h => by
    have := file.bytes_length
    rw [h, List.length_nil] at this
    omega
  exact ⟨hinspect, (hdecode 64 () rfl).2 (by decide),
    ((wav_accepts_grammar [] prior priorPcm alloc ()).2 hempty).1⟩

end

end ChoonzMoba
