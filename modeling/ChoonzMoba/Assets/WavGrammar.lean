import ChoonzMoba.Assets.MbaSpec
import ChoonzMoba.Assets.WavSpec
import ChoonzMoba.Library.Riff

namespace ChoonzMoba

def fmtTag : List UInt8 := [byte 'f', byte 'm', byte 't', byte ' ']

def dataTag : List UInt8 := [byte 'd', byte 'a', byte 't', byte 'a']

section

variable {data : List UInt8} {offset : Nat}

theorem wavU32_eq (data : List UInt8) (offset : Nat) :
    wavU32 data offset = mbaReadU32le data offset := by
  simp only [wavU32, mbaReadU32le, Option.bind_eq_bind, Option.map_eq_bind]
  rfl

theorem exists_wavU32 (h : offset + 4 ≤ data.length) : ∃ value : UInt32,
    wavU32 data offset = some value ∧ slice data offset 4 = LittleEndian.encode 4 value.toNat := by
  rw [wavU32_eq]
  exact exists_u32 data offset h

theorem exists_wavU16 (h : offset + 2 ≤ data.length) : ∃ value : UInt16,
    wavU16 data offset = some value ∧ slice data offset 2 = LittleEndian.encode 2 value.toNat := by
  have hvalue := uint16_value fun i => data.getD (offset + i) 0
  rw [← slice_eq_map h] at hvalue
  have hread : wavU16 data offset = some ((data.getD (offset + 0) 0).toUInt16 |||
      ((data.getD (offset + 1) 0).toUInt16 <<< 8)) := by
    rw [wavU16, getElem?_eq_getD (by omega), Option.bind_some, getElem?_eq_getD (by omega),
      Option.map_some]
    rfl
  exact ⟨_, hread, by rw [hvalue, encode_decode_slice h]⟩

theorem wavTag_eq (h : offset + 4 ≤ data.length) (t0 t1 t2 t3 : Char) :
    wavTag data offset t0 t1 t2 t3 =
      some (decide (slice data offset 4 = [byte t0, byte t1, byte t2, byte t3])) := by
  rw [slice_eq_map h, wavTag, getElem?_eq_getD (by omega), getElem?_eq_getD (by omega),
    getElem?_eq_getD (by omega), getElem?_eq_getD (by omega)]
  simp [List.range_succ, Bool.and_assoc, beq_eq_decide]

theorem wavTag_fmt (h : offset + 4 ≤ data.length) :
    wavTag data offset 'f' 'm' 't' ' ' = some (decide (slice data offset 4 = fmtTag)) :=
  wavTag_eq h 'f' 'm' 't' ' '

theorem wavTag_data (h : offset + 4 ≤ data.length) :
    wavTag data offset 'd' 'a' 't' 'a' = some (decide (slice data offset 4 = dataTag)) :=
  wavTag_eq h 'd' 'a' 't' 'a'

end

def wavFields (format channels sampleRate byteRate blockAlign bits : Nat) : List UInt8 :=
  LittleEndian.encode 2 format ++ (LittleEndian.encode 2 channels ++
    (LittleEndian.encode 4 sampleRate ++ (LittleEndian.encode 4 byteRate ++
    (LittleEndian.encode 2 blockAlign ++ LittleEndian.encode 2 bits))))

theorem wavFields_length (format channels sampleRate byteRate blockAlign bits : Nat) :
    (wavFields format channels sampleRate byteRate blockAlign bits).length = 16 := by
  simp [wavFields]

def fmtFields (chunks : WavChunks) : List UInt8 :=
  wavFields chunks.format.toNat chunks.channels.toNat chunks.sampleRate.toNat chunks.byteRate.toNat
    chunks.blockAlign.toNat chunks.bits.toNat

structure WavChunks.Seen (data : List UInt8) (seen : List Riff.Chunk) (chunks : WavChunks) :
    Prop where
  fmt : (chunks.sawFmt = false ∧ Riff.payloads fmtTag seen = []) ∨
    (chunks.sawFmt = true ∧ ∃ extra, Riff.payloads fmtTag seen = [fmtFields chunks ++ extra])
  data : (chunks.sawData = false ∧ Riff.payloads dataTag seen = []) ∨
    (chunks.sawData = true ∧
      Riff.payloads dataTag seen = [slice data chunks.pcm chunks.pcmBytes])

structure OnceEach (chunks : List Riff.Chunk) : Prop where
  fmt : (Riff.payloads fmtTag chunks).length ≤ 1
  fmtSize : ∀ payload ∈ Riff.payloads fmtTag chunks, 16 ≤ payload.length
  data : (Riff.payloads dataTag chunks).length ≤ 1

section

variable {data front rest : List UInt8} {seen : List Riff.Chunk} {chunks : WavChunks}
  {c : Riff.Chunk}

theorem OnceEach.of_append {more : List Riff.Chunk} (h : OnceEach (seen ++ more)) :
    OnceEach seen := by
  obtain ⟨hfmt, hsize, hdata⟩ := h
  rw [Riff.payloads_append, List.length_append] at hfmt hdata
  refine ⟨by omega, fun payload hpayload => hsize payload ?_, by omega⟩
  rw [Riff.payloads_append]
  exact List.mem_append_left _ hpayload

theorem wavFmtChunk_spec {payload chunkSize : Nat} (hpayload : payload + chunkSize ≤ data.length)
    (hfirst : chunks.sawFmt = false) (hsize : 16 ≤ chunkSize) :
    ∃ next, wavFmtChunk data payload chunkSize chunks = some (some next) ∧
      next.sawFmt = true ∧ fmtFields next = slice data payload 16 ∧
      next.sawData = chunks.sawData ∧ next.pcm = chunks.pcm ∧ next.pcmBytes = chunks.pcmBytes := by
  obtain ⟨format, h0, hs0⟩ := exists_wavU16 (by omega : payload + 2 ≤ data.length)
  obtain ⟨channels, h2, hs2⟩ := exists_wavU16 (by omega : payload + 2 + 2 ≤ data.length)
  obtain ⟨rate, h4, hs4⟩ := exists_wavU32 (by omega : payload + 4 + 4 ≤ data.length)
  obtain ⟨byteRate, h8, hs8⟩ := exists_wavU32 (by omega : payload + 8 + 4 ≤ data.length)
  obtain ⟨align, h12, hs12⟩ := exists_wavU16 (by omega : payload + 12 + 2 ≤ data.length)
  obtain ⟨bits, h14, hs14⟩ := exists_wavU16 (by omega : payload + 14 + 2 ≤ data.length)
  rw [wavFmtChunk, if_neg (by simp [hfirst, Nat.not_lt_of_le hsize])]
  simp only [h0, h2, h4, h8, h12, h14, Option.bind_some, Option.map_some]
  refine ⟨_, rfl, rfl, ?_, rfl, rfl, rfl⟩
  rw [fmtFields, wavFields, ← hs0, ← hs2, ← hs4, ← hs8, ← hs12, ← hs14, slice_append data (payload + 12),
    slice_append data (payload + 8), slice_append data (payload + 4), slice_append data (payload + 2),
    slice_append data payload]

theorem payloads_other (seen : List Riff.Chunk) {tag : List UInt8} (h : c.tag ≠ tag) :
    Riff.payloads tag (seen ++ [c]) = Riff.payloads tag seen := by
  rw [Riff.payloads_append, Riff.payloads_singleton_other h, List.append_nil]

theorem payloads_same (seen : List Riff.Chunk) {tag : List UInt8} (h : c.tag = tag) :
    Riff.payloads tag (seen ++ [c]) = Riff.payloads tag seen ++ [c.payload] := by
  rw [Riff.payloads_append, Riff.payloads_singleton_same h]

theorem fmtTag_ne_dataTag : fmtTag ≠ dataTag := by decide

theorem wavChunk_fmt {payload : Nat} (hpayload : slice data payload c.payload.length = c.payload)
    (hfits : payload + c.payload.length ≤ data.length) (htag : c.tag = fmtTag)
    (hseen : chunks.Seen data seen) :
    ∃ r, wavFmtChunk data payload c.payload.length chunks = some r ∧
      (∀ next, r = some next → next.Seen data (seen ++ [c])) ∧
      (OnceEach (seen ++ [c]) → r ≠ none) := by
  have hfmt := payloads_same seen htag
  have hdata := payloads_other seen (htag ▸ fmtTag_ne_dataTag)
  by_cases hbad : chunks.sawFmt = true ∨ c.payload.length < 16
  · refine ⟨none, by rw [wavFmtChunk, if_pos hbad], nofun, fun honce => absurd hbad ?_⟩
    rintro (hsaw | hshort)
    · obtain ⟨hno, -⟩ | ⟨-, extra, hone⟩ := hseen.fmt
      · rw [hno] at hsaw
        cases hsaw
      · have := honce.fmt
        simp [hfmt, hone] at this
    · have := honce.fmtSize c.payload (by rw [hfmt]; exact List.mem_append_right _ (List.mem_singleton_self _))
      omega
  · rw [not_or, Bool.not_eq_true, Nat.not_lt] at hbad
    obtain ⟨next, hnext, hsaw, hfields, hsawData, hpcm, hbytes⟩ :=
      wavFmtChunk_spec hfits hbad.1 hbad.2
    refine ⟨some next, hnext, fun last hlast => ?_, fun _ => Option.some_ne_none next⟩
    cases hlast
    refine ⟨.inr ⟨hsaw, c.payload.drop 16, ?_⟩, ?_⟩
    · obtain ⟨-, hnone⟩ | ⟨hyes, -⟩ := hseen.fmt
      · have hfront : slice data payload 16 = c.payload.take 16 := by
          rw [← hpayload, slice, slice, List.take_take, Nat.min_eq_left hbad.2]
        rw [hfmt, hnone, List.nil_append, hfields, hfront, List.take_append_drop]
      · rw [hbad.1] at hyes
        cases hyes
    · rw [hdata, hsawData, hpcm, hbytes]
      exact hseen.data

theorem wavChunk_data {payload : Nat} (hpayload : slice data payload c.payload.length = c.payload)
    (htag : c.tag = dataTag) (hseen : chunks.Seen data seen) :
    (∀ next, wavDataChunk payload c.payload.length chunks = some next →
        next.Seen data (seen ++ [c])) ∧
      (OnceEach (seen ++ [c]) → wavDataChunk payload c.payload.length chunks ≠ none) := by
  have hfmt := payloads_other seen (htag ▸ fmtTag_ne_dataTag.symm)
  have hdata := payloads_same seen htag
  rw [wavDataChunk]
  obtain ⟨hno, hnone⟩ | ⟨hyes, hone⟩ := hseen.data
  · rw [hno]
    refine ⟨fun next hnext => ?_, fun _ => Option.some_ne_none _⟩
    cases hnext
    refine ⟨?_, .inr ⟨rfl, ?_⟩⟩
    · rw [hfmt]
      exact hseen.fmt
    · rw [hdata, hnone, List.nil_append, hpayload]
  · rw [hyes]
    refine ⟨fun next hnext => (by cases hnext), fun honce => absurd honce.data ?_⟩
    simp [hdata, hone]

theorem wavChunk_spec (hdata : data = front ++ (c.bytes ++ rest))
    (hseen : chunks.Seen data seen) :
    ∃ r, wavChunk data front.length (front.length + 8) c.payload.length chunks = some r ∧
      (∀ next, r = some next → next.Seen data (seen ++ [c])) ∧
      (OnceEach (seen ++ [c]) → r ≠ none) := by
  have hlength : data.length = front.length + (8 + c.payload.length + c.payload.length % 2 +
      rest.length) := by
    rw [hdata, List.length_append, List.length_append, c.bytes_length]
  have htag : slice data front.length 4 = c.tag := by
    have := slice_append_left front (c.bytes ++ rest) 0 4
    rw [Nat.add_zero] at this
    rw [hdata, this]
    exact c.bytes_take_tag rest
  have hpayload : slice data (front.length + 8) c.payload.length = c.payload := by
    rw [hdata, slice_append_left]
    exact c.bytes_take_payload rest
  rw [wavChunk, wavTag_fmt (by omega), wavTag_data (by omega), htag, Option.bind_some, Option.map_some]
  by_cases hfmtTag : c.tag = fmtTag
  · rw [if_pos (decide_eq_true hfmtTag)]
    exact wavChunk_fmt hpayload (by omega) hfmtTag hseen
  · rw [if_neg (by rwa [decide_eq_true_eq])]
    by_cases hdataTag : c.tag = dataTag
    · rw [if_pos (decide_eq_true hdataTag)]
      exact ⟨_, rfl, wavChunk_data hpayload hdataTag hseen⟩
    · rw [if_neg (by rwa [decide_eq_true_eq])]
      refine ⟨_, rfl, fun next hnext => ?_, fun _ => Option.some_ne_none chunks⟩
      cases hnext
      refine ⟨?_, ?_⟩
      · rw [payloads_other seen hfmtTag]
        exact hseen.fmt
      · rw [payloads_other seen hdataTag]
        exact hseen.data

theorem wavChunkSize (hdata : data = front ++ (c.bytes ++ rest)) :
    ∃ value : UInt32, wavU32 data (front.length + 4) = some value ∧
      value.toNat = c.payload.length := by
  have hlength : data.length = front.length + (c.bytes ++ rest).length := by
    rw [hdata, List.length_append]
  rw [List.length_append, c.bytes_length] at hlength
  obtain ⟨value, hvalue, hslice⟩ := exists_wavU32 (by omega : front.length + 4 + 4 ≤ data.length)
  have hfield : slice data (front.length + 4) 4 = LittleEndian.encode 4 c.payload.length := by
    rw [hdata, slice_append_left]
    exact c.bytes_take_size rest
  have hencode : LittleEndian.encode 4 value.toNat ++ [] =
      LittleEndian.encode 4 c.payload.length ++ [] := by
    rw [← hslice, hfield]
  exact ⟨value, hvalue,
    (LittleEndian.encode_append_inj value.toNat_lt c.payload_lt hencode).1⟩

theorem wavChunkLoop_chunk (hdata : data = front ++ (c.bytes ++ rest)) (fuel : Nat) :
    wavChunkLoop data (fuel + 1) front.length chunks =
      unlessRejected (wavChunk data front.length (front.length + 8) c.payload.length chunks)
        fun next => wavChunkLoop data fuel (front ++ c.bytes).length next := by
  have hlength : data.length = front.length + (8 + c.payload.length + c.payload.length % 2 +
      rest.length) := by
    rw [hdata, List.length_append, List.length_append, c.bytes_length]
  obtain ⟨value, hvalue, hsize⟩ := wavChunkSize hdata
  rw [wavChunkLoop]
  dsimp only
  rw [if_pos (by omega), if_neg (by omega), hvalue, Option.bind_some, hsize, if_neg (by omega)]
  congr 1
  funext next
  have hcursor : (front ++ c.bytes).length =
      front.length + 8 + c.payload.length + c.payload.length % 2 := by
    rw [List.length_append, c.bytes_length]
    omega
  rw [hcursor]
  rcases Nat.mod_two_eq_zero_or_one c.payload.length with heven | hodd
  · rw [if_neg (by omega), heven]
    rfl
  · rw [if_pos (by omega), if_neg (by omega), hodd]

theorem wavChunkLoop_cut (hdata : data = front ++ rest) (hne : rest ≠ [])
    (hcut : ∀ (c : Riff.Chunk) more, rest ≠ c.bytes ++ more) (hinside : chunks.Inside data)
    (fuel : Nat) : wavChunkLoop data (fuel + 1) front.length chunks = some none := by
  have hlength : data.length = front.length + rest.length := by rw [hdata, List.length_append]
  have hpos := List.length_pos_iff.mpr hne
  rw [wavChunkLoop]
  dsimp only
  rw [if_pos (by omega)]
  split
  · rfl
  · next hheader =>
    obtain ⟨value, hvalue, hslice⟩ :=
      exists_wavU32 (by omega : front.length + 4 + 4 ≤ data.length)
    rw [hdata, slice_append_left] at hslice
    have hsize : value.toNat = LittleEndian.decode ((rest.drop 4).take 4) := by
      change (rest.drop 4).take 4 = _ at hslice
      rw [hslice, LittleEndian.decode_encode_of_lt value.toNat_lt]
    rw [hvalue, Option.bind_some]
    split
    · rfl
    · next hpayload =>
      obtain ⟨r, hr, -⟩ := wavChunk_total (by omega : front.length + 8 ≤ data.length)
        (by omega : front.length + 8 + value.toNat ≤ data.length) hinside
      rw [hr, unlessRejected, Option.bind_some]
      cases r with
      | none => rfl
      | some next =>
        dsimp only
        have hshort : rest.length < 8 + value.toNat + value.toNat % 2 := by
          by_contra hroom
          obtain ⟨c, more, hrest, -⟩ := Riff.exists_chunk hsize (Nat.le_of_not_lt hroom)
          exact hcut c more hrest
        rw [if_pos (by omega), if_pos (by omega)]

theorem wavChunkLoop_spec {fuel : Nat} (hfuel : rest.length < fuel) (hdata : data = front ++ rest)
    (hseen : chunks.Seen data seen) (hinside : chunks.Inside data) :
    ∃ r, wavChunkLoop data fuel front.length chunks = some r ∧
      (∀ stop last, r = some (stop, last) → stop = data.length ∧
        ∃ more, rest = Riff.bytes more ∧ last.Seen data (seen ++ more)) ∧
      (∀ more, rest = Riff.bytes more → OnceEach (seen ++ more) → r ≠ none) := by
  induction fuel generalizing front rest seen chunks with
  | zero => exact absurd hfuel (Nat.not_lt_zero _)
  | succ fuel ih =>
    rcases eq_or_ne rest [] with rfl | hne
    · rw [List.append_nil] at hdata
      rw [wavChunkLoop]
      dsimp only
      rw [hdata, if_neg (Nat.lt_irrefl _)]
      refine ⟨_, rfl, fun stop last h => ?_, fun _ _ _ => Option.some_ne_none _⟩
      cases h
      refine ⟨rfl, [], rfl, ?_⟩
      rwa [List.append_nil, ← hdata]
    · by_cases hchunk : ∃ (c : Riff.Chunk) (more : List UInt8), rest = c.bytes ++ more
      · obtain ⟨c, more, rfl⟩ := hchunk
        obtain ⟨r, hr, hsome, honce⟩ := wavChunk_spec hdata hseen
        have hlength := congrArg List.length hdata
        rw [List.length_append, List.length_append, c.bytes_length] at hlength
        rw [List.length_append, c.bytes_length] at hfuel
        obtain ⟨r', hr', hinside'⟩ := wavChunk_total (by omega : front.length + 8 ≤ data.length)
          (by omega : front.length + 8 + c.payload.length ≤ data.length) hinside
        obtain rfl : r = r' := Option.some.inj (hr.symm.trans hr')
        rw [wavChunkLoop_chunk hdata, hr, unlessRejected, Option.bind_some]
        cases r with
        | none =>
          refine ⟨none, rfl, fun _ _ hlast => (by cases hlast), fun chunks' hbytes hall => ?_⟩
          obtain ⟨tail, rfl, -⟩ := Riff.exists_cons_of_bytes hbytes
          rw [List.append_cons] at hall
          exact absurd rfl (honce hall.of_append)
        | some next =>
          rw [← List.append_assoc] at hdata
          obtain ⟨last, hlast, hstop, hall⟩ :=
            ih (by omega) hdata (hsome next rfl) (hinside' next rfl)
          refine ⟨last, hlast, fun stop final hfinal => ?_, fun chunks' hbytes hall' => ?_⟩
          · obtain ⟨hend, tail, hmore, hseen'⟩ := hstop stop final hfinal
            rw [← List.append_cons] at hseen'
            exact ⟨hend, c :: tail, by rw [hmore, Riff.bytes_cons], hseen'⟩
          · obtain ⟨tail, rfl, hmore⟩ := Riff.exists_cons_of_bytes hbytes
            rw [List.append_cons] at hall'
            exact hall tail hmore hall'
      · have hcut : ∀ (c : Riff.Chunk) more, rest ≠ c.bytes ++ more := fun c more h =>
          hchunk ⟨c, more, h⟩
        refine ⟨none, wavChunkLoop_cut hdata hne hcut hinside fuel,
          fun _ _ hlast => (by cases hlast), fun more hmore _ => ?_⟩
        cases more with
        | nil => exact absurd hmore hne
        | cons c more => exact absurd hmore (hcut c (Riff.bytes more))

end

end ChoonzMoba
