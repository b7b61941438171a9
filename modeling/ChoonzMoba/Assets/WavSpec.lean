import ChoonzMoba.Assets.TgaSpec
import ChoonzMoba.Assets.Wav

namespace ChoonzMoba

section

variable {data : List UInt8} {offset : Nat}

theorem wavU16_total (h : offset + 2 ≤ data.length) : ∃ v, wavU16 data offset = some v := by
  obtain ⟨b0, h0⟩ : ∃ b, data[offset]? = some b := exists_getElem? (by omega)
  obtain ⟨b1, h1⟩ : ∃ b, data[offset + 1]? = some b := exists_getElem? (by omega)
  exact ⟨_, by rw [wavU16, h0, Option.bind_some, h1, Option.map_some]⟩

theorem wavU32_total (h : offset + 4 ≤ data.length) : ∃ v, wavU32 data offset = some v := by
  obtain ⟨b0, h0⟩ : ∃ b, data[offset]? = some b := exists_getElem? (by omega)
  obtain ⟨b1, h1⟩ : ∃ b, data[offset + 1]? = some b := exists_getElem? (by omega)
  obtain ⟨b2, h2⟩ : ∃ b, data[offset + 2]? = some b := exists_getElem? (by omega)
  obtain ⟨b3, h3⟩ : ∃ b, data[offset + 3]? = some b := exists_getElem? (by omega)
  exact ⟨_, by rw [wavU32, h0, Option.bind_some, h1, Option.bind_some, h2, Option.bind_some, h3,
    Option.map_some]⟩

theorem wavTag_total (h : offset + 4 ≤ data.length) (t0 t1 t2 t3 : Char) :
    ∃ b, wavTag data offset t0 t1 t2 t3 = some b := by
  obtain ⟨b0, h0⟩ : ∃ b, data[offset]? = some b := exists_getElem? (by omega)
  obtain ⟨b1, h1⟩ : ∃ b, data[offset + 1]? = some b := exists_getElem? (by omega)
  obtain ⟨b2, h2⟩ : ∃ b, data[offset + 2]? = some b := exists_getElem? (by omega)
  obtain ⟨b3, h3⟩ : ∃ b, data[offset + 3]? = some b := exists_getElem? (by omega)
  exact ⟨_, by rw [wavTag, h0, Option.bind_some, h1, Option.bind_some, h2, Option.bind_some, h3,
    Option.map_some]⟩

def WavChunks.Inside (chunks : WavChunks) (data : List UInt8) : Prop :=
  chunks.pcm + chunks.pcmBytes ≤ data.length

theorem wavFmtChunk_total {payload chunkSize : Nat} (hpayload : payload + chunkSize ≤ data.length)
    {chunks : WavChunks} (hinside : chunks.Inside data) :
    ∃ r, wavFmtChunk data payload chunkSize chunks = some r ∧
      ∀ next, r = some next → next.Inside data := by
  rw [wavFmtChunk]
  split
  · exact ⟨none, rfl, fun next h => by cases h⟩
  · next hsize =>
    obtain ⟨format, h0⟩ : ∃ v, wavU16 data payload = some v := wavU16_total (by omega)
    obtain ⟨channels, h2⟩ : ∃ v, wavU16 data (payload + 2) = some v := wavU16_total (by omega)
    obtain ⟨rate, h4⟩ : ∃ v, wavU32 data (payload + 4) = some v := wavU32_total (by omega)
    obtain ⟨byteRate, h8⟩ : ∃ v, wavU32 data (payload + 8) = some v := wavU32_total (by omega)
    obtain ⟨align, h12⟩ : ∃ v, wavU16 data (payload + 12) = some v := wavU16_total (by omega)
    obtain ⟨bits, h14⟩ : ∃ v, wavU16 data (payload + 14) = some v := wavU16_total (by omega)
    simp only [h0, h2, h4, h8, h12, h14, Option.bind_some, Option.map_some]
    refine ⟨_, rfl, fun next h => ?_⟩
    cases h
    exact hinside

theorem wavChunk_total {chunk payload chunkSize : Nat} (hchunk : chunk + 8 ≤ data.length)
    (hpayload : payload + chunkSize ≤ data.length) {chunks : WavChunks}
    (hinside : chunks.Inside data) :
    ∃ r, wavChunk data chunk payload chunkSize chunks = some r ∧
      ∀ next, r = some next → next.Inside data := by
  obtain ⟨fmt, hfmt⟩ := wavTag_total (by omega : chunk + 4 ≤ data.length) 'f' 'm' 't' ' '
  obtain ⟨samples, hsamples⟩ := wavTag_total (by omega : chunk + 4 ≤ data.length) 'd' 'a' 't' 'a'
  rw [wavChunk, hfmt, Option.bind_some, hsamples, Option.map_some]
  split
  · exact wavFmtChunk_total hpayload hinside
  · split
    · refine ⟨_, rfl, fun next h => ?_⟩
      rw [wavDataChunk] at h
      split at h
      · cases h
      · cases h
        exact hpayload
    · refine ⟨_, rfl, fun next h => ?_⟩
      cases h
      exact hinside

theorem wavChunkLoop_total {fuel cursor : Nat} (hfuel : data.length - cursor < fuel)
    {chunks : WavChunks} (hinside : chunks.Inside data) :
    ∃ r, wavChunkLoop data fuel cursor chunks = some r ∧
      ∀ stop last, r = some (stop, last) → last.Inside data := by
  induction fuel generalizing cursor chunks with
  | zero => exact absurd hfuel (Nat.not_lt_zero _)
  | succ fuel ih =>
    rw [wavChunkLoop]
    dsimp only
    split
    · split
      · exact ⟨none, rfl, fun stop last h => by cases h⟩
      · next hheader =>
        obtain ⟨chunkSize, hsize⟩ : ∃ v, wavU32 data (cursor + 4) = some v :=
          wavU32_total (by omega)
        rw [hsize, Option.bind_some]
        split
        · exact ⟨none, rfl, fun stop last h => by cases h⟩
        · next hpayload =>
          obtain ⟨r, hr, hnext⟩ := wavChunk_total (by omega : cursor + 8 ≤ data.length)
            (by omega : cursor + 8 + chunkSize.toNat ≤ data.length) hinside
          rw [hr, unlessRejected, Option.bind_some]
          cases r with
          | none => exact ⟨none, rfl, fun stop last h => by cases h⟩
          | some next =>
            dsimp only
            split
            · split
              · exact ⟨none, rfl, fun stop last h => by cases h⟩
              · exact ih (by omega) (hnext next rfl)
            · exact ih (by omega) (hnext next rfl)
    · refine ⟨_, rfl, fun stop last h => ?_⟩
      cases h
      exact hinside

theorem parseWav_total (bytes : Option (List UInt8)) :
    ∃ r, parseWav bytes = some r ∧ ∀ parsed, r = some parsed →
      ∃ data, bytes = some data ∧ parsed.pcm + parsed.info.pcmBytes ≤ data.length := by
  cases bytes with
  | none => exact ⟨none, rfl, fun parsed h => by cases h⟩
  | some data =>
    rw [parseWav]
    dsimp only
    split
    · exact ⟨none, rfl, fun parsed h => by cases h⟩
    · next hsize =>
      obtain ⟨riff, hriff⟩ := wavTag_total (by omega : 0 + 4 ≤ data.length) 'R' 'I' 'F' 'F'
      obtain ⟨wave, hwave⟩ := wavTag_total (by omega : 8 + 4 ≤ data.length) 'W' 'A' 'V' 'E'
      obtain ⟨payload, hpayload⟩ : ∃ v, wavU32 data 4 = some v := wavU32_total (by omega)
      rw [hriff, Option.bind_some, hwave, Option.bind_some, hpayload, Option.bind_some]
      split
      · exact ⟨none, rfl, fun parsed h => by cases h⟩
      · split
        · exact ⟨none, rfl, fun parsed h => by cases h⟩
        · have hstart : WavChunks.start.Inside data := Nat.zero_le _
          obtain ⟨r, hr, hinside⟩ :=
            wavChunkLoop_total (by omega : data.length - 12 < data.length + 1) hstart
          rw [hr, unlessRejected, Option.bind_some]
          cases r with
          | none => exact ⟨none, rfl, fun parsed h => by cases h⟩
          | some last =>
            refine ⟨_, rfl, fun parsed h => ⟨data, rfl, ?_⟩⟩
            have hlast := hinside last.1 last.2 rfl
            rw [wavParsed] at h
            split at h
            · cases h
            · dsimp only at h
              split at h
              · cases h
              · cases h
                exact hlast

theorem wavInspectPcm_total (bytes : Option (List UInt8)) : ∃ r, wavInspectPcm bytes = some r := by
  obtain ⟨r, hr, -⟩ := parseWav_total bytes
  exact ⟨_, by rw [wavInspectPcm, hr, Option.map_some]⟩

theorem wavDecodePcm_inspected {σ : Type} {bytes : Option (List UInt8)} {info : WavInfo}
    (h : wavInspectPcm bytes = some (some info)) (alloc : Allocator σ) (state : σ) :
    ∃ samples, wavDecodePcm bytes alloc state =
      (memAlloc alloc state info.pcmBytes memDefaultAlign).map fun r =>
        if r.1 = 0 then (none, r.2)
        else
          (some
            { address := r.1, pcm := samples, pcmBytes := info.pcmBytes
              sampleRate := info.sampleRate, frameCount := info.frameCount
              channels := info.channels, bitsPerSample := info.bitsPerSample }, r.2) := by
  obtain ⟨r, hr, hinside⟩ := parseWav_total bytes
  rw [wavInspectPcm, hr, Option.map_some, Option.some.injEq] at h
  obtain ⟨parsed, hparsed, rfl⟩ := Option.map_eq_some_iff.mp h
  obtain ⟨data, rfl, hextent⟩ := hinside parsed hparsed
  refine ⟨fun i => data.getD (parsed.pcm + i) 0, ?_⟩
  rw [wavDecodePcm]
  simp only [hr, hparsed, Option.bind_some, if_neg (Nat.not_lt_of_le hextent)]
  cases memAlloc alloc state parsed.info.pcmBytes memDefaultAlign with
  | none => rfl
  | some r =>
    rw [Option.bind_some, Option.map_some]
    split <;> rfl

end

end ChoonzMoba
