import ChoonzMoba.Assets.AssetId
import ChoonzMoba.Core.HashMap

namespace ChoonzMoba

structure WavInfo where
  pcmBytes : Nat
  sampleRate : UInt32
  frameCount : UInt32
  channels : UInt16
  bitsPerSample : UInt16

-- `pcm` is where the samples begin in the file.
structure WavParsed where
  info : WavInfo
  pcm : Nat

-- `pcm` is what the pointer shows, `address` where it points.
structure WavPcm where
  address : Nat
  pcm : Nat → UInt8
  pcmBytes : Nat
  sampleRate : UInt32
  frameCount : UInt32
  channels : UInt16
  bitsPerSample : UInt16

-- In this module an outer `none` is an access outside the file, or an abort.

def wavU16 (data : List UInt8) (offset : Nat) : Option UInt16 :=
  (data[offset]?).bind fun (b0 : UInt8) =>
  (data[offset + 1]?).map fun (b1 : UInt8) => b0.toUInt16 ||| (b1.toUInt16 <<< 8)

def wavU32 (data : List UInt8) (offset : Nat) : Option UInt32 :=
  (data[offset]?).bind fun (b0 : UInt8) =>
  (data[offset + 1]?).bind fun (b1 : UInt8) =>
  (data[offset + 2]?).bind fun (b2 : UInt8) =>
  (data[offset + 3]?).map fun (b3 : UInt8) =>
    b0.toUInt32 ||| (b1.toUInt32 <<< 8) ||| (b2.toUInt32 <<< 16) ||| (b3.toUInt32 <<< 24)

def wavTag (data : List UInt8) (offset : Nat) (t0 t1 t2 t3 : Char) : Option Bool :=
  (data[offset]?).bind fun (b0 : UInt8) =>
  (data[offset + 1]?).bind fun (b1 : UInt8) =>
  (data[offset + 2]?).bind fun (b2 : UInt8) =>
  (data[offset + 3]?).map fun (b3 : UInt8) =>
    b0 == byte t0 && b1 == byte t1 && b2 == byte t2 && b3 == byte t3

structure WavChunks where
  sawFmt : Bool
  sawData : Bool
  format : UInt16
  channels : UInt16
  bits : UInt16
  blockAlign : UInt16
  sampleRate : UInt32
  byteRate : UInt32
  pcm : Nat
  pcmBytes : Nat

def WavChunks.start : WavChunks where
  sawFmt := false
  sawData := false
  format := 0
  channels := 0
  bits := 0
  blockAlign := 0
  sampleRate := 0
  byteRate := 0
  pcm := 0
  pcmBytes := 0

def wavFmtChunk (data : List UInt8) (payload chunkSize : Nat) (chunks : WavChunks) :
    Option (Option WavChunks) :=
  if chunks.sawFmt = true ∨ chunkSize < 16 then some none
  else
    (wavU16 data payload).bind fun format =>
    (wavU16 data (payload + 2)).bind fun channels =>
    (wavU32 data (payload + 4)).bind fun sampleRate =>
    (wavU32 data (payload + 8)).bind fun byteRate =>
    (wavU16 data (payload + 12)).bind fun blockAlign =>
    (wavU16 data (payload + 14)).map fun bits =>
      some
        { chunks with
          sawFmt := true
          format, channels, sampleRate, byteRate, blockAlign, bits }

def wavDataChunk (payload chunkSize : Nat) (chunks : WavChunks) : Option WavChunks :=
  if chunks.sawData then none
  else some { chunks with sawData := true, pcm := payload, pcmBytes := chunkSize }

def wavChunk (data : List UInt8) (chunk payload chunkSize : Nat) (chunks : WavChunks) :
    Option (Option WavChunks) :=
  (wavTag data chunk 'f' 'm' 't' ' ').bind fun fmt =>
  if fmt then wavFmtChunk data payload chunkSize chunks
  else
    (wavTag data chunk 'd' 'a' 't' 'a').map fun samples =>
      if samples then wavDataChunk payload chunkSize chunks else some chunks

def wavChunkLoop (data : List UInt8) : Nat → Nat → WavChunks → Option (Option (Nat × WavChunks))
  | 0, _, _ => none
  | fuel + 1, cursor, chunks =>
    let size := data.length
    if cursor < size then
      if size - cursor < 8 then some none
      else
        (wavU32 data (cursor + 4)).bind fun chunkSize32 =>
          let chunkSize := chunkSize32.toNat
          let payload := cursor + 8
          if size - payload < chunkSize then some none
          else
            unlessRejected (wavChunk data cursor payload chunkSize chunks) fun chunks =>
              let cursor := payload + chunkSize
              if chunkSize % 2 ≠ 0 then
                if size ≤ cursor then some none else wavChunkLoop data fuel (cursor + 1) chunks
              else wavChunkLoop data fuel cursor chunks
    else some (some (cursor, chunks))

def wavParsed (size cursor : Nat) (chunks : WavChunks) : Option WavParsed :=
  if cursor ≠ size ∨ chunks.sawFmt = false ∨ chunks.sawData = false ∨ chunks.format ≠ 1 ∨
      chunks.channels = 0 ∨ 2 < chunks.channels ∨ chunks.sampleRate = 0 ∨
      384000 < chunks.sampleRate ∨
      (chunks.bits ≠ 8 ∧ chunks.bits ≠ 16 ∧ chunks.bits ≠ 24 ∧ chunks.bits ≠ 32) then none
  else
    let bytesPerSample := (chunks.bits / 8).toNat
    let expectedAlign := chunks.channels.toNat * bytesPerSample
    let expectedRate := chunks.sampleRate.toNat * expectedAlign
    if expectedAlign = 0 ∨ 2 ^ 16 - 1 < expectedAlign ∨ chunks.blockAlign.toNat ≠ expectedAlign ∨
        2 ^ 32 - 1 < expectedRate ∨ chunks.byteRate.toNat ≠ expectedRate ∨ chunks.pcmBytes = 0 ∨
        chunks.pcmBytes % expectedAlign ≠ 0 ∨ 2 ^ 32 - 1 < chunks.pcmBytes / expectedAlign then none
    else
      some
        { info :=
            { pcmBytes := chunks.pcmBytes
              sampleRate := chunks.sampleRate
              frameCount := UInt32.ofNat (chunks.pcmBytes / expectedAlign)
              channels := chunks.channels
              bitsPerSample := chunks.bits }
          pcm := chunks.pcm }

-- The inner `none` is `false`.
def parseWav (bytes : Option (List UInt8)) : Option (Option WavParsed) :=
  match bytes with
  | none => some none
  | some data =>
    let size := data.length
    if size < 12 then some none
    else
      (wavTag data 0 'R' 'I' 'F' 'F').bind fun riff =>
      (wavTag data 8 'W' 'A' 'V' 'E').bind fun wave =>
      if !riff || !wave then some none
      else
        (wavU32 data 4).bind fun riffPayload =>
        if riffPayload.toNat + 8 ≠ size then some none
        else
          unlessRejected (wavChunkLoop data (size + 1) 12 .start) fun (cursor, chunks) =>
            some (wavParsed size cursor chunks)

def wavInspectPcm (bytes : Option (List UInt8)) : Option (Option WavInfo) :=
  (parseWav bytes).map fun r => r.map WavParsed.info

def wavDecodePcm {σ : Type} (bytes : Option (List UInt8)) (alloc : Allocator σ) (state : σ) :
    Option (Option WavPcm × σ) :=
  match bytes with
  | none => some (none, state)
  | some data =>
    (parseWav bytes).bind fun r =>
    match r with
    | none => some (none, state)
    | some parsed =>
      let info := parsed.info
      (memAlloc alloc state info.pcmBytes memDefaultAlign).bind fun (address, state) =>
      if address = 0 then some (none, state)
      else if data.length < parsed.pcm + info.pcmBytes then none
      else
        some
          (some
            { address
              pcm := fun i => data.getD (parsed.pcm + i) 0
              pcmBytes := info.pcmBytes
              sampleRate := info.sampleRate
              frameCount := info.frameCount
              channels := info.channels
              bitsPerSample := info.bitsPerSample },
            state)

-- `out` is what the pointer shows before and after the call, `none` where it is null
def wavInspectPcmInto (bytes : Option (List UInt8)) (out : Option WavInfo) :
    Option (Bool × Option WavInfo) :=
  match out with
  | none => some (false, none)
  | some prior =>
    (wavInspectPcm bytes).map fun r =>
      match r with
      | none => (false, some prior)
      | some info => (true, some info)

def wavDecodePcmInto {σ : Type} (bytes : Option (List UInt8)) (alloc : Allocator σ) (state : σ)
    (out : Option WavPcm) : Option (Bool × Option WavPcm × σ) :=
  match out with
  | none => some (false, none, state)
  | some prior =>
    (wavDecodePcm bytes alloc state).map fun (r, state) =>
      match r with
      | none => (false, some prior, state)
      | some result => (true, some result, state)

end ChoonzMoba
