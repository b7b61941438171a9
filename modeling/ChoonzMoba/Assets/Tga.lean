import ChoonzMoba.Core.HashMap
import ChoonzMoba.Serialize.ByteIo

namespace ChoonzMoba

-- `pixels` is where the pixel data begins in the file.
structure TgaInfo where
  pixels : Nat
  pixelBytesAvailable : Nat
  pixelCount : Nat
  width : Nat
  height : Nat
  bytesPerPixel : Nat
  imageType : UInt8
  topLeft : Bool

-- `rgba8` is what the pointer shows, `address` where it points.
structure TgaImage where
  width : Nat
  height : Nat
  address : Nat
  rgba8 : Nat → UInt8

-- In this module an outer `none` is an access outside the file or the output, or an abort.

def tgaReadU16le (data : List UInt8) (offset : Nat) : Option Nat :=
  (data[offset]?).bind fun b0 =>
  (data[offset + 1]?).map fun b1 => (b0.toUInt16 ||| (b1.toUInt16 <<< 8)).toNat

def tgaRun (packet : UInt8) : Nat := (packet &&& 0x7f).toNat + 1

def tgaPacketLoop (data : List UInt8) (dataOffset available bytesPerPixel pixelCount : Nat) :
    Nat → Nat → Nat → Option Bool
  | 0, _, _ => none
  | fuel + 1, cursor, produced =>
    if produced < pixelCount then
      if available ≤ cursor then some false
      else
        (data[dataOffset + cursor]?).bind fun packet =>
          let cursor := cursor + 1
          let run := tgaRun packet
          if pixelCount - produced < run then some false
          else
            let sourcePixels := if packet &&& 0x80 ≠ 0 then 1 else run
            if sizeMax / bytesPerPixel < sourcePixels then some false
            else
              let sourceBytes := sourcePixels * bytesPerPixel
              if available - cursor < sourceBytes then some false
              else
                tgaPacketLoop data dataOffset available bytesPerPixel pixelCount fuel
                  (cursor + sourceBytes) (produced + run)
    else some true

def tgaPixelsPresent (data : List UInt8) (imageType : UInt8)
    (dataOffset available bytesPerPixel pixelCount : Nat) : Option Bool :=
  if imageType = 2 then
    some !(decide (sizeMax / bytesPerPixel < pixelCount) ||
      decide (available < pixelCount * bytesPerPixel))
  else tgaPacketLoop data dataOffset available bytesPerPixel pixelCount (pixelCount + 1) 0 0

def inspectTga (bytes : Option (List UInt8)) : Option (Option TgaInfo) :=
  match bytes with
  | none => some none
  | some data =>
    let size := data.length
    if size < 18 then some none
    else
      (data[0]?).bind fun idLength =>
      (data[1]?).bind fun colorMapType =>
      (data[2]?).bind fun imageType =>
      (tgaReadU16le data 12).bind fun width =>
      (tgaReadU16le data 14).bind fun height =>
      (data[16]?).bind fun (bitsPerPixel : UInt8) =>
      (data[17]?).bind fun (descriptor : UInt8) =>
      if colorMapType ≠ 0 ∨ (imageType ≠ 2 ∧ imageType ≠ 10) ∨
          (bitsPerPixel ≠ 24 ∧ bitsPerPixel ≠ 32) ∨ width = 0 ∨ height = 0 ∨
          descriptor &&& 0x10 ≠ 0 ∨ descriptor &&& 0xC0 ≠ 0 then some none
      else
        let attributeBits := descriptor &&& 0x0f
        if (bitsPerPixel = 24 ∧ attributeBits ≠ 0) ∨
            (bitsPerPixel = 32 ∧ attributeBits ≠ 0 ∧ attributeBits ≠ 8) then some none
        else
          let dataOffset := 18 + idLength.toNat
          if size < dataOffset then some none
          else
            let bytesPerPixel := (bitsPerPixel / 8).toNat
            let pixelCount := width * height
            let available := size - dataOffset
            (tgaPixelsPresent data imageType dataOffset available bytesPerPixel pixelCount).map
              fun present =>
              if present then
                some
                  { pixels := dataOffset
                    pixelBytesAvailable := available
                    pixelCount, width, height, bytesPerPixel, imageType
                    topLeft := decide (descriptor &&& 0x20 ≠ 0) }
              else none

-- width, height and the bytes the decoded pixels take
def tgaInspect (bytes : Option (List UInt8)) : Option (Option (Nat × Nat × Nat)) :=
  (inspectTga bytes).map fun r =>
    r.bind fun info =>
      if sizeMax / 4 < info.pixelCount then none
      else some (info.width, info.height, info.pixelCount * 4)

-- `source` is where the pixel stands in the file.
def writePixel (data : List UInt8) (info : TgaInfo) (destination : Nat → UInt8)
    (filePixelIndex source : Nat) : Option (Nat → UInt8) :=
  let fileY := filePixelIndex / info.width
  let x := filePixelIndex - fileY * info.width
  let outputY := if info.topLeft then fileY else info.height - 1 - fileY
  let pixel := (outputY * info.width + x) * 4
  if info.height ≤ fileY ∨ info.pixelCount * 4 < pixel + 4 then none
  else
    (data[source + 2]?).bind fun red =>
    (data[source + 1]?).bind fun green =>
    (data[source]?).bind fun blue =>
    (if info.bytesPerPixel = 4 then data[source + 3]? else some 255).map fun alpha =>
      memcpy destination pixel [red, green, blue, alpha]

def tgaDecodeRaw (data : List UInt8) (info : TgaInfo) (rgba8 : Nat → UInt8) :
    Option (Nat → UInt8) :=
  Loop.forRangeM info.pixelCount
    (fun rgba8 i => writePixel data info rgba8 i (info.pixels + i * info.bytesPerPixel)) rgba8

def tgaDecodePacket (data : List UInt8) (info : TgaInfo) (rgba8 : Nat → UInt8)
    (cursor produced : Nat) (packet : UInt8) : Option ((Nat → UInt8) × Nat × Nat) :=
  let run := tgaRun packet
  if packet &&& 0x80 ≠ 0 then
    (Loop.forRangeM run
      (fun rgba8 i => writePixel data info rgba8 (produced + i) (info.pixels + cursor)) rgba8).map
      fun rgba8 => (rgba8, cursor + info.bytesPerPixel, produced + run)
  else
    (Loop.forRangeM run
      (fun rgba8 i => writePixel data info rgba8 (produced + i)
        (info.pixels + (cursor + i * info.bytesPerPixel))) rgba8).map
      fun rgba8 => (rgba8, cursor + run * info.bytesPerPixel, produced + run)

def tgaDecodeLoop (data : List UInt8) (info : TgaInfo) :
    Nat → (Nat → UInt8) → Nat → Nat → Option (Nat → UInt8)
  | 0, _, _, _ => none
  | fuel + 1, rgba8, cursor, produced =>
    if produced < info.pixelCount then
      (data[info.pixels + cursor]?).bind fun packet =>
      (tgaDecodePacket data info rgba8 (cursor + 1) produced packet).bind fun r =>
        tgaDecodeLoop data info fuel r.1 r.2.1 r.2.2
    else some rgba8

-- `rgba8` is what the freshly allocated block holds before the pixels are written.
def tgaDecode {σ : Type} (bytes : Option (List UInt8)) (alloc : Allocator σ) (state : σ)
    (fresh : Nat → UInt8) : Option (Option TgaImage × σ) :=
  match bytes with
  | none => some (none, state)
  | some data =>
    (inspectTga bytes).bind fun r =>
    match r with
    | none => some (none, state)
    | some info =>
      if sizeMax / 4 < info.pixelCount then some (none, state)
      else
        let outputBytes := info.pixelCount * 4
        (memAlloc alloc state outputBytes memDefaultAlign).bind fun (address, state) =>
        if address = 0 then some (none, state)
        else
          (if info.imageType = 2 then tgaDecodeRaw data info fresh
            else tgaDecodeLoop data info (info.pixelCount + 1) fresh 0 0).map fun rgba8 =>
            (some { width := info.width, height := info.height, address, rgba8 }, state)

-- each `out` is what the pointer shows before and after the call, `none` where it is null
def tgaInspectInto (bytes : Option (List UInt8)) (outWidth outHeight outRgba8Bytes : Option Nat) :
    Option (Bool × Option Nat × Option Nat × Option Nat) :=
  if outWidth = none ∨ outHeight = none ∨ outRgba8Bytes = none then
    some (false, outWidth, outHeight, outRgba8Bytes)
  else
    (tgaInspect bytes).map fun r =>
      match r with
      | none => (false, outWidth, outHeight, outRgba8Bytes)
      | some (width, height, rgba8Bytes) => (true, some width, some height, some rgba8Bytes)

def tgaDecodeInto {σ : Type} (bytes : Option (List UInt8)) (alloc : Allocator σ) (state : σ)
    (fresh : Nat → UInt8) (out : Option TgaImage) : Option (Bool × Option TgaImage × σ) :=
  match out with
  | none => some (false, none, state)
  | some prior =>
    (tgaDecode bytes alloc state fresh).map fun (r, state) =>
      match r with
      | none => (false, some prior, state)
      | some image => (true, some image, state)

end ChoonzMoba
