import ChoonzMoba.Assets.AssetId
import ChoonzMoba.Core.Arena
import ChoonzMoba.Serialize.ByteIo

namespace ChoonzMoba

def mbaMagic : UInt32 := 0x0041424D

def mbaVersion : UInt32 := 1

def mbaHeaderBytes : Nat := 32

def mbaTexturePayloadHeaderBytes : Nat := 16

inductive MbaAssetType where
  | none
  | texture
  | mesh
  | sound
  | font
deriving DecidableEq, Repr

def MbaAssetType.value : MbaAssetType → UInt32
  | none => 0
  | texture => 1
  | mesh => 2
  | sound => 3
  | font => 4

inductive MbaTextureFormat where
  | none
  | rgba8
deriving DecidableEq, Repr

def MbaTextureFormat.value : MbaTextureFormat → UInt32
  | none => 0
  | rgba8 => 1

@[ext] structure MbaHeader where
  magic : UInt32
  version : UInt32
  type : UInt32
  payloadBytes : UInt32
  assetId : AssetId
  flags : UInt32
  reserved : UInt32

-- `rgba8` is null or points to `rgba8Bytes` bytes.
structure MbaTextureSource where
  rgba8 : Option (List UInt8)
  rgba8Bytes : Nat
  width : UInt32
  height : UInt32
  readable : ∀ pixels, rgba8 = some pixels → pixels.length = rgba8Bytes

-- `rgba8` is what can be read from the pointer into the file.
structure MbaTextureView where
  rgba8 : List UInt8
  rgba8Bytes : Nat
  width : UInt32
  height : UInt32
  format : UInt32

structure MbaAssetView where
  header : MbaHeader
  texture : MbaTextureView

-- `none` is a read past the end of the bytes.
def mbaReadU32le (bytes : List UInt8) (offset : Nat) : Option UInt32 := do
  let b0 ← bytes[offset]?
  let b1 ← bytes[offset + 1]?
  let b2 ← bytes[offset + 2]?
  let b3 ← bytes[offset + 3]?
  return b0.toUInt32 ||| (b1.toUInt32 <<< 8) ||| (b2.toUInt32 <<< 16) ||| (b3.toUInt32 <<< 24)

def mbaReadU64le (bytes : List UInt8) (offset : Nat) : Option UInt64 :=
  Loop.forRangeM 8 (fun result i =>
    (bytes[offset + i]?).map fun b => result ||| (b.toUInt64 <<< UInt64.ofNat (i * 8))) 0

def mbaWriteU32le (data : Nat → UInt8) (offset : Nat) (value : UInt32) : Nat → UInt8 :=
  memcpy data offset
    [value.toUInt8, (value >>> 8).toUInt8, (value >>> 16).toUInt8, (value >>> 24).toUInt8]

def mbaWriteU64le (data : Nat → UInt8) (offset : Nat) (value : UInt64) : Nat → UInt8 :=
  memcpy data offset ((List.range 8).map fun i => (value >>> UInt64.ofNat (i * 8)).toUInt8)

def mbaTexturePixelBytes (width height : UInt32) : Option Nat :=
  if width = 0 ∨ height = 0 then none
  else
    let pixels := width.toUInt64 * height.toUInt64
    if sizeMax / 4 < pixels.toNat then none else some (pixels.toNat * 4)

def mbaTextureMeasure (source : Option MbaTextureSource) : Option Nat :=
  source.bind fun source =>
  source.rgba8.bind fun _ =>
  (mbaTexturePixelBytes source.width source.height).bind fun pixelBytes =>
  if source.rgba8Bytes ≠ pixelBytes ∨
      2 ^ 32 - 1 - mbaTexturePayloadHeaderBytes < pixelBytes ∨
      sizeMax - mbaTexturePayloadHeaderBytes < pixelBytes ∨
      sizeMax - mbaTexturePayloadHeaderBytes - pixelBytes < mbaHeaderBytes then none
  else some (mbaHeaderBytes + mbaTexturePayloadHeaderBytes + pixelBytes)

-- The file's size and what `destination` then holds; `none` is `false`, with nothing written.
def mbaEncodeTexture (destination : Option (Nat → UInt8)) (capacity : Nat) (assetId : AssetId)
    (source : Option MbaTextureSource) : Option (Nat × (Nat → UInt8)) :=
  destination.bind fun bytes =>
  if assetId = assetIdNull then none
  else
    source.bind fun source =>
    (mbaTextureMeasure (some source)).bind fun fileBytes =>
    if capacity < fileBytes then none
    else
      source.rgba8.map fun pixels =>
        let payloadBytes := UInt32.ofNat (fileBytes - mbaHeaderBytes)
        let bytes := mbaWriteU32le bytes 0 mbaMagic
        let bytes := mbaWriteU32le bytes 4 mbaVersion
        let bytes := mbaWriteU32le bytes 8 MbaAssetType.texture.value
        let bytes := mbaWriteU32le bytes 12 payloadBytes
        let bytes := mbaWriteU64le bytes 16 assetId
        let bytes := mbaWriteU32le bytes 24 0
        let bytes := mbaWriteU32le bytes 28 0
        let payload := mbaHeaderBytes
        let bytes := mbaWriteU32le bytes payload source.width
        let bytes := mbaWriteU32le bytes (payload + 4) source.height
        let bytes := mbaWriteU32le bytes (payload + 8) MbaTextureFormat.rgba8.value
        let bytes := mbaWriteU32le bytes (payload + 12) (UInt32.ofNat source.rgba8Bytes)
        (fileBytes, memcpy bytes (payload + mbaTexturePayloadHeaderBytes) pixels)

def mbaReadHeader (data : List UInt8) : Option MbaHeader :=
  (mbaReadU32le data 0).bind fun magic =>
  (mbaReadU32le data 4).bind fun version =>
  (mbaReadU32le data 8).bind fun type =>
  (mbaReadU32le data 12).bind fun payloadBytes =>
  (mbaReadU64le data 16).bind fun assetId =>
  (mbaReadU32le data 24).bind fun flags =>
  (mbaReadU32le data 28).map fun reserved =>
    { magic, version, type, payloadBytes, assetId, flags, reserved }

def mbaInspectTexture (data : List UInt8) (header : MbaHeader) : Option (Option MbaAssetView) :=
  if header.payloadBytes.toNat < mbaTexturePayloadHeaderBytes then some none
  else
    let payload := mbaHeaderBytes
    (mbaReadU32le data payload).bind fun width =>
    (mbaReadU32le data (payload + 4)).bind fun height =>
    (mbaReadU32le data (payload + 8)).bind fun format =>
    (mbaReadU32le data (payload + 12)).map fun dataBytes =>
      if format ≠ MbaTextureFormat.rgba8.value then none
      else
        (mbaTexturePixelBytes width height).bind fun expectedBytes =>
        if dataBytes.toNat ≠ expectedBytes ∨
            dataBytes ≠ header.payloadBytes - UInt32.ofNat mbaTexturePayloadHeaderBytes then none
        else
          some
            { header
              texture :=
                { rgba8 := data.drop (payload + mbaTexturePayloadHeaderBytes)
                  rgba8Bytes := dataBytes.toNat
                  width, height, format } }

-- The outer `none` is a read outside the given bytes, the inner one `false`.
def mbaInspect (bytes : Option (List UInt8)) : Option (Option MbaAssetView) :=
  match bytes with
  | none => some none
  | some data =>
    let size := data.length
    if size < mbaHeaderBytes then some none
    else
      (mbaReadHeader data).bind fun header =>
      if header.magic ≠ mbaMagic ∨ header.version ≠ mbaVersion ∨ header.assetId = assetIdNull ∨
          header.flags ≠ 0 ∨ header.reserved ≠ 0 ∨
          sizeMax - mbaHeaderBytes < header.payloadBytes.toNat ∨
          size - mbaHeaderBytes < header.payloadBytes.toNat ∨
          size ≠ mbaHeaderBytes + header.payloadBytes.toNat then some none
      else if header.type = MbaAssetType.texture.value then mbaInspectTexture data header
      else some none

end ChoonzMoba
