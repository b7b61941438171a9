import ChoonzMoba.Serialize.ByteIoSpec

namespace ChoonzMoba

inductive ByteType where
  | u8
  | u16
  | u32
  | u64
  | i8
  | i16
  | i32
  | i64
  | bytes (size : Nat)
deriving DecidableEq, Repr

inductive ByteValue where
  | u8 (value : UInt8)
  | u16 (value : UInt16)
  | u32 (value : UInt32)
  | u64 (value : UInt64)
  | i8 (value : Int8)
  | i16 (value : Int16)
  | i32 (value : Int32)
  | i64 (value : Int64)
  | bytes (block : List UInt8)

def ByteType.size : ByteType → Nat
  | u8 => 1
  | u16 => 2
  | u32 => 4
  | u64 => 8
  | i8 => 1
  | i16 => 2
  | i32 => 4
  | i64 => 8
  | bytes size => size

def ByteValue.type : ByteValue → ByteType
  | u8 _ => .u8
  | u16 _ => .u16
  | u32 _ => .u32
  | u64 _ => .u64
  | i8 _ => .i8
  | i16 _ => .i16
  | i32 _ => .i32
  | i64 _ => .i64
  | bytes block => .bytes block.length

def ByteValue.encode : ByteValue → List UInt8
  | u8 value => [value]
  | u16 value => LittleEndian.encode 2 value.toNat
  | u32 value => LittleEndian.encode 4 value.toNat
  | u64 value => LittleEndian.encode 8 value.toNat
  | i8 value => [value.toUInt8]
  | i16 value => LittleEndian.encode 2 value.toUInt16.toNat
  | i32 value => LittleEndian.encode 4 value.toUInt32.toNat
  | i64 value => LittleEndian.encode 8 value.toUInt64.toNat
  | bytes block => block

def ByteType.decode : ByteType → List UInt8 → ByteValue
  | u8, bs => .u8 (bs.headD 0)
  | u16, bs => .u16 (UInt16.ofNat (LittleEndian.decode bs))
  | u32, bs => .u32 (UInt32.ofNat (LittleEndian.decode bs))
  | u64, bs => .u64 (UInt64.ofNat (LittleEndian.decode bs))
  | i8, bs => .i8 (bs.headD 0).toInt8
  | i16, bs => .i16 (UInt16.ofNat (LittleEndian.decode bs)).toInt16
  | i32, bs => .i32 (UInt32.ofNat (LittleEndian.decode bs)).toInt32
  | i64, bs => .i64 (UInt64.ofNat (LittleEndian.decode bs)).toInt64
  | bytes _, bs => .bytes bs

def byteWriterWrite (writer : ByteWriter) : ByteValue → Bool × ByteWriter
  | .u8 value => byteWriterWriteU8 writer value
  | .u16 value => byteWriterWriteU16 writer value
  | .u32 value => byteWriterWriteU32 writer value
  | .u64 value => byteWriterWriteU64 writer value
  | .i8 value => byteWriterWriteI8 writer value
  | .i16 value => byteWriterWriteI16 writer value
  | .i32 value => byteWriterWriteI32 writer value
  | .i64 value => byteWriterWriteI64 writer value
  | .bytes block => byteWriterWriteBytes writer block

def byteReaderRead : ByteType → ByteRead ByteValue
  | .u8 => ByteRead.map .u8 byteReaderReadU8
  | .u16 => ByteRead.map .u16 byteReaderReadU16
  | .u32 => ByteRead.map .u32 byteReaderReadU32
  | .u64 => ByteRead.map .u64 byteReaderReadU64
  | .i8 => ByteRead.map .i8 byteReaderReadI8
  | .i16 => ByteRead.map .i16 byteReaderReadI16
  | .i32 => ByteRead.map .i32 byteReaderReadI32
  | .i64 => ByteRead.map .i64 byteReaderReadI64
  | .bytes size => ByteRead.map .bytes (byteReaderReadBytes size)

theorem ByteValue.encode_length (v : ByteValue) : v.encode.length = v.type.size := by
  cases v with
  | u8 _ => rfl
  | i8 _ => rfl
  | bytes _ => rfl
  | _ => exact LittleEndian.encode_length _ _

theorem ByteValue.decode_encode (v : ByteValue) : v.type.decode v.encode = v := by
  cases v with
  | u8 value => rfl
  | u16 value =>
    rw [type, encode, ByteType.decode, LittleEndian.decode_encode_of_lt value.toNat_lt,
      UInt16.ofNat_toNat]
  | u32 value =>
    rw [type, encode, ByteType.decode, LittleEndian.decode_encode_of_lt value.toNat_lt,
      UInt32.ofNat_toNat]
  | u64 value =>
    rw [type, encode, ByteType.decode, LittleEndian.decode_encode_of_lt value.toNat_lt,
      UInt64.ofNat_toNat]
  | i8 value => rfl
  | i16 value =>
    rw [type, encode, ByteType.decode, LittleEndian.decode_encode_of_lt value.toUInt16.toNat_lt,
      UInt16.ofNat_toNat, Int16.toInt16_toUInt16]
  | i32 value =>
    rw [type, encode, ByteType.decode, LittleEndian.decode_encode_of_lt value.toUInt32.toNat_lt,
      UInt32.ofNat_toNat, Int32.toInt32_toUInt32]
  | i64 value =>
    rw [type, encode, ByteType.decode, LittleEndian.decode_encode_of_lt value.toUInt64.toNat_lt,
      UInt64.ofNat_toNat, Int64.toInt64_toUInt64]
  | bytes block => rfl

theorem byteWriterWrite_eq (w : ByteWriter) (v : ByteValue) :
    byteWriterWrite w v = ByteWriter.fixedWrite v.encode w := by
  cases v with
  | u8 value => exact ByteWriter.byteWriterWriteU8_eq w value
  | u16 value => exact ByteWriter.byteWriterWriteU16_eq w value
  | u32 value => exact ByteWriter.byteWriterWriteU32_eq w value
  | u64 value => exact ByteWriter.byteWriterWriteU64_eq w value
  | i8 value => exact ByteWriter.byteWriterWriteU8_eq w value.toUInt8
  | i16 value => exact ByteWriter.byteWriterWriteU16_eq w value.toUInt16
  | i32 value => exact ByteWriter.byteWriterWriteU32_eq w value.toUInt32
  | i64 value => exact ByteWriter.byteWriterWriteU64_eq w value.toUInt64
  | bytes block => exact ByteWriter.byteWriterWriteBytes_eq w block

theorem byteReaderRead_eq (t : ByteType) : byteReaderRead t = fixedRead t.size t.decode := by
  cases t with
  | u8 => rw [byteReaderRead, byteReaderReadU8_eq, ByteRead.map_fixed]; rfl
  | u16 => rw [byteReaderRead, byteReaderReadU16_eq, ByteRead.map_fixed]; rfl
  | u32 => rw [byteReaderRead, byteReaderReadU32_eq, ByteRead.map_fixed]; rfl
  | u64 => rw [byteReaderRead, byteReaderReadU64_eq, ByteRead.map_fixed]; rfl
  | i8 => rw [byteReaderRead, byteReaderReadI8_eq, ByteRead.map_fixed]; rfl
  | i16 => rw [byteReaderRead, byteReaderReadI16_eq, ByteRead.map_fixed]; rfl
  | i32 => rw [byteReaderRead, byteReaderReadI32_eq, ByteRead.map_fixed]; rfl
  | i64 => rw [byteReaderRead, byteReaderReadI64_eq, ByteRead.map_fixed]; rfl
  | bytes size => rw [byteReaderRead, byteReaderReadBytes_eq, ByteRead.map_fixed]; rfl

def byteWriterWriteAll : List ByteValue → ByteWriter → List Bool × ByteWriter
  | [], writer => ([], writer)
  | value :: values, writer =>
    let first := byteWriterWrite writer value
    let rest := byteWriterWriteAll values first.2
    (first.1 :: rest.1, rest.2)

section

variable {w u : ByteWriter} {r : ByteReader}

theorem byteWriterWrite_cases (w : ByteWriter) (v : ByteValue) :
    w.Fits v.encode.length ∧ byteWriterWrite w v = (true, w.put v.encode) ∨
      byteWriterWrite w v = (false, { w with ok := false }) := by
  rw [byteWriterWrite_eq, ByteWriter.fixedWrite]
  by_cases h : w.Fits v.encode.length
  · exact Or.inl ⟨h, if_pos h⟩
  · exact Or.inr (if_neg h)

theorem byteReaderRead_cases (t : ByteType) (r : ByteReader) :
    r.Has t.size ∧ byteReaderRead t r = (some (t.decode (r.window t.size)), r.skip t.size) ∨
      byteReaderRead t r = (none, { r with ok := false }) := by
  rw [byteReaderRead_eq, fixedRead]
  by_cases h : r.Has t.size
  · exact Or.inl ⟨h, if_pos h⟩
  · exact Or.inr (if_neg h)

theorem byteWriterWrite_closed (hok : w.ok = false) (v : ByteValue) :
    byteWriterWrite w v = (false, w) := by
  rcases byteWriterWrite_cases w v with ⟨hfits, -⟩ | hclosed
  · exact absurd (hok.symm.trans hfits.1.1) Bool.false_ne_true
  · rw [hclosed, ← hok]

theorem byteWriterWriteAll_closed (hok : w.ok = false) (values : List ByteValue) :
    byteWriterWriteAll values w = (values.map fun _ => false, w) := by
  induction values with
  | nil => rfl
  | cons v values ih =>
    rw [byteWriterWriteAll, byteWriterWrite_closed hok]
    dsimp only
    rw [ih]
    rfl

theorem byteWriterWriteAll_bytes {values : List ByteValue} {oks : List Bool}
    (h : byteWriterWriteAll values w = (oks, u)) (hall : ∀ ok ∈ oks, ok = true) :
    u.bytes = w.bytes ++ values.flatMap ByteValue.encode := by
  induction values generalizing w oks with
  | nil =>
    cases h
    rw [List.flatMap_nil, List.append_nil]
  | cons v values ih =>
    rw [byteWriterWriteAll] at h
    obtain ⟨rfl, rfl⟩ := Prod.mk.inj h
    rw [List.forall_mem_cons] at hall
    rcases byteWriterWrite_cases w v with ⟨-, hput⟩ | hclosed
    · have hbytes := ih rfl hall.2
      rw [hbytes, hput, ByteWriter.put_bytes, List.append_assoc, List.flatMap_cons]
    · rw [hclosed] at hall
      exact absurd hall.1 Bool.false_ne_true

theorem byteReaderRead_encoded (hr : r.Ready) (v : ByteValue) {more : List UInt8}
    (hrest : r.rest = v.encode ++ more) :
    byteReaderRead v.type r = (some v, r.skip v.encode.length) := by
  obtain ⟨hlen, hwindow⟩ := ByteReader.prefix_iff.mp ⟨more, hrest.symm⟩
  rw [v.encode_length] at hlen hwindow
  have hhas : r.Has v.type.size := ⟨hr, hlen⟩
  rw [byteReaderRead_eq, fixedRead, if_pos hhas, ← hwindow, v.decode_encode, v.encode_length]

end

end ChoonzMoba
