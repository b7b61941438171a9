import ChoonzMoba.Library.Loop

namespace ChoonzMoba

def memcpy (data : Nat → UInt8) (offset : Nat) (bytes : List UInt8) : Nat → UInt8 :=
  fun i => if offset ≤ i then bytes.getD (i - offset) (data i) else data i

structure ByteWriter where
  data : Nat → UInt8
  capacity : Nat
  offset : Nat
  ok : Bool

def writerReserve (writer : ByteWriter) (size : Nat) : Bool × ByteWriter :=
  if !writer.ok then (false, writer)
  else if writer.capacity < writer.offset ∨ writer.capacity - writer.offset < size then
    (false, { writer with ok := false })
  else (true, writer)

def byteWriterInit (data : Option (Nat → UInt8)) (capacity : Nat) : ByteWriter :=
  { data := data.getD fun _ => 0
    capacity := capacity
    offset := 0
    ok := data.isSome || decide (capacity = 0) }

def byteWriterOk (writer : ByteWriter) : Bool := writer.ok

def byteWriterSize (writer : ByteWriter) : Nat := writer.offset

def byteWriterWriteBytes (writer : ByteWriter) (bytes : List UInt8) : Bool × ByteWriter :=
  if !writer.ok then (false, writer)
  else
    match writerReserve writer bytes.length with
    | (false, writer) => (false, writer)
    | (true, writer) =>
      (true,
        { writer with
          data := memcpy writer.data writer.offset bytes
          offset := writer.offset + bytes.length })

def byteWriterWriteU8 (writer : ByteWriter) (value : UInt8) : Bool × ByteWriter :=
  byteWriterWriteBytes writer [value]

def byteWriterWriteU16 (writer : ByteWriter) (value : UInt16) : Bool × ByteWriter :=
  byteWriterWriteBytes writer [value.toUInt8, (value >>> 8).toUInt8]

def byteWriterWriteU32 (writer : ByteWriter) (value : UInt32) : Bool × ByteWriter :=
  byteWriterWriteBytes writer
    ((List.range 4).map fun i => (value >>> UInt32.ofNat (i * 8)).toUInt8)

def byteWriterWriteU64 (writer : ByteWriter) (value : UInt64) : Bool × ByteWriter :=
  byteWriterWriteBytes writer
    ((List.range 8).map fun i => (value >>> UInt64.ofNat (i * 8)).toUInt8)

def byteWriterWriteI8 (writer : ByteWriter) (value : Int8) : Bool × ByteWriter :=
  byteWriterWriteU8 writer value.toUInt8

def byteWriterWriteI16 (writer : ByteWriter) (value : Int16) : Bool × ByteWriter :=
  byteWriterWriteU16 writer value.toUInt16

def byteWriterWriteI32 (writer : ByteWriter) (value : Int32) : Bool × ByteWriter :=
  byteWriterWriteU32 writer value.toUInt32

def byteWriterWriteI64 (writer : ByteWriter) (value : Int64) : Bool × ByteWriter :=
  byteWriterWriteU64 writer value.toUInt64

structure ByteReader where
  data : Nat → UInt8
  size : Nat
  offset : Nat
  ok : Bool

def readerReserve (reader : ByteReader) (size : Nat) : Bool × ByteReader :=
  if !reader.ok then (false, reader)
  else if reader.size < reader.offset ∨ reader.size - reader.offset < size then
    (false, { reader with ok := false })
  else (true, reader)

def byteReaderInit (data : Option (Nat → UInt8)) (size : Nat) : ByteReader :=
  { data := data.getD fun _ => 0
    size := size
    offset := 0
    ok := data.isSome || decide (size = 0) }

def byteReaderRemaining (reader : ByteReader) : Nat :=
  if reader.size < reader.offset then 0 else reader.size - reader.offset

/-- A reader that fails returns no value; the reader itself comes back either way. -/
abbrev ByteRead (α : Type) := ByteReader → Option α × ByteReader

/-- A failed read ends the whole sequence of reads with `status`. -/
def ByteRead.orFail {ε α : Type} (read : ByteRead α) (status : ε) :
    StateT ByteReader (Except ε) α := fun reader =>
  match read reader with
  | (some value, reader) => .ok (value, reader)
  | (none, _) => .error status

def byteReaderReadBytes (size : Nat) : ByteRead (List UInt8) := fun reader =>
  if !reader.ok then (none, reader)
  else
    match readerReserve reader size with
    | (false, reader) => (none, reader)
    | (true, reader) =>
      (some ((List.range size).map fun i => reader.data (reader.offset + i)),
        { reader with offset := reader.offset + size })

def byteReaderReadU8 : ByteRead UInt8 := fun reader =>
  match byteReaderReadBytes 1 reader with
  | (some bytes, reader) => (bytes.head?, reader)
  | (none, reader) => (none, reader)

def byteReaderReadU16 : ByteRead UInt16 := fun reader =>
  match readerReserve reader 2 with
  | (false, reader) => (none, reader)
  | (true, reader) =>
    let p := fun i => reader.data (reader.offset + i)
    (some ((p 0).toUInt16 ||| ((p 1).toUInt16 <<< 8)), { reader with offset := reader.offset + 2 })

def byteReaderReadU32 : ByteRead UInt32 := fun reader =>
  match readerReserve reader 4 with
  | (false, reader) => (none, reader)
  | (true, reader) =>
    let p := fun i => reader.data (reader.offset + i)
    (some (Loop.forRange 4
        (fun value i => value ||| ((p i).toUInt32 <<< UInt32.ofNat (i * 8))) 0),
      { reader with offset := reader.offset + 4 })

def byteReaderReadU64 : ByteRead UInt64 := fun reader =>
  match readerReserve reader 8 with
  | (false, reader) => (none, reader)
  | (true, reader) =>
    let p := fun i => reader.data (reader.offset + i)
    (some (Loop.forRange 8
        (fun value i => value ||| ((p i).toUInt64 <<< UInt64.ofNat (i * 8))) 0),
      { reader with offset := reader.offset + 8 })

def byteReaderReadI8 : ByteRead Int8 := fun reader =>
  match byteReaderReadU8 reader with
  | (some bits, reader) => (some bits.toInt8, reader)
  | (none, reader) => (none, reader)

def byteReaderReadI16 : ByteRead Int16 := fun reader =>
  match byteReaderReadU16 reader with
  | (some bits, reader) => (some bits.toInt16, reader)
  | (none, reader) => (none, reader)

def byteReaderReadI32 : ByteRead Int32 := fun reader =>
  match byteReaderReadU32 reader with
  | (some bits, reader) => (some bits.toInt32, reader)
  | (none, reader) => (none, reader)

def byteReaderReadI64 : ByteRead Int64 := fun reader =>
  match byteReaderReadU64 reader with
  | (some bits, reader) => (some bits.toInt64, reader)
  | (none, reader) => (none, reader)

end ChoonzMoba
