import ChoonzMoba.Serialize.ByteIoTyped

namespace ChoonzMoba

-- The functions that touch the block, with every access checked: `none` is one outside it.

def ByteReader.load (reader : ByteReader) (i : Nat) : Option UInt8 :=
  if i < reader.size then some (reader.data i) else none

def ByteWriter.store (writer : ByteWriter) (i : Nat) (byte : UInt8) : Option ByteWriter :=
  if i < writer.capacity then some { writer with data := Function.update writer.data i byte }
  else none

def ByteWriter.storeAll (writer : ByteWriter) (offset : Nat) : List UInt8 → Option ByteWriter
  | [] => some writer
  | byte :: bytes =>
    (writer.store offset byte).bind fun writer => storeAll writer (offset + 1) bytes

def checkedWriteBytes (writer : ByteWriter) (bytes : List UInt8) : Option (Bool × ByteWriter) :=
  if !writer.ok then some (false, writer)
  else
    match writerReserve writer bytes.length with
    | (false, writer) => some (false, writer)
    | (true, writer) =>
      (writer.storeAll writer.offset bytes).map fun writer =>
        (true, { writer with offset := writer.offset + bytes.length })

def checkedWriteU16 (writer : ByteWriter) (value : UInt16) : Option (Bool × ByteWriter) :=
  checkedWriteBytes writer [value.toUInt8, (value >>> 8).toUInt8]

def checkedWriteU32 (writer : ByteWriter) (value : UInt32) : Option (Bool × ByteWriter) :=
  checkedWriteBytes writer
    ((List.range 4).map fun i => (value >>> UInt32.ofNat (i * 8)).toUInt8)

def checkedWriteU64 (writer : ByteWriter) (value : UInt64) : Option (Bool × ByteWriter) :=
  checkedWriteBytes writer
    ((List.range 8).map fun i => (value >>> UInt64.ofNat (i * 8)).toUInt8)

def checkedWrite (writer : ByteWriter) : ByteValue → Option (Bool × ByteWriter)
  | .u8 value => checkedWriteBytes writer [value]
  | .u16 value => checkedWriteU16 writer value
  | .u32 value => checkedWriteU32 writer value
  | .u64 value => checkedWriteU64 writer value
  | .i8 value => checkedWriteBytes writer [value.toUInt8]
  | .i16 value => checkedWriteU16 writer value.toUInt16
  | .i32 value => checkedWriteU32 writer value.toUInt32
  | .i64 value => checkedWriteU64 writer value.toUInt64
  | .bytes block => checkedWriteBytes writer block

abbrev CheckedRead (α : Type) := ByteReader → Option (Option α × ByteReader)

def CheckedRead.map {α β : Type} (f : α → β) (read : CheckedRead α) : CheckedRead β := fun reader =>
  (read reader).map fun result => (result.1.map f, result.2)

def checkedReadBytes (size : Nat) : CheckedRead (List UInt8) := fun reader =>
  if !reader.ok then some (none, reader)
  else
    match readerReserve reader size with
    | (false, reader) => some (none, reader)
    | (true, reader) =>
      (Loop.forRangeM size (fun out i =>
          (reader.load (reader.offset + i)).map fun byte => out ++ [byte]) []).map fun out =>
        (some out, { reader with offset := reader.offset + size })

def checkedReadU16 : CheckedRead UInt16 := fun reader =>
  match readerReserve reader 2 with
  | (false, reader) => some (none, reader)
  | (true, reader) =>
    (reader.load reader.offset).bind fun (low : UInt8) =>
    (reader.load (reader.offset + 1)).map fun (high : UInt8) =>
      let value := low.toUInt16 ||| (high.toUInt16 <<< 8)
      (some value, { reader with offset := reader.offset + 2 })

def checkedReadU32 : CheckedRead UInt32 := fun reader =>
  match readerReserve reader 4 with
  | (false, reader) => some (none, reader)
  | (true, reader) =>
    (Loop.forRangeM 4 (fun value i => (reader.load (reader.offset + i)).map fun byte =>
        value ||| (byte.toUInt32 <<< UInt32.ofNat (i * 8))) 0).map fun value =>
      (some value, { reader with offset := reader.offset + 4 })

def checkedReadU64 : CheckedRead UInt64 := fun reader =>
  match readerReserve reader 8 with
  | (false, reader) => some (none, reader)
  | (true, reader) =>
    (Loop.forRangeM 8 (fun value i => (reader.load (reader.offset + i)).map fun byte =>
        value ||| (byte.toUInt64 <<< UInt64.ofNat (i * 8))) 0).map fun value =>
      (some value, { reader with offset := reader.offset + 8 })

def checkedRead : ByteType → CheckedRead ByteValue
  | .u8 => CheckedRead.map (fun bytes => .u8 (bytes.headD 0)) (checkedReadBytes 1)
  | .u16 => CheckedRead.map .u16 checkedReadU16
  | .u32 => CheckedRead.map .u32 checkedReadU32
  | .u64 => CheckedRead.map .u64 checkedReadU64
  | .i8 => CheckedRead.map (fun bytes => .i8 (bytes.headD 0).toInt8) (checkedReadBytes 1)
  | .i16 => CheckedRead.map (fun bits => .i16 bits.toInt16) checkedReadU16
  | .i32 => CheckedRead.map (fun bits => .i32 bits.toInt32) checkedReadU32
  | .i64 => CheckedRead.map (fun bits => .i64 bits.toInt64) checkedReadU64
  | .bytes size => CheckedRead.map .bytes (checkedReadBytes size)

section

variable {r : ByteReader} {w : ByteWriter} {n : Nat}

theorem ByteReader.Has.load (h : r.Has n) {i : Nat} (hi : i < n) :
    r.load (r.offset + i) = some (r.data (r.offset + i)) := by
  obtain ⟨⟨-, hle⟩, hn⟩ := h
  rw [ByteReader.rest_length] at hn
  exact if_pos (by omega)

theorem checkedReadBytes_eq (n : Nat) (r : ByteReader) :
    checkedReadBytes n r = some (byteReaderReadBytes n r) := by
  rw [checkedReadBytes, byteReaderReadBytes, ByteReader.reserve_eq]
  split
  · rfl
  by_cases h : r.Has n
  · rw [if_pos h]
    dsimp only
    rw [Loop.forRangeM_eq_some fun out i hi => by rw [h.load hi]; rfl]
    rw [Loop.forRange_append, List.nil_append]
    rfl
  · rw [if_neg h]

theorem checkedReadU16_eq (r : ByteReader) : checkedReadU16 r = some (byteReaderReadU16 r) := by
  rw [checkedReadU16, byteReaderReadU16, ByteReader.reserve_eq]
  by_cases h : r.Has 2
  · rw [if_pos h]
    dsimp only
    rw [← Nat.add_zero r.offset, h.load Nat.zero_lt_two, Nat.add_zero, h.load Nat.one_lt_two]
    rfl
  · rw [if_neg h]

theorem checkedReadU32_eq (r : ByteReader) : checkedReadU32 r = some (byteReaderReadU32 r) := by
  rw [checkedReadU32, byteReaderReadU32, ByteReader.reserve_eq]
  by_cases h : r.Has 4
  · rw [if_pos h]
    dsimp only
    rw [Loop.forRangeM_eq_some fun value i hi => by rw [h.load hi]; rfl]
    rfl
  · rw [if_neg h]

theorem checkedReadU64_eq (r : ByteReader) : checkedReadU64 r = some (byteReaderReadU64 r) := by
  rw [checkedReadU64, byteReaderReadU64, ByteReader.reserve_eq]
  by_cases h : r.Has 8
  · rw [if_pos h]
    dsimp only
    rw [Loop.forRangeM_eq_some fun value i hi => by rw [h.load hi]; rfl]
    rfl
  · rw [if_neg h]

theorem CheckedRead.map_eq {α β : Type} {read : CheckedRead α} {plain : ByteRead α}
    (h : ∀ r, read r = some (plain r)) (f : α → β) (r : ByteReader) :
    CheckedRead.map f read r = some (ByteRead.map f plain r) := by
  rw [CheckedRead.map, h r]
  rfl

theorem checkedRead_eq (t : ByteType) (r : ByteReader) :
    checkedRead t r = some (byteReaderRead t r) := by
  rw [byteReaderRead_eq]
  cases t with
  | u8 =>
    rw [checkedRead, CheckedRead.map_eq (checkedReadBytes_eq 1), byteReaderReadBytes_eq,
      ByteRead.map_fixed]
    rfl
  | u16 =>
    rw [checkedRead, CheckedRead.map_eq checkedReadU16_eq, byteReaderReadU16_eq,
      ByteRead.map_fixed]
    rfl
  | u32 =>
    rw [checkedRead, CheckedRead.map_eq checkedReadU32_eq, byteReaderReadU32_eq,
      ByteRead.map_fixed]
    rfl
  | u64 =>
    rw [checkedRead, CheckedRead.map_eq checkedReadU64_eq, byteReaderReadU64_eq,
      ByteRead.map_fixed]
    rfl
  | i8 =>
    rw [checkedRead, CheckedRead.map_eq (checkedReadBytes_eq 1), byteReaderReadBytes_eq,
      ByteRead.map_fixed]
    rfl
  | i16 =>
    rw [checkedRead, CheckedRead.map_eq checkedReadU16_eq, byteReaderReadU16_eq,
      ByteRead.map_fixed]
    rfl
  | i32 =>
    rw [checkedRead, CheckedRead.map_eq checkedReadU32_eq, byteReaderReadU32_eq,
      ByteRead.map_fixed]
    rfl
  | i64 =>
    rw [checkedRead, CheckedRead.map_eq checkedReadU64_eq, byteReaderReadU64_eq,
      ByteRead.map_fixed]
    rfl
  | bytes size =>
    rw [checkedRead, CheckedRead.map_eq (checkedReadBytes_eq size), byteReaderReadBytes_eq,
      ByteRead.map_fixed]
    rfl

theorem memcpy_nil (data : Nat → UInt8) (offset : Nat) : memcpy data offset [] = data := by
  funext i
  exact ByteWriter.memcpy_outside data (Nat.lt_or_ge i offset)

theorem memcpy_singleton (data : Nat → UInt8) (offset : Nat) (byte : UInt8) :
    memcpy data offset [byte] = Function.update data offset byte := by
  funext i
  by_cases hi : i = offset
  · rw [hi, Function.update_self, memcpy, if_pos (Nat.le_refl offset), Nat.sub_self]
    rfl
  · rw [Function.update_of_ne hi]
    refine ByteWriter.memcpy_outside data ?_
    rw [List.length_singleton]
    omega

theorem ByteWriter.storeAll_eq (w : ByteWriter) {offset : Nat} {bs : List UInt8}
    (h : offset + bs.length ≤ w.capacity) :
    w.storeAll offset bs = some { w with data := memcpy w.data offset bs } := by
  induction bs generalizing w offset with
  | nil => rw [storeAll, memcpy_nil]
  | cons b bs ih =>
    rw [List.length_cons] at h
    have hb : offset < w.capacity := by omega
    have hrest : offset + 1 + bs.length ≤ w.capacity := by omega
    rw [storeAll, store, if_pos hb, Option.bind_some,
      ih { w with data := Function.update w.data offset b } hrest]
    dsimp only
    rw [← memcpy_singleton]
    exact congrArg (fun data => some { w with data := data }) (memcpy_append w.data offset [b] bs)

theorem checkedWriteBytes_eq (w : ByteWriter) (bs : List UInt8) :
    checkedWriteBytes w bs = some (byteWriterWriteBytes w bs) := by
  rw [checkedWriteBytes, byteWriterWriteBytes, ByteWriter.writerReserve_eq]
  split
  · rfl
  by_cases h : w.Fits bs.length
  · rw [if_pos h]
    dsimp only
    rw [w.storeAll_eq h.put.2]
    rfl
  · rw [if_neg h]

theorem checkedWrite_eq (w : ByteWriter) (v : ByteValue) :
    checkedWrite w v = some (byteWriterWrite w v) := by
  cases v <;> exact checkedWriteBytes_eq w _

end

-- Every call with the pointers it takes; `none` is a null pointer.

structure ByteReadCall where
  type : ByteType
  out : Option ByteValue

def byteReaderCall (reader : Option ByteReader) (call : ByteReadCall) :
    Option ((Bool × Option ByteValue) × Option ByteReader) :=
  match reader with
  | none => some ((false, call.out), none)
  | some reader =>
    if call.out.isNone ∧ 0 < call.type.size then
      some ((false, call.out), some { reader with ok := false })
    else
      (checkedRead call.type reader).map fun result =>
        ((result.1.isSome, call.out.map result.1.getD), some result.2)

inductive ByteWriteCall where
  | typed (value : ByteValue)
  | nullBytes (size : Nat)

def byteWriterCall (writer : Option ByteWriter) (call : ByteWriteCall) :
    Option (Bool × Option ByteWriter) :=
  match writer with
  | none => some (false, none)
  | some writer =>
    match call with
    | .typed value => (checkedWrite writer value).map fun result => (result.1, some result.2)
    | .nullBytes size =>
      if !writer.ok then some (false, some writer)
      else if 0 < size then some (false, some { writer with ok := false })
      else (checkedWriteBytes writer []).map fun result => (result.1, some result.2)

def byteReaderCalls : List ByteReadCall → Option ByteReader →
    Option (List (Bool × Option ByteValue) × Option ByteReader)
  | [], reader => some ([], reader)
  | call :: calls, reader =>
    (byteReaderCall reader call).bind fun first =>
    (byteReaderCalls calls first.2).map fun rest => (first.1 :: rest.1, rest.2)

def byteWriterCalls : List ByteWriteCall → Option ByteWriter →
    Option (List Bool × Option ByteWriter)
  | [], writer => some ([], writer)
  | call :: calls, writer =>
    (byteWriterCall writer call).bind fun first =>
    (byteWriterCalls calls first.2).map fun rest => (first.1 :: rest.1, rest.2)

def ByteWriteCall.size : ByteWriteCall → Nat
  | .typed value => value.type.size
  | .nullBytes size => size

section

variable {writer : Option ByteWriter} {reader : Option ByteReader}

theorem checkedWrite_atomic (w : ByteWriter) (v : ByteValue) :
    checkedWrite w v = some (false, w.closed) ∨
      ∃ u, w.Fits v.type.size ∧ checkedWrite w v = some (true, u) ∧ w.Appended u v.type.size := by
  rw [checkedWrite_eq]
  rcases byteWriterWrite_cases w v with ⟨hfits, hput⟩ | hclosed
  · refine Or.inr ⟨w.put v.encode, ?_⟩
    rw [hput, ← v.encode_length]
    exact ⟨hfits, rfl, hfits.appended⟩
  · exact Or.inl (congrArg some hclosed)

theorem byteWriterCall_atomic (writer : Option ByteWriter) (call : ByteWriteCall) :
    byteWriterCall writer call = some (false, writer.map ByteWriter.closed) ∨
      ∃ w u, writer = some w ∧ w.Fits call.size ∧
        byteWriterCall writer call = some (true, some u) ∧ w.Appended u call.size := by
  cases writer with
  | none => exact Or.inl rfl
  | some w =>
    cases call with
    | typed v =>
      rw [byteWriterCall]
      rcases checkedWrite_atomic w v with hclosed | ⟨u, hfits, hput, happended⟩
      · exact Or.inl (by rw [hclosed]; rfl)
      · exact Or.inr ⟨w, u, rfl, hfits, by rw [hput]; rfl, happended⟩
    | nullBytes size =>
      rw [byteWriterCall]
      cases hok : w.ok with
      | false =>
        refine Or.inl ?_
        rw [Bool.not_false, if_pos rfl, Option.map_some, ByteWriter.closed, ← hok]
      | true =>
        rw [Bool.not_true, if_neg Bool.false_ne_true]
        by_cases hsize : 0 < size
        · exact Or.inl (if_pos hsize)
        · rw [if_neg hsize]
          obtain rfl := Nat.eq_zero_of_not_pos hsize
          -- an empty block from a null pointer is the write of an empty block
          show Option.map _ (checkedWrite w (.bytes [])) = _ ∨ _
          rcases checkedWrite_atomic w (.bytes []) with hclosed | ⟨u, hfits, hput, happended⟩
          · exact Or.inl (by rw [hclosed]; rfl)
          · refine Or.inr ⟨w, u, rfl, hfits, ?_, happended⟩
            show Option.map _ (checkedWrite w (.bytes [])) = _
            rw [hput]
            rfl

theorem byteReaderCall_atomic (reader : Option ByteReader) (call : ByteReadCall) :
    byteReaderCall reader call = some ((false, call.out), reader.map ByteReader.closed) ∨
      ∃ r, reader = some r ∧ r.Has call.type.size ∧
        byteReaderCall reader call = some
          ((true, call.out.map fun _ => call.type.decode (r.window call.type.size)),
            some (r.skip call.type.size)) := by
  cases reader with
  | none => exact Or.inl rfl
  | some r =>
    rw [byteReaderCall]
    by_cases hnull : call.out.isNone ∧ 0 < call.type.size
    · exact Or.inl (if_pos hnull)
    · rw [if_neg hnull, checkedRead_eq]
      rcases byteReaderRead_cases call.type r with ⟨hhas, hread⟩ | hclosed
      · exact Or.inr ⟨r, rfl, hhas, by rw [hread]; rfl⟩
      · refine Or.inl ?_
        rw [hclosed]
        cases call.out <;> rfl

theorem byteWriterCalls_closed (h : ∀ w ∈ writer, w.ok = false) (calls : List ByteWriteCall) :
    byteWriterCalls calls writer = some (calls.map fun _ => false, writer) := by
  have hsame : writer.map ByteWriter.closed = writer := by
    cases writer with
    | none => rfl
    | some w => rw [Option.map_some, ByteWriter.closed, ← h w rfl]
  induction calls with
  | nil => rfl
  | cons call calls ih =>
    have hcall : byteWriterCall writer call = some (false, writer) := by
      rcases byteWriterCall_atomic writer call with hclosed | ⟨w, -, hw, hfits, -⟩
      · rw [hclosed, hsame]
      · exact absurd ((h w hw).symm.trans hfits.1.1) Bool.false_ne_true
    rw [byteWriterCalls, hcall, Option.bind_some, ih]
    rfl

theorem byteReaderCalls_closed (h : ∀ r ∈ reader, r.ok = false) (calls : List ByteReadCall) :
    byteReaderCalls calls reader = some (calls.map fun call => (false, call.out), reader) := by
  have hsame : reader.map ByteReader.closed = reader := by
    cases reader with
    | none => rfl
    | some r => rw [Option.map_some, ByteReader.closed, ← h r rfl]
  induction calls with
  | nil => rfl
  | cons call calls ih =>
    have hcall : byteReaderCall reader call = some ((false, call.out), reader) := by
      rcases byteReaderCall_atomic reader call with hclosed | ⟨r, hr, hhas, -⟩
      · rw [hclosed, hsame]
      · exact absurd ((h r hr).symm.trans hhas.1.1) Bool.false_ne_true
    rw [byteReaderCalls, hcall, Option.bind_some, ih]
    rfl

theorem byteWriterCalls_failed {call : ByteWriteCall} {after : Option ByteWriter}
    (h : byteWriterCall writer call = some (false, after)) (calls : List ByteWriteCall) :
    byteWriterCalls calls after = some (calls.map fun _ => false, after) := by
  refine byteWriterCalls_closed (fun w hw => ?_) calls
  rcases byteWriterCall_atomic writer call with hclosed | ⟨_, _, _, _, hput, _⟩
  · cases h.symm.trans hclosed
    obtain ⟨v, -, rfl⟩ := Option.map_eq_some_iff.mp hw
    rfl
  · cases h.symm.trans hput

theorem byteReaderCalls_failed {call : ByteReadCall} {out : Option ByteValue}
    {after : Option ByteReader} (h : byteReaderCall reader call = some ((false, out), after))
    (calls : List ByteReadCall) :
    byteReaderCalls calls after = some (calls.map fun call => (false, call.out), after) := by
  refine byteReaderCalls_closed (fun r hr => ?_) calls
  rcases byteReaderCall_atomic reader call with hclosed | ⟨_, _, _, hread⟩
  · cases h.symm.trans hclosed
    obtain ⟨s, -, rfl⟩ := Option.map_eq_some_iff.mp hr
    rfl
  · cases h.symm.trans hread

theorem byteWriterCalls_values (values : List ByteValue) (w : ByteWriter) :
    byteWriterCalls (values.map .typed) (some w) =
      some ((byteWriterWriteAll values w).1, some (byteWriterWriteAll values w).2) := by
  induction values generalizing w with
  | nil => rfl
  | cons v values ih =>
    rw [List.map_cons, byteWriterCalls, byteWriterCall]
    rw [checkedWrite_eq, Option.map_some, Option.bind_some, ih]
    rfl

theorem byteWriterWriteAll_within {w : ByteWriter} (h : w.offset ≤ w.capacity)
    (values : List ByteValue) :
    (byteWriterWriteAll values w).2.offset ≤ w.capacity := by
  have hkeeps : (byteWriterWriteAll values w).2.capacity = w.capacity ∧
      (byteWriterWriteAll values w).2.offset ≤ (byteWriterWriteAll values w).2.capacity := by
    induction values generalizing w with
    | nil => exact ⟨rfl, h⟩
    | cons v values ih =>
      rw [byteWriterWriteAll]
      dsimp only
      rcases byteWriterWrite_cases w v with ⟨hfits, hput⟩ | hclosed
      · rw [hput]
        exact ih hfits.put.2
      · rw [hclosed]
        exact ih (w := w.closed) h
  exact hkeeps.1 ▸ hkeeps.2

-- a writer without a block has no capacity, or does not accept even the empty write
theorem byteWriterInit_null (capacity : Nat) (values : List ByteValue) :
    (byteWriterWriteAll values (byteWriterInit none capacity)).2.offset = 0 := by
  by_cases hcapacity : capacity = 0
  · subst hcapacity
    exact Nat.le_zero.mp (byteWriterWriteAll_within (Nat.le_refl 0) values)
  · rw [byteWriterWriteAll_closed (decide_eq_false hcapacity)]
    rfl

theorem byteReaderInit_written {data : Option (Nat → UInt8)} {written : ByteWriter}
    (hnull : data = none → written.offset = 0) :
    (byteReaderInit (data.map fun _ => written.data) (byteWriterSize written)).Ready ∧
      (byteReaderInit (data.map fun _ => written.data) (byteWriterSize written)).rest =
        written.bytes := by
  cases data with
  | none =>
    have hsize := hnull rfl
    rw [byteWriterSize, ByteWriter.bytes, hsize]
    exact ⟨⟨rfl, Nat.le_refl 0⟩, rfl⟩
  | some data =>
    refine ⟨⟨rfl, Nat.zero_le _⟩, ?_⟩
    show (List.range (written.offset - 0)).map (fun i => written.data (0 + i)) = _
    simp only [Nat.sub_zero, Nat.zero_add]
    rfl

theorem byteReaderCall_some {call : ByteReadCall} (h : call.out.isSome) (r : ByteReader) :
    byteReaderCall (some r) call =
      some (((byteReaderRead call.type r).1.isSome,
        call.out.map (byteReaderRead call.type r).1.getD), some (byteReaderRead call.type r).2) := by
  have hnull : ¬ (call.out.isNone ∧ 0 < call.type.size) := by
    rintro ⟨hnone, -⟩
    rw [Option.isNone_iff_eq_none] at hnone
    rw [hnone] at h
    exact Bool.false_ne_true h
  rw [byteReaderCall, if_neg hnull, checkedRead_eq]
  rfl

theorem byteReaderCalls_encoded {r : ByteReader} (hr : r.Ready) {values : List ByteValue}
    {calls : List ByteReadCall} (htypes : calls.map ByteReadCall.type = values.map ByteValue.type)
    (hout : ∀ call ∈ calls, call.out.isSome) (hrest : r.rest = values.flatMap ByteValue.encode) :
    ∃ last, byteReaderCalls calls (some r) =
        some (values.map fun v => (true, some v), some last) ∧ last.rest = [] := by
  induction values generalizing r calls with
  | nil =>
    obtain rfl := List.map_eq_nil_iff.mp htypes
    exact ⟨r, rfl, hrest⟩
  | cons v values ih =>
    obtain ⟨call, calls, rfl, htype, htypes⟩ := List.map_eq_cons_iff.mp htypes
    rw [List.forall_mem_cons] at hout
    rw [List.flatMap_cons] at hrest
    obtain ⟨hready, hmore⟩ := hr.skip_append hrest
    obtain ⟨last, hlast, hend⟩ := ih hready htypes hout.2 hmore
    obtain ⟨old, hold⟩ := Option.isSome_iff_exists.mp hout.1
    refine ⟨last, ?_, hend⟩
    rw [byteReaderCalls, byteReaderCall_some hout.1, htype, byteReaderRead_encoded hr v hrest, hold,
      Option.bind_some, hlast]
    rfl

end

theorem byteIo_inverse :
    (∀ data capacity (values : List ByteValue) oks written,
      byteWriterCalls (values.map .typed) (some (byteWriterInit data capacity)) =
        some (oks, some written) → (∀ ok ∈ oks, ok = true) →
      ∀ calls : List ByteReadCall, calls.map ByteReadCall.type = values.map ByteValue.type →
        (∀ call ∈ calls, call.out.isSome) →
      ∃ last,
        byteReaderCalls calls
            (some (byteReaderInit (data.map fun _ => written.data) (byteWriterSize written))) =
          some (values.map fun v => (true, some v), some last) ∧ byteReaderRemaining last = 0) ∧
    (∀ writer call,
      byteWriterCall writer call = some (false, writer.map ByteWriter.closed) ∨
        ∃ w u, writer = some w ∧ w.Fits call.size ∧
          byteWriterCall writer call = some (true, some u) ∧ w.Appended u call.size) ∧
    (∀ reader call,
      byteReaderCall reader call = some ((false, call.out), reader.map ByteReader.closed) ∨
        ∃ r, reader = some r ∧ r.Has call.type.size ∧
          byteReaderCall reader call = some
            ((true, call.out.map fun _ => call.type.decode (r.window call.type.size)),
              some (r.skip call.type.size))) ∧
    (∀ writer call after, byteWriterCall writer call = some (false, after) →
      ∀ calls, byteWriterCalls calls after = some (calls.map fun _ => false, after)) ∧
    ∀ reader call out after, byteReaderCall reader call = some ((false, out), after) →
      ∀ calls : List ByteReadCall,
        byteReaderCalls calls after = some (calls.map fun call => (false, call.out), after) := by
  refine ⟨?_, byteWriterCall_atomic, byteReaderCall_atomic,
    fun _ _ _ h => byteWriterCalls_failed h, fun _ _ _ _ h => byteReaderCalls_failed h⟩
  intro data capacity values oks written hwritten hall calls htypes hout
  rw [byteWriterCalls_values, Option.some_inj] at hwritten
  obtain ⟨rfl, hlast⟩ := Prod.mk.inj hwritten
  obtain rfl := Option.some_inj.mp hlast
  have hnull : data = none → (byteWriterWriteAll values (byteWriterInit data capacity)).2.offset =
      0 := fun hdata => hdata ▸ byteWriterInit_null capacity values
  obtain ⟨hready, hrest⟩ := byteReaderInit_written hnull
  have hbytes := byteWriterWriteAll_bytes rfl hall
  have hstart : (byteWriterInit data capacity).bytes = [] := rfl
  rw [hstart, List.nil_append] at hbytes
  obtain ⟨last, hread, hend⟩ := byteReaderCalls_encoded hready htypes hout (hrest.trans hbytes)
  refine ⟨last, hread, ?_⟩
  have hlen := congrArg List.length hend
  rw [ByteReader.rest_length, List.length_nil] at hlen
  rw [byteReaderRemaining, hlen, ite_self]

def mixedValues : List ByteValue :=
  [.u8 200, .i16 (-32768), .u32 0xDEADBEEF, .bytes [1, 2, 3], .i64 (-2), .u16 65535]

def mixedReads : List ByteReadCall :=
  [⟨.u8, some (.u8 0)⟩, ⟨.i16, some (.i16 0)⟩, ⟨.u32, some (.u32 0)⟩,
    ⟨.bytes 3, some (.bytes [0, 0, 0])⟩, ⟨.i64, some (.i64 0)⟩, ⟨.u16, some (.u16 0)⟩]

theorem byteIo_inverse_mixed : ∃ written last,
    byteWriterCalls (mixedValues.map .typed) (some (byteWriterInit (some fun _ => 7) 20)) =
        some (List.replicate 6 true, some written) ∧
      byteReaderCalls mixedReads
          (some (byteReaderInit (some written.data) (byteWriterSize written))) =
        some (mixedValues.map fun v => (true, some v), some last) ∧
      byteReaderRemaining last = 0 := by
  obtain ⟨last, hread, hend⟩ := byteIo_inverse.1 (some fun _ => 7) 20 mixedValues
    (List.replicate 6 true) _ rfl (by simp) mixedReads rfl (by simp [mixedReads])
  exact ⟨_, last, rfl, hread, hend⟩

end ChoonzMoba
