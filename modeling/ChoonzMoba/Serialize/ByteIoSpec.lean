import ChoonzMoba.Library.Codec
import ChoonzMoba.Library.LittleEndian
import ChoonzMoba.Serialize.ByteIo

namespace ChoonzMoba

section

variable (p : Nat → UInt8)

theorem or_shifted {v b i : Nat} (hv : v < 256 ^ i) : v ||| b <<< (i * 8) = v + 256 ^ i * b := by
  have hpow : 256 ^ i = 2 ^ (i * 8) := by rw [Nat.mul_comm, Nat.pow_mul]
  rw [hpow] at hv ⊢
  rw [Nat.or_comm, ← Nat.shiftLeft_add_eq_or_of_lt hv, Nat.shiftLeft_eq, Nat.mul_comm, Nat.add_comm]

theorem decode_range_succ (i : Nat) :
    LittleEndian.decode ((List.range (i + 1)).map p) =
      LittleEndian.decode ((List.range i).map p) + 256 ^ i * (p i).toNat := by
  rw [List.range_succ, List.map_append, LittleEndian.decode_append]
  simp [LittleEndian.decode]

theorem decode_range_lt (i : Nat) : LittleEndian.decode ((List.range i).map p) < 256 ^ i := by
  simpa using LittleEndian.decode_lt ((List.range i).map p)

theorem decode_round (i bits : Nat) (hi : 256 ^ (i + 1) ≤ 2 ^ bits) :
    LittleEndian.decode ((List.range i).map p) ||| (p i).toNat <<< (i * 8) % 2 ^ bits =
      LittleEndian.decode ((List.range (i + 1)).map p) := by
  have hlt := decode_range_lt p (i + 1)
  have hor := or_shifted (b := (p i).toNat) (decode_range_lt p i)
  rw [decode_range_succ] at hlt ⊢
  have hpow : 256 ^ i = 2 ^ (i * 8) := by rw [Nat.mul_comm, Nat.pow_mul]
  have hfits : (p i).toNat <<< (i * 8) < 2 ^ bits := by
    rw [Nat.shiftLeft_eq, Nat.mul_comm, ← hpow]
    omega
  rw [Nat.mod_eq_of_lt hfits, hor]

theorem uint16_value :
    ((p 0).toUInt16 ||| ((p 1).toUInt16 <<< 8)).toNat =
      LittleEndian.decode ((List.range 2).map p) := by
  have h := decode_round p 1 16 (by decide)
  rw [← h]
  simp [LittleEndian.decode]

theorem uint32_value :
    (Loop.forRange 4 (fun value i => value ||| ((p i).toUInt32 <<< UInt32.ofNat (i * 8))) 0).toNat =
      LittleEndian.decode ((List.range 4).map p) := by
  refine Loop.forRange_invariant
    (fun i (v : UInt32) => v.toNat = LittleEndian.decode ((List.range i).map p)) rfl ?_
  intro i v hi hv
  have hshift : (UInt32.ofNat (i * 8)).toNat % 32 = i * 8 := by
    rw [UInt32.toNat_ofNat']
    omega
  rw [UInt32.toNat_or, hv, UInt32.toNat_shiftLeft, hshift, UInt8.toNat_toUInt32]
  exact decode_round p i _ (Nat.pow_le_pow_right (n := 256) (by decide) (show i + 1 ≤ 4 by omega))

theorem uint64_value :
    (Loop.forRange 8 (fun value i => value ||| ((p i).toUInt64 <<< UInt64.ofNat (i * 8))) 0).toNat =
      LittleEndian.decode ((List.range 8).map p) := by
  refine Loop.forRange_invariant
    (fun i (v : UInt64) => v.toNat = LittleEndian.decode ((List.range i).map p)) rfl ?_
  intro i v hi hv
  have hshift : (UInt64.ofNat (i * 8)).toNat % 64 = i * 8 := by
    rw [UInt64.toNat_ofNat']
    omega
  rw [UInt64.toNat_or, hv, UInt64.toNat_shiftLeft, hshift, UInt8.toNat_toUInt64]
  exact decode_round p i _ (Nat.pow_le_pow_right (n := 256) (by decide) (show i + 1 ≤ 8 by omega))

end

namespace ByteReader

def Ready (r : ByteReader) : Prop := r.ok = true ∧ r.offset ≤ r.size

def window (r : ByteReader) (n : Nat) : List UInt8 :=
  (List.range n).map fun i => r.data (r.offset + i)

def rest (r : ByteReader) : List UInt8 := r.window (r.size - r.offset)

def skip (r : ByteReader) (n : Nat) : ByteReader := { r with offset := r.offset + n }

def closed (r : ByteReader) : ByteReader := { r with ok := false }

variable {r : ByteReader} {n : Nat}

@[simp] theorem window_length : (r.window n).length = n := by simp [window]

@[simp] theorem rest_length : r.rest.length = r.size - r.offset := window_length

theorem take_rest (h : n ≤ r.rest.length) : r.rest.take n = r.window n := by
  rw [rest_length] at h
  rw [rest, window, window, ← List.map_take, List.take_range, Nat.min_eq_left h]

theorem skip_rest (r : ByteReader) (n : Nat) : (r.skip n).rest = r.rest.drop n := by
  apply List.ext_getElem
  · simp [skip, Nat.sub_sub]
  · intro i h1 h2
    simp [rest, window, skip, Nat.add_assoc]

theorem Ready.skip (h : r.Ready) (hn : n ≤ r.rest.length) : (r.skip n).Ready := by
  have := h.2
  rw [rest_length] at hn
  refine ⟨h.1, ?_⟩
  show r.offset + n ≤ r.size
  omega

theorem prefix_iff {bs : List UInt8} : bs <+: r.rest ↔
    bs.length ≤ r.rest.length ∧ bs = r.window bs.length := by
  rw [List.prefix_iff_eq_take]
  constructor
  · intro h
    have hlen : bs.length ≤ r.rest.length := by
      have := congrArg List.length h
      rw [List.length_take] at this
      omega
    exact ⟨hlen, h.trans (take_rest hlen)⟩
  · rintro ⟨hlen, h⟩
    exact h.trans (take_rest hlen).symm

theorem skip_skip (r : ByteReader) (m n : Nat) : (r.skip m).skip n = r.skip (m + n) := by
  simp [skip, Nat.add_assoc]

theorem Ready.skip_append (h : r.Ready) {front more : List UInt8} (hrest : r.rest = front ++ more) :
    (r.skip front.length).Ready ∧ (r.skip front.length).rest = more := by
  refine ⟨h.skip ?_, ?_⟩
  · rw [hrest, List.length_append]
    exact Nat.le_add_right _ _
  · rw [skip_rest, hrest, List.drop_left]

def Has (r : ByteReader) (n : Nat) : Prop := r.Ready ∧ n ≤ r.rest.length

instance : Decidable (r.Has n) := inferInstanceAs (Decidable ((_ ∧ _) ∧ _))

theorem reserve_eq (r : ByteReader) (n : Nat) : readerReserve r n =
    if r.Has n then (true, r) else (false, { r with ok := false }) := by
  rw [readerReserve]
  by_cases h : r.Has n
  · have hn := h.2
    have hle := h.1.2
    rw [rest_length] at hn
    rw [if_pos h, h.1.1, Bool.not_true, if_neg Bool.false_ne_true, if_neg (by omega)]
  · rw [if_neg h]
    cases hok : r.ok with
    | false =>
      rw [Bool.not_false, if_pos rfl, ← hok]
    | true =>
      rw [Bool.not_true, if_neg Bool.false_ne_true, if_pos]
      by_contra hfits
      rw [not_or, Nat.not_lt, Nat.not_lt] at hfits
      exact h ⟨⟨hok, hfits.1⟩, by rw [rest_length]; exact hfits.2⟩

end ByteReader

def byteSource : Source ByteReader UInt8 where
  Ready := ByteReader.Ready
  rest := ByteReader.rest
  skip := ByteReader.skip
  ready_skip h hn := h.skip hn
  rest_skip _ _ := ByteReader.skip_rest _ _
  skip_zero _ := rfl
  skip_skip := ByteReader.skip_skip

def fixedRead {α : Type} (n : Nat) (value : List UInt8 → α) : ByteRead α := fun r =>
  if r.Has n then (some (value (r.window n)), r.skip n) else (none, { r with ok := false })

def ByteRead.map {α β : Type} (f : α → β) (read : ByteRead α) : ByteRead β := fun r =>
  ((read r).1.map f, (read r).2)

theorem ByteRead.map_fixed {α β : Type} {n : Nat} {value : List UInt8 → α} (f : α → β) :
    ByteRead.map f (fixedRead n value) = fixedRead n fun bs => f (value bs) := by
  funext r
  rw [ByteRead.map, fixedRead, fixedRead]
  by_cases h : r.Has n
  · rw [if_pos h, if_pos h]
    rfl
  · rw [if_neg h, if_neg h]
    rfl

theorem byteReaderReadBytes_eq (n : Nat) : byteReaderReadBytes n = fixedRead n id := by
  funext r
  rw [byteReaderReadBytes]
  cases hok : r.ok with
  | false =>
    have hclosed : ¬ r.Has n := fun h => Bool.false_ne_true (hok.symm.trans h.1.1)
    rw [Bool.not_false, if_pos rfl, fixedRead, if_neg hclosed, ← hok]
  | true =>
    rw [Bool.not_true, if_neg Bool.false_ne_true, ByteReader.reserve_eq, fixedRead]
    by_cases h : r.Has n
    · rw [if_pos h, if_pos h]
      rfl
    · rw [if_neg h, if_neg h]

theorem byteReaderReadU8_eq : byteReaderReadU8 = fixedRead 1 fun bs => bs.headD 0 := by
  funext r
  rw [byteReaderReadU8, byteReaderReadBytes_eq, fixedRead, fixedRead]
  by_cases h : r.Has 1
  · rw [if_pos h, if_pos h]
    rfl
  · rw [if_neg h, if_neg h]

theorem byteReaderReadU16_eq :
    byteReaderReadU16 = fixedRead 2 fun bs => UInt16.ofNat (LittleEndian.decode bs) := by
  funext r
  rw [byteReaderReadU16, ByteReader.reserve_eq, fixedRead]
  by_cases h : r.Has 2
  · rw [if_pos h, if_pos h, ByteReader.window, ← uint16_value, UInt16.ofNat_toNat]
    rfl
  · rw [if_neg h, if_neg h]

theorem byteReaderReadU32_eq :
    byteReaderReadU32 = fixedRead 4 fun bs => UInt32.ofNat (LittleEndian.decode bs) := by
  funext r
  rw [byteReaderReadU32, ByteReader.reserve_eq, fixedRead]
  by_cases h : r.Has 4
  · rw [if_pos h, if_pos h, ByteReader.window, ← uint32_value, UInt32.ofNat_toNat]
    rfl
  · rw [if_neg h, if_neg h]

theorem byteReaderReadU64_eq :
    byteReaderReadU64 = fixedRead 8 fun bs => UInt64.ofNat (LittleEndian.decode bs) := by
  funext r
  rw [byteReaderReadU64, ByteReader.reserve_eq, fixedRead]
  by_cases h : r.Has 8
  · rw [if_pos h, if_pos h, ByteReader.window, ← uint64_value, UInt64.ofNat_toNat]
    rfl
  · rw [if_neg h, if_neg h]

theorem byteReaderReadI8_eq : byteReaderReadI8 = fixedRead 1 fun bs => (bs.headD 0).toInt8 := by
  have hmap : byteReaderReadI8 = ByteRead.map UInt8.toInt8 byteReaderReadU8 := by
    funext r
    rw [byteReaderReadI8, ByteRead.map]
    rcases byteReaderReadU8 r with ⟨_ | _, _⟩ <;> rfl
  rw [hmap, byteReaderReadU8_eq, ByteRead.map_fixed]

theorem byteReaderReadI16_eq :
    byteReaderReadI16 = fixedRead 2 fun bs => (UInt16.ofNat (LittleEndian.decode bs)).toInt16 := by
  have hmap : byteReaderReadI16 = ByteRead.map UInt16.toInt16 byteReaderReadU16 := by
    funext r
    rw [byteReaderReadI16, ByteRead.map]
    rcases byteReaderReadU16 r with ⟨_ | _, _⟩ <;> rfl
  rw [hmap, byteReaderReadU16_eq, ByteRead.map_fixed]

theorem byteReaderReadI32_eq :
    byteReaderReadI32 = fixedRead 4 fun bs => (UInt32.ofNat (LittleEndian.decode bs)).toInt32 := by
  have hmap : byteReaderReadI32 = ByteRead.map UInt32.toInt32 byteReaderReadU32 := by
    funext r
    rw [byteReaderReadI32, ByteRead.map]
    rcases byteReaderReadU32 r with ⟨_ | _, _⟩ <;> rfl
  rw [hmap, byteReaderReadU32_eq, ByteRead.map_fixed]

theorem byteReaderReadI64_eq :
    byteReaderReadI64 = fixedRead 8 fun bs => (UInt64.ofNat (LittleEndian.decode bs)).toInt64 := by
  have hmap : byteReaderReadI64 = ByteRead.map UInt64.toInt64 byteReaderReadU64 := by
    funext r
    rw [byteReaderReadI64, ByteRead.map]
    rcases byteReaderReadU64 r with ⟨_ | _, _⟩ <;> rfl
  rw [hmap, byteReaderReadU64_eq, ByteRead.map_fixed]

section

variable {ε : Type} (status : ε)

theorem reads_fixed {α : Type} {n : Nat} (value : List UInt8 → α) {encode : α → List UInt8}
    {Valid : α → Prop} (hlen : ∀ a, Valid a → (encode a).length = n)
    (hvalue : ∀ a, Valid a → value (encode a) = a)
    (hbytes : ∀ bs : List UInt8, bs.length = n → Valid (value bs) ∧ encode (value bs) = bs) :
    byteSource.Reads ((fixedRead n value).orFail status) encode Valid := by
  intro r hr a t
  simp only [StateT.run, ByteRead.orFail, fixedRead]
  show _ ↔ Valid a ∧ encode a <+: r.rest ∧ t = r.skip (encode a).length
  rw [ByteReader.prefix_iff]
  by_cases hn : n ≤ r.rest.length
  · have hhas : r.Has n := ⟨hr, hn⟩
    rw [if_pos hhas]
    constructor
    · rintro ⟨⟩
      obtain ⟨hv, heq⟩ := hbytes (r.window n) ByteReader.window_length
      rw [heq, ByteReader.window_length]
      exact ⟨hv, ⟨hn, rfl⟩, rfl⟩
    · rintro ⟨hv, ⟨-, heq⟩, rfl⟩
      rw [hlen a hv] at heq ⊢
      rw [← heq, hvalue a hv]
  · have hhas : ¬ r.Has n := fun h => hn h.2
    rw [if_neg hhas]
    constructor
    · rintro ⟨⟩
    · rintro ⟨hv, ⟨hle, -⟩, -⟩
      rw [hlen a hv] at hle
      exact absurd hle hn

theorem reads_bytes (n : Nat) :
    byteSource.Reads ((byteReaderReadBytes n).orFail status) id (fun bs => bs.length = n) := by
  rw [byteReaderReadBytes_eq]
  exact reads_fixed status id (fun _ h => h) (fun _ _ => rfl) fun _ h => ⟨h, rfl⟩

theorem reads_u8 :
    byteSource.Reads (byteReaderReadU8.orFail status) (fun b => [b]) (fun _ => True) := by
  rw [byteReaderReadU8_eq]
  refine reads_fixed status _ (fun _ _ => rfl) (fun _ _ => rfl) fun bs h => ?_
  obtain ⟨b, rfl⟩ := List.length_eq_one_iff.mp h
  exact ⟨trivial, rfl⟩

theorem reads_u16 : byteSource.Reads (byteReaderReadU16.orFail status)
    (fun value => LittleEndian.encode 2 value.toNat) (fun _ => True) := by
  rw [byteReaderReadU16_eq]
  refine reads_fixed status _ (fun _ _ => LittleEndian.encode_length 2 _) (fun a _ => ?_)
    fun bs h => ?_
  · rw [LittleEndian.decode_encode_of_lt a.toNat_lt, UInt16.ofNat_toNat]
  · rw [LittleEndian.encode_uint16_ofNat, ← h, LittleEndian.encode_decode]
    exact ⟨trivial, rfl⟩

theorem reads_u32 : byteSource.Reads (byteReaderReadU32.orFail status)
    (fun value => LittleEndian.encode 4 value.toNat) (fun _ => True) := by
  rw [byteReaderReadU32_eq]
  refine reads_fixed status _ (fun _ _ => LittleEndian.encode_length 4 _) (fun a _ => ?_)
    fun bs h => ?_
  · rw [LittleEndian.decode_encode_of_lt a.toNat_lt, UInt32.ofNat_toNat]
  · rw [LittleEndian.encode_uint32_ofNat, ← h, LittleEndian.encode_decode]
    exact ⟨trivial, rfl⟩

theorem reads_u64 : byteSource.Reads (byteReaderReadU64.orFail status)
    (fun value => LittleEndian.encode 8 value.toNat) (fun _ => True) := by
  rw [byteReaderReadU64_eq]
  refine reads_fixed status _ (fun _ _ => LittleEndian.encode_length 8 _) (fun a _ => ?_)
    fun bs h => ?_
  · rw [LittleEndian.decode_encode_of_lt a.toNat_lt, UInt64.ofNat_toNat]
  · rw [LittleEndian.encode_uint64_ofNat, ← h, LittleEndian.encode_decode]
    exact ⟨trivial, rfl⟩

theorem reads_i32 : byteSource.Reads (byteReaderReadI32.orFail status)
    (fun value => LittleEndian.encode 4 value.toUInt32.toNat) (fun _ => True) := by
  rw [byteReaderReadI32_eq]
  refine reads_fixed status _ (fun _ _ => LittleEndian.encode_length 4 _) (fun a _ => ?_)
    fun bs h => ?_
  · rw [LittleEndian.decode_encode_of_lt a.toUInt32.toNat_lt, UInt32.ofNat_toNat,
      Int32.toInt32_toUInt32]
  · rw [UInt32.toUInt32_toInt32, LittleEndian.encode_uint32_ofNat, ← h,
      LittleEndian.encode_decode]
    exact ⟨trivial, rfl⟩

end

theorem fails_orFail {ε α : Type} {E : ε → Prop} (read : ByteRead α) {status : ε}
    (h : E status) : Source.Fails (read.orFail status) E := by
  intro r e herr
  simp only [StateT.run, ByteRead.orFail] at herr
  split at herr
  · cases herr
  · cases herr
    exact h

namespace ByteWriter

def Ready (w : ByteWriter) : Prop := w.ok = true ∧ w.offset ≤ w.capacity

def bytes (w : ByteWriter) : List UInt8 := (List.range w.offset).map w.data

def room (w : ByteWriter) : Nat := w.capacity - w.offset

def put (w : ByteWriter) (bs : List UInt8) : ByteWriter :=
  { w with
    data := memcpy w.data w.offset bs
    offset := w.offset + bs.length }

def closed (w : ByteWriter) : ByteWriter := { w with ok := false }

def Fits (w : ByteWriter) (n : Nat) : Prop := w.Ready ∧ n ≤ w.room

instance (w : ByteWriter) (n : Nat) : Decidable (w.Fits n) :=
  inferInstanceAs (Decidable ((_ ∧ _) ∧ _))

def Puts (write : ByteWriter → ByteWriter) (bs : List UInt8) : Prop :=
  ∀ w : ByteWriter, w.Fits bs.length → write w = w.put bs

theorem memcpy_range (data : Nat → UInt8) (n : Nat) (bs : List UInt8) :
    (List.range (n + bs.length)).map (memcpy data n bs) = (List.range n).map data ++ bs := by
  apply List.ext_getElem
  · simp
  · intro i h1 h2
    simp only [List.getElem_map, List.getElem_range, memcpy]
    by_cases hi : n ≤ i
    · have hlt : i - n < bs.length := by
        simp at h1
        omega
      rw [if_pos hi, List.getElem_append_right (by simpa using hi)]
      rw [List.getD_eq_getElem?_getD, List.getElem?_eq_getElem hlt, Option.getD_some]
      simp
    · rw [if_neg hi, List.getElem_append_left (by simpa using Nat.lt_of_not_le hi)]
      simp

theorem memcpy_outside (data : Nat → UInt8) {n i : Nat} {bs : List UInt8}
    (h : i < n ∨ n + bs.length ≤ i) : memcpy data n bs i = data i := by
  rw [memcpy]
  split
  · next hle =>
    have hpast : bs.length ≤ i - n := by omega
    rw [List.getD_eq_getElem?_getD, List.getElem?_eq_none hpast, Option.getD_none]
  · rfl

theorem memcpy_append (data : Nat → UInt8) (n : Nat) (as bs : List UInt8) :
    memcpy (memcpy data n as) (n + as.length) bs = memcpy data n (as ++ bs) := by
  funext i
  by_cases hi : n + as.length ≤ i
  · have hle : n ≤ i := Nat.le_trans (Nat.le_add_right _ _) hi
    have hpast : as.length ≤ i - n := Nat.le_sub_of_add_le' hi
    rw [memcpy, if_pos hi, memcpy_outside data (Or.inr hi), memcpy, if_pos hle,
      List.getD_eq_getElem?_getD, List.getD_eq_getElem?_getD, List.getElem?_append_right hpast,
      Nat.sub_add_eq]
  · have hfront : memcpy (memcpy data n as) (n + as.length) bs i = memcpy data n as i :=
      memcpy_outside _ (Or.inl (Nat.lt_of_not_le hi))
    rw [hfront, memcpy, memcpy]
    split
    · rw [List.getD_eq_getElem?_getD, List.getD_eq_getElem?_getD,
        List.getElem?_append_left (by omega)]
    · rfl

section

variable {w : ByteWriter}

theorem put_put (w : ByteWriter) (as bs : List UInt8) : (w.put as).put bs = w.put (as ++ bs) := by
  simp only [put, memcpy_append, List.length_append, Nat.add_assoc]

theorem put_bytes (w : ByteWriter) (bs : List UInt8) : (w.put bs).bytes = w.bytes ++ bs :=
  memcpy_range w.data w.offset bs

theorem put_room (w : ByteWriter) (bs : List UInt8) :
    (w.put bs).room = w.room - bs.length :=
  Nat.sub_add_eq _ _ _

theorem Fits.put {bs : List UInt8} (h : w.Fits bs.length) : (w.put bs).Ready := by
  obtain ⟨⟨hok, hle⟩, hroom⟩ := h
  refine ⟨hok, ?_⟩
  show w.offset + bs.length ≤ w.capacity
  rw [room] at hroom
  omega

structure Appended (w u : ByteWriter) (n : Nat) : Prop where
  offset : u.offset = w.offset + n
  capacity : u.capacity = w.capacity
  ok : u.ok = w.ok
  within : u.offset ≤ u.capacity
  outside : ∀ i, i < w.offset ∨ w.offset + n ≤ i → u.data i = w.data i

theorem Fits.appended {bs : List UInt8} (h : w.Fits bs.length) :
    w.Appended (w.put bs) bs.length where
  offset := rfl
  capacity := rfl
  ok := rfl
  within := h.put.2
  outside _ hi := memcpy_outside w.data hi

theorem writerReserve_eq (w : ByteWriter) (n : Nat) : writerReserve w n =
    if w.Fits n then (true, w) else (false, { w with ok := false }) := by
  rw [writerReserve]
  by_cases h : w.Fits n
  · have hroom := h.2
    rw [room] at hroom
    have hle := h.1.2
    rw [if_pos h, h.1.1, Bool.not_true, if_neg Bool.false_ne_true, if_neg (by omega)]
  · rw [if_neg h]
    cases hok : w.ok with
    | false => rw [Bool.not_false, if_pos rfl, ← hok]
    | true =>
      rw [Bool.not_true, if_neg Bool.false_ne_true, if_pos]
      by_contra hfits
      rw [not_or, Nat.not_lt, Nat.not_lt] at hfits
      exact h ⟨⟨hok, hfits.1⟩, hfits.2⟩

end

def fixedWrite (bs : List UInt8) (w : ByteWriter) : Bool × ByteWriter :=
  if w.Fits bs.length then (true, w.put bs) else (false, { w with ok := false })

theorem byteWriterWriteBytes_eq (w : ByteWriter) (bs : List UInt8) :
    byteWriterWriteBytes w bs = fixedWrite bs w := by
  rw [byteWriterWriteBytes, fixedWrite, writerReserve_eq]
  cases hok : w.ok with
  | false =>
    have hclosed : ¬ w.Fits bs.length := fun h => Bool.false_ne_true (hok.symm.trans h.1.1)
    rw [Bool.not_false, if_pos rfl, if_neg hclosed, ← hok]
  | true =>
    rw [Bool.not_true, if_neg Bool.false_ne_true]
    by_cases h : w.Fits bs.length
    · rw [if_pos h, if_pos h]
      rfl
    · rw [if_neg h, if_neg h]

theorem byteWriterWriteU8_eq (w : ByteWriter) (value : UInt8) :
    byteWriterWriteU8 w value = fixedWrite [value] w :=
  byteWriterWriteBytes_eq w _

theorem byteWriterWriteU16_eq (w : ByteWriter) (value : UInt16) :
    byteWriterWriteU16 w value = fixedWrite (LittleEndian.encode 2 value.toNat) w := by
  rw [LittleEndian.encode_uint16]
  exact byteWriterWriteBytes_eq w _

theorem byteWriterWriteU32_eq (w : ByteWriter) (value : UInt32) :
    byteWriterWriteU32 w value = fixedWrite (LittleEndian.encode 4 value.toNat) w := by
  have heq : (List.range 4).map (fun i => (value >>> UInt32.ofNat (i * 8)).toUInt8) =
      LittleEndian.encode 4 value.toNat := by
    rw [LittleEndian.encode_uint32]
    simp [List.range_succ]
  rw [← heq]
  exact byteWriterWriteBytes_eq w _

theorem byteWriterWriteU64_eq (w : ByteWriter) (value : UInt64) :
    byteWriterWriteU64 w value = fixedWrite (LittleEndian.encode 8 value.toNat) w := by
  have heq : (List.range 8).map (fun i => (value >>> UInt64.ofNat (i * 8)).toUInt8) =
      LittleEndian.encode 8 value.toNat := by
    rw [LittleEndian.encode_uint64]
    simp [List.range_succ]
  rw [← heq]
  exact byteWriterWriteBytes_eq w _

theorem puts_fixed {write : ByteWriter → Bool × ByteWriter} {bs : List UInt8}
    (h : ∀ w, write w = fixedWrite bs w) : Puts (fun w => (write w).2) bs := by
  intro w hw
  dsimp only
  rw [h w, fixedWrite, if_pos hw]

theorem puts_bytes (bs : List UInt8) : Puts (fun w => (byteWriterWriteBytes w bs).2) bs :=
  puts_fixed fun w => byteWriterWriteBytes_eq w bs

theorem puts_u8 (value : UInt8) : Puts (fun w => (byteWriterWriteU8 w value).2) [value] :=
  puts_fixed fun w => byteWriterWriteU8_eq w value

theorem puts_u16 (value : UInt16) :
    Puts (fun w => (byteWriterWriteU16 w value).2) (LittleEndian.encode 2 value.toNat) :=
  puts_fixed fun w => byteWriterWriteU16_eq w value

theorem puts_u32 (value : UInt32) :
    Puts (fun w => (byteWriterWriteU32 w value).2) (LittleEndian.encode 4 value.toNat) :=
  puts_fixed fun w => byteWriterWriteU32_eq w value

theorem puts_u64 (value : UInt64) :
    Puts (fun w => (byteWriterWriteU64 w value).2) (LittleEndian.encode 8 value.toNat) :=
  puts_fixed fun w => byteWriterWriteU64_eq w value

theorem puts_i32 (value : Int32) :
    Puts (fun w => (byteWriterWriteI32 w value).2)
      (LittleEndian.encode 4 value.toUInt32.toNat) :=
  puts_u32 value.toUInt32

theorem Puts.nothing : Puts id [] := by
  intro w _
  have hdata : memcpy w.data w.offset [] = w.data := by
    funext i
    exact memcpy_outside w.data (Nat.lt_or_ge i w.offset)
  simp only [id_eq, put, hdata, List.length_nil, Nat.add_zero]

theorem Puts.andThen {f g : ByteWriter → ByteWriter} {as bs : List UInt8} (hf : Puts f as)
    (hg : Puts g bs) : Puts (fun w => g (f w)) (as ++ bs) := by
  intro w hw
  have hfront : w.Fits as.length :=
    ⟨hw.1, Nat.le_trans (by simp) hw.2⟩
  have hback : (w.put as).Fits bs.length := by
    refine ⟨hfront.put, ?_⟩
    have hroom := hw.2
    rw [List.length_append] at hroom
    rw [put_room]
    omega
  dsimp only
  rw [hf w hfront, hg _ hback, put_put]

theorem Puts.forEach {α : Type} {write : ByteWriter → α → ByteWriter} {encode : α → List UInt8}
    (h : ∀ a, Puts (fun w => write w a) (encode a)) (as : List α) :
    Puts (Loop.forEach as write) (as.flatMap encode) := by
  induction as with
  | nil => exact Puts.nothing
  | cons a as ih => exact (h a).andThen ih

end ByteWriter

end ChoonzMoba
