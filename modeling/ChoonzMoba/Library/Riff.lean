import ChoonzMoba.Library.LittleEndian
import Mathlib.Data.List.Basic

/-- A tagged chunk of a file; one of odd size is padded by a byte, whatever that byte is. -/
@[ext] structure Riff.Chunk where
  tag : List UInt8
  payload : List UInt8
  pad : List UInt8
  tag_length : tag.length = 4
  payload_lt : payload.length < 2 ^ 32
  pad_length : pad.length = payload.length % 2

namespace Riff

def Chunk.bytes (c : Chunk) : List UInt8 :=
  c.tag ++ (LittleEndian.encode 4 c.payload.length ++ (c.payload ++ c.pad))

def bytes (chunks : List Chunk) : List UInt8 := chunks.flatMap Chunk.bytes

def payloads (tag : List UInt8) (chunks : List Chunk) : List (List UInt8) :=
  (chunks.filter fun c => c.tag = tag).map Chunk.payload

theorem Chunk.bytes_length (c : Chunk) :
    c.bytes.length = 8 + c.payload.length + c.payload.length % 2 := by
  rw [bytes, List.length_append, List.length_append, List.length_append, c.tag_length,
    LittleEndian.encode_length, c.pad_length]
  omega

theorem Chunk.bytes_append_inj {c d : Chunk} {u v : List UInt8}
    (h : c.bytes ++ u = d.bytes ++ v) : c = d ∧ u = v := by
  simp only [bytes, List.append_assoc] at h
  obtain ⟨htag, h⟩ := List.append_inj h (by rw [c.tag_length, d.tag_length])
  obtain ⟨hlength, h⟩ := LittleEndian.encode_append_inj c.payload_lt d.payload_lt h
  obtain ⟨hpayload, h⟩ := List.append_inj h hlength
  obtain ⟨hpad, hrest⟩ := List.append_inj h (by rw [c.pad_length, d.pad_length, hlength])
  exact ⟨Chunk.ext htag hpayload hpad, hrest⟩

theorem Chunk.bytes_take_tag (c : Chunk) (rest : List UInt8) : (c.bytes ++ rest).take 4 = c.tag := by
  rw [bytes, List.append_assoc, List.take_left' c.tag_length]

theorem Chunk.bytes_take_size (c : Chunk) (rest : List UInt8) :
    ((c.bytes ++ rest).drop 4).take 4 = LittleEndian.encode 4 c.payload.length := by
  rw [bytes, List.append_assoc, List.drop_left' c.tag_length, List.append_assoc,
    List.take_left' (LittleEndian.encode_length _ _)]

theorem Chunk.bytes_take_payload (c : Chunk) (rest : List UInt8) :
    ((c.bytes ++ rest).drop 8).take c.payload.length = c.payload := by
  have hsize := LittleEndian.encode_length 4 c.payload.length
  rw [← List.drop_drop (i := 4) (j := 4), bytes, List.append_assoc, List.drop_left' c.tag_length,
    List.append_assoc, List.drop_left' hsize, List.append_assoc, List.take_left]

theorem exists_chunk {input : List UInt8} {size : Nat}
    (hsize : size = LittleEndian.decode ((input.drop 4).take 4))
    (hroom : 8 + size + size % 2 ≤ input.length) :
    ∃ c : Chunk, ∃ rest, input = c.bytes ++ rest ∧ c.payload.length = size := by
  have hfield : ((input.drop 4).take 4).length = 4 := by
    rw [List.length_take, List.length_drop]
    omega
  have hlt := LittleEndian.decode_lt ((input.drop 4).take 4)
  rw [hfield, ← hsize] at hlt
  have hpayload : ((input.drop 8).take size).length = size := by
    rw [List.length_take, List.length_drop]
    omega
  have hencode : LittleEndian.encode 4 size = (input.drop 4).take 4 := by
    have := LittleEndian.encode_decode ((input.drop 4).take 4)
    rwa [hfield, ← hsize] at this
  refine ⟨⟨input.take 4, (input.drop 8).take size, (input.drop (8 + size)).take (size % 2),
    ?_, ?_, ?_⟩, input.drop (8 + size + size % 2), ?_, hpayload⟩
  · rw [List.length_take]
    omega
  · rw [hpayload]
    exact hlt
  · rw [hpayload, List.length_take, List.length_drop]
    omega
  · have hhead := List.take_append_drop 4 (input.drop 4)
    have hbody := List.take_append_drop size (input.drop 8)
    have hpad := List.take_append_drop (size % 2) (input.drop (8 + size))
    rw [List.drop_drop] at hhead hbody hpad
    simp only [Chunk.bytes, List.append_assoc, hpayload, hencode]
    rw [hpad, hbody, hhead, List.take_append_drop]

@[simp] theorem bytes_nil : bytes [] = [] := rfl

@[simp] theorem bytes_cons (c : Chunk) (chunks : List Chunk) :
    bytes (c :: chunks) = c.bytes ++ bytes chunks := rfl

theorem exists_cons_of_bytes {c : Chunk} {rest : List UInt8} {chunks : List Chunk}
    (h : c.bytes ++ rest = bytes chunks) : ∃ more, chunks = c :: more ∧ rest = bytes more := by
  cases chunks with
  | nil =>
    have := congrArg List.length h
    rw [List.length_append, c.bytes_length, bytes_nil, List.length_nil] at this
    omega
  | cons d more =>
    obtain ⟨rfl, hrest⟩ := Chunk.bytes_append_inj h
    exact ⟨more, rfl, hrest⟩

theorem bytes_injective : Function.Injective bytes := by
  intro chunks
  induction chunks with
  | nil =>
    rintro (- | ⟨d, more⟩) h
    · rfl
    · obtain ⟨tail, htail, -⟩ := exists_cons_of_bytes h.symm
      cases htail
  | cons c chunks ih =>
    intro other h
    obtain ⟨more, rfl, hrest⟩ := exists_cons_of_bytes h
    rw [ih hrest]

theorem payloads_append (tag : List UInt8) (chunks more : List Chunk) :
    payloads tag (chunks ++ more) = payloads tag chunks ++ payloads tag more := by
  rw [payloads, List.filter_append, List.map_append]
  rfl

theorem payloads_singleton_same {c : Chunk} {tag : List UInt8} (h : c.tag = tag) :
    payloads tag [c] = [c.payload] := by
  simp [payloads, h]

theorem payloads_singleton_other {c : Chunk} {tag : List UInt8} (h : c.tag ≠ tag) :
    payloads tag [c] = [] := by
  simp [payloads, h]

theorem mem_payloads {tag payload : List UInt8} {chunks : List Chunk}
    (h : payload ∈ payloads tag chunks) : ∃ c ∈ chunks, c.payload = payload := by
  obtain ⟨c, hc, hpayload⟩ := List.mem_map.mp h
  exact ⟨c, List.mem_of_mem_filter hc, hpayload⟩

end Riff
