import ChoonzMoba.Library.Loop
import Mathlib.Data.List.GetD

namespace Records

def read (memory : Nat → UInt8) (address size : Nat) : List UInt8 :=
  (List.range size).map fun i => memory (address + i)

def write (memory : Nat → UInt8) (address : Nat) (bytes : List UInt8) : Nat → UInt8 :=
  fun i => if address ≤ i then bytes.getD (i - address) (memory i) else memory i

theorem write_outside (memory : Nat → UInt8) {address i : Nat} {bytes : List UInt8}
    (h : i < address ∨ address + bytes.length ≤ i) : write memory address bytes i = memory i := by
  unfold write
  split
  · next hle => rw [List.getD_eq_default _ _ (by omega)]
  · rfl

theorem write_inside (memory : Nat → UInt8) (address : Nat) {bytes : List UInt8} {i : Nat}
    (h : i < bytes.length) : write memory address bytes (address + i) = bytes[i] := by
  rw [write, if_pos (Nat.le_add_right address i), Nat.add_sub_cancel_left,
    List.getD_eq_getElem _ _ h]

theorem write_nil (memory : Nat → UInt8) (address : Nat) : write memory address [] = memory :=
  funext fun i => write_outside memory (Nat.lt_or_ge i address)

theorem read_write (memory : Nat → UInt8) (address : Nat) (bytes : List UInt8) :
    read (write memory address bytes) address bytes.length = bytes := by
  apply List.ext_getElem
  · rw [read, List.length_map, List.length_range]
  · intro i _ hi
    simp only [read, List.getElem_map, List.getElem_range, write_inside memory address hi]

theorem read_congr {memory memory' : Nat → UInt8} {address size : Nat}
    (h : ∀ i, address ≤ i → i < address + size → memory' i = memory i) :
    read memory' address size = read memory address size := by
  refine List.map_congr_left fun i hi => h (address + i) (Nat.le_add_right address i) ?_
  exact Nat.add_lt_add_left (List.mem_range.mp hi) address

theorem read_length (memory : Nat → UInt8) (address size : Nat) :
    (read memory address size).length = size := by
  rw [read, List.length_map, List.length_range]

theorem read_add (memory : Nat → UInt8) (address m n : Nat) :
    read memory address (m + n) = read memory address m ++ read memory (address + m) n := by
  simp only [read, List.range_add, List.map_append, List.map_map, Function.comp_def, Nat.add_assoc]

theorem read_part {memory memory' : Nat → UInt8} {address address' size : Nat}
    (h : read memory' address' size = read memory address size) {offset n : Nat}
    (hfit : offset + n ≤ size) :
    read memory' (address' + offset) n = read memory (address + offset) n := by
  obtain ⟨rest, rfl⟩ := Nat.exists_eq_add_of_le hfit
  rw [read_add, read_add, read_add, read_add] at h
  have hfront := List.append_inj_left h (by simp only [List.length_append, read_length])
  exact List.append_inj_right hfront (by rw [read_length, read_length])

structure Layout (α : Type) where
  size : Nat
  encode : α → List UInt8
  decode : List UInt8 → α
  encode_length : ∀ a, (encode a).length = size
  decode_encode : ∀ a, decode (encode a) = a

namespace Layout

variable {α : Type} (L : Layout α)

def slot (array i : Nat) : Nat := array + L.size * i

def load (memory : Nat → UInt8) (array i : Nat) : α :=
  L.decode (read memory (L.slot array i) L.size)

def store (memory : Nat → UInt8) (array i : Nat) (a : α) : Nat → UInt8 :=
  write memory (L.slot array i) (L.encode a)

def fill (memory : Nat → UInt8) (array n : Nat) (values : Nat → α) : Nat → UInt8 :=
  Loop.forRange n (fun memory i => L.store memory array i (values i)) memory

def copy (memory : Nat → UInt8) (target source n : Nat) : Nat → UInt8 :=
  Loop.forRange n (fun memory i => L.store memory target i (L.load memory source i)) memory

def Apart (array n array' n' : Nat) : Prop :=
  array + L.size * n ≤ array' ∨ array' + L.size * n' ≤ array

variable {L} {array array' n n' : Nat}

theorem slot_stop_le {i : Nat} (hi : i < n) : L.slot array i + L.size ≤ array + L.size * n := by
  have hmul : L.size * (i + 1) ≤ L.size * n := Nat.mul_le_mul_left _ hi
  rw [Nat.mul_succ] at hmul
  rw [slot, Nat.add_assoc]
  exact Nat.add_le_add_left hmul array

theorem le_slot (array i : Nat) : array ≤ L.slot array i := Nat.le_add_right _ _

theorem load_store (memory : Nat → UInt8) (array i : Nat) (a : α) :
    L.load (L.store memory array i a) array i = a := by
  have hread := read_write memory (L.slot array i) (L.encode a)
  rw [L.encode_length] at hread
  rw [load, store, hread, L.decode_encode]

theorem store_outside (memory : Nat → UInt8) {i k : Nat} (a : α)
    (h : k < L.slot array i ∨ L.slot array i + L.size ≤ k) :
    L.store memory array i a k = memory k :=
  write_outside memory (by rwa [L.encode_length])

theorem load_store_of_ne (memory : Nat → UInt8) {i j : Nat} (a : α) (hij : i ≠ j) :
    L.load (L.store memory array i a) array j = L.load memory array j := by
  refine congrArg L.decode (read_congr fun k hfrom hto => store_outside memory a ?_)
  rcases Nat.lt_or_gt_of_ne hij with hlt | hgt
  · exact Or.inr (Nat.le_trans (slot_stop_le hlt) hfrom)
  · exact Or.inl (Nat.lt_of_lt_of_le hto (slot_stop_le hgt))

theorem fill_succ (memory : Nat → UInt8) (array n : Nat) (values : Nat → α) :
    L.fill memory array (n + 1) values = L.store (L.fill memory array n values) array n (values n) :=
  Loop.forRange_succ _ _ _

theorem load_fill (memory : Nat → UInt8) (array : Nat) {n : Nat} (values : Nat → α) {i : Nat}
    (hi : i < n) : L.load (L.fill memory array n values) array i = values i := by
  induction n with
  | zero => exact absurd hi (Nat.not_lt_zero i)
  | succ n ih =>
    rw [fill_succ]
    rcases Nat.lt_succ_iff_lt_or_eq.mp hi with hlt | rfl
    · rw [load_store_of_ne _ _ (Nat.ne_of_gt hlt), ih hlt]
    · rw [load_store]

theorem fill_outside (memory : Nat → UInt8) (values : Nat → α) {k : Nat}
    (h : k < array ∨ array + L.size * n ≤ k) : L.fill memory array n values k = memory k := by
  refine Loop.forRange_invariant (fun _ (m : Nat → UInt8) => m k = memory k) rfl fun i m hi hm => ?_
  rw [store_outside m _ ?_, hm]
  rcases h with h | h
  · exact Or.inl (Nat.lt_of_lt_of_le h (le_slot array i))
  · exact Or.inr (Nat.le_trans (slot_stop_le hi) h)

theorem load_fill_apart (memory : Nat → UInt8) (values : Nat → α)
    (h : L.Apart array n array' n') {i : Nat} (hi : i < n') :
    L.load (L.fill memory array n values) array' i = L.load memory array' i := by
  refine congrArg L.decode (read_congr fun k hfrom hto => fill_outside memory values ?_)
  rcases h with h | h
  · exact Or.inr (Nat.le_trans h (Nat.le_trans (le_slot array' i) hfrom))
  · exact Or.inl (Nat.lt_of_lt_of_le hto (Nat.le_trans (slot_stop_le hi) h))

theorem copy_eq_fill (memory : Nat → UInt8) (h : L.Apart array n array' n) :
    L.copy memory array array' n = L.fill memory array n (L.load memory array') := by
  suffices H : ∀ m, m ≤ n → L.copy memory array array' m =
      L.fill memory array m (L.load memory array') from H n (Nat.le_refl n)
  intro m
  induction m with
  | zero => exact fun _ => rfl
  | succ m ih =>
    intro hm
    have hapart : L.Apart array m array' n := by
      refine h.imp_left fun hle => Nat.le_trans ?_ hle
      exact Nat.add_le_add_left (Nat.mul_le_mul_left _ (Nat.le_of_succ_le hm)) array
    rw [copy, Loop.forRange_succ, fill_succ, ← copy, ih (Nat.le_of_succ_le hm),
      load_fill_apart memory _ hapart hm]

end Layout

end Records
