import ChoonzMoba.Core.Arena
import ChoonzMoba.Library.Loop
import ChoonzMoba.Library.Machine

namespace ChoonzMoba

-- `fn state ptr oldSize newSize align` allocates, frees or reallocates; address 0 is null and
-- `none` an abort.
structure Allocator (σ : Type) where
  fn : σ → Nat → Nat → Nat → Nat → Option (Nat × σ)

def memAlloc {σ : Type} (a : Allocator σ) (state : σ) (n al : Nat) : Option (Nat × σ) :=
  a.fn state 0 0 n al

def memFree {σ : Type} (a : Allocator σ) (state : σ) (p n : Nat) : Option σ :=
  (a.fn state p n 0 0).map (·.2)

def arenaAllocFn (a : Arena) (_ptr _oldSize newSize align : Nat) : Option (Nat × Arena) :=
  if newSize = 0 then some (0, a)
  else (arenaPush a newSize (if align = 0 then memDefaultAlign else align)).map fun r => (r.2, r.1)

def arenaAllocator : Allocator Arena := ⟨arenaAllocFn⟩

class HashMapKey (K : Type) where
  hashmapHash : K → UInt64
  hashmapEq : K → K → Bool

export HashMapKey (hashmapHash hashmapEq)

instance : HashMapKey UInt32 where
  hashmapHash k :=
    let x := k.toUInt64 * 0x9E3779B97F4A7C15
    let x := x ^^^ (x >>> 29)
    let x := x * 0xBF58476D1CE4E5B9
    x ^^^ (x >>> 32)
  hashmapEq a b := a == b

instance : HashMapKey UInt64 where
  hashmapHash k :=
    let k := k ^^^ (k >>> 30)
    let k := k * 0xBF58476D1CE4E5B9
    let k := k ^^^ (k >>> 27)
    let k := k * 0x94D049BB133111EB
    k ^^^ (k >>> 31)
  hashmapEq a b := a == b

structure HashMapSlot (K V : Type) where
  key : K
  val : V
  hash : UInt64

structure SlotLayout where
  size : Nat
  align : Nat

-- `address` is the `slots` pointer and `slots` what it points to; an unoccupied slot is `none`.
structure HashMap (K V : Type) where
  address : Nat
  slots : Nat → Option (HashMapSlot K V)
  cap : UInt32
  mask : UInt32
  count : UInt32

def hashmapAllocationBytes (count : UInt32) (slotSize : Nat) : Option Nat :=
  if slotSize ≠ 0 ∧ count.toNat ≤ sizeMax / slotSize then some (count.toNat * slotSize) else none

section

variable {K V : Type}

def hashmapInit : HashMap K V where
  address := 0
  slots := fun _ => none
  cap := 0
  mask := 0
  count := 0

def hashmapClear (m : HashMap K V) : HashMap K V :=
  { m with
    slots := Loop.forRange m.cap.toNat (fun slots i => Function.update slots i none) m.slots
    count := 0 }

def HashMap.setSlot (m : HashMap K V) (pos : UInt32) (s : Option (HashMapSlot K V)) : HashMap K V :=
  { m with slots := Function.update m.slots pos.toNat s }

def HashMap.dib (m : HashMap K V) (hash : UInt64) (pos : UInt32) : UInt32 :=
  (pos - (hash.toUInt32 &&& m.mask)) &&& m.mask

def HashMap.next (m : HashMap K V) (pos : UInt32) : UInt32 := (pos + 1) &&& m.mask

variable [HashMapKey K]

-- The loops have no bound in the source. One that is still going after `fuel` rounds is `none`.
def hashmapPlaceLoop : Nat → HashMap K V → HashMapSlot K V → UInt32 → UInt32 → Option (HashMap K V)
  | 0, _, _, _, _ => none
  | fuel + 1, m, new, pos, dib =>
    match m.slots pos.toNat with
    | none => some { m.setSlot pos (some new) with count := m.count + 1 }
    | some s =>
      if s.hash = new.hash ∧ hashmapEq s.key new.key = true then
        some (m.setSlot pos (some { s with val := new.val }))
      else
        let edib := m.dib s.hash pos
        if edib < dib then
          hashmapPlaceLoop fuel (m.setSlot pos (some new)) s (m.next pos) (edib + 1)
        else hashmapPlaceLoop fuel m new (m.next pos) (dib + 1)

def hashmapPlace (m : HashMap K V) (new : HashMapSlot K V) : Option (HashMap K V) :=
  hashmapPlaceLoop m.cap.toNat m new (new.hash.toUInt32 &&& m.mask) 0

-- The loop of `hashmap_get`, and the one with which `hashmap_remove` locates its entry: where the
-- key stands, if it does.
def hashmapLocate (m : HashMap K V) (key : K) (h : UInt64) :
    Nat → UInt32 → UInt32 → Option (Option (UInt32 × HashMapSlot K V))
  | 0, _, _ => none
  | fuel + 1, pos, dib =>
    match m.slots pos.toNat with
    | none => some none
    | some s =>
      if s.hash = h ∧ hashmapEq s.key key = true then some (some (pos, s))
      else if m.dib s.hash pos < dib then some none
      else hashmapLocate m key h fuel (m.next pos) (dib + 1)

def hashmapGet (m : HashMap K V) (key : K) : Option (Option V) :=
  if m.cap = 0 then some none
  else
    let h := hashmapHash key
    (hashmapLocate m key h m.cap.toNat (h.toUInt32 &&& m.mask) 0).map fun found =>
      found.map fun r => r.2.val

omit [HashMapKey K] in
def hashmapShiftLoop : Nat → HashMap K V → UInt32 → Option (HashMap K V × UInt32)
  | 0, _, _ => none
  | fuel + 1, m, pos =>
    let next := m.next pos
    match m.slots next.toNat with
    | none => some (m, pos)
    | some sn =>
      if m.dib sn.hash next = 0 then some (m, pos)
      else hashmapShiftLoop fuel (m.setSlot pos (some sn)) next

def hashmapRemove (m : HashMap K V) (key : K) : Option (Bool × HashMap K V) :=
  if m.cap = 0 then some (false, m)
  else
    let h := hashmapHash key
    (hashmapLocate m key h m.cap.toNat (h.toUInt32 &&& m.mask) 0).bind fun found =>
      match found with
      | none => some (false, m)
      | some (pos, _) =>
        (hashmapShiftLoop m.cap.toNat m pos).map fun r =>
          (true, { r.1.setSlot r.2 none with count := r.1.count - 1 })

def rehashSlot (old t : HashMap K V) (i : Nat) : Option (HashMap K V) :=
  match old.slots i with
  | none => some t
  | some s => hashmapPlace t s

variable {σ : Type} (alloc : Allocator σ) (layout : SlotLayout)

def hashmapRehash (state : σ) (m : HashMap K V) (newcap : UInt32) : Option (σ × HashMap K V) :=
  if newcap = 0 ∨ newcap &&& (newcap - 1) ≠ 0 then none
  else
    (hashmapAllocationBytes newcap layout.size).bind fun newBytes =>
    (memAlloc alloc state newBytes layout.align).bind fun (ns, state) =>
    if ns = 0 then none
    else
      let fresh : HashMap K V :=
        { address := ns, slots := fun _ => none, cap := newcap, mask := newcap - 1, count := 0 }
      if m.address = 0 then some (state, fresh)
      else
        (Loop.forRangeM m.cap.toNat (rehashSlot m) fresh).bind fun placed =>
        (hashmapAllocationBytes m.cap layout.size).bind fun oldBytes =>
        (memFree alloc state m.address oldBytes).map fun state => (state, placed)

def hashmapSet (state : σ) (m : HashMap K V) (key : K) (val : V) : Option (σ × HashMap K V) :=
  (if m.cap = 0 then hashmapRehash alloc layout state m 16
    else if m.cap.toNat * 7 ≤ (m.count.toNat + 1) * 8 then
      if m.cap.toNat ≤ (2 ^ 32 - 1) / 2 then hashmapRehash alloc layout state m (m.cap * 2) else none
    else some (state, m)).bind fun r =>
  (hashmapPlace r.2 ⟨key, val, hashmapHash key⟩).map fun placed => (r.1, placed)

end

end ChoonzMoba
