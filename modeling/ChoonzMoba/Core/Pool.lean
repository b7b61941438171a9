import ChoonzMoba.Core.HandlePool

namespace ChoonzMoba

-- `slotsAddress` is the pointer, and `slots` what it points to
structure Pool where
  slotsAddress : Nat
  slots : Nat → List UInt8
  cap : UInt32
  freeHead : UInt32
  count : UInt32

def Pool.unallocated (cap : UInt32) : Pool where
  slotsAddress := 0
  slots := fun _ => []
  cap := cap
  freeHead := poolInvalid
  count := 0

def Pool.initSlot (p : Pool) (i : Nat) : Pool :=
  let nxt := if i + 1 < p.cap.toNat then UInt32.ofNat (i + 1) else poolInvalid
  { p with slots := Function.update p.slots i (storeLink (p.slots i) nxt) }

-- `memory` is what the new block holds before it is linked; `none` is a failed `ENSURE`
def poolInit {σ : Type} (al : Allocator σ) (state : σ) (layout : SlotLayout) (cap : UInt32)
    (memory : Nat → List UInt8) : Option (Pool × σ) :=
  if cap = 0 then some (.unallocated cap, state)
  else
    (memAlloc al state (cap.toNat * layout.size % 2 ^ 64) layout.align).bind fun slots =>
      if slots.1 = 0 then none
      else
        let p : Pool := { Pool.unallocated cap with slotsAddress := slots.1, slots := memory }
        some ({ Loop.forRange cap.toNat Pool.initSlot p with freeHead := 0 }, slots.2)

def poolAlloc (p : Pool) : UInt32 × Pool :=
  if p.slotsAddress = 0 ∨ p.cap = 0 ∨ p.cap ≤ p.count ∨ p.freeHead = poolInvalid ∨
      p.cap ≤ p.freeHead then (poolInvalid, p)
  else
    let idx := p.freeHead
    let nxt := loadLink (p.slots idx.toNat)
    if nxt ≠ poolInvalid ∧ p.cap ≤ nxt then (poolInvalid, p)
    else (idx, { p with freeHead := nxt, count := p.count + 1 })

-- as in a release build, where neither `ASSERT` is there
def poolFree (p : Pool) (idx : UInt32) : Pool :=
  { p with
    slots := Function.update p.slots idx.toNat (storeLink (p.slots idx.toNat) p.freeHead)
    freeHead := idx
    count := p.count - 1 }

def poolWrite (p : Pool) (idx : UInt32) (value : List UInt8) : Pool :=
  { p with slots := Function.update p.slots idx.toNat value }

end ChoonzMoba
