import ChoonzMoba.Core.Handle
import ChoonzMoba.Core.HashMap
import ChoonzMoba.Library.LittleEndian

namespace ChoonzMoba

def poolInvalid : UInt32 := 0xFFFFFFFF

-- A slot is its object's bytes. A free slot keeps the link to the next one in the first four.

def loadLink (slot : List UInt8) : UInt32 := UInt32.ofNat (LittleEndian.decode (slot.take 4))

def storeLink (slot : List UInt8) (link : UInt32) : List UInt8 :=
  LittleEndian.encode 4 link.toNat ++ slot.drop 4

-- each address is a pointer, and the function beside it what it points to
structure HandlePool where
  slotsAddress : Nat
  slots : Nat → List UInt8
  genAddress : Nat
  gen : Nat → UInt32
  cap : UInt32
  freeHead : UInt32
  count : UInt32

def HandlePool.unallocated (cap : UInt32) : HandlePool where
  slotsAddress := 0
  slots := fun _ => []
  genAddress := 0
  gen := fun _ => 0
  cap := cap
  freeHead := poolInvalid
  count := 0

def HandlePool.initSlot (hp : HandlePool) (i : Nat) : HandlePool :=
  let nxt := if i + 1 < hp.cap.toNat then UInt32.ofNat (i + 1) else poolInvalid
  { hp with
    gen := Function.update hp.gen i 0
    slots := Function.update hp.slots i (storeLink (hp.slots i) nxt) }

-- `memory` is what the two new blocks hold before they are filled in; `none` is a failed `ENSURE`
def handlepoolInit {σ : Type} (al : Allocator σ) (state : σ) (layout : SlotLayout) (cap : UInt32)
    (memory : (Nat → List UInt8) × (Nat → UInt32)) : Option (HandlePool × σ) :=
  if handleIndexMask + 1 < cap then none
  else if cap = 0 then some (.unallocated cap, state)
  else
    (memAlloc al state (cap.toNat * layout.size % 2 ^ 64) layout.align).bind fun slots =>
    (memAlloc al slots.2 (cap.toNat * 4 % 2 ^ 64) 4).bind fun gen =>
      if slots.1 = 0 ∨ gen.1 = 0 then none
      else
        let hp : HandlePool :=
          { HandlePool.unallocated cap with
            slotsAddress := slots.1
            slots := memory.1
            genAddress := gen.1
            gen := memory.2 }
        some ({ Loop.forRange cap.toNat HandlePool.initSlot hp with freeHead := 0 }, gen.2)

def handlepoolAlloc (hp : HandlePool) (value : List UInt8) : Handle × HandlePool :=
  if hp.slotsAddress = 0 ∨ hp.genAddress = 0 ∨ hp.cap = 0 ∨ hp.cap ≤ hp.count ∨
      hp.freeHead = poolInvalid ∨ hp.cap ≤ hp.freeHead then (handleNull, hp)
  else
    let idx := hp.freeHead.toNat
    let nxt := loadLink (hp.slots idx)
    if (nxt ≠ poolInvalid ∧ hp.cap ≤ nxt) ∨ handleGenMask < hp.gen idx then (handleNull, hp)
    else
      let gen := if hp.gen idx = 0 then 1 else hp.gen idx
      (handleMake idx gen.toNat,
        { hp with
          freeHead := nxt
          gen := Function.update hp.gen idx gen
          slots := Function.update hp.slots idx value
          count := hp.count + 1 })

def handlepoolValid (hp : HandlePool) (h : Handle) : Bool :=
  let idx := handleIndex h
  let g := handleGen h
  decide (g ≠ 0) && decide (idx < hp.cap.toNat) && (hp.gen idx).toNat == g

/-- The index of the slot the pointer points to, or `none` for a null pointer. -/
def handlepoolGet (hp : HandlePool) (h : Handle) : Option Nat :=
  let idx := handleIndex h
  let g := handleGen h
  if g = 0 ∨ hp.cap.toNat ≤ idx ∨ (hp.gen idx).toNat ≠ g then none else some idx

-- as in a release build, where the `ASSERT` on the new generation is not there
def handlepoolFree (hp : HandlePool) (h : Handle) : Bool × HandlePool :=
  if !handlepoolValid hp h then (false, hp)
  else
    let idx := handleIndex h
    let g := hp.gen idx + 1
    let g := if handleGenMask < g then 1 else g
    (true,
      { hp with
        gen := Function.update hp.gen idx g
        slots := Function.update hp.slots idx (storeLink (hp.slots idx) hp.freeHead)
        freeHead := UInt32.ofNat idx
        count := hp.count - 1 })

end ChoonzMoba
