import ChoonzMoba.Core.Arena
import ChoonzMoba.Core.Handle
import ChoonzMoba.Library.Loop
import Mathlib.Logic.Function.Basic

namespace ChoonzMoba

structure RenderHandleSlot where
  generation : UInt32
  nextFree : UInt32
  retireFrame : UInt64
  alive : Bool
  retiring : Bool

-- `address` is the `slots` pointer and `slots` what it points to
structure RenderHandleTable where
  address : Nat
  slots : Nat → RenderHandleSlot
  capacity : UInt32
  freeHead : UInt32
  liveCount : UInt32

def freeNone : UInt32 := 0xFFFFFFFF

def renderHandleSlotSize : Nat := 24

def renderHandleSlotAlign : Nat := 8

def RenderHandleTable.setSlot (table : RenderHandleTable) (index : Nat) (slot : RenderHandleSlot) :
    RenderHandleTable :=
  { table with slots := Function.update table.slots index slot }

def RenderHandleTable.zeroed (address : Nat) (capacity : UInt32) : RenderHandleTable where
  address := address
  slots := fun _ => ⟨0, 0, 0, false, false⟩
  capacity := capacity
  freeHead := 0
  liveCount := 0

def RenderHandleTable.initSlot (table : RenderHandleTable) (i : Nat) : RenderHandleTable :=
  table.setSlot i
    { table.slots i with
      generation := 1
      nextFree := if i + 1 < table.capacity.toNat then UInt32.ofNat (i + 1) else freeNone }

/-- `none` is an abort in the arena; otherwise the table is filled in or `false` is returned. -/
def renderHandleTableInit (arena : Arena) (capacity : UInt32) :
    Option (Arena × Option RenderHandleTable) :=
  if capacity = 0 ∨ handleIndexMask + 1 < capacity then some (arena, none)
  else
    (arenaPush arena (renderHandleSlotSize * capacity.toNat) renderHandleSlotAlign).map fun pushed =>
      (pushed.1,
        some (Loop.forRange capacity.toNat RenderHandleTable.initSlot (.zeroed pushed.2 capacity)))

def renderHandleAlloc (table : RenderHandleTable) : Handle × RenderHandleTable :=
  if table.address = 0 ∨ table.capacity = 0 ∨ table.capacity ≤ table.liveCount ∨
      table.freeHead = freeNone ∨ table.capacity ≤ table.freeHead then (handleNull, table)
  else
    let index := table.freeHead.toNat
    let slot := table.slots index
    let next := slot.nextFree
    if slot.alive ∨ slot.retiring ∨ (next ≠ freeNone ∧ table.capacity ≤ next) then
      (handleNull, table)
    else
      (handleMake index slot.generation.toNat,
        { table.setSlot index
            { slot with nextFree := freeNone, alive := true, retiring := false, retireFrame := 0 }
          with freeHead := next, liveCount := table.liveCount + 1 })

def renderHandleValid (table : RenderHandleTable) (handle : Handle) : Bool :=
  if handleIsNull handle then false
  else
    let index := handleIndex handle
    if table.capacity.toNat ≤ index then false
    else
      let slot := table.slots index
      slot.alive && !slot.retiring && slot.generation.toNat == handleGen handle

def renderHandleRetire (table : RenderHandleTable) (handle : Handle) (retireFrame : UInt64) :
    Bool × RenderHandleTable :=
  if !renderHandleValid table handle then (false, table)
  else
    let index := handleIndex handle
    (true,
      { table.setSlot index
          { table.slots index with alive := false, retiring := true, retireFrame := retireFrame }
        with liveCount := table.liveCount - 1 })

section

variable {User : Type} (release : Option (User → Nat → User))

-- the callback sees the user's data and the slot's index; `none` is the failed `ENSURE_MSG`
def releaseSlot (table : RenderHandleTable) (index : Nat) (user : User) :
    Option (RenderHandleTable × User) :=
  let user := release.elim user fun release => release user index
  let slot := table.slots index
  let generation := (slot.generation + 1) &&& handleGenMask
  if generation = 0 then none
  else
    some
      ({ table.setSlot index
          { slot with
            retiring := false
            retireFrame := 0
            generation := generation
            nextFree := table.freeHead }
        with freeHead := UInt32.ofNat index },
        user)

def renderHandleCollect (table : RenderHandleTable) (currentFrame : UInt64) (user : User) :
    Option (RenderHandleTable × User) :=
  Loop.forRangeM table.capacity.toNat
    (fun (table, user) i =>
      if (table.slots i).retiring ∧ (table.slots i).retireFrame ≤ currentFrame then
        releaseSlot release table i user
      else some (table, user))
    (table, user)

def renderHandleReleaseAll (table : RenderHandleTable) (user : User) : RenderHandleTable × User :=
  let (table, user) := Loop.forRange table.capacity.toNat
    (fun (table, user) i =>
      let slot := table.slots i
      if slot.alive ∨ slot.retiring then
        (table.setSlot i { slot with alive := false, retiring := false },
          release.elim user fun release => release user i)
      else (table, user))
    (table, user)
  ({ table with liveCount := 0 }, user)

end

end ChoonzMoba
