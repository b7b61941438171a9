import ChoonzMoba.Core.ArenaRun
import ChoonzMoba.Library.LittleEndian
import ChoonzMoba.Library.Records
import ChoonzMoba.Sim.World

open Records

namespace ChoonzMoba

structure RenderSnapshotUnit where
  entity : EntityId
  x : Fix
  y : Fix
  facing : Fix
deriving DecidableEq, Repr

def RenderSnapshotUnit.empty : RenderSnapshotUnit := ⟨.null, 0, 0, 0⟩

-- `units` is the address of an array of `simMaxUnits` units
structure RenderSnapshot where
  tick : UInt64
  liveCount : Nat
  units : Nat
deriving DecidableEq, Repr

structure PresentState where
  previous : RenderSnapshot
  current : RenderSnapshot
deriving DecidableEq, Repr

def wordAt (bytes : List UInt8) (offset : Nat) : UInt32 :=
  UInt32.ofNat (LittleEndian.decode ((bytes.drop offset).take 4))

def RenderSnapshotUnit.bytes (unit : RenderSnapshotUnit) : List UInt8 :=
  LittleEndian.encode 4 unit.entity.h.toNat ++ LittleEndian.encode 4 unit.x.toUInt32.toNat ++
    LittleEndian.encode 4 unit.y.toUInt32.toNat ++ LittleEndian.encode 4 unit.facing.toUInt32.toNat

def RenderSnapshotUnit.ofBytes (bytes : List UInt8) : RenderSnapshotUnit :=
  ⟨⟨wordAt bytes 0⟩, (wordAt bytes 4).toInt32, (wordAt bytes 8).toInt32, (wordAt bytes 12).toInt32⟩

theorem wordAt_encode {front rest : List UInt8} {offset : Nat} (word : UInt32)
    (h : front.length = offset) :
    wordAt (front ++ LittleEndian.encode 4 word.toNat ++ rest) offset = word := by
  have hlen := LittleEndian.encode_length 4 word.toNat
  rw [wordAt, List.append_assoc, List.drop_left' h, List.take_left' hlen,
    LittleEndian.decode_encode_of_lt word.toNat_lt, UInt32.ofNat_toNat]

theorem RenderSnapshotUnit.bytes_length (unit : RenderSnapshotUnit) : unit.bytes.length = 16 := by
  simp only [bytes, List.length_append, LittleEndian.encode_length]

theorem RenderSnapshotUnit.ofBytes_bytes (unit : RenderSnapshotUnit) :
    ofBytes unit.bytes = unit := by
  have hentity : wordAt unit.bytes 0 = unit.entity.h := by
    rw [bytes, List.append_assoc, List.append_assoc]
    exact @wordAt_encode [] _ 0 unit.entity.h rfl
  have hx : wordAt unit.bytes 4 = unit.x.toUInt32 := by
    rw [bytes, List.append_assoc]
    exact wordAt_encode _ (by rw [LittleEndian.encode_length])
  have hy : wordAt unit.bytes 8 = unit.y.toUInt32 :=
    wordAt_encode _ (by simp only [List.length_append, LittleEndian.encode_length])
  have hfacing : wordAt unit.bytes 12 = unit.facing.toUInt32 := by
    rw [bytes, ← List.append_nil (_ ++ LittleEndian.encode 4 unit.facing.toUInt32.toNat)]
    exact wordAt_encode _ (by simp only [List.length_append, LittleEndian.encode_length])
  rw [ofBytes, hentity, hx, hy, hfacing]
  rfl

def unitLayout : Layout RenderSnapshotUnit where
  size := 16
  encode := RenderSnapshotUnit.bytes
  decode := RenderSnapshotUnit.ofBytes
  encode_length := RenderSnapshotUnit.bytes_length
  decode_encode := RenderSnapshotUnit.ofBytes_bytes

def unitAlign : Nat := 4

def presentStateValid (state : PresentState) : Bool :=
  decide (state.previous.units ≠ 0) && decide (state.current.units ≠ 0) &&
    decide (state.previous.units ≠ state.current.units) &&
    decide (state.previous.liveCount ≤ simMaxUnits) &&
    decide (state.current.liveCount ≤ simMaxUnits)

def presentMemoryRequired : Nat :=
  let bytes := unitLayout.size * simMaxUnits
  let padding := unitAlign - 1
  (bytes + padding) * 2

-- the local arrays of the extraction; a null view is `none`
structure SnapshotScan where
  entities : Nat → EntityId
  transforms : Nat → Option Nat
  liveCount : Nat

def SnapshotScan.start : SnapshotScan := ⟨fun _ => .null, fun _ => none, 0⟩

def snapshotScanSlot (world : SimWorld) (scan : SnapshotScan) (slot : Nat) : Option SnapshotScan :=
  let entity := world.unitEntities slot
  let entities := Function.update scan.entities slot entity
  if entity.h = handleNull then some { scan with entities := entities }
  else if !entityManagerIsAlive world.entities entity then none
  else
    match transformPoolGetConst world.transforms entity with
    | none => none
    | some view =>
      some ⟨entities, Function.update scan.transforms slot (some view), scan.liveCount + 1⟩

def snapshotUnit (world : SimWorld) (scan : SnapshotScan) (slot : Nat) :
    Option RenderSnapshotUnit :=
  if (scan.entities slot).h = handleNull then some .empty
  else
    (scan.transforms slot).map fun view =>
      let transform := world.transforms.values view
      ⟨scan.entities slot, transform.positionX, transform.positionY, transform.facing⟩

def snapshotExtract (world : SimWorld) (out : RenderSnapshot) (memory : Nat → UInt8) :
    Option (Bool × RenderSnapshot × (Nat → UInt8)) :=
  if out.units = 0 then some (false, out, memory)
  else
    match Loop.forRangeM simMaxUnits (snapshotScanSlot world) .start with
    | none => some (false, out, memory)
    | some scan =>
      (Loop.forRangeM simMaxUnits (fun memory slot =>
        (snapshotUnit world scan slot).map (unitLayout.store memory out.units slot)) memory).map
        fun memory =>
          (true, { out with tick := world.tick, liveCount := scan.liveCount }, memory)

def presentInit (state : PresentState) (arena : Arena) (memory : Nat → UInt8) (world : SimWorld) :
    Option (Bool × PresentState × Arena × (Nat → UInt8)) :=
  if arena.base = 0 ∨ arena.reserved < arena.offset ∨
      arena.reserved - arena.offset < presentMemoryRequired then some (false, state, arena, memory)
  else
    let temporary := tempBegin arena
    (arenaPushZero arena memory (unitLayout.size * simMaxUnits) unitAlign).bind fun first =>
    (arenaPushZero first.1 first.2.2 (unitLayout.size * simMaxUnits) unitAlign).bind fun second =>
    (snapshotExtract world ⟨0, 0, second.2.1⟩ second.2.2).map fun (ok, current, memory) =>
      if !ok then (false, state, tempEnd second.1 temporary.savedOffset, memory)
      else
        let previous := { current with units := first.2.1 }
        (true, ⟨previous, current⟩, second.1,
          unitLayout.copy memory previous.units current.units simMaxUnits)

def presentCapture (state : PresentState) (memory : Nat → UInt8) (world : SimWorld) :
    Option (Bool × PresentState × (Nat → UInt8)) :=
  if !presentStateValid state then some (false, state, memory)
  else
    (snapshotExtract world state.previous memory).map fun (ok, next, memory) =>
      if !ok then (false, state, memory) else (true, ⟨state.current, next⟩, memory)

end ChoonzMoba
