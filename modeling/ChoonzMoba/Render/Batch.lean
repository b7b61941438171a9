import ChoonzMoba.Core.Arena
import ChoonzMoba.Core.Handle
import Mathlib.Data.List.ModifyLast

namespace ChoonzMoba

@[ext] structure MeshHandle where
  h : Handle
deriving DecidableEq

@[ext] structure MaterialHandle where
  h : Handle
deriving DecidableEq

-- the entries are only copied here, so each is the bits of its `f32`
structure Mat4 where
  m : Vector (Vector UInt32 4) 4

structure DrawItem where
  model : Mat4
  mesh : MeshHandle
  material : MaterialHandle

structure SortItem where
  item : DrawItem
  pipelineKey : UInt32
  ordinal : UInt32

structure RenderInstanceData where
  model : Mat4

structure RenderBatch where
  pipelineKey : UInt32
  mesh : MeshHandle
  material : MaterialHandle
  instanceBase : UInt32
  instanceCount : UInt32

-- each address is a pointer of the output, with the array it points to beside it
structure RenderBatchOutput where
  instancesAddress : Nat
  instances : List RenderInstanceData
  batchesAddress : Nat
  batches : List RenderBatch
  instanceCount : UInt32
  batchCount : UInt32

def RenderBatchOutput.zero : RenderBatchOutput := ⟨0, [], 0, [], 0, 0⟩

def sortItemSize : Nat := 96

def sortItemAlign : Nat := 16

def renderInstanceDataSize : Nat := 64

def renderInstanceDataAlign : Nat := 16

def renderBatchSize : Nat := 20

def renderBatchAlign : Nat := 4

def compareSortItems (lhs rhs : SortItem) : Int :=
  if lhs.pipelineKey ≠ rhs.pipelineKey then
    if lhs.pipelineKey < rhs.pipelineKey then -1 else 1
  else if lhs.item.material.h ≠ rhs.item.material.h then
    if lhs.item.material.h < rhs.item.material.h then -1 else 1
  else if lhs.item.mesh.h ≠ rhs.item.mesh.h then
    if lhs.item.mesh.h < rhs.item.mesh.h then -1 else 1
  else if lhs.ordinal ≠ rhs.ordinal then
    if lhs.ordinal < rhs.ordinal then -1 else 1
  else 0

structure BatchArrays where
  sorted : Nat
  instances : Nat
  batches : Nat

def pushBatchArrays (arena : Arena) (count : Nat) : Option (Arena × BatchArrays) := do
  let (arena, sorted) ← arenaPush arena (sortItemSize * count) sortItemAlign
  let (arena, instances) ← arenaPush arena (renderInstanceDataSize * count) renderInstanceDataAlign
  let (arena, batches) ← arenaPush arena (renderBatchSize * count) renderBatchAlign
  return (arena, ⟨sorted, instances, batches⟩)

section

variable {User : Type} (qsort : (SortItem → SortItem → Int) → List SortItem → List SortItem)
  (resolve : User → DrawItem → UInt32 → Bool × UInt32 × User)

-- the callback sees the user's data, the item and `pipeline_key` as it stands, zero
def resolveItems (user : User) (i : Nat) : List DrawItem → Option (List SortItem) × User
  | [] => (some [], user)
  | item :: items =>
    match resolve user item 0 with
    | (false, _, user) => (none, user)
    | (true, pipelineKey, user) =>
      let (sorted, user) := resolveItems user (i + 1) items
      (sorted.map (⟨item, pipelineKey, UInt32.ofNat i⟩ :: ·), user)

def startsBatch (batches : List RenderBatch) (src : SortItem) : Bool :=
  match batches.getLast? with
  | none => true
  | some prior =>
    prior.pipelineKey != src.pipelineKey || prior.material.h != src.item.material.h ||
      prior.mesh.h != src.item.mesh.h

def appendBatch (batches : List RenderBatch) (i : Nat) (src : SortItem) : List RenderBatch :=
  if startsBatch batches src then
    batches ++ [⟨src.pipelineKey, src.item.mesh, src.item.material, UInt32.ofNat i, 1⟩]
  else
    batches.modifyLast fun batch => { batch with instanceCount := batch.instanceCount + 1 }

def placeInstance (arrays : List RenderInstanceData × List RenderBatch) (src : SortItem × Nat) :
    List RenderInstanceData × List RenderBatch :=
  (arrays.1 ++ [⟨src.1.item.model⟩], appendBatch arrays.2 src.2 src.1)

/-- `none` is an abort in the arena. -/
def renderBuildBatches (items : List DrawItem) (capacity : UInt32) (arena : Arena) (user : User)
    (out : RenderBatchOutput) : Option (Bool × RenderBatchOutput × Arena × User) :=
  if capacity.toNat < items.length then some (false, out, arena, user)
  else if items.length = 0 then some (true, .zero, arena, user)
  else
    (pushBatchArrays arena items.length).map fun (pushed, addresses) =>
      match resolveItems resolve user 0 items with
      | (none, user) => (false, .zero, tempEnd pushed arena.offset, user)
      | (some sorted, user) =>
        let (instances, batches) :=
          (qsort compareSortItems sorted).zipIdx.foldl placeInstance ([], [])
        (true,
          { instancesAddress := addresses.instances
            instances := instances
            batchesAddress := addresses.batches
            batches := batches
            instanceCount := UInt32.ofNat items.length
            batchCount := UInt32.ofNat batches.length },
          pushed, user)

end

end ChoonzMoba
