import ChoonzMoba.Library.Ledger
import Mathlib.Logic.Function.Basic

namespace ChoonzMoba

-- zero is `VK_NULL_HANDLE`
abbrev VkHandle := Nat

inductive VkKind
  | buffer
  | image
  | memory
  | imageView
  | semaphore
  | fence
  | commandPool
  | commandBuffer
  | shaderModule
  | pipeline
  | pipelineCache
  | pipelineLayout
  | descriptorSetLayout
  | descriptorPool
  | sampler
  | swapchain
deriving DecidableEq, Repr

abbrev VkObject := VkKind × VkHandle

inductive VkResult
  | success
  | suboptimal
  | outOfDate
  | failed
deriving DecidableEq, Repr

inductive VkWait
  | over
  | deviceLost
  | failed
deriving DecidableEq, Repr

structure VkCaps where
  currentExtent : UInt32 × UInt32
  minExtent : UInt32 × UInt32
  maxExtent : UInt32 × UInt32
  format : UInt32
  transferSrc : Bool

/-- What the driver answers to one call; each call reads the fields it has. -/
structure VkAnswer where
  result : VkResult
  wait : VkWait
  reset : Bool
  memoryType : Bool
  number : Nat
  caps : VkCaps

structure Dedicated where
  object : VkHandle
  memory : VkHandle
deriving DecidableEq, Repr

def Dedicated.null : Dedicated := ⟨0, 0⟩

structure TextureResource where
  image : Dedicated
  view : VkHandle
deriving DecidableEq, Repr

/-- Commands a queue was given with a fence: what they reach, the fence too, and bind. -/
structure Work where
  fence : VkHandle
  frame : Nat
  reach : List VkObject
  sets : List VkHandle
  fenced : (VkKind.fence, fence) ∈ reach

structure Vk where
  answers : Nat → VkAnswer
  calls : Nat
  ledger : Ledger VkKind
  sets : Nat
  contents : VkHandle → TextureResource
  running : List Work
  signaled : VkHandle → Bool
  refused : Bool
  hung : Bool
  allocCount : UInt32

namespace Vk

def fresh (answers : Nat → VkAnswer) : Vk where
  answers := answers
  calls := 0
  ledger := .empty
  sets := 0
  contents := fun _ => ⟨.null, 0⟩
  running := []
  signaled := fun _ => false
  refused := false
  hung := false
  allocCount := 0

def ask (vk : Vk) : VkAnswer × Vk := (vk.answers vk.calls, { vk with calls := vk.calls + 1 })

def succeeds (vk : Vk) : Bool × Vk := (decide (vk.ask.1.result = .success), vk.ask.2)

def misuse (vk : Vk) : Vk := { vk with ledger := { vk.ledger with misused := true } }

def inFlight (vk : Vk) (fence : VkHandle) : Bool := vk.running.any fun work => work.fence == fence

def busy (vk : Vk) (object : VkObject) : Bool :=
  vk.running.any fun work => decide (object ∈ work.reach)

def create (vk : Vk) (kind : VkKind) : VkHandle × Vk :=
  let (answer, vk) := vk.ask
  if answer.result = .success then
    (vk.ledger.issued + 1, { vk with ledger := vk.ledger.create kind })
  else (0, vk)

-- without a memory type that fits the driver is not called
def allocateMemory (vk : Vk) (memoryType : Bool) : VkHandle × Vk :=
  if memoryType then vk.create .memory else (0, vk)

def destroy (vk : Vk) (kind : VkKind) (handle : VkHandle) : Vk :=
  if handle = 0 then vk else { vk with ledger := vk.ledger.destroy vk.busy kind handle }

def createFence (vk : Vk) (signaled : Bool) : VkHandle × Vk :=
  let (fence, vk) := vk.create .fence
  if fence = 0 then (0, vk)
  else (fence, { vk with signaled := Function.update vk.signaled fence signaled })

-- when a wait returns that did not fail, the commands with the fence are done; on a lost device
-- every wait returns
def waitForFence (vk : Vk) (fence : VkHandle) : Bool × Vk :=
  let (answer, vk) := vk.ask
  if (VkKind.fence, fence) ∉ vk.ledger.live then (false, vk.misuse)
  else if answer.wait = .failed then (false, vk)
  else if answer.wait = .deviceLost ∨ vk.signaled fence ∨ vk.inFlight fence then
    (decide (answer.wait = .over),
      { vk with
        running := vk.running.filter fun work => work.fence != fence
        signaled := Function.update vk.signaled fence true })
  else (false, { vk with hung := true })

def deviceWaitIdle (vk : Vk) : Vk :=
  let (answer, vk) := vk.ask
  if answer.wait = .failed then vk
  else
    { vk with
      running := []
      signaled := fun fence => vk.signaled fence || vk.inFlight fence }

def resetFence (vk : Vk) (fence : VkHandle) : Vk :=
  let (answer, vk) := vk.ask
  if (VkKind.fence, fence) ∉ vk.ledger.live ∨ vk.inFlight fence then vk.misuse
  else if answer.reset then { vk with signaled := Function.update vk.signaled fence false }
  else vk

def writeFrame (vk : Vk) (fence : VkHandle) : Vk := if vk.inFlight fence then vk.misuse else vk

def queueSubmit (vk : Vk) (work : Work) : Bool × Vk :=
  let (ok, vk) := vk.succeeds
  if !ok then (false, vk)
  else if vk.signaled work.fence ∨ vk.inFlight work.fence ∨
      ∃ x ∈ work.reach, x ∉ vk.ledger.live then (true, vk.misuse)
  else (true, { vk with running := work :: vk.running })

def submitAndWait (vk : Vk) (work : Work) : Bool × Vk :=
  let (submitted, vk) := vk.queueSubmit work
  if submitted then vk.waitForFence work.fence else (false, vk)

-- nothing looks at what the submission of a frame answers
def submitFrame (vk : Vk) (work : Work) : Vk :=
  let (submitted, vk) := vk.queueSubmit work
  { vk with refused := vk.refused || !submitted }

def allocateDescriptorSet (vk : Vk) : VkHandle × Vk :=
  let (ok, vk) := vk.succeeds
  if ok then (vk.sets + 1, { vk with sets := vk.sets + 1 }) else (0, vk)

def updateDescriptorSet (vk : Vk) (set : VkHandle) (texture : TextureResource) : Vk :=
  if set = 0 ∨ vk.running.any (fun work => decide (set ∈ work.sets)) ∨
      (VkKind.imageView, texture.view) ∉ vk.ledger.live then vk.misuse
  else { vk with contents := Function.update vk.contents set texture }

end Vk

def vkAllocMax : UInt32 := 3500

section

variable (kind : VkKind)

/-- `none` is the failed `ENSURE_MSG` on the number of allocations. -/
def allocDedicated (vk : Vk) : Option (Bool × Dedicated × Vk) :=
  let (object, vk) := vk.create kind
  if object = 0 then some (false, .null, vk)
  else
    let (answer, vk) := vk.ask
    if vkAllocMax ≤ vk.allocCount then none
    else
      let (memory, vk) := vk.allocateMemory answer.memoryType
      if memory = 0 then some (false, .null, vk.destroy kind object)
      else
        let (bound, vk) := vk.succeeds
        if bound then some (true, ⟨object, memory⟩, { vk with allocCount := vk.allocCount + 1 })
        else some (false, .null, (vk.destroy .memory memory).destroy kind object)

def freeDedicated (vk : Vk) (d : Dedicated) : Vk :=
  let vk := vk.destroy kind d.object
  if d.memory = 0 then vk
  else { vk.destroy .memory d.memory with allocCount := vk.allocCount - 1 }

end

def allocBuffer : Vk → Option (Bool × Dedicated × Vk) := allocDedicated .buffer

def allocImage2d : Vk → Option (Bool × Dedicated × Vk) := allocDedicated .image

def freeBuffer : Vk → Dedicated → Vk := freeDedicated .buffer

def freeImage : Vk → Dedicated → Vk := freeDedicated .image

def beginOneShot (vk : Vk) : VkHandle × Vk := vk.create .commandBuffer

-- an upload belongs to no frame
def endOneShot (vk : Vk) (commands : VkHandle) (reach : List VkObject) : Bool × Vk :=
  let (fence, vk) := vk.createFence false
  if fence = 0 then (false, vk.destroy .commandBuffer commands)
  else
    let (waited, vk) := vk.submitAndWait
      ⟨fence, 0, (.fence, fence) :: (.commandBuffer, commands) :: reach, [], List.mem_cons_self⟩
    (waited, (vk.destroy .fence fence).destroy .commandBuffer commands)

end ChoonzMoba
