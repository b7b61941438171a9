import ChoonzMoba.Library.FileTree
import ChoonzMoba.Platform.FileWrite
import Mathlib.Data.List.DropRight

namespace ChoonzMoba

def backslash : UInt16 := 0x5C

def slash : UInt16 := 0x2F

def colon : UInt16 := 0x3A

def dot : UInt16 := 0x2E

def isPathSeparator (c : UInt16) : Bool := c == backslash || c == slash

-- `_wcsnicmp` in the locale the program starts with
def foldWide (c : UInt16) : UInt16 := if 0x41 ≤ c ∧ c ≤ 0x5A then c + 0x20 else c

def pathNames (path : WidePath) : List WidePath := (path.splitOnP isPathSeparator).filter (· ≠ [])

def withSeparator (path : WidePath) : WidePath :=
  if path.getLast?.all isPathSeparator then path else path ++ [backslash]

structure NameValid (name : WidePath) : Prop where
  nonempty : name ≠ []
  noDot : name ≠ [dot]
  noDots : name ≠ [dot, dot]
  chars : ∀ c ∈ name, isPathSeparator c = false ∧ c ≠ colon

/-- What the system keeps, and how it opens a path that other processes may change meanwhile. -/
structure FileSystem (Node : Type) extends FileTree Node WidePath where
  directory : Node → Bool
  reparse : Node → Bool
  links : Node → Nat
  bytes : Node → List UInt8
  opens : WidePath → Option Node
  -- names the system takes as they are: no device, no trailing dots or blanks to drop
  ordinary : WidePath → Prop
  entry_fold : ∀ d name name', name.map foldWide = name'.map foldWide → entry d name = entry d name'
  opens_entry : ∀ path d name, opens path = some d → directory d = true → reparse d = false →
    NameValid name → ordinary name → opens (withSeparator path ++ name) = entry d name

structure RootedJob where
  full : WidePath
  relative : WidePath
  maxBytes : Nat
deriving DecidableEq

inductive RootedPc
  | openRoot
  | rootAttributes
  | rootFinalPath
  | openComponent
  | attributes (last : Bool)
  | finalPath
  | information
  | fileSize
  | alloc (size : Nat)
  | read (size : Nat)
  | close (success : Bool)
  | closeRoot (success : Bool)
  | finished (success : Bool)
deriving DecidableEq, Repr

structure RootedState (Node : Type) where
  pc : RootedPc
  fs : FileSystem Node
  handles : Nat → Option Node
  root : Nat
  finalRoot : WidePath
  current : WidePath
  rest : WidePath
  components : List Nat
  buffer : List UInt8
  block : Option Nat
  out : Option (List UInt8)
  misused : Bool

structure RootedAnswer where
  ok : Bool
  handle : Nat
  path : WidePath
  count : Nat

def currentCapacity : Nat := 2048

def componentCapacity : Nat := 512

def rootedSegment : WidePath → Option (WidePath × WidePath)
  | [] => some ([], [])
  | c :: cs =>
    if c = slash then some ([], c :: cs)
    else if c = backslash ∨ c = colon then none
    else (rootedSegment cs).map fun (segment, rest) => (c :: segment, rest)

def win32PathIsDescendant (root child : WidePath) : Bool :=
  let trimmed := root.rdropWhile isPathSeparator
  if trimmed = [] ∨ child.length ≤ trimmed.length ∨
      trimmed.map foldWide ≠ (child.take trimmed.length).map foldWide then false
  else (child.drop trimmed.length).head?.any isPathSeparator

namespace RootedState

variable {Node : Type}

def node (s : RootedState Node) : Option Node := s.components.head?.bind s.handles

def closeHandle (s : RootedState Node) (handle : Nat) : RootedState Node :=
  if (s.handles handle).isSome then { s with handles := Function.update s.handles handle none }
  else { s with misused := true }

def release (s : RootedState Node) (size : Nat) : RootedState Node :=
  if s.block = some (max size 1) then { s with block := none } else { s with misused := true }

def fail (s : RootedState Node) : RootedState Node := { s with pc := .close false }

def opened (s : RootedState Node) (answer : RootedAnswer) (path : WidePath) : Option Node :=
  if answer.ok ∧ s.handles answer.handle = none then s.fs.opens path else none

variable [DecidableEq Node]

end RootedState

section

variable {Node : Type} [DecidableEq Node]

open RootedState

end

end ChoonzMoba
