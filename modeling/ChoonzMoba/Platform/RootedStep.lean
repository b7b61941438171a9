import ChoonzMoba.Platform.RootedPath

namespace ChoonzMoba

open RootedState

variable {Node : Type}

inductive RootedPc.Gives : RootedPc → Prop
  | openComponent : Gives .openComponent
  | attributes {last : Bool} : Gives (.attributes last)
  | finalPath : Gives .finalPath
  | information : Gives .information
  | fileSize : Gives .fileSize
  | alloc {size : Nat} : Gives (.alloc size)

def RootedState.top (s : RootedState Node) (n : Node) : Prop :=
  ∃ handle components, s.components = handle :: components ∧ s.handles handle = some n

structure SegmentOpens (s : RootedState Node) (segment rest : WidePath) (handle : Nat) (n : Node) :
    Prop where
  scan : rootedSegment s.rest = some (segment, rest)
  valid : NameValid segment
  components : s.components.length < componentCapacity
  current : segment.length + s.current.length + 1 ≤ currentCapacity
  fresh : s.handles handle = none
  opens : s.fs.opens (s.current ++ segment) = some n

inductive RootedStep (job : RootedJob) (s : RootedState Node) : RootedState Node → Prop
  | refuse : s.pc = .openRoot → RootedStep job s { s with pc := .finished false }
  | openRoot {handle : Nat} {n : Node} : s.pc = .openRoot → s.handles handle = none →
      s.fs.opens job.full = some n → RootedStep job s { s with
        pc := .rootAttributes
        handles := Function.update s.handles handle (some n)
        root := handle }
  | rootFails : s.pc = .rootAttributes ∨ s.pc = .rootFinalPath →
      RootedStep job s { s with pc := .closeRoot false }
  | rootAttributes {n : Node} : s.pc = .rootAttributes → s.handles s.root = some n →
      s.fs.directory n = true → s.fs.reparse n = false →
      RootedStep job s { s with pc := .rootFinalPath }
  | rootFinalPath {path : WidePath} {n : Node} : s.pc = .rootFinalPath →
      s.handles s.root = some n → s.fs.Leads (pathNames path) n →
      job.full.length + 2 ≤ currentCapacity → RootedStep job s { s with
        pc := .openComponent, finalRoot := path, current := withSeparator job.full }
  | fails {current rest : WidePath} : s.pc.Gives → current.length ≤ currentCapacity →
      RootedStep job s { s with current := current, rest := rest, pc := .close false }
  | openComponent {segment rest : WidePath} {handle : Nat} {n : Node} : s.pc = .openComponent →
      SegmentOpens s segment rest handle n → RootedStep job s { s with
        pc := .attributes (rest = [])
        current := s.current ++ segment
        rest := rest
        handles := Function.update s.handles handle (some n)
        components := handle :: s.components }
  | directory {n : Node} : s.pc = .attributes false → s.top n → s.fs.directory n = true →
      s.fs.reparse n = false → s.rest.tail ≠ [] → RootedStep job s { s with
        pc := .openComponent, current := s.current ++ [backslash], rest := s.rest.tail }
  | file {n : Node} : s.pc = .attributes true → s.top n → s.fs.directory n = false →
      s.fs.reparse n = false → RootedStep job s { s with pc := .finalPath }
  | finalPath {path : WidePath} {n : Node} : s.pc = .finalPath → s.top n →
      s.fs.Leads (pathNames path) n → win32PathIsDescendant s.finalRoot path = true →
      RootedStep job s { s with pc := .information }
  | information {n : Node} : s.pc = .information → s.top n → s.fs.links n = 1 →
      RootedStep job s { s with pc := .fileSize }
  | fileSize {n : Node} : s.pc = .fileSize → s.top n → (s.fs.bytes n).length ≤ job.maxBytes →
      RootedStep job s { s with pc := .alloc (s.fs.bytes n).length }
  | alloc {size : Nat} : s.pc = .alloc size →
      RootedStep job s { s with pc := .read size, block := some (max size 1), buffer := [] }
  | read {size count : Nat} {n : Node} : s.pc = .read size → s.top n → s.buffer.length < size →
      ((s.fs.bytes n).drop s.buffer.length).take count ≠ [] → RootedStep job s { s with
        buffer := s.buffer ++ ((s.fs.bytes n).drop s.buffer.length).take count }
  | short {size : Nat} : s.pc = .read size → RootedStep job s (s.release size).fail
  | deliver {size : Nat} : s.pc = .read size → s.buffer.length = size →
      RootedStep job s { s with out := some s.buffer, pc := .close true }
  | close {success : Bool} {handle : Nat} {components : List Nat} : s.pc = .close success →
      s.components = handle :: components →
      RootedStep job s { s.closeHandle handle with components := components }
  | closed {success : Bool} : s.pc = .close success → s.components = [] →
      RootedStep job s { s with pc := .closeRoot success }
  | closeRoot {success : Bool} : s.pc = .closeRoot success →
      RootedStep job s { s.closeHandle s.root with pc := .finished success }
  | finished {success : Bool} : s.pc = .finished success → RootedStep job s s

section

variable {job : RootedJob} {answer : RootedAnswer} {s t : RootedState Node} {n : Node}
  {path : WidePath} {p : Node → Bool}

variable [DecidableEq Node]

structure RootedBounds (s : RootedState Node) : Prop where
  components : s.components.length ≤ componentCapacity
  current : s.current.length ≤ currentCapacity
  terminated : (∃ last, s.pc = .attributes last) → s.current.length < currentCapacity

end

end ChoonzMoba
