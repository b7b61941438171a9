import ChoonzMoba.Core.HashMap
import ChoonzMoba.Library.Objects

open Objects

namespace ChoonzMoba

structure StrView where
  data : Nat
  len : UInt32
deriving DecidableEq, Repr

-- the allocator is handed to each operation, and its state is the heap's
structure Str where
  data : Nat
  len : UInt32
  cap : UInt32
deriving DecidableEq, Repr

/-- Why an operation does not return: a check that always runs, the allocator, or a copy that
the language gives no meaning. -/
inductive StrStop
  | ensure (message : String)
  | allocator
  | undefined
deriving DecidableEq, Repr

def orStop {α : Type} (stop : StrStop) : Option α → Except StrStop α
  | some a => .ok a
  | none => .error stop

def strAliasOffset (s : Str) (v : StrView) : Option UInt32 :=
  if s.data = 0 ∨ v.data = 0 then none
  else if uintptrMax - s.data < s.cap.toNat then none
  else if v.data < s.data ∨ s.data + s.cap.toNat < v.data ∨
      s.data + s.cap.toNat - v.data < v.len.toNat then none
  else some (UInt32.ofNat (v.data - s.data))

def strGrown (cap n : UInt32) : UInt64 :=
  let doubled := if cap = 0 then 16 else cap.toUInt64 * 2
  if doubled < n.toUInt64 then n.toUInt64 else doubled

variable {σ : Type} (al : Allocator (Heap σ))

def strRelocate (s : Str) (nc : UInt32) (h : Heap σ) : Except StrStop (Str × Heap σ) := do
  let (nd, h) ← orStop .allocator (memAlloc al h nc.toNat 1)
  if nd = 0 then .error (.ensure "str allocation failed")
  else if s.data = 0 then .ok ({ s with data := nd, cap := nc }, h)
  else do
    let h ← orStop .undefined (h.copy nd s.data s.len.toNat)
    let h ← orStop .allocator (memFree al h s.data s.cap.toNat)
    .ok ({ s with data := nd, cap := nc }, h)

def strReserve (s : Str) (n : UInt32) (h : Heap σ) : Except StrStop (Str × Heap σ) :=
  if n ≤ s.cap then .ok (s, h)
  else if 0xFFFFFFFF < strGrown s.cap n then .error (.ensure "Str capacity overflow")
  else strRelocate al s (strGrown s.cap n).toUInt32 h

def strCopy (s : Str) (offset : UInt32) (v : StrView) (source : Option UInt32) (h : Heap σ) :
    Except StrStop (Heap σ) :=
  if v.len = 0 then .ok h
  else
    orStop .undefined <| match source with
      | some k => h.move (s.data + offset.toNat) (s.data + k.toNat) v.len.toNat
      | none => h.copy (s.data + offset.toNat) v.data v.len.toNat

def strSet (s : Str) (v : StrView) (h : Heap σ) : Except StrStop (Str × Heap σ) := do
  let source := strAliasOffset s v
  let (s, h) ← strReserve al s v.len h
  let h ← strCopy s 0 v source h
  .ok ({ s with len := v.len }, h)

def strAppend (s : Str) (v : StrView) (h : Heap σ) : Except StrStop (Str × Heap σ) :=
  let source := strAliasOffset s v
  let need := s.len.toUInt64 + v.len.toUInt64
  if 0xFFFFFFFF < need then .error (.ensure "Str length overflow")
  else do
    let (s, h) ← strReserve al s need.toUInt32 h
    let h ← strCopy s s.len v source h
    .ok ({ s with len := need.toUInt32 }, h)

end ChoonzMoba
