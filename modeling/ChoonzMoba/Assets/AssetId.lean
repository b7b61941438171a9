import ChoonzMoba.Library.Loop

namespace ChoonzMoba

abbrev AssetId := UInt64

def assetIdNull : AssetId := 0

def assetPathMax : Nat := 512

def assetFnv1aOffset : AssetId := 14695981039346656037

def assetFnv1aPrime : AssetId := 1099511628211

def byte (c : Char) : UInt8 := c.toUInt8

def assetPortableChar (c : UInt8) : Bool :=
  (byte 'a' ≤ c && c ≤ byte 'z') || (byte '0' ≤ c && c ≤ byte '9') ||
    c == byte '_' || c == byte '-' || c == byte '.'

def assetStemEnd (path : List UInt8) (stop : Nat) : Nat → Nat → Nat
  | 0, stemEnd => stemEnd
  | fuel + 1, stemEnd =>
    if stemEnd < stop ∧ path.getD stemEnd 0 ≠ byte '.' then assetStemEnd path stop fuel (stemEnd + 1)
    else stemEnd

def assetReservedDeviceSegment (path : List UInt8) (start stop : Nat) : Bool :=
  let letter := fun i => path.getD (start + i) 0
  let stemLength := assetStemEnd path stop (stop - start) start - start
  if stemLength = 3 then
    (letter 0 == byte 'c' && letter 1 == byte 'o' && letter 2 == byte 'n') ||
    (letter 0 == byte 'p' && letter 1 == byte 'r' && letter 2 == byte 'n') ||
    (letter 0 == byte 'a' && letter 1 == byte 'u' && letter 2 == byte 'x') ||
    (letter 0 == byte 'n' && letter 1 == byte 'u' && letter 2 == byte 'l')
  else if stemLength = 4 then
    let digit := letter 3
    let numbered := byte '1' ≤ digit && digit ≤ byte '9'
    numbered &&
      ((letter 0 == byte 'c' && letter 1 == byte 'o' && letter 2 == byte 'm') ||
       (letter 0 == byte 'l' && letter 1 == byte 'p' && letter 2 == byte 't'))
  else false

def assetLiteralSegmentValid (path : List UInt8) (start stop : Nat) : Bool :=
  if start = stop then false
  else if stop - start = 1 ∧ path.getD start 0 = byte '.' then false
  else if stop - start = 2 ∧ path.getD start 0 = byte '.' ∧ path.getD (start + 1) 0 = byte '.' then
    false
  else if path.getD (stop - 1) 0 = byte '.' ∨ assetReservedDeviceSegment path start stop = true then
    false
  else (List.range' start (stop - start)).all fun i => assetPortableChar (path.getD i 0)

-- The hash so far and where the current segment begins; `none` is the early `return ASSET_ID_NULL`.
def assetIdByte (path : List UInt8) (s : AssetId × Nat) (i : Nat) : Option (AssetId × Nat) :=
  let c := path.getD i 0
  let hash := (s.1 ^^^ c.toUInt64) * assetFnv1aPrime
  if c = byte '/' then
    if assetLiteralSegmentValid path s.2 i then some (hash, i + 1) else none
  else if assetPortableChar c then some (hash, s.2)
  else none

def assetIdNormalizedBytes (path : List UInt8) (length : Nat) : AssetId :=
  if length = 0 ∨ path.getD 0 0 = byte '/' ∨ path.getD (length - 1) 0 = byte '/' then assetIdNull
  else
    match Loop.forRangeM length (assetIdByte path) (assetFnv1aOffset, 0) with
    | none => assetIdNull
    | some (hash, segmentBegin) =>
      if assetLiteralSegmentValid path segmentBegin length = false ∨ hash = assetIdNull then assetIdNull
      else hash

-- `asset_id("...")`: `N` counts the literal's terminator.
def assetIdLiteral (path : List UInt8) : AssetId :=
  if 1 < path.length + 1 then assetIdNormalizedBytes path path.length else assetIdNull

-- What the caller's `out` and `*out_length` hold.
structure PathBuffer where
  bytes : Nat → UInt8
  length : Nat

def isSeparator (c : UInt8) : Bool := c == byte '/' || c == byte '\\'

-- `none` is a read past the end of the bytes.
def readWhile (p : UInt8 → Bool) (path : List UInt8) : Nat → Nat → Option Nat
  | 0, _ => none
  | fuel + 1, read =>
    (path[read]?).bind fun c => if p c then readWhile p path fuel (read + 1) else some read

-- `normalized[write++] = c`; `none` is a write past the end of the scratch buffer.
def pushNormalized (normalized : List UInt8) (c : UInt8) : Option (List UInt8) :=
  if normalized.length < assetPathMax then some (normalized ++ [c]) else none

-- The inner `none` is `return false`.
def unlessRejected {α β : Type} (x : Option (Option α)) (f : α → Option (Option β)) :
    Option (Option β) :=
  x.bind fun r =>
    match r with
    | none => some none
    | some a => f a

def foldCase (c : UInt8) : UInt8 :=
  if byte 'A' ≤ c && c ≤ byte 'Z' then c + (byte 'a' - byte 'A') else c

def copySegment (path : List UInt8) : Nat → Nat → List UInt8 → Option (Option (List UInt8))
  | 0, _, normalized => some (some normalized)
  | left + 1, read, normalized =>
    (path[read]?).bind fun c =>
      let c := foldCase c
      if assetPortableChar c then
        (pushNormalized normalized c).bind fun normalized => copySegment path left (read + 1) normalized
      else some none

def appendSeparator (normalized : List UInt8) : Option (Option (List UInt8)) :=
  if normalized.length ≠ 0 then
    if assetPathMax ≤ normalized.length + 1 then some none
    else (pushNormalized normalized (byte '/')).map some
  else some (some normalized)

def normalizeLoop (path : List UInt8) : Nat → Nat → List UInt8 → Option (Option (List UInt8))
  | 0, _, _ => none
  | fuel + 1, read, normalized =>
    (path[read]?).bind fun c =>
    if c = 0 then some (some normalized)
    else
      (readWhile isSeparator path path.length read).bind fun segmentBegin =>
      (path[segmentBegin]?).bind fun c =>
      if c = 0 then some (some normalized)
      else
        (readWhile (fun c => c != 0 && !isSeparator c) path path.length segmentBegin).bind fun read =>
        let segmentLength := read - segmentBegin
        if segmentLength = 1 ∧ path.getD segmentBegin 0 = byte '.' then
          normalizeLoop path fuel read normalized
        else if segmentLength = 2 ∧ path.getD segmentBegin 0 = byte '.' ∧
            path.getD (segmentBegin + 1) 0 = byte '.' then some none
        else if segmentLength = 0 then normalizeLoop path fuel read normalized
        else
          let outputSegmentBegin := if normalized.length ≠ 0 then normalized.length + 1 else normalized.length
          unlessRejected (appendSeparator normalized) fun normalized =>
          if assetPathMax - normalized.length ≤ segmentLength then some none
          else
            unlessRejected (copySegment path segmentLength segmentBegin normalized) fun normalized =>
            if assetLiteralSegmentValid normalized outputSegmentBegin normalized.length then
              normalizeLoop path fuel read normalized
            else some none

-- `path` is what the pointer shows up to and with the terminator; the outer `none` is an access
-- outside `path` or the scratch buffer.
def assetPathNormalize (path : Option (List UInt8)) (out : PathBuffer) (outCapacity : Nat) :
    Option (Bool × PathBuffer) :=
  match path with
  | none => some (false, out)
  | some path =>
    if outCapacity = 0 then some (false, out)
    else
      (path[0]?).bind fun c =>
      if c = 0 ∨ c = byte '/' ∨ c = byte '\\' then some (false, out)
      else
        (normalizeLoop path (path.length + 1) 0 []).bind fun r =>
        match r with
        | none => some (false, out)
        | some normalized =>
          if normalized.length = 0 ∨ outCapacity < normalized.length + 1 then some (false, out)
          else
            (pushNormalized normalized 0).map fun terminated =>
              (true,
                { bytes := fun i => if i < terminated.length then terminated.getD i 0 else out.bytes i
                  length := normalized.length })

def assetIdFromPath (path : Option (List UInt8)) (outId : AssetId) : Option (Bool × AssetId) :=
  (assetPathNormalize path ⟨fun _ => 0, 0⟩ assetPathMax).map fun r =>
    if r.1 then
      let id := assetIdNormalizedBytes (List.ofFn fun i : Fin r.2.length => r.2.bytes i) r.2.length
      if id = assetIdNull then (false, outId) else (true, id)
    else (false, outId)

end ChoonzMoba
