import ChoonzMoba.Assets.RegistryLoad

namespace ChoonzMoba

/-- What the tool asks of the system, and where the vector for the decoded pixels lies: a block of
`operator new`. -/
structure CookerSystem where
  contents : CString → Option (List UInt8)
  readsWhole : CString → Bool
  createsParent : CString → Bool
  opensOutput : CString → Bool
  takesBytes : CString → Bool
  pixelsAt : UInt64
  pixelsAt_ne : pixelsAt ≠ 0
  pixelsAt_aligned : pixelsAt.toNat % memDefaultAlign = 0
  pixelsAt_below : pixelsAt.toNat ≤ 2 ^ 63

structure CookerOptions where
  input : Option CString
  assetPath : Option CString
  output : Option CString

def cookerInputOption : List UInt8 := [45, 45, 105, 110, 112, 117, 116]

def cookerAssetOption : List UInt8 := [45, 45, 97, 115, 115, 101, 116]

def cookerOutputOption : List UInt8 := [45, 45, 111, 117, 116, 112, 117, 116]

def cookerOption (options : CookerOptions) (option value : CString) : Option CookerOptions :=
  if value.text = [] then none
  else if option.text = cookerInputOption ∧ options.input.isNone then
    some { options with input := some value }
  else if option.text = cookerAssetOption ∧ options.assetPath.isNone then
    some { options with assetPath := some value }
  else if option.text = cookerOutputOption ∧ options.output.isNone then
    some { options with output := some value }
  else none

def cookerOptionPairs : List CString → CookerOptions → Option CookerOptions
  | option :: value :: rest, options =>
    (cookerOption options option value).bind (cookerOptionPairs rest)
  | _, options => some options

structure CookerJob where
  input : CString
  assetPath : CString
  output : CString

-- `argv` starts with the program's own name
def cookerParseOptions (argv : List CString) : Option CookerJob :=
  if argv.length ≠ 7 then none
  else
    (cookerOptionPairs argv.tail ⟨none, none, none⟩).bind fun options =>
    options.input.bind fun input =>
    options.assetPath.bind fun assetPath =>
    options.output.map fun output => ⟨input, assetPath, output⟩

def cookerReadFile (system : CookerSystem) (path : CString) : Option (List UInt8) :=
  (system.contents path).bind fun data =>
    if data = [] ∨ system.readsWhole path = false then none else some data

/-- How the run ends; `handed` is what the output stream was given, once it was open. -/
structure CookerEnd where
  code : Nat
  handed : Option (List UInt8)
deriving DecidableEq

def cookerRefuses : CookerEnd := ⟨1, none⟩

def cookerWriteFile (system : CookerSystem) (path : CString) (bytes : List UInt8) : CookerEnd :=
  if bytes = [] ∨ system.createsParent path = false ∨ system.opensOutput path = false then
    cookerRefuses
  else ⟨if system.takesBytes path then 0 else 1, some bytes⟩

def decodedSource (image : TgaImage) (rgba8Bytes : Nat) : MbaTextureSource where
  rgba8 := some (readMemory image.rgba8 0 rgba8Bytes)
  rgba8Bytes := rgba8Bytes
  width := UInt32.ofNat image.width
  height := UInt32.ofNat image.height
  readable pixels h := by
    cases h
    rw [readMemory, List.length_map, List.length_range]

def cookerBake (system : CookerSystem) (job : CookerJob) (assetId : AssetId)
    (texture : MbaTextureSource) : CookerEnd :=
  match mbaTextureMeasure (some texture) with
  | none => cookerRefuses
  | some bakedBytes =>
    match mbaEncodeTexture (some fun _ => 0) bakedBytes assetId (some texture) with
    | none => cookerRefuses
    | some (writtenBytes, baked) =>
      if writtenBytes ≠ bakedBytes then cookerRefuses
      else cookerWriteFile system job.output ((List.range bakedBytes).map baked)

def cookerDecode (system : CookerSystem) (sourceBytes : List UInt8) (rgba8Bytes : Nat) :
    Option (Option TgaImage) :=
  (arenaInitFixed system.pixelsAt rgba8Bytes).bind fun decodeArena =>
    (tgaDecode (some sourceBytes) arenaAllocator decodeArena fun _ => 0).map Prod.fst

/-- `none` is an abort. -/
def cookerMain (system : CookerSystem) (argv : List CString) : Option CookerEnd :=
  match cookerParseOptions argv with
  | none => some ⟨2, none⟩
  | some job =>
    (assetIdFromPath (some job.assetPath.bytes) assetIdNull).bind fun (valid, assetId) =>
    if valid = false then some cookerRefuses
    else
      match cookerReadFile system job.input with
      | none => some cookerRefuses
      | some sourceBytes =>
        (tgaInspect (some sourceBytes)).bind fun inspected =>
        match inspected with
        | none => some cookerRefuses
        | some (_, _, rgba8Bytes) =>
          (cookerDecode system sourceBytes rgba8Bytes).map fun decoded =>
          match decoded with
          | none => cookerRefuses
          | some image => cookerBake system job assetId (decodedSource image rgba8Bytes)

end ChoonzMoba
