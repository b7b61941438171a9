import ChoonzMoba.Assets.TgaSpec
import Mathlib.Data.List.Perm.Subperm

namespace ChoonzMoba

/-- Where the pixel of the file stands in the output, whose rows run from the top down. -/
def outputPixel (width height : Nat) (topLeft : Bool) (i : Nat) : Nat :=
  (if topLeft then i / width else height - 1 - i / width) * width + i % width

-- a file stores blue, green, red and perhaps alpha
def rgbaOf (pixel : List UInt8) : List UInt8 :=
  [pixel.getD 2 0, pixel.getD 1 0, pixel.getD 0 0, pixel.getD 3 255]

def TgaInfo.place (info : TgaInfo) : Nat → List (List UInt8) → (Nat → UInt8) → (Nat → UInt8)
  | _, [], rgba8 => rgba8
  | i, pixel :: pixels, rgba8 =>
    info.place (i + 1) pixels
      (memcpy rgba8 (outputPixel info.width info.height info.topLeft i * 4) (rgbaOf pixel))

section

variable {data : List UInt8} {info : TgaInfo}

theorem TgaInfo.place_append (info : TgaInfo) (i : Nat) (pixels more : List (List UInt8))
    (rgba8 : Nat → UInt8) : info.place i (pixels ++ more) rgba8 =
      info.place (i + pixels.length) more (info.place i pixels rgba8) := by
  induction pixels generalizing i rgba8 with
  | nil => rfl
  | cons pixel pixels ih =>
    rw [List.cons_append, place, ih, place, List.length_cons, Nat.add_right_comm, Nat.add_assoc]

theorem TgaInfo.place_congr {info other : TgaInfo} (hwidth : info.width = other.width)
    (hheight : info.height = other.height) (htopLeft : info.topLeft = other.topLeft) (i : Nat)
    (pixels : List (List UInt8)) (rgba8 : Nat → UInt8) :
    info.place i pixels rgba8 = other.place i pixels rgba8 := by
  induction pixels generalizing i rgba8 with
  | nil => rfl
  | cons pixel pixels ih => rw [place, place, ih, hwidth, hheight, htopLeft]

theorem outputPixel_lt {width height i : Nat} (topLeft : Bool) (hi : i < width * height) :
    outputPixel width height topLeft i < width * height := by
  have hwidth : 0 < width := Nat.pos_of_mul_pos_right (Nat.zero_lt_of_lt hi)
  have hrow : i / width < height := Nat.div_lt_of_lt_mul hi
  have hcolumn := Nat.mod_lt i hwidth
  have houtput : (if topLeft then i / width else height - 1 - i / width) + 1 ≤ height := by
    split
    · exact hrow
    · generalize i / width = fileY at hrow
      omega
  have hrows := Nat.mul_le_mul_right width houtput
  rw [Nat.succ_mul, Nat.mul_comm height] at hrows
  rw [outputPixel]
  omega

theorem outputPixel_inj {width height i j : Nat} {topLeft : Bool} (hi : i < width * height)
    (hj : j < width * height)
    (h : outputPixel width height topLeft i = outputPixel width height topLeft j) : i = j := by
  have hwidth : 0 < width := Nat.pos_of_mul_pos_right (Nat.zero_lt_of_lt hi)
  have hrow : i / width < height := Nat.div_lt_of_lt_mul hi
  have hrow' : j / width < height := Nat.div_lt_of_lt_mul hj
  rw [outputPixel, outputPixel, Nat.mul_comm, Nat.mul_comm _ width] at h
  have hcolumn := congrArg (· % width) h
  have houtput := congrArg (· / width) h
  simp only [Nat.mul_add_mod, Nat.mod_mod, Nat.mul_add_div hwidth, Nat.mod_div_self,
    Nat.add_zero] at hcolumn houtput
  have hsame : i / width = j / width := by
    generalize i / width = fileY at *
    generalize j / width = fileY' at *
    split at houtput
    · exact houtput
    · omega
  rw [← Nat.div_add_mod i width, ← Nat.div_add_mod j width, hsame, hcolumn]

theorem inputPixel_lt {width height x y : Nat} (topLeft : Bool) (hx : x < width) (hy : y < height) :
    (if topLeft then y else height - 1 - y) * width + x < width * height := by
  have hrow : (if topLeft then y else height - 1 - y) + 1 ≤ height := by
    split <;> omega
  have hrows := Nat.mul_le_mul_right width hrow
  rw [Nat.succ_mul, Nat.mul_comm height] at hrows
  omega

theorem outputPixel_row {width height x y : Nat} (topLeft : Bool) (hx : x < width)
    (hy : y < height) : outputPixel width height topLeft
      ((if topLeft then y else height - 1 - y) * width + x) = y * width + x := by
  generalize hrow : (if topLeft then y else height - 1 - y) = row
  have hdiv : (row * width + x) / width = row := by
    rw [Nat.mul_comm, Nat.mul_add_div (Nat.zero_lt_of_lt hx), Nat.div_eq_of_lt hx, Nat.add_zero]
  have hmod : (row * width + x) % width = x := by
    rw [Nat.mul_comm, Nat.mul_add_mod, Nat.mod_eq_of_lt hx]
  have hback : (if topLeft then row else height - 1 - row) = y := by
    rw [← hrow]
    split <;> omega
  rw [outputPixel, hdiv, hmod, hback]

theorem outputPixel_perm (width height : Nat) (topLeft : Bool) :
    ((List.range (width * height)).map (outputPixel width height topLeft)).Perm
      (List.range (width * height)) := by
  have hnodup : ((List.range (width * height)).map (outputPixel width height topLeft)).Nodup :=
    List.Nodup.map_on (fun i hi j hj h => outputPixel_inj (List.mem_range.mp hi)
      (List.mem_range.mp hj) h) List.nodup_range
  have hsubset : (List.range (width * height)).map (outputPixel width height topLeft) ⊆
      List.range (width * height) := by
    intro place hplace
    obtain ⟨i, hi, rfl⟩ := List.mem_map.mp hplace
    exact List.mem_range.mpr (outputPixel_lt topLeft (List.mem_range.mp hi))
  refine (List.subperm_of_subset hnodup hsubset).perm_of_length_le ?_
  rw [List.length_map]

theorem memcpy_inside {destination : Nat → UInt8} {offset k : Nat} {bytes : List UInt8}
    (h : k < bytes.length) : memcpy destination offset bytes (offset + k) = bytes[k] := by
  rw [memcpy, if_pos (Nat.le_add_right offset k), Nat.add_sub_cancel_left,
    List.getD_eq_getElem _ _ h]

theorem TgaInfo.place_other {info : TgaInfo} {start : Nat} {pixels : List (List UInt8)}
    {rgba8 : Nat → UInt8} {a : Nat} (h : ∀ i, start ≤ i → i < start + pixels.length →
      outputPixel info.width info.height info.topLeft i ≠ a / 4) :
    info.place start pixels rgba8 a = rgba8 a := by
  induction pixels generalizing start rgba8 with
  | nil => rfl
  | cons pixel pixels ih =>
    rw [List.length_cons] at h
    have hfirst := h start (Nat.le_refl start) (by omega)
    rw [place, ih fun i hle hlt => h i (by omega) (by omega)]
    refine ByteWriter.memcpy_outside _ ?_
    have hlength : (rgbaOf pixel).length = 4 := rfl
    rw [hlength]
    omega

theorem TgaInfo.place_pixel {info : TgaInfo} {pixels : List (List UInt8)} {i : Nat}
    (hcount : pixels.length = info.width * info.height) (hi : i < pixels.length)
    (rgba8 : Nat → UInt8) :
    (List.range 4).map (fun k => info.place 0 pixels rgba8
      (outputPixel info.width info.height info.topLeft i * 4 + k)) = rgbaOf pixels[i] := by
  have hsplit : pixels = pixels.take i ++ pixels[i] :: pixels.drop (i + 1) := by
    rw [← List.drop_eq_getElem_cons hi, List.take_append_drop]
  have htake : (pixels.take i).length = i := List.length_take_of_le (Nat.le_of_lt hi)
  refine List.ext_getElem rfl fun k hk hk' => ?_
  rw [List.length_map, List.length_range] at hk
  have hplace : (outputPixel info.width info.height info.topLeft i * 4 + k) / 4 =
      outputPixel info.width info.height info.topLeft i := by omega
  rw [List.getElem_map, List.getElem_range]
  conv_lhs => rw [hsplit]
  rw [place_append, htake, Nat.zero_add, place, place_other, memcpy_inside hk']
  intro j hle hlt heq
  rw [List.length_drop] at hlt
  rw [hplace] at heq
  have := outputPixel_inj (by omega) (by omega) heq
  omega

theorem rgbaOf_eq {pixel : List UInt8} {bytesPerPixel : Nat} (h : pixel.length = bytesPerPixel)
    (hbytes : bytesPerPixel = 3 ∨ bytesPerPixel = 4) :
    rgbaOf pixel = [pixel.getD 2 0, pixel.getD 1 0, pixel.getD 0 0,
      if bytesPerPixel = 4 then pixel.getD 3 0 else 255] := by
  have halpha : pixel.getD 3 255 = if bytesPerPixel = 4 then pixel.getD 3 0 else 255 := by
    split
    · rw [List.getD_eq_getElem _ _ (by omega), List.getD_eq_getElem _ _ (by omega)]
    · rw [List.getD_eq_default _ _ (by omega)]
  rw [rgbaOf, halpha]

theorem getD_slice {source width k : Nat} (hk : k < width) (h : source + width ≤ data.length)
    (d : UInt8) : data[source + k]? = some ((slice data source width).getD k d) := by
  obtain ⟨b, hb⟩ : ∃ b, data[source + k]? = some b := exists_getElem? (by omega)
  have hslice : (slice data source width)[k]? = some b := by
    rw [slice, List.getElem?_take_of_lt hk, List.getElem?_drop, hb]
  rw [hb, List.getD_eq_getElem?_getD, hslice]
  rfl

theorem TgaInfo.Valid.writePixel_eq (h : info.Valid data) (destination : Nat → UInt8)
    {i source : Nat} (hindex : i < info.pixelCount)
    (hsource : source + info.bytesPerPixel ≤ data.length) :
    writePixel data info destination i source =
      some (memcpy destination (outputPixel info.width info.height info.topLeft i * 4)
        (rgbaOf (slice data source info.bytesPerPixel))) := by
  have hlt : i < info.width * info.height := h.count ▸ hindex
  have hrow : i / info.width < info.height := Nat.div_lt_of_lt_mul hlt
  have houtput := outputPixel_lt info.topLeft hlt
  have hcolumn : i - i / info.width * info.width = i % info.width := by
    rw [Nat.mul_comm, Nat.mod_eq_sub]
  have hbytes := h.bytesPerPixel
  have halpha : (if info.bytesPerPixel = 4 then data[source + 3]? else some 255) =
      some ((slice data source info.bytesPerPixel).getD 3 255) := by
    split
    · exact getD_slice (by omega) hsource 255
    · have hlength := slice_length hsource
      rw [List.getD_eq_default _ _ (by omega)]
  rw [writePixel, hcolumn, if_neg, getD_slice (k := 2) (by omega) hsource 0, Option.bind_some,
    getD_slice (k := 1) (by omega) hsource 0, Option.bind_some, ← Nat.add_zero source,
    getD_slice (k := 0) (by omega) hsource 0, Option.bind_some, halpha, Option.map_some]
  · rfl
  · refine not_or.mpr ⟨Nat.not_le_of_lt hrow, ?_⟩
    have hfits := Nat.mul_le_mul_right 4 houtput
    rw [Nat.succ_mul, outputPixel] at hfits
    rw [h.count]
    exact Nat.not_lt_of_le hfits

section

variable {σ : Type} (write : σ → Nat → Nat → Option σ)

-- The second pass over any store: `write` is told a pixel's number and where the file has it.

def tgaDecodePacketWith (info : TgaInfo) (s : σ) (cursor produced : Nat) (packet : UInt8) :
    Option (σ × Nat × Nat) :=
  let run := tgaRun packet
  if packet &&& 0x80 ≠ 0 then
    (Loop.forRangeM run (fun s i => write s (produced + i) (info.pixels + cursor)) s).map
      fun s => (s, cursor + info.bytesPerPixel, produced + run)
  else
    (Loop.forRangeM run (fun s i => write s (produced + i)
      (info.pixels + (cursor + i * info.bytesPerPixel))) s).map
      fun s => (s, cursor + run * info.bytesPerPixel, produced + run)

def tgaDecodeLoopWith (data : List UInt8) (info : TgaInfo) : Nat → σ → Nat → Nat → Option σ
  | 0, _, _, _ => none
  | fuel + 1, s, cursor, produced =>
    if produced < info.pixelCount then
      (data[info.pixels + cursor]?).bind fun packet =>
      (tgaDecodePacketWith write info s (cursor + 1) produced packet).bind fun r =>
        tgaDecodeLoopWith data info fuel r.1 r.2.1 r.2.2
    else some s

def tgaDecodeWith (data : List UInt8) (info : TgaInfo) (s : σ) : Option σ :=
  if info.imageType = 2 then
    Loop.forRangeM info.pixelCount (fun s i => write s i (info.pixels + i * info.bytesPerPixel)) s
  else tgaDecodeLoopWith write data info (info.pixelCount + 1) s 0 0

def writeEach : Nat → List Nat → σ → Option σ
  | _, [], s => some s
  | start, source :: sources, s => (write s start source).bind (writeEach (start + 1) sources)

variable {write}

theorem writeEach_append (start : Nat) (sources more : List Nat) (s : σ) :
    writeEach write start (sources ++ more) s =
      (writeEach write start sources s).bind (writeEach write (start + sources.length) more) := by
  induction sources generalizing start s with
  | nil => rfl
  | cons source sources ih =>
    rw [List.cons_append, writeEach, writeEach, Option.bind_assoc, List.length_cons,
      Nat.add_comm sources.length, ← Nat.add_assoc]
    exact congrArg _ (funext (ih (start + 1)))

theorem forRangeM_eq_writeEach (start n : Nat) (source : Nat → Nat) (s : σ) :
    Loop.forRangeM n (fun s i => write s (start + i) (source i)) s =
      writeEach write start ((List.range n).map source) s := by
  induction n with
  | zero => rfl
  | succ n ih =>
    rw [Loop.forRangeM_succ, ih, List.range_succ, List.map_append, writeEach_append,
      List.length_map, List.length_range]
    refine congrArg _ (funext fun t => ?_)
    rw [List.map_singleton, writeEach]
    exact (Option.bind_fun_some _).symm

end

theorem tgaDecodeLoop_eq_with (data : List UInt8) (info : TgaInfo) (fuel : Nat)
    (rgba8 : Nat → UInt8) (cursor produced : Nat) :
    tgaDecodeLoop data info fuel rgba8 cursor produced =
      tgaDecodeLoopWith (writePixel data info) data info fuel rgba8 cursor produced := by
  induction fuel generalizing rgba8 cursor produced with
  | zero => rfl
  | succ fuel ih =>
    rw [tgaDecodeLoop, tgaDecodeLoopWith]
    simp only [ih]
    rfl

theorem tgaDecode_eq_with (data : List UInt8) (info : TgaInfo) (rgba8 : Nat → UInt8) :
    (if info.imageType = 2 then tgaDecodeRaw data info rgba8
      else tgaDecodeLoop data info (info.pixelCount + 1) rgba8 0 0) =
      tgaDecodeWith (writePixel data info) data info rgba8 := by
  rw [tgaDecodeLoop_eq_with]
  rfl

def ReadsPixels (data : List UInt8) (bytesPerPixel : Nat) (sources : List Nat)
    (pixels : List (List UInt8)) : Prop :=
  List.Forall₂ (fun source pixel => source + bytesPerPixel ≤ data.length ∧
    slice data source bytesPerPixel = pixel) sources pixels

theorem TgaInfo.Valid.writeEach_eq (h : info.Valid data) {start : Nat} {sources : List Nat}
    {pixels : List (List UInt8)} (hreads : ReadsPixels data info.bytesPerPixel sources pixels)
    (hcount : start + pixels.length ≤ info.pixelCount) (rgba8 : Nat → UInt8) :
    writeEach (writePixel data info) start sources rgba8 =
      some (info.place start pixels rgba8) := by
  induction hreads generalizing start rgba8 with
  | nil => rfl
  | cons hpixel hreads ih =>
    obtain ⟨hinside, rfl⟩ := hpixel
    rw [List.length_cons] at hcount
    rw [writeEach, h.writePixel_eq rgba8 (by omega) hinside, Option.bind_some, ih (by omega)]
    rfl

end

end ChoonzMoba
