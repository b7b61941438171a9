import ChoonzMoba.Assets.Tga
import ChoonzMoba.Assets.MbaSpec

namespace ChoonzMoba

structure TgaInfo.Valid (info : TgaInfo) (data : List UInt8) : Prop where
  extent : info.pixels + info.pixelBytesAvailable = data.length
  width : 0 < info.width
  count : info.pixelCount = info.width * info.height
  imageType : info.imageType = 2 ∨ info.imageType = 10
  bytesPerPixel : info.bytesPerPixel = 3 ∨ info.bytesPerPixel = 4
  present : tgaPixelsPresent data info.imageType info.pixels info.pixelBytesAvailable
    info.bytesPerPixel info.pixelCount = some true

section

variable {data : List UInt8} {info : TgaInfo}

theorem exists_getElem? {i : Nat} (h : i < data.length) : ∃ b, data[i]? = some b :=
  ⟨_, List.getElem?_eq_getElem h⟩

theorem tgaReadU16le_total {offset : Nat} (h : offset + 2 ≤ data.length) :
    ∃ v, tgaReadU16le data offset = some v := by
  obtain ⟨b0, h0⟩ : ∃ b, data[offset]? = some b := exists_getElem? (by omega)
  obtain ⟨b1, h1⟩ : ∃ b, data[offset + 1]? = some b := exists_getElem? (by omega)
  exact ⟨_, by rw [tgaReadU16le, h0, Option.bind_some, h1, Option.map_some]⟩

theorem tgaRun_pos (packet : UInt8) : 0 < tgaRun packet := Nat.succ_pos _

theorem tgaPacketLoop_total {dataOffset available bytesPerPixel pixelCount fuel cursor : Nat}
    (hextent : dataOffset + available = data.length) (hcursor : cursor ≤ available)
    {produced : Nat} (hfuel : pixelCount - produced < fuel) :
    ∃ b, tgaPacketLoop data dataOffset available bytesPerPixel pixelCount fuel cursor produced =
      some b := by
  induction fuel generalizing cursor produced with
  | zero => exact absurd hfuel (Nat.not_lt_zero _)
  | succ fuel ih =>
    rw [tgaPacketLoop]
    split
    · next hproduced =>
      split
      · exact ⟨false, rfl⟩
      · next hmore =>
        obtain ⟨packet, hpacket⟩ : ∃ b, data[dataOffset + cursor]? = some b :=
          exists_getElem? (by omega)
        rw [hpacket, Option.bind_some]
        have hrun := tgaRun_pos packet
        dsimp only
        generalize (if packet &&& 0x80 ≠ 0 then 1 else tgaRun packet) = sourcePixels
        split
        · exact ⟨false, rfl⟩
        · split
          · exact ⟨false, rfl⟩
          · split
            · exact ⟨false, rfl⟩
            · exact ih (by omega) (by omega)
    · exact ⟨true, rfl⟩

theorem tgaPixelsPresent_total {imageType : UInt8}
    {dataOffset available bytesPerPixel pixelCount : Nat}
    (hextent : dataOffset + available = data.length) :
    ∃ b, tgaPixelsPresent data imageType dataOffset available bytesPerPixel pixelCount = some b := by
  rw [tgaPixelsPresent]
  split
  · exact ⟨_, rfl⟩
  · exact tgaPacketLoop_total hextent (Nat.zero_le _) (Nat.lt_succ_self _)

theorem inspectTga_total (bytes : Option (List UInt8)) :
    ∃ r, inspectTga bytes = some r ∧ ∀ info, r = some info →
      ∃ data, bytes = some data ∧ info.Valid data := by
  cases bytes with
  | none => exact ⟨none, rfl, fun info h => by cases h⟩
  | some data =>
    rw [inspectTga]
    dsimp only
    by_cases hsize : data.length < 18
    · exact ⟨none, if_pos hsize, fun info h => by cases h⟩
    · obtain ⟨idLength, h0⟩ : ∃ b, data[0]? = some b := exists_getElem? (by omega)
      obtain ⟨colorMapType, h1⟩ : ∃ b, data[1]? = some b := exists_getElem? (by omega)
      obtain ⟨imageType, h2⟩ : ∃ b, data[2]? = some b := exists_getElem? (by omega)
      obtain ⟨width, h12⟩ : ∃ v, tgaReadU16le data 12 = some v := tgaReadU16le_total (by omega)
      obtain ⟨height, h14⟩ : ∃ v, tgaReadU16le data 14 = some v := tgaReadU16le_total (by omega)
      obtain ⟨bitsPerPixel, h16⟩ : ∃ b, data[16]? = some b := exists_getElem? (by omega)
      obtain ⟨descriptor, h17⟩ : ∃ b, data[17]? = some b := exists_getElem? (by omega)
      simp only [if_neg hsize, h0, h1, h2, h12, h14, h16, h17, Option.bind_some]
      split
      · exact ⟨none, rfl, fun info h => by cases h⟩
      · next hheader =>
        split
        · exact ⟨none, rfl, fun info h => by cases h⟩
        · split
          · exact ⟨none, rfl, fun info h => by cases h⟩
          · next hoffset =>
            simp only [not_or, not_and_or, not_not] at hheader
            obtain ⟨-, himage, hbits, hwidth, -⟩ := hheader
            obtain ⟨present, hpresent⟩ : ∃ b, tgaPixelsPresent data imageType
                (18 + idLength.toNat) (data.length - (18 + idLength.toNat)) (bitsPerPixel / 8).toNat
                (width * height) = some b :=
              tgaPixelsPresent_total (by omega)
            rw [hpresent, Option.map_some]
            refine ⟨_, rfl, fun info h => ?_⟩
            cases present with
            | false => cases h
            | true =>
              cases h
              refine ⟨data, rfl, ⟨by dsimp only; omega, Nat.pos_of_ne_zero hwidth, rfl, himage, ?_,
                hpresent⟩⟩
              rcases hbits with rfl | rfl
              · exact Or.inl rfl
              · exact Or.inr rfl

theorem tgaInspect_total (bytes : Option (List UInt8)) : ∃ r, tgaInspect bytes = some r := by
  obtain ⟨r, hr, -⟩ := inspectTga_total bytes
  exact ⟨_, by rw [tgaInspect, hr, Option.map_some]⟩

end

end ChoonzMoba
