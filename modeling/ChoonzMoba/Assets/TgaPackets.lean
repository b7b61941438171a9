import ChoonzMoba.Assets.TgaImage
import ChoonzMoba.Library.Blocks
import ChoonzMoba.Library.RunLength

namespace ChoonzMoba

abbrev TgaPacket := RunLength.Packet (List UInt8) 128

-- the high bit tells a run, the other bits one less than the number of pixels
def packetBytes : TgaPacket → List UInt8
  | .run count pixel _ _ => UInt8.ofNat (128 + (count - 1)) :: pixel
  | .raw pixels _ _ => UInt8.ofNat (pixels.length - 1) :: pixels.flatten

def packetsBytes (packets : List TgaPacket) : List UInt8 := packets.flatMap packetBytes

theorem packetsBytes_cons (p : TgaPacket) (packets : List TgaPacket) :
    packetsBytes (p :: packets) = packetBytes p ++ packetsBytes packets := rfl

theorem tgaRun_eq (packet : UInt8) : tgaRun packet = packet.toNat % 128 + 1 := by
  rw [tgaRun, UInt8.toNat_and]
  exact congrArg (· + 1) (Nat.and_two_pow_sub_one_eq_mod packet.toNat 7)

theorem repeats_iff (packet : UInt8) : packet &&& 0x80 ≠ 0 ↔ 128 ≤ packet.toNat := by
  have hlt := packet.toNat_lt
  rw [Ne, ← UInt8.toNat_inj, UInt8.toNat_and]
  have hand : packet.toNat &&& 128 = (packet.toNat.testBit 7).toNat * 2 ^ 7 :=
    Nat.and_two_pow packet.toNat 7
  change ¬ packet.toNat &&& 128 = 0 ↔ _
  rw [hand, Nat.testBit_eq_decide_div_mod_eq]
  by_cases h : 128 ≤ packet.toNat
  · rw [decide_eq_true (by omega : packet.toNat / 2 ^ 7 % 2 = 1)]
    simp [h]
  · rw [decide_eq_false (by omega : ¬ packet.toNat / 2 ^ 7 % 2 = 1)]
    simp [h]

theorem run_header {count : Nat} (hpos : 0 < count) (hle : count ≤ 128) :
    tgaRun (UInt8.ofNat (128 + (count - 1))) = count ∧
      UInt8.ofNat (128 + (count - 1)) &&& 0x80 ≠ 0 := by
  have hvalue : (UInt8.ofNat (128 + (count - 1))).toNat = 128 + (count - 1) := by
    rw [UInt8.toNat_ofNat']
    omega
  rw [repeats_iff, tgaRun_eq, hvalue]
  omega

theorem raw_header {count : Nat} (hpos : 0 < count) (hle : count ≤ 128) :
    tgaRun (UInt8.ofNat (count - 1)) = count ∧ ¬ UInt8.ofNat (count - 1) &&& 0x80 ≠ 0 := by
  have hvalue : (UInt8.ofNat (count - 1)).toNat = count - 1 := by
    rw [UInt8.toNat_ofNat']
    omega
  rw [repeats_iff, tgaRun_eq, hvalue]
  omega

theorem exists_packet {header : UInt8} {body : List UInt8} {bytesPerPixel : Nat}
    (h : (if header &&& 0x80 ≠ 0 then 1 else tgaRun header) * bytesPerPixel ≤ body.length) :
    ∃ p : TgaPacket, ∃ rest, header :: body = packetBytes p ++ rest ∧
      p.expand.length = tgaRun header ∧ ∀ pixel ∈ p.expand, pixel.length = bytesPerPixel := by
  have hlt := header.toNat_lt
  have hrun := tgaRun_eq header
  have hpos := tgaRun_pos header
  by_cases hrle : header &&& 0x80 ≠ 0
  · rw [if_pos hrle, Nat.one_mul] at h
    rw [repeats_iff] at hrle
    have hlength : (body.take bytesPerPixel).length = bytesPerPixel := List.length_take_of_le h
    have hheader : UInt8.ofNat (128 + (tgaRun header - 1)) = header := by
      apply UInt8.toNat_inj.mp
      rw [UInt8.toNat_ofNat']
      omega
    refine ⟨.run (tgaRun header) (body.take bytesPerPixel) hpos (by omega),
      body.drop bytesPerPixel, ?_, List.length_replicate, fun pixel hpixel => ?_⟩
    · rw [packetBytes, hheader, List.cons_append, List.take_append_drop]
    · rw [List.eq_of_mem_replicate hpixel, hlength]
  · rw [if_neg hrle] at h
    rw [repeats_iff] at hrle
    have hheader : UInt8.ofNat (tgaRun header - 1) = header := by
      apply UInt8.toNat_inj.mp
      rw [UInt8.toNat_ofNat']
      omega
    have hcut := Blocks.cut_length bytesPerPixel (tgaRun header) body
    refine ⟨.raw (Blocks.cut bytesPerPixel (tgaRun header) body) (by omega) (by omega),
      body.drop (tgaRun header * bytesPerPixel), ?_, hcut,
      fun pixel hpixel => Blocks.length_of_mem_cut h hpixel⟩
    rw [packetBytes, hcut, hheader, List.cons_append, Blocks.flatten_cut, List.take_append_drop]

section

variable {data front rest : List UInt8} {info : TgaInfo} {p : TgaPacket}

theorem packetBytes_length {bytesPerPixel : Nat}
    (hdepth : ∀ pixel ∈ p.expand, pixel.length = bytesPerPixel) :
    (packetBytes p).length = 1 + (if (packetBytes p).headD 0 &&& 0x80 ≠ 0 then 1
      else p.expand.length) * bytesPerPixel := by
  cases p with
  | run count pixel pos le =>
    have hpixel := hdepth pixel (List.mem_replicate.mpr ⟨Nat.ne_of_gt pos, rfl⟩)
    rw [packetBytes, List.headD_cons, if_pos (run_header pos le).2, List.length_cons, hpixel]
    omega
  | raw pixels pos le =>
    have hflat : pixels.flatten.length = pixels.length * bytesPerPixel :=
      Blocks.flatten_length hdepth
    rw [packetBytes, List.headD_cons, if_neg (raw_header pos le).2, List.length_cons, hflat]
    exact Nat.add_comm _ _

theorem packetBytes_header (p : TgaPacket) : ∃ header body, packetBytes p = header :: body ∧
    tgaRun header = p.expand.length := by
  cases p with
  | run count pixel pos le =>
    exact ⟨_, _, rfl, (run_header pos le).1.trans List.length_replicate.symm⟩
  | raw pixels pos le => exact ⟨_, _, rfl, (raw_header pos le).1⟩

theorem tgaPacketLoop_packet {dataOffset available bytesPerPixel pixelCount cursor produced : Nat}
    (hdata : data = front ++ (packetBytes p ++ rest)) (hfront : front.length = dataOffset + cursor)
    (hextent : dataOffset + available = data.length)
    (hdepth : ∀ pixel ∈ p.expand, pixel.length = bytesPerPixel)
    (hbytes : 0 < bytesPerPixel ∧ bytesPerPixel ≤ 4) (hmore : produced < pixelCount) (fuel : Nat) :
    tgaPacketLoop data dataOffset available bytesPerPixel pixelCount (fuel + 1) cursor produced =
      if pixelCount - produced < p.expand.length then some false
      else tgaPacketLoop data dataOffset available bytesPerPixel pixelCount fuel
        (cursor + (packetBytes p).length) (produced + p.expand.length) := by
  obtain ⟨header, body, hpacket, hrun⟩ := packetBytes_header p
  have hlength := packetBytes_length hdepth
  have htotal := congrArg List.length hdata
  rw [List.length_append, List.length_append] at htotal
  have hread : data[dataOffset + cursor]? = some header := by
    rw [hdata, hpacket, ← hfront, List.getElem?_append_right (Nat.le_refl _), Nat.sub_self]
    rfl
  have hlimit := p.expand_length_le
  have hdiv : 128 ≤ sizeMax / bytesPerPixel := by
    rw [Nat.le_div_iff_mul_le hbytes.1, sizeMax]
    omega
  rw [hpacket, List.headD_cons] at hlength
  rw [tgaPacketLoop, if_pos hmore, if_neg (by rw [hpacket] at htotal; omega), hread,
    Option.bind_some]
  dsimp only
  rw [hrun, hpacket]
  generalize hsource : (if header &&& 0x80 ≠ 0 then 1 else p.expand.length) = sourcePixels at hlength ⊢
  have hsource_le : sourcePixels ≤ 128 := by
    rw [← hsource]
    split <;> omega
  rw [hpacket] at htotal
  rw [if_neg (by omega : ¬ sizeMax / bytesPerPixel < sourcePixels),
    if_neg (by omega : ¬ available - (cursor + 1) < sourcePixels * bytesPerPixel), hlength,
    Nat.add_assoc cursor]

open RunLength

def packetSources (info : TgaInfo) (cursor : Nat) : TgaPacket → List Nat
  | .run count _ _ _ => List.replicate count (info.pixels + (cursor + 1))
  | .raw pixels _ _ => (List.range pixels.length).map fun i =>
      info.pixels + (cursor + 1 + i * info.bytesPerPixel)

def packetsSources (info : TgaInfo) : Nat → List TgaPacket → List Nat
  | _, [] => []
  | cursor, p :: packets =>
    packetSources info cursor p ++ packetsSources info (cursor + (packetBytes p).length) packets

theorem packetSources_length (info : TgaInfo) (cursor : Nat) (p : TgaPacket) :
    (packetSources info cursor p).length = p.expand.length := by
  cases p with
  | run count pixel pos le =>
    rw [packetSources, Packet.expand_run, List.length_replicate, List.length_replicate]
  | raw pixels pos le => rw [packetSources, Packet.expand_raw, List.length_map, List.length_range]

theorem packetsSources_length (info : TgaInfo) (cursor : Nat) (packets : List TgaPacket) :
    (packetsSources info cursor packets).length = (expand packets).length := by
  induction packets generalizing cursor with
  | nil => rfl
  | cons p packets ih =>
    rw [packetsSources, expand_cons, List.length_append, List.length_append, packetSources_length, ih]

theorem packetSources_reads {cursor : Nat} (hdata : data = front ++ (packetBytes p ++ rest))
    (hfront : front.length = info.pixels + cursor)
    (hdepth : ∀ pixel ∈ p.expand, pixel.length = info.bytesPerPixel) :
    ReadsPixels data info.bytesPerPixel (packetSources info cursor p) p.expand := by
  have htotal := congrArg List.length hdata
  rw [List.length_append, List.length_append] at htotal
  have hslice : ∀ offset, slice data (info.pixels + (cursor + offset)) info.bytesPerPixel =
      slice (packetBytes p ++ rest) offset info.bytesPerPixel := fun offset => by
    rw [hdata, ← Nat.add_assoc, ← hfront, slice_append_left]
  refine List.forall₂_iff_get.mpr ⟨packetSources_length info cursor p, fun i hi hi' => ?_⟩
  simp only [List.get_eq_getElem]
  cases p with
  | run count pixel pos le =>
    have hpixel := hdepth pixel (List.mem_replicate.mpr ⟨Nat.ne_of_gt pos, rfl⟩)
    rw [packetBytes, List.length_cons, hpixel] at htotal
    simp only [packetSources, Packet.expand_run, List.getElem_replicate]
    refine ⟨by omega, ?_⟩
    rw [hslice 1]
    exact List.take_left' hpixel
  | raw pixels pos le =>
    have hflat : pixels.flatten.length = pixels.length * info.bytesPerPixel :=
      Blocks.flatten_length hdepth
    rw [packetBytes, List.length_cons, hflat] at htotal
    rw [Packet.expand_raw] at hi'
    have hle := Nat.mul_le_mul_right info.bytesPerPixel hi'
    rw [Nat.succ_mul] at hle
    simp only [packetSources, Packet.expand_raw, List.getElem_map, List.getElem_range]
    refine ⟨by omega, ?_⟩
    rw [Nat.add_assoc cursor, hslice, Nat.add_comm 1]
    exact Blocks.window hdepth rest hi'

theorem packetsSources_reads (packets : List TgaPacket) {cursor : Nat}
    (hdata : data = front ++ (packetsBytes packets ++ rest))
    (hfront : front.length = info.pixels + cursor)
    (hdepth : ∀ pixel ∈ expand packets, pixel.length = info.bytesPerPixel) :
    ReadsPixels data info.bytesPerPixel (packetsSources info cursor packets) (expand packets) := by
  induction packets generalizing front cursor with
  | nil => exact .nil
  | cons p packets ih =>
    rw [packetsBytes_cons, List.append_assoc] at hdata
    rw [expand_cons] at hdepth
    obtain ⟨hfirst, hdepth⟩ := List.forall_mem_append.mp hdepth
    have hpacket := packetSources_reads hdata hfront hfirst
    rw [← List.append_assoc] at hdata
    refine List.rel_append hpacket (ih hdata ?_ hdepth)
    rw [List.length_append, hfront, Nat.add_assoc]

section

variable {σ : Type} (write : σ → Nat → Nat → Option σ)

theorem tgaDecodePacketWith_eq {cursor : Nat}
    (hdata : data = front ++ (packetBytes p ++ rest)) (hfront : front.length = info.pixels + cursor)
    (hdepth : ∀ pixel ∈ p.expand, pixel.length = info.bytesPerPixel) (s : σ) (produced : Nat) :
    (data[info.pixels + cursor]?).bind (tgaDecodePacketWith write info s (cursor + 1) produced) =
      (writeEach write produced (packetSources info cursor p) s).map fun s =>
        (s, cursor + (packetBytes p).length, produced + p.expand.length) := by
  have hread : data[info.pixels + cursor]? = (packetBytes p ++ rest)[0]? := by
    rw [hdata, ← hfront, List.getElem?_append_right (Nat.le_refl _), Nat.sub_self]
  rw [hread]
  cases p with
  | run count pixel pos le =>
    obtain ⟨hrun, hrepeats⟩ := run_header pos le
    have hpixel := hdepth pixel (List.mem_replicate.mpr ⟨Nat.ne_of_gt pos, rfl⟩)
    have hsources : (List.range count).map (fun _ => info.pixels + (cursor + 1)) =
        List.replicate count (info.pixels + (cursor + 1)) := by
      rw [List.map_const', List.length_range]
    rw [packetBytes, List.cons_append, List.getElem?_cons_zero, Option.bind_some,
      tgaDecodePacketWith, if_pos hrepeats, hrun, forRangeM_eq_writeEach, hsources, packetSources,
      Packet.expand_run, List.length_replicate, List.length_cons, hpixel, Nat.add_comm info.bytesPerPixel,
      Nat.add_assoc cursor]
  | raw pixels pos le =>
    obtain ⟨hrun, hraw⟩ := raw_header pos le
    have hflat : pixels.flatten.length = pixels.length * info.bytesPerPixel :=
      Blocks.flatten_length hdepth
    rw [packetBytes, List.cons_append, List.getElem?_cons_zero, Option.bind_some,
      tgaDecodePacketWith, if_neg hraw, hrun, forRangeM_eq_writeEach, packetSources, Packet.expand_raw,
      List.length_cons, hflat, Nat.add_comm (pixels.length * _), Nat.add_assoc cursor]

theorem tgaDecodeLoopWith_eq (packets : List TgaPacket) {fuel cursor produced : Nat}
    (hdata : data = front ++ (packetsBytes packets ++ rest))
    (hfront : front.length = info.pixels + cursor)
    (hdepth : ∀ pixel ∈ expand packets, pixel.length = info.bytesPerPixel)
    (hcount : produced + (expand packets).length = info.pixelCount)
    (hfuel : (expand packets).length < fuel) (s : σ) :
    tgaDecodeLoopWith write data info fuel s cursor produced =
      writeEach write produced (packetsSources info cursor packets) s := by
  induction packets generalizing front fuel cursor produced s with
  | nil =>
    cases fuel with
    | zero => cases hfuel
    | succ fuel =>
      rw [expand_nil, List.length_nil, Nat.add_zero] at hcount
      rw [tgaDecodeLoopWith, if_neg (Nat.not_lt_of_le (Nat.le_of_eq hcount.symm))]
      rfl
  | cons p packets ih =>
    have hpos := p.expand_length_pos
    rw [expand_cons, List.length_append] at hcount hfuel
    rw [packetsBytes_cons, List.append_assoc] at hdata
    rw [expand_cons] at hdepth
    obtain ⟨hfirst, hdepth⟩ := List.forall_mem_append.mp hdepth
    cases fuel with
    | zero => cases hfuel
    | succ fuel =>
      have hmore : produced < info.pixelCount := by omega
      have hnext : (front ++ packetBytes p).length = info.pixels + (cursor + (packetBytes p).length) := by
        rw [List.length_append, hfront, Nat.add_assoc]
      rw [tgaDecodeLoopWith, if_pos hmore, ← Option.bind_assoc,
        tgaDecodePacketWith_eq write hdata hfront hfirst, Option.bind_map, packetsSources,
        writeEach_append, packetSources_length]
      rw [← List.append_assoc] at hdata
      have hcount' : produced + p.expand.length + (expand packets).length = info.pixelCount := by
        omega
      exact congrArg _ (funext (ih hdata hnext hdepth hcount' (by omega)))

end

variable {dataOffset available bytesPerPixel pixelCount : Nat}

theorem tgaPacketLoop_packets (packets : List TgaPacket) {fuel cursor produced : Nat}
    (hdata : data = front ++ (packetsBytes packets ++ rest))
    (hfront : front.length = dataOffset + cursor) (hextent : dataOffset + available = data.length)
    (hdepth : ∀ pixel ∈ expand packets, pixel.length = bytesPerPixel)
    (hbytes : 0 < bytesPerPixel ∧ bytesPerPixel ≤ 4)
    (hcount : produced + (expand packets).length = pixelCount)
    (hfuel : (expand packets).length < fuel) :
    tgaPacketLoop data dataOffset available bytesPerPixel pixelCount fuel cursor produced =
      some true := by
  induction packets generalizing front fuel cursor produced with
  | nil =>
    cases fuel with
    | zero => cases hfuel
    | succ fuel =>
      rw [expand_nil, List.length_nil, Nat.add_zero] at hcount
      rw [tgaPacketLoop, if_neg (Nat.not_lt_of_le (Nat.le_of_eq hcount.symm))]
  | cons p packets ih =>
    have hpos := p.expand_length_pos
    rw [expand_cons, List.length_append] at hcount hfuel
    rw [packetsBytes_cons, List.append_assoc] at hdata
    rw [expand_cons] at hdepth
    obtain ⟨hfirst, hdepth⟩ := List.forall_mem_append.mp hdepth
    cases fuel with
    | zero => cases hfuel
    | succ fuel =>
      rw [tgaPacketLoop_packet hdata hfront hextent hfirst hbytes (by omega), if_neg (by omega)]
      rw [← List.append_assoc] at hdata
      refine ih hdata ?_ hdepth (by omega) (by omega)
      rw [List.length_append, hfront, Nat.add_assoc]

theorem tgaPacketLoop_step {fuel cursor produced : Nat} {more : List UInt8}
    (hdata : data = front ++ more) (hfront : front.length = dataOffset + cursor)
    (hextent : dataOffset + available = data.length) (hmore : produced < pixelCount)
    (h : tgaPacketLoop data dataOffset available bytesPerPixel pixelCount (fuel + 1) cursor
      produced = some true) :
    ∃ p : TgaPacket, ∃ rest, more = packetBytes p ++ rest ∧
      (∀ pixel ∈ p.expand, pixel.length = bytesPerPixel) ∧
      produced + p.expand.length ≤ pixelCount := by
  rw [tgaPacketLoop, if_pos hmore] at h
  split at h
  · cases h
  next hcursor =>
  obtain ⟨header, hheader, h⟩ := Option.bind_eq_some_iff.mp h
  dsimp only at h
  generalize hsource : (if header &&& 0x80 ≠ 0 then 1 else tgaRun header) = sourcePixels at h
  split at h
  · cases h
  next hrun =>
  split at h
  · cases h
  split at h
  · cases h
  next hroom =>
  have htotal := congrArg List.length hdata
  rw [List.length_append] at htotal
  rw [hdata, ← hfront, List.getElem?_append_right (Nat.le_refl _), Nat.sub_self] at hheader
  cases more with
  | nil => cases hheader
  | cons first body =>
    cases hheader
    rw [List.length_cons] at htotal
    obtain ⟨p, rest, hsplit, hlength, hfirst⟩ :=
      exists_packet (by rw [hsource]; omega : _ * bytesPerPixel ≤ body.length)
    exact ⟨p, rest, hsplit, hfirst, by omega⟩

theorem exists_packets {fuel cursor produced : Nat} {more : List UInt8}
    (hdata : data = front ++ more) (hfront : front.length = dataOffset + cursor)
    (hextent : dataOffset + available = data.length)
    (hbytes : 0 < bytesPerPixel ∧ bytesPerPixel ≤ 4) (hproduced : produced ≤ pixelCount)
    (h : tgaPacketLoop data dataOffset available bytesPerPixel pixelCount fuel cursor produced =
      some true) :
    ∃ packets : List TgaPacket, ∃ rest, more = packetsBytes packets ++ rest ∧
      (∀ pixel ∈ expand packets, pixel.length = bytesPerPixel) ∧
      produced + (expand packets).length = pixelCount := by
  induction fuel generalizing front more cursor produced with
  | zero => cases h
  | succ fuel ih =>
    by_cases hmore : produced < pixelCount
    · obtain ⟨p, rest, rfl, hfirst, hle⟩ := tgaPacketLoop_step hdata hfront hextent hmore h
      rw [tgaPacketLoop_packet hdata hfront hextent hfirst hbytes hmore, if_neg (by omega)] at h
      rw [← List.append_assoc] at hdata
      obtain ⟨packets, tail, hrest, hdepth, hcount⟩ := ih hdata
        (by rw [List.length_append, hfront, Nat.add_assoc]) hle h
      refine ⟨p :: packets, tail, ?_, ?_, ?_⟩
      · rw [hrest, packetsBytes_cons, List.append_assoc]
      · rw [expand_cons]
        exact List.forall_mem_append.mpr ⟨hfirst, hdepth⟩
      · rw [expand_cons, List.length_append]
        omega
    · exact ⟨[], more, rfl, by simp, by rw [expand_nil, List.length_nil]; omega⟩

inductive TgaBody where
  | raw (pixels : List (List UInt8))
  | rle (packets : List TgaPacket)

def TgaBody.imageType : TgaBody → UInt8
  | raw _ => 2
  | rle _ => 10

def TgaBody.pixels : TgaBody → List (List UInt8)
  | raw pixels => pixels
  | rle packets => expand packets

def TgaBody.bytes : TgaBody → List UInt8
  | raw pixels => pixels.flatten
  | rle packets => packetsBytes packets

def TgaBody.sources (info : TgaInfo) : TgaBody → List Nat
  | raw pixels => (List.range pixels.length).map fun i => info.pixels + i * info.bytesPerPixel
  | rle packets => packetsSources info 0 packets

theorem TgaBody.sources_length (info : TgaInfo) (body : TgaBody) :
    (body.sources info).length = body.pixels.length := by
  cases body with
  | raw pixels => rw [sources, List.length_map, List.length_range]; rfl
  | rle packets => exact packetsSources_length info 0 packets

theorem TgaBody.present (body : TgaBody) (hdata : data = front ++ (body.bytes ++ rest))
    (hfront : front.length = dataOffset) (hextent : dataOffset + available = data.length)
    (hdepth : ∀ pixel ∈ body.pixels, pixel.length = bytesPerPixel)
    (hbytes : 0 < bytesPerPixel ∧ bytesPerPixel ≤ 4) (hcount : body.pixels.length = pixelCount)
    (hlt : pixelCount < 2 ^ 32) :
    tgaPixelsPresent data body.imageType dataOffset available bytesPerPixel pixelCount =
      some true := by
  cases body with
  | raw pixels =>
    have hdiv : pixelCount ≤ sizeMax / bytesPerPixel := by
      rw [Nat.le_div_iff_mul_le hbytes.1]
      refine Nat.le_trans (Nat.mul_le_mul (Nat.le_of_lt hlt) hbytes.2) ?_
      decide
    have hflat : pixels.flatten.length = pixels.length * bytesPerPixel :=
      Blocks.flatten_length hdepth
    have hcount : pixels.length = pixelCount := hcount
    rw [hcount] at hflat
    have htotal := congrArg List.length hdata
    rw [List.length_append, List.length_append, bytes, hflat] at htotal
    rw [tgaPixelsPresent, imageType, if_pos rfl, decide_eq_false (Nat.not_lt_of_le hdiv),
      decide_eq_false (by omega)]
    rfl
  | rle packets =>
    rw [tgaPixelsPresent, imageType, if_neg (by decide)]
    refine tgaPacketLoop_packets packets hdata hfront hextent hdepth hbytes ?_ ?_
    · rwa [Nat.zero_add]
    · exact Nat.lt_succ_of_le (Nat.le_of_eq hcount)

theorem exists_body {imageType : UInt8} {more : List UInt8} (himage : imageType = 2 ∨ imageType = 10)
    (hdata : data = front ++ more) (hfront : front.length = dataOffset)
    (hextent : dataOffset + available = data.length)
    (hbytes : 0 < bytesPerPixel ∧ bytesPerPixel ≤ 4)
    (h : tgaPixelsPresent data imageType dataOffset available bytesPerPixel pixelCount =
      some true) :
    ∃ body : TgaBody, ∃ rest, more = body.bytes ++ rest ∧ body.imageType = imageType ∧
      (∀ pixel ∈ body.pixels, pixel.length = bytesPerPixel) ∧ body.pixels.length = pixelCount := by
  have htotal := congrArg List.length hdata
  rw [List.length_append] at htotal
  rw [tgaPixelsPresent] at h
  rcases himage with rfl | rfl
  · rw [if_pos rfl] at h
    simp only [Option.some.injEq, Bool.not_eq_true', Bool.or_eq_false_iff,
      decide_eq_false_iff_not, Nat.not_lt] at h
    have hroom : pixelCount * bytesPerPixel ≤ more.length := by omega
    refine ⟨.raw (Blocks.cut bytesPerPixel pixelCount more),
      more.drop (pixelCount * bytesPerPixel), ?_, rfl,
      fun pixel hpixel => Blocks.length_of_mem_cut hroom hpixel, Blocks.cut_length _ _ _⟩
    rw [TgaBody.bytes, Blocks.flatten_cut, List.take_append_drop]
  · have hcursor : front.length = dataOffset + 0 := hfront
    rw [if_neg (by decide)] at h
    obtain ⟨packets, rest, hmore, hdepth, hcount⟩ :=
      exists_packets hdata hcursor hextent hbytes (Nat.zero_le _) h
    rw [Nat.zero_add] at hcount
    exact ⟨.rle packets, rest, hmore, rfl, hdepth, hcount⟩

theorem TgaBody.sources_read (body : TgaBody) (hdata : data = front ++ (body.bytes ++ rest))
    (hfront : front.length = info.pixels)
    (hdepth : ∀ pixel ∈ body.pixels, pixel.length = info.bytesPerPixel) :
    ReadsPixels data info.bytesPerPixel (body.sources info) body.pixels := by
  cases body with
  | raw pixels =>
    have hflat : pixels.flatten.length = pixels.length * info.bytesPerPixel :=
      Blocks.flatten_length hdepth
    have htotal := congrArg List.length hdata
    rw [List.length_append, List.length_append, bytes, hflat] at htotal
    refine List.forall₂_iff_get.mpr ⟨sources_length info (raw pixels), fun i hi hi' => ?_⟩
    have hle := Nat.mul_le_mul_right info.bytesPerPixel hi'
    rw [Nat.succ_mul, TgaBody.pixels] at hle
    simp only [List.get_eq_getElem, sources, List.getElem_map, List.getElem_range]
    refine ⟨by omega, ?_⟩
    rw [hdata, ← hfront, slice_append_left]
    exact Blocks.window hdepth rest hi'
  | rle packets => exact packetsSources_reads packets hdata hfront hdepth

theorem TgaBody.decodeWith_eq {σ : Type} (write : σ → Nat → Nat → Option σ) (body : TgaBody)
    (hdata : data = front ++ (body.bytes ++ rest)) (hfront : front.length = info.pixels)
    (himage : body.imageType = info.imageType)
    (hdepth : ∀ pixel ∈ body.pixels, pixel.length = info.bytesPerPixel)
    (hcount : body.pixels.length = info.pixelCount) (s : σ) :
    tgaDecodeWith write data info s = writeEach write 0 (body.sources info) s := by
  cases body with
  | raw pixels =>
    have hloop : Loop.forRangeM info.pixelCount (fun s i =>
        write s (0 + i) (info.pixels + i * info.bytesPerPixel)) s = _ :=
      forRangeM_eq_writeEach 0 info.pixelCount _ s
    simp only [Nat.zero_add] at hloop
    have himage : info.imageType = 2 := himage.symm
    rw [tgaDecodeWith, if_pos himage, hloop, ← hcount]
    rfl
  | rle packets =>
    have himage : info.imageType = 10 := himage.symm
    have hcursor : front.length = info.pixels + 0 := hfront
    rw [tgaDecodeWith, himage, if_neg (by decide)]
    refine tgaDecodeLoopWith_eq write packets hdata hcursor hdepth ?_ ?_ s
    · rwa [Nat.zero_add]
    · exact Nat.lt_succ_of_le (Nat.le_of_eq hcount)

theorem TgaInfo.Valid.exists_body (h : info.Valid data) : ∃ body : TgaBody, ∃ rest,
    data = data.take info.pixels ++ (body.bytes ++ rest) ∧ body.imageType = info.imageType ∧
      (∀ pixel ∈ body.pixels, pixel.length = info.bytesPerPixel) ∧
      body.pixels.length = info.pixelCount := by
  have hextent := h.extent
  have hbytes := h.bytesPerPixel
  have hfront : (data.take info.pixels).length = info.pixels := List.length_take_of_le (by omega)
  obtain ⟨body, rest, hmore, hbody⟩ := ChoonzMoba.exists_body h.imageType
    (List.take_append_drop info.pixels data).symm hfront hextent (by omega) h.present
  refine ⟨body, rest, ?_, hbody⟩
  rw [← hmore, List.take_append_drop]

theorem TgaInfo.Valid.decode_eq (h : info.Valid data) {body : TgaBody}
    (hdata : data = front ++ (body.bytes ++ rest)) (hfront : front.length = info.pixels)
    (himage : body.imageType = info.imageType)
    (hdepth : ∀ pixel ∈ body.pixels, pixel.length = info.bytesPerPixel)
    (hcount : body.pixels.length = info.pixelCount) (rgba8 : Nat → UInt8) :
    (if info.imageType = 2 then tgaDecodeRaw data info rgba8
      else tgaDecodeLoop data info (info.pixelCount + 1) rgba8 0 0) =
      some (info.place 0 body.pixels rgba8) := by
  rw [tgaDecode_eq_with, body.decodeWith_eq _ hdata hfront himage hdepth hcount]
  refine h.writeEach_eq (body.sources_read hdata hfront hdepth) ?_ rgba8
  rw [Nat.zero_add, hcount]

theorem tgaDecode_inspected {σ : Type} {bytes : Option (List UInt8)} {width height decoded : Nat}
    (h : tgaInspect bytes = some (some (width, height, decoded))) (alloc : Allocator σ)
    (state : σ) (fresh : Nat → UInt8) :
    ∃ pixels, tgaDecode bytes alloc state fresh =
      (memAlloc alloc state decoded memDefaultAlign).map fun r =>
        if r.1 = 0 then (none, r.2)
        else (some { width := width, height := height, address := r.1, rgba8 := pixels }, r.2) := by
  obtain ⟨r, hr, hvalid⟩ := inspectTga_total bytes
  rw [tgaInspect, hr, Option.map_some, Option.some.injEq] at h
  obtain ⟨info, hinfo, hsize⟩ := Option.bind_eq_some_iff.mp h
  obtain ⟨data, rfl, valid⟩ := hvalid info hinfo
  split at hsize
  · cases hsize
  · next hfits =>
    cases hsize
    obtain ⟨body, rest, hdata, himage, hdepth, hcount⟩ := valid.exists_body
    have hextent := valid.extent
    have hpixels := valid.decode_eq hdata (List.length_take_of_le (by omega)) himage hdepth hcount
      fresh
    refine ⟨info.place 0 body.pixels fresh, ?_⟩
    rw [tgaDecode]
    simp only [hr, hinfo, Option.bind_some, if_neg hfits, hpixels, Option.map_some]
    cases memAlloc alloc state (info.pixelCount * 4) memDefaultAlign with
    | none => rfl
    | some r =>
      rw [Option.bind_some, Option.map_some]
      split <;> rfl

end

end ChoonzMoba
