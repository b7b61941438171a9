import ChoonzMoba.Core.AllocatorSpec
import ChoonzMoba.Core.Str
import ChoonzMoba.Library.Attempt

open Objects Records Regions

namespace ChoonzMoba

variable {σ : Type}

def Str.buffer (s : Str) : Region := ⟨s.data, s.data + s.cap.toNat⟩

def Str.content (s : Str) (h : Heap σ) : List UInt8 := read h.memory s.data s.len.toNat

def StrView.content (v : StrView) (h : Heap σ) : List UInt8 := read h.memory v.data v.len.toNat

structure Str.Valid (h : Heap σ) (s : Str) : Prop where
  len_le : s.len.toNat ≤ s.cap.toNat
  buffer : s.buffer ∈ h.blocks ∨ s.data = 0 ∧ s.cap = 0

/-- The bytes of the view lie among the string's own first `len`, or in another live object. -/
inductive StrView.Readable (h : Heap σ) (s : Str) (v : StrView) : Prop
  | own : s.data ≤ v.data → v.data + v.len.toNat ≤ s.data + s.len.toNat → Readable h s v
  | external {r : Region} :
      r ∈ h.objects → r ≠ s.buffer → Inside r v.data v.len.toNat → Readable h s v
  | empty : v.len = 0 → Readable h s v

inductive StrRefused (al : Allocator (Heap σ)) (s : Str) (n : UInt32) (h : Heap σ) :
    StrStop → Prop
  | capacity : s.cap < n → 0xFFFFFFFF < strGrown s.cap n →
      StrRefused al s n h (.ensure "Str capacity overflow")
  | null {h' : Heap σ} : s.cap < n →
      memAlloc al h (strGrown s.cap n).toNat 1 = some (0, h') →
      StrRefused al s n h (.ensure "str allocation failed")
  | allocator : s.cap < n → memAlloc al h (strGrown s.cap n).toNat 1 = none →
      StrRefused al s n h .allocator

structure StrHolds (Good : Heap σ → Prop) (s : Str) (h : Heap σ) (bytes : List UInt8)
    (r : Str × Heap σ) : Prop where
  content : r.1.content r.2 = bytes
  valid : r.1.Valid r.2
  wf : r.2.Wf uintptrMax
  good : Good r.2
  others : ∀ o ∈ h.objects, o ≠ s.buffer →
    o ∈ r.2.objects ∧ o ≠ r.1.buffer ∧ SameIn o h.memory r.2.memory

theorem le_strGrown (cap n : UInt32) : n.toNat ≤ (strGrown cap n).toNat := by
  have hraise (d : UInt64) : n.toUInt64 ≤ if d < n.toUInt64 then n.toUInt64 else d := by
    split
    · exact UInt64.le_refl _
    · next hle => exact UInt64.not_lt.mp hle
  rw [← UInt32.toNat_toUInt64, ← UInt64.le_iff_toNat_le]
  exact hraise _

theorem StrView.len_pos {v : StrView} (hlen : v.len ≠ 0) : 0 < v.len.toNat :=
  Nat.pos_of_ne_zero fun hzero => hlen (UInt32.toNat_inj.mp hzero)

theorem Str.inside_buffer (s : Str) {offset size : Nat} (hfit : offset + size ≤ s.cap.toNat) :
    Inside s.buffer (s.data + offset) size := by
  refine ⟨Nat.le_add_right s.data offset, ?_⟩
  rw [Nat.add_assoc]
  exact Nat.add_le_add_left hfit s.data

section Alias

variable {s : Str} {v : StrView} {h : Heap σ}

theorem Str.Valid.bounds (valid : s.Valid h) (wf : h.Wf uintptrMax) (hcap : s.cap ≠ 0) :
    0 < s.data ∧ s.data + s.cap.toNat ≤ uintptrMax := by
  rcases valid.buffer with hblock | ⟨-, hnone⟩
  · obtain ⟨hpos, -, hstop⟩ := wf.bounds s.buffer (Heap.mem_of_block hblock)
    exact ⟨hpos, hstop⟩
  · exact absurd hnone hcap

theorem Str.Valid.len_eq_zero (valid : s.Valid h) (wf : h.Wf uintptrMax) (hdata : s.data = 0) :
    s.len = 0 := by
  rcases Classical.em (s.cap = 0) with hcap | hcap
  · have hle := valid.len_le
    rw [hcap] at hle
    exact UInt32.toNat_inj.mp (Nat.le_zero.mp hle)
  · exact absurd hdata (Nat.ne_of_gt (valid.bounds wf hcap).1)

theorem strAliasOffset_own (wf : h.Wf uintptrMax) (valid : s.Valid h) (hlen : v.len ≠ 0)
    (hstart : s.data ≤ v.data) (hstop : v.data + v.len.toNat ≤ s.data + s.len.toNat) :
    ∃ k, strAliasOffset s v = some k ∧ v.data = s.data + k.toNat := by
  have hpos := v.len_pos hlen
  have hle := valid.len_le
  have hcap : s.cap ≠ 0 := by
    rintro hzero
    rw [hzero, UInt32.toNat_zero] at hle
    omega
  obtain ⟨hdata, hlimit⟩ := valid.bounds wf hcap
  have hoffset : v.data - s.data < 2 ^ 32 := by
    have := s.len.toNat_lt
    omega
  refine ⟨UInt32.ofNat (v.data - s.data), ?_, ?_⟩
  · rw [strAliasOffset, if_neg (by omega), if_neg (by omega), if_neg (by omega)]
  · rw [UInt32.toNat_ofNat_of_lt' hoffset]
    omega

theorem strAliasOffset_external (wf : h.Wf uintptrMax) (valid : s.Valid h) (hlen : v.len ≠ 0)
    {r : Region} (hr : r ∈ h.objects) (hne : r ≠ s.buffer) (hin : Inside r v.data v.len.toNat) :
    strAliasOffset s v = none := by
  have hpos := v.len_pos hlen
  obtain ⟨hstart, hstop⟩ := hin
  rcases valid.buffer with hblock | ⟨hdata, -⟩
  · have hapart : r.stop ≤ s.data ∨ s.data + s.cap.toNat ≤ r.start :=
      (wf.eq_or_disjoint hr (Heap.mem_of_block hblock)).resolve_left hne
    unfold strAliasOffset
    split
    · rfl
    split
    · rfl
    rw [if_pos (by omega)]
  · rw [strAliasOffset, if_pos (Or.inl hdata)]

end Alias

section Reserve

variable {al : Allocator (Heap σ)} {Good : Heap σ → Prop} {s : Str} {n : UInt32} {h h' : Heap σ}
  {nd : Nat}

theorem StrHolds.unchanged (good : Good h) (wf : h.Wf uintptrMax) (valid : s.Valid h) :
    StrHolds Good s h (s.content h) (s, h) :=
  ⟨rfl, valid, wf, good, fun o ho hne => ⟨ho, hne, SameIn.refl o h.memory⟩⟩

theorem StrHolds.first (ha : h.Allocates uintptrMax nd n.toNat h') (good : Good h')
    (wf : h.Wf uintptrMax) (hnd : nd ≠ 0) (hpos : 0 < n.toNat) (hlen : s.len = 0) :
    StrHolds Good s h (s.content h) ({ s with data := nd, cap := n }, h') := by
  refine ⟨?_, ⟨?_, Or.inl ha.new⟩, ha.wf wf (Nat.pos_of_ne_zero hnd) hpos, good,
    fun o ho _ => ⟨ha.mem ho, ha.ne wf ho, ha.kept o ho⟩⟩
  · simp only [Str.content, hlen, UInt32.toNat_zero]
    rfl
  · simp only [hlen, UInt32.toNat_zero, Nat.zero_le]

theorem StrHolds.moved (hr : h.Relocates uintptrMax s.buffer s.len.toNat nd n.toNat h')
    (good : Good h') (valid : s.Valid h) (hn : s.cap < n) :
    StrHolds Good s h (s.content h) ({ s with data := nd, cap := n }, h') :=
  ⟨hr.copied, ⟨Nat.le_trans valid.len_le (Nat.le_of_lt (UInt32.lt_iff_toNat_lt.mp hn)),
    Or.inl hr.mem⟩, hr.wf, good, hr.others⟩

theorem StrHolds.of_alloc (honest : al.Honest Good) (ha : h.Allocates uintptrMax nd n.toNat h')
    (good : Good h') (wf : h.Wf uintptrMax) (hnd : nd ≠ 0) (valid : s.Valid h)
    (hblock : s.buffer ∈ h.blocks) (hn : s.cap < n) :
    ∃ h₁ h₂, h'.copy nd s.data s.len.toNat = some h₁ ∧
      memFree al h₁ s.data s.cap.toNat = some h₂ ∧
      StrHolds Good s h (s.content h) ({ s with data := nd, cap := n }, h₂) := by
  have hcap : s.cap.toNat < n.toNat := UInt32.lt_iff_toNat_lt.mp hn
  have hpos : 0 < n.toNat := Nat.zero_lt_of_lt hcap
  have hsize : s.len.toNat ≤ n.toNat := Nat.le_trans valid.len_le (Nat.le_of_lt hcap)
  have hfit : Inside s.buffer s.data s.len.toNat :=
    ⟨Nat.le_refl s.data, Nat.add_le_add_left valid.len_le s.data⟩
  have hlength : (read h'.memory s.data s.len.toNat).length = s.len.toNat := read_length _ _ _
  have hgood : Good (h'.store nd (read h'.memory s.data s.len.toNat)) :=
    honest.write h' _ nd _ good (Heap.mem_of_block ha.new)
      ⟨Nat.le_refl nd, Nat.add_le_add_left (hlength.symm ▸ hsize) nd⟩
  have hmem : s.buffer ∈ (h'.store nd (read h'.memory s.data s.len.toNat)).blocks :=
    ha.mem_blocks hblock
  obtain ⟨h₂, hfree, hf, good₂⟩ := honest.free _ s.buffer hgood hmem
  have hrelocates := ha.relocates wf (Nat.pos_of_ne_zero hnd) hpos hblock hfit hsize hf
  refine ⟨_, h₂, ha.copy hblock hfit hsize, ?_, .moved hrelocates good₂ valid hn⟩
  rwa [Str.buffer, Nat.add_sub_cancel_left] at hfree

theorem strRelocate_spec (honest : al.Honest Good) (good : Good h) (wf : h.Wf uintptrMax)
    (valid : s.Valid h) (hn : s.cap < n) :
    Attempt
      (fun stop => memAlloc al h n.toNat 1 = none ∧ stop = .allocator ∨
        (∃ h', memAlloc al h n.toNat 1 = some (0, h')) ∧ stop = .ensure "str allocation failed")
      (fun r => StrHolds Good s h (s.content h) r ∧ r.1.len = s.len ∧ r.1.cap = n)
      (strRelocate al s n h) := by
  have hpos : 0 < n.toNat := Nat.zero_lt_of_lt (UInt32.lt_iff_toNat_lt.mp hn)
  unfold strRelocate
  cases halloc : memAlloc al h n.toNat 1 with
  | none => exact .error (Or.inl ⟨rfl, rfl⟩)
  | some r =>
    obtain ⟨nd, h'⟩ := r
    dsimp only [orStop, Except.bind, bind]
    split
    · next hnull =>
      subst hnull
      exact .error (Or.inr ⟨⟨h', rfl⟩, rfl⟩)
    next hnd =>
    obtain ⟨ha, good'⟩ := honest.alloc h _ nd h' good hpos halloc hnd
    split
    · next hdata =>
      exact .ok ⟨.first ha good' wf hnd hpos (valid.len_eq_zero wf hdata), rfl, rfl⟩
    · next hdata =>
      have hblock : s.buffer ∈ h.blocks := valid.buffer.resolve_right fun hnone => hdata hnone.1
      obtain ⟨h₁, h₂, hcopy, hfree, hholds⟩ :=
        StrHolds.of_alloc honest ha good' wf hnd valid hblock hn
      rw [hcopy]
      dsimp only
      rw [hfree]
      exact .ok ⟨hholds, rfl, rfl⟩

theorem strReserve_spec (honest : al.Honest Good) (good : Good h) (wf : h.Wf uintptrMax)
    (valid : s.Valid h) :
    Attempt (StrRefused al s n h)
      (fun r => StrHolds Good s h (s.content h) r ∧ r.1.len = s.len ∧ n ≤ r.1.cap)
      (strReserve al s n h) := by
  unfold strReserve
  split
  · next hle => exact .ok ⟨.unchanged good wf valid, rfl, hle⟩
  next hgt =>
  have hn : s.cap < n := UInt32.not_le.mp hgt
  split
  · next hover => exact .error (.capacity hn hover)
  next hfit =>
  have hnc : (strGrown s.cap n).toUInt32.toNat = (strGrown s.cap n).toNat := by
    rw [UInt64.toNat_toUInt32]
    exact Nat.mod_eq_of_lt (Nat.lt_succ_of_le (UInt64.le_iff_toNat_le.mp (UInt64.not_lt.mp hfit)))
  have hgrown : n ≤ (strGrown s.cap n).toUInt32 := by
    rw [UInt32.le_iff_toNat_le, hnc]
    exact le_strGrown s.cap n
  have hgrow := strRelocate_spec honest good wf valid (UInt32.lt_of_lt_of_le hn hgrown)
  rw [hnc] at hgrow
  refine hgrow.imp ?_ fun r ⟨hholds, hlen, hcap⟩ => ⟨hholds, hlen, hcap ▸ hgrown⟩
  rintro stop (⟨hnone, rfl⟩ | ⟨⟨h', hnull⟩, rfl⟩)
  · exact .allocator hn hnone
  · exact .null hn hnull

end Reserve

section Copy

variable {Good : Heap σ → Prop} {s s₁ : Str} {v : StrView} {h h₁ : Heap σ} {old bytes : List UInt8}
  {offset n : UInt32}

theorem StrHolds.read_eq (hr : StrHolds Good s h (s.content h) (s₁, h₁)) (hlen : s₁.len = s.len)
    {k m : Nat} (hfit : k + m ≤ s.len.toNat) :
    read h₁.memory (s₁.data + k) m = read h.memory (s.data + k) m := by
  have hsame := hr.content
  rw [Str.content, hlen] at hsame
  exact read_part hsame hfit

theorem strCopy_own (hr : StrHolds Good s h (s.content h) (s₁, h₁)) (hlen : s₁.len = s.len)
    (hblock : s₁.buffer ∈ h₁.blocks) (hcap : offset.toNat + v.len.toNat ≤ s₁.cap.toNat)
    {k : UInt32} (hdata : v.data = s.data + k.toNat) (hk : k.toNat + v.len.toNat ≤ s.len.toNat) :
    h₁.move (s₁.data + offset.toNat) (s₁.data + k.toNat) v.len.toNat =
      some (h₁.store (s₁.data + offset.toNat) (v.content h)) := by
  have hmem : s₁.buffer ∈ h₁.objects := Heap.mem_of_block hblock
  have hk' : k.toNat + v.len.toNat ≤ s₁.cap.toNat :=
    Nat.le_trans (hlen ▸ hk) hr.valid.len_le
  rw [Heap.move_eq ⟨_, hmem, s₁.inside_buffer hcap⟩ ⟨_, hmem, s₁.inside_buffer hk'⟩,
    hr.read_eq hlen hk, StrView.content, hdata]

theorem strCopy_external (hr : StrHolds Good s h old (s₁, h₁))
    (hblock : s₁.buffer ∈ h₁.blocks) (hcap : offset.toNat + v.len.toNat ≤ s₁.cap.toNat)
    {r : Region} (hmem : r ∈ h.objects) (hne : r ≠ s.buffer) (hin : Inside r v.data v.len.toNat) :
    h₁.copy (s₁.data + offset.toNat) v.data v.len.toNat =
      some (h₁.store (s₁.data + offset.toNat) (v.content h)) := by
  obtain ⟨hmem₁, hne₁, hsame⟩ := hr.others r hmem hne
  have hbuffer : s₁.buffer ∈ h₁.objects := Heap.mem_of_block hblock
  have hapart := (hr.wf.eq_or_disjoint hbuffer hmem₁).resolve_left (Ne.symm hne₁)
  rw [Heap.copy_eq hbuffer hmem₁ hapart (s₁.inside_buffer hcap) hin, hsame.read hin,
    StrView.content]

theorem strCopy_spec (wf : h.Wf uintptrMax) (valid : s.Valid h) (hv : v.Readable h s)
    (hr : StrHolds Good s h (s.content h) (s₁, h₁)) (hlen : s₁.len = s.len)
    (hcap : offset.toNat + v.len.toNat ≤ s₁.cap.toNat) :
    strCopy s₁ offset v (strAliasOffset s v) h₁ =
      .ok (h₁.store (s₁.data + offset.toNat) (v.content h)) := by
  unfold strCopy
  split
  · next hzero =>
    have hnil : v.content h = [] := by
      rw [StrView.content, hzero]
      rfl
    rw [hnil, Heap.store_nil]
  next hne =>
  have hpos := v.len_pos hne
  have hblock : s₁.buffer ∈ h₁.blocks := by
    refine hr.valid.buffer.resolve_right fun ⟨_, hnone⟩ => ?_
    rw [hnone, UInt32.toNat_zero] at hcap
    omega
  cases hv with
  | own hstart hstop =>
    obtain ⟨k, hk, hdata⟩ := strAliasOffset_own wf valid hne hstart hstop
    rw [hk]
    dsimp only
    rw [strCopy_own hr hlen hblock hcap hdata (by omega)]
    rfl
  | external hmem hother hin =>
    rw [strAliasOffset_external wf valid hne hmem hother hin]
    dsimp only
    rw [strCopy_external hr hblock hcap hmem hother hin]
    rfl
  | empty hzero => exact absurd hzero hne

theorem StrHolds.store {al : Allocator (Heap σ)} (honest : al.Honest Good)
    (hr : StrHolds Good s h old (s₁, h₁)) (hn : n.toNat = offset.toNat + bytes.length)
    (hcap : n.toNat ≤ s₁.cap.toNat) :
    StrHolds Good s h (read h₁.memory s₁.data offset.toNat ++ bytes)
      ({ s₁ with len := n }, h₁.store (s₁.data + offset.toNat) bytes) := by
  have hin : Inside s₁.buffer (s₁.data + offset.toNat) bytes.length :=
    s₁.inside_buffer (hn ▸ hcap)
  have hlive : bytes = [] ∨ s₁.buffer ∈ h₁.objects := by
    rcases hr.valid.buffer with hblock | ⟨-, hnone⟩
    · exact Or.inr (Heap.mem_of_block hblock)
    · refine Or.inl (List.eq_nil_of_length_eq_zero ?_)
      rw [hnone, UInt32.toNat_zero] at hcap
      omega
  refine ⟨?_, ⟨hcap, hr.valid.buffer⟩, hr.wf.store _ _, ?_, fun o ho hne => ?_⟩
  · have hfront : read (h₁.store (s₁.data + offset.toNat) bytes).memory s₁.data offset.toNat =
        read h₁.memory s₁.data offset.toNat :=
      read_congr fun i _ hstop => write_outside h₁.memory (Or.inl hstop)
    rw [Str.content, hn, read_add, hfront]
    exact congrArg _ (read_write h₁.memory (s₁.data + offset.toNat) bytes)
  · rcases hlive with rfl | hmem
    · rw [Heap.store_nil]
      exact hr.good
    · exact honest.write h₁ _ _ bytes hr.good hmem hin
  · obtain ⟨hmem, hother, hsame⟩ := hr.others o ho hne
    refine ⟨hmem, hother, hsame.trans ?_⟩
    rcases hlive with rfl | hbuffer
    · rw [Heap.store_nil]
      exact SameIn.refl o _
    · exact sameIn_write _ hin ((hr.wf.eq_or_disjoint hbuffer hmem).resolve_left (Ne.symm hother))

theorem strFinish_spec {al : Allocator (Heap σ)} (honest : al.Honest Good) (wf : h.Wf uintptrMax)
    (valid : s.Valid h) (hv : v.Readable h s) (hr : StrHolds Good s h (s.content h) (s₁, h₁))
    (hlen : s₁.len = s.len) (hcap : n ≤ s₁.cap) (hoffset : offset ≤ s.len)
    (hn : n.toNat = offset.toNat + v.len.toNat) {E : StrStop → Prop} :
    Attempt E (StrHolds Good s h (read h.memory s.data offset.toNat ++ v.content h)) (do
      let h' ← strCopy s₁ offset v (strAliasOffset s v) h₁
      .ok ({ s₁ with len := n }, h')) := by
  have hcap' : n.toNat ≤ s₁.cap.toNat := UInt32.le_iff_toNat_le.mp hcap
  have hlength : (v.content h).length = v.len.toNat := read_length _ _ _
  have hfront : read h₁.memory s₁.data offset.toNat = read h.memory s.data offset.toNat :=
    hr.read_eq hlen (k := 0) ((Nat.zero_add _).trans_le (UInt32.le_iff_toNat_le.mp hoffset))
  have hstore := hr.store honest (hn.trans (congrArg _ hlength.symm)) hcap'
  rw [hfront] at hstore
  rw [strCopy_spec wf valid hv hr hlen (hn ▸ hcap')]
  exact .ok hstore

end Copy

section Operations

variable {al : Allocator (Heap σ)} {Good : Heap σ → Prop} {s : Str} {v : StrView} {h : Heap σ}

theorem strSet_spec (honest : al.Honest Good) (good : Good h) (wf : h.Wf uintptrMax)
    (valid : s.Valid h) (hv : v.Readable h s) :
    Attempt (StrRefused al s v.len h) (StrHolds Good s h (v.content h)) (strSet al s v h) := by
  refine (strReserve_spec honest good wf valid).bind ?_
  rintro ⟨s₁, h₁⟩ ⟨hr, hlen, hcap⟩
  exact strFinish_spec honest wf valid hv hr hlen hcap UInt32.zero_le (Nat.zero_add _).symm

theorem toNat_widened_add (a b : UInt32) : (a.toUInt64 + b.toUInt64).toNat = a.toNat + b.toNat := by
  have ha := a.toNat_lt
  have hb := b.toNat_lt
  rw [UInt64.toNat_add, UInt32.toNat_toUInt64, UInt32.toNat_toUInt64]
  exact Nat.mod_eq_of_lt (by omega)

theorem strAppend_overflow (hover : 2 ^ 32 ≤ s.len.toNat + v.len.toNat) :
    strAppend al s v h = .error (.ensure "Str length overflow") := by
  refine if_pos (UInt64.lt_iff_toNat_lt.mpr ?_)
  rw [toNat_widened_add]
  exact hover

theorem strAppend_spec (honest : al.Honest Good) (good : Good h) (wf : h.Wf uintptrMax)
    (valid : s.Valid h) (hv : v.Readable h s) (hfit : s.len.toNat + v.len.toNat < 2 ^ 32) :
    Attempt (StrRefused al s (s.len + v.len) h) (StrHolds Good s h (s.content h ++ v.content h))
      (strAppend al s v h) := by
  have hneed : (s.len + v.len).toNat = s.len.toNat + v.len.toNat := by
    rw [UInt32.toNat_add]
    exact Nat.mod_eq_of_lt hfit
  have hnarrow : (s.len.toUInt64 + v.len.toUInt64).toUInt32 = s.len + v.len := by
    rw [UInt64.toUInt32_add, UInt32.toUInt32_toUInt64, UInt32.toUInt32_toUInt64]
  have hsum : ¬ 0xFFFFFFFF < s.len.toUInt64 + v.len.toUInt64 := by
    rw [UInt64.lt_iff_toNat_lt, toNat_widened_add]
    exact Nat.not_lt.mpr (Nat.le_of_lt_succ hfit)
  unfold strAppend
  dsimp only
  rw [if_neg hsum, hnarrow]
  refine (strReserve_spec honest good wf valid).bind ?_
  rintro ⟨s₁, h₁⟩ ⟨hr, hlen, hcap⟩
  dsimp only at hlen ⊢
  rw [hlen]
  exact strFinish_spec honest wf valid hv hr hlen hcap (UInt32.le_refl s.len) hneed

end Operations

theorem str_tolerates_alias (al : Allocator (Heap σ)) {Good : Heap σ → Prop}
    (honest : al.Honest Good) {h : Heap σ} (good : Good h) (wf : h.Wf uintptrMax)
    {s : Str} (valid : s.Valid h) {v : StrView} (hv : v.Readable h s) :
    Attempt (StrRefused al s v.len h) (StrHolds Good s h (v.content h)) (strSet al s v h) ∧
    (2 ^ 32 ≤ s.len.toNat + v.len.toNat →
      strAppend al s v h = .error (.ensure "Str length overflow")) ∧
    (s.len.toNat + v.len.toNat < 2 ^ 32 →
      Attempt (StrRefused al s (s.len + v.len) h) (StrHolds Good s h (s.content h ++ v.content h))
        (strAppend al s v h)) :=
  ⟨strSet_spec honest good wf valid hv, strAppend_overflow,
    strAppend_spec honest good wf valid hv⟩

def textBytes (text : String) : List UInt8 := text.toList.map fun c => UInt8.ofNat c.toNat

def poisonHeap : Heap Nat :=
  { memory := write (fun _ => 0) 4096 (textBytes "0123456789abcdef")
    blocks := [⟨4096, 4112⟩], foreign := [], state := 1 }

theorem poisonHeap_good : PoisonGood 4096 poisonHeap where
  wf := ⟨List.pairwise_singleton _ _, by decide +kernel⟩
  used := by decide
  foreign := fun _ hr => by cases hr

theorem str_tolerates_alias_poison :
    ∃ r, strAppend (poisonAllocator 4096) ⟨4096, 16, 16⟩ ⟨4100, 8⟩ poisonHeap = .ok r ∧
      r.1.content r.2 = textBytes "0123456789abcdef456789ab" := by
  obtain ⟨-, -, happend⟩ := str_tolerates_alias (poisonAllocator 4096) (poison_honest (by decide))
    poisonHeap_good poisonHeap_good.wf (s := ⟨4096, 16, 16⟩) ⟨by decide, Or.inl (by decide)⟩
    (v := ⟨4100, 8⟩) (.own (by decide) (by decide))
  obtain ⟨r, hr, hholds⟩ := (happend (by decide)).exists_ok fun stop hstop => by
    cases hstop with
    | capacity _ hover => exact absurd hover (by decide)
    | null _ hnull => cases hnull
    | allocator _ hnone => cases hnone
  exact ⟨r, hr, hholds.content.trans (by decide)⟩

end ChoonzMoba
