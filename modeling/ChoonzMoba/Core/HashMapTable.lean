import ChoonzMoba.Core.HashMap
import ChoonzMoba.Library.RobinHood
import Mathlib.Data.List.Perm.Basic

namespace ChoonzMoba

class LawfulHashMapKey (K : Type) [HashMapKey K] : Prop where
  refl : ∀ a : K, hashmapEq a a = true
  symm : ∀ a b : K, hashmapEq a b = true → hashmapEq b a = true
  trans : ∀ a b c : K, hashmapEq a b = true → hashmapEq b c = true → hashmapEq a c = true
  hash_eq : ∀ a b : K, hashmapEq a b = true → hashmapHash a = hashmapHash b

section

variable {K V : Type}

def HashMap.hashHome (m : HashMap K V) (h : UInt64) : Nat := h.toUInt32.toNat % m.cap.toNat

def HashMap.home (m : HashMap K V) (s : HashMapSlot K V) : Nat := m.hashHome s.hash

def HashMap.entries (m : HashMap K V) : List (HashMapSlot K V) :=
  RobinHood.entries m.cap.toNat m.slots

structure HashMap.Shaped (m : HashMap K V) : Prop where
  cap : ∃ k, m.cap.toNat = 2 ^ k
  mask : m.mask.toNat + 1 = m.cap.toNat

structure HashMap.SameShape (m t : HashMap K V) : Prop where
  address : t.address = m.address
  cap : t.cap = m.cap
  mask : t.mask = m.mask

theorem HashMap.SameShape.refl (m : HashMap K V) : m.SameShape m := ⟨rfl, rfl, rfl⟩

theorem HashMap.SameShape.trans {m t u : HashMap K V} (h : m.SameShape t) (h' : t.SameShape u) :
    m.SameShape u :=
  ⟨h'.address.trans h.address, h'.cap.trans h.cap, h'.mask.trans h.mask⟩

theorem HashMap.SameShape.shaped {m t : HashMap K V} (h : m.SameShape t) (hm : m.Shaped) :
    t.Shaped :=
  ⟨by rw [h.cap]; exact hm.cap, by rw [h.mask, h.cap]; exact hm.mask⟩

theorem HashMap.SameShape.home {m t : HashMap K V} (h : m.SameShape t) : t.home = m.home := by
  funext s
  rw [HashMap.home, HashMap.home, HashMap.hashHome, HashMap.hashHome, h.cap]

theorem HashMap.sameShape_setSlot (m : HashMap K V) (pos : UInt32) (s : Option (HashMapSlot K V)) :
    m.SameShape (m.setSlot pos s) :=
  ⟨rfl, rfl, rfl⟩

variable {m : HashMap K V}

theorem HashMap.Shaped.cap_pos (h : m.Shaped) : 0 < m.cap.toNat := by
  have hmask := h.mask
  omega

theorem HashMap.Shaped.land_mask (h : m.Shaped) (x : UInt32) :
    (x &&& m.mask).toNat = x.toNat % m.cap.toNat := by
  obtain ⟨k, hk⟩ := h.cap
  have hmask : m.mask.toNat = 2 ^ k - 1 := by
    have hmask := h.mask
    omega
  rw [UInt32.toNat_and, hmask, Nat.and_two_pow_sub_one_eq_mod, hk]

theorem HashMap.Shaped.cap_dvd (h : m.Shaped) : m.cap.toNat ∣ 2 ^ 32 := by
  obtain ⟨k, hk⟩ := h.cap
  have hlt := m.cap.toNat_lt
  rw [hk] at hlt ⊢
  exact Nat.pow_dvd_pow 2 (Nat.le_of_lt ((Nat.pow_lt_pow_iff_right (by decide)).mp hlt))

theorem HashMap.Shaped.home_toNat (h : m.Shaped) (s : HashMapSlot K V) :
    (s.hash.toUInt32 &&& m.mask).toNat = m.home s :=
  h.land_mask _

theorem HashMap.Shaped.hashHome_lt (h : m.Shaped) (hash : UInt64) :
    m.hashHome hash < m.cap.toNat :=
  Nat.mod_lt _ h.cap_pos

theorem HashMap.Shaped.home_lt (h : m.Shaped) (s : HashMapSlot K V) : m.home s < m.cap.toNat :=
  h.hashHome_lt s.hash

theorem HashMap.Shaped.next_toNat (h : m.Shaped) (pos : UInt32) :
    (m.next pos).toNat = RobinHood.next m.cap.toNat pos.toNat := by
  rw [HashMap.next, h.land_mask, UInt32.toNat_add, RobinHood.next, UInt32.toNat_one,
    Nat.mod_mod_of_dvd _ h.cap_dvd]

theorem HashMap.Shaped.dib_toNat (h : m.Shaped) (s : HashMapSlot K V) (pos : UInt32) :
    (m.dib s.hash pos).toNat = RobinHood.dist m.cap.toNat (m.home s) pos.toNat := by
  have hlt := h.home_lt s
  have hcap := m.cap.toNat_lt
  obtain ⟨d, hd⟩ := h.cap_dvd
  rw [HashMap.dib, h.land_mask, UInt32.toNat_sub, h.home_toNat, RobinHood.dist,
    Nat.mod_mod_of_dvd _ h.cap_dvd]
  obtain ⟨e, rfl⟩ : ∃ e, d = e + 1 := ⟨d - 1, by
    have hne : d ≠ 0 := by
      rintro rfl
      omega
    omega⟩
  rw [Nat.mul_add, Nat.mul_one] at hd
  rw [show 2 ^ 32 - m.home s + pos.toNat =
    pos.toNat + (m.cap.toNat - m.home s) + m.cap.toNat * e by omega, Nat.add_mul_mod_self_left]

theorem HashMap.entries_setSlot (m : HashMap K V) {pos : UInt32} (hpos : pos.toNat < m.cap.toNat)
    (x : Option (HashMapSlot K V)) :
    (m.setSlot pos x).entries.Perm (x.toList ++ (m.setSlot pos none).entries) :=
  RobinHood.entries_update hpos x

theorem HashMap.mem_entries {s : HashMapSlot K V} :
    s ∈ m.entries ↔ ∃ p < m.cap.toNat, m.slots p = some s :=
  RobinHood.mem_entries

variable {s : HashMapSlot K V} {pos dib : UInt32} {z : Nat}

theorem dib_succ (hdib : dib.toNat < m.cap.toNat) : (dib + 1).toNat = dib.toNat + 1 := by
  have hcap := m.cap.toNat_lt
  rw [UInt32.toNat_add, UInt32.toNat_one]
  omega

structure Search (m : HashMap K V) (hit : HashMapSlot K V → Prop) (a : Nat) (pos dib : UInt32) :
    Prop where
  probing : RobinHood.Probing m.cap.toNat m.home m.slots hit a pos.toNat
  dib : dib.toNat = RobinHood.dist m.cap.toNat a pos.toNat

variable {hit : HashMapSlot K V → Prop} {a : Nat}

theorem Search.start (shaped : m.Shaped) (hash : UInt64) :
    Search m hit (m.hashHome hash) (hash.toUInt32 &&& m.mask) 0 := by
  have hlt := shaped.hashHome_lt hash
  have hstart : (hash.toUInt32 &&& m.mask).toNat = m.hashHome hash := shaped.land_mask _
  refine ⟨?_, ?_⟩
  · rw [hstart]
    exact .start hlt
  · rw [hstart, RobinHood.dist_self hlt]
    rfl

theorem Search.next (h : Search m hit a pos dib) (shaped : m.Shaped) (ha : a < m.cap.toNat)
    (hs : m.slots pos.toNat = some s) (hmiss : ¬ hit s) (hrich : ¬ m.dib s.hash pos < dib)
    (hz : z < m.cap.toNat) (hempty : m.slots z = none) :
    Search m hit a (m.next pos) (dib + 1) := by
  have hle : RobinHood.dist m.cap.toNat a pos.toNat ≤
      RobinHood.dist m.cap.toNat (m.home s) pos.toNat := by
    rw [← h.dib, ← shaped.dib_toNat]
    exact Nat.le_of_not_lt fun hlt => hrich (UInt32.lt_iff_toNat_lt.mpr hlt)
  have hbound := RobinHood.dist_lt (n := m.cap.toNat) (a := a) h.probing.lt
  refine ⟨?_, ?_⟩
  · rw [shaped.next_toNat]
    exact h.probing.next ha hs hmiss hle hz hempty
  · rw [shaped.next_toNat, h.probing.next_dist ha hs hz hempty, dib_succ (by rw [h.dib]; exact hbound),
      h.dib]

theorem Search.poor (h : Search m hit a pos dib) (shaped : m.Shaped) (s : HashMapSlot K V)
    (hpoor : m.dib s.hash pos < dib) :
    RobinHood.dist m.cap.toNat (m.home s) pos.toNat <
      RobinHood.dist m.cap.toNat a pos.toNat := by
  rw [← h.dib, ← shaped.dib_toNat]
  exact UInt32.lt_iff_toNat_lt.mp hpoor

theorem Search.displaced {new : HashMapSlot K V} (h : Search m hit (m.home new) pos dib)
    (shaped : m.Shaped) (ordered : RobinHood.Ordered m.cap.toNat m.home m.slots)
    (hs : m.slots pos.toNat = some s) (hpoor : m.dib s.hash pos < dib) :
    Search (m.setSlot pos (some new)) (fun _ => False) (m.home s) (m.next pos)
      (m.dib s.hash pos + 1) := by
  have hlt := shaped.home_lt s
  obtain ⟨hdist, hprobing⟩ := h.probing.displaced ordered hlt hs (h.poor shaped s hpoor)
  have hbound := RobinHood.dist_lt (n := m.cap.toNat) (a := m.home s) h.probing.lt
  refine ⟨?_, ?_⟩
  · rw [shaped.next_toNat]
    exact hprobing
  · rw [dib_succ (by rw [shaped.dib_toNat]; exact hbound), shaped.dib_toNat, shaped.next_toNat]
    exact hdist.symm

theorem rounds_left (shaped : m.Shaped) (hpos : pos.toNat < m.cap.toNat)
    (hs : m.slots pos.toNat = some s) (hz : z < m.cap.toNat) (hempty : m.slots z = none)
    {fuel : Nat} (hfuel : RobinHood.dist m.cap.toNat pos.toNat z < fuel + 1) :
    RobinHood.dist m.cap.toNat (m.next pos).toNat z < fuel := by
  have hne : pos.toNat ≠ z := by
    rintro rfl
    rw [hempty] at hs
    cases hs
  have hstep := RobinHood.dist_step hpos hz hne
  rw [shaped.next_toNat]
  omega

theorem HashMap.entries_length_lt (m : HashMap K V) (new : HashMapSlot K V) (hz : z < m.cap.toNat)
    (hempty : m.slots z = none) : m.entries.length < m.cap.toNat := by
  have hfill := (RobinHood.entries_fill hz hempty new).length_eq
  have hle := RobinHood.entries_length_le (n := m.cap.toNat)
    (T := Function.update m.slots z (some new))
  rw [hfill, List.length_cons] at hle
  exact hle

theorem hashmapShiftLoop_spec {fuel : Nat} (shaped : m.Shaped)
    (ordered : RobinHood.Ordered m.cap.toNat m.home m.slots) (hpos : pos.toNat < m.cap.toNat)
    (hs : m.slots pos.toNat = some s) (hz : z < m.cap.toNat) (hempty : m.slots z = none)
    (hfuel : RobinHood.dist m.cap.toNat pos.toNat z < fuel) :
    ∃ t last, hashmapShiftLoop fuel m pos = some (t, last) ∧ m.SameShape t ∧ t.count = m.count ∧
      RobinHood.Ordered m.cap.toNat m.home (t.setSlot last none).slots ∧
      (t.setSlot last none).entries.Perm (m.setSlot pos none).entries := by
  induction fuel generalizing m pos s with
  | zero => cases hfuel
  | succ fuel ih =>
    have hnext := shaped.next_toNat pos
    rw [hashmapShiftLoop]
    cases hsn : m.slots (m.next pos).toNat with
    | none =>
      refine ⟨m, pos, rfl, .refl m, rfl, ordered.clear fun e he => ?_, .refl _⟩
      rw [← hnext, hsn] at he
      cases he
    | some sn =>
      dsimp only
      have hdib := shaped.dib_toNat sn (m.next pos)
      split
      · next hhome =>
        refine ⟨m, pos, rfl, .refl m, rfl, ordered.clear fun e he => ?_, .refl _⟩
        rw [← hnext, hsn] at he
        cases he
        rw [← hnext, ← hdib, hhome]
        rfl
      · next haway =>
        have hdist : RobinHood.dist m.cap.toNat (m.home sn) (RobinHood.next m.cap.toNat pos.toNat) ≠
            0 := by
          rw [← hnext, ← hdib]
          exact fun h => haway (UInt32.toNat_inj.mp h)
        have hne : pos.toNat ≠ (m.next pos).toNat := by
          intro heq
          have hback := RobinHood.dist_back (shaped.home_lt sn) hpos hdist
          rw [← hnext, ← heq] at hback
          omega
        have hzpos : z ≠ pos.toNat := by
          rintro rfl
          rw [hempty] at hs
          cases hs
        have hlt : (m.next pos).toNat < m.cap.toNat := by
          rw [hnext]
          exact RobinHood.next_lt hpos
        rw [hnext] at hsn
        obtain ⟨t, last, ht, hshape, hcount, hordered, hperm⟩ := ih
          ((m.sameShape_setSlot pos (some sn)).shaped shaped)
          (ordered.shift hpos (shaped.home_lt sn) hs hsn hdist) hlt
          (by rw [← hnext] at hsn; rw [← hsn]; exact Function.update_of_ne hne.symm _ _) hz
          (by rw [← hempty]; exact Function.update_of_ne hzpos _ _)
          (rounds_left shaped hpos hs hz hempty hfuel)
        rw [← hnext] at hsn
        exact ⟨t, last, ht, (m.sameShape_setSlot pos _).trans hshape, hcount, hordered,
          hperm.trans (RobinHood.entries_move hpos hlt hne hsn)⟩

end

section

variable {K V : Type} [HashMapKey K]

def SameKey (a b : HashMapSlot K V) : Prop := hashmapEq a.key b.key = true

structure HashMap.Table (m : HashMap K V) : Prop where
  shaped : m.Shaped
  ordered : RobinHood.Ordered m.cap.toNat m.home m.slots
  hashes : ∀ s ∈ m.entries, s.hash = hashmapHash s.key
  distinct : m.entries.Pairwise fun a b => ¬ SameKey a b
  count : m.count.toNat = m.entries.length

variable {m : HashMap K V} {s new : HashMapSlot K V} {pos dib : UInt32} {z a : Nat}

theorem SameKey.symm [LawfulHashMapKey K] {a b : HashMapSlot K V} (h : SameKey a b) :
    SameKey b a :=
  LawfulHashMapKey.symm _ _ h

theorem HashMap.Table.mem (_ : m.Table) (hpos : pos.toNat < m.cap.toNat)
    (hs : m.slots pos.toNat = some s) : s ∈ m.entries :=
  HashMap.mem_entries.mpr ⟨_, hpos, hs⟩

theorem hashmapLocate_spec [LawfulHashMapKey K] (table : m.Table) (hz : z < m.cap.toNat)
    (hempty : m.slots z = none) (key : K) (ha : a < m.cap.toNat)
    (hhome : ∀ s ∈ m.entries, hashmapEq s.key key = true → m.home s = a) {fuel : Nat}
    (search : Search m (fun s => hashmapEq s.key key = true ∧ m.home s = a) a pos dib)
    (hfuel : RobinHood.dist m.cap.toNat pos.toNat z < fuel) :
    (∃ p s, hashmapLocate m key (hashmapHash key) fuel pos dib = some (some (p, s)) ∧
      p.toNat < m.cap.toNat ∧ m.slots p.toNat = some s ∧ hashmapEq s.key key = true) ∨
    (hashmapLocate m key (hashmapHash key) fuel pos dib = some none ∧
      ∀ s ∈ m.entries, ¬ hashmapEq s.key key = true) := by
  have habsent : (∀ q < m.cap.toNat, ∀ e, m.slots q = some e →
      ¬ (hashmapEq e.key key = true ∧ m.home e = a)) →
      ∀ s ∈ m.entries, ¬ hashmapEq s.key key = true := by
    intro hnone s hs heq
    obtain ⟨q, hq, hsq⟩ := HashMap.mem_entries.mp hs
    exact hnone q hq s hsq ⟨heq, hhome s hs heq⟩
  induction fuel generalizing pos dib with
  | zero => cases hfuel
  | succ fuel ih =>
    have hpos := search.probing.lt
    rw [hashmapLocate]
    cases hs : m.slots pos.toNat with
    | none =>
      exact Or.inr ⟨rfl, habsent
        (search.probing.miss_of_empty table.ordered ha (fun _ h => h.2) hs)⟩
    | some s =>
      dsimp only
      split
      · next hhit => exact Or.inl ⟨pos, s, rfl, hpos, hs, hhit.2⟩
      · next hmiss =>
        have hno : ¬ hashmapEq s.key key = true := fun heq =>
          hmiss ⟨(table.hashes s (table.mem hpos hs)).trans (LawfulHashMapKey.hash_eq _ _ heq), heq⟩
        split
        · next hpoor =>
          exact Or.inr ⟨rfl, habsent (search.probing.miss_of_poor table.ordered ha
            (fun _ h => h.2) hs (search.poor table.shaped s hpoor))⟩
        · next hrich =>
          exact ih (search.next table.shaped ha hs (fun h => hno h.1) hrich hz hempty)
            (rounds_left table.shaped hpos hs hz hempty hfuel)

theorem hashmapLocate_start [LawfulHashMapKey K] (table : m.Table)
    (room : m.entries.length < m.cap.toNat) (key : K) :
    (∃ p s, hashmapLocate m key (hashmapHash key) m.cap.toNat
        ((hashmapHash key).toUInt32 &&& m.mask) 0 = some (some (p, s)) ∧
      p.toNat < m.cap.toNat ∧ m.slots p.toNat = some s ∧ hashmapEq s.key key = true) ∨
    (hashmapLocate m key (hashmapHash key) m.cap.toNat
        ((hashmapHash key).toUInt32 &&& m.mask) 0 = some none ∧
      ∀ s ∈ m.entries, ¬ hashmapEq s.key key = true) := by
  obtain ⟨z, hz, hempty⟩ := RobinHood.exists_empty room
  refine hashmapLocate_spec table hz hempty key (table.shaped.hashHome_lt _) (fun s hs heq => ?_)
    (.start table.shaped _) (RobinHood.dist_lt hz)
  rw [HashMap.home, table.hashes s hs, LawfulHashMapKey.hash_eq _ _ heq]

theorem distinct_perm [LawfulHashMapKey K] {l l' : List (HashMapSlot K V)} (h : l.Perm l') :
    l.Pairwise (fun a b => ¬ SameKey a b) ↔ l'.Pairwise fun a b => ¬ SameKey a b :=
  h.pairwise_iff fun hab hba => hab hba.symm

theorem HashMap.Table.fill [LawfulHashMapKey K] (table : m.Table)
    (hhash : new.hash = hashmapHash new.key) (hfresh : ∀ s ∈ m.entries, ¬ SameKey s new)
    (hpos : pos.toNat < m.cap.toNat) (hempty : m.slots pos.toNat = none)
    (hfits : RobinHood.Fits m.cap.toNat m.home m.slots pos.toNat
      (RobinHood.dist m.cap.toNat (m.home new) pos.toNat)) :
    HashMap.Table { m.setSlot pos (some new) with count := m.count + 1 } ∧
      (m.setSlot pos (some new)).entries.Perm (new :: m.entries) := by
  have hentries : (m.setSlot pos (some new)).entries.Perm (new :: m.entries) :=
    RobinHood.entries_fill hpos hempty new
  refine ⟨⟨⟨table.shaped.cap, table.shaped.mask⟩, table.ordered.fill hempty hfits, ?_, ?_, ?_⟩,
    hentries⟩
  · intro s hmem
    rcases List.mem_cons.mp (hentries.mem_iff.mp hmem) with rfl | hold
    · exact hhash
    · exact table.hashes s hold
  · refine (distinct_perm hentries).mpr (List.pairwise_cons.mpr ⟨fun s hs h => ?_, table.distinct⟩)
    exact hfresh s hs h.symm
  · have hlt := m.entries_length_lt new hpos hempty
    have hcap := m.cap.toNat_lt
    refine Eq.trans ?_ hentries.length_eq.symm
    rw [UInt32.toNat_add, table.count, UInt32.toNat_one, List.length_cons]
    omega

theorem HashMap.Table.swap [LawfulHashMapKey K] (table : m.Table)
    (hhash : new.hash = hashmapHash new.key) (hfresh : ∀ s ∈ m.entries, ¬ SameKey s new)
    (hpos : pos.toNat < m.cap.toNat) (hs : m.slots pos.toNat = some s)
    (hfits : RobinHood.Fits m.cap.toNat m.home m.slots pos.toNat
      (RobinHood.dist m.cap.toNat (m.home new) pos.toNat))
    (hpoor : RobinHood.dist m.cap.toNat (m.home s) pos.toNat <
      RobinHood.dist m.cap.toNat (m.home new) pos.toNat) :
    (m.setSlot pos (some new)).Table ∧
      (s :: (m.setSlot pos (some new)).entries).Perm (new :: m.entries) ∧
      ∀ e ∈ (m.setSlot pos (some new)).entries, ¬ SameKey e s := by
  have hsplit : m.entries.Perm (s :: (m.setSlot pos none).entries) :=
    RobinHood.entries_split hpos hs
  have hput : (m.setSlot pos (some new)).entries.Perm (new :: (m.setSlot pos none).entries) :=
    m.entries_setSlot hpos (some new)
  have hrest : ∀ e ∈ (m.setSlot pos none).entries, e ∈ m.entries := fun e he =>
    hsplit.mem_iff.mpr (List.mem_cons_of_mem s he)
  obtain ⟨hsrest, hdistinct⟩ := List.pairwise_cons.mp ((distinct_perm hsplit).mp table.distinct)
  refine ⟨⟨(m.sameShape_setSlot pos _).shaped table.shaped, table.ordered.swap hs hfits hpoor,
    ?_, ?_, ?_⟩, ?_, ?_⟩
  · intro e he
    rcases List.mem_cons.mp (hput.mem_iff.mp he) with rfl | hold
    · exact hhash
    · exact table.hashes e (hrest e hold)
  · exact (distinct_perm hput).mpr (List.pairwise_cons.mpr
      ⟨fun e he h => hfresh e (hrest e he) h.symm, hdistinct⟩)
  · exact table.count.trans (hsplit.length_eq.trans hput.length_eq.symm)
  · exact (hput.cons s).trans ((List.Perm.swap new s _).trans (hsplit.symm.cons new))
  · intro e he
    rcases List.mem_cons.mp (hput.mem_iff.mp he) with rfl | hold
    · exact fun h => hfresh s (table.mem hpos hs) h.symm
    · exact fun h => hsrest e hold h.symm

theorem HashMap.Table.update [LawfulHashMapKey K] (table : m.Table) (hpos : pos.toNat < m.cap.toNat)
    (hs : m.slots pos.toNat = some s) (val : V) :
    (m.setSlot pos (some { s with val := val })).Table := by
  have hsplit : m.entries.Perm (s :: (m.setSlot pos none).entries) :=
    RobinHood.entries_split hpos hs
  have hput := m.entries_setSlot hpos (some { s with val := val })
  obtain ⟨hsrest, hdistinct⟩ := List.pairwise_cons.mp ((distinct_perm hsplit).mp table.distinct)
  refine ⟨(m.sameShape_setSlot pos _).shaped table.shaped, table.ordered.replace hs rfl, ?_, ?_, ?_⟩
  · intro e he
    rcases List.mem_cons.mp (hput.mem_iff.mp he) with rfl | hold
    · exact table.hashes s (table.mem hpos hs)
    · exact table.hashes e (hsplit.mem_iff.mpr (List.mem_cons_of_mem s hold))
  · exact (distinct_perm hput).mpr (List.pairwise_cons.mpr ⟨hsrest, hdistinct⟩)
  · exact table.count.trans (hsplit.length_eq.trans hput.length_eq.symm)

inductive Stored (l : List (HashMapSlot K V)) (new : HashMapSlot K V) :
    List (HashMapSlot K V) → Prop
  | updated {s rest l'} : l.Perm (s :: rest) → SameKey s new →
      l'.Perm ({ s with val := new.val } :: rest) → Stored l new l'
  | inserted {l'} : (∀ s ∈ l, ¬ SameKey s new) → l'.Perm (new :: l) → Stored l new l'

theorem hashmapPlaceLoop_fresh [LawfulHashMapKey K] {fuel : Nat} (table : m.Table)
    (hhash : new.hash = hashmapHash new.key) (hfresh : ∀ s ∈ m.entries, ¬ SameKey s new)
    (hz : z < m.cap.toNat) (hempty : m.slots z = none)
    (search : Search m (fun _ => False) (m.home new) pos dib)
    (hfuel : RobinHood.dist m.cap.toNat pos.toNat z < fuel) :
    ∃ t, hashmapPlaceLoop fuel m new pos dib = some t ∧ t.Table ∧ m.SameShape t ∧
      t.entries.Perm (new :: m.entries) := by
  induction fuel generalizing m new pos dib with
  | zero => cases hfuel
  | succ fuel ih =>
    have hpos := search.probing.lt
    rw [hashmapPlaceLoop]
    cases hs : m.slots pos.toNat with
    | none =>
      obtain ⟨htable, hperm⟩ := table.fill hhash hfresh hpos hs search.probing.fits
      exact ⟨_, rfl, htable, ⟨rfl, rfl, rfl⟩, hperm⟩
    | some s =>
      have hmem := table.mem hpos hs
      have hfuel' := rounds_left table.shaped hpos hs hz hempty hfuel
      dsimp only
      rw [if_neg fun h => hfresh s hmem h.2]
      split
      · next hpoor =>
        have hlt := search.poor table.shaped s hpoor
        obtain ⟨htable, hperm, hfresh'⟩ :=
          table.swap hhash hfresh hpos hs search.probing.fits hlt
        have hne : z ≠ pos.toNat := by
          rintro rfl
          rw [hempty] at hs
          cases hs
        have hempty' : (m.setSlot pos (some new)).slots z = none := by
          rw [← hempty]
          exact Function.update_of_ne hne _ _
        obtain ⟨t, ht, htab, hshape, hperm'⟩ := ih htable (table.hashes s hmem) hfresh' hz hempty'
          (search.displaced table.shaped table.ordered hs hpoor) hfuel'
        exact ⟨t, ht, htab, (m.sameShape_setSlot pos _).trans hshape, hperm'.trans hperm⟩
      · next hrich =>
        exact ih table hhash hfresh hz hempty
          (search.next table.shaped (table.shaped.home_lt new) hs not_false hrich hz hempty) hfuel'

theorem hashmapPlaceLoop_update [LawfulHashMapKey K] {fuel : Nat} (table : m.Table)
    (hhash : new.hash = hashmapHash new.key) {old : HashMapSlot K V} (hold : old ∈ m.entries)
    (hsame : SameKey old new) (hz : z < m.cap.toNat) (hempty : m.slots z = none)
    (search : Search m (fun s => SameKey s new ∧ m.home s = m.home new) (m.home new) pos dib)
    (hfuel : RobinHood.dist m.cap.toNat pos.toNat z < fuel) :
    ∃ t s rest, hashmapPlaceLoop fuel m new pos dib = some t ∧ t.Table ∧ m.SameShape t ∧
      m.entries.Perm (s :: rest) ∧ SameKey s new ∧
      t.entries.Perm ({ s with val := new.val } :: rest) := by
  have hhit : ∀ s ∈ m.entries, SameKey s new → s.hash = new.hash := fun s hs h => by
    rw [table.hashes s hs, hhash]
    exact LawfulHashMapKey.hash_eq _ _ h
  have hpresent : ¬ ∀ q < m.cap.toNat, ∀ e, m.slots q = some e →
      ¬ (SameKey e new ∧ m.home e = m.home new) := by
    intro hnone
    obtain ⟨q, hq, hsq⟩ := HashMap.mem_entries.mp hold
    refine hnone q hq old hsq ⟨hsame, ?_⟩
    rw [HashMap.home, HashMap.home, hhit old hold hsame]
  induction fuel generalizing pos dib with
  | zero => cases hfuel
  | succ fuel ih =>
    have hpos := search.probing.lt
    have ha := table.shaped.home_lt new
    rw [hashmapPlaceLoop]
    cases hs : m.slots pos.toNat with
    | none =>
      exact absurd (search.probing.miss_of_empty table.ordered ha (fun _ h => h.2) hs) hpresent
    | some s =>
      have hmem := table.mem hpos hs
      dsimp only
      split
      · next heq =>
        exact ⟨_, s, _, rfl, table.update hpos hs new.val, ⟨rfl, rfl, rfl⟩,
          RobinHood.entries_split hpos hs, heq.2, m.entries_setSlot hpos _⟩
      · next hmiss =>
        have hno : ¬ SameKey s new := fun h => hmiss ⟨hhit s hmem h, h⟩
        split
        · next hpoor =>
          exact absurd (search.probing.miss_of_poor table.ordered ha (fun _ h => h.2) hs
            (search.poor table.shaped s hpoor)) hpresent
        · next hrich =>
          exact ih (search.next table.shaped ha hs (fun h => hno h.1) hrich hz hempty)
            (rounds_left table.shaped hpos hs hz hempty hfuel)

theorem hashmapPlace_spec [LawfulHashMapKey K] (table : m.Table)
    (room : m.entries.length < m.cap.toNat) (hhash : new.hash = hashmapHash new.key) :
    ∃ t, hashmapPlace m new = some t ∧ t.Table ∧ m.SameShape t ∧
      Stored m.entries new t.entries := by
  obtain ⟨z, hz, hempty⟩ := RobinHood.exists_empty room
  have hfuel : RobinHood.dist m.cap.toNat (new.hash.toUInt32 &&& m.mask).toNat z < m.cap.toNat :=
    RobinHood.dist_lt hz
  by_cases hold : ∃ old ∈ m.entries, SameKey old new
  · obtain ⟨old, hmem, hsame⟩ := hold
    obtain ⟨t, s, rest, ht, htable, hshape, hperm, hs, hperm'⟩ :=
      hashmapPlaceLoop_update table hhash hmem hsame hz hempty (.start table.shaped new.hash) hfuel
    exact ⟨t, ht, htable, hshape, .updated hperm hs hperm'⟩
  · have hfresh : ∀ s ∈ m.entries, ¬ SameKey s new := fun s hs h => hold ⟨s, hs, h⟩
    obtain ⟨t, ht, htable, hshape, hperm⟩ :=
      hashmapPlaceLoop_fresh table hhash hfresh hz hempty (.start table.shaped new.hash) hfuel
    exact ⟨t, ht, htable, hshape, .inserted hfresh hperm⟩

end

end ChoonzMoba
