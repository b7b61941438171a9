import Mathlib.Data.List.Basic
import Mathlib.Tactic.Common

/-- A cursor over an input: what is left of it, and how to step over a part of it. -/
structure Source (σ β : Type) where
  Ready : σ → Prop
  rest : σ → List β
  skip : σ → Nat → σ
  ready_skip : ∀ {s n}, Ready s → n ≤ (rest s).length → Ready (skip s n)
  rest_skip : ∀ {s n}, Ready s → n ≤ (rest s).length → rest (skip s n) = (rest s).drop n
  skip_zero : ∀ s, skip s 0 = s
  skip_skip : ∀ s m n, skip (skip s m) n = skip s (m + n)

namespace Source

variable {σ β ε α γ : Type} {src : Source σ β}

/-- The reader accepts exactly the encodings of valid values, and takes nothing more. -/
def Reads (src : Source σ β) (read : StateT σ (Except ε) α) (encode : α → List β)
    (Valid : α → Prop) : Prop :=
  ∀ s, src.Ready s → ∀ a t, read.run s = .ok (a, t) ↔
    Valid a ∧ encode a <+: src.rest s ∧ t = src.skip s (encode a).length

theorem Reads.of_append {read : StateT σ (Except ε) α} {encode : α → List β} {Valid : α → Prop}
    (h : src.Reads read encode Valid) {s : σ} (hs : src.Ready s) {a : α} (ha : Valid a)
    {more : List β} (hrest : src.rest s = encode a ++ more) :
    ∃ t, read.run s = .ok (a, t) ∧ src.Ready t ∧ src.rest t = more := by
  have hlen : (encode a).length ≤ (src.rest s).length := by rw [hrest, List.length_append]; omega
  refine ⟨_, (h s hs a _).mpr ⟨ha, ⟨more, hrest.symm⟩, rfl⟩, src.ready_skip hs hlen, ?_⟩
  rw [src.rest_skip hs hlen, hrest, List.drop_left]

theorem Reads.split {read : StateT σ (Except ε) α} {encode : α → List β} {Valid : α → Prop}
    (h : src.Reads read encode Valid) {s t : σ} (hs : src.Ready s) {a : α}
    (hread : read.run s = .ok (a, t)) :
    Valid a ∧ src.rest s = encode a ++ src.rest t ∧ src.Ready t := by
  obtain ⟨ha, hfront, rfl⟩ := (h s hs a t).mp hread
  have hlen := hfront.length_le
  obtain ⟨more, hmore⟩ := hfront
  refine ⟨ha, ?_, src.ready_skip hs hlen⟩
  rw [src.rest_skip hs hlen, ← hmore, List.drop_left]

theorem Reads.congr {read : StateT σ (Except ε) α} {encode encode' : α → List β}
    {Valid Valid' : α → Prop} (h : src.Reads read encode Valid)
    (hvalid : ∀ a, Valid' a ↔ Valid a) (hencode : ∀ a, Valid a → encode' a = encode a) :
    src.Reads read encode' Valid' := by
  intro s hs a t
  rw [h s hs a t, hvalid a]
  refine and_congr_right fun ha => ?_
  rw [hencode a ha]

theorem reads_pure (c : α) : src.Reads (pure c : StateT σ (Except ε) α) (fun _ => []) (· = c) := by
  intro s _ a t
  rw [List.length_nil, src.skip_zero]
  constructor
  · intro h
    cases h
    exact ⟨rfl, List.nil_prefix, rfl⟩
  · rintro ⟨rfl, -, rfl⟩
    rfl

theorem run_bind_eq_ok {first : StateT σ (Except ε) α} {next : α → StateT σ (Except ε) γ} {s t : σ}
    {c : γ} : (first >>= next).run s = .ok (c, t) ↔
      ∃ a u, first.run s = .ok (a, u) ∧ (next a).run u = .ok (c, t) := by
  rw [StateT.run_bind]
  cases hfirst : first.run s with
  | error e =>
    constructor
    · intro h
      cases h
    · rintro ⟨a, u, hau, -⟩
      cases hau
  | ok r =>
    constructor
    · intro h
      exact ⟨r.1, r.2, rfl, h⟩
    · rintro ⟨a, u, hau, h⟩
      cases hau
      exact h

theorem Reads.bind {first : StateT σ (Except ε) α} {next : α → StateT σ (Except ε) γ}
    {encode : α → List β} {encodeNext : γ → List β} {Valid : α → Prop} {ValidNext : α → γ → Prop}
    (h : src.Reads first encode Valid) (part : γ → α)
    (hnext : ∀ a, Valid a → src.Reads (next a) encodeNext (ValidNext a))
    (hpart : ∀ a c, ValidNext a c → part c = a) :
    src.Reads (first >>= next) (fun c => encode (part c) ++ encodeNext c)
      (fun c => Valid (part c) ∧ ValidNext (part c) c) := by
  intro s hs c t
  rw [run_bind_eq_ok]
  constructor
  · rintro ⟨a, u, hfirst, hsecond⟩
    obtain ⟨ha, hfront, hu⟩ := (h s hs a u).mp hfirst
    obtain ⟨-, hrest, hready⟩ := h.split hs hfirst
    obtain ⟨hc, hfront', rfl⟩ := (hnext a ha u hready c t).mp hsecond
    obtain rfl := hpart a c hc
    refine ⟨⟨ha, hc⟩, ?_, ?_⟩
    · rw [hrest, List.prefix_append_right_inj]
      exact hfront'
    · rw [hu, src.skip_skip, List.length_append]
  · rintro ⟨⟨ha, hc⟩, hfront, rfl⟩
    obtain ⟨more, hmore⟩ := hfront
    rw [List.append_assoc] at hmore
    obtain ⟨u, hu, hready, hrest⟩ := h.of_append hs ha hmore.symm
    refine ⟨part c, u, hu, (hnext _ ha u hready c _).mpr ⟨hc, ⟨more, hrest.symm⟩, ?_⟩⟩
    rw [((h s hs _ u).mp hu).2.2, src.skip_skip, List.length_append]

theorem Reads.pair {first : StateT σ (Except ε) α} {second : StateT σ (Except ε) γ}
    {encode : α → List β} {encode' : γ → List β} {Valid : α → Prop} {Valid' : γ → Prop}
    (h : src.Reads first encode Valid) (h' : src.Reads second encode' Valid') :
    src.Reads (do let a ← first; let c ← second; pure (a, c)) (fun r => encode r.1 ++ encode' r.2)
      (fun r => Valid r.1 ∧ Valid' r.2) := by
  refine (h.bind Prod.fst (fun a _ => h'.bind Prod.snd (fun c _ => reads_pure (a, c))
    fun _ _ h => congrArg Prod.snd h) fun _ _ h => congrArg Prod.fst h.2).congr
    (fun r => ?_) fun r _ => ?_
  · rw [and_iff_left rfl]
  · rw [List.append_nil]

theorem Reads.unless {read : StateT σ (Except ε) α} {encode : α → List β} {Valid : α → Prop}
    (h : src.Reads read encode Valid) (p : Prop) [Decidable p] (e : ε) :
    src.Reads (if p then throw e else read) encode (fun a => ¬ p ∧ Valid a) := by
  by_cases hp : p
  · rw [if_pos hp]
    intro s _ a t
    constructor
    · intro h
      cases h
    · rintro ⟨⟨h, -⟩, -⟩
      exact absurd hp h
  · rw [if_neg hp]
    exact h.congr (fun a => and_iff_right hp) fun _ _ => rfl

theorem reads_checked (c : α) (p : Prop) [Decidable p] (e : ε) :
    src.Reads (if p then pure c else throw e : StateT σ (Except ε) α) (fun _ => [])
      (fun a => p ∧ a = c) := by
  rw [← ite_not]
  exact ((reads_pure c).unless (¬ p) e).congr (fun a => by rw [not_not]) fun _ _ => rfl

def readTimes (read : StateT σ (Except ε) α) : Nat → StateT σ (Except ε) (List α)
  | 0 => pure []
  | n + 1 => do
    let a ← read
    let as ← readTimes read n
    pure (a :: as)

theorem Reads.times {read : StateT σ (Except ε) α} {encode : α → List β} {Valid : α → Prop}
    (h : src.Reads read encode Valid) (n : Nat) :
    src.Reads (readTimes read n) (List.flatMap encode)
      (fun as => as.length = n ∧ ∀ a ∈ as, Valid a) := by
  induction n with
  | zero =>
    refine (reads_pure []).congr (fun as => ?_) (fun as has => ?_)
    · rw [List.length_eq_zero_iff]
      refine and_iff_left_of_imp ?_
      rintro rfl a ha
      cases ha
    · rw [has, List.flatMap_nil]
  | succ n ih =>
    intro s hs as t
    rw [readTimes, run_bind_eq_ok]
    constructor
    · rintro ⟨a, u, hread, hnext⟩
      rw [run_bind_eq_ok] at hnext
      obtain ⟨tail, v, htail, hpure⟩ := hnext
      cases hpure
      obtain ⟨ha, hrest, hready⟩ := h.split hs hread
      obtain ⟨⟨hlen, hall⟩, hrest', -⟩ := ih.split hready htail
      have hu := ((h s hs a u).mp hread).2.2
      have hv := ((ih u hready tail t).mp htail).2.2
      refine ⟨⟨by rw [List.length_cons, hlen], List.forall_mem_cons.mpr ⟨ha, hall⟩⟩, ?_, ?_⟩
      · rw [List.flatMap_cons, hrest, hrest', ← List.append_assoc]
        exact List.prefix_append _ _
      · rw [hv, hu, src.skip_skip, List.flatMap_cons, List.length_append]
    · rintro ⟨⟨hlen, hall⟩, hfront, rfl⟩
      cases as with
      | nil => cases hlen
      | cons a tail =>
        obtain ⟨ha, hall⟩ := List.forall_mem_cons.mp hall
        obtain ⟨more, hmore⟩ := hfront
        rw [List.flatMap_cons, List.append_assoc] at hmore
        obtain ⟨u, hu, hready, hrest⟩ := h.of_append hs ha hmore.symm
        obtain ⟨v, hv, -⟩ := ih.of_append hready ⟨Nat.succ.inj hlen, hall⟩ hrest
        refine ⟨a, u, hu, run_bind_eq_ok.mpr ⟨tail, v, hv, ?_⟩⟩
        have heq := ((h s hs a u).mp hu).2.2
        have heq' := ((ih u hready tail v).mp hv).2.2
        rw [List.flatMap_cons, List.length_append, ← src.skip_skip, ← heq, ← heq']
        rfl

def Fails (read : StateT σ (Except ε) α) (E : ε → Prop) : Prop :=
  ∀ s e, read.run s = .error e → E e

variable {E : ε → Prop}

theorem fails_pure (a : α) : Fails (pure a : StateT σ (Except ε) α) E := by
  intro s e h
  cases h

theorem fails_throw {e : ε} (he : E e) : Fails (throw e : StateT σ (Except ε) α) E := by
  intro s e' h
  cases h
  exact he

theorem Fails.bind {first : StateT σ (Except ε) α} {next : α → StateT σ (Except ε) γ}
    (h : Fails first E) (hnext : ∀ a, Fails (next a) E) : Fails (first >>= next) E := by
  intro s e herr
  rw [StateT.run_bind] at herr
  cases hfirst : first.run s with
  | error e' =>
    rw [hfirst] at herr
    cases herr
    exact h s e hfirst
  | ok r =>
    rw [hfirst] at herr
    exact hnext r.1 r.2 e herr

theorem Fails.ite {p : Prop} [Decidable p] {read read' : StateT σ (Except ε) α}
    (h : Fails read E) (h' : Fails read' E) : Fails (if p then read else read') E := by
  split
  · exact h
  · exact h'

theorem Fails.times {read : StateT σ (Except ε) α} (h : Fails read E) (n : Nat) :
    Fails (readTimes read n) E := by
  induction n with
  | zero => exact fails_pure []
  | succ n ih => exact h.bind fun _ => ih.bind fun _ => fails_pure _

end Source
