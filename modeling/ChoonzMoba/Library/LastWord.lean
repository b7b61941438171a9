import Mathlib.Data.List.Basic

/-! What a log of events, newest first, says about a value that some of them set. -/

section

variable {E V : Type}

def lastWord (word : E → Option V) (first : V) : List E → V
  | [] => first
  | e :: past => (word e).getD (lastWord word first past)

def sinceMark (mark : E → Bool) (past : List E) : List E := past.takeWhile fun e => !mark e

variable {word : E → Option V} {first v : V} {mark : E → Bool} {e : E} {past newer : List E}

theorem lastWord_spoken (h : word e = some v) : lastWord word first (e :: past) = v := by
  rw [lastWord, h, Option.getD_some]

theorem lastWord_silent (h : word e = none) :
    lastWord word first (e :: past) = lastWord word first past := by
  rw [lastWord, h, Option.getD_none]

theorem lastWord_append_silent (h : ∀ e ∈ newer, word e = none) :
    lastWord word first (newer ++ past) = lastWord word first past := by
  induction newer with
  | nil => rfl
  | cons e newer ih =>
    rw [List.cons_append, lastWord_silent (h e List.mem_cons_self)]
    exact ih fun other hother => h other (List.mem_cons_of_mem _ hother)

theorem lastWord_eq_iff : lastWord word first past = v ↔
    (∃ newer e older, past = newer ++ e :: older ∧ word e = some v ∧ ∀ n ∈ newer, word n = none) ∨
      (∀ e ∈ past, word e = none) ∧ first = v := by
  constructor
  · induction past with
    | nil => exact fun h => .inr ⟨fun e he => absurd he List.not_mem_nil, h⟩
    | cons e past ih =>
      intro h
      cases hword : word e with
      | some spoken =>
        rw [lastWord_spoken hword] at h
        exact .inl ⟨[], e, past, rfl, h ▸ hword, fun n hn => absurd hn List.not_mem_nil⟩
      | none =>
        rw [lastWord_silent hword] at h
        rcases ih h with ⟨newer, said, older, rfl, hsaid, hsilent⟩ | ⟨hsilent, hfirst⟩
        · exact .inl ⟨e :: newer, said, older, rfl, hsaid, List.forall_mem_cons.mpr ⟨hword, hsilent⟩⟩
        · exact .inr ⟨List.forall_mem_cons.mpr ⟨hword, hsilent⟩, hfirst⟩
  · rintro (⟨newer, e, older, rfl, hword, hsilent⟩ | ⟨hsilent, rfl⟩)
    · rw [lastWord_append_silent hsilent, lastWord_spoken hword]
    · have h : lastWord word first (past ++ []) = first := lastWord_append_silent hsilent
      rwa [List.append_nil] at h

@[simp] theorem sinceMark_nil : sinceMark mark [] = [] := rfl

theorem sinceMark_mark (h : mark e = true) : sinceMark mark (e :: past) = [] := by
  rw [sinceMark, List.takeWhile_cons_of_neg]
  simp [h]

theorem sinceMark_cons (h : mark e = false) :
    sinceMark mark (e :: past) = e :: sinceMark mark past := by
  rw [sinceMark, List.takeWhile_cons_of_pos]
  · rfl
  · simp [h]

theorem sinceMark_append (h : ∀ e ∈ newer, mark e = false) (he : mark e = true) :
    sinceMark mark (newer ++ e :: past) = newer := by
  induction newer with
  | nil => exact sinceMark_mark he
  | cons n newer ih =>
    rw [List.cons_append, sinceMark_cons (h n List.mem_cons_self),
      ih fun other hother => h other (List.mem_cons_of_mem _ hother)]

end
