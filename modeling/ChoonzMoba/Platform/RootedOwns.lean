import ChoonzMoba.Platform.RootedStep

namespace ChoonzMoba

section

variable {Node : Type} {handles : Nat → Option Node} {held : List Nat} {handle : Nat} {n : Node}

structure Opens (handles : Nat → Option Node) (held : List Nat) : Prop where
  nodup : held.Nodup
  mem : ∀ handle, (handles handle).isSome = true ↔ handle ∈ held

theorem Opens.nil : Opens (fun _ => (none : Option Node)) [] :=
  ⟨List.nodup_nil, fun _ => ⟨fun h => (by cases h), fun h => absurd h List.not_mem_nil⟩⟩

theorem Opens.push (h : Opens handles held) (hfresh : handles handle = none) :
    Opens (Function.update handles handle (some n)) (handle :: held) := by
  have hnot : handle ∉ held := by
    rw [← h.mem, hfresh]
    exact Bool.false_ne_true
  refine ⟨List.nodup_cons.mpr ⟨hnot, h.nodup⟩, fun other => ?_⟩
  by_cases heq : other = handle
  · rw [heq, Function.update_self]
    exact iff_of_true rfl List.mem_cons_self
  · rw [Function.update_of_ne heq, h.mem, List.mem_cons, or_iff_right heq]

theorem Opens.pop (h : Opens handles (handle :: held)) :
    Opens (Function.update handles handle none) held := by
  obtain ⟨hnot, hnodup⟩ := List.nodup_cons.mp h.nodup
  refine ⟨hnodup, fun other => ?_⟩
  by_cases heq : other = handle
  · rw [heq, Function.update_self]
    exact iff_of_false Bool.false_ne_true hnot
  · rw [Function.update_of_ne heq, h.mem, List.mem_cons, or_iff_right heq]

theorem Opens.isSome (h : Opens handles (handle :: held)) : (handles handle).isSome = true :=
  (h.mem handle).mpr List.mem_cons_self

end

namespace RootedPc

def idle : RootedPc → Bool
  | openRoot | finished _ => true
  | rootAttributes | rootFinalPath | openComponent | attributes _ | finalPath | information
  | fileSize | alloc _ | read _ | close _ | closeRoot _ => false

def shallow : RootedPc → Bool
  | openRoot | rootAttributes | rootFinalPath | closeRoot _ | finished _ => true
  | openComponent | attributes _ | finalPath | information | fileSize | alloc _ | read _
  | close _ => false

def succeeded : RootedPc → Bool
  | close success | closeRoot success | finished success => success
  | openRoot | rootAttributes | rootFinalPath | openComponent | attributes _ | finalPath
  | information | fileSize | alloc _ | read _ => false

def reading : RootedPc → Option Nat
  | read size => some size
  | openRoot | rootAttributes | rootFinalPath | openComponent | attributes _ | finalPath
  | information | fileSize | alloc _ | close _ | closeRoot _ | finished _ => none

end RootedPc

variable {Node : Type}

def RootedState.held (s : RootedState Node) : List Nat :=
  if s.pc.idle then [] else s.components ++ [s.root]

def RootedState.owned (s : RootedState Node) : Option Nat :=
  s.pc.reading.elim (s.out.map fun bytes => max bytes.length 1) fun size => some (max size 1)

structure RootedOwns (s : RootedState Node) : Prop where
  sound : s.misused = false
  opens : Opens s.handles s.held
  shallow : s.pc.shallow = true → s.components = []
  block : s.block = s.owned
  out : s.out.isSome = s.pc.succeeded

variable {job : RootedJob} {s t : RootedState Node} {handle : Nat} {held : List Nat}

theorem closeHandle_eq (hopens : Opens s.handles (handle :: held)) :
    s.closeHandle handle = { s with handles := Function.update s.handles handle none } :=
  if_pos hopens.isSome

theorem release_eq {size : Nat} (hblock : s.block = some (max size 1)) :
    s.release size = { s with block := none } :=
  if_pos hblock

theorem RootedOwns.held_eq (owns : RootedOwns s) (hidle : s.pc.idle = false) :
    Opens s.handles (s.components ++ [s.root]) := by
  have hopens := owns.opens
  rwa [RootedState.held, hidle, if_neg Bool.false_ne_true] at hopens

theorem RootedOwns.out_eq (owns : RootedOwns s) (hpc : s.pc.succeeded = false) : s.out = none := by
  have hout := owns.out
  rw [hpc] at hout
  exact Option.isNone_iff_eq_none.mp (Option.isSome_eq_false_iff.mp hout)

theorem RootedOwns.block_eq {size : Nat} (owns : RootedOwns s) (hpc : s.pc = .read size) :
    s.block = some (max size 1) := by
  have hblock := owns.block
  rwa [RootedState.owned, hpc] at hblock

theorem RootedOwns.move {pc : RootedPc} {finalRoot current rest : WidePath} {buffer : List UInt8}
    (owns : RootedOwns s) (hidle : pc.idle = s.pc.idle)
    (hshallow : pc.shallow = true → s.components = [])
    (hsucceeded : pc.succeeded = s.pc.succeeded) (hreading : pc.reading = s.pc.reading) :
    RootedOwns { s with
      pc := pc, finalRoot := finalRoot, current := current, rest := rest, buffer := buffer } := by
  refine ⟨owns.sound, ?_, hshallow, ?_, owns.out.trans hsucceeded.symm⟩
  · have hopens := owns.opens
    unfold RootedState.held at hopens
    unfold RootedState.held
    rwa [hidle]
  · have hblock := owns.block
    unfold RootedState.owned at hblock
    unfold RootedState.owned
    rwa [hreading]

theorem RootedOwns.openRoot {n : Node} (owns : RootedOwns s) (hpc : s.pc = .openRoot)
    (hfresh : s.handles handle = none) : RootedOwns { s with
      pc := .rootAttributes
      handles := Function.update s.handles handle (some n)
      root := handle } := by
  have hnil : s.components = [] := owns.shallow (by rw [hpc]; rfl)
  have hout : s.out = none := owns.out_eq (by rw [hpc]; rfl)
  have hopens := owns.opens
  have hblock := owns.block
  rw [RootedState.held, hpc] at hopens
  rw [RootedState.owned, hpc] at hblock
  refine ⟨owns.sound, ?_, fun _ => hnil, hblock, ?_⟩
  · show Opens _ (s.components ++ [handle])
    rw [hnil]
    exact hopens.push hfresh
  · show s.out.isSome = false
    rw [hout]
    rfl

theorem RootedOwns.openComponent {n : Node} {last : Bool} {current rest : WidePath}
    (owns : RootedOwns s) (hpc : s.pc = .openComponent) (hfresh : s.handles handle = none) :
    RootedOwns { s with
      pc := .attributes last
      current := current
      rest := rest
      handles := Function.update s.handles handle (some n)
      components := handle :: s.components } := by
  have hopens := owns.held_eq (by rw [hpc]; rfl)
  have hout : s.out = none := owns.out_eq (by rw [hpc]; rfl)
  have hblock := owns.block
  rw [RootedState.owned, hpc] at hblock
  refine ⟨owns.sound, hopens.push hfresh, fun h => (by cases h), hblock, ?_⟩
  show s.out.isSome = false
  rw [hout]
  rfl

theorem RootedOwns.alloc {size : Nat} (owns : RootedOwns s) (hpc : s.pc = .alloc size) :
    RootedOwns { s with pc := .read size, block := some (max size 1), buffer := [] } := by
  refine ⟨owns.sound, owns.held_eq (by rw [hpc]; rfl), fun h => (by cases h), rfl, ?_⟩
  show s.out.isSome = false
  rw [owns.out_eq (by rw [hpc]; rfl)]
  rfl

theorem RootedOwns.short {size : Nat} (owns : RootedOwns s) (hpc : s.pc = .read size) :
    RootedOwns (s.release size).fail := by
  have hout : s.out = none := owns.out_eq (by rw [hpc]; rfl)
  rw [release_eq (owns.block_eq hpc)]
  refine ⟨owns.sound, owns.held_eq (by rw [hpc]; rfl), fun h => (by cases h), ?_, ?_⟩
  · show none = s.out.map _
    rw [hout]
    rfl
  · show s.out.isSome = false
    rw [hout]
    rfl

theorem RootedOwns.deliver {size : Nat} (owns : RootedOwns s) (hpc : s.pc = .read size)
    (hsize : s.buffer.length = size) :
    RootedOwns { s with out := some s.buffer, pc := .close true } := by
  refine ⟨owns.sound, owns.held_eq (by rw [hpc]; rfl), fun h => (by cases h), ?_, rfl⟩
  show s.block = some (max s.buffer.length 1)
  rw [owns.block_eq hpc, hsize]

theorem RootedOwns.close {success : Bool} {components : List Nat} (owns : RootedOwns s)
    (hpc : s.pc = .close success) (hcomponents : s.components = handle :: components) :
    RootedOwns { s.closeHandle handle with components := components } := by
  have hopens := owns.held_eq (by rw [hpc]; rfl)
  rw [hcomponents] at hopens
  rw [closeHandle_eq hopens]
  refine ⟨owns.sound, ?_, ?_, owns.block, owns.out⟩
  · rw [RootedState.held, show RootedPc.idle _ = false from hpc ▸ rfl]
    exact hopens.pop
  · intro hshallow
    dsimp only at hshallow
    rw [hpc] at hshallow
    cases hshallow

theorem RootedOwns.closeRoot {success : Bool} (owns : RootedOwns s)
    (hpc : s.pc = .closeRoot success) :
    RootedOwns { s.closeHandle s.root with pc := .finished success } := by
  have hnil : s.components = [] := owns.shallow (by rw [hpc]; rfl)
  have hopens := owns.held_eq (by rw [hpc]; rfl)
  have hblock := owns.block
  have hout := owns.out
  rw [hnil] at hopens
  rw [RootedState.owned, hpc] at hblock
  rw [hpc] at hout
  rw [closeHandle_eq hopens]
  exact ⟨owns.sound, hopens.pop, fun _ => hnil, hblock, hout⟩

theorem RootedStep.owns (h : RootedStep job s t) (owns : RootedOwns s) : RootedOwns t := by
  cases h with
  | refuse hpc =>
    exact owns.move (by rw [hpc]; rfl) (fun _ => owns.shallow (by rw [hpc]; rfl))
      (by rw [hpc]; rfl) (by rw [hpc]; rfl)
  | openRoot hpc hfresh => exact owns.openRoot hpc hfresh
  | rootFails hpc =>
    have hshallow : s.pc.shallow = true := by rcases hpc with hpc | hpc <;> rw [hpc] <;> rfl
    refine owns.move ?_ (fun _ => owns.shallow hshallow) ?_ ?_
    all_goals rcases hpc with hpc | hpc <;> rw [hpc] <;> rfl
  | rootAttributes hpc =>
    exact owns.move (by rw [hpc]; rfl) (fun _ => owns.shallow (by rw [hpc]; rfl))
      (by rw [hpc]; rfl) (by rw [hpc]; rfl)
  | fails hgives =>
    refine owns.move ?_ (fun h => (by cases h)) ?_ ?_
    all_goals
      generalize s.pc = pc at hgives
      cases hgives <;> rfl
  | openComponent hpc hopens => exact owns.openComponent hpc hopens.fresh
  | rootFinalPath hpc | directory hpc | file hpc | finalPath hpc | information hpc
  | fileSize hpc =>
    exact owns.move (by rw [hpc]; rfl) (fun h => (by cases h)) (by rw [hpc]; rfl) (by rw [hpc]; rfl)
  | alloc hpc => exact owns.alloc hpc
  | read hpc => exact owns.move rfl owns.shallow rfl rfl
  | short hpc => exact owns.short hpc
  | deliver hpc hsize => exact owns.deliver hpc hsize
  | close hpc hcomponents => exact owns.close hpc hcomponents
  | closed hpc hnil =>
    exact owns.move (by rw [hpc]; rfl) (fun _ => hnil) (by rw [hpc]; rfl) (by rw [hpc]; rfl)
  | closeRoot hpc => exact owns.closeRoot hpc
  | finished => exact owns

end ChoonzMoba
