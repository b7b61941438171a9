import ChoonzMoba.Platform.InputSpec
import Mathlib.Algebra.BigOperators.Group.List.Basic
import Mathlib.Algebra.GroupWithZero.Nat

namespace ChoonzMoba

-- in this module a log has its newest event first

def isFrame (e : InputEvent) : Bool := decide (e = .frame)

def thisFrame (log : List InputEvent) : List InputEvent := sinceMark isFrame log

def mouseAt (log : List InputEvent) : Option (Int × Int) :=
  lastWord (fun e => e.position.map some) none log

/-- Where the frame's movement is measured from: the place it started at, or its first. -/
def mouseFrom : List InputEvent → Option (Int × Int)
  | [] => none
  | e :: log => if e = .frame then mouseAt log else (mouseFrom log).or e.position

structure PlatformWindow.Shows (opened w : PlatformWindow) (log : List InputEvent) : Prop where
  quit : w.quit = decide (.quit ∈ log)
  keyDown : ∀ k, w.keyDown k = lastWord (·.keyDown k) false log
  buttons : w.mouseButtons ≤ 7
  held : ∀ b, w.holds b = lastWord (·.held b) false log
  focused : w.focused = lastWord (·.focused) true log
  minimized : w.minimized = lastWord (·.minimized) false log
  extent : (w.fbWidth, w.fbHeight) = lastWord (·.extent) (opened.fbWidth, opened.fbHeight) log
  resized : w.resizedThisFrame = (thisFrame log).any (·.extent.isSome)
  lastMouse : w.lastMouse = mouseAt log
  mouse : (w.mouseX, w.mouseY) = (mouseAt log).getD (0, 0)
  known : mouseFrom log = none ↔ mouseAt log = none
  moved : (w.mouseDx, w.mouseDy) = mouseStep (mouseFrom log) (mouseAt log)
  transitions : w.keyTransitions = UInt32.ofNat ((thisFrame log).map (·.counted)).sum
  text : w.text = ((thisFrame log).reverse.filterMap (·.typed)).take textMax
  wheel : w.wheel = ((thisFrame log).map (·.notches)).sum

section

variable {opened w w' : PlatformWindow} {log : List InputEvent} {e : InputEvent}

theorem thisFrame_frame : thisFrame (.frame :: log) = [] := sinceMark_mark rfl

theorem thisFrame_cons (h : e ≠ .frame) : thisFrame (e :: log) = e :: thisFrame log :=
  sinceMark_cons (decide_eq_false h)

theorem lastWord_cons {V : Type} {word : InputEvent → Option V} {first : V} :
    lastWord word first (e :: log) = (word e).getD (lastWord word first log) := rfl

theorem mouseAt_cons : mouseAt (e :: log) = e.position.or (mouseAt log) := by
  rw [mouseAt, lastWord_cons]
  cases e.position <;> rfl

theorem mouseStep_trans {from' at' position : Option (Int × Int)} (h : from' = none ↔ at' = none) :
    mouseStep from' at' + mouseStep at' position =
      mouseStep (from'.or position) (position.or at') := by
  cases from' with
  | none =>
    rw [h.mp rfl]
    cases position with
    | none => rfl
    | some p => simp
  | some q =>
    cases at' with
    | none => cases h.mpr rfl
    | some r =>
      cases position with
      | none => simp
      | some p => simp

theorem take_more {α : Type} {n : Nat} (text more : List α) (h : more.length ≤ 1) :
    (text ++ more).take n =
      if (text.take n).length < n then text.take n ++ more else text.take n := by
  rw [List.take_append, List.length_take]
  split
  · rw [List.take_of_length_le (by omega : more.length ≤ n - text.length)]
  · rw [show n - text.length = 0 by omega, List.take_zero, List.append_nil]

theorem platformWindowOpen_shows (desc : Option PlatformWindowDesc) :
    (platformWindowOpen desc).Shows (platformWindowOpen desc) [] := by
  constructor
  case buttons => exact (by decide : (0 : UInt8) ≤ 7)
  case held =>
    intro b
    change ((0 : UInt8) &&& b.mask != 0) = false
    cases b <;> decide
  case known => exact iff_of_true rfl rfl
  all_goals first | rfl | exact fun k => rfl

theorem PlatformWindow.Shows.event (h : opened.Shows w log) (heffect : EventEffect w e w')
    (hframe : e ≠ .frame) : opened.Shows w' (e :: log) := by
  have hfrom : mouseFrom (e :: log) = (mouseFrom log).or e.position := if_neg hframe
  constructor
  case quit =>
    rw [heffect.quit, h.quit]
    simp [List.mem_cons, Bool.or_comm, eq_comm]
  case keyDown => exact fun k => by rw [heffect.keyDown, h.keyDown, lastWord_cons]
  case buttons => exact (heffect.buttons h.buttons).1
  case held => exact fun b => by rw [(heffect.buttons h.buttons).2, h.held, lastWord_cons]
  case focused => rw [heffect.focused, h.focused, lastWord_cons]
  case minimized => rw [heffect.minimized, h.minimized, lastWord_cons]
  case extent => rw [heffect.extent, h.extent, lastWord_cons]
  case resized => rw [heffect.resized, h.resized, thisFrame_cons hframe, List.any_cons, Bool.or_comm]
  case lastMouse => rw [heffect.lastMouse, h.lastMouse, mouseAt_cons]
  case mouse =>
    rw [heffect.mouse, h.mouse, mouseAt_cons]
    cases e.position <;> rfl
  case known =>
    rw [hfrom, mouseAt_cons, Option.or_eq_none_iff, Option.or_eq_none_iff, h.known, and_comm]
  case moved => rw [heffect.moved, h.moved, h.lastMouse, mouseStep_trans h.known, hfrom, mouseAt_cons]
  case transitions =>
    rw [heffect.transitions, h.transitions, thisFrame_cons hframe, List.map_cons, List.sum_cons,
      ← UInt32.ofNat_add, Nat.add_comm]
  case text =>
    rw [heffect.text, h.text, thisFrame_cons hframe, List.reverse_cons, List.filterMap_append,
      take_more]
    · rfl
    · exact Nat.le_trans (List.length_filterMap_le _ _) (Nat.le_refl 1)
  case wheel =>
    rw [heffect.wheel, h.wheel, thisFrame_cons hframe, List.map_cons, List.sum_cons, Int.add_comm]

theorem PlatformWindow.Shows.frame (h : opened.Shows w log) :
    opened.Shows w.startFrame (.frame :: log) := by
  have hat : mouseAt (.frame :: log) = mouseAt log := rfl
  have hfrom : mouseFrom (.frame :: log) = mouseAt log := if_pos rfl
  constructor
  case quit =>
    rw [PlatformWindow.startFrame, h.quit]
    simp
  case moved =>
    rw [hfrom, hat]
    cases mouseAt log with
    | none => rfl
    | some p => simp [PlatformWindow.startFrame]
  case known => rw [hfrom, hat]
  case resized => rw [thisFrame_frame]; rfl
  case transitions => rw [thisFrame_frame]; rfl
  case text => rw [thisFrame_frame]; rfl
  case wheel => rw [thisFrame_frame]; rfl
  case buttons => exact h.buttons
  case keyDown => exact h.keyDown
  case held => exact h.held
  case focused => exact h.focused
  case minimized => exact h.minimized
  case extent => exact h.extent
  case lastMouse => exact h.lastMouse
  case mouse => exact h.mouse

def InScreen (p : Int × Int) : Prop := -2 ^ 15 ≤ p.1 ∧ p.1 < 2 ^ 15 ∧ -2 ^ 15 ≤ p.2 ∧ p.2 < 2 ^ 15

structure InputEvent.Packed (e : InputEvent) : Prop where
  position : ∀ p ∈ e.position, InScreen p
  notches : -273 ≤ e.notches ∧ e.notches ≤ 273

theorem WindowMessage.position_inScreen (m : WindowMessage) : InScreen m.position :=
  ⟨Int16.le_toInt _, Int16.toInt_lt _, Int16.le_toInt _, Int16.toInt_lt _⟩

theorem WindowMessage.notches_le (m : WindowMessage) : -273 ≤ m.notches ∧ m.notches ≤ 273 := by
  have hlower := (hiword m.wParam).toInt16.le_toInt
  have hupper := (hiword m.wParam).toInt16.toInt_lt
  have habs : ((hiword m.wParam).toInt16.toInt.tdiv 120).natAbs =
      (hiword m.wParam).toInt16.toInt.natAbs / 120 := Int.natAbs_tdiv _ _
  rw [WindowMessage.notches]
  omega

theorem InputEvent.packed_silent (hposition : e.position = none) (hnotches : e.notches = 0) :
    e.Packed where
  position p hp := by
    rw [hposition] at hp
    cases hp
  notches := by
    rw [hnotches]
    decide

theorem WindowMessage.event_packed (m : WindowMessage) : m.event.Packed := by
  unfold WindowMessage.event
  cases hmsg : m.msg
  case mousemove =>
    exact ⟨fun p hp => Option.some.inj hp ▸ m.position_inScreen,
      (by decide : (-273 : Int) ≤ 0 ∧ (0 : Int) ≤ 273)⟩
  case mousewheel => exact ⟨fun p hp => (by cases hp), m.notches_le⟩
  case char | syskeydown | keydown | syskeyup | keyup =>
    dsimp only
    split <;> exact InputEvent.packed_silent rfl rfl
  all_goals exact InputEvent.packed_silent rfl rfl

theorem PumpItem.event_packed (i : PumpItem) : i.event.Packed := by
  cases i with
  | quit => exact InputEvent.packed_silent rfl rfl
  | message m => exact m.event_packed

theorem WindowMessage.event_ne_frame (m : WindowMessage) : m.event ≠ .frame := by
  unfold WindowMessage.event
  cases hmsg : m.msg
  case char | syskeydown | keydown | syskeyup | keyup =>
    dsimp only
    split <;> exact fun h => (by cases h)
  all_goals exact fun h => (by cases h)

theorem PumpItem.event_ne_frame (i : PumpItem) : i.event ≠ .frame := by
  cases i with
  | quit => exact fun h => (by cases h)
  | message m => exact m.event_ne_frame

theorem mouseAt_inScreen (hpacked : ∀ e ∈ log, e.Packed) : ∀ p ∈ mouseAt log, InScreen p := by
  induction log with
  | nil => exact fun p hp => (by cases hp)
  | cons e log ih =>
    rw [List.forall_mem_cons] at hpacked
    intro p hp
    rw [mouseAt_cons, Option.mem_def, Option.or_eq_some_iff] at hp
    rcases hp with hp | ⟨-, hp⟩
    · exact hpacked.1.position p hp
    · exact ih hpacked.2 p hp

theorem mouseFrom_inScreen (hpacked : ∀ e ∈ log, e.Packed) : ∀ p ∈ mouseFrom log, InScreen p := by
  induction log with
  | nil => exact fun p hp => (by cases hp)
  | cons e log ih =>
    rw [List.forall_mem_cons] at hpacked
    intro p hp
    rw [mouseFrom] at hp
    split at hp
    · exact mouseAt_inScreen hpacked.2 p hp
    · rw [Option.mem_def, Option.or_eq_some_iff] at hp
      rcases hp with hp | ⟨-, hp⟩
      · exact ih hpacked.2 p hp
      · exact hpacked.1.position p hp

def turns (log : List InputEvent) : Nat := log.countP fun e => e.notches ≠ 0

theorem turns_cons : turns (e :: log) = turns log + if e.notches = 0 then 0 else 1 := by
  simp only [turns, List.countP_cons, decide_eq_true_eq, ne_eq, ite_not]

theorem notches_sum_le (hpacked : ∀ e ∈ log, e.Packed) :
    -(273 * turns log) ≤ (log.map (·.notches)).sum ∧ (log.map (·.notches)).sum ≤ 273 * turns log := by
  induction log with
  | nil => decide
  | cons e log ih =>
    rw [List.forall_mem_cons] at hpacked
    have hrest := ih hpacked.2
    have hnotches := hpacked.1.notches
    rw [List.map_cons, List.sum_cons, turns_cons]
    split <;> omega

theorem PlatformWindow.Shows.moveMouse_ok (h : opened.Shows w log) (hpacked : ∀ e ∈ log, e.Packed)
    {p : Int × Int} (hp : InScreen p) : ∃ w', w.moveMouse p.1 p.2 = some w' := by
  cases hlast : w.haveLastMouse with
  | false => exact ⟨_, by rw [PlatformWindow.moveMouse, hlast]; rfl⟩
  | true =>
    have hat : mouseAt log = some (w.lastMouseX, w.lastMouseY) := by
      rw [← h.lastMouse, PlatformWindow.lastMouse, hlast]
      rfl
    obtain ⟨q, hq⟩ : ∃ q, mouseFrom log = some q := by
      refine Option.ne_none_iff_exists'.mp fun hnone => ?_
      rw [h.known.mp hnone] at hat
      cases hat
    have hmoved := h.moved
    rw [hat, hq, mouseStep, Prod.mk.injEq] at hmoved
    obtain ⟨hx1, hx2, hy1, hy2⟩ := hp
    obtain ⟨ax1, ax2, ay1, ay2⟩ := mouseAt_inScreen hpacked _ hat
    obtain ⟨qx1, qx2, qy1, qy2⟩ := mouseFrom_inScreen hpacked _ hq
    dsimp only at ax1 ax2 ay1 ay2 hmoved
    -- the sum so far and the next step cancel, so that only two positions are left of them
    have hx := Checked.int32_eq_some (x := p.1 - w.lastMouseX) (by omega) (by omega)
    have hy := Checked.int32_eq_some (x := p.2 - w.lastMouseY) (by omega) (by omega)
    have hdx := Checked.int32_eq_some (x := w.mouseDx + (p.1 - w.lastMouseX)) (by omega) (by omega)
    have hdy := Checked.int32_eq_some (x := w.mouseDy + (p.2 - w.lastMouseY)) (by omega) (by omega)
    rw [PlatformWindow.moveMouse, if_pos hlast, hx, Option.bind_some, hdx, Option.bind_some, hy,
      Option.bind_some, hdy]
    exact ⟨_, rfl⟩

theorem thisFrame_packed (hpacked : ∀ e ∈ log, e.Packed) : ∀ e ∈ thisFrame log, e.Packed :=
  fun e he => hpacked e (List.takeWhile_sublist _ |>.mem he)

theorem PlatformWindow.Shows.wndProc_ok (h : opened.Shows w log) (hpacked : ∀ e ∈ log, e.Packed)
    (m : WindowMessage) (hturns : m.msg = .mousewheel → turns (thisFrame log) ≤ 2 ^ 22) :
    ∃ w', wndProc w m = some w' := by
  unfold wndProc
  cases hmsg : m.msg
  case mousemove => exact h.moveMouse_ok hpacked m.position_inScreen
  case mousewheel =>
    have hsum := notches_sum_le (thisFrame_packed hpacked)
    have hnotches := m.notches_le
    have hfew := hturns hmsg
    rw [← h.wheel] at hsum
    dsimp only
    rw [Checked.int32_eq_some (by omega) (by omega)]
    exact ⟨_, rfl⟩
  case char =>
    dsimp only
    split <;> exact ⟨_, rfl⟩
  all_goals exact ⟨_, rfl⟩

end

end ChoonzMoba
