import ChoonzMoba.Library.LastWord
import ChoonzMoba.Platform.Input
import Mathlib.Algebra.Group.Prod
import Mathlib.Tactic.Common

namespace ChoonzMoba

inductive MouseButton where
  | left
  | right
  | middle
deriving DecidableEq

def MouseButton.mask : MouseButton → UInt8
  | left => 0x01
  | right => 0x02
  | middle => 0x04

inductive InputEvent where
  | nothing
  | frame
  | quit
  | size (width height : Int) (minimized : Bool)
  | focus (focused : Bool)
  | key (k : KeyCode) (down counted : Bool)
  | char (c : UInt32)
  | move (position : Int × Int)
  | button (b : MouseButton) (down : Bool)
  | wheel (notches : Int)
deriving DecidableEq

def WindowMessage.event (m : WindowMessage) : InputEvent :=
  match m.msg with
  | .erasebkgnd | .close | .destroy | .other => .nothing
  | .size => .size (loword m.lParam).toNat (hiword m.lParam).toNat (m.wParam == 1)
  | .setfocus => .focus true
  | .killfocus => .focus false
  -- a held key repeats its message, which is then not counted
  | .syskeydown | .keydown =>
    if m.keyCode = .unknown then .nothing else .key m.keyCode true (!m.wasDown)
  | .syskeyup | .keyup => if m.keyCode = .unknown then .nothing else .key m.keyCode false true
  | .char => if 32 ≤ m.wParam ∧ m.wParam ≠ 127 then .char m.wParam.toUInt32 else .nothing
  | .mousemove => .move m.position
  | .lbuttondown => .button .left true
  | .lbuttonup => .button .left false
  | .rbuttondown => .button .right true
  | .rbuttonup => .button .right false
  | .mbuttondown => .button .middle true
  | .mbuttonup => .button .middle false
  | .mousewheel => .wheel m.notches

def PumpItem.event : PumpItem → InputEvent
  | .quit => .quit
  | .message m => m.event

namespace InputEvent

@[simp] def keyDown (k : KeyCode) : InputEvent → Option Bool
  | key k' down _ => if k = k' then some down else none
  | focus false => some false
  | _ => none

@[simp] def held (b : MouseButton) : InputEvent → Option Bool
  | button b' down => if b = b' then some down else none
  | focus false => some false
  | _ => none

@[simp] def focused : InputEvent → Option Bool
  | focus focused => some focused
  | _ => none

@[simp] def minimized : InputEvent → Option Bool
  | size _ _ minimized => some minimized
  | _ => none

@[simp] def extent : InputEvent → Option (Int × Int)
  | size width height _ => some (width, height)
  | _ => none

@[simp] def position : InputEvent → Option (Int × Int)
  | move position => some position
  | _ => none

@[simp] def counted : InputEvent → Nat
  | key _ _ true => 1
  | _ => 0

@[simp] def typed : InputEvent → Option UInt32
  | char c => some c
  | _ => none

@[simp] def notches : InputEvent → Int
  | wheel notches => notches
  | _ => 0

end InputEvent

def PlatformWindow.holds (w : PlatformWindow) (b : MouseButton) : Bool :=
  w.mouseButtons &&& b.mask != 0

def PlatformWindow.lastMouse (w : PlatformWindow) : Option (Int × Int) :=
  if w.haveLastMouse then some (w.lastMouseX, w.lastMouseY) else none

@[simp] def mouseStep : Option (Int × Int) → Option (Int × Int) → Int × Int
  | some q, some p => (p.1 - q.1, p.2 - q.2)
  | _, _ => (0, 0)

structure EventEffect (w : PlatformWindow) (e : InputEvent) (w' : PlatformWindow) : Prop where
  quit : w'.quit = (w.quit || e = .quit)
  keyDown : ∀ k, w'.keyDown k = (e.keyDown k).getD (w.keyDown k)
  buttons : w.mouseButtons ≤ 7 → w'.mouseButtons ≤ 7 ∧
    ∀ b, w'.holds b = (e.held b).getD (w.holds b)
  focused : w'.focused = e.focused.getD w.focused
  minimized : w'.minimized = e.minimized.getD w.minimized
  extent : (w'.fbWidth, w'.fbHeight) = e.extent.getD (w.fbWidth, w.fbHeight)
  resized : w'.resizedThisFrame = (w.resizedThisFrame || e.extent.isSome)
  lastMouse : w'.lastMouse = e.position.or w.lastMouse
  mouse : (w'.mouseX, w'.mouseY) = e.position.getD (w.mouseX, w.mouseY)
  moved : (w'.mouseDx, w'.mouseDy) = (w.mouseDx, w.mouseDy) + mouseStep w.lastMouse e.position
  transitions : w'.keyTransitions = w.keyTransitions + UInt32.ofNat e.counted
  text : w'.text = if w.text.length < textMax then w.text ++ e.typed.toList else w.text
  wheel : w'.wheel = w.wheel + e.notches

section

variable {w w' : PlatformWindow} {m : WindowMessage}

theorem buttons_small {P : UInt8 → Prop} {buttons : UInt8} (h : buttons ≤ 7)
    (hall : ∀ n < 8, P (UInt8.ofNat n)) : P buttons := by
  have hlt : buttons.toNat < 8 := Nat.lt_succ_of_le (UInt8.le_iff_toNat_le.mp h)
  rw [← UInt8.ofNat_toNat (x := buttons)]
  exact hall _ hlt

theorem button_pressed (b : MouseButton) {buttons : UInt8} (h : buttons ≤ 7) :
    buttons ||| b.mask ≤ 7 ∧ ∀ other : MouseButton, ((buttons ||| b.mask) &&& other.mask != 0) =
      (if other = b then some true else none).getD (buttons &&& other.mask != 0) := by
  refine buttons_small (P := fun buttons => buttons ||| b.mask ≤ 7 ∧ ∀ other : MouseButton,
    ((buttons ||| b.mask) &&& other.mask != 0) =
      (if other = b then some true else none).getD (buttons &&& other.mask != 0)) h
    fun n hn => ⟨?_, fun other => ?_⟩
  · cases b <;> decide +revert
  · cases b <;> cases other <;> decide +revert

theorem button_released (b : MouseButton) {buttons : UInt8} (h : buttons ≤ 7) :
    buttons &&& ~~~b.mask ≤ 7 ∧ ∀ other : MouseButton,
      (buttons &&& ~~~b.mask &&& other.mask != 0) =
        (if other = b then some false else none).getD (buttons &&& other.mask != 0) := by
  refine buttons_small (P := fun buttons => buttons &&& ~~~b.mask ≤ 7 ∧ ∀ other : MouseButton,
    (buttons &&& ~~~b.mask &&& other.mask != 0) =
      (if other = b then some false else none).getD (buttons &&& other.mask != 0)) h
    fun n hn => ⟨?_, fun other => ?_⟩
  · cases b <;> decide +revert
  · cases b <;> cases other <;> decide +revert

theorem nothing_effect (w : PlatformWindow) : EventEffect w .nothing w := by
  constructor <;> simp

theorem quit_effect (w : PlatformWindow) : EventEffect w .quit { w with quit := true } := by
  constructor <;> simp [PlatformWindow.lastMouse, PlatformWindow.holds]

theorem press_effect (w : PlatformWindow) {kc : KeyCode} (hkey : kc ≠ .unknown) (wasDown : Bool) :
    EventEffect w (.key kc true !wasDown) (w.press kc wasDown) := by
  rw [PlatformWindow.press, if_pos hkey]
  cases wasDown
  · constructor <;> simp [PlatformWindow.lastMouse, PlatformWindow.holds]
    exact fun k => by split <;> simp_all
  · constructor <;> simp [PlatformWindow.lastMouse, PlatformWindow.holds]
    exact fun k => by split <;> simp_all

theorem release_effect (w : PlatformWindow) {kc : KeyCode} (hkey : kc ≠ .unknown) :
    EventEffect w (.key kc false true) (w.release kc) := by
  rw [PlatformWindow.release, if_pos hkey]
  constructor <;> simp [PlatformWindow.lastMouse, PlatformWindow.holds]
  exact fun k => by split <;> simp_all

theorem pressButton_effect (w : PlatformWindow) (b : MouseButton) :
    EventEffect w (.button b true) { w with mouseButtons := w.mouseButtons ||| b.mask } := by
  constructor <;> simp [PlatformWindow.lastMouse]
  exact fun hsmall => button_pressed b hsmall

theorem releaseButton_effect (w : PlatformWindow) (b : MouseButton) :
    EventEffect w (.button b false) { w with mouseButtons := w.mouseButtons &&& ~~~b.mask } := by
  constructor <;> simp [PlatformWindow.lastMouse]
  exact fun hsmall => button_released b hsmall

theorem moveMouse_effect {position : Int × Int} (h : w.moveMouse position.1 position.2 = some w') :
    EventEffect w (.move position) w' := by
  obtain ⟨moved, hmoved, rfl⟩ := Option.map_eq_some_iff.mp h
  split at hmoved
  · next hlast =>
    obtain ⟨stepX, hx, hmoved⟩ := Option.bind_eq_some_iff.mp hmoved
    obtain ⟨dx, hdx, hmoved⟩ := Option.bind_eq_some_iff.mp hmoved
    obtain ⟨stepY, hy, hmoved⟩ := Option.bind_eq_some_iff.mp hmoved
    obtain ⟨dy, hdy, rfl⟩ := Option.map_eq_some_iff.mp hmoved
    obtain ⟨rfl, -⟩ := Checked.int32_eq_some_iff.mp hx
    obtain ⟨rfl, -⟩ := Checked.int32_eq_some_iff.mp hdx
    obtain ⟨rfl, -⟩ := Checked.int32_eq_some_iff.mp hy
    obtain ⟨rfl, -⟩ := Checked.int32_eq_some_iff.mp hdy
    constructor <;> simp [PlatformWindow.lastMouse, PlatformWindow.holds, hlast]
  · next hlast =>
    cases hmoved
    constructor <;> simp [PlatformWindow.lastMouse, PlatformWindow.holds, hlast]

theorem wndProc_effect (h : wndProc w m = some w') : EventEffect w m.event w' := by
  unfold wndProc at h
  unfold WindowMessage.event
  cases hmsg : m.msg <;> rw [hmsg] at h <;> dsimp only at h ⊢
  case mousemove => exact moveMouse_effect h
  case mousewheel =>
    obtain ⟨wheel, hwheel, rfl⟩ := Option.map_eq_some_iff.mp h
    obtain ⟨rfl, -⟩ := Checked.int32_eq_some_iff.mp hwheel
    constructor <;> simp [PlatformWindow.lastMouse, PlatformWindow.holds]
  case char =>
    split
    · next hprintable =>
      split at h
      · next hroom =>
        cases h
        constructor <;> simp [PlatformWindow.lastMouse, PlatformWindow.holds, hroom.1]
      · next hroom =>
        cases h
        have hfull : ¬ w.text.length < textMax := fun hlt => hroom ⟨hlt, hprintable⟩
        constructor <;> simp [hfull]
    · next hprintable =>
      rw [if_neg fun hroom => hprintable hroom.2] at h
      cases h
      exact nothing_effect w
  case syskeydown | keydown =>
    cases h
    split
    · next hkey =>
      rw [PlatformWindow.press, hkey]
      exact nothing_effect w
    · next hkey => exact press_effect w hkey m.wasDown
  case syskeyup | keyup =>
    cases h
    split
    · next hkey =>
      rw [PlatformWindow.release, hkey]
      exact nothing_effect w
    · next hkey => exact release_effect w hkey
  case lbuttondown | rbuttondown | mbuttondown =>
    cases h
    exact pressButton_effect w _
  case lbuttonup | rbuttonup | mbuttonup =>
    cases h
    exact releaseButton_effect w _
  case size | setfocus | killfocus =>
    cases h
    constructor <;> simp [PlatformWindow.lastMouse, PlatformWindow.holds]
  all_goals
    cases h
    exact nothing_effect w

end

end ChoonzMoba
