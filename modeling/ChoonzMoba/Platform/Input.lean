import ChoonzMoba.Library.Checked
import Mathlib.Data.Nat.Notation

namespace ChoonzMoba

inductive KeyCode where
  | unknown
  | letter (i : Fin 26)
  | digit (i : Fin 10)
  | function (i : Fin 12)
  | space
  | escape
  | enter
  | tab
  | backspace
  | left
  | right
  | up
  | down
  | lshift
  | rshift
  | lctrl
  | rctrl
  | lalt
  | ralt
deriving DecidableEq

def vkToKeycode (vk : Int) : KeyCode :=
  if 0x41 ≤ vk ∧ vk ≤ 0x5A then .letter (Fin.ofNat 26 (vk - 0x41).toNat)
  else if 0x30 ≤ vk ∧ vk ≤ 0x39 then .digit (Fin.ofNat 10 (vk - 0x30).toNat)
  else if 0x70 ≤ vk ∧ vk ≤ 0x7B then .function (Fin.ofNat 12 (vk - 0x70).toNat)
  else if vk = 0x20 then .space
  else if vk = 0x1B then .escape
  else if vk = 0x0D then .enter
  else if vk = 0x09 then .tab
  else if vk = 0x08 then .backspace
  else if vk = 0x25 then .left
  else if vk = 0x27 then .right
  else if vk = 0x26 then .up
  else if vk = 0x28 then .down
  else if vk = 0x10 ∨ vk = 0xA0 then .lshift
  else if vk = 0xA1 then .rshift
  else if vk = 0x11 ∨ vk = 0xA2 then .lctrl
  else if vk = 0xA3 then .rctrl
  else if vk = 0x12 ∨ vk = 0xA4 then .lalt
  else if vk = 0xA5 then .ralt
  else .unknown

inductive WindowMessageId where
  | erasebkgnd
  | close
  | destroy
  | size
  | setfocus
  | killfocus
  | syskeydown
  | keydown
  | syskeyup
  | keyup
  | char
  | mousemove
  | lbuttondown
  | lbuttonup
  | rbuttondown
  | rbuttonup
  | mbuttondown
  | mbuttonup
  | mousewheel
  | other
deriving DecidableEq

structure WindowMessage where
  msg : WindowMessageId
  wParam : UInt64
  lParam : UInt64

def loword (l : UInt64) : UInt16 := l.toUInt16

def hiword (l : UInt64) : UInt16 := (l >>> 16).toUInt16

-- `GET_X_LPARAM` and `GET_Y_LPARAM`
def WindowMessage.position (m : WindowMessage) : Int × Int :=
  ((loword m.lParam).toInt16.toInt, (hiword m.lParam).toInt16.toInt)

def WindowMessage.keyCode (m : WindowMessage) : KeyCode :=
  vkToKeycode m.wParam.toUInt32.toInt32.toInt

def WindowMessage.wasDown (m : WindowMessage) : Bool := (m.lParam >>> 30) &&& 1 != 0

-- `GET_WHEEL_DELTA_WPARAM(wParam) / WHEEL_DELTA`
def WindowMessage.notches (m : WindowMessage) : Int := (hiword m.wParam).toInt16.toInt.tdiv 120

structure PlatformWindow where
  quit : Bool
  minimized : Bool
  focused : Bool
  resizedThisFrame : Bool
  fbWidth : Int
  fbHeight : Int
  keyDown : KeyCode → Bool
  keyTransitions : UInt32
  mouseX : Int
  mouseY : Int
  mouseDx : Int
  mouseDy : Int
  wheel : Int
  mouseButtons : UInt8
  haveLastMouse : Bool
  lastMouseX : Int
  lastMouseY : Int
  text : List UInt32

def textMax : Nat := 16

def PlatformWindow.press (w : PlatformWindow) (kc : KeyCode) (wasDown : Bool) : PlatformWindow :=
  if kc ≠ .unknown then
    { w with
      keyTransitions := if wasDown then w.keyTransitions else w.keyTransitions + 1
      keyDown := fun k => if k = kc then true else w.keyDown k }
  else w

def PlatformWindow.release (w : PlatformWindow) (kc : KeyCode) : PlatformWindow :=
  if kc ≠ .unknown then
    { w with
      keyTransitions := w.keyTransitions + 1
      keyDown := fun k => if k = kc then false else w.keyDown k }
  else w

def PlatformWindow.moveMouse (w : PlatformWindow) (x y : Int) : Option PlatformWindow :=
  (if w.haveLastMouse then
    (Checked.int32 (x - w.lastMouseX)).bind fun stepX =>
    (Checked.int32 (w.mouseDx + stepX)).bind fun mouseDx =>
    (Checked.int32 (y - w.lastMouseY)).bind fun stepY =>
    (Checked.int32 (w.mouseDy + stepY)).map fun mouseDy => { w with mouseDx, mouseDy }
  else some w).map fun w =>
    { w with
      lastMouseX := x
      lastMouseY := y
      haveLastMouse := true
      mouseX := x
      mouseY := y }

/-- What a message does to the window's state; `none` is a signed overflow. -/
def wndProc (w : PlatformWindow) (m : WindowMessage) : Option PlatformWindow :=
  match m.msg with
  | .erasebkgnd | .close | .destroy | .other => some w
  | .size =>
    some
      { w with
        fbWidth := (loword m.lParam).toNat
        fbHeight := (hiword m.lParam).toNat
        minimized := m.wParam == 1
        resizedThisFrame := true }
  | .setfocus => some { w with focused := true }
  | .killfocus => some { w with focused := false, keyDown := fun _ => false, mouseButtons := 0 }
  | .syskeydown | .keydown => some (w.press m.keyCode m.wasDown)
  | .syskeyup | .keyup => some (w.release m.keyCode)
  | .char =>
    if w.text.length < textMax ∧ 32 ≤ m.wParam ∧ m.wParam ≠ 127 then
      some { w with text := w.text ++ [m.wParam.toUInt32] }
    else some w
  | .mousemove => w.moveMouse m.position.1 m.position.2
  | .lbuttondown => some { w with mouseButtons := w.mouseButtons ||| 0x01 }
  | .lbuttonup => some { w with mouseButtons := w.mouseButtons &&& ~~~0x01 }
  | .rbuttondown => some { w with mouseButtons := w.mouseButtons ||| 0x02 }
  | .rbuttonup => some { w with mouseButtons := w.mouseButtons &&& ~~~0x02 }
  | .mbuttondown => some { w with mouseButtons := w.mouseButtons ||| 0x04 }
  | .mbuttonup => some { w with mouseButtons := w.mouseButtons &&& ~~~0x04 }
  | .mousewheel => (Checked.int32 (w.wheel + m.notches)).map fun wheel => { w with wheel }

structure PlatformWindowDesc where
  width : Int
  height : Int

def platformWindowOpen (desc : Option PlatformWindowDesc) : PlatformWindow where
  quit := false
  minimized := false
  focused := true
  resizedThisFrame := false
  fbWidth := (desc.filter fun desc => 0 < desc.width).elim 1280 (·.width)
  fbHeight := (desc.filter fun desc => 0 < desc.height).elim 720 (·.height)
  keyDown := fun _ => false
  keyTransitions := 0
  mouseX := 0
  mouseY := 0
  mouseDx := 0
  mouseDy := 0
  wheel := 0
  mouseButtons := 0
  haveLastMouse := false
  lastMouseX := 0
  lastMouseY := 0
  text := []

/-- What the pump takes from the queue or is sent while it does: a message for the window, or the
thread's `WM_QUIT`, which no window gets. -/
inductive PumpItem where
  | quit
  | message (m : WindowMessage)

structure PlatformFrameInput where
  down : KeyCode → Bool
  transitions : UInt32
  dx : Int
  dy : Int
  x : Int
  y : Int
  wheel : Int
  buttons : UInt8
  windowResized : Bool
  windowMinimized : Bool
  windowFocused : Bool
  fbWidth : Int
  fbHeight : Int
  textUtf32 : List UInt32

def PlatformWindow.startFrame (w : PlatformWindow) : PlatformWindow :=
  { w with
    mouseDx := 0
    mouseDy := 0
    wheel := 0
    keyTransitions := 0
    text := []
    resizedThisFrame := false }

def PlatformWindow.take (w : PlatformWindow) : PumpItem → Option PlatformWindow
  | .quit => some { w with quit := true }
  | .message m => wndProc w m

def PlatformWindow.frameInput (w : PlatformWindow) : PlatformFrameInput where
  down := w.keyDown
  transitions := w.keyTransitions
  dx := w.mouseDx
  dy := w.mouseDy
  x := w.mouseX
  y := w.mouseY
  wheel := w.wheel
  buttons := w.mouseButtons
  windowResized := w.resizedThisFrame
  windowMinimized := w.minimized
  windowFocused := w.focused
  fbWidth := w.fbWidth
  fbHeight := w.fbHeight
  textUtf32 := w.text

/-- `items` is what arrives before the queue is found empty. -/
def platformPumpEvents (w : PlatformWindow) (items : List PumpItem) :
    Option (PlatformFrameInput × Bool × PlatformWindow) :=
  (items.foldlM PlatformWindow.take w.startFrame).map fun w => (w.frameInput, !w.quit, w)

def platformWindowSize (w : Option PlatformWindow) : Int × Int :=
  (w.elim 0 (·.fbWidth), w.elim 0 (·.fbHeight))

end ChoonzMoba
