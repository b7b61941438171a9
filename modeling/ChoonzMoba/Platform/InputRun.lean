import ChoonzMoba.Library.System
import ChoonzMoba.Platform.InputLog

namespace ChoonzMoba

/-- A message that a window call brings with it, or a pump and what it returned. -/
inductive InputLabel where
  | sent (m : WindowMessage)
  | pumped (items : List PumpItem) (input : PlatformFrameInput) (running : Bool)

def inputSystem (desc : Option PlatformWindowDesc) : System PlatformWindow InputLabel where
  initial w := w = platformWindowOpen desc
  next w l w' :=
    match l with
    | .sent m => wndProc w m = some w'
    | .pumped items input running => platformPumpEvents w items = some (input, running, w')

def arrivals (items : List PumpItem) : List InputEvent := items.reverse.map (·.event)

def InputLabel.log : InputLabel → List InputEvent
  | sent m => [m.event]
  | pumped items _ _ => arrivals items ++ [.frame]

def logOf (past : List InputLabel) : List InputEvent := past.flatMap InputLabel.log

def firstMouse (log : List InputEvent) : Option (Int × Int) :=
  log.reverse.findSome? (·.position)

def travelled (past : List InputLabel) : Int × Int :=
  (past.map fun l =>
    match l with
    | .sent _ => (0, 0)
    | .pumped _ input _ => (input.dx, input.dy)).sum

-- the way of the moves that come between two pumps, which no frame's input reports
def strayed : List InputLabel → Int × Int
  | [] => (0, 0)
  | .sent m :: past => mouseStep (mouseAt (logOf past)) m.event.position + strayed past
  | .pumped _ _ _ :: past => strayed past

def SaysLast {V : Type} (word : InputEvent → Option V) (v : V) (log : List InputEvent) : Prop :=
  ∃ newer e older, log = newer ++ e :: older ∧ word e = some v ∧ ∀ n ∈ newer, word n = none

/-- The input of a frame, from all events so far (`log`, newest first), those before the frame
(`earlier`) and those of the frame in their order. -/
structure PlatformFrameInput.Shows (input : PlatformFrameInput) (desc : Option PlatformWindowDesc)
    (log earlier frame : List InputEvent) : Prop where
  down : ∀ k, input.down k = true ↔ SaysLast (·.keyDown k) true log
  buttons : input.buttons ≤ 7 ∧
    ∀ b : MouseButton, input.buttons &&& b.mask ≠ 0 ↔ SaysLast (·.held b) true log
  transitions : input.transitions = UInt32.ofNat (frame.map (·.counted)).sum
  position : (input.x, input.y) = (mouseAt log).getD (0, 0)
  moved : (input.dx, input.dy) = mouseStep ((mouseAt earlier).or (frame.findSome? (·.position)))
    (mouseAt log)
  wheel : input.wheel = (frame.map (·.notches)).sum
  resized : input.windowResized = true ↔ ∃ e ∈ frame, e.extent.isSome
  minimized : input.windowMinimized = lastWord (·.minimized) false log
  focused : input.windowFocused = lastWord (·.focused) true log
  extent : (input.fbWidth, input.fbHeight) = lastWord (·.extent)
    ((platformWindowOpen desc).fbWidth, (platformWindowOpen desc).fbHeight) log
  text : input.textUtf32 = (frame.filterMap (·.typed)).take textMax

section

variable {desc : Option PlatformWindowDesc} {opened w w' : PlatformWindow} {log : List InputEvent}
  {items : List PumpItem} {past : List InputLabel}

theorem arrivals_cons (i : PumpItem) : arrivals (i :: items) ++ log =
    arrivals items ++ (i.event :: log) := by
  rw [arrivals, List.reverse_cons, List.map_append, List.append_assoc]
  rfl

theorem PlatformWindow.Shows.take (h : opened.Shows w log) {i : PumpItem}
    (htake : w.take i = some w') : opened.Shows w' (i.event :: log) := by
  cases i with
  | quit =>
    cases htake
    exact h.event (quit_effect w) (PumpItem.event_ne_frame .quit)
  | message m => exact h.event (wndProc_effect htake) m.event_ne_frame

theorem PlatformWindow.Shows.takes (h : opened.Shows w log)
    (hitems : items.foldlM PlatformWindow.take w = some w') :
    opened.Shows w' (arrivals items ++ log) := by
  induction items generalizing w log with
  | nil =>
    cases hitems
    exact h
  | cons i items ih =>
    rw [List.foldlM_cons] at hitems
    obtain ⟨middle, htake, hrest⟩ := Option.bind_eq_some_iff.mp hitems
    rw [arrivals_cons]
    exact ih (h.take htake) hrest

theorem PlatformWindow.Shows.takes_ok (h : opened.Shows w log) (hpacked : ∀ e ∈ log, e.Packed)
    (hturns : turns (thisFrame log) + turns (items.map (·.event)) ≤ 2 ^ 22) :
    ∃ w', items.foldlM PlatformWindow.take w = some w' := by
  induction items generalizing w log with
  | nil => exact ⟨w, rfl⟩
  | cons i items ih =>
    rw [List.map_cons, turns_cons] at hturns
    have htake : ∃ middle, w.take i = some middle := by
      cases i with
      | quit => exact ⟨_, rfl⟩
      | message m => exact h.wndProc_ok hpacked m fun _ => by omega
    obtain ⟨middle, hmiddle⟩ := htake
    obtain ⟨w', hw'⟩ := ih (h.take hmiddle)
      (List.forall_mem_cons.mpr ⟨i.event_packed, hpacked⟩) (by
        rw [thisFrame_cons i.event_ne_frame, turns_cons]
        omega)
    exact ⟨w', by rw [List.foldlM_cons, hmiddle]; exact hw'⟩

theorem arrivals_no_frame : ∀ e ∈ arrivals items, isFrame e = false := by
  intro e he
  obtain ⟨i, -, rfl⟩ := List.mem_map.mp he
  exact decide_eq_false i.event_ne_frame

theorem arrivals_reverse : (arrivals items).reverse = items.map (·.event) := by
  rw [arrivals, ← List.map_reverse, List.reverse_reverse]

theorem thisFrame_arrivals : thisFrame (arrivals items ++ .frame :: log) = arrivals items :=
  sinceMark_append arrivals_no_frame rfl

theorem mouseFrom_frame {newer : List InputEvent} (h : ∀ e ∈ newer, isFrame e = false) :
    mouseFrom (newer ++ .frame :: log) =
      (mouseAt log).or (newer.reverse.findSome? (·.position)) := by
  induction newer with
  | nil =>
    rw [List.reverse_nil, List.findSome?_nil, Option.or_none]
    exact if_pos rfl
  | cons e newer ih =>
    rw [List.forall_mem_cons] at h
    have hframe : e ≠ .frame := of_decide_eq_false h.1
    have hcons : mouseFrom (e :: newer ++ .frame :: log) =
        (mouseFrom (newer ++ .frame :: log)).or e.position := if_neg hframe
    rw [hcons, ih h.2, List.reverse_cons, List.findSome?_append, List.findSome?_singleton,
      Option.or_assoc]

theorem saysLast_iff {word : InputEvent → Option Bool} :
    lastWord word false log = true ↔ SaysLast word true log := by
  rw [lastWord_eq_iff, SaysLast]
  simp

theorem PlatformWindow.Shows.frameInput_shows
    (h : (platformWindowOpen desc).Shows w (arrivals items ++ .frame :: log)) :
    w.frameInput.Shows desc (arrivals items ++ .frame :: log) log (items.map (·.event)) := by
  have hframe : thisFrame (arrivals items ++ .frame :: log) = arrivals items := thisFrame_arrivals
  have hevents : (arrivals items).reverse = items.map (·.event) := arrivals_reverse
  constructor
  case down => exact fun k => by rw [← saysLast_iff, ← h.keyDown]; rfl
  case buttons =>
    refine ⟨h.buttons, fun b => ?_⟩
    rw [← saysLast_iff, ← h.held]
    simp [PlatformWindow.frameInput, PlatformWindow.holds]
  case transitions =>
    rw [← hevents, List.map_reverse, List.sum_reverse, ← hframe]
    exact h.transitions
  case position => exact h.mouse
  case moved =>
    have hmoved := h.moved
    rw [mouseFrom_frame arrivals_no_frame, hevents] at hmoved
    exact hmoved
  case wheel =>
    rw [← hevents, List.map_reverse, List.sum_reverse, ← hframe]
    exact h.wheel
  case resized =>
    have hresized := h.resized
    rw [hframe] at hresized
    rw [← hevents]
    simp only [List.mem_reverse]
    rw [← List.any_eq_true, ← hresized]
    rfl
  case minimized => exact h.minimized
  case focused => exact h.focused
  case extent => exact h.extent
  case text =>
    rw [← hevents, ← hframe]
    exact h.text

theorem platformPumpEvents_eq_some_iff {input : PlatformFrameInput} {running : Bool} :
    platformPumpEvents w items = some (input, running, w') ↔
      items.foldlM PlatformWindow.take w.startFrame = some w' ∧ input = w'.frameInput ∧
        running = !w'.quit := by
  rw [platformPumpEvents, Option.map_eq_some_iff]
  constructor
  · rintro ⟨next, hnext, heq⟩
    cases heq
    exact ⟨hnext, rfl, rfl⟩
  · rintro ⟨hnext, rfl, rfl⟩
    exact ⟨w', hnext, rfl⟩

theorem inputSystem_shows (h : (inputSystem desc).Trace past w) :
    (platformWindowOpen desc).Shows w (logOf past) ∧ ∀ e ∈ logOf past, e.Packed := by
  induction h with
  | start h =>
    cases h
    exact ⟨platformWindowOpen_shows desc, fun e he => absurd he List.not_mem_nil⟩
  | @step past w w' l _ hnext ih =>
    obtain ⟨hshows, hpacked⟩ := ih
    have hlog : logOf (l :: past) = l.log ++ logOf past := List.flatMap_cons
    rw [hlog]
    cases l with
    | sent m =>
      exact ⟨hshows.event (wndProc_effect hnext) m.event_ne_frame,
        List.forall_mem_cons.mpr ⟨m.event_packed, hpacked⟩⟩
    | pumped items input running =>
      rw [InputLabel.log, List.append_assoc, List.singleton_append]
      refine ⟨hshows.frame.takes (platformPumpEvents_eq_some_iff.mp hnext).1, fun e he => ?_⟩
      rcases List.mem_append.mp he with he | he
      · obtain ⟨i, -, rfl⟩ := List.mem_map.mp he
        exact i.event_packed
      · rcases List.mem_cons.mp he with rfl | he
        · exact InputEvent.packed_silent rfl rfl
        · exact hpacked e he

theorem mouseAt_append (newer : List InputEvent) :
    mouseAt (newer ++ log) = (mouseAt newer).or (mouseAt log) := by
  induction newer with
  | nil => rfl
  | cons e newer ih => rw [List.cons_append, mouseAt_cons, mouseAt_cons, ih, Option.or_assoc]

theorem firstMouse_append (newer : List InputEvent) :
    firstMouse (newer ++ log) = (firstMouse log).or (firstMouse newer) := by
  rw [firstMouse, List.reverse_append, List.findSome?_append]
  rfl

theorem mouseAt_eq_none_iff : mouseAt log = none ↔ firstMouse log = none := by
  induction log with
  | nil => exact iff_of_true rfl rfl
  | cons e log ih =>
    have hfirst : firstMouse (e :: log) = (firstMouse log).or e.position := by
      rw [← List.singleton_append, firstMouse_append]
      exact congrArg _ List.findSome?_singleton
    rw [mouseAt_cons, hfirst, Option.or_eq_none_iff, Option.or_eq_none_iff, ih, and_comm]

theorem mouseStep_joins {first began moved latest : Option (Int × Int)}
    (hfirst : began = none ↔ first = none) :
    mouseStep (began.or moved) (latest.or began) + mouseStep first began =
      mouseStep (first.or moved) (latest.or began) := by
  cases began with
  | none =>
    rw [hfirst.mp rfl]
    exact add_zero _
  | some p =>
    cases first with
    | none => cases hfirst.mpr rfl
    | some f =>
      cases latest with
      | none => simp
      | some q => simp

theorem travelled_trace (h : (inputSystem desc).Trace past w) :
    travelled past + strayed past = mouseStep (firstMouse (logOf past)) (mouseAt (logOf past)) := by
  induction h with
  | start h => rfl
  | @step past w w' l htrace hnext ih =>
    have hlog : logOf (l :: past) = l.log ++ logOf past := List.flatMap_cons
    cases l with
    | sent m =>
      have hsum : travelled (.sent m :: past) = (0, 0) + travelled past := List.sum_cons
      have hstep : strayed (.sent m :: past) =
          mouseStep (mouseAt (logOf past)) m.event.position + strayed past := rfl
      have hfirst : firstMouse [m.event] = m.event.position := List.findSome?_singleton
      rw [hsum, hstep, hlog, InputLabel.log, List.singleton_append, mouseAt_cons,
        ← List.singleton_append, firstMouse_append, hfirst,
        ← mouseStep_trans mouseAt_eq_none_iff.symm, ← ih]
      rw [show ((0, 0) : Int × Int) = 0 from rfl, zero_add, add_comm (mouseStep _ _), add_assoc]
    | pumped items input running =>
      obtain ⟨hitems, rfl, -⟩ := platformPumpEvents_eq_some_iff.mp hnext
      have hshows := ((inputSystem_shows htrace).1.frame.takes hitems).frameInput_shows
      have hsum : travelled (.pumped items w'.frameInput running :: past) =
          (w'.frameInput.dx, w'.frameInput.dy) + travelled past := List.sum_cons
      have hstep : strayed (.pumped items w'.frameInput running :: past) = strayed past := rfl
      have hfirst : firstMouse (arrivals items ++ .frame :: logOf past) =
          (firstMouse (logOf past)).or ((items.map (·.event)).findSome? (·.position)) := by
        rw [firstMouse_append, ← List.singleton_append, firstMouse_append, firstMouse,
          firstMouse, firstMouse, arrivals_reverse]
        simp
      rw [hsum, hstep, add_assoc, ih, hshows.moved, hlog, InputLabel.log, List.append_assoc,
        List.singleton_append, hfirst, mouseAt_append]
      exact mouseStep_joins mouseAt_eq_none_iff

theorem strayed_eq_zero (hsent : ∀ m, .sent m ∈ past → m.event.position = none) :
    strayed past = 0 := by
  induction past with
  | nil => rfl
  | cons l past ih =>
    have hrest := ih fun m hm => hsent m (List.mem_cons_of_mem _ hm)
    cases l with
    | sent m =>
      have hstep : strayed (.sent m :: past) =
          mouseStep (mouseAt (logOf past)) m.event.position + strayed past := rfl
      rw [hstep, hsent m List.mem_cons_self, hrest]
      cases mouseAt (logOf past) <;> rfl
    | pumped items input running => exact hrest

theorem platformInput_exact (desc : Option PlatformWindowDesc) {past : List InputLabel}
    {w : PlatformWindow} (h : (inputSystem desc).Trace past w) :
    (∀ m, (m.msg = .mousewheel → turns (thisFrame (logOf past)) ≤ 2 ^ 22) →
      ∃ w', wndProc w m = some w') ∧
    (∀ (items : List PumpItem) w' m, items.foldlM PlatformWindow.take w.startFrame = some w' →
      (m.msg = .mousewheel → turns (items.map (·.event)) ≤ 2 ^ 22) →
        ∃ w'', wndProc w' m = some w'') ∧
    (∀ items, turns (items.map (·.event)) ≤ 2 ^ 22 →
      ∃ input running w', platformPumpEvents w items = some (input, running, w')) ∧
    (∀ items input running w', platformPumpEvents w items = some (input, running, w') →
      input.Shows desc (arrivals items ++ .frame :: logOf past) (logOf past)
        (items.map (·.event)) ∧
      (running = false ↔ .quit ∈ items.map (·.event) ∨ .quit ∈ logOf past)) ∧
    travelled past + strayed past = mouseStep (firstMouse (logOf past)) (mouseAt (logOf past)) ∧
    ((∀ m, .sent m ∈ past → m.event.position = none) → strayed past = 0) ∧
    platformWindowSize (some w) = lastWord (·.extent)
      ((platformWindowOpen desc).fbWidth, (platformWindowOpen desc).fbHeight) (logOf past) := by
  obtain ⟨hshows, hpacked⟩ := inputSystem_shows h
  have hstarted : ∀ e ∈ InputEvent.frame :: logOf past, e.Packed :=
    List.forall_mem_cons.mpr ⟨InputEvent.packed_silent rfl rfl, hpacked⟩
  refine ⟨fun m => hshows.wndProc_ok hpacked m, fun items w' m hitems hturns => ?_,
    fun items hturns => ?_, fun items input running w' hpump => ?_, travelled_trace h,
    strayed_eq_zero, hshows.extent⟩
  · refine (hshows.frame.takes hitems).wndProc_ok (fun e he => ?_) m fun hwheel => ?_
    · rcases List.mem_append.mp he with he | he
      · obtain ⟨i, -, rfl⟩ := List.mem_map.mp he
        exact i.event_packed
      · exact hstarted e he
    · have hfew := hturns hwheel
      rwa [thisFrame_arrivals, turns, ← List.countP_reverse, arrivals_reverse]
  · have hframe : turns (thisFrame (.frame :: logOf past)) + turns (items.map (·.event)) ≤
        2 ^ 22 := by
      rw [thisFrame_frame]
      exact (Nat.zero_add _).trans_le hturns
    obtain ⟨w', hw'⟩ := hshows.frame.takes_ok hstarted hframe
    exact ⟨_, _, w', platformPumpEvents_eq_some_iff.mpr ⟨hw', rfl, rfl⟩⟩
  · obtain ⟨hitems, rfl, rfl⟩ := platformPumpEvents_eq_some_iff.mp hpump
    have hnext := hshows.frame.takes hitems
    have hmem : .quit ∈ arrivals items ↔ .quit ∈ items.map (·.event) := by
      rw [← arrivals_reverse, List.mem_reverse]
    refine ⟨hnext.frameInput_shows, ?_⟩
    rw [hnext.quit, Bool.not_eq_false', decide_eq_true_eq, List.mem_append, List.mem_cons, hmem]
    simp only [reduceCtorEq, false_or]

def firstPump : List PumpItem :=
  [.message ⟨.keydown, 0x41, 0⟩, .message ⟨.mousemove, 0, 0x0014000A⟩,
    .message ⟨.lbuttondown, 1, 0x0014000A⟩]

def secondPump : List PumpItem :=
  [.message ⟨.mousemove, 0, 0x00160011⟩, .message ⟨.keydown, 0x42, 0⟩,
    .message ⟨.char, 0x62, 0⟩, .message ⟨.mousewheel, 0x00780000, 0⟩,
    .message ⟨.size, 0, 0x01E00280⟩]

def secondFrame : List InputEvent :=
  [.size 640 480 false, .wheel 1, .char 0x62, .key (.letter ⟨1, by decide⟩) true true,
    .move (17, 22), .frame, .focus false, .move (15, 25), .button .left true, .move (10, 20),
    .key (.letter ⟨0, by decide⟩) true true, .frame]

theorem platformInput_exact_focusLost : ∃ past w input,
    (inputSystem (some ⟨800, 600⟩)).Trace past w ∧ logOf past = secondFrame ∧
    past.head? = some (.pumped secondPump input true) ∧
    input.down (.letter ⟨0, by decide⟩) = false ∧ input.down (.letter ⟨1, by decide⟩) = true ∧
    (input.dx, input.dy) = (2, -3) ∧ input.wheel = 1 ∧ input.textUtf32 = [0x62] ∧
    (input.fbWidth, input.fbHeight) = (640, 480) ∧ travelled past + strayed past = (7, 2) := by
  have start : (inputSystem (some ⟨800, 600⟩)).Trace [] (platformWindowOpen (some ⟨800, 600⟩)) :=
    .start rfl
  obtain ⟨-, -, htotal, -⟩ := platformInput_exact _ start
  obtain ⟨input, running, w, hpump⟩ := htotal firstPump (by decide)
  have first : (inputSystem (some ⟨800, 600⟩)).Trace [.pumped firstPump input running] w :=
    .step start hpump
  obtain ⟨hsent, -⟩ := platformInput_exact _ first
  obtain ⟨w₁, hmove⟩ := hsent ⟨.mousemove, 0, 0x0019000F⟩ fun h => (by cases h)
  have moved : (inputSystem (some ⟨800, 600⟩)).Trace
      [.sent ⟨.mousemove, 0, 0x0019000F⟩, .pumped firstPump input running] w₁ := .step first hmove
  obtain ⟨hsent, -⟩ := platformInput_exact _ moved
  obtain ⟨w₂, hlost⟩ := hsent ⟨.killfocus, 0, 0⟩ fun h => (by cases h)
  have lost : (inputSystem (some ⟨800, 600⟩)).Trace [.sent ⟨.killfocus, 0, 0⟩,
      .sent ⟨.mousemove, 0, 0x0019000F⟩, .pumped firstPump input running] w₂ := .step moved hlost
  obtain ⟨-, -, htotal, hexact, -⟩ := platformInput_exact _ lost
  obtain ⟨input', running', w₃, hpump'⟩ := htotal secondPump (by decide)
  obtain ⟨hshows, hquit⟩ := hexact secondPump input' running' w₃ hpump'
  have last : (inputSystem (some ⟨800, 600⟩)).Trace [.pumped secondPump input' running',
      .sent ⟨.killfocus, 0, 0⟩, .sent ⟨.mousemove, 0, 0x0019000F⟩,
      .pumped firstPump input running] w₃ := .step lost hpump'
  obtain ⟨-, -, -, -, hway, -⟩ := platformInput_exact _ last
  have hlog : logOf [.pumped secondPump input' running', .sent ⟨.killfocus, 0, 0⟩,
      .sent ⟨.mousemove, 0, 0x0019000F⟩, .pumped firstPump input running] = secondFrame := by rfl
  replace hshows : input'.Shows (some ⟨800, 600⟩) secondFrame (secondFrame.drop 6)
      (secondPump.map (·.event)) := hshows
  replace hquit : running' = false ↔ .quit ∈ secondPump.map (·.event) ∨ .quit ∈ secondFrame.drop 6 :=
    hquit
  cases running' with
  | false => exact absurd (hquit.mp rfl) (by decide)
  | true =>
    rw [hlog] at hway
    refine ⟨_, w₃, input', last, hlog, rfl, ?_, ?_, hshows.moved, hshows.wheel, hshows.text,
      hshows.extent, hway⟩
    · refine Bool.eq_false_iff.mpr fun hdown => ?_
      exact absurd (saysLast_iff.mpr ((hshows.down (.letter ⟨0, by decide⟩)).mp hdown)) (by decide)
    · exact (hshows.down (.letter ⟨1, by decide⟩)).mpr (saysLast_iff.mp (by decide))

end

end ChoonzMoba
