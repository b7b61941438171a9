import ChoonzMoba.Core.Handle
import ChoonzMoba.Library.Loop
import Mathlib.Logic.Function.Basic

namespace ChoonzMoba

structure DamageEvent where
  source : EntityId
  target : EntityId
  amount : Int32
deriving DecidableEq, Repr

def DamageEvent.zero : DamageEvent := ⟨.null, .null, 0⟩

structure DamageEventView where
  events : Nat → DamageEvent
  count : Nat

structure DamageEventQueue where
  buffers : Nat → Nat → DamageEvent
  counts : Nat → Nat
  capacity : Nat
  readIndex : Nat
  writeIndex : Nat

def DamageEventQueue.zeroed (capacity : Nat) : DamageEventQueue where
  buffers := fun _ _ => .zero
  counts := fun _ => 0
  capacity := capacity
  readIndex := 0
  writeIndex := 1

def damageEventQueueIsValid (queue : DamageEventQueue) : Bool :=
  decide (0 < queue.capacity) && decide (queue.readIndex < 2) && decide (queue.writeIndex < 2) &&
    decide (queue.readIndex ≠ queue.writeIndex) && decide (queue.counts 0 ≤ queue.capacity) &&
    decide (queue.counts 1 ≤ queue.capacity)

def damageEventIsCanonical (event : DamageEvent) : Bool :=
  if handleGen event.target.h = 0 ∨ event.amount < 0 then false
  else decide (event.source.h = handleNull) || decide (handleGen event.source.h ≠ 0)

def damageEventQueueAppend (queue : DamageEventQueue) (event : DamageEvent) :
    Bool × DamageEventQueue :=
  if !damageEventQueueIsValid queue || !damageEventIsCanonical event then (false, queue)
  else
    let write := queue.writeIndex
    let count := queue.counts write
    if queue.capacity ≤ count then (false, queue)
    else
      (true,
        { queue with
          buffers := Function.update queue.buffers write
            (Function.update (queue.buffers write) count event)
          counts := Function.update queue.counts write (count + 1) })

def damageEventQueuePublish (queue : DamageEventQueue) : Bool × DamageEventQueue :=
  if !damageEventQueueIsValid queue || decide (queue.counts queue.readIndex ≠ 0) then (false, queue)
  else
    let oldRead := queue.readIndex
    (true,
      { queue with
        readIndex := queue.writeIndex
        writeIndex := oldRead
        counts := Function.update queue.counts oldRead 0 })

def damageEventQueueRead (queue : DamageEventQueue) : Option DamageEventView :=
  if !damageEventQueueIsValid queue then none
  else some ⟨queue.buffers queue.readIndex, queue.counts queue.readIndex⟩

def damageEventQueueConsume (queue : DamageEventQueue) : Bool × DamageEventQueue :=
  if !damageEventQueueIsValid queue then (false, queue)
  else
    let read := queue.readIndex
    let cleared := Loop.forRange (queue.counts read)
      (fun events i => Function.update events i .zero) (queue.buffers read)
    (true,
      { queue with
        buffers := Function.update queue.buffers read cleared
        counts := Function.update queue.counts read 0 })

def DamageEventView.list (view : DamageEventView) : List DamageEvent :=
  (List.range view.count).map view.events

namespace DamageEventQueue

def readList (q : DamageEventQueue) : List DamageEvent :=
  (List.range (q.counts q.readIndex)).map (q.buffers q.readIndex)

def writeList (q : DamageEventQueue) : List DamageEvent :=
  (List.range (q.counts q.writeIndex)).map (q.buffers q.writeIndex)

structure Valid (q : DamageEventQueue) : Prop where
  capacity_pos : 0 < q.capacity
  read_lt : q.readIndex < 2
  write_lt : q.writeIndex < 2
  distinct : q.readIndex ≠ q.writeIndex
  counts_le : ∀ i < 2, q.counts i ≤ q.capacity

variable {q : DamageEventQueue}

theorem isValid_iff (q : DamageEventQueue) : damageEventQueueIsValid q = true ↔ q.Valid := by
  simp only [damageEventQueueIsValid, Bool.and_eq_true, decide_eq_true_eq]
  constructor
  · rintro ⟨⟨⟨⟨⟨hc, hr⟩, hw⟩, hd⟩, h0⟩, h1⟩
    refine ⟨hc, hr, hw, hd, fun i hi => ?_⟩
    rcases (by omega : i = 0 ∨ i = 1) with rfl | rfl
    · exact h0
    · exact h1
  · intro h
    exact ⟨⟨⟨⟨⟨h.capacity_pos, h.read_lt⟩, h.write_lt⟩, h.distinct⟩, h.counts_le 0 (by decide)⟩,
      h.counts_le 1 (by decide)⟩

theorem Valid.zeroed {capacity : Nat} (h : 0 < capacity) : (zeroed capacity).Valid :=
  ⟨h, Nat.zero_lt_two, Nat.one_lt_two, Nat.zero_ne_one, fun _ _ => Nat.zero_le _⟩

theorem readList_length (q : DamageEventQueue) : q.readList.length = q.counts q.readIndex := by
  simp [readList]

theorem writeList_length (q : DamageEventQueue) : q.writeList.length = q.counts q.writeIndex := by
  simp [writeList]

theorem readList_eq_nil (q : DamageEventQueue) : q.readList = [] ↔ q.counts q.readIndex = 0 := by
  rw [← List.length_eq_zero_iff, readList_length]

theorem writeList_eq_nil (q : DamageEventQueue) : q.writeList = [] ↔ q.counts q.writeIndex = 0 := by
  rw [← List.length_eq_zero_iff, writeList_length]

theorem append_spec (h : q.Valid) {event : DamageEvent} (hc : damageEventIsCanonical event = true)
    (hroom : q.writeList.length < q.capacity) :
    ∃ q', damageEventQueueAppend q event = (true, q') ∧ q'.Valid ∧ q'.capacity = q.capacity ∧
      q'.readList = q.readList ∧ q'.writeList = q.writeList ++ [event] := by
  rw [writeList_length] at hroom
  have hv := (isValid_iff q).mpr h
  have hdr : q.readIndex ≠ q.writeIndex := h.distinct
  simp only [damageEventQueueAppend, hv, hc, Bool.not_true, Bool.or_self, Bool.false_eq_true,
    if_false, if_neg (Nat.not_le_of_lt hroom)]
  refine ⟨_, rfl, ⟨h.capacity_pos, h.read_lt, h.write_lt, h.distinct, fun i hi => ?_⟩, rfl, ?_, ?_⟩
  · by_cases hi' : i = q.writeIndex
    · subst hi'
      simpa using Nat.succ_le_of_lt hroom
    · simpa [Function.update_of_ne hi'] using h.counts_le i hi
  · simp [readList, Function.update_of_ne hdr]
  · simp only [writeList, Function.update_self, List.range_succ, List.map_append, List.map_cons,
      List.map_nil]
    congr 1
    apply List.map_congr_left
    intro k hk
    exact Function.update_of_ne (Nat.ne_of_lt (List.mem_range.mp hk)) _ _

theorem append_rejected (q : DamageEventQueue) {event : DamageEvent}
    (h : ¬ (q.Valid ∧ damageEventIsCanonical event = true ∧ q.writeList.length < q.capacity)) :
    damageEventQueueAppend q event = (false, q) := by
  rw [← isValid_iff, writeList_length] at h
  unfold damageEventQueueAppend
  split
  · rfl
  · next hvc =>
    simp only [Bool.or_eq_true, Bool.not_eq_true', not_or, Bool.not_eq_false] at hvc
    have hfull : q.capacity ≤ q.counts q.writeIndex := by
      by_contra hlt
      exact h ⟨hvc.1, hvc.2, Nat.lt_of_not_le hlt⟩
    simp [hfull]

theorem publish_spec (h : q.Valid) (hread : q.readList = []) :
    ∃ q', damageEventQueuePublish q = (true, q') ∧ q'.Valid ∧ q'.capacity = q.capacity ∧
      q'.readList = q.writeList ∧ q'.writeList = [] := by
  rw [readList_eq_nil] at hread
  have hv := (isValid_iff q).mpr h
  have hdw : q.writeIndex ≠ q.readIndex := h.distinct.symm
  simp only [damageEventQueuePublish, hv, hread, ne_eq, not_true_eq_false, decide_false,
    Bool.not_true, Bool.or_self, Bool.false_eq_true, if_false]
  refine ⟨_, rfl, ⟨h.capacity_pos, h.write_lt, h.read_lt, hdw, fun i hi => ?_⟩, rfl, ?_, ?_⟩
  · by_cases hi' : i = q.readIndex
    · subst hi'; simp
    · simpa [Function.update_of_ne hi'] using h.counts_le i hi
  · simp [readList, writeList, Function.update_of_ne hdw]
  · simp [writeList]

theorem publish_rejected (q : DamageEventQueue) (h : ¬ (q.Valid ∧ q.readList = [])) :
    damageEventQueuePublish q = (false, q) := by
  rw [← isValid_iff, readList_eq_nil] at h
  unfold damageEventQueuePublish
  split
  · rfl
  · next hvc =>
    simp only [Bool.or_eq_true, Bool.not_eq_true', decide_eq_true_eq, not_or, Bool.not_eq_false,
      ne_eq, not_not] at hvc
    exact absurd hvc h

theorem read_spec (h : q.Valid) : ∃ view, damageEventQueueRead q = some view ∧
    view.list = q.readList := by
  simp only [damageEventQueueRead, (isValid_iff q).mpr h, Bool.not_true, Bool.false_eq_true, if_false]
  exact ⟨_, rfl, rfl⟩

theorem consume_spec (h : q.Valid) :
    ∃ q', damageEventQueueConsume q = (true, q') ∧ q'.Valid ∧ q'.capacity = q.capacity ∧
      q'.readList = [] ∧ q'.writeList = q.writeList := by
  have hv := (isValid_iff q).mpr h
  have hdw : q.writeIndex ≠ q.readIndex := h.distinct.symm
  simp only [damageEventQueueConsume, hv, Bool.not_true, Bool.false_eq_true, if_false]
  refine ⟨_, rfl, ⟨h.capacity_pos, h.read_lt, h.write_lt, h.distinct, fun i hi => ?_⟩, rfl, ?_, ?_⟩
  · by_cases hi' : i = q.readIndex
    · subst hi'; simp
    · simpa [Function.update_of_ne hi'] using h.counts_le i hi
  · simp [readList]
  · simp [writeList, Function.update_of_ne hdw]

end DamageEventQueue

end ChoonzMoba
