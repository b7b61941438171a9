import ChoonzMoba.Library.System
import ChoonzMoba.Sim.InitSpec

namespace ChoonzMoba

inductive QueueEvent where
  | appended (event : DamageEvent) (accepted : Bool)
  | published (accepted : Bool)
  | viewed (view : Option DamageEventView)
  | consumed (accepted : Bool)

def damageEventQueueSystem : System DamageEventQueue QueueEvent where
  initial q := ∃ arena pushed capacity,
    damageEventQueueInit arena capacity = some (pushed, some q)
  next q step r :=
    match step with
    | .appended event accepted => damageEventQueueAppend q event = (accepted, r)
    | .published accepted => damageEventQueuePublish q = (accepted, r)
    | .viewed view => damageEventQueueRead q = view ∧ r = q
    | .consumed accepted => damageEventQueueConsume q = (accepted, r)

def pendingBatch : List QueueEvent → List DamageEvent
  | [] => []
  | .appended event true :: past => pendingBatch past ++ [event]
  | .appended _ false :: past => pendingBatch past
  | .published true :: _ => []
  | .published false :: past => pendingBatch past
  | .viewed _ :: past => pendingBatch past
  | .consumed _ :: past => pendingBatch past

def readableBatch : List QueueEvent → List DamageEvent
  | [] => []
  | .appended _ _ :: past => readableBatch past
  | .published true :: past => pendingBatch past
  | .published false :: past => readableBatch past
  | .viewed _ :: past => readableBatch past
  | .consumed true :: _ => []
  | .consumed false :: past => readableBatch past

def batches : List QueueEvent → List (List DamageEvent)
  | [] => []
  | .appended _ _ :: past => batches past
  | .published true :: past => batches past ++ [pendingBatch past]
  | .published false :: past => batches past
  | .viewed _ :: past => batches past
  | .consumed _ :: past => batches past

def acceptedEvents : List QueueEvent → List DamageEvent
  | [] => []
  | .appended event true :: past => acceptedEvents past ++ [event]
  | .appended _ false :: past => acceptedEvents past
  | .published _ :: past => acceptedEvents past
  | .viewed _ :: past => acceptedEvents past
  | .consumed _ :: past => acceptedEvents past

theorem batches_flatten (past : List QueueEvent) :
    (batches past).flatten ++ pendingBatch past = acceptedEvents past := by
  induction past with
  | nil => rfl
  | cons step past ih =>
    match step with
    | .appended event true =>
      rw [batches, pendingBatch, acceptedEvents, ← List.append_assoc, ih]
    | .published true =>
      rw [batches, pendingBatch, acceptedEvents, List.flatten_append, List.flatten_singleton,
        List.append_nil, ih]
    | .appended event false => exact ih
    | .published false => exact ih
    | .viewed view => exact ih
    | .consumed accepted => exact ih

theorem readableBatch_last (past : List QueueEvent) :
    readableBatch past = [] ∨ (batches past).getLast? = some (readableBatch past) := by
  induction past with
  | nil => exact Or.inl rfl
  | cons step past ih =>
    match step with
    | .published true => exact Or.inr (List.getLast?_concat ..)
    | .consumed true => exact Or.inl rfl
    | .appended event accepted => exact ih
    | .published false => exact ih
    | .viewed view => exact ih
    | .consumed false => exact ih

namespace DamageEventQueue

structure After (past : List QueueEvent) (q : DamageEventQueue) : Prop where
  valid : q.Valid
  readList : q.readList = readableBatch past
  writeList : q.writeList = pendingBatch past

variable {past : List QueueEvent} {step : QueueEvent} {q r : DamageEventQueue}

theorem Valid.append_cases (h : q.Valid) (event : DamageEvent) {accepted : Bool}
    (happend : damageEventQueueAppend q event = (accepted, r)) :
    (accepted = true ↔
      damageEventIsCanonical event = true ∧ q.writeList.length < q.capacity) ∧
    (accepted = true → r.Valid ∧ r.capacity = q.capacity ∧ r.readList = q.readList ∧
      r.writeList = q.writeList ++ [event]) ∧ (accepted = false → r = q) := by
  by_cases hok : damageEventIsCanonical event = true ∧ q.writeList.length < q.capacity
  · obtain ⟨q', hq', hspec⟩ := append_spec h hok.1 hok.2
    rw [hq'] at happend
    obtain ⟨rfl, rfl⟩ := Prod.mk.inj happend
    exact ⟨iff_of_true rfl hok, fun _ => hspec, Bool.noConfusion⟩
  · rw [append_rejected q fun hall => hok hall.2] at happend
    obtain ⟨rfl, rfl⟩ := Prod.mk.inj happend
    exact ⟨iff_of_false Bool.noConfusion hok, Bool.noConfusion, fun _ => rfl⟩

theorem Valid.publish_cases (h : q.Valid) {accepted : Bool}
    (hpublish : damageEventQueuePublish q = (accepted, r)) :
    (accepted = true ↔ q.readList = []) ∧
    (accepted = true → r.Valid ∧ r.capacity = q.capacity ∧ r.readList = q.writeList ∧
      r.writeList = []) ∧ (accepted = false → r = q) := by
  by_cases hread : q.readList = []
  · obtain ⟨q', hq', hspec⟩ := publish_spec h hread
    rw [hq'] at hpublish
    obtain ⟨rfl, rfl⟩ := Prod.mk.inj hpublish
    exact ⟨iff_of_true rfl hread, fun _ => hspec, Bool.noConfusion⟩
  · rw [publish_rejected q fun hall => hread hall.2] at hpublish
    obtain ⟨rfl, rfl⟩ := Prod.mk.inj hpublish
    exact ⟨iff_of_false Bool.noConfusion hread, Bool.noConfusion, fun _ => rfl⟩

theorem Valid.consume_cases (h : q.Valid) {accepted : Bool}
    (hconsume : damageEventQueueConsume q = (accepted, r)) :
    accepted = true ∧ r.Valid ∧ r.capacity = q.capacity ∧ r.readList = [] ∧
      r.writeList = q.writeList := by
  obtain ⟨q', hq', hspec⟩ := consume_spec h
  rw [hq'] at hconsume
  obtain ⟨rfl, rfl⟩ := Prod.mk.inj hconsume
  exact ⟨rfl, hspec⟩

theorem After.next (h : After past q) (hnext : damageEventQueueSystem.next q step r) :
    After (step :: past) r := by
  match step with
  | .appended event accepted =>
    obtain ⟨-, haccepted, hrejected⟩ := h.valid.append_cases event hnext
    cases accepted with
    | true =>
      obtain ⟨hvalid, -, hread, hwrite⟩ := haccepted rfl
      exact ⟨hvalid, hread.trans h.readList, hwrite.trans (congrArg (· ++ [event]) h.writeList)⟩
    | false =>
      rw [hrejected rfl]
      exact ⟨h.valid, h.readList, h.writeList⟩
  | .published accepted =>
    obtain ⟨-, haccepted, hrejected⟩ := h.valid.publish_cases hnext
    cases accepted with
    | true =>
      obtain ⟨hvalid, -, hread, hwrite⟩ := haccepted rfl
      exact ⟨hvalid, hread.trans h.writeList, hwrite⟩
    | false =>
      rw [hrejected rfl]
      exact ⟨h.valid, h.readList, h.writeList⟩
  | .viewed view =>
    rw [hnext.2]
    exact ⟨h.valid, h.readList, h.writeList⟩
  | .consumed accepted =>
    obtain ⟨rfl, hvalid, -, hread, hwrite⟩ := h.valid.consume_cases hnext
    exact ⟨hvalid, hread, hwrite.trans h.writeList⟩

theorem after_init (h : damageEventQueueSystem.initial q) : After [] q := by
  obtain ⟨arena, pushed, capacity, hinit⟩ := h
  have hpos : 0 < capacity := by
    refine Nat.pos_of_ne_zero fun hzero => ?_
    simp [damageEventQueueInit, damageEventQueueMemoryRequired, hzero] at hinit
  rw [damageEventQueueInit_some hinit]
  exact ⟨.zeroed hpos, rfl, rfl⟩

theorem after_trace (h : damageEventQueueSystem.Trace past q) : After past q := by
  induction h with
  | start h => exact after_init h
  | step _ hnext ih => exact ih.next hnext

end DamageEventQueue

open DamageEventQueue

theorem damageEventQueue_refines_lists {past : List QueueEvent} {q : DamageEventQueue}
    (h : damageEventQueueSystem.Trace past q) :
    (q.readList = readableBatch past ∧ q.writeList = pendingBatch past) ∧
    (q.readList.length ≤ q.capacity ∧ q.writeList.length ≤ q.capacity) ∧
    ((batches past).flatten ++ q.writeList = acceptedEvents past ∧
      (q.readList = [] ∨ (batches past).getLast? = some q.readList)) ∧
    (∀ event accepted r, damageEventQueueAppend q event = (accepted, r) →
      (accepted = true ↔
        damageEventIsCanonical event = true ∧ q.writeList.length < q.capacity) ∧
      (accepted = true → r.capacity = q.capacity ∧ r.readList = q.readList ∧
        r.writeList = q.writeList ++ [event]) ∧ (accepted = false → r = q)) ∧
    (∀ accepted r, damageEventQueuePublish q = (accepted, r) →
      (accepted = true ↔ q.readList = []) ∧
      (accepted = true → r.capacity = q.capacity ∧ r.readList = q.writeList ∧ r.writeList = []) ∧
      (accepted = false → r = q)) ∧
    (∃ view, damageEventQueueRead q = some view ∧ view.list = q.readList) ∧
    (∀ accepted r, damageEventQueueConsume q = (accepted, r) →
      accepted = true ∧ r.capacity = q.capacity ∧ r.readList = [] ∧ r.writeList = q.writeList) := by
  have hafter := after_trace h
  refine ⟨⟨hafter.readList, hafter.writeList⟩, ⟨?_, ?_⟩, ⟨?_, ?_⟩,
    fun event accepted r happend => ?_, fun accepted r hpublish => ?_, read_spec hafter.valid,
    fun accepted r hconsume => ?_⟩
  · rw [readList_length]
    exact hafter.valid.counts_le _ hafter.valid.read_lt
  · rw [writeList_length]
    exact hafter.valid.counts_le _ hafter.valid.write_lt
  · rw [hafter.writeList]
    exact batches_flatten past
  · rw [hafter.readList]
    exact readableBatch_last past
  · obtain ⟨hiff, haccepted, hrejected⟩ := hafter.valid.append_cases event happend
    exact ⟨hiff, fun htrue => (haccepted htrue).2, hrejected⟩
  · obtain ⟨hiff, haccepted, hrejected⟩ := hafter.valid.publish_cases hpublish
    exact ⟨hiff, fun htrue => (haccepted htrue).2, hrejected⟩
  · obtain ⟨htrue, -, hspec⟩ := hafter.valid.consume_cases hconsume
    exact ⟨htrue, hspec⟩

def QueueEvent.play (q : DamageEventQueue) : QueueEvent → QueueEvent × DamageEventQueue
  | .appended event _ =>
    (.appended event (damageEventQueueAppend q event).1, (damageEventQueueAppend q event).2)
  | .published _ => (.published (damageEventQueuePublish q).1, (damageEventQueuePublish q).2)
  | .viewed _ => (.viewed (damageEventQueueRead q), q)
  | .consumed _ => (.consumed (damageEventQueueConsume q).1, (damageEventQueueConsume q).2)

theorem QueueEvent.play_next (q : DamageEventQueue) (event : QueueEvent) :
    damageEventQueueSystem.next q (event.play q).1 (event.play q).2 := by
  cases event with
  | viewed => exact ⟨rfl, rfl⟩
  | appended | published | consumed => rfl

def firstHit : DamageEvent := ⟨.null, ⟨handleMake 0 1⟩, 5⟩

def secondHit : DamageEvent := ⟨⟨handleMake 0 1⟩, ⟨handleMake 1 1⟩, 7⟩

-- room for one event: the second waits for the first to be published, then for it to be consumed
theorem damageEventQueue_refines_lists_turns :
    let turns := System.playAll QueueEvent.play
      [.appended firstHit true, .appended secondHit true, .published true, .appended secondHit true]
      ([], DamageEventQueue.zeroed 1)
    let last := System.playAll QueueEvent.play
      [.viewed none, .published true, .consumed true, .published true] turns
    (turns.2.readList = [firstHit] ∧ turns.2.writeList = [secondHit] ∧
      ∃ view, damageEventQueueRead turns.2 = some view ∧ view.list = [firstHit]) ∧
    last.2.readList = [secondHit] ∧ last.2.writeList = [] ∧
      acceptedEvents last.1 = [firstHit, secondHit] := by
  intro turns last
  have hinit : damageEventQueueSystem.initial (.zeroed 1) :=
    ⟨⟨4096, 0, 64, 64, 0, none, 0, by decide⟩, ⟨4096, 24, 64, 64, 24, none, 0, by decide⟩, 1, rfl⟩
  have hturns : damageEventQueueSystem.Trace turns.1 turns.2 :=
    .playAll QueueEvent.play_next _ (.start hinit)
  have hlast : damageEventQueueSystem.Trace last.1 last.2 :=
    .playAll QueueEvent.play_next _ hturns
  obtain ⟨⟨hread, hwrite⟩, -, -, -, -, ⟨view, hview, hlist⟩, -⟩ :=
    damageEventQueue_refines_lists hturns
  obtain ⟨⟨hread', hwrite'⟩, -, ⟨haccepted, -⟩, -⟩ := damageEventQueue_refines_lists hlast
  have hreadable : readableBatch turns.1 = [firstHit] := by decide +kernel
  have hpending : pendingBatch turns.1 = [secondHit] := by decide +kernel
  have hreadable' : readableBatch last.1 = [secondHit] := by decide +kernel
  have hpending' : pendingBatch last.1 = [] := by decide +kernel
  have hbatches : batches last.1 = [[firstHit], [secondHit]] := by decide +kernel
  refine ⟨⟨hread.trans hreadable, hwrite.trans hpending, view, hview, ?_⟩,
    hread'.trans hreadable', hwrite'.trans hpending', ?_⟩
  · rw [hlist, hread, hreadable]
  · rw [← haccepted, hbatches, hwrite', hpending']
    rfl

end ChoonzMoba
