import ChoonzMoba.Library.System
import Mathlib.Data.List.Induction
import Mathlib.Logic.Function.Basic

namespace ChoonzMoba

abbrev WidePath := List UInt16

-- `durable` once the contents have reached the disk, `doomed` once they go with the open handle
structure StoredFile where
  bytes : List UInt8
  durable : Bool
  doomed : Bool
deriving DecidableEq, Repr

abbrev Disk := WidePath → Option StoredFile

structure FileWriteJob where
  full : WidePath
  data : List UInt8
deriving DecidableEq

def temporarySuffix : WidePath := [0x2E, 0x74, 0x6D, 0x70]

def FileWriteJob.temporary (job : FileWriteJob) : WidePath := job.full ++ temporarySuffix

def widePathCapacity : Nat := 1024

-- `MultiByteToWideChar` and `GetFullPathNameW` are given; `none` is a null pointer
def fileWriteJob (toWide : List UInt8 → Option WidePath) (fullPathName : WidePath → Option WidePath)
    (path data : Option (List UInt8)) (size : Nat) : Option FileWriteJob :=
  path.bind fun path =>
  if data = none ∧ size ≠ 0 then none
  else
    (toWide path).bind fun wide =>
    (fullPathName wide).bind fun full =>
    if full = [] ∨ widePathCapacity ≤ full.length ∨ widePathCapacity < full.length + 5 then none
    else some ⟨full, (data.getD []).take size⟩

def Disk.append (disk : Disk) (p : WidePath) (bytes : List UInt8) : Disk :=
  Function.update disk p
    ((disk p).map fun file => { file with bytes := file.bytes ++ bytes, durable := false })

def Disk.harden (disk : Disk) (p : WidePath) : Disk :=
  Function.update disk p ((disk p).map fun file => { file with durable := true })

def Disk.doom (disk : Disk) (p : WidePath) : Disk :=
  Function.update disk p
    ((disk p).map fun file => { file with durable := false, doomed := true })

def Disk.move (disk : Disk) (p q : WidePath) : Disk :=
  Function.update (Function.update disk q (disk p)) p none

/-- The calls to the system: what each answers, and what it does to the disk. The handle of the
open file is given by its name. -/
structure FileCalls (Answer : Type) where
  createNew : Answer → WidePath → Disk → Bool × Disk
  writeFile : Answer → WidePath → List UInt8 → Disk → Bool × Nat × Disk
  flushFileBuffers : Answer → WidePath → Disk → Bool × Disk
  renameReplacing : Answer → WidePath → WidePath → Disk → Bool × Disk
  discard : Answer → WidePath → Disk → Bool × Disk
  closeHandle : Answer → WidePath → Disk → Disk
  lastError : Answer → UInt32
  -- what a power failure may leave of a disk; the file is opened write-through, so a rename that
  -- has returned is on it
  survives : Disk → Disk → Prop

/-- What is documented of the calls. -/
structure FileCalls.Documented {Answer : Type} (calls : FileCalls Answer) : Prop where
  create_new : ∀ answer p disk, (calls.createNew answer p disk).1 = true → disk p = none ∧
    (calls.createNew answer p disk).2 = Function.update disk p (some ⟨[], false, false⟩)
  create_fails : ∀ answer p disk, (calls.createNew answer p disk).1 = false →
    (calls.createNew answer p disk).2 = disk
  writes : ∀ answer p bytes disk, ∃ wr, wr ≤ bytes.length ∧
    (calls.writeFile answer p bytes disk).2.2 = disk.append p (bytes.take wr) ∧
    ((calls.writeFile answer p bytes disk).1 = true →
      (calls.writeFile answer p bytes disk).2.1 = wr)
  flushes : ∀ answer p disk, (calls.flushFileBuffers answer p disk).1 = true →
    (calls.flushFileBuffers answer p disk).2 = disk.harden p
  flush_fails : ∀ answer p disk, (calls.flushFileBuffers answer p disk).1 = false →
    (calls.flushFileBuffers answer p disk).2 = disk
  renames : ∀ answer p q disk, (calls.renameReplacing answer p q disk).1 = true →
    (calls.renameReplacing answer p q disk).2 = disk.move p q
  rename_fails : ∀ answer p q disk, (calls.renameReplacing answer p q disk).1 = false →
    (calls.renameReplacing answer p q disk).2 = disk
  discards : ∀ answer p disk, (calls.discard answer p disk).1 = true →
    (calls.discard answer p disk).2 = disk.doom p
  discard_fails : ∀ answer p disk, (calls.discard answer p disk).1 = false →
    (calls.discard answer p disk).2 = disk
  closes : ∀ answer p disk, calls.closeHandle answer p disk =
    if (disk p).any (·.doomed) then Function.update disk p none else disk
  survives_absent : ∀ disk left p, calls.survives disk left → disk p = none → left p = none
  survives_durable : ∀ disk left p file, calls.survives disk left → disk p = some file →
    file.durable = true → left p = some file

inductive FileWritePc
  | create
  | write (put : Nat)
  | flush
  | afterFlush
  | rename
  | discard (failure : UInt32)
  | close (failure : Option UInt32)
  | refused
  | finished (failure : Option UInt32)
deriving DecidableEq, Repr

structure FileWriteState where
  pc : FileWritePc
  disk : Disk

/-- Where the file is that the call has open, and no one else can open. -/
def FileWriteJob.opened (job : FileWriteJob) : FileWritePc → Option WidePath
  | .create | .refused | .finished _ => none
  | .write _ | .flush | .afterFlush | .rename | .discard _ | .close (some _) => some job.temporary
  | .close none => some job.full

def FileWritePc.published : FileWritePc → Bool
  | close failure | finished failure => failure.isNone
  | create | write _ | flush | afterFlush | rename | discard _ | refused => false

def FileWritePc.returned : FileWritePc → Bool
  | refused | finished _ => true
  | create | write _ | flush | afterFlush | rename | discard _ | close _ => false

def errorWriteFault : UInt32 := 29

def writeChunk : Nat := 0x40000000

def fileWriteStep {Answer : Type} (calls : FileCalls Answer) (job : FileWriteJob) (answer : Answer)
    (s : FileWriteState) : FileWriteState :=
  match s.pc with
  | .create =>
    let (ok, disk) := calls.createNew answer job.temporary s.disk
    ⟨if ok then .write 0 else .refused, disk⟩
  | .write put =>
    if put < job.data.length then
      let chunk := min (job.data.length - put) writeChunk
      let (wrote, wr, disk) :=
        calls.writeFile answer job.temporary ((job.data.drop put).take chunk) s.disk
      if wrote ∧ wr = chunk then ⟨.write (put + wr), disk⟩
      else ⟨.discard (if wrote then errorWriteFault else calls.lastError answer), disk⟩
    else ⟨.flush, s.disk⟩
  | .flush =>
    let (ok, disk) := calls.flushFileBuffers answer job.temporary s.disk
    ⟨if ok then .afterFlush else .discard (calls.lastError answer), disk⟩
  | .afterFlush => ⟨.rename, s.disk⟩
  | .rename =>
    if widePathCapacity ≤ job.full.length then ⟨.discard (calls.lastError answer), s.disk⟩
    else
      let (ok, disk) := calls.renameReplacing answer job.temporary job.full s.disk
      ⟨if ok then .close none else .discard (calls.lastError answer), disk⟩
  | .discard failure =>
    ⟨.close (some (if failure = 0 then errorWriteFault else failure)),
      (calls.discard answer job.temporary s.disk).2⟩
  | .close failure =>
    ⟨.finished failure, calls.closeHandle answer
      (if failure.isSome then job.temporary else job.full) s.disk⟩
  | .refused => s
  | .finished _ => s

inductive FileWriteLabel (Answer : Type)
  | own (answer : Answer)
  | other (disk : Disk)

-- between its calls other processes change the files in `shared`, but not the one that is open
def fileWriteSystem {Answer : Type} (calls : FileCalls Answer) (job : FileWriteJob)
    (shared : WidePath → Prop) (before : Disk) : System FileWriteState (FileWriteLabel Answer) where
  initial s := s = ⟨.create, before⟩
  next s label t :=
    match label with
    | .own answer => t = fileWriteStep calls job answer s
    | .other disk => t = ⟨s.pc, disk⟩ ∧ (∀ p, ¬ shared p → disk p = s.disk p) ∧
      ∀ p, job.opened s.pc = some p → disk p = s.disk p

def FileWriteInv (job : FileWriteJob) (s : FileWriteState) : Prop :=
  match s.pc with
  | .write put => put ≤ job.data.length ∧
      s.disk job.temporary = some ⟨job.data.take put, false, false⟩
  | .flush => s.disk job.temporary = some ⟨job.data, false, false⟩
  | .afterFlush | .rename => s.disk job.temporary = some ⟨job.data, true, false⟩
  | .close none => s.disk job.full = some ⟨job.data, true, false⟩
  | .create | .discard _ | .close (some _) | .refused | .finished _ => True

def FileWriteJob.chunk (job : FileWriteJob) (put : Nat) : Nat :=
  min (job.data.length - put) writeChunk

inductive FileWriteStep (job : FileWriteJob) : FileWriteState → FileWriteState → Prop
  | create {disk : Disk} : disk job.temporary = none → FileWriteStep job ⟨.create, disk⟩
      ⟨.write 0, Function.update disk job.temporary (some ⟨[], false, false⟩)⟩
  | refuse {disk : Disk} : FileWriteStep job ⟨.create, disk⟩ ⟨.refused, disk⟩
  | wrote {disk : Disk} {put : Nat} : put < job.data.length → FileWriteStep job
      ⟨.write put, disk⟩ ⟨.write (put + job.chunk put),
        disk.append job.temporary ((job.data.drop put).take (job.chunk put))⟩
  | torn {disk : Disk} {put wr : Nat} {failure : UInt32} : put < job.data.length →
      wr ≤ job.chunk put → FileWriteStep job ⟨.write put, disk⟩
        ⟨.discard failure, disk.append job.temporary ((job.data.drop put).take wr)⟩
  | written {disk : Disk} {put : Nat} : job.data.length ≤ put →
      FileWriteStep job ⟨.write put, disk⟩ ⟨.flush, disk⟩
  | flush {disk : Disk} : FileWriteStep job
      ⟨.flush, disk⟩ ⟨.afterFlush, disk.harden job.temporary⟩
  | flushFails {disk : Disk} {failure : UInt32} :
      FileWriteStep job ⟨.flush, disk⟩ ⟨.discard failure, disk⟩
  | resume {disk : Disk} : FileWriteStep job ⟨.afterFlush, disk⟩ ⟨.rename, disk⟩
  | rename {disk : Disk} : FileWriteStep job
      ⟨.rename, disk⟩ ⟨.close none, disk.move job.temporary job.full⟩
  | renameFails {disk : Disk} {failure : UInt32} :
      FileWriteStep job ⟨.rename, disk⟩ ⟨.discard failure, disk⟩
  | discard {disk : Disk} {failure error : UInt32} : error ≠ 0 → FileWriteStep job
      ⟨.discard failure, disk⟩ ⟨.close (some error), disk.doom job.temporary⟩
  | discardFails {disk : Disk} {failure error : UInt32} : error ≠ 0 → FileWriteStep job
      ⟨.discard failure, disk⟩ ⟨.close (some error), disk⟩
  | close {disk : Disk} {failure : Option UInt32} :
      FileWriteStep job ⟨.close failure, disk⟩ ⟨.finished failure, disk⟩
  | remove {disk : Disk} {failure : UInt32} : FileWriteStep job ⟨.close (some failure), disk⟩
      ⟨.finished (some failure), Function.update disk job.temporary none⟩
  | refused {disk : Disk} : FileWriteStep job ⟨.refused, disk⟩ ⟨.refused, disk⟩
  | finished {disk : Disk} {failure : Option UInt32} :
      FileWriteStep job ⟨.finished failure, disk⟩ ⟨.finished failure, disk⟩

section

variable {Answer : Type} {calls : FileCalls Answer} {job : FileWriteJob} {s t : FileWriteState}
  {p : WidePath} {shared : WidePath → Prop} {before disk : Disk} {put wr : Nat}
  {past : List (FileWriteLabel Answer)}

theorem temporary_ne (job : FileWriteJob) : job.temporary ≠ job.full := by
  intro h
  have hlength := congrArg List.length h
  simp [FileWriteJob.temporary, temporarySuffix] at hlength

theorem fileWriteStep_write (calls : FileCalls Answer) (answer : Answer)
    (hput : put < job.data.length) :
    fileWriteStep calls job answer ⟨.write put, disk⟩ =
      let result := calls.writeFile answer job.temporary
        ((job.data.drop put).take (job.chunk put)) disk
      if result.1 = true ∧ result.2.1 = job.chunk put then
        ⟨.write (put + result.2.1), result.2.2⟩
      else
        ⟨.discard (if result.1 then errorWriteFault else calls.lastError answer), result.2.2⟩ :=
  if_pos hput

theorem FileCalls.Documented.write_step (documented : calls.Documented) (answer : Answer)
    (hput : put < job.data.length) :
    FileWriteStep job ⟨.write put, disk⟩ (fileWriteStep calls job answer ⟨.write put, disk⟩) := by
  obtain ⟨wr, hle, hdisk, hreported⟩ := documented.writes answer job.temporary
    ((job.data.drop put).take (job.chunk put)) disk
  have hchunk : ((job.data.drop put).take (job.chunk put)).length = job.chunk put := by
    rw [List.length_take, List.length_drop]
    exact Nat.min_eq_left (Nat.min_le_left _ _)
  rw [hchunk] at hle
  rw [List.take_take, Nat.min_eq_left hle] at hdisk
  rw [fileWriteStep_write calls answer hput]
  generalize calls.writeFile answer job.temporary ((job.data.drop put).take (job.chunk put)) disk =
    result at hdisk hreported
  by_cases h : result.1 = true ∧ result.2.1 = job.chunk put
  · have hwr : wr = job.chunk put := (hreported h.1).symm.trans h.2
    subst hwr
    rw [if_pos h, h.2, hdisk]
    exact .wrote hput
  · rw [if_neg h, hdisk]
    exact .torn hput hle

theorem FileCalls.Documented.close_step (documented : calls.Documented) (answer : Answer)
    {failure : Option UInt32} (inv : FileWriteInv job ⟨.close failure, disk⟩) :
    FileWriteStep job ⟨.close failure, disk⟩
      (fileWriteStep calls job answer ⟨.close failure, disk⟩) := by
  simp only [fileWriteStep]
  rw [documented.closes]
  cases failure with
  | none =>
    have hfile : disk job.full = some ⟨job.data, true, false⟩ := inv
    have hkept : ¬ (disk job.full).any (·.doomed) = true := by
      rw [hfile]
      exact Bool.false_ne_true
    rw [Option.isSome_none, if_neg Bool.false_ne_true, if_neg hkept]
    exact .close
  | some failure =>
    rw [Option.isSome_some, if_pos rfl]
    split
    · exact .remove
    · exact .close

theorem fileWriteStep_cases (documented : calls.Documented) (job : FileWriteJob) (answer : Answer)
    {s : FileWriteState} (inv : FileWriteInv job s) :
    FileWriteStep job s (fileWriteStep calls job answer s) := by
  obtain ⟨pc, disk⟩ := s
  cases pc with
  | create =>
    change FileWriteStep job _ ⟨if (calls.createNew answer job.temporary disk).1 then .write 0
      else .refused, (calls.createNew answer job.temporary disk).2⟩
    cases hok : (calls.createNew answer job.temporary disk).1 with
    | true =>
      obtain ⟨hnone, hdisk⟩ := documented.create_new _ _ _ hok
      rw [hdisk]
      exact .create hnone
    | false =>
      rw [documented.create_fails _ _ _ hok]
      exact .refuse
  | write put =>
    by_cases hput : put < job.data.length
    · exact documented.write_step answer hput
    · simp only [fileWriteStep, if_neg hput]
      exact .written (Nat.le_of_not_lt hput)
  | flush =>
    change FileWriteStep job _ ⟨if (calls.flushFileBuffers answer job.temporary disk).1 then
      .afterFlush else .discard (calls.lastError answer),
      (calls.flushFileBuffers answer job.temporary disk).2⟩
    cases hok : (calls.flushFileBuffers answer job.temporary disk).1 with
    | true =>
      rw [documented.flushes _ _ _ hok]
      exact .flush
    | false =>
      rw [documented.flush_fails _ _ _ hok]
      exact .flushFails
  | afterFlush => exact .resume
  | rename =>
    simp only [fileWriteStep]
    split
    · exact .renameFails
    · change FileWriteStep job _ ⟨if (calls.renameReplacing answer job.temporary job.full disk).1
        then .close none else .discard (calls.lastError answer),
        (calls.renameReplacing answer job.temporary job.full disk).2⟩
      cases hok : (calls.renameReplacing answer job.temporary job.full disk).1 with
      | true =>
        rw [documented.renames _ _ _ _ hok]
        exact .rename
      | false =>
        rw [documented.rename_fails _ _ _ _ hok]
        exact .renameFails
  | discard failure =>
    have herror : (if failure = 0 then errorWriteFault else failure) ≠ 0 := by
      split
      · decide
      · assumption
    change FileWriteStep job _ ⟨.close (some (if failure = 0 then errorWriteFault else failure)),
      (calls.discard answer job.temporary disk).2⟩
    cases hok : (calls.discard answer job.temporary disk).1 with
    | true =>
      rw [documented.discards _ _ _ hok]
      exact .discard herror
    | false =>
      rw [documented.discard_fails _ _ _ hok]
      exact .discardFails herror
  | close failure => exact documented.close_step answer inv
  | refused => exact .refused
  | finished => exact .finished

theorem FileWriteStep.frame (h : FileWriteStep job s t) (htemporary : p ≠ job.temporary)
    (hfull : p ≠ job.full) : t.disk p = s.disk p := by
  cases h with
  | create | wrote | torn | flush | discard | remove => exact Function.update_of_ne htemporary _ _
  | rename =>
    exact (Function.update_of_ne htemporary _ _).trans (Function.update_of_ne hfull _ _)
  | refuse | written | flushFails | resume | renameFails | discardFails | close | refused
  | finished => rfl

theorem append_temporary {file : StoredFile} (h : disk job.temporary = some file) :
    disk.append job.temporary ((job.data.drop put).take wr) job.temporary =
      some { file with bytes := file.bytes ++ (job.data.drop put).take wr, durable := false } := by
  rw [Disk.append, Function.update_self, h]
  rfl

theorem FileWriteStep.inv (h : FileWriteStep job s t) (inv : FileWriteInv job s) :
    FileWriteInv job t := by
  cases h with
  | create => exact ⟨Nat.zero_le _, Function.update_self _ _ _⟩
  | @wrote disk put hput =>
    obtain ⟨hle, hfile⟩ := inv
    refine ⟨?_, ?_⟩
    · have := Nat.min_le_left (job.data.length - put) writeChunk
      unfold FileWriteJob.chunk
      omega
    · refine (append_temporary hfile).trans ?_
      rw [List.take_add]
  | written hle =>
    obtain ⟨-, hfile⟩ := inv
    rwa [List.take_of_length_le hle] at hfile
  | @flush disk =>
    have hfile : disk job.temporary = some ⟨job.data, false, false⟩ := inv
    refine (Function.update_self _ _ _).trans ?_
    rw [hfile]
    rfl
  | resume => exact inv
  | rename =>
    exact (Function.update_of_ne (temporary_ne job).symm _ _).trans
      ((Function.update_self _ _ _).trans inv)
  | torn | refuse | flushFails | renameFails | discard | discardFails | close | remove | refused
  | finished => trivial

theorem FileWriteStep.full (h : FileWriteStep job s t) (inv : FileWriteInv job s) :
    t.pc.published = s.pc.published ∧ t.disk job.full = s.disk job.full ∨
    s.pc.published = false ∧ t.pc.published = true ∧
      t.disk job.full = some ⟨job.data, true, false⟩ ∧ t.disk job.temporary = none := by
  have hne := (temporary_ne job).symm
  cases h with
  | create | wrote | torn | flush | discard | remove =>
    exact Or.inl ⟨rfl, Function.update_of_ne hne _ _⟩
  | rename =>
    refine Or.inr ⟨rfl, rfl, ?_, Function.update_self _ _ _⟩
    refine (Function.update_of_ne hne _ _).trans ((Function.update_self _ _ _).trans inv)
  | refuse | written | flushFails | resume | renameFails | discardFails | close | refused
  | finished => exact Or.inl ⟨rfl, rfl⟩

-- own calls that are left at most
def FileWriteJob.callsLeft (job : FileWriteJob) : FileWritePc → Nat
  | .create => job.data.length + 7
  | .write put => job.data.length - put + 6
  | .flush => 5
  | .afterFlush => 4
  | .rename => 3
  | .discard _ => 2
  | .close _ => 1
  | .refused | .finished _ => 0

theorem FileWriteStep.callsLeft (h : FileWriteStep job s t) (hpc : s.pc.returned = false) :
    job.callsLeft t.pc < job.callsLeft s.pc := by
  cases h with
  | @wrote disk put hput =>
    have hchunk : 0 < job.chunk put :=
      Nat.lt_min.mpr ⟨Nat.sub_pos_of_lt hput, by decide⟩
    simp only [FileWriteJob.callsLeft]
    omega
  | torn | written =>
    simp only [FileWriteJob.callsLeft]
    omega
  | refused | finished => cases hpc
  | create | refuse | flush | flushFails | resume | rename | renameFails | discard | discardFails
  | close | remove =>
    simp only [FileWriteJob.callsLeft]
    omega

theorem FileWriteStep.collision (h : FileWriteStep job s t)
    (hopened : job.opened s.pc ≠ some job.temporary) {file : StoredFile}
    (hfile : s.disk job.temporary = some file) : t.disk = s.disk := by
  cases h with
  | create hnone => exact absurd (hnone.symm.trans hfile) (fun h => (by cases h))
  | refuse | close | refused | finished => rfl
  | wrote | torn | written | flush | flushFails | resume | rename | renameFails | discard
  | discardFails | remove => exact absurd rfl hopened

theorem FileWriteStep.stopped (h : FileWriteStep job s t) (hpc : s.pc.returned = true) :
    t = s := by
  cases h with
  | refused | finished => rfl
  | create | refuse | wrote | torn | written | flush | flushFails | resume | rename | renameFails
  | discard | discardFails | close | remove => cases hpc

def FileWritePc.error : FileWritePc → Option UInt32
  | close failure | finished failure => failure
  | create | write _ | flush | afterFlush | rename | discard _ | refused => none

theorem FileWriteStep.error (h : FileWriteStep job s t) (herror : s.pc.error ≠ some 0) :
    t.pc.error ≠ some 0 := by
  cases h with
  | discard hne | discardFails hne => exact fun heq => hne (Option.some.inj heq)
  | close | remove | finished => exact herror
  | create | refuse | wrote | torn | written | flush | flushFails | resume | rename | renameFails
  | refused => exact fun heq => (by cases heq)

/-- What an own call may do, whatever the other processes have done before it. -/
structure FileWriteCall (job : FileWriteJob) (s t : FileWriteState) : Prop where
  frame : ∀ p, p ≠ job.temporary → p ≠ job.full → t.disk p = s.disk p
  full : t.pc.published = s.pc.published ∧ t.disk job.full = s.disk job.full ∨
    s.pc.published = false ∧ t.pc.published = true ∧
      t.disk job.full = some ⟨job.data, true, false⟩ ∧ t.disk job.temporary = none
  collision : job.opened s.pc ≠ some job.temporary →
    ∀ file, s.disk job.temporary = some file → t.disk = s.disk
  progress : s.pc.returned = false → job.callsLeft t.pc < job.callsLeft s.pc
  stays : s.pc.returned = true → t = s

theorem fileWriteStep_call (documented : calls.Documented) (job : FileWriteJob) (answer : Answer)
    (inv : FileWriteInv job s) : FileWriteCall job s (fileWriteStep calls job answer s) := by
  have h := fileWriteStep_cases documented job answer inv
  exact ⟨fun p => h.frame, h.full inv, fun hopened file => h.collision hopened, h.callsLeft,
    h.stopped⟩

theorem fileWriteInv_of_opened {disk' : Disk} (inv : FileWriteInv job s)
    (hopened : ∀ p, job.opened s.pc = some p → disk' p = s.disk p) :
    FileWriteInv job ⟨s.pc, disk'⟩ := by
  obtain ⟨pc, disk⟩ := s
  cases pc with
  | write put => exact ⟨inv.1, (hopened _ rfl).trans inv.2⟩
  | flush | afterFlush | rename => exact (hopened _ rfl).trans inv
  | close failure =>
    cases failure with
    | none => exact (hopened _ rfl).trans inv
    | some failure => trivial
  | create | discard | refused | finished => trivial

theorem fileWrite_inv (documented : calls.Documented)
    (h : (fileWriteSystem calls job shared before).Trace past s) :
    FileWriteInv job s ∧ s.pc.error ≠ some 0 := by
  induction h with
  | start h =>
    rw [h]
    exact ⟨trivial, fun heq => (by cases heq)⟩
  | @step past s t label _ hnext ih =>
    cases label with
    | own answer =>
      have hstep := fileWriteStep_cases documented job answer ih.1
      rw [show t = _ from hnext]
      exact ⟨hstep.inv ih.1, hstep.error ih.2⟩
    | other disk =>
      obtain ⟨rfl, -, hopened⟩ := hnext
      exact ⟨fileWriteInv_of_opened ih.1 hopened, ih.2⟩

theorem fileWrite_full (documented : calls.Documented)
    (h : (fileWriteSystem calls job shared before).Trace past s) (hfull : ¬ shared job.full) :
    s.disk job.full = if s.pc.published then some ⟨job.data, true, false⟩ else before job.full := by
  induction h with
  | start h =>
    rw [h]
    rfl
  | @step past s t label hpast hnext ih =>
    cases label with
    | own answer =>
      have hcall := (fileWriteStep_call documented job answer (fileWrite_inv documented hpast).1).full
      rw [show t = _ from hnext]
      rcases hcall with ⟨hpublished, hdisk⟩ | ⟨-, hpublished, hdisk, -⟩
      · rw [hpublished, hdisk, ih]
      · rw [hpublished, hdisk]
        rfl
    | other disk =>
      obtain ⟨rfl, hkeep, -⟩ := hnext
      exact (hkeep _ hfull).trans ih

theorem FileCalls.Documented.survives_full (documented : calls.Documented) {left : Disk}
    (h : calls.survives s.disk left)
    (hfull : s.disk job.full =
      if s.pc.published then some ⟨job.data, true, false⟩ else before job.full)
    (hdurable : ∀ file, before job.full = some file → file.durable = true) :
    left job.full = if s.pc.published then some ⟨job.data, true, false⟩ else before job.full := by
  rw [← hfull]
  cases hfile : s.disk job.full with
  | none => exact documented.survives_absent _ _ _ h hfile
  | some file =>
    refine documented.survives_durable _ _ _ file h hfile ?_
    rw [hfile] at hfull
    split at hfull
    · cases hfull
      rfl
    · exact hdurable file hfull.symm

theorem fileWriteJob_eq {toWide : List UInt8 → Option WidePath}
    {fullPathName : WidePath → Option WidePath} {path data : Option (List UInt8)} {size : Nat}
    (hjob : fileWriteJob toWide fullPathName path data size = some job) :
    (path.bind toWide).bind fullPathName = some job.full ∧ job.data = (data.getD []).take size ∧
      job.temporary.length < widePathCapacity := by
  rw [fileWriteJob] at hjob
  obtain ⟨path, rfl, hdata⟩ := Option.bind_eq_some_iff.mp hjob
  by_cases hnull : data = none ∧ size ≠ 0
  · rw [if_pos hnull] at hdata
    cases hdata
  rw [if_neg hnull] at hdata
  obtain ⟨wide, hwide, hname⟩ := Option.bind_eq_some_iff.mp hdata
  obtain ⟨full, hfull, hfits⟩ := Option.bind_eq_some_iff.mp hname
  split at hfits
  · cases hfits
  · next hguard =>
    cases hfits
    rw [not_or, not_or, Nat.not_lt] at hguard
    refine ⟨?_, rfl, ?_⟩
    · rw [Option.bind_some, hwide]
      exact hfull
    · rw [FileWriteJob.temporary, List.length_append]
      exact hguard.2.2

end

theorem platformFileWrite_atomic {Answer : Type} {calls : FileCalls Answer}
    (documented : calls.Documented) {toWide : List UInt8 → Option WidePath}
    {fullPathName : WidePath → Option WidePath} {path data : Option (List UInt8)} {size : Nat}
    {job : FileWriteJob} (hjob : fileWriteJob toWide fullPathName path data size = some job)
    (shared : WidePath → Prop) (before : Disk) {past : List (FileWriteLabel Answer)}
    {s : FileWriteState} (trace : (fileWriteSystem calls job shared before).Trace past s) :
    ((path.bind toWide).bind fullPathName = some job.full ∧ job.data = (data.getD []).take size ∧
      job.temporary.length < widePathCapacity) ∧
    (∀ answer, FileWriteCall job s (fileWriteStep calls job answer s)) ∧
    s.pc ≠ .finished (some 0) ∧
    (¬ shared job.full → (∀ file, before job.full = some file → file.durable = true) →
      ∀ left, calls.survives s.disk left →
        left job.full = if s.pc.published then some ⟨job.data, true, false⟩ else before job.full) := by
  obtain ⟨inv, herror⟩ := fileWrite_inv documented trace
  refine ⟨fileWriteJob_eq hjob, fun answer => fileWriteStep_call documented job answer inv, ?_,
    fun hfull hdurable left hleft =>
      documented.survives_full hleft (fileWrite_full documented trace hfull) hdurable⟩
  intro hfinished
  rw [hfinished] at herror
  exact herror rfl

structure OsAnswer where
  ok : Bool
  written : Nat
  lastError : UInt32

def plainCalls : FileCalls OsAnswer where
  createNew answer p disk :=
    if answer.ok ∧ disk p = none then (true, Function.update disk p (some ⟨[], false, false⟩))
    else (false, disk)
  writeFile answer p bytes disk :=
    (answer.ok, min answer.written bytes.length, disk.append p (bytes.take answer.written))
  flushFileBuffers answer p disk := (answer.ok, if answer.ok then disk.harden p else disk)
  renameReplacing answer p q disk := (answer.ok, if answer.ok then disk.move p q else disk)
  discard answer p disk := (answer.ok, if answer.ok then disk.doom p else disk)
  closeHandle _ p disk := if (disk p).any (·.doomed) then Function.update disk p none else disk
  lastError answer := answer.lastError
  survives disk left := ∀ p, (disk p = none → left p = none) ∧
    ∀ file, disk p = some file → file.durable → left p = some file

theorem plainCalls_documented : plainCalls.Documented where
  create_new answer p disk h := by
    simp only [plainCalls] at h ⊢
    split at h
    · next hok => exact ⟨hok.2, by rw [if_pos hok]⟩
    · cases h
  create_fails answer p disk h := by
    simp only [plainCalls] at h ⊢
    split at h
    · cases h
    · next hok => rw [if_neg hok]
  writes answer p bytes disk :=
    ⟨min answer.written bytes.length, Nat.min_le_right _ _,
      by simp only [plainCalls]; rw [List.take_eq_take_min], fun _ => rfl⟩
  flushes _ _ _ h := if_pos h
  flush_fails _ _ _ h := if_neg (Bool.eq_false_iff.mp h)
  renames _ _ _ _ h := if_pos h
  rename_fails _ _ _ _ h := if_neg (Bool.eq_false_iff.mp h)
  discards _ _ _ h := if_pos h
  discard_fails _ _ _ h := if_neg (Bool.eq_false_iff.mp h)
  closes _ _ _ := rfl
  survives_absent _ _ p h hnone := (h p).1 hnone
  survives_durable _ _ p file h hfile hdurable := (h p).2 file hfile hdurable

theorem fileWrite_ownTrace {Answer : Type} (calls : FileCalls Answer) (job : FileWriteJob)
    (shared : WidePath → Prop) (before : Disk) (answers : List Answer) :
    (fileWriteSystem calls job shared before).Trace (answers.reverse.map .own)
      (answers.foldl (fun s answer => fileWriteStep calls job answer s) ⟨.create, before⟩) := by
  induction answers using List.reverseRecOn with
  | nil => exact .start rfl
  | append_singleton answers answer ih =>
    rw [List.foldl_append, List.reverse_append]
    exact .step ih rfl

theorem platformFileWrite_atomic_replaced :
    let before : Disk := fun p => if p = [0x61] then some ⟨[9], true, false⟩ else none
    let s := (List.replicate 7 (⟨true, 3, 0⟩ : OsAnswer)).foldl
      (fun s answer => fileWriteStep plainCalls ⟨[0x61], [1, 2, 3]⟩ answer s) ⟨.create, before⟩
    s.pc = .finished none ∧
      ∀ left, plainCalls.survives s.disk left → left [0x61] = some ⟨[1, 2, 3], true, false⟩ := by
  intro before s
  refine ⟨by decide, fun left hleft => ?_⟩
  have hjob : fileWriteJob (fun path => some (path.map (·.toUInt16))) some (some [0x61])
      (some [1, 2, 3, 4]) 3 = some ⟨[0x61], [1, 2, 3]⟩ := by decide
  obtain ⟨-, -, -, hsafe⟩ := platformFileWrite_atomic plainCalls_documented hjob
    (fun p => p = [0x62]) before (fileWrite_ownTrace plainCalls _ _ before _)
  refine hsafe (by decide) (fun file hfile => ?_) left hleft
  cases hfile
  rfl

end ChoonzMoba
