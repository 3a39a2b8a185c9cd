import EmuFront.Native.Entry

/-!
# Routine work

Most of what is done on a machine is routine: log lines, opens of files and operations on the disk,
put together. Its result and the files that it leaves follow from the files that it finds, and it
adds nothing to the timeline but routine events.
-/

namespace EmuFront

open Storage

/-- Whether an event belongs to routine work: a log line, an open, or what one who sends reports
does. -/
def Event.isRoutine : Event → Bool
  | .logged .. | .opened .. | .listed _ | .received .. | .calledBack _ | .threw => true
  | _ => false

namespace Work

variable {α β : Type}

/-! ## Going by the files -/

/-- Work whose result and files follow from the files alone. -/
def ByFiles (part : Work α) : Prop := ∀ m m' : Machine, m.disk = m'.disk →
  (part m).1 = (part m').1 ∧ (part m).2.disk = (part m').2.disk

theorem byFiles_pure (a : α) : ByFiles (pure a) := fun _ _ same => ⟨rfl, same⟩

/-- What is shown on the timeline is not read. -/
theorem byFiles_observe (e : Event) : ByFiles (observe e) := fun _ _ same => ⟨rfl, same⟩

/-- An operation on the disk is given the files and nothing else. -/
theorem byFiles_onDisk (operation : Disk → α × Disk) : ByFiles (onDisk operation) := by
  intro m m' same
  show (operation m.disk).1 = (operation m'.disk).1 ∧ (operation m.disk).2 = (operation m'.disk).2
  rw [same]
  exact ⟨rfl, rfl⟩

/-- Where the first part leaves the same files and result, so does what comes next. -/
theorem ByFiles.bind {part : Work α} {next : α → Work β} (first : ByFiles part)
    (rest : ∀ a, ByFiles (next a)) : ByFiles (part >>= next) := by
  intro m m' same
  obtain ⟨result, disk⟩ := first m m' same
  show (next (part m).1 (part m).2).1 = (next (part m').1 (part m').2).1 ∧
    (next (part m).1 (part m).2).2.disk = (next (part m').1 (part m').2).2.disk
  rw [result]
  exact rest (part m').1 _ _ disk

/-! ## Routine work -/

/-- Work put together from routine events and operations on the disk. -/
inductive Routine : {α : Type} → Work α → Prop
  | pure {α : Type} (a : α) : Routine (Pure.pure a)
  | bind {α β : Type} {part : Work α} {next : α → Work β} (first : Routine part)
      (rest : ∀ a, Routine (next a)) : Routine (part >>= next)
  | observe {e : Event} (routine : e.isRoutine = true) : Routine (Work.observe e)
  | onDisk {α : Type} (operation : Disk → α × Disk) : Routine (Work.onDisk operation)

/-- Only routine events are added. -/
theorem Routine.timeline {part : Work α} (h : Routine part) (m : Machine) :
    ∃ added, (part m).2.timeline = m.timeline ++ added ∧ ∀ e ∈ added, e.isRoutine = true := by
  induction h generalizing m with
  | pure a => exact ⟨[], (List.append_nil _).symm, by simp⟩
  | @bind α β part next _ _ first rest =>
    obtain ⟨xs, timeline, routine⟩ := first m
    obtain ⟨ys, timeline', routine'⟩ := rest (part m).1 (part m).2
    have whole : ((part >>= next) m).2.timeline = m.timeline ++ (xs ++ ys) := by
      show (next (part m).1 (part m).2).2.timeline = _
      rw [timeline', timeline, List.append_assoc]
    exact ⟨xs ++ ys, whole, List.forall_mem_append.2 ⟨routine, routine'⟩⟩
  | @observe e routine => exact ⟨[e], rfl, by simpa using routine⟩
  | onDisk operation => exact ⟨[], (List.append_nil _).symm, by simp⟩

/-- What is read off a timeline without its routine events is left as it was. -/
theorem Routine.filterMap_timeline {part : Work α} (h : Routine part) {f : Event → Option β}
    (silent : ∀ e : Event, e.isRoutine = true → f e = none) (m : Machine) :
    (part m).2.timeline.filterMap f = m.timeline.filterMap f := by
  obtain ⟨added, timeline, routine⟩ := h.timeline m
  have none : added.filterMap f = [] :=
    List.filterMap_eq_nil_iff.2 fun e member => silent e (routine e member)
  rw [timeline, List.filterMap_append, none, List.append_nil]

/-- Routine work goes by the files, by induction on how it is put together. -/
theorem Routine.byFiles {part : Work α} (h : Routine part) : ByFiles part := by
  induction h with
  | pure a => exact byFiles_pure a
  | bind _ _ first rest => exact first.bind rest
  | observe _ => exact byFiles_observe _
  | onDisk operation => exact byFiles_onDisk operation

/-! ## Files -/

theorem routine_log (level : LogLevel) (message : String) : Routine (log level message) :=
  .observe rfl

theorem routine_askTree (question : Tree → α) : Routine (askTree question) :=
  .onDisk fun d => (question d.tree, d)

theorem routine_read (path : Path) : Routine (read path) :=
  .bind (.observe rfl) fun _ => .onDisk _

theorem routine_write (path : Path) (contents : Text.Bytes) : Routine (write path contents) :=
  .bind (.observe rfl) fun _ => .onDisk _

theorem routine_append (path : Path) (contents : Text.Bytes) : Routine (append path contents) :=
  .bind (.observe rfl) fun _ => .onDisk _

theorem routine_removeFile (path : Path) : Routine (removeFile path) := .onDisk _

/-- Looking at a file as it is, without opening it, is an operation on the disk. -/
theorem routine_contents? (path : Path) : Routine (contents? path) := by
  apply Routine.bind (routine_read path)
  intro result
  split <;> exact .pure _

theorem routine_changeDisk (actions : List DiskAction) : Routine (changeDisk actions) := .onDisk _

/-- A loop of attempts to read is routine, by induction on the attempts left. -/
theorem routine_readAttempts (path : Path) (attempt left : Nat) :
    Routine (readAttempts path attempt left) := by
  induction left generalizing attempt with
  | zero => exact .pure none
  | succ left ih =>
    apply Routine.bind (routine_read path)
    intro result
    split
    · exact .pure _
    -- a failed read is tried anew or given up, and either is only logged
    · split
      · exact .bind (routine_log _ _) fun _ => ih (attempt + 1)
      · exact .bind (routine_log _ _) fun _ => .pure none

/-- So is a loop of attempts to write. -/
theorem routine_writeAttempts (path : Path) (text : String) (attempt left : Nat) (last : Failure) :
    Routine (writeAttempts path text attempt left last) := by
  induction left generalizing attempt last with
  | zero => exact .pure _
  | succ left ih =>
    apply Routine.bind (routine_write path _)
    intro result
    split
    · exact .pure _
    · exact .bind (routine_log _ _) fun _ => ih (attempt + 1) _

/-- A directory is opened, which is noted, and then read. -/
theorem routine_filesIn (directory : Path) (accept : String → Bool) :
    Routine (filesIn directory accept) :=
  .bind (.observe rfl) fun _ => routine_askTree _

/-- A directory of disks that cannot be read costs a log line. -/
theorem routine_scanDiskImages (directory : Path) : Routine (scanDiskImages directory) := by
  apply Routine.bind (routine_filesIn _ _)
  intro listing
  split
  · exact .pure _
  · exact .bind (routine_log _ _) fun _ => .pure []

/-! ## Reports -/

/-- A record is added to its file, or the failure is logged. -/
theorem routine_persist (r : CrashRecord) (directory : Path) : Routine (r.persist directory) := by
  apply Routine.bind (routine_append _ _)
  intro result
  split <;> exact .pure _

/-- A scan asks for one file, and reads one directory. -/
theorem routine_scanArtifacts (dataDir : Path) : Routine (scanArtifacts dataDir) := by
  apply Routine.bind (routine_askTree _)
  intro managed
  apply Routine.bind (routine_filesIn _ _)
  intro listing
  split
  · exact .pure _
  · exact .bind (routine_log _ _) fun _ => .pure managed

theorem routine_crashesPresent (r : CrashReporter) : Routine r.crashesPresent :=
  .bind (routine_scanArtifacts _) fun _ => .pure _

/-- A check is remembered by the reporter, not by the machine. -/
theorem routine_checkOnce (r : CrashReporter) : Routine r.checkOnce := by
  unfold CrashReporter.checkOnce
  split
  · exact .pure _
  · apply Routine.bind (routine_scanArtifacts _)
    intro artifacts
    split
    · exact .pure _
    · exact .bind (routine_log _ _) fun _ => .pure _

theorem routine_entryText (r : CrashReporter) (a : CrashArtifact) : Routine (r.entryText a) :=
  .bind (routine_askTree _) fun _ => .bind (routine_readAttempts _ _ _) fun _ => .pure _

/-- The report is put together from one reading after the other. -/
theorem routine_aggregate (r : CrashReporter) (artifacts : List CrashArtifact) :
    Routine (r.aggregate artifacts) := by
  induction artifacts with
  | nil => exact .pure ""
  | cons a rest ih => exact .bind (routine_entryText r a) fun _ => .bind ih fun _ => .pure _

/-- The directories for the report are tried in order. -/
theorem routine_writeInto (r : CrashReporter) (report : String) (directories : List Path)
    (last : Failure) : Routine (r.writeInto report directories last) := by
  induction directories generalizing last with
  | nil => exact .pure _
  | cons directory rest ih =>
    apply Routine.bind (routine_log _ _)
    intro _
    apply Routine.bind (routine_writeAttempts _ _ _ _ _)
    intro result
    split
    · exact .pure _
    -- the next directory is tried
    · exact ih _

theorem routine_writeAggregate (r : CrashReporter) (report : String) :
    Routine (r.writeAggregate report) :=
  .bind (routine_askTree _) fun _ => routine_writeInto _ _ _ _

/-- A crash file is deleted with the processed form beside it. -/
theorem routine_deleteOne (a : CrashArtifact) : Routine (CrashReporter.deleteOne a) := by
  apply Routine.bind (routine_removeFile _)
  intro removed
  -- the processed form is looked after alike whether or not the artifact could be removed
  have tail : Routine (do
      if a.origin = .native then
        let processed := CrashArtifact.processedPath a.path
        if ← askTree fun t => t.isFile processed then
          let _ ← removeFile processed
      return removed.isOk) := by
    split
    · apply Routine.bind (routine_askTree _)
      intro there
      split
      · exact .bind (routine_removeFile _) fun _ => .pure _
      · exact .pure _
    · exact .pure _
  cases removed with
  | ok => exact tail
  | error e => exact .bind (routine_log _ _) fun _ => tail

/-- Crash files are deleted one after the other, whatever becomes of each. -/
theorem routine_delete (artifacts : List CrashArtifact) :
    Routine (CrashReporter.delete artifacts) := by
  induction artifacts with
  | nil => exact .pure 0
  | cons a rest ih => exact .bind (routine_deleteOne a) fun _ => .bind ih fun _ => .pure _

theorem routine_discard (r : CrashReporter) : Routine r.discard :=
  .bind (routine_scanArtifacts _) fun _ => routine_delete _

/-! ## Those who send reports -/

/-- One who gets a report reads it, and notes that it came. -/
theorem routine_receive (report : Path) : Routine (Transport.receive report) := by
  apply Routine.bind (routine_read report)
  intro result
  split
  · exact .pure _
  · split
    · exact .pure _
    · exact .bind (.observe rfl) fun _ => .pure _

/-- A sender that records may change files before and while it is at it. -/
theorem routine_recording (accept : Bool) (before during : List DiskAction) (report : Path) :
    Routine (Transport.recording accept before during report) := by
  apply Routine.bind (routine_changeDisk _)
  intro _
  apply Routine.bind (routine_receive report)
  intro read
  apply Routine.bind (routine_changeDisk _)
  intro _
  split <;> exact .pure _

/-- A sender behind native code notes that it was called. -/
theorem routine_sendBy (accept : Bool) (report : Path) : Routine (Native.sendBy accept report) := by
  have path : Routine (Native.nativePath report) := by
    unfold Native.nativePath
    split
    · exact .pure _
    · exact .bind (routine_log _ _) fun _ => .pure none
  apply Routine.bind path
  intro text
  split
  · exact .pure _
  · apply Routine.bind (routine_contents? report)
    intro contents
    exact .bind (.observe rfl) fun _ => .pure _

end Work
end EmuFront
