import EmuFront.Proofs.Ensures
import EmuFront.Proofs.Routine

/-!
# Work that no session takes part in

The trace of a machine is what its timeline holds about sessions: operations begun, changes
committed and calls told, in order. Log lines, files, crash records and reports add nothing to it,
so that they can be left out when a session is followed.
-/

namespace EmuFront

/-- Whether an event is about a session. -/
def Event.ofSession : Event → Bool
  | .began .. | .committed .. | .told .. => true
  | _ => false

/-- What has happened to sessions, in order. -/
def Machine.trace (m : Machine) : List Event := m.timeline.filter Event.ofSession

namespace Work

variable {α β ε : Type}

/-- Work that adds nothing to the trace. -/
def Quiet (part : Work α) : Prop := ∀ m : Machine, (part m).2.trace = m.trace

/-! ## Putting work together -/

theorem Quiet.pure (a : α) : Quiet (Pure.pure a) := fun _ => rfl

/-- Two quiet parts in a row are quiet. -/
theorem Quiet.bind {part : Work α} {next : α → Work β} (first : Quiet part)
    (rest : ∀ a, Quiet (next a)) : Quiet (part >>= next) := by
  intro m
  show (next (part m).1 (part m).2).2.trace = m.trace
  rw [rest, first]

theorem Quiet.get : Quiet (MonadState.get : Work Machine) := fun _ => rfl

theorem Quiet.modify {change : Machine → Machine} (h : ∀ m, (change m).timeline = m.timeline) :
    Quiet (modify change : Work PUnit) := by
  intro m
  show (change m).timeline.filter _ = m.timeline.filter _
  rw [h]

/-- An event that is none of a session's may be shown quietly. -/
theorem quiet_observe {e : Event} (h : e.ofSession = false) : Quiet (observe e) := by
  intro m
  show (m.timeline ++ [e]).filter _ = m.timeline.filter _
  simp [h]

theorem quiet_log (level : LogLevel) (message : String) : Quiet (log level message) :=
  quiet_observe rfl

/-- Watching work shows it to no session. -/
theorem Quiet.watch {part : Work α} (h : Quiet part) : Quiet (watch part) :=
  .bind .get fun _ => .bind h fun _ => .bind .get fun _ => .pure _

/-- Routine events are not about sessions. -/
theorem Routine.quiet {part : Work α} (h : Routine part) : Quiet part := by
  intro m
  rw [Machine.trace, Machine.trace, ← List.filterMap_eq_filter]
  apply h.filterMap_timeline
  intro e routine
  cases e <;> simp_all [Event.isRoutine, Event.ofSession]

/-! ## Native engines and failures -/

/-- A call that is taken over to native code is shown apart from sessions. -/
theorem quiet_cross (engine : EngineRef) (call : Except String Native.NativeCall) :
    Quiet (cross engine call) := by
  unfold cross
  split
  · exact .pure ()
  · exact quiet_observe rfl
  · exact quiet_log _ _

/-- An engine that a failure is passed on to does not call back. -/
theorem quiet_passOn (engine : EngineRef) (home : Path) (text : String) :
    Quiet (passOn engine home text) :=
  .bind (quiet_observe rfl) fun _ => quiet_cross _ _

/-- A record goes to a file and to the engine, and no session is asked. -/
theorem quiet_record (c : CrashCapture) (kind : CrashKind) (trace : String) :
    Quiet (c.record kind trace) :=
  .bind (routine_persist _ _).quiet fun _ => .bind (quiet_passOn _ _ _) fun _ => .pure _

/-- So does one whose own failure is only logged. -/
theorem quiet_recordQuietly (c : CrashCapture) (kind : CrashKind) (trace : String) :
    Quiet (c.recordQuietly kind trace) := by
  apply Quiet.bind (quiet_record c kind trace)
  intro result
  split
  · exact .pure ()
  · exact quiet_log _ _

/-- A capture is installed once, and quietly. -/
theorem quiet_install (c : CrashCapture) : Quiet (install c) := by
  apply Quiet.bind .get
  intro m
  split
  · exact .bind (quiet_log _ _) fun _ => .pure false
  · exact .bind (.modify fun _ => rfl) fun _ => .bind (quiet_log _ _) fun _ => .pure true

/-- A report of the host is recorded or dropped, both quietly. -/
theorem quiet_report (kind : CrashKind) (trace : String) : Quiet (report kind trace) := by
  apply Quiet.bind .get
  intro m
  split
  · exact .bind (quiet_log _ _) fun _ => .pure false
  · exact .bind (quiet_recordQuietly _ _ _) fun _ => .pure true

/-- The hook of a panic is quiet, for the session may be locked meanwhile. -/
theorem quiet_onPanic (p : Panic) : Quiet (onPanic p) := by
  apply Quiet.bind .get
  intro m
  split
  -- without a capture installed the panic only goes on to whoever looked after it before
  · exact quiet_observe rfl
  · exact .bind (quiet_recordQuietly _ _ _) fun _ => quiet_observe rfl

/-! ## Overlays and setup -/

theorem quiet_makeOverlay (content : OverlayContent) : Quiet (makeOverlay content) :=
  .bind .get fun _ => .bind (.modify fun _ => rfl) fun _ => .pure _

/-- An overlay that is made is not in a session yet. -/
theorem quiet_make (spec : OverlaySpec) : Quiet (OverlayStack.make spec) := by
  cases spec with
  | disksMenu directory =>
    exact .bind (routine_scanDiskImages directory).quiet fun _ => quiet_makeOverlay _
  | splash | mainMenu | settingsMenu | confirm => exact quiet_makeOverlay _

/-- The setup before the first start is as quiet as what the host does in it. -/
theorem quiet_ensureConfigured {dataDir : Path} {setUp : Path → Work (Except ε Unit)}
    (h : ∀ directory, Quiet (setUp directory)) : Quiet (ensureConfigured dataDir setUp) := by
  apply Quiet.bind .get
  intro m
  split
  · exact .pure _
  · apply Quiet.bind (quiet_log _ _)
    intro _
    apply Quiet.bind (quiet_observe rfl)
    intro _
    apply Quiet.bind (h dataDir)
    intro result
    split
    · exact .pure _
    · exact .bind (.modify fun _ => rfl) fun _ => .pure _

/-! ## Reports -/

/-- A transmission is as quiet as the one who sends the report. -/
theorem quiet_transmit (r : CrashReporter) {send : Path → Work (Except Failure Unit)}
    (h : ∀ report, Quiet (send report)) : Quiet (r.transmit send) := by
  apply Quiet.bind (routine_scanArtifacts _).quiet
  intro artifacts
  split
  · exact .pure _
  · split
    · exact .bind (quiet_log _ _) fun _ => .pure _
    · apply Quiet.bind (routine_aggregate _ _).quiet
      intro report
      apply Quiet.bind (routine_writeAggregate _ _).quiet
      intro written
      split
      · exact .pure _
      · apply Quiet.bind (quiet_observe rfl)
        intro _
        apply Quiet.bind (h _)
        intro outcome
        split
        · exact .pure _
        · exact .bind (quiet_log _ _) fun _ => .bind (routine_delete _).quiet fun _ => .pure _

theorem quiet_perform (op : MachineOp) : Quiet op.perform := by
  cases op with
  | install config engine => exact .bind (quiet_install _) fun _ => .pure _
  | isInstalled => exact .bind .get fun _ => .pure _
  | report kind trace => exact .bind (quiet_report kind trace) fun _ => .pure _
  | panic p => exact .bind (quiet_onPanic p) fun _ => .pure _
  | changeDisk actions => exact .bind (routine_changeDisk actions).quiet fun _ => .pure _
  | showFile path => exact .bind (routine_contents? path).quiet fun _ => .pure _
  | listFiles => exact .bind (routine_askTree _).quiet fun _ => .pure _

end Work
end EmuFront
