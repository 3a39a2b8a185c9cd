import EmuFront.Crash.Panic
import EmuFront.Machine.Basic

/-!
# Recording failures

A failure is formatted at once, added to the crash file of the data directory and passed on to the
engine, whether or not the file could be written. One capture serves the whole process: the first
that is installed stays. It sees every panic before those who looked after panics already.
-/

namespace EmuFront

/-- The crash file of a data directory. -/
def managedCrashFile (dataDir : Path) : Path := dataDir.join "managed_crash.txt"

namespace CrashRecord

/-- Adds the record to the crash file of a directory. -/
def persist (r : CrashRecord) (directory : Path) : Work (Except Failure Path) := do
  let path := managedCrashFile directory
  match ← Work.append path (Text.utf8 r.text) with
  | .ok () => return .ok path
  | .error e => return .error (.io path e)

end CrashRecord

namespace CrashCapture

/-- A capture that knows nothing about the device. -/
def new (engine : EngineRef) (dataDir : Path) : CrashCapture :=
  ⟨engine, dataDir, dataDir, .unknown, CrashRecord.defaultBudget⟩

/-- Formats a failure, adds it to the crash file and passes it on. -/
def record (c : CrashCapture) (kind : CrashKind) (trace : String) :
    Work (CrashRecord × Except Failure Path) := do
  let r := CrashRecord.managed c.fingerprint kind trace c.budget
  let written ← r.persist c.dataDir
  Work.passOn c.engine c.homeDir r.text
  return (r, written)

/-- Records a failure, and only logs that it could not be written. -/
def recordQuietly (c : CrashCapture) (kind : CrashKind) (trace : String) : Work Unit := do
  match (← c.record kind trace).2 with
  | .ok _ => pure ()
  | .error e => Work.log .error s!"Could not write crash record: {e.message}"

end CrashCapture

namespace Work

/-- Installs a crash capture, unless there is one already. -/
def install (c : CrashCapture) : Work Bool := do
  match (← get).capture with
  | some _ =>
    log .debug "Crash handler already installed"
    return false
  | none =>
    modify fun p => { p with capture := some c }
    log .info "Crash handler installed"
    return true

/-- Records a failure that the host caught itself; false without a capture. -/
def report (kind : CrashKind) (trace : String) : Work Bool := do
  match (← get).capture with
  | none =>
    log .warn s!"Crash handler not installed, dropping {kind.name}"
    return false
  | some c =>
    c.recordQuietly kind trace
    return true

/-- Records a panic, if there is a capture, and lets it go on. -/
def onPanic (p : Panic) : Work Unit := do
  match (← get).capture with
  | none => pure ()
  | some c => c.recordQuietly .panic p.trace
  observe (.chained p.message)

end Work
end EmuFront
