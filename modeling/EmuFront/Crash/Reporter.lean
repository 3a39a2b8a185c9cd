import EmuFront.Crash.Artifact
import EmuFront.Crash.Retry

/-!
# Reporting crashes

On a later start the crash artifacts are gathered into one report, which is written where the host
can reach it and handed to what sends it. A reporter sends at most one report, and offers one at
most once. Artifacts are deleted only after the report was sent, or when the host discards them.
-/

namespace EmuFront

/-- What reports the crashes of one data directory. -/
structure CrashReporter where
  dataDir : Path
  sharedDir : Option Path
  fallbackDir : Path
  /-- How often a file is tried. -/
  attempts : Nat
  /-- The artifacts have been looked for. -/
  checked : Bool
  /-- The one report has been begun. -/
  sent : Bool
  attempts_pos : 0 < attempts
deriving DecidableEq

/-- The reporter that a configuration asks for; it tries each file at least once. -/
def Config.reporter (c : Config) : CrashReporter where
  dataDir := c.dataDir
  sharedDir := c.sharedDir
  fallbackDir := c.fallbackDir
  attempts := max c.attempts 1
  checked := false
  sent := false
  attempts_pos := by omega

/-- How a transmission ended, if nothing failed. -/
inductive ReportOutcome
  | sent (report : Path) (artifacts : Nat)
  | alreadySent
  | nothingToSend
deriving Repr, DecidableEq

namespace CrashReporter

/-- The artifacts there are. -/
def scan (r : CrashReporter) : Work (List CrashArtifact) := scanArtifacts r.dataDir

/-- Whether there are artifacts. -/
def crashesPresent (r : CrashReporter) : Work Bool := return !(← r.scan).isEmpty

/-- The artifacts there are, on the first call only. -/
def checkOnce (r : CrashReporter) : Work (Option (List CrashArtifact) × CrashReporter) := do
  if r.checked then
    return (none, r)
  let artifacts ← r.scan
  let r := { r with checked := true }
  if artifacts.isEmpty then
    return (none, r)
  Work.log .info s!"Found {artifacts.length} crash artifact(s)"
  return (some artifacts, r)

/-! ## The report -/

/-- The part of a report on one artifact: a heading, and the text of its source or a mark that it
could not be read. -/
def entryText (r : CrashReporter) (a : CrashArtifact) : Work String := do
  let source ← Work.askTree fun t => a.source t
  let text ← readWithRetry source r.attempts
  return s!"=== {a.origin.name} crash: {source.text} ===\n" ++ text.getD "<unreadable>" ++ "\n"

/-- One report of all artifacts. -/
def aggregate (r : CrashReporter) : List CrashArtifact → Work String
  | [] => return ""
  | a :: rest => do
    let first ← r.entryText a
    return first ++ (← r.aggregate rest)

/-- The file of the report in a directory. -/
def reportFile (directory : Path) : Path := directory.join "emu_crash.txt"

/-- Writes the report into the first directory that takes it. -/
def writeInto (r : CrashReporter) (report : String) :
    List Path → (last : Failure) → Work (Except Failure Path)
  | [], last => return .error last
  | directory :: rest, _ => do
    let path := reportFile directory
    Work.log .debug s!"Writing crash report to {path.text}"
    match ← writeWithRetry path report r.attempts with
    | .ok () => return .ok path
    | .error e => r.writeInto report rest e

/-- Writes the report to shared storage, or to the fallback directory when shared storage is missing
or refuses it. -/
def writeAggregate (r : CrashReporter) (report : String) : Work (Except Failure Path) := do
  let shared ← Work.askTree fun t => r.sharedDir.toList.filter t.isDirectory
  r.writeInto report (shared ++ [r.fallbackDir]) .noStorage

/-! ## Sending and discarding -/

/-- Deletes one artifact, and for a dump its processed form. Tells whether the artifact went. -/
def deleteOne (a : CrashArtifact) : Work Bool := do
  let removed ← Work.removeFile a.path
  match removed with
  | .ok () => pure ()
  | .error e => Work.log .warn s!"Could not remove {a.path.text}: {e.message}"
  if a.origin = .native then
    let processed := CrashArtifact.processedPath a.path
    if ← Work.askTree fun t => t.isFile processed then
      let _ ← Work.removeFile processed
  return removed.isOk

/-- Deletes artifacts, and counts those that went. -/
def delete : List CrashArtifact → Work Nat
  | [] => return 0
  | a :: rest => do
    let gone ← deleteOne a
    let more ← delete rest
    return (if gone then 1 else 0) + more

/-- Sends the report of all artifacts through `send`, if none was begun before, and then deletes
them. -/
def transmit (r : CrashReporter) (send : Path → Work (Except Failure Unit)) :
    Work (Except Failure ReportOutcome × CrashReporter) := do
  let artifacts ← r.scan
  if artifacts.isEmpty then
    return (.ok .nothingToSend, r)
  if r.sent then
    Work.log .debug "Crash report already sent this session"
    return (.ok .alreadySent, r)
  let r := { r with sent := true }
  let report ← r.aggregate artifacts
  match ← r.writeAggregate report with
  | .error e => return (.error e, r)
  | .ok path =>
    Work.observe (.handedOver path)
    match ← send path with
    | .error e => return (.error e, r)
    | .ok () =>
      Work.log .info s!"Crash report sent: {path.text}"
      let _ ← delete artifacts
      return (.ok (.sent path artifacts.length), r)

/-- Deletes the artifacts there are without sending them, and counts those that went. -/
def discard (r : CrashReporter) : Work Nat := do
  let artifacts ← r.scan
  delete artifacts

end CrashReporter
end EmuFront
