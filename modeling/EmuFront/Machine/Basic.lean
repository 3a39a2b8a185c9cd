import EmuFront.Config
import EmuFront.Failure
import EmuFront.Machine.Event

/-!
# The machine

State that all front ends of one process share: the disk, the numbering of overlays, the crash
capture and the host's first-start flag. All that happens is added to the timeline.
-/

namespace EmuFront

/-- Where and how failures are recorded. -/
structure CrashCapture where
  engine : EngineRef
  homeDir : Path
  dataDir : Path
  fingerprint : Fingerprint
  budget : Nat
deriving Repr, DecidableEq

/-- The crash capture that a configuration asks for. -/
def Config.capture (c : Config) (engine : EngineRef) : CrashCapture :=
  ⟨engine, c.homeDir, c.dataDir, c.fingerprint, c.budget⟩

/-- The state that front ends share. -/
structure Machine where
  disk : Storage.Disk
  /-- The number that the next overlay takes. -/
  nextSurface : Nat
  /-- The crash capture, once one is installed. -/
  capture : Option CrashCapture
  /-- The setup before the first start has been done. -/
  configured : Bool
  timeline : List Event

/-- A new machine over a disk. -/
def Machine.new (disk : Storage.Disk) : Machine := ⟨disk, 1, none, false, []⟩

instance : Inhabited Machine := ⟨.new default⟩

/-- Something done on the machine. -/
abbrev Work := StateM Machine

namespace Work

/-! ## Watching -/

/-- Adds an event to the timeline. -/
def observe (e : Event) : Work Unit := modify fun p => { p with timeline := p.timeline ++ [e] }

/-- Adds a log line to the timeline. -/
def log (level : LogLevel) (message : String) : Work Unit := observe (.logged level message)

/-- Runs a part and also gives the events it added. -/
def watch {α : Type} (part : Work α) : Work (α × List Event) := do
  let before := (← get).timeline.length
  let a ← part
  return (a, (← get).timeline.drop before)

/-! ## Files -/

/-- Runs a disk operation that may change the disk. -/
def onDisk {α : Type} (operation : Storage.Disk → α × Storage.Disk) : Work α := fun p =>
  let (a, disk) := operation p.disk
  (a, { p with disk })

/-- Asks the file tree. -/
def askTree {α : Type} (question : Storage.Tree → α) : Work α :=
  return question (← get).disk.tree

/-- Opens a directory for the plain files in it whose names are texts that pass a test, in ascending
order. -/
def filesIn (directory : Path) (accept : String → Bool) : Work (Except OsError (List Path)) := do
  observe (.listed directory)
  askTree fun t => t.filesIn directory accept

/-- Opens a file and reads its contents. -/
def read (path : Path) : Work (Except OsError Text.Bytes) := do
  observe (.opened path .reading)
  onDisk fun d => d.read path

/-- Opens a file and gives it new contents. -/
def write (path : Path) (contents : Text.Bytes) : Work (Except OsError Unit) := do
  observe (.opened path .writing)
  onDisk fun d => d.write path contents

/-- Opens a file and adds to its end. -/
def append (path : Path) (contents : Text.Bytes) : Work (Except OsError Unit) := do
  observe (.opened path .writing)
  onDisk fun d => d.append path contents

/-- Removes a plain file. -/
def removeFile (path : Path) : Work (Except OsError Unit) := onDisk fun d => d.remove path

/-- The contents of a file, if it can be read. -/
def contents? (path : Path) : Work (Option Text.Bytes) := do
  match ← read path with
  | .ok contents => return some contents
  | .error _ => return none

/-- Changes the disk the way others do. -/
def changeDisk (actions : List Storage.DiskAction) : Work Unit :=
  onDisk fun d => ((), d.actAll actions)

/-! ## Native engines -/

/-- Takes a call over to a native engine, or warns that it is dropped. -/
def cross (engine : EngineRef) (call : Except String Native.NativeCall) : Work Unit :=
  match engine.boundary, call with
  | .direct, _ => pure ()
  | .native, .ok call => observe (.crossed engine call)
  | .native, .error reason => log .warn (Failure.invalidString reason).message

/-- Passes a failure on to an engine. -/
def passOn (engine : EngineRef) (home : Path) (text : String) : Work Unit := do
  observe (.failed engine home text)
  cross engine (Native.NativeCall.ofFailure home text)

/-! ## Running -/

variable {α β : Type}

theorem run_pure (a : α) (m : Machine) : (pure a : Work α) m = (a, m) := rfl

/-- Work in a row hands its result and its machine on. -/
theorem run_bind (part : Work α) (next : α → Work β) (m : Machine) :
    (part >>= next) m = next (part m).1 (part m).2 := rfl

theorem run_observe (e : Event) (m : Machine) :
    observe e m = ((), { m with timeline := m.timeline ++ [e] }) := rfl

theorem run_log (level : LogLevel) (message : String) (m : Machine) :
    log level message m = ((), { m with timeline := m.timeline ++ [.logged level message] }) := rfl

theorem run_askTree (question : Storage.Tree → α) (m : Machine) :
    askTree question m = (question m.disk.tree, m) := rfl

/-- To read a directory is to note that it is opened, and to ask the tree. -/
theorem run_filesIn (directory : Path) (accept : String → Bool) (m : Machine) :
    filesIn directory accept m = (m.disk.tree.filesIn directory accept,
      { m with timeline := m.timeline ++ [.listed directory] }) := rfl

end Work
end EmuFront
