import EmuFront.Crash.Capture

/-!
# Crash artifacts

The crash files of a data directory: the file of recorded failures, and the dumps that the engine
left. Beside a dump may lie its processed form, a text file of the same stem.
-/

namespace EmuFront

/-- A crash file. -/
structure CrashArtifact where
  origin : CrashOrigin
  path : Path
deriving Repr, DecidableEq

namespace CrashArtifact

/-- A name without its last four bytes; none if that would cut a character. -/
def stem? (name : String) : Option (List Char) :=
  Text.leading? (Text.byteLength name.toList - 4) name.toList

/-- Whether a name is that of a dump: a non-empty stem and `.dmp` in any letter case. A name that is
not text is no dump's. -/
def isDumpName (name : String) : Bool :=
  decide (4 < Text.byteLength name.toList) && (stem? name).any fun stem =>
    decide ((name.toList.drop stem.length).map Char.toLower = ".dmp".toList)

/-- The name of the processed form of a dump; none if that would cut a character. -/
def processedName? (name : String) : Option String :=
  (stem? name).map fun stem => String.ofList stem ++ ".txt"

/-- The name of the processed form of a dump. A name that is no dump's may have none, and stays. -/
def processedName (name : String) : String := (processedName? name).getD name

/-- The processed form of a dump, in the same directory. -/
def processedPath (dump : Path) : Path := dump.withFileName (processedName dump.fileName)

/-- The file that an artifact is read from: for a dump its processed form, if there is one. -/
def source (t : Storage.Tree) (a : CrashArtifact) : Path :=
  match a.origin with
  | .managed => a.path
  | .native => if t.isFile (processedPath a.path) then processedPath a.path else a.path

/-- The crash file of recorded failures, if there is one. -/
def managed? (t : Storage.Tree) (dataDir : Path) : List CrashArtifact :=
  let path := managedCrashFile dataDir
  if t.isFile path then [⟨.managed, path⟩] else []

end CrashArtifact

/-- The crash artifacts of a directory: the file of recorded failures first, then the dumps in
ascending order. A directory that cannot be read has no dumps. -/
def scanArtifacts (dataDir : Path) : Work (List CrashArtifact) := do
  let managed ← Work.askTree fun t => CrashArtifact.managed? t dataDir
  match ← Work.filesIn dataDir CrashArtifact.isDumpName with
  | .ok dumps => return managed ++ dumps.map fun path => ⟨.native, path⟩
  | .error e =>
    Work.log .warn s!"Cannot scan {dataDir.text} for crashes: {e.message}"
    return managed

end EmuFront
