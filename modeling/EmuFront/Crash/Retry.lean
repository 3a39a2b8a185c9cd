import EmuFront.Machine.Basic

/-!
# Trying again

Crash files may still be in use when they are read or written. Reading is tried again after a
transient error, writing after any error, up to a number of attempts.
-/

namespace EmuFront

/-- Reads a file as text, with `left` attempts to go and `attempt` the number of the next. -/
def readAttempts (path : Path) : (attempt left : Nat) → Work (Option String)
  | _, 0 => return none
  | attempt, left + 1 => do
    match ← Work.read path with
    | .ok contents => return some (Text.decode contents)
    | .error e =>
      if e.isTransient then
        Work.log .trace s!"Interrupted reading {path.text} (attempt {attempt})"
        readAttempts path (attempt + 1) left
      else
        Work.log .debug s!"Error reading {path.text}: {e.message}"
        return none

/-- Reads a file as text, in at most so many attempts. -/
def readWithRetry (path : Path) (attempts : Nat) : Work (Option String) :=
  readAttempts path 1 attempts

/-- Writes a file, with `left` attempts to go, `attempt` the number of the next and `last` the
failure so far. -/
def writeAttempts (path : Path) (text : String) :
    (attempt left : Nat) → (last : Failure) → Work (Except Failure Unit)
  | _, 0, last => return .error last
  | attempt, left + 1, _ => do
    match ← Work.write path (Text.utf8 text) with
    | .ok () => return .ok ()
    | .error e =>
      Work.log .warn s!"Error writing {path.text} (attempt {attempt}): {e.message}"
      writeAttempts path text (attempt + 1) left (.io path e)

/-- Writes a file, in at most so many attempts. -/
def writeWithRetry (path : Path) (text : String) (attempts : Nat) : Work (Except Failure Unit) :=
  writeAttempts path text 1 attempts .noStorage

end EmuFront
