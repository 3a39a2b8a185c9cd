/-!
# Errors of file operations

The causes for which an operation on a file fails, their texts, and which of them may pass when the
operation is tried again.
-/

namespace EmuFront

/-- Why an operation on a file failed. -/
inductive OsError
  | notFound
  | interrupted
  | inputOutput
  | wouldBlock
  | permissionDenied
  | notADirectory
  | isADirectory
  | noSpace
  | timedOut
  /-- The path holds a NUL character. -/
  | nulInPath
  /-- The file was to be read as text and is not UTF-8. -/
  | notText
  /-- A failure with a text of its own. -/
  | other (text : String)
deriving Repr, DecidableEq

namespace OsError

def message : OsError → String
  | notFound => "No such file or directory (os error 2)"
  | interrupted => "Interrupted system call (os error 4)"
  | inputOutput => "Input/output error (os error 5)"
  | wouldBlock => "Resource temporarily unavailable (os error 11)"
  | permissionDenied => "Permission denied (os error 13)"
  | notADirectory => "Not a directory (os error 20)"
  | isADirectory => "Is a directory (os error 21)"
  | noSpace => "No space left on device (os error 28)"
  | timedOut => "Connection timed out (os error 110)"
  | nulInPath => "file name contained an unexpected NUL byte"
  | notText => "stream did not contain valid UTF-8"
  | other text => text

/-- Whether trying again may help. -/
def isTransient : OsError → Bool
  | interrupted | wouldBlock | timedOut => true
  | _ => false

end OsError
end EmuFront
