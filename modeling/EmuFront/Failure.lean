import EmuFront.Path
import EmuFront.Storage.OsError

/-!
# Failures

What can go wrong between the host and the engine, with the texts that the host is shown.
-/

namespace EmuFront

/-- A failure that is reported to the host. -/
inductive Failure
  /-- A file could not be used. -/
  | io (path : Path) (error : OsError)
  /-- There is nowhere to write the crash report. -/
  | noStorage
  /-- A text cannot be handed to native code. -/
  | invalidString (text : String)
  /-- The crash report was not accepted. -/
  | transport (text : String)
  /-- The setup before the first start failed. -/
  | firstRun (directory : Path)
deriving Repr, DecidableEq

namespace Failure

def message : Failure → String
  | io path error => s!"I/O error on {path.text}: {error.message}"
  | noStorage => "no writable location for the crash report"
  | invalidString text => s!"string is not valid for the native boundary: {text}"
  | transport text => s!"transport refused the crash report: {text}"
  | firstRun directory => s!"first-run setup failed in {directory.text}"

/-- The failure behind a failure. -/
def cause? : Failure → Option String
  | io _ error => some error.message
  | _ => none

end Failure
end EmuFront
