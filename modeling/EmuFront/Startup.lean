import EmuFront.Machine.Basic

/-!
# Setup before the first start

The host keeps a flag that tells whether its setup has been done. Setup runs while the flag is
unset, and only a setup that succeeds sets it.
-/

namespace EmuFront

/-- Runs the setup of a directory unless it has been done. Tells whether it ran. -/
def ensureConfigured {ε : Type} (dataDir : Path) (setUp : Path → Work (Except ε Unit)) :
    Work (Except ε Bool) := do
  if (← get).configured then
    return .ok false
  Work.log .debug s!"First run, preparing {dataDir.text}"
  Work.observe (.setUp dataDir)
  match ← setUp dataDir with
  | .error e => return .error e
  | .ok () =>
    modify fun p => { p with configured := true }
    return .ok true

end EmuFront
