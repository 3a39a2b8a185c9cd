import EmuFront.Text.Flags

/-!
# Run state

The engine runs only while no pause reason is held. Each reason belongs to one party, so that an
overlay that goes away cannot resume an engine that the host has put in the background, and the
other way round.
-/

namespace EmuFront

/-- Why the engine is paused. -/
inductive PauseReason
  /-- Held from the start until graphics are first ready. -/
  | startup
  /-- Held while an overlay is showing. -/
  | overlay
  /-- Held while the host is in the background. -/
  | host
deriving Repr, DecidableEq

namespace PauseReason

/-- All reasons, in the order of their bits. -/
def all : List PauseReason := [startup, overlay, host]

def name : PauseReason → String
  | startup => "Startup" | overlay => "Overlay" | host => "Host"

/-- The name of the reason's bit. -/
def flagName : PauseReason → String
  | startup => "STARTUP" | overlay => "OVERLAY" | host => "HOST"

def bit : PauseReason → UInt32
  | startup => 1 | overlay => 2 | host => 4

end PauseReason

/-- The pause reasons that are held. -/
structure RunState where
  startup : Bool
  overlay : Bool
  host : Bool
deriving Repr, DecidableEq

namespace RunState

/-- A new run state is paused for startup. -/
def new : RunState := ⟨true, false, false⟩

/-- Whether a reason is held. -/
def holds (r : RunState) : PauseReason → Bool
  | .startup => r.startup
  | .overlay => r.overlay
  | .host => r.host

/-- Sets whether a reason is held. -/
def set (r : RunState) (held : Bool) : PauseReason → RunState
  | .startup => { r with startup := held }
  | .overlay => { r with overlay := held }
  | .host => { r with host := held }

def pause (r : RunState) (reason : PauseReason) : RunState := r.set true reason

def resume (r : RunState) (reason : PauseReason) : RunState := r.set false reason

/-- The engine runs when no reason is held. -/
def isRunning (r : RunState) : Bool := !r.startup && !r.overlay && !r.host

/-- Whether holding one more reason stops a running engine. -/
def pauseStops (r : RunState) : Bool := r.isRunning

/-- Whether letting go of a reason sets the engine running. -/
def resumeStarts (r : RunState) (reason : PauseReason) : Bool :=
  !r.isRunning && (r.resume reason).isRunning

/-- The reasons held, in order. -/
def held (r : RunState) : List PauseReason := PauseReason.all.filter r.holds

/-- The reasons held, as bits. -/
def bits (r : RunState) : UInt32 := r.held.foldl (fun bits reason => bits ||| reason.bit) 0

/-- The state as it stands in log messages. -/
def text (r : RunState) : String :=
  "RunState \x7b reasons: "
    ++ Text.flagSet "PauseReasons" (PauseReason.all.map fun p => (p.flagName, p.bit)) r.bits
    ++ " \x7d"

end RunState
end EmuFront
