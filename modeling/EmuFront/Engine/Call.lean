import EmuFront.Engine.Params
import EmuFront.Path
import EmuFront.Touch.Sample

/-!
# Calls to the engine

The engine runs on its own. Each call is a signal that needs no answer; only a touch sample is
answered, with flags. An engine may call back into the front end from inside any of these.

A failure is passed on to the engine as well, but that is no call of this kind. It comes while a
panic unwinds, which may hold the session lock, or from a host that reports an exception, and the
engine does nothing but take it.
-/

namespace EmuFront

/-- A signal to the engine. -/
inductive EngineCall
  | create (dataDir : Path) (audio : AudioParams)
  | graphicsReady (size : SurfaceSize)
  | graphicsResized (size : SurfaceSize)
  | keyDown (code modifiers : Int32)
  | keyUp (code modifiers : Int32)
  /-- Pause, on behalf of the host or of the overlays. -/
  | pause (host : Bool)
  /-- Resume, on behalf of the host or of the overlays. -/
  | resume (host : Bool)
  | quit
  | reboot
  | render
  | touch (sample : TouchSample)
  | chooseDisk (path : Path) (driveA readOnly : Bool)
deriving DecidableEq

/-- The name of a call, apart from what it carries. -/
inductive CallName
  | create | graphicsReady | graphicsResized | keyDown | keyUp | pause | resume | quit | reboot
  | render | touch | chooseDisk
deriving Repr, DecidableEq

def EngineCall.name : EngineCall → CallName
  | create .. => .create
  | graphicsReady _ => .graphicsReady
  | graphicsResized _ => .graphicsResized
  | keyDown .. => .keyDown
  | keyUp .. => .keyUp
  | pause _ => .pause
  | resume _ => .resume
  | quit => .quit
  | reboot => .reboot
  | render => .render
  | touch _ => .touch
  | chooseDisk .. => .chooseDisk

/-- How calls reach an engine. -/
inductive Boundary
  /-- As they are. -/
  | direct
  /-- As calls of native functions. -/
  | native
deriving Repr, DecidableEq

/-- One engine among those in a process. -/
structure EngineRef where
  id : Nat
  boundary : Boundary
deriving Repr, DecidableEq

end EmuFront
