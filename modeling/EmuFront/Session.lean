import EmuFront.Overlay.Basic
import EmuFront.RunState

/-!
# The session

Everything that the overlay stack and the host lifecycle decide against: the stack, the run state
and the surface, all behind one lock.

The state changes in few ways only. Each is a `Change`, and the session as it stands is the result
of all changes so far, in order (`SessionState.after`).
-/

namespace EmuFront

/-- What the session lock guards. -/
structure SessionState where
  /-- The overlays showing, from the top of the stack down. -/
  stack : List Overlay
  run : RunState
  surface : Option SurfaceSize
  /-- Set once the engine has been told that graphics exist. -/
  graphicsReady : Bool
deriving Repr, DecidableEq

/-- A step that the session state takes. -/
inductive Change
  /-- An attached overlay is put on top of the stack. -/
  | pushed (overlay : Overlay)
  /-- An overlay leaves the stack, from wherever it sits, and is detached. -/
  | removed (overlay : Overlay)
  /-- The splash screen is opened or closed to dismissal. -/
  | dismissableSet (value : Bool)
  | hostPaused
  | hostResumed
  | graphicsReady (size : SurfaceSize)
  | resized (size : SurfaceSize)
deriving Repr, DecidableEq

namespace SessionState

/-- A new session shows nothing and waits for startup. -/
def new : SessionState := ⟨[], .new, none, false⟩

def depth (s : SessionState) : Nat := s.stack.length

/-- The top overlay. -/
def top? (s : SessionState) : Option Overlay := s.stack.head?

/-- The overlay of a kind. -/
def find? (s : SessionState) (kind : OverlayKind) : Option Overlay :=
  s.stack.find? fun o => decide (o.kind = kind)

/-- Whether an overlay of a kind is showing. -/
def shows (s : SessionState) (kind : OverlayKind) : Bool :=
  s.stack.any fun o => decide (o.kind = kind)

/-- The bounds that a new overlay is attached with. -/
def bounds (s : SessionState) : SurfaceSize := s.surface.getD .zero

/-- Takes the overlay of a kind off the stack. Losing the last overlay lets go of the overlay
pause. -/
def remove (s : SessionState) (kind : OverlayKind) : SessionState :=
  let stack := s.stack.eraseP fun o => decide (o.kind = kind)
  { s with stack, run := if stack.isEmpty then s.run.resume .overlay else s.run }

/-- The state after a change. A resize moves the overlays only once graphics are ready. -/
def apply (s : SessionState) : Change → SessionState
  | .pushed o => { s with stack := o :: s.stack, run := s.run.pause .overlay }
  | .removed o => s.remove o.kind
  | .dismissableSet value =>
    { s with stack := s.stack.map fun o => o.setDismissable value }
  | .hostPaused => { s with run := s.run.pause .host }
  | .hostResumed => { s with run := s.run.resume .host }
  | .graphicsReady size =>
    { s with surface := some size, graphicsReady := true, run := s.run.resume .startup }
  | .resized size =>
    { s with
      surface := some size
      stack := if s.graphicsReady then s.stack.map fun o => o.attach size else s.stack }

/-- The state after a list of changes. -/
def after (s : SessionState) (changes : List Change) : SessionState := changes.foldl apply s

end SessionState

/-- The session state and its lock. -/
structure Session where
  state : SessionState
  /-- The lock is held. -/
  locked : Bool
  /-- A holder of the lock has panicked. The state stays in use. -/
  poisoned : Bool
deriving Repr, DecidableEq

namespace Session

/-- A new session, with its lock free. -/
def new : Session := ⟨.new, false, false⟩

/-- The depth of the stack, if the lock is free. -/
def depth? (s : Session) : Option Nat := if s.locked then none else some s.state.depth

end Session
end EmuFront
