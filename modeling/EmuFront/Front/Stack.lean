import EmuFront.Front.World
import EmuFront.Overlay.Making

/-!
# The overlay stack

The stack alone pauses the engine for overlays: every push signals a pause, and the removal that
empties the stack signals a resume unless another reason is held. A change is complete and the
session lock free before the engine is signalled, so that the engine may use the stack from inside
the signal.
-/

namespace EmuFront.OverlayStack

open Act

/-- Makes the overlay that is asked for. -/
def make : OverlaySpec → Work Overlay
  | .splash dismissable => makeOverlay (.splash dismissable)
  | .mainMenu => makeOverlay .mainMenu
  | .settingsMenu => makeOverlay .settingsMenu
  | .disksMenu directory => do makeOverlay (.disksMenu (← scanDiskImages directory))
  | .confirm kind => makeOverlay (.confirm kind)

/-! ## Putting overlays on -/

/-- Attaches an overlay and puts it on top, with the lock held. -/
def pushLocked (o : Overlay) : Act Unit := do
  let before ← state
  commit (.pushed (o.attach before.bounds))
  if before.run.pauseStops then
    log .info s!"Engine paused for {o.kind.name}"
  log .debug s!"push {o.kind.name}, depth {(← state).depth}"

/-- The panic of putting a second overlay of a kind on the stack. -/
def doublePush (site : PanicSite) (kind : OverlayKind) : Panic :=
  ⟨site, some s!"overlay {kind.name} is already on the stack"⟩

/-- Puts an overlay on top and pauses the engine. A second overlay of a kind is a panic, which
leaves the session as it was but for the poisoned lock. -/
def push (tell : Tell) (site : PanicSite) (o : Overlay) : Act Unit := do
  acquire
  if (← state).shows o.kind then
    let panic := doublePush site o.kind
    note fun engine => .refused engine o
    work (Work.onPanic panic)
    modifySession fun s => { s with locked := false, poisoned := true }
    throw panic
  else
    pushLocked o
    release
    tell (.pause false)

/-- Puts an overlay on top and pauses the engine, unless one of its kind is showing. -/
def present (tell : Tell) (o : Overlay) : Act Bool := do
  acquire
  if (← state).shows o.kind then
    log .debug s!"{o.kind.name} already showing"
    note fun engine => .refused engine o
    release
    return false
  else
    pushLocked o
    release
    tell (.pause false)
    return true

/-! ## Taking overlays off -/

/-- Takes an overlay off and detaches it, with the lock held. Tells whether the engine is to
resume. -/
def removeLocked (o : Overlay) : Act Bool := do
  let before ← state
  commit (.removed o.detach)
  let after ← state
  log .debug s!"pop {o.kind.name}, depth {after.depth}"
  if after.stack.isEmpty then
    if before.run.resumeStarts .overlay then
      log .info "Overlays cleared, resuming engine"
      return true
    else
      log .debug s!"Overlays cleared, engine still paused: {after.run.text}"
      return false
  else
    return false

/-- Takes off the overlay that is picked, if one is, and then resumes the engine if nothing holds it
any more. -/
def remove (tell : Tell) (pick : SessionState → Act (Option Overlay)) : Act (Option Overlay) := do
  acquire
  match ← pick (← state) with
  | none =>
    release
    return none
  | some o =>
    let resume ← removeLocked o
    release
    if resume then
      tell (.resume false)
    note fun engine => .returned engine o.detach
    return some o.detach

/-- Takes off the top overlay. -/
def pop (tell : Tell) : Act (Option Overlay) := remove tell fun s => return s.top?

/-- Takes off the overlay of a kind, wherever it sits. -/
def popNamed (tell : Tell) (kind : OverlayKind) : Act (Option Overlay) :=
  remove tell fun s => return s.find? kind

/-- Closes the overlay of a kind on behalf of the user. One that is not dismissable stays. -/
def dismiss (tell : Tell) (kind : OverlayKind) : Act (Option Overlay) :=
  remove tell fun s =>
    match s.find? kind with
    | none => return none
    | some o =>
      if o.isDismissable then
        return some o
      else do
        log .debug s!"{kind.name} is not dismissable"
        return none

/-- Takes overlays off from the top, at most so many, until there is none. -/
def popMany (tell : Tell) : Nat → Act (List Overlay)
  | 0 => return []
  | n + 1 => do
    match ← pop tell with
    | none => return []
    | some o => return o :: (← popMany tell n)

/-- Empties the stack, and gives its overlays from the top down. The engine may put further overlays
on from inside the signals, but at most one with each operation it has left. -/
def drain (tell : Tell) : Act (List Overlay) := do
  let w ← get
  popMany tell (w.front.session.state.depth + w.engine.operationsLeft)

/-- Sets whether the splash screen may be closed. Tells whether there is one. -/
def setDismissable (value : Bool) : Act Bool :=
  locked do
    if (← state).shows .splashScreen then
      commit (.dismissableSet value)
      return true
    else
      return false

/-- The depth as one sees it who only tries the lock. -/
def tryDepth (held : Bool) : Act (Option Nat) := do
  modifySession fun s => { s with locked := held }
  let depth := (← get).front.session.depth?
  release
  return depth

end EmuFront.OverlayStack
