import EmuFront.Front.Stack
import EmuFront.Startup

/-!
# The host lifecycle

Creation of the engine, the surface, and the host going to the background and coming back. Pauses of
the host and of the overlays are decided against the same run state.
-/

namespace EmuFront.FrontEnd

open Act

/-- Installs crash capture, runs the setup before the first start if it is due, and creates the
engine unless the setup failed. Tells whether the setup ran. -/
def create {ε : Type} (tell : Tell) (setUp : Path → Work (Except ε Unit)) :
    Act (Except ε Bool) := do
  let front := (← get).front
  let _ ← work (Work.install (front.config.capture front.engine))
  match ← work (ensureConfigured front.config.dataDir setUp) with
  | .error e => return .error e
  | .ok ran =>
    log .info s!"Creating engine in {front.config.dataDir.text} ({front.config.audio.text})"
    tell (.create front.config.dataDir front.config.audio)
    return .ok ran

/-- Shows the splash screen. -/
def showSplash (tell : Tell) : Act Bool := do
  OverlayStack.present tell (← work (OverlayStack.make (.splash true)))

/-- Graphics exist: lets go of the startup pause, tells the engine and shows the splash screen. -/
def graphicsReady (tell : Tell) (width height : Int32) : Act Unit := do
  let size := SurfaceSize.landscape width height
  locked (commit (.graphicsReady size))
  log .info s!"Graphics ready: {size.text}"
  tell (.graphicsReady size)
  let _ ← showSplash tell

/-- The surface changed. The engine is told once graphics are ready. -/
def graphicsResized (tell : Tell) (width height : Int32) : Act Unit := do
  let size := SurfaceSize.landscape width height
  acquire
  let ready := (← state).graphicsReady
  commit (.resized size)
  if ready then
    release
    log .debug s!"Graphics resized: {size.text}"
    tell (.graphicsResized size)
  else
    log .debug s!"Resize to {size.text} before graphics ready"
    release

/-- A tick of the display, passed on once graphics are ready and while the host is in the
foreground. -/
def render (tell : Tell) : Act Unit := do
  let s ← state
  if s.graphicsReady && !s.run.holds .host then
    tell .render

/-- Names the overlays that went as the host went to the background. -/
def logDismissed : List Overlay → Act Unit
  | [] => pure ()
  | o :: rest => do
    log .debug s!"Dismissed {o.kind.name} on background"
    logDismissed rest

/-- The host went to the background. Its pause is taken before the stack is emptied, so that this
does not resume the engine. -/
def hostPaused (tell : Tell) : Act Unit := do
  let before ← state
  locked (commit .hostPaused)
  if before.run.pauseStops then
    log .info "Host paused"
  logDismissed (← OverlayStack.drain tell)
  tell (.pause true)

/-- The host is back. The engine resumes only if nothing else holds it. -/
def hostResumed (tell : Tell) : Act Unit := do
  let before ← state
  locked (commit .hostResumed)
  if before.run.resumeStarts .host then
    log .info "Host resumed"
    tell (.resume true)
  else
    log .debug s!"Host resumed, engine held: {(← state).run.text}"

end EmuFront.FrontEnd
