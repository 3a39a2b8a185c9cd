import EmuFront.Front.Answer
import EmuFront.Front.Input

/-!
# Running operations

Every operation calls the engine through `tell`, and the engine may run further operations from
inside a call, which uses up one of its reactions. The nesting is therefore at most as deep as the
engine has reactions left. A panic in such an operation ends those around it as well.
-/

namespace EmuFront

open Act

/-! ## Those who send reports -/

namespace Transport

/-- Reads a report and notes its text. A file that is not text cannot be read. -/
def receive (report : Path) : Work (Except Failure Unit) := do
  match ← Work.read report with
  | .error e => return .error (.io report e)
  | .ok contents =>
    match Text.decode? contents with
    | none => return .error (.io report .notText)
    | some text =>
      Work.observe (.received report text)
      return .ok ()

/-- One who reads the report and accepts or refuses it, while others change the disk before and
after. -/
def recording (accept : Bool) (before during : List Storage.DiskAction) (report : Path) :
    Work (Except Failure Unit) := do
  Work.changeDisk before
  let read ← receive report
  Work.changeDisk during
  match read with
  | .error e => return .error e
  | .ok () => return if accept then .ok () else .error (.transport "refused")

end Transport

/-! ## Single operations -/

namespace OverlaySpec

/-- Makes the overlay that is asked for. -/
def made (spec : OverlaySpec) : Act Overlay := work (OverlayStack.make spec)

end OverlaySpec

/-- Performs an operation of the overlay stack. -/
def StackOp.perform (tell : Tell) : StackOp → Act Answer
  | push spec site => do
    OverlayStack.push tell site (← spec.made)
    return .nothing
  | present spec => do return .flag (← OverlayStack.present tell (← spec.made))
  | pop => do return .overlay (← OverlayStack.pop tell)
  | popNamed kind => do return .overlay (← OverlayStack.popNamed tell kind)
  | dismiss kind => do return .overlay (← OverlayStack.dismiss tell kind)
  | drain => do return .overlays (← OverlayStack.drain tell)
  | setDismissable value => do return .flag (← OverlayStack.setDismissable value)
  | tryLock held => do return .depth (← OverlayStack.tryDepth held)

/-- Performs an operation of the host's lifecycle and user interface. -/
def HostOp.perform (tell : Tell) : HostOp → Act Answer
  | create setUpError => do
    let before := (← get).machine.timeline.length
    let result ← FrontEnd.create tell fun _ =>
      return match setUpError with
        | none => .ok ()
        | some e => .error e
    let machine := (← get).machine
    let setUp := (machine.timeline.drop before).findSome? fun e =>
      match e with
      | .setUp directory => some directory
      | _ => none
    return .created result setUp machine.configured
  | graphicsReady width height => do
    FrontEnd.graphicsReady tell width height
    return .nothing
  | graphicsResized width height => do
    FrontEnd.graphicsResized tell width height
    return .nothing
  | keyDown code modifiers => do return .flag (← FrontEnd.keyDown tell code modifiers)
  | keyUp code modifiers => do return .flag (← FrontEnd.keyUp tell code modifiers)
  | back => do
    FrontEnd.back tell
    return .nothing
  | render => do
    FrontEnd.render tell
    return .nothing
  | hostPaused => do
    FrontEnd.hostPaused tell
    return .nothing
  | hostResumed => do
    FrontEnd.hostResumed tell
    return .nothing
  | touch batch => do return .outcome (← FrontEnd.touch tell batch)
  | showSplash => do return .flag (← FrontEnd.showSplash tell)
  | showMainMenu => do return .flag (← FrontEnd.showMainMenu tell)
  | showSettings => do return .flag (← FrontEnd.showSettings tell)
  | showDisks => do return .flag (← FrontEnd.showDisks tell)
  | maybeQuit => do return .flag (← FrontEnd.maybeQuit tell)
  | maybeReboot => do return .flag (← FrontEnd.maybeReboot tell)
  | pressSplash button => do return .splashAction (← FrontEnd.pressSplash tell button)
  | selectMainMenu index => do return .menuAction (← FrontEnd.selectMainMenu tell index)
  | selectSetting index => do return .setting (← FrontEnd.selectSetting index)
  | chooseDisk index driveA readOnly => do
    return .disk (← FrontEnd.chooseDisk tell index driveA readOnly)
  | confirm kind accepted => do return .confirmed (← FrontEnd.confirm tell kind accepted)

/-- Performs an operation on crash artifacts. -/
def ReportOp.perform : ReportOp → Act Answer
  | checkCrashes => do return .flag (← withReporter CrashReporter.checkOnce).isSome
  | scan => do return .artifacts (some (← work (← get).front.reporter.scan))
  | checkOnce => do return .artifacts (← withReporter CrashReporter.checkOnce)
  | crashesPresent => do return .flag (← work (← get).front.reporter.crashesPresent)
  | saveScan => do
    let artifacts ← work (← get).front.reporter.scan
    modify fun w => { w with kept := artifacts }
    return .artifacts (some artifacts)
  | aggregate => do
    let w ← get
    return .text (← work (w.front.reporter.aggregate w.kept))
  | writeAggregate text => do
    return .written (← work ((← get).front.reporter.writeAggregate text))
  | send accept before during => do
    let ((result, reporter), events) ← work <| Work.watch <|
      (← get).front.reporter.transmit (Transport.recording accept before during)
    modify fun w => { w with front := { w.front with reporter } }
    return .transmitted result <| events.filterMap fun e =>
      match e with
      | .received report text => some (report, text)
      | _ => none
  | discard => do return .count (← work (← get).front.reporter.discard)

/-- Performs an operation on the machine. -/
def MachineOp.perform : MachineOp → Work Answer
  | install config engine => do return .flag (← Work.install (config.capture engine))
  | isInstalled => do return .flag (← get).capture.isSome
  | report kind trace => do return .flag (← Work.report kind trace)
  | panic p => do
    Work.onPanic p
    return .flag true
  | changeDisk actions => do
    Work.changeDisk actions
    return .nothing
  | showFile path => do return .contents (← Work.contents? path)
  | listFiles => do return .listing (← Work.askTree Storage.Tree.listing)

/-- Performs an operation outside the front end. -/
def OutsideOp.perform : OutsideOp → Act Answer
  | nothing => return .nothing
  | setReply flags => do
    modify fun w => { w with engine := { w.engine with reply := flags } }
    return .nothing
  | showConfig => do return .config (← get).front.config

/-- What an operation does, with `tell` for its calls to the engine. -/
def Op.body (tell : Tell) : Op → Act Answer
  | stack op => op.perform tell
  | host op => op.perform tell
  | crash op => op.perform
  | machine op => work op.perform
  | outside op => op.perform

/-- Performs an operation, and adds to the timeline that it was begun. -/
def Op.perform (tell : Tell) (op : Op) : Act Answer := do
  let front := (← get).front
  work (Work.observe (.began front.engine op front.session.state))
  op.body tell

/-- Performs operations in order, and drops their answers. -/
def Op.performAll (tell : Tell) : List Op → Act Unit
  | [] => pure ()
  | op :: rest => do
    let _ ← op.perform tell
    performAll tell rest

/-! ## The engine calling back -/

/-- Calls the engine, which may react at most `depth` calls deep: it receives the call, takes its
next reaction to a call of that name and does what it holds before it returns. -/
def tellWithin : (depth : Nat) → Tell
  | 0, call => deliver call
  | depth + 1, call => do
    deliver call
    match ← takeReaction call.name with
    | none => pure ()
    | some reaction => Op.performAll (tellWithin depth) reaction.ops

/-- Does something that calls the engine, which reacts as long as it has reactions. -/
def react {α : Type} (part : Tell → Act α) : Act α := do
  part (tellWithin (← get).engine.reactions.length)

/-- Runs an operation: its answer, or the panic that ended it. -/
def Op.run (op : Op) : StateM World (Except Panic Answer) := (react op.perform).run

/-- Runs operations one after the other. A panic ends its own operation only. -/
def Op.runAll : List Op → StateM World Unit
  | [] => pure ()
  | op :: rest => do
    let _ ← op.run
    Op.runAll rest

/-- The world of a new front end. -/
def World.new (machine : Machine) (config : Config) (reactions : List Reaction) : World where
  machine
  front := .new config ⟨0, .direct⟩
  engine := ⟨.empty, reactions⟩
  kept := []

end EmuFront
