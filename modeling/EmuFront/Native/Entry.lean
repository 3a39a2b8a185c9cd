import EmuFront.Native.Bridge

/-!
# Entry points for native hosts

What a native host can do with a bridge. Arguments and results are 32-bit integers and truth values;
negative counts and indexes of a touch count as zero, and a negative index of a choice chooses
nothing.
-/

namespace EmuFront.Native

/-- A call of an entry point on a bridge. -/
inductive EntryOp
  /-- Creates the engine, where the host has been set up or not, with a setup function that succeeds
  or not, or without one. -/
  | create (configured : Bool) (setUp : Option Bool)
  | graphicsReady (width height : Int32)
  | graphicsResized (width height : Int32)
  | keyDown (code modifiers : Int32)
  | keyUp (code modifiers : Int32)
  /-- A touch batch, whose coordinates may be missing. -/
  | touch (action count index : Int32) (xs ys : Option (List Single))
  | render
  | hostPaused
  | hostResumed
  | showMainMenu
  | topOverlay
  | pressSplash (button : Int32)
  | selectMainMenu (index : Int32)
  | selectSetting (index : Int32)
  | chooseDisk (index : Int32) (driveA readOnly : Bool)
  | maybeQuit
  | maybeReboot
  | confirm (kind : Int32) (accepted : Bool)
  | checkCrashes
  /-- Sends the report by a function that accepts it or not. -/
  | send (accept : Bool)
  | discard
deriving Repr, DecidableEq

/-- The result of an entry point. -/
inductive Result
  | nothing
  | truth (value : Bool)
  | number (value : Int)
deriving Repr, DecidableEq

/-! ## Functions of the host -/

/-- A path as native code takes it, or nothing, with a warning. -/
def nativePath (path : Path) : Work (Option String) := do
  match nativeText path.text with
  | .ok text => return some text
  | .error reason =>
    Work.log .warn (Failure.invalidString reason).message
    return none

/-- The setup by a function of the host. Without one there is nothing to do. -/
def setUpBy (function : Option Bool) (directory : Path) : Work (Except Failure Unit) := do
  match function with
  | none => return .ok ()
  | some succeeds =>
    match ← nativePath directory with
    | none => return .error (.invalidString directory.text)
    | some _ =>
      Work.observe (.calledBack (.firstRun directory))
      return if succeeds then .ok () else .error (.firstRun directory)

/-- Sends a report by a function of the host, which reads the file. -/
def sendBy (accept : Bool) (report : Path) : Work (Except Failure Unit) := do
  match ← nativePath report with
  | none => return .error (.invalidString report.text)
  | some _ =>
    let contents ← Work.contents? report
    Work.observe (.calledBack (.send report contents))
    return if accept then .ok () else .error (.transport report.text)

/-! ## Numbers -/

/-- The bits of a touch outcome: consumed, and a key click. -/
def outcomeBits (o : TouchOutcome) : Nat :=
  (if o.consumed then 1 else 0) + (if o.keyClick then 2 else 0)

/-- A number that counts something, or nothing if it is negative. -/
def index? (n : Int32) : Option Nat := if n < 0 then none else some n.toInt.toNat

/-- A touch batch of raw numbers and equally long coordinates. -/
def batchOf (action count index : Int32) (xs ys : List Single) : TouchBatch :=
  let length := min xs.length ys.length
  ⟨.ofCode action, count.toInt.toNat, index.toInt.toNat, xs.take length, ys.take length⟩

/-- The number by which a creation is told: done with setup, done without, failed. -/
def creationCode : Except Failure Bool → Int
  | .ok true => 1
  | .ok false => 0
  | .error _ => -1

/-- The number by which a transmission is told: sent, nothing sent, failed. -/
def transmissionCode : Except Failure ReportOutcome → Int
  | .ok (.sent ..) => 1
  | .ok _ => 0
  | .error _ => -1

/-! ## Entry points -/

/-- Logs a failure under a heading. -/
def logFailure {α : Type} (heading : String) : Except Failure α → Act Unit
  | .ok _ => pure ()
  | .error e => Act.log .error s!"{heading}: {e.message}"

/-- Creates the engine of a front end whose host keeps the flag of the setup. -/
def createWith (heading : String) (configured : Bool) (setUp : Path → Work (Except Failure Unit)) :
    Act Int := do
  modify fun w => { w with machine := { w.machine with configured } }
  let result ← react fun tell => FrontEnd.create tell setUp
  logFailure heading result
  return creationCode result

/-- Sends the report of a front end. -/
def transmitWith (send : Path → Work (Except Failure Unit)) : Act Int := do
  let result ← Act.withReporter fun r => r.transmit send
  logFailure "Crash report failed" result
  return transmissionCode result

/-- Hands a touch batch to a front end. -/
def touchWith (batch : TouchBatch) : Act Int := do
  return outcomeBits (← react fun tell => FrontEnd.touch tell batch)

/-- Chooses by an index, which chooses nothing if it is negative. -/
def chosenBy {α : Type} (index : Int32) (choose : Nat → Act (Option α)) : Act Bool := do
  match index? index with
  | none => return false
  | some i => return (← choose i).isSome

/-- An entry point without a result. -/
def silent (handle : Handle) (part : Act Unit) : HostAct Result := do
  HostAct.withBridge handle () part
  return .nothing

/-- An entry point that tells a truth value, which is false for a null handle. -/
def truth (handle : Handle) (part : Act Bool) : HostAct Result := do
  return .truth (← HostAct.withBridge handle false part)

/-- An entry point that tells a number, with the number for a null handle. -/
def number (handle : Handle) (fallback : Int) (part : Act Int) : HostAct Result := do
  return .number (← HostAct.withBridge handle fallback part)

/-- Calls an entry point on the bridge behind a handle. -/
def EntryOp.call (handle : Handle) : EntryOp → HostAct Result
  | create configured setUp =>
    number handle (-1) (createWith "emu_bridge_on_create" configured (setUpBy setUp))
  | graphicsReady width height =>
    silent handle (react fun tell => FrontEnd.graphicsReady tell width height)
  | graphicsResized width height =>
    silent handle (react fun tell => FrontEnd.graphicsResized tell width height)
  | keyDown code modifiers => truth handle (react fun tell => FrontEnd.keyDown tell code modifiers)
  | keyUp code modifiers => truth handle (react fun tell => FrontEnd.keyUp tell code modifiers)
  | touch action count index (some xs) (some ys) =>
    number handle 0 (touchWith (batchOf action count index xs ys))
  | touch _ _ _ _ _ => return .number 0
  | render => silent handle (react FrontEnd.render)
  | hostPaused => silent handle (react FrontEnd.hostPaused)
  | hostResumed => silent handle (react FrontEnd.hostResumed)
  | showMainMenu => truth handle (react FrontEnd.showMainMenu)
  | topOverlay =>
    number handle (-1) do
      match (← Act.state).top? with
      | none => return -1
      | some o => return o.kind.code.toInt
  | pressSplash button =>
    truth handle do
      return (← react fun tell => FrontEnd.pressSplash tell (.ofCode button)).isSome
  | selectMainMenu index =>
    truth handle (chosenBy index fun i => react fun tell => FrontEnd.selectMainMenu tell i)
  | selectSetting index =>
    number handle (-1) do
      if ← chosenBy index FrontEnd.selectSetting then return index.toInt else return -1
  | chooseDisk index driveA readOnly =>
    truth handle
      (chosenBy index fun i => react fun tell => FrontEnd.chooseDisk tell i driveA readOnly)
  | maybeQuit => truth handle (react FrontEnd.maybeQuit)
  | maybeReboot => truth handle (react FrontEnd.maybeReboot)
  | confirm kind accepted =>
    number handle FrontEnd.ConfirmOutcome.notShowing.code.toInt do
      return (← react fun tell => FrontEnd.confirm tell (.ofCode kind) accepted).code.toInt
  | checkCrashes =>
    truth handle do return (← Act.withReporter CrashReporter.checkOnce).isSome
  | send accept => number handle (-1) (transmitWith (sendBy accept))
  | discard => number handle 0 do return (← Act.work (← get).front.reporter.discard)

/-- Records a failure that a native host caught itself, with an empty trace if it has none. -/
def reportCrash (kind : Int32) (trace : Option Text.Bytes) : HostAct Bool :=
  HostAct.work (Work.report (.ofCode kind) ((trace.map textOf).getD ""))

/-- Sets the flags with which the engine behind a handle answers touch samples from now on. -/
def setReply (handle : Handle) (flags : TouchFlags) : HostAct Unit :=
  HostAct.withBridge handle () do
    modify fun w => { w with engine := { w.engine with reply := flags } }

end EmuFront.Native
