import EmuFront.Native.Entry

/-!
# Entry points for apps

An app reaches the native entry points with its own strings, arrays and truth values, and is called
back through objects. A string that is null or holds a NUL counts as missing. A callback may throw,
lack its method, or fail before it is called because no string can be made for its argument; in each
case an exception is pending afterwards.
-/

namespace EmuFront.App

open Native

/-- An object of an app that is called back. -/
inductive Callback
  | returns (value : Bool)
  /-- The method is called and throws. -/
  | throws
  /-- There is no such method, and nothing is called. -/
  | lacksMethod
  /-- No string can be made for the argument, and nothing is called. -/
  | outOfMemory
deriving Repr, DecidableEq

/-- A call of an entry point by an app. Truth values are numbers: zero is false and anything else is
true. -/
inductive AppOp
  | create (configured : UInt8) (extractor : Option Callback)
  | touch (action count index : Int32) (xs ys : Option (List Single))
  | chooseDisk (index : Int32) (driveA readOnly : UInt8)
  | confirm (kind : Int32) (accepted : UInt8)
  | send (sender : Option Callback)
  /-- An entry point that takes the same arguments as the native one. -/
  | plain (op : EntryOp)
deriving Repr, DecidableEq

/-- What stands for a pending exception in messages. -/
def exceptionText : String := "Java exception was thrown"

/-- A string as bytes for native code; nothing for null and for a string that holds a NUL. -/
def stringBytes (s : Option String) : Option Text.Bytes :=
  match s with
  | none => none
  | some text => if (Text.nulOffset? text).isSome then none else some (Text.utf8 text)

/-! ## Callbacks -/

/-- Calls an object back. Failing for want of memory and by an exception give the two failures. -/
def callBack (object : Callback) (call : Work HostCall) (noString noResult : Failure) :
    Work (Except Failure Bool) := do
  match object with
  | .returns value =>
    Work.observe (.calledBack (← call))
    return .ok value
  | .throws =>
    Work.observe (.calledBack (← call))
    Work.observe .threw
    return .error noResult
  | .lacksMethod =>
    Work.observe .threw
    return .error noResult
  | .outOfMemory =>
    Work.observe .threw
    return .error noString

/-- The setup by an object of the host. Without one there is nothing to do. -/
def setUpBy (extractor : Option Callback) (directory : Path) : Work (Except Failure Unit) := do
  match extractor with
  | none => return .ok ()
  | some object =>
    let call := return .extract directory
    match ← callBack object call (.invalidString exceptionText) (.firstRun directory) with
    | .error e => return .error e
    | .ok done => return if done then .ok () else .error (.firstRun directory)

/-- Sends a report by an object of the host, which reads the file. -/
def sendBy (sender : Callback) (report : Path) : Work (Except Failure Unit) := do
  let refused := Failure.transport exceptionText
  let call := return .send report (← Work.contents? report)
  match ← callBack sender call refused refused with
  | .error e => return .error e
  | .ok accepted => return if accepted then .ok () else .error (.transport report.text)

/-! ## Entry points -/

/-- The strings and audio parameters from which an app makes a bridge. -/
structure AppParams where
  dataDir : Option String
  homeDir : Option String
  sharedDir : Option String
  brand : Option String
  model : Option String
  manufacturer : Option String
  device : Option String
  audio : AudioParams
deriving Repr, DecidableEq

/-- The parameters as native code takes them. -/
def AppParams.native (p : AppParams) : BridgeParams where
  dataDir := stringBytes p.dataDir
  homeDir := stringBytes p.homeDir
  sharedDir := stringBytes p.sharedDir
  brand := stringBytes p.brand
  model := stringBytes p.model
  manufacturer := stringBytes p.manufacturer
  device := stringBytes p.device
  audio := p.audio

/-- Makes a bridge to an engine, unless there is no engine. -/
def newBridge (engine : Option EngineModel) (params : AppParams) : HostAct Handle := do
  match engine with
  | none =>
    HostAct.work (Work.log .error "nativeCreate: null engine")
    return none
  | some engine => Native.newBridge engine (some params.native)

/-- The pointers that are read from two arrays: at most as many as there are slots. -/
def pointerCount (xs ys : List Single) : Nat :=
  min (min xs.length maxPointers) (min ys.length maxPointers)

/-- A result with its truth value as a number. -/
def ofResult : Result → Result
  | .truth value => .number (if value then 1 else 0)
  | result => result

/-- Calls an entry point on the bridge behind a handle. -/
def AppOp.call (handle : Handle) : AppOp → HostAct Result
  | create configured extractor =>
    Native.number handle (-1) (createWith "nativeOnCreate" (configured ≠ 0) (setUpBy extractor))
  | touch action count index (some xs) (some ys) =>
    let length := pointerCount xs ys
    (EntryOp.touch action count index (some (xs.take length)) (some (ys.take length))).call handle
  | touch _ _ _ _ _ => do
    HostAct.work (Work.log .warn "nativeTouch: could not read coordinates")
    return .number 0
  | chooseDisk index driveA readOnly =>
    ofResult <$> (EntryOp.chooseDisk index (driveA ≠ 0) (readOnly ≠ 0)).call handle
  | confirm kind accepted => (EntryOp.confirm kind (accepted ≠ 0)).call handle
  | send none => return .number (-1)
  | send (some sender) =>
    Native.number handle (-1) (transmitWith (sendBy sender))
  | plain op => ofResult <$> op.call handle

/-- Records an exception that nobody caught. -/
def reportCrash (kind : Int32) (trace : Option String) : HostAct Bool :=
  Native.reportCrash kind (stringBytes trace)

end EmuFront.App
