import EmuFront.Front.Op
import EmuFront.Native.Call
import EmuFront.Session

/-!
# Events

What happens on a machine, for those who watch it: log lines, opens of files and directories,
operations that are begun, changes of a session, overlays that are refused or given back, calls to an
engine with the session as the engine could see it at that moment, and calls to the host.
-/

namespace EmuFront

/-- How much a log line matters. -/
inductive LogLevel
  | error | warn | info | debug | trace
deriving Repr, DecidableEq

def LogLevel.name : LogLevel → String
  | error => "ERROR" | warn => "WARN" | info => "INFO" | debug => "DEBUG" | trace => "TRACE"

/-- A function of the host that is called back. -/
inductive HostCall
  /-- Native setup before the first start. -/
  | firstRun (directory : Path)
  /-- Setup by an object of an app before the first start. -/
  | extract (directory : Path)
  /-- A report is to be sent, with the contents of its file if it can be read. -/
  | send (report : Path) (contents : Option Text.Bytes)
deriving Repr, DecidableEq

/-- Something that happened. -/
inductive Event
  | logged (level : LogLevel) (message : String)
  /-- An operation was begun on the front end of an engine, in a session state. -/
  | began (engine : EngineRef) (op : Op) (state : SessionState)
  /-- The session of the front end of an engine changed. -/
  | committed (engine : EngineRef) (change : Change)
  /-- An overlay was kept off the stack of the front end of an engine. -/
  | refused (engine : EngineRef) (overlay : Overlay)
  /-- An overlay was given back by what took it off the stack of the front end of an engine. -/
  | returned (engine : EngineRef) (overlay : Overlay)
  /-- The engine was called. -/
  | told (engine : EngineRef) (call : EngineCall) (seen : Session)
  /-- A failure was passed on to the engine. -/
  | failed (engine : EngineRef) (home : Path) (text : String)
  /-- A call went over to native code. -/
  | crossed (engine : EngineRef) (call : Native.NativeCall)
  /-- A file was opened, with success or not. -/
  | opened (path : Path) (mode : Storage.OpenMode)
  /-- A directory was opened for its names, with success or not. -/
  | listed (directory : Path)
  /-- The setup before the first start was begun. -/
  | setUp (directory : Path)
  /-- A report was handed to what sends it. -/
  | handedOver (report : Path)
  /-- What sends reports has read one. -/
  | received (report : Path) (text : String)
  /-- The host was called back. -/
  | calledBack (call : HostCall)
  /-- An exception is pending in the app. -/
  | threw
  /-- A panic went on to whoever looked after panics before. -/
  | chained (message : String)
deriving DecidableEq

end EmuFront
