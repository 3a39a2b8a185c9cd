import EmuFront.Config
import EmuFront.Crash.Panic
import EmuFront.Engine.Call
import EmuFront.Overlay.Kind
import EmuFront.Overlay.Splash
import EmuFront.Storage.Disk
import EmuFront.Touch.Reply

/-!
# Operations on a front end

All that a host can do to a front end, as data. An engine may do the same from inside any call that
it receives, so that what it will do can be planned as a list of operations.
-/

namespace EmuFront

/-- An overlay to be made. -/
inductive OverlaySpec
  | splash (dismissable : Bool)
  | mainMenu
  | settingsMenu
  /-- The disk image picker of a directory. -/
  | disksMenu (directory : Path)
  | confirm (kind : ConfirmKind)
deriving Repr, DecidableEq

/-- Operations of the overlay stack itself. -/
inductive StackOp
  /-- Puts an overlay on the stack; a second one of its kind is a panic, which strikes at the site. -/
  | push (spec : OverlaySpec) (site : PanicSite)
  /-- Puts an overlay on the stack, unless one of its kind is showing. -/
  | present (spec : OverlaySpec)
  | pop
  | popNamed (kind : OverlayKind)
  /-- Closes an overlay on behalf of the user. -/
  | dismiss (kind : OverlayKind)
  | drain
  /-- Sets whether the splash screen may be closed. -/
  | setDismissable (value : Bool)
  /-- Tries to take the session lock, which another holds or not. -/
  | tryLock (held : Bool)
deriving Repr, DecidableEq

/-- Operations of the host's lifecycle and user interface. -/
inductive HostOp
  /-- Creates the engine, after a setup that may fail with a text. -/
  | create (setUpError : Option String)
  | graphicsReady (width height : Int32)
  | graphicsResized (width height : Int32)
  | keyDown (code modifiers : Int32)
  | keyUp (code modifiers : Int32)
  | back
  | render
  | hostPaused
  | hostResumed
  | touch (batch : TouchBatch)
  | showSplash
  | showMainMenu
  | showSettings
  | showDisks
  | maybeQuit
  | maybeReboot
  | pressSplash (button : SplashButton)
  | selectMainMenu (index : Nat)
  | selectSetting (index : Nat)
  | chooseDisk (index : Nat) (driveA readOnly : Bool)
  | confirm (kind : ConfirmKind) (accepted : Bool)
deriving Repr, DecidableEq

/-- Operations on crash artifacts. -/
inductive ReportOp
  | checkCrashes
  | scan
  | checkOnce
  | crashesPresent
  /-- Scans, and keeps the artifacts for `aggregate`. -/
  | saveScan
  /-- The report of the artifacts kept. -/
  | aggregate
  | writeAggregate (text : String)
  /-- Sends the report to one who accepts it or not, while others change the disk. -/
  | send (accept : Bool) (before during : List Storage.DiskAction)
  | discard
deriving Repr, DecidableEq

/-- Operations on the machine. -/
inductive MachineOp
  /-- Installs the crash capture of a configuration, for an engine. -/
  | install (config : Config) (engine : EngineRef)
  | isInstalled
  | report (kind : CrashKind) (trace : String)
  | panic (p : Panic)
  | changeDisk (actions : List Storage.DiskAction)
  | showFile (path : Path)
  | listFiles
deriving Repr, DecidableEq

/-- Operations that leave the front end as it is. -/
inductive OutsideOp
  | nothing
  /-- Sets the flags with which the engine answers touch samples from now on. -/
  | setReply (flags : TouchFlags)
  | showConfig
deriving Repr, DecidableEq

/-- An operation. -/
inductive Op
  | stack (op : StackOp)
  | host (op : HostOp)
  | crash (op : ReportOp)
  | machine (op : MachineOp)
  | outside (op : OutsideOp)
deriving Repr, DecidableEq

/-- A single operation is a list of operations. -/
instance : Coe Op (List Op) := ⟨fun op => [op]⟩

/-- What an engine will do, in order, from inside a call of a name. -/
structure Reaction where
  on : CallName
  ops : List Op
deriving Repr, DecidableEq

end EmuFront
