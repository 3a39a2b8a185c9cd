import EmuFront.Engine.Call
import EmuFront.Text.Utf8

/-!
# Calls of native functions

A native engine is a table of functions that take texts ended by a NUL and 32-bit integers. A path
that holds a NUL cannot be handed over, and its call is dropped; a failure text is cut at its first
NUL.
-/

namespace EmuFront.Native

/-- A call of a native engine function. -/
inductive NativeCall
  | create (dataDir : String) (audio : AudioParams)
  | graphicsReady (size : SurfaceSize)
  | graphicsResized (size : SurfaceSize)
  | keyDown (code modifiers : Int32)
  | keyUp (code modifiers : Int32)
  | pause (host : Bool)
  | resume (host : Bool)
  | quit
  | reboot
  | render
  | touch (action count index : Int32) (xs ys : List Single)
  | chooseDisk (path : String) (driveA readOnly : Bool)
  | uncaughtFailure (home text : String)
deriving Repr, DecidableEq

/-- What refuses a text with a NUL at an offset. -/
def nulRefusal (offset : Nat) : String :=
  s!"nul byte found in provided data at position: {offset}"

/-- A text as native code takes it, or the reason why it cannot. -/
def nativeText (text : String) : Except String String :=
  match Text.nulOffset? text with
  | some offset => .error (nulRefusal offset)
  | none => .ok text

namespace NativeCall

/-- The native form of a call. -/
def ofCall : EngineCall → Except String NativeCall
  | .create dataDir audio => (nativeText dataDir.text).map fun dir => create dir audio
  | .graphicsReady size => .ok (graphicsReady size)
  | .graphicsResized size => .ok (graphicsResized size)
  | .keyDown code modifiers => .ok (keyDown code modifiers)
  | .keyUp code modifiers => .ok (keyUp code modifiers)
  | .pause host => .ok (pause host)
  | .resume host => .ok (resume host)
  | .quit => .ok quit
  | .reboot => .ok reboot
  | .render => .ok render
  | .touch s =>
    .ok (touch s.action.code (Int32.ofNat s.count) (Int32.ofNat s.index) s.visibleXs s.visibleYs)
  | .chooseDisk path driveA readOnly =>
    (nativeText path.text).map fun path => chooseDisk path driveA readOnly

/-- The native form of passing a failure on. -/
def ofFailure (home : Path) (text : String) : Except String NativeCall :=
  (nativeText home.text).map fun home => uncaughtFailure home (Text.beforeNul text)

end NativeCall
end EmuFront.Native
