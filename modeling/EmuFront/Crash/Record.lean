import EmuFront.Engine.Params
import EmuFront.Text.Cut

/-!
# Crash records

A record is the text kept of one failure: four lines that name the device, three for its audio, one
for the kind of failure, and the trace. The text as a whole is cut to a budget of bytes.
-/

namespace EmuFront

/-- Where a crash file comes from. -/
inductive CrashOrigin
  /-- A failure that the front end or its host recorded. -/
  | managed
  /-- A fault inside the engine, which it dumped to a file. -/
  | native
deriving Repr, DecidableEq

def CrashOrigin.name : CrashOrigin → String
  | managed => "Managed" | native => "Native"

/-- The category of a failure. -/
inductive CrashKind
  | panic | nullDeref | stackCallOverflow | stackBufOverflow
deriving Repr, DecidableEq

namespace CrashKind

def code : CrashKind → Int32
  | panic => 0 | nullDeref => 1 | stackCallOverflow => 2 | stackBufOverflow => 3

/-- The kind with a code; any other code is a panic. -/
def ofCode (code : Int32) : CrashKind :=
  if code = 1 then nullDeref
  else if code = 2 then stackCallOverflow
  else if code = 3 then stackBufOverflow
  else panic

@[simp] theorem ofCode_code (k : CrashKind) : ofCode k.code = k := by cases k <;> decide

def name : CrashKind → String
  | panic => "Panic" | nullDeref => "NullDeref" | stackCallOverflow => "StackCallOverflow"
  | stackBufOverflow => "StackBufOverflow"

/-- The line that a record gives to its kind. -/
def title : CrashKind → String
  | panic => "panic" | nullDeref => "null dereference"
  | stackCallOverflow => "stack call overflow" | stackBufOverflow => "stack buffer overflow"

end CrashKind

/-- The device that a host runs on. -/
structure Device where
  brand : String
  model : String
  manufacturer : String
  device : String
deriving Repr, DecidableEq

/-- A device about which nothing is known. -/
def Device.unknown : Device := ⟨"", "", "", ""⟩

/-- What a record says about the device. -/
structure Fingerprint where
  device : Device
  audio : AudioParams
deriving Repr, DecidableEq

/-- A device about which nothing is known. -/
def Fingerprint.unknown : Fingerprint := ⟨.unknown, .silent⟩

/-- What is kept of one failure. -/
structure CrashRecord where
  origin : CrashOrigin
  kind : CrashKind
  text : String
deriving Repr, DecidableEq

namespace CrashRecord

/-- The bytes of a record unless a configuration says otherwise. -/
def defaultBudget : Nat := 3584

/-- The text of a record before it is cut. -/
def layout (f : Fingerprint) (kind : CrashKind) (trace : String) : String :=
  f.device.brand ++ "\n" ++ f.device.model ++ "\n" ++ f.device.manufacturer ++ "\n"
    ++ f.device.device ++ "\n"
    ++ "Device sample rate:" ++ toString f.audio.sampleRate.toInt ++ "\n"
    ++ "Device mono buffer size:" ++ toString f.audio.monoBufferBytes.toInt ++ "\n"
    ++ "Device stereo buffer size:" ++ toString f.audio.stereoBufferBytes.toInt ++ "\n"
    ++ kind.title ++ "\n" ++ trace ++ "\n"

/-- The record of a failure that was caught here: its layout, cut to the budget. -/
def managed (f : Fingerprint) (kind : CrashKind) (trace : String) (budget : Nat) : CrashRecord :=
  ⟨.managed, kind, Text.cut (layout f kind trace) budget⟩

end CrashRecord
end EmuFront
