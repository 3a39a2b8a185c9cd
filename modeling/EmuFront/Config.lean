import EmuFront.Crash.Record
import EmuFront.Path

/-!
# Configuration

What the host supplies at startup. A configuration starts from the data directory and is changed by
one setting after the other.
-/

namespace EmuFront

/-- The configuration of a front end. -/
structure Config where
  /-- The private directory of disks, crash records and native dumps. -/
  dataDir : Path
  /-- The directory that the engine is told of on a failure. -/
  homeDir : Path
  /-- Public storage for the crash report, if there is any. -/
  sharedDir : Option Path
  /-- Where the crash report goes otherwise. -/
  fallbackDir : Path
  audio : AudioParams
  device : Device
  /-- The bytes of a crash record. -/
  budget : Nat
  /-- How often a crash file is tried. -/
  attempts : Nat
  /-- The pause between two tries, in milliseconds. -/
  retryDelay : Nat
deriving Repr, DecidableEq

/-- One setting of a configuration. -/
inductive ConfigSetting
  | homeDir (directory : Path)
  | sharedDir (directory : Path)
  | fallbackDir (directory : Path)
  | audio (params : AudioParams)
  | device (device : Device)
  | budget (bytes : Nat)
  | retry (attempts delay : Nat)
deriving Repr, DecidableEq

namespace Config

/-- The configuration of a data directory, which is also the home directory. -/
def new (dataDir : Path) : Config where
  dataDir
  homeDir := dataDir
  sharedDir := none
  fallbackDir := ⟨"/data/local/tmp"⟩
  audio := .silent
  device := .unknown
  budget := CrashRecord.defaultBudget
  attempts := 5
  retryDelay := 100

/-- The configuration after a setting. -/
def apply (c : Config) : ConfigSetting → Config
  | .homeDir directory => { c with homeDir := directory }
  | .sharedDir directory => { c with sharedDir := some directory }
  | .fallbackDir directory => { c with fallbackDir := directory }
  | .audio params => { c with audio := params }
  | .device device => { c with device }
  | .budget bytes => { c with budget := bytes }
  | .retry attempts delay => { c with attempts, retryDelay := delay }

/-- The configuration after a list of settings. -/
def applyAll (c : Config) (settings : List ConfigSetting) : Config := settings.foldl apply c

/-- The directory of disk images. -/
def disksDir (c : Config) : Path := c.dataDir.join "disks"

/-- What crash records say about the device. -/
def fingerprint (c : Config) : Fingerprint := ⟨c.device, c.audio⟩

end Config
end EmuFront
