/-!
# Menus

The rows of the main menu and of the settings, and what choosing a row asks for.
-/

namespace EmuFront

/-! ## The main menu -/

/-- A row of the main menu. -/
inductive MainMenuItem
  | emulationSettings | loadDiskImage | resume
deriving Repr, DecidableEq

namespace MainMenuItem

/-- The rows, from the top. -/
def all : List MainMenuItem := [emulationSettings, loadDiskImage, resume]

def name : MainMenuItem → String
  | emulationSettings => "EmulationSettings" | loadDiskImage => "LoadDiskImage"
  | resume => "Resume"

def title : MainMenuItem → String
  | emulationSettings => "Emulation Settings..." | loadDiskImage => "Load Disk Image..."
  | resume => "Resume..."

end MainMenuItem

/-- What a choice in the main menu asks for. -/
inductive MainMenuAction
  | showSettings | showDisks | dismiss
deriving Repr, DecidableEq

namespace MainMenuAction

def name : MainMenuAction → String
  | showSettings => "ShowSettings" | showDisks => "ShowDisks" | dismiss => "Dismiss"

/-- The action of a row. Any row other than settings and disks closes the menu. -/
def ofRow (index : Nat) : MainMenuAction :=
  match MainMenuItem.all[index]? with
  | some .emulationSettings => showSettings
  | some .loadDiskImage => showDisks
  | _ => dismiss

end MainMenuAction

/-! ## The settings -/

/-- A row of the settings. Editing the preference behind it is left to the host. -/
inductive SettingsItem
  | touchMenuEnabled | touchMenuVisibility | currentInput | keyboardConfigure
  | joystickConfigure | audioConfigure | videoConfigure | about | resetPreferences
deriving Repr, DecidableEq

namespace SettingsItem

/-- The rows, from the top. -/
def all : List SettingsItem :=
  [touchMenuEnabled, touchMenuVisibility, currentInput, keyboardConfigure, joystickConfigure,
    audioConfigure, videoConfigure, about, resetPreferences]

def name : SettingsItem → String
  | touchMenuEnabled => "TouchMenuEnabled" | touchMenuVisibility => "TouchMenuVisibility"
  | currentInput => "CurrentInput" | keyboardConfigure => "KeyboardConfigure"
  | joystickConfigure => "JoystickConfigure" | audioConfigure => "AudioConfigure"
  | videoConfigure => "VideoConfigure" | about => "About"
  | resetPreferences => "ResetPreferences"

def title : SettingsItem → String
  | touchMenuEnabled => "Enable touch menu" | touchMenuVisibility => "Touch menu visibility"
  | currentInput => "Current touch device" | keyboardConfigure => "Configure keyboard"
  | joystickConfigure => "Configure joystick" | audioConfigure => "Configure audio"
  | videoConfigure => "Configure video" | about => "About"
  | resetPreferences => "Reset preferences"

/-- The row at an index. -/
def ofRow? (index : Nat) : Option SettingsItem := all[index]?

end SettingsItem
end EmuFront
