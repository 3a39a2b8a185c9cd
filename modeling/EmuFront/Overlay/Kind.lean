/-!
# Kinds of overlays

The set of overlays is closed, and at most one overlay of each kind is showing at a time.
-/

namespace EmuFront

/-- A yes-or-no prompt that guards an action of the engine. -/
inductive ConfirmKind
  | quit | reboot
deriving Repr, DecidableEq

namespace ConfirmKind

/-- The kind named by a number: zero is quit, anything else is reboot. -/
def ofCode (code : Int32) : ConfirmKind := if code = 0 then quit else reboot

def title : ConfirmKind → String
  | quit => "Quit emulator?" | reboot => "Reboot emulator?"

end ConfirmKind

/-- What an overlay is, apart from its contents. -/
inductive OverlayKind
  | splashScreen | mainMenu | settingsMenu | disksMenu | quitConfirm | rebootConfirm
deriving Repr, DecidableEq

namespace OverlayKind

/-- All kinds, in the order of their codes. -/
def all : List OverlayKind :=
  [splashScreen, mainMenu, settingsMenu, disksMenu, quitConfirm, rebootConfirm]

def code : OverlayKind → Int32
  | splashScreen => 0 | mainMenu => 1 | settingsMenu => 2 | disksMenu => 3
  | quitConfirm => 4 | rebootConfirm => 5

def name : OverlayKind → String
  | splashScreen => "SplashScreen" | mainMenu => "MainMenu" | settingsMenu => "SettingsMenu"
  | disksMenu => "DisksMenu" | quitConfirm => "QuitConfirm" | rebootConfirm => "RebootConfirm"

theorem mem_all (k : OverlayKind) : k ∈ all := by cases k <;> decide

end OverlayKind

/-- The overlay that asks a question. -/
def ConfirmKind.overlay : ConfirmKind → OverlayKind
  | quit => .quitConfirm | reboot => .rebootConfirm

end EmuFront
