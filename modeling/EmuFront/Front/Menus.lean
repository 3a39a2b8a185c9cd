import EmuFront.Front.Lifecycle
import EmuFront.Overlay.Menu

/-!
# Menus and prompts

Which overlays the host shows, and what follows from a choice in one of them. A choice in an overlay
that is not showing has no effect.
-/

namespace EmuFront.FrontEnd

open Act

/-! ## Showing overlays -/

/-- Makes an overlay and shows it, unless one of its kind is showing. -/
def showNew (tell : Tell) (spec : OverlaySpec) : Act Bool := do
  OverlayStack.present tell (← work (OverlayStack.make spec))

def showMainMenu (tell : Tell) : Act Bool := showNew tell .mainMenu

def showSettings (tell : Tell) : Act Bool := showNew tell .settingsMenu

/-- Shows the disk image picker, and makes none if one is showing. -/
def showDisks (tell : Tell) : Act Bool := do
  if (← state).shows .disksMenu then
    return false
  else
    showNew tell (.disksMenu (← get).front.config.disksDir)

/-- Asks whether to quit. -/
def maybeQuit (tell : Tell) : Act Bool := showNew tell (.confirm .quit)

/-- Asks whether to reboot. -/
def maybeReboot (tell : Tell) : Act Bool := showNew tell (.confirm .reboot)

/-- Goes back: closes the top overlay, or opens the main menu where there is none. -/
def back (tell : Tell) : Act Unit := do
  match (← state).top? with
  | some o => let _ ← OverlayStack.dismiss tell o.kind
  | none => let _ ← showMainMenu tell

/-! ## Choosing -/

/-- Presses a button of the splash screen. -/
def pressSplash (tell : Tell) (button : SplashButton) : Act (Option SplashAction) := do
  match (← state).find? .splashScreen with
  | none => return none
  | some splash =>
    let action := SplashAction.ofPress splash.isDismissable button
    match action with
    | .dismiss => let _ ← OverlayStack.dismiss tell .splashScreen
    | .showSettings => let _ ← showSettings tell
    | .showDisks => let _ ← showDisks tell
    | .ignored => pure ()
    return some action

/-- Chooses a row of the main menu. -/
def selectMainMenu (tell : Tell) (index : Nat) : Act (Option MainMenuAction) := do
  if (← state).shows .mainMenu then
    let action := MainMenuAction.ofRow index
    match action with
    | .showSettings => let _ ← showSettings tell
    | .showDisks => let _ ← showDisks tell
    | .dismiss => let _ ← OverlayStack.dismiss tell .mainMenu
    return some action
  else
    return none

/-- Chooses a row of the settings. -/
def selectSetting (index : Nat) : Act (Option SettingsItem) := do
  if (← state).shows .settingsMenu then
    return SettingsItem.ofRow? index
  else
    return none

/-- The image at an index of the disk image picker that is showing. -/
def imageAt? (s : SessionState) (index : Nat) : Option Path := do
  let menu ← s.find? .disksMenu
  (← menu.images?)[index]?

/-- Inserts a disk image and closes the picker. -/
def chooseDisk (tell : Tell) (index : Nat) (driveA readOnly : Bool) : Act (Option Path) := do
  match imageAt? (← state) index with
  | none => return none
  | some path =>
    let drive := if driveA then 1 else 2
    log .info s!"Inserting {path.text} (drive {drive})"
    tell (.chooseDisk path driveA readOnly)
    let _ ← OverlayStack.dismiss tell .disksMenu
    return some path

/-! ## Prompts -/

/-- What came of the answer to a prompt. -/
inductive ConfirmOutcome
  /-- The engine was told to quit; the host should finish the process. -/
  | quitRequested
  | rebooted
  | cancelled
  | notShowing
deriving Repr, DecidableEq

namespace ConfirmOutcome

def code : ConfirmOutcome → Int32
  | quitRequested => 0 | rebooted => 1 | cancelled => 2 | notShowing => 3

def name : ConfirmOutcome → String
  | quitRequested => "QuitRequested" | rebooted => "Rebooted" | cancelled => "Cancelled"
  | notShowing => "NotShowing"

end ConfirmOutcome

/-- Answers a prompt. An accepted quit leaves the prompt up, so that the engine stays paused while
the host shuts down. -/
def confirm (tell : Tell) (kind : ConfirmKind) (accepted : Bool) : Act ConfirmOutcome := do
  if !(← state).shows kind.overlay then
    return .notShowing
  else if !accepted then
    let _ ← OverlayStack.dismiss tell kind.overlay
    return .cancelled
  else
    match kind with
    | .quit =>
      log .info "Quit confirmed"
      tell .quit
      return .quitRequested
    | .reboot =>
      log .info "Reboot confirmed"
      tell .reboot
      let _ ← OverlayStack.popNamed tell .rebootConfirm
      let _ ← OverlayStack.popNamed tell .mainMenu
      return .rebooted

end EmuFront.FrontEnd
