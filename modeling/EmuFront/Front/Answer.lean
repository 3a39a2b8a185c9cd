import EmuFront.Front.Menus

/-!
# Answers

What an operation gives back to the host.
-/

namespace EmuFront

/-- What an operation gives back. -/
inductive Answer
  | nothing
  | flag (value : Bool)
  | count (value : Nat)
  | text (value : String)
  | depth (value : Option Nat)
  | overlay (value : Option Overlay)
  | overlays (values : List Overlay)
  | outcome (value : TouchOutcome)
  | splashAction (value : Option SplashAction)
  | menuAction (value : Option MainMenuAction)
  | setting (value : Option SettingsItem)
  | disk (value : Option Path)
  | confirmed (value : FrontEnd.ConfirmOutcome)
  | artifacts (value : Option (List CrashArtifact))
  | written (value : Except Failure Path)
  /-- The end of a transmission, and the reports that were received with their texts. -/
  | transmitted (value : Except Failure ReportOutcome) (received : List (Path × String))
  /-- The end of a creation, the directory that was set up, and the flag of the host. -/
  | created (value : Except String Bool) (setUp : Option Path) (configured : Bool)
  | contents (value : Option Text.Bytes)
  | listing (lines : List String)
  | config (value : Config)

end EmuFront
