/-!
# The splash screen

Its buttons, and what pressing one asks for. While the splash is not dismissable its buttons do
nothing.
-/

namespace EmuFront

/-- A button of the splash screen. -/
inductive SplashButton
  | start | settings | disks
deriving Repr, DecidableEq

namespace SplashButton

def code : SplashButton → Int32
  | start => 0 | settings => 1 | disks => 2

/-- The button with a code; any other code is the start button. -/
def ofCode (code : Int32) : SplashButton :=
  if code = 1 then settings else if code = 2 then disks else start

def name : SplashButton → String
  | start => "Start" | settings => "Settings" | disks => "Disks"

end SplashButton

/-- What pressing a button asks for. -/
inductive SplashAction
  | dismiss | showSettings | showDisks
  /-- The splash is not dismissable. -/
  | ignored
deriving Repr, DecidableEq

namespace SplashAction

def name : SplashAction → String
  | dismiss => "Dismiss" | showSettings => "ShowSettings" | showDisks => "ShowDisks"
  | ignored => "Ignored"

/-- The action of a button on a splash. -/
def ofPress (dismissable : Bool) : SplashButton → SplashAction
  | .start => if dismissable then dismiss else ignored
  | .settings => if dismissable then showSettings else ignored
  | .disks => if dismissable then showDisks else ignored

end SplashAction
end EmuFront
