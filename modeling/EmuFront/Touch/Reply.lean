import EmuFront.Text.Flags

/-!
# Replies to a touch sample

The engine answers a sample with a set of flags. Nothing is acted on unless it marks the sample
handled; bits without a meaning are kept.
-/

namespace EmuFront

/-- The bits an engine answers a touch sample with. -/
structure TouchFlags where
  bits : UInt32
deriving Repr, DecidableEq, Inhabited

namespace TouchFlags

def empty : TouchFlags := ⟨0⟩

/-- The engine consumed the sample. -/
def handled : TouchFlags := ⟨0x1⟩

/-- The engine asks for the main menu. -/
def requestShowMenu : TouchFlags := ⟨0x2⟩

/-- A key of the virtual keyboard was tapped. -/
def keyTap : TouchFlags := ⟨0x10⟩

def routeKeyboard : TouchFlags := ⟨0x20⟩

def routeJoystick : TouchFlags := ⟨0x40⟩

def routeMenu : TouchFlags := ⟨0x80⟩

/-- Whether all bits of `part` are set in `whole`. -/
def contains (whole part : TouchFlags) : Bool := whole.bits &&& part.bits = part.bits

/-- The flags as they stand in log messages. -/
def text (f : TouchFlags) : String :=
  Text.flagSet "TouchResultFlags"
    [("HANDLED", handled.bits), ("REQUEST_SHOW_MENU", requestShowMenu.bits),
      ("KEY_TAP", keyTap.bits), ("ROUTE_KEYBOARD", routeKeyboard.bits),
      ("ROUTE_JOYSTICK", routeJoystick.bits), ("ROUTE_MENU", routeMenu.bits)] f.bits

end TouchFlags

/-- The virtual device a sample was routed to. -/
inductive TouchRoute
  | keyboard | joystick | menu
deriving Repr, DecidableEq

def TouchRoute.name : TouchRoute → String
  | keyboard => "Keyboard" | joystick => "Joystick" | menu => "Menu"

/-- What the host makes of a reply. -/
structure TouchOutcome where
  flags : TouchFlags
  /-- The host must not run its default handling. -/
  consumed : Bool
  /-- The main menu should be raised. -/
  showMenu : Bool
  /-- An audible key click may be played. -/
  keyClick : Bool
deriving Repr, DecidableEq

namespace TouchOutcome

/-- The outcome of a batch that was not forwarded. -/
def neutral : TouchOutcome := ⟨.empty, false, false, false⟩

/-- Reads a reply: every consequence needs the sample to be handled. -/
def ofFlags (f : TouchFlags) : TouchOutcome where
  flags := f
  consumed := f.contains .handled
  showMenu := f.contains .handled && f.contains .requestShowMenu
  keyClick := f.contains .handled && f.contains .keyTap

/-- The device the sample was routed to: the keyboard before the joystick before the menu. -/
def route (o : TouchOutcome) : Option TouchRoute :=
  if o.flags.contains .routeKeyboard then some .keyboard
  else if o.flags.contains .routeJoystick then some .joystick
  else if o.flags.contains .routeMenu then some .menu
  else none

end TouchOutcome
end EmuFront
