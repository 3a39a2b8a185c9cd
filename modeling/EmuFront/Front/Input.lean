import EmuFront.Front.Menus

/-!
# Keys and touches

Keys go to the engine, except for the volume keys, which are the host's, and the releases of Back
and Menu, which work the overlays. Touches go to the engine while no overlay is showing.
-/

namespace EmuFront.FrontEnd

open Act

/-! ## Keys -/

def backKey : Int32 := 4

def menuKey : Int32 := 82

/-- Whether a key sets the volume. -/
def isVolumeKey (code : Int32) : Bool := code = 24 || code = 25 || code = 164

/-- A key was pressed. Tells whether it was used. -/
def keyDown (tell : Tell) (code modifiers : Int32) : Act Bool := do
  if isVolumeKey code then
    return false
  else
    tell (.keyDown code modifiers)
    return true

/-- A key was released. Tells whether it was used. -/
def keyUp (tell : Tell) (code modifiers : Int32) : Act Bool := do
  if code = backKey then
    back tell
    return true
  else if code = menuKey then
    let _ ← showMainMenu tell
    return true
  else if isVolumeKey code then
    return false
  else
    tell (.keyUp code modifiers)
    return true

/-! ## Touches -/

/-- Builds the sample of a batch and hands it to the engine, whose reply comes back unchanged. -/
def forward (tell : Tell) (batch : TouchBatch) : Act TouchFlags := do
  if batch.pointerDropped then
    log .trace s!"Dropping {batch.action.name} for pointer slot {batch.index}"
  let flags := (← get).engine.reply
  tell (.touch batch.sample)
  log .trace s!"{batch.sample.text} -> {Text.hex flags.bits.toNat}"
  return flags

/-- Hands a touch batch to the engine while no overlay is showing. -/
def touch (tell : Tell) (batch : TouchBatch) : Act TouchOutcome := do
  let s ← state
  if !s.graphicsReady || decide (0 < s.depth) then
    return .neutral
  else
    let outcome := TouchOutcome.ofFlags (← forward tell batch)
    if outcome.showMenu then
      let _ ← showMainMenu tell
    return outcome

end EmuFront.FrontEnd
