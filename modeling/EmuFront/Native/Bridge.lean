import EmuFront.Front.Run

/-!
# Bridges for native hosts

A native host holds front ends by handles. A handle stays valid until its bridge is destroyed; a
null handle is ignored. All bridges of a host share one machine.
-/

namespace EmuFront.Native

open Text (Bytes)

/-- A front end and its engine. -/
structure Bridge where
  front : FrontEnd
  engine : EngineModel

/-- The bridges that a host has made, by their handles. -/
structure NativeHost where
  machine : Machine
  bridges : List (Option Bridge)

/-- A handle; nothing for a null handle. -/
abbrev Handle := Option Nat

/-- Something a native host does. -/
abbrev HostAct := StateM NativeHost

/-- A host that has made no bridge yet. -/
def NativeHost.new (machine : Machine) : NativeHost := ⟨machine, []⟩

/-- The bridge behind a handle. -/
def NativeHost.bridge? (h : NativeHost) : Handle → Option Bridge
  | none => none
  | some i => h.bridges[i]?.join

namespace HostAct

/-- Does something on the machine. -/
def work {α : Type} (part : Work α) : HostAct α := fun h =>
  let (a, machine) := part h.machine
  (a, { h with machine })

/-- Does something with the front end behind a handle. A null handle gives the fallback, and so does
a panic, which goes no further. -/
def withBridge {α : Type} (handle : Handle) (fallback : α) (part : Act α) : HostAct α := fun h =>
  match handle, h.bridge? handle with
  | some i, some b =>
    let (a, w) := part ⟨h.machine, b.front, b.engine, []⟩
    (a.toOption.getD fallback, ⟨w.machine, h.bridges.set i (some ⟨w.front, w.engine⟩)⟩)
  | _, _ => (fallback, h)

end HostAct

/-! ## Creation and destruction -/

/-- The text that native code hands over: its bytes up to the first NUL, read as UTF-8. -/
def textOf (bytes : Bytes) : String := Text.decode (bytes.takeWhile (· ≠ 0))

/-- What a host hands over to make a bridge. Every text but the data directory may be missing. -/
structure BridgeParams where
  dataDir : Option Bytes
  homeDir : Option Bytes
  sharedDir : Option Bytes
  brand : Option Bytes
  model : Option Bytes
  manufacturer : Option Bytes
  device : Option Bytes
  audio : AudioParams
deriving Repr, DecidableEq

/-- The configuration that parameters ask for. -/
def BridgeParams.config (p : BridgeParams) (dataDir : Bytes) : Config :=
  let text := fun (bytes : Option Bytes) => (bytes.map textOf).getD ""
  let device : Device := ⟨text p.brand, text p.model, text p.manufacturer, text p.device⟩
  (Config.new ⟨textOf dataDir⟩).applyAll <|
    [.audio p.audio, .device device]
      ++ (p.homeDir.map fun dir => .homeDir ⟨textOf dir⟩).toList
      ++ (p.sharedDir.map fun dir => .sharedDir ⟨textOf dir⟩).toList

/-- Makes a bridge to an engine. There is none without parameters or without a data directory. -/
def newBridge (engine : EngineModel) (params : Option BridgeParams) : HostAct Handle := do
  match params with
  | none => return none
  | some p =>
    match p.dataDir with
    | none =>
      HostAct.work (Work.log .error "emu_bridge_new: data_dir is required")
      return none
    | some dataDir =>
      let config := p.config dataDir
      HostAct.work (Work.log .info s!"emu_bridge_new: {config.dataDir.text}")
      let handle := (← get).bridges.length
      let front := FrontEnd.new config ⟨handle, .native⟩
      modify fun h => { h with bridges := h.bridges ++ [some ⟨front, engine⟩] }
      return some handle

/-- Destroys the bridge behind a handle. -/
def destroyBridge (handle : Handle) : HostAct Unit := do
  match handle, (← get).bridge? handle with
  | some i, some _ =>
    modify fun h => { h with bridges := h.bridges.set i none }
    HostAct.work (Work.log .info "emu_bridge_destroy: cleaned up")
  | _, _ => pure ()

end EmuFront.Native
