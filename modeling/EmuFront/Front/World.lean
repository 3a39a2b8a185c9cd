import EmuFront.Crash.Reporter

/-!
# A front end on its machine

A front end has a configuration, an engine, a session and a crash reporter. What an operation can
reach is a `World`: the machine, the front end, and the engine with what it will answer and do.

The session lock is held while the session changes and free whenever the engine is called.

A panic ends what is being done, up to the operation that the host began, even if it strikes inside
a call of the engine. What was changed before it stays changed.
-/

namespace EmuFront

/-- A front end. -/
structure FrontEnd where
  config : Config
  engine : EngineRef
  session : Session
  reporter : CrashReporter

/-- A new front end. -/
def FrontEnd.new (config : Config) (engine : EngineRef) : FrontEnd :=
  ⟨config, engine, .new, config.reporter⟩

/-- How an engine behaves. -/
structure EngineModel where
  /-- The flags with which it answers touch samples. -/
  reply : TouchFlags
  /-- What it will do from inside the calls that it receives; each is done once. -/
  reactions : List Reaction
deriving Repr, DecidableEq

/-- How many operations the engine may still do from inside the calls that it receives. -/
def EngineModel.operationsLeft (e : EngineModel) : Nat :=
  e.reactions.foldl (fun left r => left + r.ops.length) 0

/-- All that an operation can reach. -/
structure World where
  machine : Machine
  front : FrontEnd
  engine : EngineModel
  /-- The artifacts that the host has kept. -/
  kept : List CrashArtifact

/-- Something done to a front end, which a panic may end. -/
abbrev Act := ExceptT Panic (StateM World)

/-- How the engine is called. -/
abbrev Tell := EngineCall → Act Unit

namespace Act

/-- Does something that only the machine takes part in. -/
def work {α : Type} (part : Work α) : Act α := fun w =>
  let (a, machine) := part w.machine
  (.ok a, { w with machine })

/-- Adds a log line to the timeline. -/
def log (level : LogLevel) (message : String) : Act Unit := work (Work.log level message)

/-! ## The session -/

/-- The session state. -/
def state : Act SessionState := return (← get).front.session.state

/-- Changes the session, lock and all. -/
def modifySession (change : Session → Session) : Act Unit :=
  modify fun w => { w with front := { w.front with session := change w.front.session } }

/-- Takes the session lock. A lock that a panic has poisoned is taken like any other. -/
def acquire : Act Unit := modifySession fun s => { s with locked := true }

/-- Frees the session lock. -/
def release : Act Unit := modifySession fun s => { s with locked := false }

/-- Does something while holding the session lock. -/
def locked {α : Type} (body : Act α) : Act α := do
  acquire
  let a ← body
  release
  return a

/-- Adds an event about the front end of an engine to the timeline. -/
def note (event : EngineRef → Event) : Act Unit := do
  work (Work.observe (event (← get).front.engine))

/-- Changes the session state and adds the change to the timeline. -/
def commit (change : Change) : Act Unit := do
  modifySession fun s => { s with state := s.state.apply change }
  work (Work.observe (.committed (← get).front.engine change))

/-! ## The engine -/

/-- Brings a call to the engine, together with what the engine can see of the session. -/
def deliver (call : EngineCall) : Act Unit := do
  let front := (← get).front
  work (Work.observe (.told front.engine call front.session))
  work (Work.cross front.engine (Native.NativeCall.ofCall call))

/-- Takes the next reaction to a call out of the engine's list. -/
def takeReaction (name : CallName) : Act (Option Reaction) := do
  let w ← get
  let reacts := fun r : Reaction => decide (r.on = name)
  set { w with engine := { w.engine with reactions := w.engine.reactions.eraseP reacts } }
  return w.engine.reactions.find? reacts

/-- Runs an operation of the crash reporter that may change it. -/
def withReporter {α : Type} (part : CrashReporter → Work (α × CrashReporter)) : Act α := do
  let (a, reporter) ← work (part (← get).front.reporter)
  modify fun w => { w with front := { w.front with reporter } }
  return a

end Act
end EmuFront
