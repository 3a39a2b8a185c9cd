import EmuFront.Proofs.Quiet

/-!
# Courses of a session

What can happen to the session of a front end, without the program that makes it happen. A session
state goes through `Moves`: an operation is begun, a change is committed and the engine told of it,
or the engine is called while the session stands still.

An operation that comes to its end goes along a `Course`: moves among which every start of graphics
is followed by the splash screen, after whatever the engine did from inside the call. An operation
that ends in a panic goes along a `BrokenCourse`: the panic strikes while an overlay is showing.
-/

namespace EmuFront

/-! ## What the engine is told -/

/-- The call that tells the engine of a change. Taking an overlay off is told only if it sets the
engine running, and a resize only once graphics are ready. -/
def SessionState.signal? (s : SessionState) : Change → Option EngineCall
  | .pushed _ => some (.pause false)
  | .removed o =>
    if (s.remove o.kind).stack.isEmpty && s.run.resumeStarts .overlay then some (.resume false)
    else none
  | .dismissableSet _ => none
  | .hostPaused => some (.pause true)
  | .hostResumed => if s.run.resumeStarts .host then some (.resume true) else none
  | .graphicsReady size => some (.graphicsReady size)
  | .resized size => if s.graphicsReady then some (.graphicsResized size) else none

/-- Whether a call tells of a change of the session. -/
def EngineCall.tellsChange : EngineCall → Bool
  | pause _ | resume _ | graphicsReady _ | graphicsResized _ => true
  | _ => false

/-- What must be true of the session while the engine receives a call. -/
def EngineCall.Fits (s : SessionState) : EngineCall → Prop
  | pause true => s.run.host = true ∧ s.stack = []
  | pause false => s.run.overlay = true ∧ s.stack ≠ []
  | resume _ => s.run.isRunning = true ∧ s.stack = []
  | graphicsReady _ | graphicsResized _ => s.graphicsReady = true
  | render => s.graphicsReady = true ∧ s.run.host = false
  | touch _ => s.graphicsReady = true ∧ s.stack = []
  | quit => s.shows .quitConfirm = true
  | reboot => s.shows .rebootConfirm = true
  | chooseDisk path _ _ =>
    ∃ menu images, s.find? .disksMenu = some menu ∧ menu.images? = some images ∧ path ∈ images
  | create .. | keyDown .. | keyUp .. => True

/-- The change that an operation asks for by itself, whatever the session is like. -/
def Op.change? : Op → Option Change
  | .host (.graphicsReady width height) => some (.graphicsReady (.landscape width height))
  | .host (.graphicsResized width height) => some (.resized (.landscape width height))
  | .host .hostPaused => some .hostPaused
  | .host .hostResumed => some .hostResumed
  | _ => none

/-- Whether a change of the stack can come about: an overlay is put on if it is attached and none of
its kind is showing, and taken off if it is showing. -/
def SessionState.Admits (s : SessionState) : Change → Prop
  | .pushed o => s.shows o.kind = false ∧ o.bounds = some s.bounds
  | .removed o => ∃ shown, s.find? o.kind = some shown ∧ o = shown.detach
  | .dismissableSet _ => s.shows .splashScreen = true
  | _ => False

/-- The events of a change: it is committed, and the engine told of it. -/
def SessionState.events (s : SessionState) (e : EngineRef) (c : Change) (poisoned : Bool) :
    List Event :=
  .committed e c :: ((s.signal? c).map fun call => .told e call ⟨s.apply c, false, poisoned⟩).toList

/-- The changes by which the host goes to the background: its pause, and every overlay taken off
from the top down. -/
def SessionState.backgrounding (s : SessionState) : List Change :=
  .hostPaused :: s.stack.map fun o => .removed o.detach

/-! ## Moves -/

/-- One thing that happens to the session of the front end of an engine, with its events. The engine
is told of the host's going to the background only when the stack is empty. -/
inductive Move (e : EngineRef) : SessionState → List Event → SessionState → Prop
  | began {s : SessionState} {op : Op} (plain : op.change? = none) : Move e s [.began e op s] s
  | told {s : SessionState} {call : EngineCall} {poisoned : Bool}
      (plain : call.tellsChange = false) (fits : call.Fits s) :
      Move e s [.told e call ⟨s, false, poisoned⟩] s
  | stack {s : SessionState} {c : Change} {poisoned : Bool} (admitted : s.Admits c) :
      Move e s (s.events e c poisoned) (s.apply c)
  | host {s : SessionState} {op : Op} {c : Change} {poisoned : Bool} (asked : op.change? = some c)
      (foreground : c ≠ .hostPaused) :
      Move e s (.began e op s :: s.events e c poisoned) (s.apply c)
  | background {s : SessionState} {op : Op} {poisoned : Bool}
      (asked : op.change? = some .hostPaused) :
      Move e s
        (.began e op s :: s.backgrounding.map (.committed e)
          ++ [.told e (.pause true) ⟨s.after s.backgrounding, false, poisoned⟩])
        (s.after s.backgrounding)

/-- A sequence of moves. -/
inductive Moves (e : EngineRef) : SessionState → List Event → SessionState → Prop
  | nil (s : SessionState) : Moves e s [] s
  | cons {s t u : SessionState} {first rest : List Event} (move : Move e s first t)
      (others : Moves e t rest u) : Moves e s (first ++ rest) u

/-- The moves of what comes to its end. Once graphics are ready and the engine has done its part, the
splash screen is showing or is put on. -/
inductive Course (e : EngineRef) : SessionState → List Event → SessionState → Prop
  | nil (s : SessionState) : Course e s [] s
  | move {s t : SessionState} {events : List Event} (move : Move e s events t)
      (other : ∀ size, .committed e (.graphicsReady size) ∉ events) : Course e s events t
  | append {s t u : SessionState} {first rest : List Event} (before : Course e s first t)
      (after : Course e t rest u) : Course e s (first ++ rest) u
  | ready {s t : SessionState} {op : Op} {size : SurfaceSize} {poisoned : Bool}
      {inner : List Event} (asked : op.change? = some (.graphicsReady size))
      (within : Course e (s.apply (.graphicsReady size)) inner t)
      (showing : t.shows .splashScreen = true) :
      Course e s (.began e op s :: s.events e (.graphicsReady size) poisoned ++ inner) t
  | readyWithSplash {s t u : SessionState} {op : Op} {size : SurfaceSize} {poisoned again : Bool}
      {splash : Overlay} {inner rest : List Event}
      (asked : op.change? = some (.graphicsReady size))
      (within : Course e (s.apply (.graphicsReady size)) inner t)
      (admitted : t.Admits (.pushed splash))
      (after : Course e (t.apply (.pushed splash)) rest u) :
      Course e s
        (.began e op s :: s.events e (.graphicsReady size) poisoned ++ inner
          ++ t.events e (.pushed splash) again ++ rest) u

/-- The moves of what ends in a panic: in the end an overlay is showing, a second one of whose kind
was to be put on. -/
inductive BrokenCourse (e : EngineRef) : SessionState → List Event → SessionState → Prop
  | doublePush {s : SessionState} (showing : s.stack ≠ []) : BrokenCourse e s [] s
  | append {s t u : SessionState} {first rest : List Event} (before : Course e s first t)
      (after : BrokenCourse e t rest u) : BrokenCourse e s (first ++ rest) u
  | ready {s t : SessionState} {op : Op} {size : SurfaceSize} {poisoned : Bool}
      {inner : List Event} (asked : op.change? = some (.graphicsReady size))
      (within : BrokenCourse e (s.apply (.graphicsReady size)) inner t) :
      BrokenCourse e s (.began e op s :: s.events e (.graphicsReady size) poisoned ++ inner) t

/-- A change is committed once among its events. -/
@[simp] theorem SessionState.committed_mem_events {s : SessionState} {e e' : EngineRef}
    {c d : Change} {poisoned : Bool} :
    .committed e' d ∈ s.events e c poisoned ↔ e' = e ∧ d = c := by
  unfold events
  cases s.signal? c <;> simp

/-! ## Sequences of moves -/

section Sequences
variable {e : EngineRef} {s t u : SessionState} {first rest events : List Event}

theorem Moves.append (before : Moves e s first t) (after : Moves e t rest u) :
    Moves e s (first ++ rest) u := by
  induction before with
  | nil s => exact after
  | cons move others ih =>
    rw [List.append_assoc]
    exact .cons move (ih after)

theorem Move.moves (move : Move e s events t) : Moves e s events t := by
  rw [← List.append_nil events]
  exact .cons move (.nil t)

/-- Graphics becoming ready is a move of its own. -/
theorem Moves.ready {op : Op} {size : SurfaceSize} {poisoned : Bool}
    (asked : op.change? = some (.graphicsReady size)) :
    Moves e s (.began e op s :: s.events e (.graphicsReady size) poisoned)
      (s.apply (.graphicsReady size)) :=
  (Move.host asked (by simp)).moves

theorem Course.moves (course : Course e s events t) : Moves e s events t := by
  induction course with
  | nil s => exact .nil s
  | move move _ => exact move.moves
  | append _ _ before after => exact before.append after
  | ready asked _ _ within => exact (Moves.ready asked).append within
  | readyWithSplash asked _ admitted _ within after =>
    exact (((Moves.ready asked).append within).append (Move.stack admitted).moves).append after

theorem BrokenCourse.moves (course : BrokenCourse e s events t) : Moves e s events t := by
  induction course with
  | doublePush _ => exact .nil _
  | append before _ after => exact before.moves.append after
  | ready asked _ within => exact (Moves.ready asked).append within

/-- What every move keeps is kept by a sequence of moves, where `history` is what happened before. -/
theorem Moves.invariant {motive : List Event → SessionState → Prop}
    (step : ∀ history s events t, motive history s → Move e s events t → motive (history ++ events) t)
    (moves : Moves e s events t) {history : List Event} (start : motive history s) :
    motive (history ++ events) t := by
  induction moves generalizing history with
  | nil s =>
    rw [List.append_nil]
    exact start
  | cons move others ih =>
    -- the first move has become part of what happened before
    have next := step _ _ _ _ start move
    rw [← List.append_assoc]
    exact ih next

end Sequences
end EmuFront
