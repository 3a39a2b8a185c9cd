import EmuFront.Proofs.SessionInvariants
import Mathlib.Data.List.Chain

/-!
# What the engine takes itself to be

An engine that believes its signals takes itself to be paused at first, paused after each pause and
running after each resume. While graphics become ready the startup pause is let go of without a
signal, so that only half of the truth is kept: an engine that takes itself to be running does run.
The splash screen that follows pauses the engine either way, and a panic can only strike while an
overlay is showing. Hence the engine is right after every operation of the host.
-/

namespace EmuFront

/-- What an engine takes itself to be. -/
inductive EngineView
  | paused | running
deriving Repr, DecidableEq

/-- What a call tells an engine of itself. -/
def EngineCall.view? : EngineCall → Option EngineView
  | pause _ => some .paused
  | resume _ => some .running
  | _ => none

/-- What an event tells an engine of itself. -/
def Event.view? : Event → Option EngineView
  | .told _ call _ => call.view?
  | _ => none

namespace EngineView

/-- The pauses and resumes of a history, in order. -/
def signals (history : List Event) : List EngineView := history.filterMap Event.view?

/-- What an engine takes itself to be after a history. -/
def after (history : List Event) : EngineView := (signals history).getLast?.getD paused

end EngineView

/-! ## Signals of a change -/

namespace RunState

/-- Letting go of a reason that sets nothing running leaves a run state as running as it was. -/
theorem isRunning_resume_of_not_starts {r : RunState} {reason : PauseReason}
    (silent : r.resumeStarts reason = false) : (r.resume reason).isRunning = r.isRunning := by
  cases running : r.isRunning with
  | false => simpa [resumeStarts, running] using silent
  | true =>
    simp only [isRunning, Bool.and_eq_true, Bool.not_eq_true'] at running
    rcases running with ⟨⟨startup, overlay⟩, host⟩
    cases reason <;> simp [resume, set, isRunning, startup, overlay, host]

theorem isRunning_of_starts {r : RunState} {reason : PauseReason}
    (starts : r.resumeStarts reason = true) :
    r.isRunning = false ∧ (r.resume reason).isRunning = true := by
  simpa [resumeStarts] using starts

end RunState

/-- What can become of the engine along with certain signals: it is paused, it is set running, or
nothing is signalled, and then it is as before unless graphics were started. -/
inductive Signalled (graphics : Prop) : List EngineView → RunState → RunState → Prop
  | paused {before after : RunState} (held : after.isRunning = false) :
      Signalled graphics [.paused] before after
  | resumed {before after : RunState} (held : before.isRunning = false)
      (running : after.isRunning = true) : Signalled graphics [.running] before after
  | silent {before after : RunState} (kept : before.isRunning = true → after.isRunning = true)
      (same : ¬ graphics → after.isRunning = before.isRunning) : Signalled graphics [] before after

theorem Signalled.refl (graphics : Prop) (r : RunState) : Signalled graphics [] r r :=
  .silent id fun _ => rfl

/-- Letting go of a reason is signalled if it sets the engine running. -/
theorem Signalled.resume (graphics : Prop) (r : RunState) (reason : PauseReason) :
    Signalled graphics (if r.resumeStarts reason then [.running] else []) r (r.resume reason) := by
  cases starts : r.resumeStarts reason with
  | true =>
    rcases RunState.isRunning_of_starts starts with ⟨held, running⟩
    exact .resumed held running
  | false =>
    have same := RunState.isRunning_resume_of_not_starts starts
    exact .silent same.trans fun _ => same

/-- What is signalled of a change, unless it starts graphics, is what it does to the engine. -/
theorem SessionState.signalled (s : SessionState) {c : Change} (foreground : c ≠ .hostPaused) :
    Signalled (c.startsGraphics = true) ((s.signal? c).bind EngineCall.view?).toList s.run
      (s.apply c).run := by
  cases c with
  | pushed o =>
    refine .paused ?_
    simp [apply, RunState.isRunning, RunState.pause, RunState.set]
  | removed o =>
    cases empty : (s.remove o.kind).stack.isEmpty with
    | true =>
      -- with the last overlay the overlay pause is let go of
      have told : ((s.signal? (.removed o)).bind EngineCall.view?).toList
          = if s.run.resumeStarts .overlay then [.running] else [] := by
        rw [signal?, empty, Bool.true_and]
        split <;> rfl
      have run : (s.apply (.removed o)).run = s.run.resume .overlay := if_pos empty
      rw [told, run]
      exact .resume _ s.run .overlay
    | false =>
      have told : s.signal? (.removed o) = none := by
        rw [signal?, empty]
        rfl
      have run : (s.apply (.removed o)).run = s.run := if_neg (Bool.eq_false_iff.1 empty)
      rw [told, run]
      exact .refl _ s.run
  | dismissableSet value => exact .refl _ s.run
  | hostPaused => exact absurd rfl foreground
  | hostResumed =>
    have told : ((s.signal? .hostResumed).bind EngineCall.view?).toList
        = if s.run.resumeStarts .host then [.running] else [] := by
      rw [signal?]
      split <;> rfl
    rw [told]
    exact .resume _ s.run .host
  | graphicsReady size =>
    -- the startup pause is let go of in silence, so that only what runs is known to stay so
    refine .silent (fun running => ?_) fun other => absurd rfl other
    simp only [RunState.isRunning, Bool.and_eq_true, Bool.not_eq_true'] at running
    simp [apply, RunState.resume, RunState.set, RunState.isRunning, running]
  | resized size =>
    have told : ((s.signal? (.resized size)).bind EngineCall.view?).toList = [] := by
      rw [signal?]
      split <;> rfl
    rw [told]
    exact .refl _ s.run

/-! ## Signals of a move -/

namespace EngineView

variable {e : EngineRef} {s t : SessionState} {history events : List Event}

theorem signals_append (first rest : List Event) :
    signals (first ++ rest) = signals first ++ signals rest := List.filterMap_append ..

theorem signals_events (s : SessionState) (e : EngineRef) (c : Change) (poisoned : Bool) :
    signals (s.events e c poisoned) = ((s.signal? c).bind EngineCall.view?).toList := by
  unfold SessionState.events
  cases s.signal? c with
  | none => rfl
  | some call => cases call <;> rfl

theorem signals_began_cons (e : EngineRef) (op : Op) (s : SessionState) (history : List Event) :
    signals (.began e op s :: history) = signals history := rfl

/-- A start of graphics is among the events of a change if it is the change. -/
theorem graphicsReady_mem_events {c : Change} {poisoned : Bool} :
    (∃ size, .committed e (.graphicsReady size) ∈ s.events e c poisoned) ↔
      c.startsGraphics = true := by
  cases c <;> simp [Change.startsGraphics]

/-- What is signalled in a move, unless it starts graphics, is what it does to the engine. -/
theorem signalled (move : Move e s events t) :
    Signalled (∃ size, .committed e (.graphicsReady size) ∈ events) (signals events) s.run
      t.run := by
  cases move with
  | began plain => exact .refl _ s.run
  | @told call poisoned plain _ =>
    have silent : signals [.told e call ⟨s, false, poisoned⟩] = [] := by
      cases call <;> first | rfl | cases plain
    rw [silent]
    exact .refl _ s.run
  | @stack c poisoned admitted =>
    have foreground : c ≠ .hostPaused := by
      rintro rfl
      exact admitted
    rw [signals_events, graphicsReady_mem_events]
    exact s.signalled foreground
  | @host op c poisoned asked foreground =>
    rw [signals_began_cons, signals_events]
    simp only [List.mem_cons, reduceCtorEq, false_or]
    rw [graphicsReady_mem_events]
    exact s.signalled foreground
  | @background op poisoned asked =>
    have committed : signals (s.backgrounding.map (.committed e)) = [] := by
      rw [signals, List.filterMap_map]
      exact List.filterMap_eq_nil_iff.2 fun _ _ => rfl
    have held : (s.after s.backgrounding).run.isRunning = false := by
      simp [RunState.isRunning, SessionState.backgrounded_host]
    rw [List.cons_append, signals_began_cons, signals_append, committed]
    exact .paused held

/-! ## What is kept -/

/-- An engine that takes itself to be running does run, and of any two signals in succession one is
a pause. -/
structure Trusts (history : List Event) (s : SessionState) : Prop where
  right : after history = running → s.run.isRunning = true
  chain : (signals history).IsChain fun a b => a = paused ∨ b = paused

/-- The engine takes itself to be what it is. -/
structure Agrees (history : List Event) (s : SessionState) : Prop extends Trusts history s where
  informed : s.run.isRunning = true → after history = running

theorem Trusts.paused (trusts : Trusts history s) (held : s.run.isRunning = false) :
    after history = paused := by
  cases view : after history with
  | paused => rfl
  | running =>
    rw [trusts.right view] at held
    cases held

/-- Of an engine that is held, half of the truth is the whole. -/
theorem Trusts.agrees (trusts : Trusts history s) (held : s.run.isRunning = false) :
    Agrees history s :=
  ⟨trusts, fun running => absurd running (Bool.eq_false_iff.1 held)⟩

/-- After one more signal, the engine takes itself to be what it was told. -/
theorem after_append_of_signals {view : EngineView} (told : signals events = [view]) :
    after (history ++ events) = view := by
  simp [after, signals_append, told]

/-- A pause may follow any signal, and any signal an engine that takes itself to be paused. -/
theorem Trusts.chain_append (trusts : Trusts history s) {view : EngineView}
    (told : signals events = [view]) (turn : view = .paused ∨ after history = .paused) :
    (signals (history ++ events)).IsChain fun a b => a = .paused ∨ b = .paused := by
  rw [signals_append, told]
  apply trusts.chain.append (.singleton view)
  intro last isLast next isNext
  -- the last signal before is what the engine takes itself to be
  obtain rfl := Option.some.inj isNext
  refine turn.symm.imp (fun before => ?_) id
  rw [after, Option.mem_def.1 isLast] at before
  exact before

theorem Trusts.step (trusts : Trusts history s) (move : Move e s events t) :
    Trusts (history ++ events) t := by
  have signalled := signalled move
  generalize told : signals events = signals at signalled
  cases signalled with
  | paused held =>
    refine ⟨fun view => ?_, trusts.chain_append told (.inl rfl)⟩
    rw [after_append_of_signals told] at view
    cases view
  | resumed held running =>
    -- what was held before cannot have taken itself to be running, so a pause came last
    have turn : after history = .paused := trusts.paused held
    exact ⟨fun _ => running, trusts.chain_append told (.inr turn)⟩
  | silent kept same =>
    have view : after (history ++ events) = after history := by
      simp [after, signals_append, told]
    refine ⟨fun running => ?_, ?_⟩
    · rw [view] at running
      exact kept (trusts.right running)
    · simpa [signals_append, told] using trusts.chain

theorem Trusts.moves (trusts : Trusts history s) (moves : Moves e s events t) :
    Trusts (history ++ events) t :=
  moves.invariant (motive := Trusts) (fun _ _ _ _ trusts move => trusts.step move) trusts

/-- A move that does not start graphics keeps the engine right about itself. -/
theorem Agrees.step (agrees : Agrees history s) (move : Move e s events t)
    (other : ∀ size, .committed e (.graphicsReady size) ∉ events) :
    Agrees (history ++ events) t := by
  refine ⟨agrees.toTrusts.step move, fun running => ?_⟩
  have signalled := signalled move
  generalize told : signals events = signals at signalled
  cases signalled with
  | paused held =>
    rw [held] at running
    cases running
  | resumed held running => exact after_append_of_signals told
  | silent kept same =>
    rw [same (not_exists.2 other)] at running
    simpa [after, signals_append, told] using agrees.informed running

/-- After a course the engine is right about itself: where graphics were started, an overlay is
showing by then. -/
theorem Agrees.course (agrees : Agrees history s) (sound : s.Sound) (course : Course e s events t) :
    Agrees (history ++ events) t := by
  induction course generalizing history with
  | nil s =>
    rw [List.append_nil]
    exact agrees
  | move move other => exact agrees.step move other
  | append before _ ihBefore ihAfter =>
    rw [← List.append_assoc]
    exact ihAfter (ihBefore agrees sound) (before.moves.sound sound)
  | @ready s t op size poisoned inner asked within showing _ =>
    -- the engine may have been wrong within, but the splash screen holds it by now
    have moves : Moves e s
        (.began e op s :: s.events e (.graphicsReady size) poisoned ++ inner) t :=
      (Moves.ready asked).append within.moves
    have stack : t.stack ≠ [] := by
      intro empty
      simp [SessionState.shows, empty] at showing
    exact (agrees.toTrusts.moves moves).agrees ((moves.sound sound).not_running stack)
  | @readyWithSplash s t _ op size poisoned again splash inner _ asked within admitted _ _
      ihAfter =>
    -- the splash screen that is put on holds the engine before the rest of the course
    have pushed : Moves e s (.began e op s :: s.events e (.graphicsReady size) poisoned ++ inner
        ++ t.events e (.pushed splash) again) (t.apply (.pushed splash)) :=
      ((Moves.ready asked).append within.moves).append (Move.stack admitted).moves
    have sound' := pushed.sound sound
    have held : (t.apply (.pushed splash)).run.isRunning = false :=
      sound'.not_running (List.cons_ne_nil _ _)
    have agrees' := (agrees.toTrusts.moves pushed).agrees held
    rw [← List.append_assoc]
    exact ihAfter agrees' sound'

/-- A panic strikes while an overlay is showing. -/
theorem showing_of_broken (broken : BrokenCourse e s events t) : t.stack ≠ [] := by
  induction broken with
  | doublePush showing => exact showing
  | append _ _ ih => exact ih
  | ready _ _ ih => exact ih

theorem Agrees.brokenCourse (agrees : Agrees history s) (sound : s.Sound)
    (broken : BrokenCourse e s events t) : Agrees (history ++ events) t :=
  (agrees.toTrusts.moves broken.moves).agrees
    ((broken.moves.sound sound).not_running (showing_of_broken broken))

end EngineView

/-! ## Runs -/

/-- After every operation of the host, even if it ended in a panic, the engine takes itself to be
running exactly if it runs. In between, it is never told to resume twice without a pause. -/
theorem Run.engine_view_agrees (r : Run) :
    (EngineView.after r.trace = .running ↔ r.state.run.isRunning = true) ∧
      (EngineView.signals r.trace).IsChain fun a b => a = .paused ∨ b = .paused := by
  have agrees : r.state.Sound ∧ EngineView.Agrees r.trace r.state := by
    refine r.invariant (motive := fun history s => s.Sound ∧ EngineView.Agrees history s) ?_ ?_ ?_
    · exact ⟨SessionState.sound_new, ⟨nofun, .nil⟩, nofun⟩
    · rintro history s events t ⟨sound, agrees⟩ course
      exact ⟨course.moves.sound sound, agrees.course sound course⟩
    · rintro history s events t ⟨sound, agrees⟩ broken
      exact ⟨broken.moves.sound sound, agrees.brokenCourse sound broken⟩
  exact ⟨⟨agrees.2.right, agrees.2.informed⟩, agrees.2.chain⟩

end EmuFront
