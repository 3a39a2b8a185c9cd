import EmuFront.Proofs.MirroredSteps
import EmuFront.Proofs.OverlayRuns
import EmuFront.Proofs.SignalLog

/-!
# A second overlay of a kind

Putting on a second overlay of a kind panics with the session lock held. All that it leaves behind is
a poisoned lock, the number of the overlay and what is recorded of the panic. So the world afterwards
mirrors the world before, and whatever operations on the front end come next show the same in both.
-/

namespace EmuFront

open Act OverlayStack

variable {w : World} {tell : Tell} {o : Overlay} {site : PanicSite}

/-! ## Refusals -/

/-- The work of refusing an overlay with a panic. -/
def Work.refuse (engine : EngineRef) (site : PanicSite) (o : Overlay) : Work Unit := do
  observe (.refused engine o)
  onPanic (doublePush site o.kind)

/-- What the panic over a second overlay of a kind leaves behind. -/
def World.refusing (w : World) (site : PanicSite) (o : Overlay) : World :=
  { w with
    machine := (Work.refuse w.front.engine site o w.machine).2
    front := { w.front with session := ⟨w.front.session.state, false, true⟩ } }

theorem OverlayStack.run_push_of_showing (showing : w.front.session.state.shows o.kind = true) :
    push tell site o w = (.error (doublePush site o.kind), w.refusing site o) := by
  have refused : (if w.front.session.state.shows o.kind = true then do
        note fun engine => .refused engine o
        work (Work.onPanic (doublePush site o.kind))
        modifySession fun s => { s with locked := false, poisoned := true }
        throw (doublePush site o.kind)
      else do
        pushLocked o
        release
        tell (.pause false) : Act Unit)
      { w with front := { w.front with session := { w.front.session with locked := true } } } =
        (.error (doublePush site o.kind), w.refusing site o) := by
    rw [if_pos showing]
    rfl
  exact refused

theorem OverlayStack.run_present_of_showing (showing : w.front.session.state.shows o.kind = true) :
    present tell o w = (.ok false, { w with
      machine := ((do
        Work.log .debug s!"{o.kind.name} already showing"
        Work.observe (.refused w.front.engine o) : Work Unit) w.machine).2
      front := { w.front with session := { w.front.session with locked := false } } }) := by
  have refused : (if w.front.session.state.shows o.kind = true then do
        log .debug s!"{o.kind.name} already showing"
        note fun engine => .refused engine o
        release
        return false
      else do
        pushLocked o
        release
        tell (.pause false)
        return true : Act Bool)
      { w with front := { w.front with session := { w.front.session with locked := true } } } = _ :=
    congrFun (if_pos showing) _
  exact refused

theorem Work.quiet_refuse (engine : EngineRef) (site : PanicSite) (o : Overlay) :
    (refuse engine site o).Quiet :=
  .bind (quiet_observe rfl) fun _ => quiet_onPanic _

theorem Work.shows_refuse (engine : EngineRef) (site : PanicSite) (o : Overlay) (m : Machine) :
    m.Shows (.refused engine o :: panicking m.capture (doublePush site o.kind))
      (refuse engine site o m).2 := by
  have noted := shows_observe (.refused engine o) m
  have panicked := shows_onPanic (doublePush site o.kind) (observe (.refused engine o) m).2
  exact noted.trans panicked

/-- What a world is like after an overlay was kept off its stack: the front end is as before, lock and
all, unless the lock is poisoned now, and the engine was not called about the session. -/
structure World.KeptOff (w v : World) (poisoned : Bool) : Prop where
  front : v.front = { w.front with session := { w.front.session with poisoned } }
  engine : v.engine = w.engine
  trace : v.machine.trace = w.machine.trace

namespace OverlayStack

theorem keptOff_push (free : w.front.session.locked = false)
    (showing : w.front.session.state.shows o.kind = true) :
    (push tell site o w).1 = .error (doublePush site o.kind) ∧
      w.KeptOff (push tell site o w).2 true := by
  rw [run_push_of_showing showing, World.refusing, ← free]
  exact ⟨rfl, rfl, rfl, Work.quiet_refuse _ _ _ _⟩

theorem keptOff_present (free : w.front.session.locked = false)
    (showing : w.front.session.state.shows o.kind = true) :
    (present tell o w).1 = .ok false ∧
      w.KeptOff (present tell o w).2 w.front.session.poisoned := by
  have quiet : Work.Quiet (do
      Work.log .debug s!"{o.kind.name} already showing"
      Work.observe (.refused w.front.engine o)) :=
    .bind (Work.quiet_log _ _) fun _ => Work.quiet_observe rfl
  rw [run_present_of_showing showing, ← free]
  exact ⟨rfl, rfl, rfl, quiet _⟩

end OverlayStack

/-! ## What follows -/

/-- But for what is recorded of the panic, the world is as before. -/
theorem World.mirrors_refusing (free : w.front.session.locked = false)
    (allowed : w.engine.Allows fun op => op.isFrontEnd = true) (site : PanicSite) (o : Overlay) :
    w.Mirrors id (w.refusing site o) := by
  have same : w.machine.Mirrors id w.machine := ⟨fun _ => rfl, rfl, rfl, fun _ => rfl⟩
  exact ⟨same.showing (Work.shows_refuse _ _ _ _), rfl, rfl, (SessionState.renumber_id _).symm,
    free.symm, rfl, allowed⟩

/-- Numbers where the number `n` is left out: those from it on are one higher. -/
def skip (n k : Nat) : Nat := if k < n then k else k + 1

/-- A machine on which an overlay was made mirrors what it was before, with the number of that overlay
left out. -/
theorem Work.mirrors_run_make (spec : OverlaySpec) (m : Machine) :
    m.Mirrors (skip m.nextSurface) (make spec m).2 := by
  have given : ∀ u : Machine, u.nextSurface = m.nextSurface →
      u.Mirrors (skip m.nextSurface) { u with nextSurface := u.nextSurface + 1 } := by
    intro u same
    refine ⟨fun k => ?_, rfl, rfl, fun _ => rfl⟩
    rw [skip, if_neg (by omega)]
    exact Nat.add_right_comm _ _ _
  cases spec with
  | disksMenu directory =>
    have scanned := (run_scanDiskImages directory m).2
    exact scanned.mirrors (given _ scanned.numbering)
  | splash | mainMenu | settingsMenu | confirm => exact given m rfl

/-- When the host makes a second overlay of a kind and puts it on, the world afterwards mirrors the one
before, with the number of that overlay left out. -/
theorem Op.run_push_of_showing {spec : OverlaySpec} (free : w.front.session.locked = false)
    (showing : w.front.session.state.shows spec.kind = true)
    (numbered : ∀ o ∈ w.front.session.state.stack, o.id < w.machine.nextSurface)
    (allowed : w.engine.Allows fun op => op.isFrontEnd = true) :
    ((Op.stack (.push spec site)).run w).1 = .error (doublePush site spec.kind) ∧
      w.Mirrors (skip w.machine.nextSurface) ((Op.stack (.push spec site)).run w).2 := by
  let beginning := Event.began w.front.engine (.stack (.push spec site)) w.front.session.state
  let began := w.after (Work.observe beginning)
  let o := (make spec began.machine).1
  have kind : o.kind = spec.kind := spec.kind_make began.machine
  have ran : (Op.stack (.push spec site)).run w =
      (do push (tellWithin w.engine.reactions.length) site o; return .nothing : Act Answer)
        (began.after (make spec)) := rfl
  have showing' : (began.after (make spec)).front.session.state.shows o.kind = true := by
    rw [kind]
    exact showing
  rw [ran, run_bind, OverlayStack.run_push_of_showing showing', ← kind]
  refine ⟨rfl, ?_, rfl, rfl, ?_, free.symm, rfl, allowed⟩
  · have refused := Work.shows_refuse w.front.engine site o (make spec began.machine).2
    have made := (Work.mirrors_run_make spec began.machine).showing refused
    exact (Work.shows_observe beginning w.machine).mirrors made
  · exact (SessionState.renumber_of_forall fun o shown => if_pos (numbered o shown)).symm

/-! ## Runs -/

/-- The pauses and resumes that the engine is told of in a step. -/
def Step.signals (s : Step) : List EngineCall := signalsOf s.events

theorem Step.signals_renumber (f : Nat → Nat) (s : Step) : (s.renumber f).signals = s.signals := by
  show (s.events.map (Event.renumber f)).filterMap _ = s.events.filterMap _
  rw [List.filterMap_map]
  exact List.filterMap_congr fun e _ => by cases e <;> rfl

namespace Run

/-- A second overlay of a kind is kept off the stack, with a panic or, if it was only to be shown, with
the answer that it is not. The front end is as before but for a lock that the panic has poisoned, and
the engine is not called about the session. If the host goes on with operations on the front end after
the panic, from wherever a run has led, each of them gives, leaves and shows the same as without it. If
the overlay was made for that, the numbers of overlays made later are one higher. -/
theorem double_push_unnoticed (r : Run) :
    (∀ (w : World) (tell : Tell) (site : PanicSite) (o : Overlay), w.front.session.locked = false →
      w.front.session.state.shows o.kind = true →
        ((push tell site o w).1 = .error (OverlayStack.doublePush site o.kind) ∧
          w.KeptOff (push tell site o w).2 true) ∧
        (present tell o w).1 = .ok false ∧
          w.KeptOff (present tell o w).2 w.front.session.poisoned) ∧
    ((r.final.engine.Allows fun op => op.isFrontEnd = true) →
      ∀ ops : List Op, (∀ op ∈ ops, op.isFrontEnd = true) →
        (∀ (tell : Tell) (site : PanicSite) (o : Overlay), r.state.shows o.kind = true →
          Op.steps ops (push tell site o r.final).2 = Op.steps ops r.final) ∧
        ∀ (spec : OverlaySpec) (site : PanicSite), r.state.shows spec.kind = true →
          let pushed := (Op.stack (.push spec site)).run r.final
          pushed.1 = .error (OverlayStack.doublePush site spec.kind) ∧
            Op.steps ops pushed.2 =
              (Op.steps ops r.final).map (Step.renumber (skip r.final.machine.nextSurface)) ∧
            (Op.steps ops pushed.2).map Step.signals = (Op.steps ops r.final).map Step.signals) := by
  refine ⟨fun w tell site o free showing => ⟨keptOff_push free showing, keptOff_present free showing⟩,
    fun allowed ops frontEnd => ?_⟩
  have free : r.final.front.session.locked = false := Op.free_runAll r.ops rfl
  refine ⟨fun tell site o showing => ?_, fun spec site showing => ?_⟩
  · rw [OverlayStack.run_push_of_showing showing,
      Op.steps_of_mirrors frontEnd (r.final.mirrors_refusing free allowed site o)]
    exact List.map_id'' Step.renumber_id _
  · obtain ⟨panicked, mirrors⟩ :=
      Op.run_push_of_showing free showing (fun _ => r.id_lt_nextSurface) allowed
    have same := Op.steps_of_mirrors frontEnd mirrors
    refine ⟨panicked, same, ?_⟩
    rw [same, List.map_map]
    exact List.map_congr_left fun s _ => s.signals_renumber _

/-- A run that leaves the main menu over the splash screen. Failures are recorded, and the engine will
show the settings when it is told to resume. -/
def recordedMenu : Run where
  machine := .new (Storage.Disk.empty.actAll [.makeDirectory ⟨"data"⟩])
  config := .new ⟨"data"⟩
  reactions := [⟨.resume, [.host .showSettings]⟩]
  ops := [.host (.create none), .host (.graphicsReady 800 480), .host .showMainMenu]

/-- What the host does next: among other things it tries the lock, empties the stack, and puts on a
second menu again. -/
def afterPanic : List Op :=
  [.stack (.tryLock false), .host .showMainMenu, .stack .drain, .host .hostPaused, .host .hostResumed,
    .stack (.push .mainMenu .unknown), .stack (.push .mainMenu .unknown)]

/-- The panic changes nothing of what the engine is told, and a second menu is not shown. -/
theorem double_push_unnoticed_recordedMenu :
    let pushed := (Op.stack (.push .mainMenu .unknown)).run recordedMenu.final
    pushed.1 = .error (OverlayStack.doublePush .unknown .mainMenu) ∧
      Op.steps afterPanic pushed.2 = (Op.steps afterPanic recordedMenu.final).map
        (Step.renumber (skip recordedMenu.final.machine.nextSurface)) ∧
      (Op.steps afterPanic pushed.2).map Step.signals =
        [[], [], [.resume false, .pause false, .resume false], [.pause true], [.resume true],
          [.pause false], []] ∧
      (present (tellWithin 0) ⟨9, .mainMenu, none⟩ recordedMenu.final).1 = .ok false := by
  have showing : recordedMenu.state.shows OverlaySpec.mainMenu.kind = true := by decide +kernel
  have allowed : recordedMenu.final.engine.Allows fun op => op.isFrontEnd = true := by
    have reactions : recordedMenu.final.engine.reactions = recordedMenu.reactions := by
      decide +kernel
    intro r member
    rw [reactions] at member
    obtain rfl := List.mem_singleton.1 member
    decide
  have told : (Op.steps afterPanic recordedMenu.final).map Step.signals =
      [[], [], [.resume false, .pause false, .resume false], [.pause true], [.resume true],
        [.pause false], []] := by
    decide +kernel
  have free : recordedMenu.final.front.session.locked = false := by decide +kernel
  obtain ⟨refused, unnoticed⟩ := recordedMenu.double_push_unnoticed
  obtain ⟨-, shown, -⟩ :=
    refused recordedMenu.final (tellWithin 0) .unknown ⟨9, .mainMenu, none⟩ free showing
  obtain ⟨panicked, same, signals⟩ :=
    (unnoticed allowed afterPanic (by decide)).2 .mainMenu .unknown showing
  exact ⟨panicked, same, signals.trans told, shown⟩

end Run
end EmuFront
