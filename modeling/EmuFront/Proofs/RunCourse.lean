import EmuFront.Proofs.HostCourse

/-!
# Courses of runs

From inside a call the engine may perform any operations, whose calls to the engine may again do so.
By induction on the depth of such calls, the engine receives every call and then goes along courses.
So does every operation, and the session of a front end goes along them from one operation of the
host to the next.
-/

namespace EmuFront

open Act

variable {tell : Tell}

/-! ## Operations -/

theorem ReportOp.still_perform (op : ReportOp) : op.perform.Still := by
  have reporting : ∀ {α : Type} {part : CrashReporter → Work (α × CrashReporter)},
      (∀ r, (part r).Routine) → (withReporter part).Still := fun routine =>
    still_get.bind fun _ => (still_work (routine _).quiet).bind fun _ => fun _ => rfl
  cases op with
  | checkCrashes => exact (reporting Work.routine_checkOnce).bind fun _ => still_pure _
  | checkOnce => exact (reporting Work.routine_checkOnce).bind fun _ => still_pure _
  | scan =>
    exact still_get.bind fun _ => (still_work (Work.routine_scanArtifacts _).quiet).bind fun _ =>
      still_pure _
  | crashesPresent =>
    exact still_get.bind fun _ => (still_work (Work.routine_crashesPresent _).quiet).bind fun _ =>
      still_pure _
  | saveScan =>
    exact still_get.bind fun _ => (still_work (Work.routine_scanArtifacts _).quiet).bind fun _ =>
      .bind (fun _ => rfl) fun _ => still_pure _
  | aggregate =>
    exact still_get.bind fun _ => (still_work (Work.routine_aggregate _ _).quiet).bind fun _ =>
      still_pure _
  | writeAggregate text =>
    exact still_get.bind fun _ => (still_work (Work.routine_writeAggregate _ _).quiet).bind fun _ =>
      still_pure _
  | send accept before during =>
    refine still_get.bind fun _ => (still_work (.watch (Work.quiet_transmit _ ?_))).bind fun _ =>
      .bind (fun _ => rfl) fun _ => still_pure _
    exact fun report => (Work.routine_recording accept before during report).quiet
  | discard =>
    exact still_get.bind fun _ => (still_work (Work.routine_discard _).quiet).bind fun _ =>
      still_pure _

theorem OutsideOp.still_perform (op : OutsideOp) : op.perform.Still := by
  cases op with
  | nothing => exact still_pure _
  | setReply flags => exact .bind (fun _ => rfl) fun _ => still_pure _
  | showConfig => exact still_get.bind fun _ => still_pure _

namespace Op

theorem asks_body (h : tell.Follows) {op : Op} {c : Change} (asked : op.change? = some c) :
    (op.body tell).Asks c := by
  cases op with
  | host op => exact HostOp.asks_perform h asked
  | stack | crash | machine | outside => cases asked

theorem follows_body (h : tell.Follows) {op : Op} (plain : op.change? = none) :
    (op.body tell).Follows fun _ => True := by
  cases op with
  | stack op => exact OverlayStack.follows_perform h op
  | host op => exact HostOp.follows_perform h plain
  | crash op => exact (ReportOp.still_perform op).follows _
  | machine op => exact (still_work (Work.quiet_perform op)).follows _
  | outside op => exact (OutsideOp.still_perform op).follows _

/-- What an operation does goes on from the scene in which it is begun. -/
theorem ensures_perform {op : Op} {w : World} {done : Answer → World → Prop} {ended : World → Prop}
    (body : ∀ v : World,
      v.scene = w.scene.observe (.began w.scene.engine op w.scene.session.state) →
      (op.body tell).Ensures v done ended) : (op.perform tell).Ensures w done ended := by
  rw [perform, ensures_bind, ensures_get]
  have about : (Event.began w.front.engine op w.front.session.state).ofSession = true := rfl
  exact (ensures_observe about w).andThen fun _ => body

theorem follows_perform (h : tell.Follows) (op : Op) : (op.perform tell).Follows fun _ => True := by
  intro w free _
  apply ensures_perform
  intro v begun
  have free' : v.scene.session.locked = false := by
    rw [begun]
    exact free
  cases asks : op.change? with
  | none =>
    -- its beginning is a move of its own
    have began : ∀ s, Course w.scene.engine s [.began w.scene.engine op s] s := by
      intro s
      exact .move (.began asks) (by simp)
    apply (follows_body h asks v free' trivial).goes
    intro _ _ goesOn goes
    rw [begun] at goes
    exact goes.observed fun _ after => goesOn (began _) after
  | some c =>
    -- its beginning belongs to the move of the change that it asks for
    apply (asks_body h asks v free').goes
    intro _ _ _ goes
    rw [begun] at goes
    exact goes.observed fun _ after => after op asks

theorem follows_performAll (h : tell.Follows) (ops : List Op) :
    (performAll tell ops).Follows fun _ => True := by
  induction ops with
  | nil => exact (still_pure ()).follows _
  | cons op rest ih => exact (follows_perform h op).andThen fun _ => ih

end Op

/-! ## The engine calling back -/

theorem Act.ensures_deliver (call : EngineCall) (w : World) :
    (deliver call).Ensures w
      (fun _ v => v.scene = w.scene.observe (.told w.scene.engine call w.scene.session))
      fun _ => False := by
  rw [deliver, ensures_bind, ensures_get]
  have about : (Event.told w.front.engine call w.front.session).ofSession = true := rfl
  apply (ensures_observe about w).andThen
  intro _ v told
  refine (still_work (Work.quiet_cross _ _) v).mono (fun _ u same => ?_) fun _ => id
  exact same.trans told

theorem Act.still_takeReaction (name : CallName) : (takeReaction name).Still := fun _ => rfl

/-- What follows once a call is received. -/
theorem Scene.Goes.told {along : Along} {a b : Scene} {call : EngineCall}
    (free : a.session.locked = false)
    (goes : (a.observe (.told a.engine call a.session)).Goes along b) :
    a.Goes (Told call along) b := by
  refine goes.observed fun events after => ⟨a.session.poisoned, events, ?_, after⟩
  rw [← free]

/-- However deep the engine calls back, it receives the call and then goes along courses. -/
theorem follows_tellWithin (depth : Nat) : (tellWithin depth).Follows := by
  induction depth with
  | zero =>
    -- the engine has no reactions left and only receives the call
    intro call w free
    refine (ensures_deliver call w).mono (fun _ v told => ?_) fun _ => False.elim
    rw [told]
    exact Scene.Goes.told free (.refl free)
  | succ depth ih =>
    intro call w free
    apply (ensures_deliver call w).andThen
    intro _ v told
    apply (still_takeReaction call.name v).andThen
    intro reaction u same
    rw [told] at same
    have free' : u.scene.session.locked = false := by
      rw [same]
      exact free
    cases reaction with
    | none =>
      show w.scene.Goes (Told call Course) u.scene
      rw [same]
      exact Scene.Goes.told free (.refl free)
    | some reaction =>
      -- the operations of the reaction call the engine one level deeper
      have reacted := Op.follows_performAll ih reaction.ops u free' trivial
      apply reacted.goes
      intro _ _ _ goes
      rw [same] at goes
      exact goes.told free

/-! ## Runs -/

/-- An operation of the host goes along a course if it gives an answer, and along a broken one if it
ends in a panic. -/
theorem Op.runs_perform (op : Op) {w : World} (free : w.scene.session.locked = false) :
    (react op.perform).Runs w w.scene id := by
  rw [react, Runs, ensures_bind, ensures_get]
  exact Op.follows_perform (follows_tellWithin _) op w free trivial

/-- A run of a front end: what it is made on and for, what its engine will do from inside its calls,
and the operations of the host in order. -/
structure Run where
  machine : Machine
  config : Config
  reactions : List Reaction
  ops : List Op

namespace Run

/-- The world of the new front end, of which nothing has happened yet. -/
def start (r : Run) : World := .new { r.machine with timeline := [] } r.config r.reactions

/-- The world after the run. -/
def final (r : Run) : World := (Op.runAll r.ops r.start).2

/-- The session state after the run. -/
def state (r : Run) : SessionState := r.final.front.session.state

/-- What happened to the session in the run. -/
def trace (r : Run) : List Event := r.final.machine.trace

end Run

/-- What every course keeps, broken or not, is kept by operations of the host one after the other. -/
theorem Op.runAll_invariant {e : EngineRef} {motive : List Event → SessionState → Prop}
    (course : ∀ history s events t, motive history s → Course e s events t →
      motive (history ++ events) t)
    (broken : ∀ history s events t, motive history s → BrokenCourse e s events t →
      motive (history ++ events) t)
    (ops : List Op) {w : World} (engine : w.scene.engine = e)
    (free : w.scene.session.locked = false) (start : motive w.scene.trace w.scene.session.state) :
    motive (Op.runAll ops w).2.scene.trace (Op.runAll ops w).2.scene.session.state := by
  induction ops generalizing w with
  | nil => exact start
  | cons op rest ih =>
    -- one operation keeps the invariant, whether it gives an answer or panics
    have keeps : ∀ {along : Along} {v : World},
        (∀ history s events t, motive history s → along e s events t →
          motive (history ++ events) t) →
        w.scene.Goes along v.scene →
        v.scene.engine = e ∧ v.scene.session.locked = false ∧
          motive v.scene.trace v.scene.session.state := by
      intro along v step goes
      rcases goes.events with ⟨events, trace, moves⟩
      rw [engine] at moves
      refine ⟨goes.engine.trans engine, goes.free, ?_⟩
      rw [trace]
      exact step _ _ _ _ start moves
    have ran := Ensures.mono (op.runs_perform free) (fun _ _ => keeps course) fun _ => keeps broken
    -- the rest of the operations starts from the world that this one has left
    rcases ran.after with ⟨engine', free', after⟩
    exact ih engine' free' after

/-- The session lock is free between the operations of the host. -/
theorem Op.free_runAll (ops : List Op) {w : World} (free : w.scene.session.locked = false) :
    (Op.runAll ops w).2.scene.session.locked = false := by
  induction ops generalizing w with
  | nil => exact free
  | cons op rest ih =>
    have ran := Ensures.mono (op.runs_perform free) (fun _ _ => Scene.Goes.free) fun _ =>
      Scene.Goes.free
    exact ih ran.after

namespace Run

/-- The engine that a new front end is for. -/
def engine : EngineRef := ⟨0, .direct⟩

/-- What every course keeps, broken or not, is kept by a run. -/
theorem invariant (r : Run) {motive : List Event → SessionState → Prop} (start : motive [] .new)
    (course : ∀ history s events t, motive history s → Course engine s events t →
      motive (history ++ events) t)
    (broken : ∀ history s events t, motive history s → BrokenCourse engine s events t →
      motive (history ++ events) t) : motive r.trace r.state :=
  Op.runAll_invariant course broken r.ops rfl rfl start

/-- A run goes along moves. -/
theorem moves (r : Run) : Moves engine .new r.trace r.state :=
  r.invariant (.nil _) (fun _ _ _ _ before course => before.append course.moves)
    fun _ _ _ _ before course => before.append course.moves

end Run
end EmuFront
