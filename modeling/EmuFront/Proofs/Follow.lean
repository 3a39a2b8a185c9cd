import EmuFront.Proofs.Course

/-!
# Following a session

How actions on a front end make its session go along a course. A `Scene` is all of a world that a
course is about. An action follows courses (`Act.Follows`) if from every world whose lock is free it
comes to its end along a course, or ends in a panic along a broken one; and this is so for what is put
together from such actions.
-/

namespace EmuFront

/-! ## Ways to go -/

/-- A way for the session of an engine to go: from a state, with events, to a state. -/
abbrev Along := EngineRef → SessionState → List Event → SessionState → Prop

/-- A way that may be gone from the end of any course. -/
def Along.Extends (along : Along) : Prop :=
  ∀ {e : EngineRef} {s t u : SessionState} {first rest : List Event}, Course e s first t →
    along e t rest u → along e s (first ++ rest) u

theorem extends_course : Along.Extends Course := .append

theorem extends_brokenCourse : Along.Extends BrokenCourse := .append

/-! ## Scenes -/

/-- What a course is about: the engine of a front end, its session, and what has happened. -/
structure Scene where
  engine : EngineRef
  session : Session
  trace : List Event

def World.scene (w : World) : Scene := ⟨w.front.engine, w.front.session, w.machine.trace⟩

namespace Scene

/-- The scene with the lock held or free. -/
def lock (a : Scene) (held : Bool) : Scene :=
  { a with session := { a.session with locked := held } }

/-- The scene after something has happened. -/
def observe (a : Scene) (e : Event) : Scene := { a with trace := a.trace ++ [e] }

/-- The scene after a change is committed. -/
def commit (a : Scene) (c : Change) : Scene where
  engine := a.engine
  session := { a.session with state := a.session.state.apply c }
  trace := a.trace ++ [.committed a.engine c]

/-- The scene after changes are committed in order. -/
def commitAll (a : Scene) (changes : List Change) : Scene := changes.foldl commit a

/-- Taking a free lock and freeing it leaves the scene as it was. -/
theorem lock_false_lock_true {a : Scene} (free : a.session.locked = false) :
    (a.lock true).lock false = a := by
  rcases a with ⟨engine, ⟨state, locked, poisoned⟩, trace⟩
  simp_all [lock]

/-- What is committed under the lock is there once the lock is free. -/
theorem lock_false_commit_lock_true {a : Scene} (free : a.session.locked = false) (c : Change) :
    ((a.lock true).commit c).lock false = a.commit c := by
  rcases a with ⟨engine, ⟨state, locked, poisoned⟩, trace⟩
  simp_all [lock, commit]

/-- Changes committed in a row change the state in order, each with its event. -/
theorem commitAll_eq (a : Scene) (changes : List Change) :
    a.commitAll changes =
      ⟨a.engine, { a.session with state := a.session.state.after changes },
        a.trace ++ changes.map (.committed a.engine)⟩ := by
  induction changes generalizing a with
  | nil => simp [commitAll, SessionState.after]
  | cons c rest ih =>
    show (a.commit c).commitAll rest = _
    rw [ih]
    simp [commit, SessionState.after]

/-- One scene comes to another along a way, and the lock is free at the end. -/
structure Goes (along : Along) (a b : Scene) : Prop where
  engine : b.engine = a.engine
  free : b.session.locked = false
  events : ∃ events, b.trace = a.trace ++ events ∧
    along a.engine a.session.state events b.session.state

variable {along along' along'' : Along} {a b c : Scene}

/-- A way may be replaced by a weaker one. -/
theorem Goes.mono (h : a.Goes along b)
    (weaker : ∀ events, along a.engine a.session.state events b.session.state →
      along' a.engine a.session.state events b.session.state) : a.Goes along' b := by
  rcases h.events with ⟨events, trace, moves⟩
  exact ⟨h.engine, h.free, events, trace, weaker events moves⟩

/-- Two ways are one if their events put together are. -/
theorem Goes.trans (first : a.Goes along b) (second : b.Goes along' c)
    (join : ∀ xs ys, along a.engine a.session.state xs b.session.state →
      along' a.engine b.session.state ys c.session.state →
      along'' a.engine a.session.state (xs ++ ys) c.session.state) :
    a.Goes along'' c := by
  rcases first.events with ⟨xs, htrace, hxs⟩
  rcases second.events with ⟨ys, htrace', hys⟩
  -- both ways are those of the same engine
  have same : c.engine = a.engine := second.engine.trans first.engine
  rw [first.engine] at hys
  have trace : c.trace = a.trace ++ (xs ++ ys) := by
    rw [htrace', htrace, List.append_assoc]
  exact ⟨same, second.free, xs ++ ys, trace, join _ _ hxs hys⟩

/-- What is committed first comes before the moves. -/
theorem Goes.commitAll {changes : List Change} (goes : (a.commitAll changes).Goes along b)
    (join : ∀ events, along a.engine (a.session.state.after changes) events b.session.state →
      along' a.engine a.session.state (changes.map (.committed a.engine) ++ events)
        b.session.state) :
    a.Goes along' b := by
  rw [commitAll_eq] at goes
  rcases goes.events with ⟨events, trace, moves⟩
  refine ⟨goes.engine, goes.free, _, ?_, join events moves⟩
  rw [trace, List.append_assoc]

/-- What is observed first comes before the moves. -/
theorem Goes.observed {x : Event} (goes : (a.observe x).Goes along b)
    (join : ∀ events, along a.engine a.session.state events b.session.state →
      along' a.engine a.session.state (x :: events) b.session.state) : a.Goes along' b := by
  rcases goes.events with ⟨events, trace, moves⟩
  refine ⟨goes.engine, goes.free, x :: events, ?_, join events moves⟩
  rw [trace, observe, List.append_assoc]
  rfl

/-- Where nothing happens, there is a course without events. -/
theorem Goes.refl (free : a.session.locked = false) : a.Goes Course a :=
  ⟨rfl, free, [], (List.append_nil _).symm, .nil _⟩

end Scene

/-! ## Ways of a certain beginning -/

/-- The engine receives a call, and what it does from inside the call follows. -/
def Told (call : EngineCall) (along : Along) : Along := fun e s events t =>
  ∃ poisoned rest, events = .told e call ⟨s, false, poisoned⟩ :: rest ∧ along e s rest t

/-- A change is committed and told, and what the engine does from inside the call follows. -/
def Changed (c : Change) (along : Along) : Along := fun e s events t =>
  ∃ poisoned rest, events = s.events e c poisoned ++ rest ∧ along e (s.apply c) rest t

/-- What follows once an operation is begun that asks for a change. -/
def Asked (c : Change) (along : Along) : Along := fun e s events t =>
  ∀ op : Op, op.change? = some c → along e s (.began e op s :: events) t

section Beginnings
variable {along : Along} {e : EngineRef} {s t : SessionState} {c : Change} {events : List Event}
  {call : EngineCall}

/-- A change of the stack is not a start of graphics. -/
private theorem not_ready_of_admits (admitted : s.Admits c) (poisoned : Bool)
    (size : SurfaceSize) : .committed e (.graphicsReady size) ∉ s.events e c poisoned := by
  cases c <;> simp_all [SessionState.Admits]

/-- A committed change and the call that tells of it. -/
theorem Scene.Goes.changed {a b : Scene}
    (goes : (a.commit c).Goes (Told call along) b)
    (signal : a.session.state.signal? c = some call) : a.Goes (Changed c along) b := by
  rcases goes.events with ⟨events, trace, poisoned, rest, rfl, moves⟩
  refine ⟨goes.engine, goes.free, _, ?_, poisoned, rest, rfl, moves⟩
  rw [trace]
  simp [Scene.commit, SessionState.events, signal]

/-- A committed change of which the engine is not told. -/
theorem Scene.goes_changed {a : Scene} (free : a.session.locked = false)
    (silent : a.session.state.signal? c = none) : a.Goes (Changed c Course) (a.commit c) := by
  refine ⟨rfl, free, [.committed a.engine c], rfl, false, [], ?_, .nil _⟩
  simp [SessionState.events, silent]

/-- A change and what follows it go along every way that extends courses. -/
theorem Changed.extend (h : Changed c along e s events t) (goesOn : along.Extends)
    (admitted : s.Admits c) : along e s events t := by
  rcases h with ⟨poisoned, rest, rfl, after⟩
  exact goesOn (.move (.stack admitted) (not_ready_of_admits admitted poisoned)) after

/-- A call that tells of no change is a move if it fits the session. -/
theorem Told.extend (h : Told call along e s events t) (goesOn : along.Extends)
    (plain : call.tellsChange = false) (fits : call.Fits s) : along e s events t := by
  rcases h with ⟨poisoned, rest, rfl, after⟩
  exact goesOn (.move (.told plain fits) (by simp)) after

end Beginnings

/-! ## Actions that follow courses -/

namespace Act

variable {α β : Type}

/-- An action that leaves the scene as it is and does not panic. -/
def Still (act : Act α) : Prop :=
  ∀ w : World, act.Ensures w (fun _ v => v.scene = w.scene) fun _ => False

/-- From a world, an action makes the way from a scene to its end a course, or a broken one if it ends
in a panic, in either case of a certain beginning. -/
def Runs (act : Act α) (w : World) (a : Scene) (beginning : Along → Along) : Prop :=
  act.Ensures w (fun _ v => a.Goes (beginning Course) v.scene)
    fun v => a.Goes (beginning BrokenCourse) v.scene

/-- An action that goes along courses from every session state of some kind. -/
def Follows (act : Act α) (start : SessionState → Prop) : Prop :=
  ∀ w : World, w.scene.session.locked = false → start w.scene.session.state → act.Runs w w.scene id

/-- An action that goes along courses once an operation is begun that asks for a change. -/
def Asks (act : Act α) (c : Change) : Prop :=
  ∀ w : World, w.scene.session.locked = false → act.Runs w w.scene (Asked c)

end Act

/-- A way to call the engine in which the engine receives the call, and whatever it does from inside
goes along courses. -/
def Tell.Follows (tell : Tell) : Prop :=
  ∀ (call : EngineCall) (w : World), w.scene.session.locked = false →
    Act.Runs (tell call) w w.scene (Told call)

namespace Act

variable {α β : Type}

/-- What is said of courses of one beginning, broken or not, is said of another. -/
theorem Runs.goes {act : Act α} {w : World} {a b : Scene} {beginning beginning' : Along → Along}
    (h : act.Runs w a beginning)
    (change : ∀ (along : Along) (c : Scene), along.Extends → a.Goes (beginning along) c →
      b.Goes (beginning' along) c) : act.Runs w b beginning' :=
  h.mono (fun _ v => change Course v.scene extends_course)
    fun v => change BrokenCourse v.scene extends_brokenCourse

/-- What follows on a change may be stated in a weaker form. -/
theorem Runs.mono {act : Act α} {w : World} {a : Scene} {beginning beginning' : Along → Along}
    (h : act.Runs w a beginning)
    (weaker : ∀ (along : Along) (events : List Event) (t : SessionState), along.Extends →
      beginning along a.engine a.session.state events t →
      beginning' along a.engine a.session.state events t) : act.Runs w a beginning' :=
  h.goes fun along _ goesOn goes => goes.mono fun events => weaker along events _ goesOn

/-! ### Primitives -/

theorem ensures_acquire (w : World) :
    acquire.Ensures w (fun _ v => v.scene = w.scene.lock true) fun _ => False := rfl

theorem ensures_release (w : World) :
    release.Ensures w (fun _ v => v.scene = w.scene.lock false) fun _ => False := rfl

/-- Once the lock is taken, the session state is read as it was before. -/
theorem ensures_acquire_state {next : SessionState → Act α} {w : World}
    {done : α → World → Prop} {ended : World → Prop}
    (rest : ∀ v : World, v.scene = w.scene.lock true →
      (next w.scene.session.state).Ensures v done ended) :
    (do acquire; next (← state)).Ensures w done ended := by
  apply (ensures_acquire w).andThen
  intro _ v acquired
  have same : v.front.session.state = w.scene.session.state :=
    congrArg (fun a => a.session.state) acquired
  rw [ensures_bind, ensures_state, same]
  exact rest v acquired

/-- Quiet work adds nothing to the trace and touches no session. -/
theorem still_work {part : Work α} (quiet : part.Quiet) : (work part).Still := by
  intro w
  rw [ensures_work]
  -- of a scene, work can change the trace only
  show (⟨w.front.engine, w.front.session, (part w.machine).2.trace⟩ : Scene) = w.scene
  rw [quiet]
  rfl

theorem still_log (level : LogLevel) (message : String) : (log level message).Still :=
  still_work (Work.quiet_log level message)

/-- What is noted about overlays is not about the session. -/
theorem still_note {event : EngineRef → Event} (apart : ∀ e, (event e).ofSession = false) :
    (note event).Still :=
  fun w => still_work (Work.quiet_observe (apart w.front.engine)) w

theorem still_pure (a : α) : (pure a : Act α).Still := fun _ => rfl

theorem still_get : (get : Act World).Still := fun _ => rfl

theorem still_state : state.Still := fun _ => rfl

theorem Still.bind {act : Act β} {next : β → Act α} (first : act.Still)
    (rest : ∀ b, (next b).Still) : (act >>= next).Still := by
  intro w
  apply (first w).andThen
  intro b v same
  rw [← same]
  exact rest b v

/-- An event about a session is added to the scene. -/
theorem ensures_observe {e : Event} (about : e.ofSession = true) (w : World) :
    (work (Work.observe e)).Ensures w (fun _ v => v.scene = w.scene.observe e) fun _ => False := by
  rw [ensures_work]
  show (⟨w.front.engine, w.front.session, (w.machine.timeline ++ [e]).filter Event.ofSession⟩
    : Scene) = w.scene.observe e
  rw [List.filter_append, List.filter_cons_of_pos about]
  rfl

/-- A commit changes the session and adds its event. -/
theorem ensures_commit (c : Change) (w : World) :
    (commit c).Ensures w (fun _ v => v.scene = w.scene.commit c) fun _ => False := by
  unfold commit
  rw [ensures_bind]
  exact ensures_observe rfl _

/-- What is done with the lock held is seen once the lock is free again. -/
theorem ensures_locked (after : α → Scene → Prop) {body : Act α} {w : World}
    (h : ∀ v : World, v.scene = w.scene.lock true →
      body.Ensures v (fun a u => after a (u.scene.lock false)) fun _ => False) :
    (locked body).Ensures w (fun a v => after a v.scene) fun _ => False := by
  apply (ensures_acquire w).andThen
  intro _ v acquired
  apply (h v acquired).andThen
  intro a u done
  apply (ensures_release u).andThen
  intro _ t released
  -- of the body, only what is true once the lock is free again was asked for
  rw [← released] at done
  exact done

/-- A commit under a free lock is the whole of what is done. -/
theorem ensures_locked_commit {w : World} (free : w.scene.session.locked = false) (c : Change) :
    (locked (commit c)).Ensures w (fun _ v => v.scene = w.scene.commit c) fun _ => False := by
  apply ensures_locked (fun _ a => a = w.scene.commit c)
  intro v acquired
  refine (ensures_commit c v).mono (fun _ u committed => ?_) fun _ => id
  rw [committed, acquired]
  exact Scene.lock_false_commit_lock_true free c

/-! ### Putting actions together -/

/-- An action that follows from more states follows from fewer. -/
theorem Follows.mono {act : Act α} {start start' : SessionState → Prop} (h : act.Follows start)
    (stronger : ∀ s, start' s → start s) : act.Follows start' :=
  fun w free hs => h w free (stronger _ hs)

/-- What leaves the scene alone follows the empty course. -/
theorem Still.follows {act : Act α} (h : act.Still) (start : SessionState → Prop) :
    act.Follows start := by
  intro w free _
  refine (h w).mono (fun _ v same => ?_) fun _ false => false.elim
  rw [same]
  exact .refl free

/-- What does not touch the scene can be left out. -/
theorem Still.andThen {act : Act β} {next : β → Act α} {start : SessionState → Prop}
    (first : act.Still) (rest : ∀ b, (next b).Follows start) : (act >>= next).Follows start := by
  intro w free hs
  apply (first w).andThen
  intro b v same
  -- the rest starts in the same scene, where the lock is free and the state of the same kind
  rw [← same] at free hs ⊢
  exact rest b v free hs

/-- Once the session state is read, the rest starts from that state. -/
theorem follows_state {next : SessionState → Act α} {start : SessionState → Prop}
    (rest : ∀ s, start s → (next s).Follows fun t => t = s) : (state >>= next).Follows start := by
  intro w free hs
  exact ensures_bind.2 (rest _ hs w free rfl)

/-- An action that follows may be followed by any that follows from everywhere. -/
theorem Follows.andThen {act : Act β} {next : β → Act α} {start : SessionState → Prop}
    (first : act.Follows start) (rest : ∀ b, (next b).Follows fun _ => True) :
    (act >>= next).Follows start := by
  intro w free hs
  -- where the first part panics, the whole ends along its broken course
  refine (first w free hs).bind (fun b v before => ?_) fun _ broken => broken
  exact (rest b v before.free trivial).goes fun _ _ goesOn after =>
    before.trans after fun _ _ => goesOn

theorem Follows.anywhere {act : Act α} {start : SessionState → Prop}
    (h : act.Follows fun _ => True) : act.Follows start :=
  h.mono fun _ _ => trivial

/-- The result does not matter to the session. -/
theorem Follows.result {act : Act β} {next : β → α} {start : SessionState → Prop}
    (h : act.Follows start) : (act >>= fun b => pure (next b)).Follows start :=
  h.andThen fun b => (still_pure (next b)).follows _

/-- In a choice, each side may rely on what was decided. -/
theorem Follows.ite {c : Prop} [Decidable c] {act other : Act α} {start : SessionState → Prop}
    (yes : c → act.Follows start) (no : ¬ c → other.Follows start) :
    (if c then act else other).Follows start := by
  split
  · exact yes ‹_›
  · exact no ‹_›

end Act

/-- A call that tells of no change has to fit the session it is made in. -/
theorem Tell.Follows.call {tell : Tell} (h : tell.Follows) {call : EngineCall}
    {start : SessionState → Prop} (plain : call.tellsChange = false)
    (fits : ∀ s, start s → call.Fits s) : Act.Follows (tell call) start := by
  intro w free hs
  exact (h call w free).mono fun _ _ _ goesOn told => told.extend goesOn plain (fits _ hs)

/-- A change that is committed is told of, and the engine may then do its part. -/
theorem Tell.Follows.changed {tell : Tell} (h : tell.Follows) {a : Scene} {w : World} {c : Change}
    {call : EngineCall} (free : a.session.locked = false)
    (signal : a.session.state.signal? c = some call) (committed : w.scene = a.commit c) :
    Act.Runs (tell call) w a (Changed c) := by
  have free' : w.scene.session.locked = false := by
    rw [committed]
    exact free
  apply (h call w free').goes
  intro _ _ _ goes
  rw [committed] at goes
  exact goes.changed signal

end EmuFront
