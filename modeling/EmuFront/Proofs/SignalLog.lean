import EmuFront.Proofs.Reached

/-!
# The log of signals

The pauses and resumes that the engine is told of are those that the changes of the session call for,
in the order in which the changes are made. Putting an overlay on calls for a pause, taking the last
one off for a resume if neither the startup nor the host's pause is held, and the host's going to the
background and coming back for a pause and, where nothing else is held, a resume.
-/

namespace EmuFront

/-! ## Signals and what calls for them -/

/-- Whether a call is a pause or a resume. -/
def EngineCall.isSignal : EngineCall → Bool
  | pause _ | resume _ => true
  | _ => false

/-- The pause or resume that the engine is told of in an event. -/
def Event.signal? : Event → Option EngineCall
  | .told _ call _ => if call.isSignal then some call else none
  | _ => none

/-- The operation that is begun in an event. -/
def Event.op? : Event → Option Op
  | .began _ op _ => some op
  | _ => none

/-- The pauses and resumes of a history, in order. -/
def signalsOf (history : List Event) : List EngineCall := history.filterMap Event.signal?

/-- The operations that are begun in a history, in order. -/
def opsOf (history : List Event) : List Op := history.filterMap Event.op?

/-- Whether a change is one of the host and its surface, and not one of the overlay stack. -/
def Change.isHosts : Change → Bool
  | .pushed _ | .removed _ | .dismissableSet _ => false
  | .hostPaused | .hostResumed | .graphicsReady _ | .resized _ => true

namespace SessionState

/-- The signals that a change calls for. Letting go of the startup pause calls for none. -/
def due (s : SessionState) : Change → List EngineCall
  | .pushed _ => [.pause false]
  | .removed o =>
    if (s.remove o.kind).stack = [] ∧ s.run.holds .startup = false ∧ s.run.holds .host = false
    then [.resume false] else []
  | .hostPaused => [.pause true]
  | .hostResumed => if s.run.held = [.host] then [.resume true] else []
  | .dismissableSet _ | .graphicsReady _ | .resized _ => []

/-- The signals that changes call for, each in the state that those before it lead to. -/
def dueAll : SessionState → List Change → List EngineCall
  | _, [] => []
  | s, c :: rest => s.due c ++ (s.apply c).dueAll rest

variable {s : SessionState}

/-- What is due for changes in a row is due for the first, and then for the others from where those
lead. -/
theorem dueAll_append (first rest : List Change) :
    s.dueAll (first ++ rest) = s.dueAll first ++ (s.after first).dueAll rest := by
  induction first generalizing s with
  | nil => rfl
  | cons c first ih =>
    show s.due c ++ (s.apply c).dueAll (first ++ rest) = _
    rw [ih, ← List.append_assoc]
    rfl

end SessionState

/-- The overlay that an operation of the stack takes off on its own. -/
def StackOp.target? (s : SessionState) : StackOp → Option Overlay
  | .pop | .drain => s.top?
  | .popNamed kind => s.find? kind
  | .dismiss kind => (s.find? kind).filter Overlay.isDismissable
  | _ => none

/-- The kind of the overlay that is to be made. -/
def OverlaySpec.kind : OverlaySpec → OverlayKind
  | .splash _ => .splashScreen
  | .mainMenu => .mainMenu
  | .settingsMenu => .settingsMenu
  | .disksMenu _ => .disksMenu
  | .confirm question => question.overlay

/-- An overlay that is made is of the kind that was asked for. -/
theorem OverlaySpec.kind_make (spec : OverlaySpec) (m : Machine) :
    (OverlayStack.make spec m).1.kind = spec.kind := by
  cases spec <;> rfl

/-- What an operation of the overlay stack changes on its own, where it is begun in a session state:
an overlay is put on if none of its kind is showing, and taken off if there is one to take off. -/
def StackOp.Makes (s : SessionState) (c : Option Change) : StackOp → Prop
  | .push spec _ | .present spec =>
    if s.shows spec.kind then c = none
    else ∃ o : Overlay, o.kind = spec.kind ∧ o.bounds = some s.bounds ∧ c = some (.pushed o)
  | .setDismissable value =>
    c = if s.shows .splashScreen then some (.dismissableSet value) else none
  | .tryLock _ => c = none
  | op => c = (op.target? s).map fun o => .removed o.detach

/-! ## Signals of a change -/

namespace RunState

/-- Letting go of a pause for overlays that is held starts the engine if neither of the others is. -/
theorem resumeStarts_overlay {r : RunState} (held : r.overlay = true) :
    r.resumeStarts .overlay = (!r.startup && !r.host) := by
  simp [resumeStarts, isRunning, resume, set, held]

/-- Letting go of the host's pause starts the engine if it is the only one held. -/
theorem resumeStarts_host (r : RunState) : r.resumeStarts .host = decide (r.held = [.host]) := by
  obtain ⟨startup, overlay, host⟩ := r
  cases startup <;> cases overlay <;> cases host <;> rfl

end RunState

namespace SessionState

variable {s : SessionState} {c : Change} {e : EngineRef}

/-- Of the calls that a change makes, the signals are those that the session tells of it. -/
theorem signalsOf_events (s : SessionState) (e : EngineRef) (c : Change) (poisoned : Bool) :
    signalsOf (s.events e c poisoned) = ((s.signal? c).filter EngineCall.isSignal).toList := by
  unfold events
  cases s.signal? c with
  | none => rfl
  | some call => cases call <;> rfl

/-- The engine is told of a change by the signal that is due for it. -/
theorem Sound.signal_due (sound : s.Sound)
    (showing : ∀ o, c = .removed o → s.shows o.kind = true) :
    ((s.signal? c).filter EngineCall.isSignal).toList = s.due c := by
  cases c with
  | pushed | hostPaused | graphicsReady | dismissableSet => rfl
  | removed o =>
    have stack : s.stack ≠ [] := by
      intro empty
      have shows := showing o rfl
      simp [SessionState.shows, empty] at shows
    -- an overlay is showing before, so its pause is held
    have starts := RunState.resumeStarts_overlay (sound.overlay.2 stack)
    rw [due, signal?, starts]
    by_cases last : (s.remove o.kind).stack = [] ∧ s.run.holds .startup = false ∧
        s.run.holds .host = false
    · rw [if_pos last, if_pos (by simpa [RunState.holds] using last)]
      rfl
    · rw [if_neg last, if_neg (by simpa [RunState.holds] using last)]
      rfl
  | hostResumed =>
    have told : s.signal? .hostResumed =
        if s.run.held = [.host] then some (.resume true) else none := by
      simp [signal?, RunState.resumeStarts_host]
    rw [told, due]
    split <;> rfl
  | resized size =>
    rw [signal?]
    split <;> rfl

/-- All that is ever told of a removal is a signal. -/
theorem signals_removed_ne_nil {o : Overlay} (signal : s.signal? (.removed o) ≠ none) :
    ((s.signal? (.removed o)).filter EngineCall.isSignal).toList ≠ [] := by
  rw [signal?] at signal ⊢
  split
  · exact List.cons_ne_nil _ _
  · rename_i silent
    exact absurd (if_neg silent) signal

/-- While the host's pause is held, taking overlays off calls for nothing. -/
theorem dueAll_removals_of_host (stack : List Overlay) (host : s.run.host = true) :
    s.dueAll (stack.map fun o => .removed o.detach) = [] := by
  induction stack generalizing s with
  | nil => rfl
  | cons o rest ih =>
    have nothing : s.due (.removed o.detach) = [] := if_neg (by simp [RunState.holds, host])
    have host' : (s.apply (.removed o.detach)).run.host = true := (host_removed _).trans host
    show s.due (.removed o.detach) ++ (s.apply (.removed o.detach)).dueAll _ = []
    rw [nothing, ih host']
    rfl

end SessionState

/-! ## Signals of a move -/

section Moves
variable {e : EngineRef} {s t : SessionState} {events : List Event} {c : Change}

/-- What an operation asks for by itself is the host's. -/
theorem isHosts_of_asked {op : Op} (asked : op.change? = some c) : c.isHosts = true := by
  cases op with
  | host op =>
    cases op with
    | graphicsReady | graphicsResized | hostPaused | hostResumed =>
      obtain rfl := Option.some.inj asked
      rfl
    | _ => cases asked
  | stack | crash | machine | outside => cases asked

/-- What the overlay stack admits is not. -/
theorem isHosts_of_admits (admitted : s.Admits c) : c.isHosts = false := by
  cases c with
  | pushed | removed | dismissableSet => rfl
  | _ => exact admitted.elim

/-- A change is committed once. -/
theorem changesOf_events (s : SessionState) (e : EngineRef) (c : Change) (poisoned : Bool) :
    changesOf (s.events e c poisoned) = [c] := by
  unfold SessionState.events
  cases s.signal? c <;> rfl

/-- No operation begins with a change. -/
theorem opsOf_events (s : SessionState) (e : EngineRef) (c : Change) (poisoned : Bool) :
    opsOf (s.events e c poisoned) = [] := by
  unfold SessionState.events
  cases s.signal? c <;> rfl

theorem changesOf_began_cons (e : EngineRef) (op : Op) (s : SessionState) (events : List Event) :
    changesOf (.began e op s :: events) = changesOf events := rfl

theorem signalsOf_began_cons (e : EngineRef) (op : Op) (s : SessionState) (events : List Event) :
    signalsOf (.began e op s :: events) = signalsOf events := rfl

theorem opsOf_began_cons (e : EngineRef) (op : Op) (s : SessionState) (events : List Event) :
    opsOf (.began e op s :: events) = op :: opsOf events := rfl

theorem signalsOf_append (first rest : List Event) :
    signalsOf (first ++ rest) = signalsOf first ++ signalsOf rest := List.filterMap_append ..

theorem opsOf_append (first rest : List Event) :
    opsOf (first ++ rest) = opsOf first ++ opsOf rest := List.filterMap_append ..

/-- Committing changes signals nothing and begins no operation. -/
theorem signalsOf_committed (e : EngineRef) (changes : List Change) :
    signalsOf (changes.map (.committed e)) = [] := by
  rw [signalsOf, List.filterMap_map]
  exact List.filterMap_eq_nil_iff.2 fun _ _ => rfl

/-- Changes in a row begin no operation. -/
theorem opsOf_committed (e : EngineRef) (changes : List Change) :
    opsOf (changes.map (.committed e)) = [] := by
  rw [opsOf, List.filterMap_map]
  exact List.filterMap_eq_nil_iff.2 fun _ _ => rfl

/-- Changes in a row are committed in that order. -/
theorem changesOf_committed (e : EngineRef) (changes : List Change) :
    changesOf (changes.map (.committed e)) = changes := by
  rw [changesOf, List.filterMap_map]
  exact List.filterMap_some

/-- In a move the engine is told what is due for the changes that are made. -/
theorem Move.signals (move : Move e s events t) (sound : s.Sound) :
    signalsOf events = s.dueAll (changesOf events) := by
  cases move with
  | began plain => rfl
  | @told call poisoned plain _ =>
    -- a call that tells of no change is neither a pause nor a resume
    cases call <;> first | rfl | cases plain
  | @stack c poisoned admitted =>
    have showing : ∀ o, c = .removed o → s.shows o.kind = true := by
      rintro o rfl
      obtain ⟨shown, found, rfl⟩ := admitted
      exact List.any_eq_true.2 ⟨shown, List.mem_of_find?_eq_some found, by simp⟩
    rw [SessionState.signalsOf_events, changesOf_events, sound.signal_due showing]
    exact (List.append_nil _).symm
  | @host op c poisoned asked foreground =>
    have showing : ∀ o, c = .removed o → s.shows o.kind = true := by
      rintro o rfl
      cases isHosts_of_asked asked
    rw [signalsOf_began_cons, changesOf_began_cons, SessionState.signalsOf_events, changesOf_events,
      sound.signal_due showing]
    exact (List.append_nil _).symm
  | @background op poisoned asked =>
    -- the pause is due for the first change and told after the last, with nothing in between
    have silent : (s.apply .hostPaused).dueAll (s.stack.map fun o => .removed o.detach) = [] :=
      SessionState.dueAll_removals_of_host s.stack rfl
    have due : s.dueAll s.backgrounding = [.pause true] := by
      show [EngineCall.pause true] ++ (s.apply .hostPaused).dueAll _ = _
      rw [silent]
      rfl
    rw [List.cons_append, signalsOf_began_cons, changesOf_began_cons, changesOf_append,
      changesOf_committed, signalsOf_append, signalsOf_committed]
    show [EngineCall.pause true] = s.dueAll (s.backgrounding ++ [])
    rw [List.append_nil, due]

/-- The changes of the host and its surface that are made in a move are those that the operation
begun in it asks for. -/
theorem Move.asked (move : Move e s events t) :
    (changesOf events).filter Change.isHosts = (opsOf events).filterMap Op.change? := by
  cases move with
  | @began op plain =>
    show [] = [op].filterMap Op.change?
    simp [plain]
  | told => rfl
  | @stack c poisoned admitted =>
    rw [changesOf_events, opsOf_events]
    simp [isHosts_of_admits admitted]
  | @host op c poisoned asked foreground =>
    rw [changesOf_began_cons, opsOf_began_cons, changesOf_events, opsOf_events]
    simp [asked, isHosts_of_asked asked]
  | @background op poisoned asked =>
    rw [List.cons_append, changesOf_began_cons, opsOf_began_cons, changesOf_append, opsOf_append,
      changesOf_committed, opsOf_committed]
    have removals : (s.stack.map fun o => Change.removed o.detach).filter Change.isHosts = [] := by
      simp [Change.isHosts]
    show (Change.hostPaused :: ((s.stack.map fun o => Change.removed o.detach) ++ [])).filter
      Change.isHosts = [op].filterMap Op.change?
    rw [List.append_nil, List.filter_cons_of_pos rfl, removals]
    simp [asked]

end Moves

/-! ## Operations of the stack -/

/-- What follows the beginning of an operation of the overlay stack in a session state: what it
changes on its own with the signals due for that, and then what the engine does from inside the
signal. Without a signal nothing more follows. -/
def StackOp.Plays (op : StackOp) (s : SessionState) (events : List Event) : Prop :=
  ∃ (c : Option Change) (own later : List Event), op.Makes s c ∧ events = own ++ later ∧
    changesOf own = c.toList ∧ signalsOf own = s.dueAll c.toList ∧
      (signalsOf own = [] → later = [])

namespace StackOp

open Act OverlayStack

variable {tell : Tell} {w : World} {op : StackOp} {s : SessionState} {a b : Scene} {c : Change}

/-- An operation has been played from one scene to the next. -/
def Played (op : StackOp) (a b : Scene) : Prop :=
  ∃ events, b.trace = a.trace ++ events ∧ op.Plays a.session.state events

/-- An operation that changes nothing is played without events. -/
theorem played_of_same (makes : op.Makes a.session.state none) (same : b.trace = a.trace) :
    op.Played a b := by
  refine ⟨[], ?_, none, [], [], makes, rfl, rfl, rfl, fun _ => rfl⟩
  rw [same, List.append_nil]

/-- A change that is not told of ends the operation. -/
theorem played_of_commit (makes : op.Makes a.session.state (some c))
    (silent : a.session.state.due c = []) (committed : b = a.commit c) : op.Played a b := by
  refine ⟨[.committed a.engine c], ?_, some c, [.committed a.engine c], [], makes, rfl, rfl, ?_,
    fun _ => rfl⟩
  · rw [committed]
    rfl
  · show [] = a.session.state.due c ++ []
    rw [silent]
    rfl

/-- A change that is told of may be followed by anything. -/
theorem played_of_changed {along : Along} (makes : op.Makes a.session.state (some c))
    (told : ((a.session.state.signal? c).filter EngineCall.isSignal).toList
      = a.session.state.due c) (loud : a.session.state.due c ≠ [])
    (goes : a.Goes (Changed c along) b) : op.Played a b := by
  obtain ⟨events, trace, poisoned, rest, rfl, _⟩ := goes.events
  have signals : signalsOf (a.session.state.events a.engine c poisoned) = a.session.state.due c := by
    rw [SessionState.signalsOf_events, told]
  refine ⟨_, trace, some c, _, rest, makes, rfl, changesOf_events .., ?_, ?_⟩
  · rw [signals]
    exact (List.append_nil _).symm
  · intro silent
    rw [signals] at silent
    exact absurd silent loud

/-- A new overlay is of the kind that it was asked for, and is not in the scene yet. -/
theorem ensures_made (spec : OverlaySpec) (w : World) :
    spec.made.Ensures w (fun o v => o.kind = spec.kind ∧ v.scene = w.scene) fun _ => False := by
  have still : spec.made.Still := still_work (Work.quiet_make spec)
  exact ⟨spec.kind_make w.machine, still w⟩

/-- Putting an overlay on, of a kind that is not showing, changes the stack and pauses the engine. -/
theorem played_of_put {along : Along} {o : Overlay} {spec : OverlaySpec}
    (puts : (∃ site, op = .push spec site) ∨ op = .present spec) (kind : o.kind = spec.kind)
    (absent : a.session.state.shows o.kind = false)
    (goes : a.Goes (Changed (pushing a.session.state o) along) b) : op.Played a b := by
  have makes : op.Makes a.session.state (some (pushing a.session.state o)) := by
    rw [kind] at absent
    have put : ∃ p : Overlay, p.kind = spec.kind ∧ p.bounds = some a.session.state.bounds ∧
        some (pushing a.session.state o) = some (.pushed p) :=
      ⟨o.attach a.session.state.bounds, kind, rfl, rfl⟩
    obtain ⟨site, rfl⟩ | rfl := puts <;> exact (if_neg (Bool.eq_false_iff.1 absent)).mpr put
  exact played_of_changed makes rfl (List.cons_ne_nil _ _) goes

/-- Taking an overlay off, if there is one to take off. -/
theorem ensures_played_remove (h : tell.Follows) (free : w.scene.session.locked = false)
    (sound : w.scene.session.state.Sound) {pick : SessionState → Act (Option Overlay)}
    {picked : SessionState → Option Overlay} (picks : Picks pick picked)
    (showing : ∀ o, picked w.scene.session.state = some o →
      w.scene.session.state.shows o.kind = true)
    (makes : op.Makes w.scene.session.state
      ((picked w.scene.session.state).map fun o => .removed o.detach)) :
    (remove tell pick).Ensures w (fun _ v => op.Played w.scene v.scene)
      fun v => op.Played w.scene v.scene := by
  have told : ∀ o, picked w.scene.session.state = some o →
      ((w.scene.session.state.signal? (removal o)).filter EngineCall.isSignal).toList
        = w.scene.session.state.due (removal o) := by
    intro o chosen
    refine sound.signal_due ?_
    rintro _ ⟨rfl⟩
    exact showing o chosen
  have loud : ∀ o, picked w.scene.session.state = some o →
      w.scene.session.state.signal? (removal o) ≠ none →
        w.scene.session.state.due (removal o) ≠ [] := by
    intro o chosen signal
    rw [← told o chosen]
    exact SessionState.signals_removed_ne_nil signal
  refine (ensures_remove h picks free).mono (fun _ v removed => ?_) fun v panicked => ?_
  · have result := removed.2
    cases chosen : picked w.scene.session.state with
    | none =>
      rw [chosen] at result makes
      exact played_of_same makes (congrArg Scene.trace result)
    | some o =>
      rw [chosen] at result makes
      obtain ⟨silent, committed⟩ | ⟨signal, goes⟩ := result
      · have due : w.scene.session.state.due (removal o) = [] := by
          rw [← told o chosen, silent]
          rfl
        exact played_of_commit makes due committed
      · exact played_of_changed makes (told o chosen) (loud o chosen signal) goes
  · obtain ⟨o, chosen, signal, goes⟩ := panicked
    rw [chosen] at makes
    exact played_of_changed makes (told o chosen) (loud o chosen signal) goes

theorem shows_of_find? {kind : OverlayKind} {o : Overlay} (found : s.find? kind = some o) :
    s.shows o.kind = true :=
  List.any_eq_true.2 ⟨o, List.mem_of_find?_eq_some found, decide_eq_true rfl⟩

/-- Showing an overlay puts it on if its kind is not showing, and does no more otherwise. -/
theorem ensures_played_present (h : tell.Follows) (free : w.scene.session.locked = false)
    {spec : OverlaySpec} {o : Overlay} (kind : o.kind = spec.kind) :
    (OverlayStack.present tell o).Ensures w (fun _ v => (present spec).Played w.scene v.scene)
      fun v => (present spec).Played w.scene v.scene := by
  refine (ensures_present h o free).mono (fun _ v result => ?_) fun v panicked => ?_
  · obtain ⟨showing, same⟩ | ⟨absent, goes⟩ := result
    · rw [kind] at showing
      have makes : (present spec).Makes w.scene.session.state none := (if_pos showing).mpr rfl
      exact played_of_same makes (congrArg Scene.trace same)
    · exact played_of_put (.inr rfl) kind absent goes
  · exact played_of_put (.inr rfl) kind panicked.1 panicked.2

/-- A push puts its overlay on, or panics and has done nothing. -/
theorem ensures_played_push (h : tell.Follows) (free : w.scene.session.locked = false)
    {site : PanicSite} {spec : OverlaySpec} {o : Overlay} (kind : o.kind = spec.kind) :
    (OverlayStack.push tell site o).Ensures w (fun _ v => (push spec site).Played w.scene v.scene)
      fun v => (push spec site).Played w.scene v.scene := by
  cases shows : w.scene.session.state.shows o.kind with
  | true =>
    refine (ensures_push_showing free shows).mono (fun _ _ => False.elim) fun v panicked => ?_
    rw [kind] at shows
    have makes : (push spec site).Makes w.scene.session.state none := (if_pos shows).mpr rfl
    exact played_of_same makes (by rw [panicked])
  | false =>
    exact Ensures.mono (runs_push_absent h free shows)
      (fun _ _ => played_of_put (.inl ⟨site, rfl⟩) kind shows)
      fun _ => played_of_put (.inl ⟨site, rfl⟩) kind shows

/-- Closing an overlay on behalf of the user, if it is showing and may be closed. -/
theorem ensures_played_dismiss (h : tell.Follows) (free : w.scene.session.locked = false)
    (sound : w.scene.session.state.Sound) (kind : OverlayKind) :
    (OverlayStack.dismiss tell kind).Ensures w (fun _ v => (dismiss kind).Played w.scene v.scene)
      fun v => (dismiss kind).Played w.scene v.scene := by
  have makes : (dismiss kind).Makes w.scene.session.state
      (((w.scene.session.state.find? kind).filter Overlay.isDismissable).map
        fun o => .removed o.detach) := rfl
  exact ensures_played_remove h free sound (picks_dismiss kind)
    (fun o chosen => shows_of_find? (Option.filter_eq_some_iff.1 chosen).1) makes

/-- Every operation of the stack but the emptying of it, which is removals one after the other, makes
at most one change on its own. -/
theorem ensures_played (h : tell.Follows) (free : w.scene.session.locked = false)
    (sound : w.scene.session.state.Sound) (single : op ≠ .drain) :
    (op.perform tell).Ensures w (fun _ v => op.Played w.scene v.scene)
      fun v => op.Played w.scene v.scene := by
  cases op with
  | push spec site =>
    apply (ensures_made spec w).andThen
    rintro o v ⟨kind, same⟩
    rw [← same] at free ⊢
    exact (ensures_played_push h free kind).bind (fun _ _ played => played) fun _ => id
  | present spec =>
    apply (ensures_made spec w).andThen
    rintro o v ⟨kind, same⟩
    rw [← same] at free ⊢
    exact (ensures_played_present h free kind).bind (fun _ _ played => played) fun _ => id
  | pop =>
    have makes : pop.Makes w.scene.session.state
        (w.scene.session.state.top?.map fun o => .removed o.detach) := rfl
    have removed := ensures_played_remove h free sound picks_pop
      (fun o top => shows_of_find? (find?_of_top? top)) makes
    exact removed.bind (fun _ _ played => played) fun _ => id
  | popNamed kind =>
    have makes : (popNamed kind).Makes w.scene.session.state
        ((w.scene.session.state.find? kind).map fun o => .removed o.detach) := rfl
    have removed := ensures_played_remove h free sound (picks_popNamed kind)
      (fun o found => shows_of_find? found) makes
    exact removed.bind (fun _ _ played => played) fun _ => id
  | dismiss kind =>
    exact (ensures_played_dismiss h free sound kind).bind (fun _ _ played => played) fun _ => id
  | drain => exact absurd rfl single
  | setDismissable value =>
    refine (ensures_setDismissable value free).bind (fun _ v set => ?_) fun _ => False.elim
    show (setDismissable value).Played w.scene v.scene
    cases shows : w.scene.session.state.shows .splashScreen with
    | true =>
      rw [if_pos shows] at set
      exact played_of_commit (if_pos shows).symm rfl set
    | false =>
      rw [if_neg (Bool.eq_false_iff.1 shows)] at set
      exact played_of_same (if_neg (Bool.eq_false_iff.1 shows)).symm (congrArg Scene.trace set)
  | tryLock held =>
    refine (ensures_tryDepth held free).bind (fun _ v same => ?_) fun _ => False.elim
    exact played_of_same rfl (congrArg Scene.trace same)

/-- An operation of the stack is begun and then played, at whatever depth it is performed. -/
theorem plays_perform (depth : Nat) (free : w.front.session.locked = false)
    (sound : w.front.session.state.Sound) (single : op ≠ .drain) :
    ∃ events, ((Op.stack op).perform (tellWithin depth) w).2.machine.trace = w.machine.trace
        ++ .began w.front.engine (.stack op) w.front.session.state :: events ∧
      op.Plays w.front.session.state events := by
  have ended : ((Op.stack op).perform (tellWithin depth)).Ensures w
      (fun _ v => op.Played (w.scene.observe (.began w.scene.engine (.stack op)
        w.scene.session.state)) v.scene)
      fun v => op.Played (w.scene.observe (.began w.scene.engine (.stack op)
        w.scene.session.state)) v.scene := by
    apply Op.ensures_perform
    intro v begun
    have free' : v.scene.session.locked = false := by
      rw [begun]
      exact free
    have sound' : v.scene.session.state.Sound := by
      rw [begun]
      exact sound
    have played := ensures_played (follows_tellWithin depth) free' sound' single
    rw [begun] at played
    exact played
  obtain ⟨events, trace, plays⟩ := ended.after
  refine ⟨events, ?_, plays⟩
  exact trace.trans (List.append_assoc ..)

end StackOp

/-! ## Runs -/

/-- A session state that the changes of a history have led to, of which the engine was told as was
due. -/
structure SessionState.Logged (history : List Event) (s : SessionState) : Prop where
  sound : s.Sound
  signals : signalsOf history = new.dueAll (changesOf history)
  changes : s = .after .new (changesOf history)
  asked : (changesOf history).filter Change.isHosts = (opsOf history).filterMap Op.change?

namespace SessionState.Logged

variable {e : EngineRef} {history events : List Event} {s t : SessionState}

/-- A move leaves the log as it is to be. -/
theorem step (logged : s.Logged history) (move : Move e s events t) :
    t.Logged (history ++ events) where
  sound := move.moves.sound logged.sound
  signals := by
    rw [signalsOf_append, changesOf_append, dueAll_append, logged.signals, move.signals logged.sound,
      ← logged.changes]
  changes := by
    rw [move.takesAll.2, changesOf_append]
    conv => lhs; rw [logged.changes]
    exact List.foldl_append.symm
  asked := by
    rw [changesOf_append, opsOf_append, List.filter_append, List.filterMap_append, logged.asked,
      move.asked]

/-- So do moves in a row, by induction. -/
theorem moves (logged : s.Logged history) (moves : Moves e s events t) :
    t.Logged (history ++ events) :=
  moves.invariant (motive := fun history s => s.Logged history)
    (fun _ _ _ _ logged move => logged.step move) logged

end SessionState.Logged

namespace Run

/-- The engine is told of pauses and resumes exactly as the changes of the session call for them, and
in their order. The session is what those changes have made it, the changes of the host and its
surface are those that the operations begun ask for, and an operation of the overlay stack, however
deep inside a call of the engine, makes the change that is its own, if any, and is told of before
anything else happens. -/
theorem signals_eq_due (r : Run) :
    signalsOf r.trace = SessionState.new.dueAll (changesOf r.trace) ∧
      r.state = .after .new (changesOf r.trace) ∧
      (changesOf r.trace).filter Change.isHosts = (opsOf r.trace).filterMap Op.change? ∧
      ∀ (op : StackOp) (depth : Nat) (w : World), op ≠ .drain →
        w.front.session.locked = false → w.front.session.state.Sound →
        ∃ events, ((Op.stack op).perform (tellWithin depth) w).2.machine.trace = w.machine.trace
            ++ .began w.front.engine (.stack op) w.front.session.state :: events ∧
          op.Plays w.front.session.state events := by
  have start : SessionState.new.Logged [] := ⟨SessionState.sound_new, rfl, rfl, rfl⟩
  have logged : r.state.Logged r.trace := start.moves r.moves
  exact ⟨logged.signals, logged.changes, logged.asked, fun _ depth _ single free sound =>
    StackOp.plays_perform depth free sound single⟩

/-- A run in which the engine, told to resume, goes through the main menu and is refused a second
one, and the host comes back twice. -/
def awayAndBack : Run where
  machine := default
  config := .new ⟨"data"⟩
  reactions := [⟨.resume, [.host .showMainMenu, .stack (.present .mainMenu),
    .stack (.popNamed .settingsMenu), .host .back]⟩]
  ops := [.host (.graphicsReady 800 480), .stack .pop, .host .hostPaused, .host .hostResumed,
    .host .hostResumed]

/-- What was refused, found nothing or let go of nothing is not among the signals, and a main menu
that is put on after the run plays its part. -/
theorem signals_eq_due_awayAndBack :
    signalsOf awayAndBack.trace = [.pause false, .resume false, .pause false, .resume false,
        .pause true, .resume true] ∧
      awayAndBack.final.front.session.locked = false ∧
      awayAndBack.final.front.session.state.Sound ∧
      ∃ events, (StackOp.push .mainMenu .unknown).Plays awayAndBack.state events := by
  obtain ⟨signals, -, -, plays⟩ := awayAndBack.signals_eq_due
  have free : awayAndBack.final.front.session.locked = false := by decide +kernel
  have sound : awayAndBack.final.front.session.state.Sound := Reaches.final.sound
  obtain ⟨events, -, played⟩ := plays (.push .mainMenu .unknown) 0 awayAndBack.final nofun free sound
  refine ⟨?_, free, sound, events, played⟩
  rw [signals]
  decide +kernel

end Run
end EmuFront
