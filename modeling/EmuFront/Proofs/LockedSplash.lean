import EmuFront.Proofs.OverlayPassage
import EmuFront.Proofs.SparedSplash

/-!
# Splash screens that stay

A splash screen that is not dismissable stays where it is among the overlays, and keeps the engine
paused, for as long as no operation is begun that may free it.
-/

namespace EmuFront

open List

/-! ## Where the splash screen sits -/

namespace SessionState

/-- The overlays over another and under it differ from it in kind. -/
theorem Sound.kind_ne {s : SessionState} (sound : s.Sound) {atop under : List Overlay} {o : Overlay}
    (whole : s.stack = atop ++ o :: under) : ∀ p ∈ atop ++ under, p.kind ≠ o.kind := by
  have kinds := sound.kinds
  rw [whole, map_append, map_cons, nodup_middle, ← map_append, nodup_cons] at kinds
  exact fun p member same => kinds.1 (same ▸ mem_map_of_mem member)

variable {s t : SessionState} {c : Change} {id : Nat} {above below : List Overlay}

/-- A splash screen that is not dismissable sits on the stack under its number. But for their bounds,
the overlays over it are some of certain ones, in their order, and so are those under it. -/
def Sits (s : SessionState) (id : Nat) (above below : List Overlay) : Prop :=
  ∃ atop splash under, s.stack = atop ++ splash :: under ∧
    splash.id = id ∧ splash.content = .splash false ∧
    atop.map Overlay.detach <+ above.map Overlay.detach ∧
    under.map Overlay.detach <+ below.map Overlay.detach

namespace Sits

/-- Overlays may be changed in ways that keep a splash screen what it is and others but for their
bounds. -/
theorem of_map (sits : s.Sits id above below) (sound : s.Sound) {f : Overlay → Overlay}
    (stack : t.stack = s.stack.map f)
    (splash : ∀ o : Overlay, o.content = .splash false →
      (f o).id = o.id ∧ (f o).content = .splash false)
    (others : ∀ o : Overlay, o.kind ≠ .splashScreen → (f o).detach = o.detach) :
    t.Sits id above below := by
  obtain ⟨atop, screen, under, whole, number, content, higher, lower⟩ := sits
  obtain ⟨same, still⟩ := splash screen content
  have kind : screen.kind = .splashScreen := congrArg OverlayContent.kind content
  have kept : ∀ overlays : List Overlay, overlays ⊆ atop ++ under →
      (overlays.map f).map Overlay.detach = overlays.map Overlay.detach := by
    intro overlays some
    rw [map_map]
    exact map_congr_left fun o member => others o (kind ▸ sound.kind_ne whole o (some member))
  refine ⟨atop.map f, f screen, under.map f, ?_, same.trans number, still, ?_, ?_⟩
  · rw [stack, whole, map_append, map_cons]
  · rw [kept atop (subset_append_left _ _)]
    exact higher
  · rw [kept under (subset_append_right _ _)]
    exact lower

/-- A change that does not touch the stack leaves the splash screen where it is. -/
theorem of_stack_eq (sits : s.Sits id above below) (stack : t.stack = s.stack) :
    t.Sits id above below := by
  obtain ⟨atop, screen, under, whole, rest⟩ := sits
  exact ⟨atop, screen, under, stack.trans whole, rest⟩

theorem pushed (sits : s.Sits id above below) (o : Overlay) :
    (s.apply (.pushed o)).Sits id (o :: above) below := by
  obtain ⟨atop, screen, under, whole, number, content, higher, lower⟩ := sits
  refine ⟨o :: atop, screen, under, ?_, number, content, higher.cons_cons o.detach, lower⟩
  show o :: s.stack = _
  rw [whole, cons_append]

/-- An overlay of another kind is taken off from above the splash screen or from below it. -/
theorem removed (sits : s.Sits id above below) (sound : s.Sound) {o : Overlay}
    (spared : s.Spares (.removed o)) : (s.apply (.removed o)).Sits id above below := by
  obtain ⟨atop, screen, under, whole, number, content, higher, lower⟩ := sits
  have kind : screen.kind = .splashScreen := congrArg OverlayContent.kind content
  have other : screen.kind ≠ o.kind := by
    intro same
    -- it would be the splash screen that is found, and that is not dismissable
    have found : s.find? screen.kind = some screen :=
      sound.find?_of_mem (whole ▸ mem_append_right _ mem_cons_self)
    rw [kind] at found
    have closable := spared (same.symm.trans kind) screen found
    rw [Overlay.isDismissable, content] at closable
    cases closable
  have left : (s.apply (.removed o)).stack =
      (atop ++ screen :: under).eraseP fun p => decide (p.kind = o.kind) := by
    rw [← whole]
    rfl
  by_cases among : ∃ p ∈ atop, p.kind = o.kind
  · obtain ⟨p, member, same⟩ := among
    refine ⟨atop.eraseP fun p => decide (p.kind = o.kind), screen, under, ?_, number, content,
      (eraseP_sublist.map _).trans higher, lower⟩
    rw [left, eraseP_append_left (by simpa using same) _ member]
  · refine ⟨atop, screen, under.eraseP fun p => decide (p.kind = o.kind), ?_, number, content,
      higher, (eraseP_sublist.map _).trans lower⟩
    have none : ∀ p ∈ atop, ¬ decide (p.kind = o.kind) = true := by
      intro p member same
      exact among ⟨p, member, of_decide_eq_true same⟩
    rw [left, eraseP_append_right _ none, eraseP_cons_of_neg (by simpa using other)]

theorem apply (sits : s.Sits id above below) (sound : s.Sound) (spared : s.Spares c) :
    (s.apply c).Sits id (c.putOn?.toList ++ above) below := by
  cases c with
  | pushed o => exact sits.pushed o
  | removed o => exact sits.removed sound spared
  | dismissableSet value =>
    obtain rfl : value = false := spared
    refine sits.of_map sound (f := fun o => o.setDismissable false) rfl (fun o content => ?_)
      fun o other => ?_
    · refine ⟨o.id_setDismissable false, ?_⟩
      rw [o.content_setDismissable, content]
      rfl
    · obtain ⟨id, content, bounds⟩ := o
      cases content with
      | splash dismissable => exact absurd rfl other
      | mainMenu | settingsMenu | disksMenu | confirm => rfl
  | hostPaused | hostResumed | graphicsReady => exact sits.of_stack_eq rfl
  | resized size =>
    cases ready : s.graphicsReady with
    | true =>
      refine sits.of_map sound (f := fun o => o.attach size) ?_ (fun _ same => ⟨rfl, same⟩)
        fun _ _ => rfl
      simp [SessionState.apply, ready]
    | false => exact sits.of_stack_eq (by simp [SessionState.apply, ready])

/-- Over changes that spare it, the splash screen stays where it is: what is put on comes above it. -/
theorem after {changes : List Change} (sits : s.Sits id above below) (sound : s.Sound)
    (taken : s.TakesAll changes) (spared : s.SparesAll changes) :
    (s.after changes).Sits id ((changes.filterMap Change.putOn?).reverse ++ above) below := by
  induction changes generalizing s above with
  | nil => exact sits
  | cons c rest ih =>
    have first := sits.apply sound spared.1
    have later := ih first (sound.apply taken.1) taken.2 spared.2
    have same : ((c :: rest).filterMap Change.putOn?).reverse =
        (rest.filterMap Change.putOn?).reverse ++ c.putOn?.toList := by
      cases c <;> simp [filterMap_cons, Change.putOn?]
    rw [same, append_assoc]
    exact later

end Sits
end SessionState

/-! ## Over moves -/

namespace Moves

variable {e : EngineRef} {s t : SessionState} {before rest : List Event} {id : Nat}
  {above below : List Overlay}

/-- What the engine can see when it is called is where the changes before have led. -/
theorem seen_eq {e' : EngineRef} {call : EngineCall} {seen : Session}
    (moves : Moves e s (before ++ .told e' call seen :: rest) t) (sound : s.Sound) :
    seen.state = s.after (changesOf before) := by
  have called := (moves.at_call sound rfl).1.takesAll.2
  rw [changesOf_append] at called
  exact called.trans (congrArg s.after (append_nil _))

/-- Until an operation is begun that may free the splash screen, it stays where it is, and what is put
on comes above it. -/
theorem sits (moves : Moves e s (before ++ rest) t) (sound : s.Sound)
    (spared : s.SparesAll (changesOf ((before ++ rest).takeWhile Event.isCalm)))
    (calm : ∀ op ∈ opsOf before, op.freesSplash = false) (sits : s.Sits id above below) :
    (s.after (changesOf before)).Sits id ((acceptedOf before).reverse ++ above) below := by
  have calm' : ∀ e ∈ before, e.isCalm = true := by
    intro e member
    cases e with
    | began e op u =>
      have begun : op ∈ opsOf before := mem_filterMap.2 ⟨_, member, rfl⟩
      rw [Event.isCalm, calm op begun]
      rfl
    | _ => rfl
  rw [takeWhile_append_of_pos calm', changesOf_append, SessionState.sparesAll_append] at spared
  have taken := moves.takesAll.1
  rw [changesOf_append, SessionState.takesAll_append] at taken
  exact sits.after sound taken.1 spared.1

/-- Where the splash screen sits the engine is not told to resume, since it is told so without
overlays only. -/
theorem not_resumed (moves : Moves e s (before ++ rest) t) (sound : s.Sound)
    (spared : s.SparesAll (changesOf ((before ++ rest).takeWhile Event.isCalm)))
    (calm : ∀ op ∈ opsOf before, op.freesSplash = false) (sits : s.Sits id above below)
    (host : Bool) : .resume host ∉ signalsOf before := by
  intro told
  obtain ⟨x, member, signal⟩ := mem_filterMap.1 told
  cases x with
  | told e' call seen =>
    have resume : call = .resume host := by
      rw [Event.signal?] at signal
      split at signal
      · exact Option.some.inj signal
      · cases signal
    subst resume
    obtain ⟨earlier, later, rfl⟩ := append_of_mem member
    rw [append_assoc, cons_append] at moves spared
    have calm' : ∀ op ∈ opsOf earlier, op.freesSplash = false := by
      intro op begun
      refine calm op ?_
      rw [opsOf_append]
      exact mem_append_left _ begun
    obtain ⟨atop, screen, under, showing, -⟩ := moves.sits sound spared calm' sits
    obtain ⟨-, -, fits⟩ := moves.at_call sound rfl
    rw [← moves.seen_eq sound, fits.2] at showing
    exact append_ne_nil_of_right_ne_nil _ (cons_ne_nil _ _) showing.symm
  | _ => cases signal

end Moves

/-! ## From scene to scene -/

namespace Scene

variable {a b : Scene}

/-- Over what happens from one scene to another, a splash screen that is not dismissable stays. -/
structure KeepsSplash (a b : Scene) (added : List Event) : Prop where
  trace : b.trace = a.trace ++ added
  state : b.session.state = a.session.state.after (changesOf added)
  /-- What the engine can see when it is called is where the changes before have led. -/
  seen : ∀ {before rest : List Event} {e : EngineRef} {call : EngineCall} {seen : Session},
    added = before ++ .told e call seen :: rest →
      seen.state = a.session.state.after (changesOf before)
  /-- At each moment until an operation is begun that may free it, the splash screen has its number,
  is not dismissable, and sits above what is left of the overlays below it, and below what is left of
  those above it and of what was put on since. -/
  sits : ∀ {before rest : List Event}, added = before ++ rest →
    (∀ op ∈ opsOf before, op.freesSplash = false) →
    ∀ {above below : List Overlay} {splash : Overlay},
      a.session.state.stack = above ++ splash :: below → splash.content = .splash false →
      (a.session.state.after (changesOf before)).Sits splash.id
        ((acceptedOf before).reverse ++ above) below
  /-- The overlay pause is held meanwhile, and the engine is not told to resume. -/
  paused : ∀ {before rest : List Event}, added = before ++ rest →
    (∀ op ∈ opsOf before, op.freesSplash = false) →
    ∀ {above below : List Overlay} {splash : Overlay},
      a.session.state.stack = above ++ splash :: below → splash.content = .splash false →
      (a.session.state.after (changesOf before)).run.holds .overlay = true ∧
        ∀ host, .resume host ∉ signalsOf before

/-- The session goes along moves, whose changes spare the splash screen. -/
theorem Spares.keepsSplash {e : EngineRef} {added : List Event} (spares : a.Spares True b)
    (sound : a.session.state.Sound) (trace : b.trace = a.trace ++ added)
    (moves : Moves e a.session.state added b.session.state) : a.KeepsSplash b added := by
  obtain ⟨events, trace', -, spared⟩ := spares
  obtain rfl : added = events := append_cancel_left (trace.symm.trans trace')
  have start : ∀ {above below : List Overlay} {splash : Overlay},
      a.session.state.stack = above ++ splash :: below → splash.content = .splash false →
      a.session.state.Sits splash.id above below :=
    fun stack locked => ⟨_, _, _, stack, rfl, locked, .refl _, .refl _⟩
  refine ⟨trace, moves.takesAll.2, ?_, ?_, ?_⟩
  · rintro before rest e call seen rfl
    exact moves.seen_eq sound
  · rintro before rest rfl calm above below splash stack locked
    exact moves.sits sound (spared trivial) calm (start stack locked)
  · rintro before rest rfl calm above below splash stack locked
    refine ⟨?_, moves.not_resumed sound (spared trivial) calm (start stack locked)⟩
    have taken := moves.takesAll.1
    rw [changesOf_append, SessionState.takesAll_append] at taken
    refine (sound.after taken.1).overlay.2 ?_
    obtain ⟨atop, screen, under, whole, -⟩ :=
      moves.sits sound (spared trivial) calm (start stack locked)
    rw [whole]
    exact append_ne_nil_of_right_ne_nil _ (cons_ne_nil _ _)

end Scene

/-! ## Over operations -/

/-- Operations of the host one after the other make moves. -/
theorem Op.moves_runAll (ops : List Op) {w : World} (free : w.front.session.locked = false) :
    ∃ added, (runAll ops w).2.scene.trace = w.scene.trace ++ added ∧
      Moves w.scene.engine w.scene.session.state added (runAll ops w).2.scene.session.state := by
  have goesOn : ∀ {history events : List Event} {s t : SessionState},
      (∃ added, history = w.scene.trace ++ added ∧
        Moves w.scene.engine w.scene.session.state added s) →
      Moves w.scene.engine s events t →
      ∃ added, history ++ events = w.scene.trace ++ added ∧
        Moves w.scene.engine w.scene.session.state added t := by
    rintro history events s t ⟨added, rfl, moves⟩ rest
    exact ⟨added ++ events, append_assoc .., moves.append rest⟩
  exact runAll_invariant (motive := fun history t => ∃ added, history = w.scene.trace ++ added ∧
      Moves w.scene.engine w.scene.session.state added t)
    (fun _ _ _ _ before course => goesOn before course.moves)
    (fun _ _ _ _ before course => goesOn before course.moves) ops rfl free
    ⟨[], (append_nil _).symm, .nil _⟩

/-- Operations that the engine performs from inside a call make moves, up to their end or to a
panic. -/
theorem Op.moves_performAll (depth : Nat) (ops : List Op) {w : World}
    (free : w.front.session.locked = false) :
    (performAll (tellWithin depth) ops).Ensures w
      (fun _ v => ∃ added, v.scene.trace = w.scene.trace ++ added ∧
        Moves w.scene.engine w.scene.session.state added v.scene.session.state)
      fun v => ∃ added, v.scene.trace = w.scene.trace ++ added ∧
        Moves w.scene.engine w.scene.session.state added v.scene.session.state := by
  refine Act.Ensures.mono (follows_performAll (follows_tellWithin depth) ops w free trivial)
    (fun _ v goes => ?_) fun v goes => ?_
  · obtain ⟨added, trace, course⟩ := goes.events
    exact ⟨added, trace, course.moves⟩
  · obtain ⟨added, trace, course⟩ := goes.events
    exact ⟨added, trace, course.moves⟩

namespace Run

/-- From any session state that a run comes by, whatever the host does next, and whatever the engine
does from inside a call, however that ends: A splash screen that is not dismissable stays, with its
number and in its order, and keeps the engine paused, until an operation is begun that may free it. -/
theorem locked_splash_stays (r : Run) {history : List Event} {s : SessionState}
    (reaches : r.Reaches history s) (w : World) (state : w.front.session.state = s)
    (free : w.front.session.locked = false) (ops : List Op) :
    (∃ added, w.scene.KeepsSplash (Op.runAll ops w).2.scene added) ∧
    ∀ depth, (Op.performAll (tellWithin depth) ops).Ensures w
      (fun _ v => ∃ added, w.scene.KeepsSplash v.scene added)
      fun v => ∃ added, w.scene.KeepsSplash v.scene added := by
  subst state
  have sound : w.scene.session.state.Sound := reaches.sound
  constructor
  · obtain ⟨added, trace, moves⟩ := Op.moves_runAll ops free
    exact ⟨added, (Op.spares_runAll ops w).keepsSplash sound trace moves⟩
  · intro depth
    have spares : (Op.performAll (tellWithin depth) ops).Spares True :=
      Op.spares_performAll (spares_tellWithin depth) ops
    refine ((spares w).and (Op.moves_performAll depth ops free)).mono ?_ ?_
    · rintro - v ⟨spared, added, trace, moves⟩
      exact ⟨added, spared.keepsSplash sound trace moves⟩
    · rintro v ⟨spared, added, trace, moves⟩
      exact ⟨added, spared.keepsSplash sound trace moves⟩

/-- A run that leaves a splash screen that is not dismissable over the main menu. -/
def splashOverMenu : Run where
  machine := default
  config := .new ⟨"data"⟩
  reactions := [⟨.reboot, [.host .back, .stack (.dismiss .splashScreen)]⟩]
  ops := [.host .showMainMenu, .host (.graphicsReady 800 480), .stack (.setDismissable false)]

/-- What the host may try to be rid of the splash screen. -/
def unavailing : List Op :=
  [.host .back, .host (.keyUp 4 0), .host (.pressSplash .start), .stack (.dismiss .splashScreen),
    .host .maybeReboot, .host (.confirm .reboot true), .host .showSettings, .host .hostResumed]

/-- The session state after the host has tried. -/
def stuck : SessionState := (Op.runAll unavailing splashOverMenu.final).2.scene.session.state

/-- The settings are above the splash screen in the end, while the main menu and the prompt are gone.
The splash screen is gone as well once an overlay is taken off from the top, or it by its kind, or
all, or the host goes to the background. -/
theorem locked_splash_stays_splashOverMenu :
    stuck.Sits 2 [⟨4, .settingsMenu, some ⟨800, 480⟩⟩, ⟨3, .confirm .reboot, some ⟨800, 480⟩⟩]
      [⟨1, .mainMenu, some ⟨0, 0⟩⟩] ∧
    stuck.run.holds .overlay = true ∧
    stuck.stack.map Overlay.kind = [.settingsMenu, .splashScreen] ∧
    ∀ op : Op, op ∈ [.stack .pop, .stack (.popNamed .splashScreen), .stack .drain,
        .host .hostPaused] →
      (op.run splashOverMenu.final).2.front.session.state.shows .splashScreen = false := by
  have free : splashOverMenu.final.front.session.locked = false := by decide +kernel
  have stack : splashOverMenu.final.scene.session.state.stack =
      [] ++ ⟨2, .splash false, some ⟨800, 480⟩⟩ :: [⟨1, .mainMenu, some ⟨0, 0⟩⟩] := by
    decide +kernel
  obtain ⟨added, keeps⟩ := (locked_splash_stays splashOverMenu .final _ rfl free unavailing).1
  have known : (∀ op ∈ opsOf added, op.freesSplash = false) ∧ acceptedOf added =
      [⟨3, .confirm .reboot, some ⟨800, 480⟩⟩, ⟨4, .settingsMenu, some ⟨800, 480⟩⟩] := by
    have rest : added = (Op.runAll unavailing splashOverMenu.final).2.scene.trace.drop
        splashOverMenu.final.scene.trace.length := by rw [keeps.trace, drop_left]
    rw [rest]
    decide +kernel
  have state : splashOverMenu.final.scene.session.state.after (changesOf added) = stuck := by
    rw [stuck, keeps.state]
  have whole : added = added ++ [] := (append_nil _).symm
  have sits := keeps.sits whole known.1 stack rfl
  have paused := (keeps.paused whole known.1 stack rfl).1
  rw [state, known.2] at sits
  rw [state] at paused
  exact ⟨sits, paused, by decide +kernel, by decide +kernel⟩

end Run
end EmuFront
