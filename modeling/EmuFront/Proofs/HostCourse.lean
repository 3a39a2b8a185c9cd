import EmuFront.Proofs.StackCourse

/-!
# Courses of the host's operations

What the operations of the host's lifecycle and user interface do to a session. Four of them ask for
a change by themselves (`Asked`); the others work the overlay stack or call the engine, and then what
they have read of the session says that the call fits.
-/

namespace EmuFront

section Asking
variable {along : Along} {e : EngineRef} {s t u : SessionState} {c : Change}
  {events rest : List Event}

/-- A change that is neither a start of graphics nor the host's going to the background. -/
def Change.IsPlain (c : Change) : Prop := c ≠ .hostPaused ∧ ∀ size, c ≠ .graphicsReady size

/-- The change that an operation asks for is a course of its own. -/
private theorem course_began {op : Op} (asked : op.change? = some c) (plain : c.IsPlain)
    (poisoned : Bool) : Course e s (.began e op s :: s.events e c poisoned) (s.apply c) := by
  refine .move (.host asked plain.1) fun size member => plain.2 size ?_
  simpa [eq_comm] using member

/-- What follows on a plain change is the way of any operation that asks for it. -/
theorem Changed.asked (h : Changed c along e s events t) (goesOn : along.Extends)
    (plain : c.IsPlain) : Asked c along e s events t := by
  intro op asked
  rcases h with ⟨poisoned, rest, rfl, after⟩
  exact goesOn (course_began asked plain poisoned) after

/-- Graphics are ready, and the splash screen is showing by then. -/
theorem Changed.ready {size : SurfaceSize} (h : Changed (.graphicsReady size) Course e s events t)
    (showing : t.shows .splashScreen = true) :
    Asked (.graphicsReady size) Course e s events t := by
  intro op asked
  rcases h with ⟨poisoned, inner, rfl, within⟩
  exact .ready asked within showing

/-- Graphics are ready, and the splash screen is put on. -/
theorem Changed.readyWithSplash {size : SurfaceSize} {splash : Overlay}
    (h : Changed (.graphicsReady size) Course e s events t) (admitted : t.Admits (.pushed splash))
    (shown : Changed (.pushed splash) Course e t rest u) :
    Asked (.graphicsReady size) Course e s (events ++ rest) u := by
  intro op asked
  rcases h with ⟨poisoned, inner, rfl, within⟩
  rcases shown with ⟨again, tail, rfl, after⟩
  -- what the engine did from inside the call comes before the splash screen
  have course : Course e s (.began e op s :: s.events e (.graphicsReady size) poisoned ++ inner
      ++ t.events e (.pushed splash) again ++ tail) u :=
    .readyWithSplash asked within admitted after
  simpa only [List.append_assoc, List.cons_append] using course

/-- A panic strikes while the engine is told that graphics are ready. -/
theorem Changed.readyBroken {size : SurfaceSize}
    (h : Changed (.graphicsReady size) BrokenCourse e s events t) :
    Asked (.graphicsReady size) BrokenCourse e s events t := by
  intro op asked
  rcases h with ⟨poisoned, inner, rfl, within⟩
  exact .ready asked within

/-- A panic strikes while the splash screen is put on. -/
theorem Changed.readyThenBroken {size : SurfaceSize}
    (h : Changed (.graphicsReady size) Course e s events t) (after : BrokenCourse e t rest u) :
    Asked (.graphicsReady size) BrokenCourse e s (events ++ rest) u := by
  intro op asked
  rcases h with ⟨poisoned, inner, rfl, within⟩
  have course : BrokenCourse e s
      (.began e op s :: s.events e (.graphicsReady size) poisoned ++ (inner ++ rest)) u :=
    .ready asked (.append within after)
  simpa only [List.append_assoc, List.cons_append] using course

/-- The host goes to the background before the engine is told. -/
private theorem course_background {op : Op} (asked : op.change? = some .hostPaused)
    (poisoned : Bool) :
    Course e s (.began e op s :: s.backgrounding.map (.committed e)
      ++ [.told e (.pause true) ⟨s.after s.backgrounding, false, poisoned⟩])
      (s.after s.backgrounding) :=
  .move (.background asked) (by simp [SessionState.backgrounding])

/-- The host is in the background, with no overlay showing, when the engine is told. -/
theorem Told.background (h : Told (.pause true) along e (s.after s.backgrounding) events t)
    (goesOn : along.Extends) :
    Asked .hostPaused along e s (s.backgrounding.map (.committed e) ++ events) t := by
  intro op asked
  rcases h with ⟨poisoned, rest, rfl, after⟩
  have course := goesOn (course_background asked poisoned) after
  simpa only [List.append_assoc, List.cons_append, List.nil_append] using course

end Asking

/-- What is answered does not matter to the session. -/
theorem Act.Asks.result {α β : Type} {act : Act β} {c : Change} (h : act.Asks c) (a : α) :
    (act >>= fun _ => pure a).Asks c :=
  fun w free => (h w free).bind (fun _ _ goes => goes) fun _ goes => goes

namespace FrontEnd

open Act

variable {tell : Tell} {w : World}

/-! ## Lifecycle -/

/-- Creating a front end changes no session; the engine may then do as it likes. -/
theorem follows_create {ε : Type} (h : tell.Follows) {setUp : Path → Work (Except ε Unit)}
    (quiet : ∀ directory, (setUp directory).Quiet) : (create tell setUp).Follows fun _ => True := by
  apply still_get.andThen
  intro w
  apply (still_work (Work.quiet_install _)).andThen
  intro _
  apply (still_work (Work.quiet_ensureConfigured quiet)).andThen
  intro result
  split
  · exact (still_pure _).follows _
  · apply (still_log _ _).andThen
    intro _
    have created : (tell (.create w.front.config.dataDir w.front.config.audio)).Follows
        fun _ => True := h.call rfl fun _ _ => trivial
    exact created.result

theorem follows_showNew (h : tell.Follows) (spec : OverlaySpec) :
    (showNew tell spec).Follows fun _ => True :=
  (still_work (Work.quiet_make spec)).andThen fun o => OverlayStack.follows_present h o

/-- The splash screen is showing, or it is put on. -/
theorem ensures_showSplash (h : tell.Follows) (free : w.scene.session.locked = false) :
    (showSplash tell).Ensures w
      (fun _ v => w.scene.session.state.shows .splashScreen = true ∧ v.scene = w.scene ∨
        ∃ splash, w.scene.session.state.Admits (.pushed splash) ∧
          w.scene.Goes (Changed (.pushed splash) Course) v.scene)
      fun v => ∃ splash, w.scene.session.state.Admits (.pushed splash) ∧
        w.scene.Goes (Changed (.pushed splash) BrokenCourse) v.scene := by
  have made : (work (OverlayStack.make (.splash true))).Ensures w
      (fun o v => o.kind = .splashScreen ∧ v.scene = w.scene) fun _ => False :=
    ⟨rfl, rfl⟩
  apply made.andThen
  intro o v made
  rcases made with ⟨kind, same⟩
  rw [← same] at free ⊢
  refine (OverlayStack.ensures_present h o free).mono (fun _ u result => ?_) fun u panicked => ?_
  · rcases result with ⟨showing, still⟩ | ⟨absent, goes⟩
    · rw [kind] at showing
      exact .inl ⟨showing, still⟩
    · exact .inr ⟨_, OverlayStack.admits_pushing absent, goes⟩
  · rcases panicked with ⟨absent, goes⟩
    exact ⟨_, OverlayStack.admits_pushing absent, goes⟩

/-- The surface is committed, and after the engine was told the splash screen is put on. -/
theorem asks_graphicsReady (h : tell.Follows) (width height : Int32) :
    (graphicsReady tell width height).Asks (.graphicsReady (.landscape width height)) := by
  intro w free
  apply (ensures_locked_commit free _).andThen
  intro _ v committed
  apply (still_log _ _ v).andThen
  intro _ u logged
  rw [committed] at logged
  have told := h.changed free rfl logged
  refine told.bind (fun _ t ready => ?_) fun t broken => broken.mono fun _ => Changed.readyBroken
  -- by now the engine has done its part, which may have shown the splash screen already
  refine (ensures_showSplash h ready.free).bind (fun _ r result => ?_) fun r panicked => ?_
  · rcases result with ⟨showing, same⟩ | ⟨splash, admitted, goes⟩
    · show w.scene.Goes (Asked _ Course) r.scene
      rw [same]
      exact ready.mono fun _ moves => moves.ready showing
    · exact ready.trans goes fun _ _ first => first.readyWithSplash admitted
  · -- the engine panicked when it was told of the splash screen
    rcases panicked with ⟨splash, admitted, goes⟩
    exact ready.trans goes fun _ _ first broken =>
      first.readyThenBroken (broken.extend extends_brokenCourse admitted)

/-- The new size is committed, and the engine is told if graphics are ready. -/
theorem asks_graphicsResized (h : tell.Follows) (width height : Int32) :
    (graphicsResized tell width height).Asks (.resized (.landscape width height)) := by
  intro w free
  have plain : (Change.resized (.landscape width height)).IsPlain := by simp [Change.IsPlain]
  apply (ensures_acquire w).andThen
  intro _ v acquired
  rw [ensures_bind, ensures_state]
  apply (ensures_commit _ v).andThen
  intro _ u committed
  have same : v.scene.session.state = w.scene.session.state := by rw [acquired]; rfl
  rw [acquired] at committed
  -- the engine is told if graphics were ready before
  have signal : w.scene.session.state.signal? (.resized (.landscape width height))
      = if v.scene.session.state.graphicsReady
        then some (.graphicsResized (.landscape width height)) else none := by
    rw [same]
    rfl
  show (if v.scene.session.state.graphicsReady then _ else _ : Act Unit).Ensures u _ _
  cases ready : v.scene.session.state.graphicsReady with
  | true =>
    rw [ready, if_pos rfl] at signal
    rw [if_pos rfl]
    apply (ensures_release u).andThen
    intro _ t released
    apply (still_log _ _ t).andThen
    intro _ r logged
    rw [released, committed, Scene.lock_false_commit_lock_true free] at logged
    exact (h.changed free signal logged).mono fun _ _ _ goesOn moves => moves.asked goesOn plain
  | false =>
    rw [ready, if_neg Bool.false_ne_true] at signal
    rw [if_neg Bool.false_ne_true]
    apply (still_log _ _ u).andThen
    intro _ t logged
    refine (ensures_release t).mono (fun _ r released => ?_) fun _ => False.elim
    rw [logged, committed, Scene.lock_false_commit_lock_true free] at released
    rw [released]
    exact (Scene.goes_changed free signal).mono fun _ moves => moves.asked extends_course plain

theorem still_logDismissed (dismissed : List Overlay) : (logDismissed dismissed).Still := by
  induction dismissed with
  | nil => exact still_pure ()
  | cons o rest ih => exact (still_log _ _).bind fun _ => ih

/-- Once the host's pause is taken, emptying the stack is silent, and then the engine is told. -/
private theorem ensures_background (h : tell.Follows) {v : World}
    (free : w.scene.session.locked = false) (paused : v.scene = w.scene.commit .hostPaused) :
    (do logDismissed (← OverlayStack.drain tell); tell (.pause true)).Runs v w.scene
      (Asked .hostPaused) := by
  have free' : v.scene.session.locked = false := by
    rw [paused]
    exact free
  have host : v.scene.session.state.run.host = true := by
    rw [paused]
    rfl
  apply (OverlayStack.ensures_drain_of_host h free' host).andThen
  intro dismissed u emptied
  apply (still_logDismissed dismissed u).andThen
  intro _ t named
  -- the pause and the removals are all the changes of going to the background
  have background : t.scene = w.scene.commitAll w.scene.session.state.backgrounding := by
    rw [named, emptied, paused]
    rfl
  have free'' : t.scene.session.locked = false := by
    rw [background, Scene.commitAll_eq]
    exact free
  apply (h (.pause true) t free'').goes
  intro _ _ goesOn told
  rw [background] at told
  exact told.commitAll fun _ moves => moves.background goesOn

/-- The host's pause is committed and all overlays are taken off before the engine is told. -/
theorem asks_hostPaused (h : tell.Follows) : (hostPaused tell).Asks .hostPaused := by
  intro w free
  rw [hostPaused, Runs, ensures_bind, ensures_state]
  apply (ensures_locked_commit free .hostPaused).andThen
  intro _ v paused
  split
  · apply (still_log _ _ v).andThen
    intro _ u same
    exact ensures_background h free (same.trans paused)
  · exact ensures_background h free paused

/-- The host's pause is let go, and the engine told if nothing else holds. -/
theorem asks_hostResumed (h : tell.Follows) : (hostResumed tell).Asks .hostResumed := by
  intro w free
  have plain : Change.hostResumed.IsPlain := by simp [Change.IsPlain]
  have signal : w.scene.session.state.signal? .hostResumed
      = if w.scene.session.state.run.resumeStarts .host then some (.resume true) else none := rfl
  rw [hostResumed, Runs, ensures_bind, ensures_state]
  apply (ensures_locked_commit free .hostResumed).andThen
  intro _ v committed
  show (if w.scene.session.state.run.resumeStarts .host then _ else _ : Act Unit).Ensures v _ _
  cases starts : w.scene.session.state.run.resumeStarts .host with
  | true =>
    rw [starts, if_pos rfl] at signal
    rw [if_pos rfl]
    apply (still_log _ _ v).andThen
    intro _ u logged
    rw [committed] at logged
    exact (h.changed free signal logged).mono fun _ _ _ goesOn moves => moves.asked goesOn plain
  | false =>
    rw [starts, if_neg Bool.false_ne_true] at signal
    rw [if_neg Bool.false_ne_true, ensures_bind, ensures_state]
    refine (still_log _ _ v).mono (fun _ u logged => ?_) fun _ => False.elim
    rw [logged, committed]
    exact (Scene.goes_changed free signal).mono fun _ moves => moves.asked extends_course plain

/-- A frame is rendered only while the session runs. -/
theorem follows_render (h : tell.Follows) : (render tell).Follows fun _ => True := by
  apply follows_state
  intro s _
  refine .ite (fun tick => ?_) fun _ => (still_pure _).follows _
  have fits : EngineCall.render.Fits s := by
    simpa [EngineCall.Fits, RunState.holds] using tick
  refine h.call rfl ?_
  rintro _ rfl
  exact fits

/-! ## Menus and prompts -/

/-- The disk picker is put on only if none is showing. -/
theorem follows_showDisks (h : tell.Follows) : (showDisks tell).Follows fun _ => True := by
  apply follows_state
  intro s _
  refine .ite (fun _ => (still_pure false).follows _) fun _ => ?_
  exact still_get.andThen fun _ => (follows_showNew h _).anywhere

/-- What the back key does depends on the top overlay. -/
theorem follows_back (h : tell.Follows) : (back tell).Follows fun _ => True := by
  apply follows_state
  intro s _
  split
  · exact (OverlayStack.follows_dismiss h _).anywhere.result
  · exact (follows_showNew h .mainMenu).anywhere.result

/-- Only a splash screen that is showing answers its buttons. -/
theorem follows_pressSplash (h : tell.Follows) (button : SplashButton) :
    (pressSplash tell button).Follows fun _ => True := by
  apply follows_state
  intro s _
  cases s.find? .splashScreen with
  | none => exact (still_pure none).follows _
  | some splash =>
    dsimp only
    cases SplashAction.ofPress splash.isDismissable button with
    | dismiss => exact (OverlayStack.follows_dismiss h _).anywhere.result
    | showSettings => exact (follows_showNew h .settingsMenu).anywhere.result
    | showDisks => exact (follows_showDisks h).anywhere.result
    | ignored => exact (still_pure _).follows _

/-- An entry of a menu that is not showing does nothing. -/
theorem follows_selectMainMenu (h : tell.Follows) (index : Nat) :
    (selectMainMenu tell index).Follows fun _ => True := by
  refine follows_state fun s _ => .ite (fun _ => ?_) fun _ => (still_pure none).follows _
  dsimp only
  cases MainMenuAction.ofRow index with
  | showSettings => exact (follows_showNew h .settingsMenu).anywhere.result
  | showDisks => exact (follows_showDisks h).anywhere.result
  | dismiss => exact (OverlayStack.follows_dismiss h _).anywhere.result

theorem still_selectSetting (index : Nat) : (selectSetting index).Still := by
  apply still_state.bind
  intro s
  split
  · exact still_pure _
  · exact still_pure none

/-- An image at an index is one of the images of the picker. -/
theorem fits_chooseDisk {s : SessionState} {index : Nat} {path : Path}
    (image : imageAt? s index = some path) (driveA readOnly : Bool) :
    (EngineCall.chooseDisk path driveA readOnly).Fits s := by
  rcases Option.bind_eq_some_iff.1 image with ⟨menu, found, image⟩
  rcases Option.bind_eq_some_iff.1 image with ⟨images, listed, image⟩
  exact ⟨menu, images, found, listed, List.mem_of_getElem? image⟩

/-- The engine is told of a disk while the picker is still showing. -/
theorem follows_chooseDisk (h : tell.Follows) (index : Nat) (driveA readOnly : Bool) :
    (chooseDisk tell index driveA readOnly).Follows fun _ => True := by
  apply follows_state
  intro s _
  split
  · exact (still_pure none).follows _
  · rename_i path image
    apply (still_log _ _).andThen
    intro _
    have inserted : (tell (.chooseDisk path driveA readOnly)).Follows fun t => t = s := by
      refine h.call rfl ?_
      rintro _ rfl
      exact fits_chooseDisk image driveA readOnly
    exact inserted.andThen fun _ => (OverlayStack.follows_dismiss h _).result

/-- The engine is told of what was confirmed while the dialog is still showing. -/
theorem follows_confirm (h : tell.Follows) (kind : ConfirmKind) (accepted : Bool) :
    (confirm tell kind accepted).Follows fun _ => True := by
  apply follows_state
  intro s _
  refine .ite (fun _ => (still_pure _).follows _) fun asked => ?_
  refine .ite (fun _ => (OverlayStack.follows_dismiss h _).anywhere.result) fun _ => ?_
  have showing : s.shows kind.overlay = true := by simpa using asked
  cases kind with
  | quit =>
    apply (still_log _ _).andThen
    intro _
    have quitting : (tell .quit).Follows fun t => t = s := by
      refine h.call rfl ?_
      rintro _ rfl
      exact showing
    exact quitting.result
  | reboot =>
    apply (still_log _ _).andThen
    intro _
    have rebooting : (tell .reboot).Follows fun t => t = s := by
      refine h.call rfl ?_
      rintro _ rfl
      exact showing
    exact rebooting.andThen fun _ => (OverlayStack.follows_popNamed h _).andThen fun _ =>
      (OverlayStack.follows_popNamed h _).result

/-! ## Keys and touches -/

theorem follows_keyDown (h : tell.Follows) (code modifiers : Int32) :
    (keyDown tell code modifiers).Follows fun _ => True := by
  refine .ite (fun _ => (still_pure false).follows _) fun _ => ?_
  have pressed : (tell (.keyDown code modifiers)).Follows fun _ => True :=
    h.call rfl fun _ _ => trivial
  exact pressed.result

/-- Back and Menu act on the overlays, the volume keys on nothing, and all others go to the engine.
-/
theorem follows_keyUp (h : tell.Follows) (code modifiers : Int32) :
    (keyUp tell code modifiers).Follows fun _ => True := by
  refine .ite (fun _ => (follows_back h).result) fun _ => ?_
  refine .ite (fun _ => (follows_showNew h .mainMenu).result) fun _ => ?_
  refine .ite (fun _ => (still_pure false).follows _) fun _ => ?_
  have released : (tell (.keyUp code modifiers)).Follows fun _ => True :=
    h.call rfl fun _ _ => trivial
  exact released.result

/-- A touch goes to the engine only with graphics ready and no overlay showing. -/
theorem follows_forward (h : tell.Follows) (batch : TouchBatch) :
    (forward tell batch).Follows fun s => s.graphicsReady = true ∧ s.stack = [] := by
  have sent : (do
      let flags := (← get).engine.reply
      tell (.touch batch.sample)
      log .trace s!"{batch.sample.text} -> {Text.hex flags.bits.toNat}"
      return flags : Act TouchFlags).Follows fun s => s.graphicsReady = true ∧ s.stack = [] := by
    apply still_get.andThen
    intro _
    have received : (tell (.touch batch.sample)).Follows
        fun s => s.graphicsReady = true ∧ s.stack = [] := h.call rfl fun _ fits => fits
    exact received.andThen fun _ => (still_log _ _).andThen fun _ => (still_pure _).follows _
  unfold forward
  split
  · exact (still_log _ _).andThen fun _ => sent
  · exact sent

/-- A touch is forwarded to an engine that can take it, and what it asks for is then shown. -/
theorem follows_touch (h : tell.Follows) (batch : TouchBatch) :
    (touch tell batch).Follows fun _ => True := by
  apply follows_state
  intro s _
  refine .ite (fun _ => (still_pure _).follows _) fun clear => ?_
  have forwarded : (forward tell batch).Follows fun t => t = s := by
    refine (follows_forward h batch).mono ?_
    rintro _ rfl
    -- not dropped, so graphics are ready and nothing is showing
    simp only [Bool.or_eq_true, Bool.not_eq_true', decide_eq_true_eq, not_or,
      Bool.not_eq_false, SessionState.depth, List.length_pos_iff, Classical.not_not, ne_eq] at clear
    exact clear
  apply forwarded.andThen
  intro flags
  dsimp only
  split
  · exact (follows_showNew h .mainMenu).result
  · exact (still_pure _).follows _

end FrontEnd

/-! ## Any operation -/

namespace HostOp

open Act FrontEnd

variable {tell : Tell}

/-- The operations that ask for a change ask for no other. -/
theorem asks_perform (h : tell.Follows) {op : HostOp} {c : Change}
    (asked : (Op.host op).change? = some c) : (op.perform tell).Asks c := by
  cases op with
  | graphicsReady width height =>
    obtain rfl := Option.some.inj asked
    exact (asks_graphicsReady h width height).result _
  | graphicsResized width height =>
    obtain rfl := Option.some.inj asked
    exact (asks_graphicsResized h width height).result _
  | hostPaused =>
    obtain rfl := Option.some.inj asked
    exact (asks_hostPaused h).result _
  | hostResumed =>
    obtain rfl := Option.some.inj asked
    exact (asks_hostResumed h).result _
  | _ => cases asked

/-- All other operations go along courses by what they read of the session. -/
theorem follows_perform (h : tell.Follows) {op : HostOp} (plain : (Op.host op).change? = none) :
    (op.perform tell).Follows fun _ => True := by
  cases op with
  | graphicsReady | graphicsResized | hostPaused | hostResumed => cases plain
  | create setUpError =>
    apply still_get.andThen
    intro _
    apply (follows_create h fun _ _ => rfl).andThen
    intro _
    exact still_get.andThen fun _ => (still_pure _).follows _
  | keyDown code modifiers => exact (follows_keyDown h code modifiers).result
  | keyUp code modifiers => exact (follows_keyUp h code modifiers).result
  | back => exact (follows_back h).result
  | render => exact (follows_render h).result
  | touch batch => exact (follows_touch h batch).result
  | showSplash => exact (follows_showNew h (.splash true)).result
  | showMainMenu => exact (follows_showNew h .mainMenu).result
  | showSettings => exact (follows_showNew h .settingsMenu).result
  | showDisks => exact (follows_showDisks h).result
  | maybeQuit => exact (follows_showNew h (.confirm .quit)).result
  | maybeReboot => exact (follows_showNew h (.confirm .reboot)).result
  | pressSplash button => exact (follows_pressSplash h button).result
  | selectMainMenu index => exact (follows_selectMainMenu h index).result
  | selectSetting index => exact ((still_selectSetting index).follows _).result
  | chooseDisk index driveA readOnly => exact (follows_chooseDisk h index driveA readOnly).result
  | confirm kind accepted => exact (follows_confirm h kind accepted).result

end HostOp
end EmuFront
