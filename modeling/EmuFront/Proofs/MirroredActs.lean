import EmuFront.Proofs.Mirroring

/-!
# Actions in two worlds

What the operations on a front end do in a world and in another that mirrors it. They show the same in
both, end in both with a result or in both with the same panic, and leave the worlds mirroring each
other. So does the engine when it is called, however deep it calls back.
-/

namespace EmuFront

/-- Operations of the overlay stack, of the host's lifecycle and its input, and those that leave the
front end as it is. -/
def Op.isFrontEnd : Op → Bool
  | .stack _ | .host _ | .outside _ => true
  | .crash _ | .machine _ => false

/-- A world that is like another but for the numbers of overlays, which are as `f` has them, and for
whether its lock is poisoned. Its engine will do no more than operations on the front end. -/
structure World.Mirrors (f : Nat → Nat) (w w' : World) : Prop where
  machine : w.machine.Mirrors f w'.machine
  config : w'.front.config = w.front.config
  engine : w'.front.engine = w.front.engine
  state : w'.front.session.state = w.front.session.state.renumber f
  locked : w'.front.session.locked = w.front.session.locked
  model : w'.engine = w.engine
  allowed : w.engine.Allows fun op => op.isFrontEnd = true

namespace Act

variable {α β : Type} {f : Nat → Nat}

/-- What two actions end with that have begun in two worlds: they have shown the same, left worlds that
mirror each other, and the second gives what the first gives, as `ren` has it. -/
structure EndAlike (f : Nat → Nat) (ren : α → α) (w w' : World) (ended ended' : Except Panic α × World) :
    Prop where
  result : ended'.1 = ended.1.map ren
  mirrors : ended.2.Mirrors f ended'.2
  alongside : Machine.Alongside f w.machine ended.2.machine w'.machine ended'.2.machine

/-- Actions that do the same in worlds that mirror each other. -/
def Mirrors (f : Nat → Nat) (ren : α → α) (act act' : Act α) : Prop :=
  ∀ w w' : World, w.Mirrors f w' → EndAlike f ren w w' (act w) (act' w')

/-- An action that does the same and gives the same in worlds that mirror each other. -/
def Agrees (f : Nat → Nat) (act : Act α) : Prop := act.Mirrors f id act

variable {ren : α → α}

/-! ## Putting actions together -/

/-- Results that are renamed apart from the worlds mirror each other. -/
theorem mirrors_pure (ren : α → α) (a : α) : Mirrors f ren (pure a) (pure (ren a)) :=
  fun _ _ mirrors => ⟨rfl, mirrors, .refl _ _⟩

theorem agrees_pure (a : α) : Agrees f (pure a) := mirrors_pure id a

/-- What follows in two worlds may look at what has come before. -/
theorem EndAlike.bind {ren' : β → β} {act act' : Act β} {next next' : β → Act α} {w w' : World}
    (before : EndAlike f ren' w w' (act w) (act' w'))
    (after : ∀ b v v', act w = (.ok b, v) → v.Mirrors f v' →
      Machine.Alongside f w.machine v.machine w'.machine v'.machine →
      EndAlike f ren v v' (next b v) (next' (ren' b) v')) :
    EndAlike f ren w w' ((act >>= next) w) ((act' >>= next') w') := by
  rw [run_bind, run_bind]
  revert before after
  rcases act w with ⟨p | b, v⟩ <;> rcases act' w' with ⟨result', v'⟩ <;>
    rintro ⟨result, between, shown⟩ after
  · obtain rfl : result' = .error p := result
    exact ⟨rfl, between, shown⟩
  · obtain rfl : result' = .ok (ren' b) := result
    obtain ⟨last, mirrors', shown'⟩ := after b v v' rfl between shown
    exact ⟨last, mirrors', shown.trans shown'⟩

/-- Actions mirror each other one after the other, if what comes next is given the renamed result.
-/
theorem Mirrors.bind {ren' : β → β} {act act' : Act β} {next next' : β → Act α}
    (before : act.Mirrors f ren' act') (after : ∀ b, (next b).Mirrors f ren (next' (ren' b))) :
    (act >>= next).Mirrors f ren (act' >>= next') := fun w w' mirrors =>
  (before w w' mirrors).bind fun b v v' _ between _ => after b v v' between

/-- What is given may be put in another form. -/
theorem Mirrors.result {ren' : β → β} {act act' : Act β} {next : β → α}
    (h : act.Mirrors f ren' act') (form : ∀ b, next (ren' b) = ren (next b)) :
    (act >>= fun b => pure (next b)).Mirrors f ren (act' >>= fun b => pure (next b)) := by
  refine h.bind fun b => ?_
  rw [form]
  exact mirrors_pure ren (next b)

/-- A choice that both worlds make alike mirrors itself, side by side. -/
theorem Mirrors.ite {c : Prop} [Decidable c] {act act' other other' : Act α}
    (yes : act.Mirrors f ren act') (no : other.Mirrors f ren other') :
    (if c then act else other).Mirrors f ren (if c then act' else other') := by
  split
  · exact yes
  · exact no

/-- What is read of the world may differ in the two, as long as what follows does not. -/
theorem mirrors_get {next next' : World → Act α}
    (after : ∀ w w', w.Mirrors f w' → EndAlike f ren w w' (next w w) (next' w' w')) :
    (get >>= next).Mirrors f ren (get >>= next') := after

/-- The session state is read in both worlds, up to the numbers of overlays. -/
theorem mirrors_state : state.Mirrors f (SessionState.renumber f) state :=
  fun _ _ mirrors => ⟨congrArg Except.ok mirrors.state, mirrors, .refl _ _⟩

theorem mirrors_work {part part' : Work α} (h : part.Mirrors f ren part') :
    (work part).Mirrors f ren (work part') := by
  intro w w' mirrors
  obtain ⟨result, machine, shown⟩ := h w.machine w'.machine mirrors.machine
  exact ⟨congrArg Except.ok result, ⟨machine, mirrors.config, mirrors.engine, mirrors.state,
    mirrors.locked, mirrors.model, mirrors.allowed⟩, shown⟩

theorem agrees_work {part : Work α} (h : part.Agrees f) : (work part).Agrees f := mirrors_work h

/-- What is logged may differ, for no operation reads it. -/
theorem mirrors_log (level level' : LogLevel) (message message' : String) :
    (log level message).Mirrors f id (log level' message') :=
  mirrors_work (Work.mirrors_log _ _ _ _)

theorem agrees_log (level : LogLevel) (message : String) : (log level message).Agrees f :=
  mirrors_log _ _ _ _

/-- Two events may be noted that show the same, up to the numbers of overlays. -/
theorem mirrors_note {event event' : EngineRef → Event}
    (shown : ∀ e, (event' e).shown? = (event e).shown?.map (Event.renumber f)) :
    (note event).Mirrors f id (note event') := by
  refine mirrors_get fun w w' mirrors => ?_
  rw [mirrors.engine]
  exact mirrors_work (Work.mirrors_observe (shown w.front.engine)) w w' mirrors

/-- Changes of the session that do the same to its state and to whether its lock is held. -/
theorem mirrors_modifySession {change change' : Session → Session}
    (state : ∀ s s' : Session, s'.state = s.state.renumber f →
      (change' s').state = (change s).state.renumber f)
    (locked : ∀ s s' : Session, s'.locked = s.locked → (change' s').locked = (change s).locked) :
    (modifySession change).Mirrors f id (modifySession change') := fun _ _ mirrors =>
  ⟨rfl, ⟨mirrors.machine, mirrors.config, mirrors.engine, state _ _ mirrors.state,
    locked _ _ mirrors.locked, mirrors.model, mirrors.allowed⟩, .refl _ _⟩

/-- Taking and letting go of the lock is the same in both worlds. -/
theorem agrees_lock (held : Bool) : (modifySession fun s => { s with locked := held }).Agrees f :=
  mirrors_modifySession (fun _ _ => id) fun _ _ _ => rfl

theorem agrees_acquire : acquire.Agrees f := agrees_lock true

theorem agrees_release : release.Agrees f := agrees_lock false

/-- A change is committed to one session and, renumbered, to the other. -/
theorem mirrors_commit (c : Change) : (commit c).Mirrors f id (commit (c.renumber f)) := by
  have applied : (modifySession fun s => { s with state := s.state.apply c }).Mirrors f id
      (modifySession fun s => { s with state := s.state.apply (c.renumber f) }) := by
    refine mirrors_modifySession (fun s s' same => ?_) fun _ _ => id
    show s'.state.apply (c.renumber f) = _
    rw [same]
    exact s.state.apply_renumber c
  refine applied.bind fun _ => ?_
  have noted : (note fun engine => .committed engine c).Mirrors f id
      (note fun engine => .committed engine (c.renumber f)) := mirrors_note fun _ => rfl
  exact noted

/-- What is done under the lock may be mirrored with the lock around it. -/
theorem Mirrors.locked {body body' : Act α} (h : body.Mirrors f ren body') :
    (locked body).Mirrors f ren (locked body') :=
  agrees_acquire.bind fun _ => h.bind fun a => agrees_release.bind fun _ => mirrors_pure ren a

end Act

/-- A way to call the engine that does the same in worlds that mirror each other. -/
def Tell.Agrees (f : Nat → Nat) (tell : Tell) : Prop := ∀ call, Act.Agrees f (tell call)

namespace OverlayStack

open Act

variable {f : Nat → Nat} {tell : Tell}

/-! ## Putting overlays on -/

/-- An overlay is put on in both worlds, under its own number in each. -/
theorem mirrors_pushLocked (o : Overlay) :
    (pushLocked o).Mirrors f id (pushLocked (o.renumber f)) := by
  refine mirrors_state.bind fun before => ?_
  refine (mirrors_commit (.pushed (o.attach before.bounds))).bind fun _ => ?_
  have logged : (do log .debug s!"push {o.kind.name}, depth {(← state).depth}").Mirrors f id
      (do log .debug s!"push {(o.renumber f).kind.name}, depth {(← state).depth}") :=
    mirrors_state.bind fun _ => mirrors_log _ _ _ _
  exact .ite ((mirrors_log _ _ _ _).bind fun _ => logged) logged

/-- The refused overlay is noted under its own number in each world. -/
theorem mirrors_refused (o : Overlay) :
    (note fun engine => .refused engine o).Mirrors f id
      (note fun engine => .refused engine (o.renumber f)) := mirrors_note fun _ => rfl

/-- A panic ends both alike, and leaves both locks poisoned. -/
theorem mirrors_panic {α : Type} (ren : α → α) (p : Panic) :
    (do
      work (Work.onPanic p)
      modifySession fun s => { s with locked := false, poisoned := true }
      throw p : Act α).Mirrors f ren (do
      work (Work.onPanic p)
      modifySession fun s => { s with locked := false, poisoned := true }
      throw p) := by
  have poisoned : (modifySession fun s => { s with locked := false, poisoned := true }).Agrees f :=
    mirrors_modifySession (fun _ _ => id) fun _ _ _ => rfl
  refine (agrees_work (Work.agrees_onPanic p)).bind fun _ => poisoned.bind fun _ => ?_
  exact fun _ _ mirrors => ⟨rfl, mirrors, .refl _ _⟩

/-- A second overlay of a kind is one in both worlds, and both panic alike. -/
theorem mirrors_push (h : tell.Agrees f) (site : PanicSite) (o : Overlay) :
    (push tell site o).Mirrors f id (push tell site (o.renumber f)) := by
  refine agrees_acquire.bind fun _ => mirrors_state.bind fun s => ?_
  rw [SessionState.shows_renumber]
  refine .ite ?_ ?_
  · exact (mirrors_refused o).bind fun _ => mirrors_panic id (doublePush site o.kind)
  · exact (mirrors_pushLocked o).bind fun _ => agrees_release.bind fun _ => h _

/-- Whether an overlay is showing is asked by its kind, so that both worlds show it or neither does.
-/
theorem mirrors_present (h : tell.Agrees f) (o : Overlay) :
    (present tell o).Mirrors f id (present tell (o.renumber f)) := by
  refine agrees_acquire.bind fun _ => mirrors_state.bind fun s => ?_
  rw [SessionState.shows_renumber]
  refine .ite ?_ ?_
  · exact (mirrors_log _ _ _ _).bind fun _ => (mirrors_refused o).bind fun _ =>
      agrees_release.bind fun _ => agrees_pure false
  · exact (mirrors_pushLocked o).bind fun _ => agrees_release.bind fun _ => (h _).bind fun _ =>
      agrees_pure true

/-! ## Taking overlays off -/

/-- The overlay that is taken off carries its own number in each world. -/
theorem mirrors_removeLocked (o : Overlay) :
    (removeLocked o).Mirrors f id (removeLocked (o.renumber f)) := by
  refine mirrors_state.bind fun before => (mirrors_commit (.removed o.detach)).bind fun _ => ?_
  refine mirrors_state.bind fun after => (mirrors_log _ _ _ _).bind fun _ => ?_
  rw [show (after.renumber f).stack.isEmpty = after.stack.isEmpty from List.isEmpty_map]
  refine .ite (.ite ?_ ?_) (agrees_pure false)
  · exact (mirrors_log _ _ _ _).bind fun _ => agrees_pure true
  · exact (mirrors_log _ _ _ _).bind fun _ => agrees_pure false

/-- What is picked is taken off, in both worlds or in none. -/
theorem mirrors_remove (h : tell.Agrees f) {pick : SessionState → Act (Option Overlay)}
    (picks : ∀ s, (pick s).Mirrors f (Option.map (Overlay.renumber f)) (pick (s.renumber f))) :
    (remove tell pick).Mirrors f (Option.map (Overlay.renumber f)) (remove tell pick) := by
  refine agrees_acquire.bind fun _ => mirrors_state.bind fun s => (picks s).bind fun picked => ?_
  cases picked with
  | none => exact agrees_release.bind fun _ => mirrors_pure _ none
  | some o =>
    have given : (do
        note fun engine => .returned engine o.detach
        return some o.detach : Act (Option Overlay)).Mirrors f (Option.map (Overlay.renumber f)) (do
        note fun engine => .returned engine (o.renumber f).detach
        return some (o.renumber f).detach) := by
      have returned : (note fun engine => .returned engine o.detach).Mirrors f id
          (note fun engine => .returned engine (o.renumber f).detach) := mirrors_note fun _ => rfl
      exact returned.bind fun _ => mirrors_pure _ (some o.detach)
    refine (mirrors_removeLocked o).bind fun resume => agrees_release.bind fun _ => ?_
    exact .ite ((h _).bind fun _ => given) given

/-- The top overlay is given back under its own number in each world. -/
theorem mirrors_pop (h : tell.Agrees f) :
    (pop tell).Mirrors f (Option.map (Overlay.renumber f)) (pop tell) := by
  refine mirrors_remove h fun s => ?_
  rw [SessionState.top?_renumber]
  exact mirrors_pure _ s.top?

/-- An overlay is found by its kind, whatever its number. -/
theorem mirrors_popNamed (h : tell.Agrees f) (kind : OverlayKind) :
    (popNamed tell kind).Mirrors f (Option.map (Overlay.renumber f)) (popNamed tell kind) := by
  refine mirrors_remove h fun s => ?_
  rw [SessionState.find?_renumber]
  exact mirrors_pure _ (s.find? kind)

/-- Whether an overlay may be closed does not depend on its number. -/
theorem mirrors_dismiss (h : tell.Agrees f) (kind : OverlayKind) :
    (dismiss tell kind).Mirrors f (Option.map (Overlay.renumber f)) (dismiss tell kind) := by
  refine mirrors_remove h fun s => ?_
  rw [SessionState.find?_renumber]
  cases s.find? kind with
  | none => exact mirrors_pure _ none
  | some o =>
    exact .ite (mirrors_pure _ (some o)) ((mirrors_log _ _ _ _).bind fun _ => mirrors_pure _ none)

/-- Overlays taken off in a row are given back in the same order, each under its own number. -/
theorem mirrors_popMany (h : tell.Agrees f) (most : Nat) :
    (popMany tell most).Mirrors f (List.map (Overlay.renumber f)) (popMany tell most) := by
  induction most with
  | zero => exact mirrors_pure _ []
  | succ most ih =>
    refine (mirrors_pop h).bind fun popped => ?_
    cases popped with
    | none => exact mirrors_pure _ []
    | some o => exact ih.bind fun others => mirrors_pure _ (o :: others)

/-- Both stacks are as deep, and both engines have as much left to do. -/
theorem mirrors_drain (h : tell.Agrees f) :
    (drain tell).Mirrors f (List.map (Overlay.renumber f)) (drain tell) := by
  refine mirrors_get fun w w' mirrors => ?_
  rw [mirrors.state, mirrors.model, SessionState.depth_renumber]
  exact mirrors_popMany h _ w w' mirrors

/-! ## The rest -/

theorem agrees_setDismissable (value : Bool) : (setDismissable value).Agrees f := by
  refine Mirrors.locked (mirrors_state.bind fun s => ?_)
  rw [SessionState.shows_renumber]
  exact .ite ((mirrors_commit (.dismissableSet value)).bind fun _ => agrees_pure true)
    (agrees_pure false)

/-- A poisoned lock is tried like any other. -/
theorem agrees_tryDepth (held : Bool) : (tryDepth held).Agrees f := by
  have told : ∀ depth : Option Nat, (do
      release
      return depth : Act (Option Nat)).Agrees f := fun depth =>
    agrees_release.bind fun _ => agrees_pure depth
  refine (agrees_lock held).bind fun _ => mirrors_get fun w w' mirrors => ?_
  have depth : w'.front.session.depth? = w.front.session.depth? := by
    rw [Session.depth?, Session.depth?, mirrors.locked, mirrors.state, SessionState.depth_renumber]
  rw [depth]
  exact told _ w w' mirrors

/-- The number that a new overlay takes is the next one of each world. -/
theorem mirrors_made (spec : OverlaySpec) :
    spec.made.Mirrors f (Overlay.renumber f) spec.made := mirrors_work (Work.mirrors_make spec)

end OverlayStack

/-! ## The host -/

namespace FrontEnd

open Act

variable {f : Nat → Nat} {tell : Tell}

/-- A front end is created alike if its setup is. -/
theorem agrees_create {ε : Type} (h : tell.Agrees f) {setUp : Path → Work (Except ε Unit)}
    (setsUp : ∀ directory, (setUp directory).Agrees f) : (create tell setUp).Agrees f := by
  refine mirrors_get fun w w' mirrors => ?_
  rw [mirrors.engine, mirrors.config]
  refine (agrees_work (Work.agrees_install _)).bind (fun _ => ?_) w w' mirrors
  refine (agrees_work (Work.agrees_ensureConfigured _ (setsUp _))).bind fun result => ?_
  cases result with
  | error e => exact agrees_pure _
  | ok ran => exact (agrees_log _ _).bind fun _ => (h _).bind fun _ => agrees_pure _

theorem agrees_showNew (h : tell.Agrees f) (spec : OverlaySpec) : (showNew tell spec).Agrees f :=
  (OverlayStack.mirrors_made spec).bind fun o => OverlayStack.mirrors_present h o

/-- A start of graphics is the same in both worlds, for the surface has no number. -/
theorem agrees_graphicsReady (h : tell.Agrees f) (width height : Int32) :
    (graphicsReady tell width height).Agrees f := by
  have committed : (locked (commit (.graphicsReady (.landscape width height)))).Agrees f :=
    (mirrors_commit _).locked
  have splash : (showSplash tell).Agrees f := agrees_showNew h (.splash true)
  exact committed.bind fun _ => (agrees_log _ _).bind fun _ => (h _).bind fun _ =>
    splash.bind fun _ => agrees_pure _

theorem agrees_graphicsResized (h : tell.Agrees f) (width height : Int32) :
    (graphicsResized tell width height).Agrees f := by
  have committed : (commit (.resized (.landscape width height))).Agrees f := mirrors_commit _
  refine agrees_acquire.bind fun _ => mirrors_state.bind fun s => committed.bind fun _ => ?_
  refine .ite ?_ ?_
  · exact agrees_release.bind fun _ => (agrees_log _ _).bind fun _ => h _
  · exact (agrees_log _ _).bind fun _ => agrees_release

theorem agrees_render (h : tell.Agrees f) : (render tell).Agrees f :=
  mirrors_state.bind fun _ => .ite (h _) (agrees_pure ())

/-- The lines on dismissed overlays name their kinds only. -/
theorem mirrors_logDismissed (dismissed : List Overlay) :
    (logDismissed dismissed).Mirrors f id (logDismissed (dismissed.map (Overlay.renumber f))) := by
  induction dismissed with
  | nil => exact agrees_pure ()
  | cons o rest ih => exact (mirrors_log _ _ _ _).bind fun _ => ih

theorem agrees_hostPaused (h : tell.Agrees f) : (hostPaused tell).Agrees f := by
  have committed : (locked (commit .hostPaused)).Agrees f := (mirrors_commit _).locked
  have emptied : (do logDismissed (← OverlayStack.drain tell); tell (.pause true)).Agrees f :=
    (OverlayStack.mirrors_drain h).bind fun dismissed =>
      (mirrors_logDismissed dismissed).bind fun _ => h _
  refine mirrors_state.bind fun before => committed.bind fun _ => ?_
  exact .ite ((agrees_log _ _).bind fun _ => emptied) emptied

theorem agrees_hostResumed (h : tell.Agrees f) : (hostResumed tell).Agrees f := by
  have committed : (locked (commit .hostResumed)).Agrees f := (mirrors_commit _).locked
  refine mirrors_state.bind fun before => committed.bind fun _ => .ite ?_ ?_
  · exact (agrees_log _ _).bind fun _ => h _
  · exact mirrors_state.bind fun _ => mirrors_log _ _ _ _

/-! ### Menus and prompts -/

/-- The disk picker lists the same images, for the worlds differ in other files only. -/
theorem agrees_showDisks (h : tell.Agrees f) : (showDisks tell).Agrees f := by
  refine mirrors_state.bind fun s => ?_
  rw [SessionState.shows_renumber]
  refine .ite (agrees_pure false) (mirrors_get fun w w' mirrors => ?_)
  rw [mirrors.config]
  exact agrees_showNew h _ w w' mirrors

/-- The back key acts on the kind of the top overlay. -/
theorem agrees_back (h : tell.Agrees f) : (back tell).Agrees f := by
  refine mirrors_state.bind fun s => ?_
  rw [SessionState.top?_renumber]
  cases s.top? with
  | none => exact (agrees_showNew h .mainMenu).bind fun _ => agrees_pure ()
  | some o => exact (OverlayStack.mirrors_dismiss h o.kind).bind fun _ => agrees_pure ()

/-- A button of the splash screen acts alike in both worlds. -/
theorem agrees_pressSplash (h : tell.Agrees f) (button : SplashButton) :
    (pressSplash tell button).Agrees f := by
  refine mirrors_state.bind fun s => ?_
  rw [SessionState.find?_renumber]
  cases s.find? .splashScreen with
  | none => exact agrees_pure none
  | some splash =>
    rw [Option.map_some]
    dsimp only
    rw [show (splash.renumber f).isDismissable = splash.isDismissable from rfl]
    cases SplashAction.ofPress splash.isDismissable button with
    | dismiss => exact (OverlayStack.mirrors_dismiss h _).bind fun _ => agrees_pure _
    | showSettings => exact (agrees_showNew h .settingsMenu).bind fun _ => agrees_pure _
    | showDisks => exact (agrees_showDisks h).bind fun _ => agrees_pure _
    | ignored => exact agrees_pure _

/-- An entry of the main menu is looked up by its place, not by a number. -/
theorem agrees_selectMainMenu (h : tell.Agrees f) (index : Nat) :
    (selectMainMenu tell index).Agrees f := by
  refine mirrors_state.bind fun s => ?_
  rw [SessionState.shows_renumber]
  refine .ite ?_ (agrees_pure none)
  dsimp only
  cases MainMenuAction.ofRow index with
  | showSettings => exact (agrees_showNew h .settingsMenu).bind fun _ => agrees_pure _
  | showDisks => exact (agrees_showDisks h).bind fun _ => agrees_pure _
  | dismiss => exact (OverlayStack.mirrors_dismiss h _).bind fun _ => agrees_pure _

theorem agrees_selectSetting (index : Nat) : (selectSetting index).Agrees f := by
  refine mirrors_state.bind fun s => ?_
  rw [SessionState.shows_renumber]
  exact .ite (agrees_pure _) (agrees_pure none)

/-- The images of a picker stay the same when overlays are renumbered. -/
theorem imageAt?_renumber (s : SessionState) (index : Nat) :
    imageAt? (s.renumber f) index = imageAt? s index := by
  unfold imageAt?
  rw [SessionState.find?_renumber]
  cases s.find? .disksMenu <;> rfl

/-- The same disk is chosen from the picker, whatever its number. -/
theorem agrees_chooseDisk (h : tell.Agrees f) (index : Nat) (driveA readOnly : Bool) :
    (chooseDisk tell index driveA readOnly).Agrees f := by
  refine mirrors_state.bind fun s => ?_
  rw [imageAt?_renumber]
  cases imageAt? s index with
  | none => exact agrees_pure none
  | some path =>
    exact (agrees_log _ _).bind fun _ => (h _).bind fun _ =>
      (OverlayStack.mirrors_dismiss h _).bind fun _ => agrees_pure _

/-- A dialog is found by its kind and answered alike. -/
theorem agrees_confirm (h : tell.Agrees f) (kind : ConfirmKind) (accepted : Bool) :
    (confirm tell kind accepted).Agrees f := by
  refine mirrors_state.bind fun s => ?_
  rw [SessionState.shows_renumber]
  refine .ite (agrees_pure _) (.ite ?_ ?_)
  · exact (OverlayStack.mirrors_dismiss h _).bind fun _ => agrees_pure _
  · cases kind with
    | quit => exact (agrees_log _ _).bind fun _ => (h _).bind fun _ => agrees_pure _
    | reboot =>
      exact (agrees_log _ _).bind fun _ => (h _).bind fun _ =>
        (OverlayStack.mirrors_popNamed h _).bind fun _ =>
          (OverlayStack.mirrors_popNamed h _).bind fun _ => agrees_pure _

/-! ### Keys and touches -/

/-- A key goes to the engine or to no one, in both worlds alike. -/
theorem agrees_keyDown (h : tell.Agrees f) (code modifiers : Int32) :
    (keyDown tell code modifiers).Agrees f :=
  .ite (agrees_pure false) ((h _).bind fun _ => agrees_pure true)

theorem agrees_keyUp (h : tell.Agrees f) (code modifiers : Int32) :
    (keyUp tell code modifiers).Agrees f := by
  refine .ite ((agrees_back h).bind fun _ => agrees_pure true) (.ite ?_ (.ite ?_ ?_))
  · exact (agrees_showNew h .mainMenu).bind fun _ => agrees_pure true
  · exact agrees_pure false
  · exact (h _).bind fun _ => agrees_pure true

/-- Both engines answer with the same flags. -/
theorem agrees_forward (h : tell.Agrees f) (batch : TouchBatch) : (forward tell batch).Agrees f := by
  have answered : ∀ flags : TouchFlags, (do
      tell (.touch batch.sample)
      log .trace s!"{batch.sample.text} -> {Text.hex flags.bits.toNat}"
      return flags : Act TouchFlags).Agrees f := fun flags =>
    (h _).bind fun _ => (agrees_log _ _).bind fun _ => agrees_pure flags
  have sent : (do
      let flags := (← get).engine.reply
      tell (.touch batch.sample)
      log .trace s!"{batch.sample.text} -> {Text.hex flags.bits.toNat}"
      return flags : Act TouchFlags).Agrees f := by
    refine mirrors_get fun w w' mirrors => ?_
    rw [mirrors.model]
    exact answered _ w w' mirrors
  exact .ite ((agrees_log _ _).bind fun _ => sent) sent

/-- A touch asks the engine and the kinds of overlays, both alike. -/
theorem agrees_touch (h : tell.Agrees f) (batch : TouchBatch) : (touch tell batch).Agrees f := by
  refine mirrors_state.bind fun s => ?_
  rw [SessionState.depth_renumber]
  refine .ite (agrees_pure _) ((agrees_forward h batch).bind fun flags => ?_)
  exact .ite ((agrees_showNew h .mainMenu).bind fun _ => agrees_pure _) (agrees_pure _)

end FrontEnd
end EmuFront
