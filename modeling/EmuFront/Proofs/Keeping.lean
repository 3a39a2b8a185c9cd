import EmuFront.Proofs.SignalLog

/-!
# Rules that operations keep

A rule relates the scene before an action to the one after it. It is kept step by step: it goes
through what only takes or frees the lock, through every change that it allows, and from one action to
the next. What each operation does of itself is gone through here once, so that a rule of whole runs
needs to look at the calls of the engine, at the keys and at the changes it does not allow only.
-/

namespace EmuFront

/-! ## What operations do of themselves -/

/-- Whether a call passes a key on. -/
def EngineCall.isKey : EngineCall → Bool
  | keyDown .. | keyUp .. => true
  | _ => false

/-- The call by which an operation passes a key on to the engine. The volume keys are not passed on,
and of Back and Menu the releases are not. -/
def Op.keyCall? : Op → Option EngineCall
  | .host (.keyDown code modifiers) =>
    if FrontEnd.isVolumeKey code then none else some (.keyDown code modifiers)
  | .host (.keyUp code modifiers) =>
    if code = FrontEnd.backKey ∨ code = FrontEnd.menuKey ∨ FrontEnd.isVolumeKey code then none
    else some (.keyUp code modifiers)
  | _ => none

namespace SessionState

variable {s : SessionState} {c : Change}

/-- A change that many operations make: an overlay is put on, one that is dismissable is taken off, or
the host or its surface changes. -/
def Ordinary (s : SessionState) : Change → Prop
  | .removed o => ∃ shown, s.find? o.kind = some shown ∧ shown.isDismissable = true
  | .dismissableSet _ => False
  | _ => True

end SessionState

/-- The changes that an operation makes whether overlays are dismissable or not. -/
def Op.Forces (s : SessionState) (c : Change) : Op → Prop
  | .stack .pop | .stack .drain | .host .hostPaused =>
    ∃ o, s.top? = some o ∧ c = OverlayStack.removal o
  | .stack (.popNamed kind) => ∃ o, s.find? kind = some o ∧ c = OverlayStack.removal o
  | .stack (.setDismissable value) => c = .dismissableSet value
  | .host (.confirm .reboot _) =>
    ∃ o, (s.find? .rebootConfirm = some o ∨ s.find? .mainMenu = some o) ∧ c = OverlayStack.removal o
  | _ => False

/-! ## Rules -/

/-- A relation between scenes that is kept step by step, with the changes that it allows. -/
structure Scene.Rule where
  Holds : Scene → Scene → Prop
  Allows : SessionState → Change → Prop
  ordinary : ∀ {s : SessionState} {c : Change}, s.Ordinary c → Allows s c
  same : ∀ {a b : Scene}, b.trace = a.trace → b.session.state = a.session.state → Holds a b
  commit : ∀ {a : Scene} {c : Change}, Allows a.session.state c → Holds a (a.commit c)
  trans : ∀ {a b c : Scene}, Holds a b → Holds b c → Holds a c

namespace Act

variable {α β : Type} {rule : Scene.Rule} {w : World}

/-- An action keeps a rule, whether it ends with a result or in a panic. -/
def Keeps (act : Act α) (rule : Scene.Rule) : Prop :=
  ∀ w : World, act.Ensures w (fun _ v => rule.Holds w.scene v.scene)
    fun v => rule.Holds w.scene v.scene

/-- What goes on from a world that was come to goes on from where that began. -/
theorem Keeps.after {act : Act α} {v : World} (h : act.Keeps rule)
    (before : rule.Holds w.scene v.scene) :
    act.Ensures v (fun _ u => rule.Holds w.scene u.scene) fun u => rule.Holds w.scene u.scene :=
  (h v).mono (fun _ _ => rule.trans before) fun _ => rule.trans before

/-- A rule that is kept by one action and by the next is kept by both in a row. -/
theorem Keeps.bind {act : Act β} {next : β → Act α} (first : act.Keeps rule)
    (rest : ∀ b, (next b).Keeps rule) : (act >>= next).Keeps rule := fun w =>
  (first w).bind (fun b _ => (rest b).after) fun _ => id

/-- An action that leaves the scene alone keeps every rule. -/
theorem Still.keeps {act : Act α} (h : act.Still) : act.Keeps rule := fun w =>
  (h w).mono (fun _ _ same => rule.same (congrArg Scene.trace same)
    (congrArg (fun a => a.session.state) same)) fun _ => False.elim

/-- Taking, freeing and poisoning the lock leaves the session state as it is. -/
theorem keeps_modifySession {change : Session → Session} (h : ∀ s, (change s).state = s.state) :
    (modifySession change).Keeps rule := fun w => rule.same rfl (h w.front.session)

theorem keeps_acquire : acquire.Keeps rule := keeps_modifySession fun _ => rfl

theorem keeps_release : release.Keeps rule := keeps_modifySession fun _ => rfl

/-- A change that the rule allows may be committed. -/
theorem keeps_commit {c : Change} (allowed : ∀ s, rule.Allows s c) : (commit c).Keeps rule :=
  fun w => (ensures_commit c w).mono (fun _ v committed => by
    rw [committed]
    exact rule.commit (allowed _)) fun _ => False.elim

/-- What leaves the scene as it is can be left out. -/
theorem Still.thenKeeps {act : Act β} {next : β → Act α} (first : act.Still)
    (rest : ∀ b, (next b).Keeps rule) : (act >>= next).Keeps rule := first.keeps.bind rest

/-- The result does not matter to the session. -/
theorem Keeps.result {act : Act β} {next : β → α} (h : act.Keeps rule) :
    (act >>= fun b => pure (next b)).Keeps rule :=
  h.bind fun b => (still_pure (next b)).keeps

/-- A rule is kept by a choice if both sides keep it. -/
theorem Keeps.ite {c : Prop} [Decidable c] {act other : Act α} (yes : act.Keeps rule)
    (no : other.Keeps rule) : (if c then act else other).Keeps rule := by
  split
  · exact yes
  · exact no

theorem Keeps.locked {body : Act α} (h : body.Keeps rule) : (locked body).Keeps rule :=
  keeps_acquire.bind fun _ => h.bind fun _ => keeps_release.result

end Act

/-- A way to call the engine that keeps a rule, but for the calls that pass keys on. -/
def Tell.Keeps (tell : Tell) (rule : Scene.Rule) : Prop :=
  ∀ call : EngineCall, call.isKey = false → Act.Keeps (tell call) rule

/-! ## The overlay stack -/

namespace OverlayStack

open Act

variable {tell : Tell} {rule : Scene.Rule}

/-- Putting an overlay on is a change that every rule allows. -/
theorem keeps_pushLocked (o : Overlay) : (pushLocked o).Keeps rule := fun w =>
  (ensures_pushLocked o w).mono (fun _ v committed => by
    rw [committed]
    exact rule.commit (rule.ordinary trivial)) fun _ => False.elim

/-- Showing an overlay keeps every rule that the engine keeps. -/
theorem keeps_present (h : tell.Keeps rule) (o : Overlay) : (present tell o).Keeps rule := by
  refine keeps_acquire.bind fun _ => still_state.thenKeeps fun _ => .ite ?_ ?_
  · exact (still_log _ _).thenKeeps fun _ => (still_note fun _ => rfl).thenKeeps fun _ =>
      keeps_release.result
  · exact (keeps_pushLocked o).bind fun _ => keeps_release.bind fun _ => (h _ rfl).result

/-- A push keeps a rule even where it panics, for a refused overlay changes nothing. -/
theorem keeps_push (h : tell.Keeps rule) (site : PanicSite) (o : Overlay) :
    (push tell site o).Keeps rule := by
  refine keeps_acquire.bind fun _ => still_state.thenKeeps fun _ => .ite ?_ ?_
  · refine (still_note fun _ => rfl).thenKeeps fun _ =>
      (still_work (Work.quiet_onPanic _)).thenKeeps fun _ => ?_
    have poisoned : (modifySession fun s => { s with locked := false, poisoned := true }).Keeps
        rule := keeps_modifySession fun _ => rfl
    exact poisoned.bind fun _ w => rule.same rfl rfl
  · exact (keeps_pushLocked o).bind fun _ => keeps_release.bind fun _ => h _ rfl

/-- An overlay is picked and taken off, where the rule allows that. -/
theorem keeps_remove (h : tell.Keeps rule) {pick : SessionState → Act (Option Overlay)}
    {picked : SessionState → Option Overlay} (picks : Picks pick picked)
    (allowed : ∀ s o, picked s = some o → rule.Allows s (removal o)) :
    (remove tell pick).Keeps rule := by
  intro w
  apply ensures_acquire_state
  intro v acquired
  apply (picks _ v).andThen
  rintro o u ⟨rfl, unchanged⟩
  rw [acquired] at unchanged
  have before : rule.Holds w.scene u.scene := by
    rw [unchanged]
    exact rule.same rfl rfl
  cases top : picked w.scene.session.state with
  | none =>
    have left : (do release; return none : Act (Option Overlay)).Keeps rule := keeps_release.result
    exact left.after before
  | some o =>
    apply (ensures_removeLocked o u).andThen
    rintro resume t ⟨removed, -⟩
    have taken : rule.Holds w.scene t.scene := by
      rw [removed]
      refine rule.trans before (rule.commit ?_)
      rw [unchanged]
      exact allowed _ o top
    have noted : (do
        note fun engine => .returned engine o.detach
        return some o.detach : Act (Option Overlay)).Keeps rule :=
      (still_note fun _ => rfl).thenKeeps fun _ => (still_pure _).keeps
    have left : (do
        release
        if resume then
          tell (.resume false)
        note fun engine => .returned engine o.detach
        return some o.detach : Act (Option Overlay)).Keeps rule := by
      refine keeps_release.bind fun _ => ?_
      split
      · exact (h _ rfl).bind fun _ => noted
      · exact noted
    exact left.after taken

/-- Taking a kind off keeps a rule that allows the overlays of the kind to go. -/
theorem keeps_popNamed (h : tell.Keeps rule) (kind : OverlayKind)
    (allowed : ∀ s o, s.find? kind = some o → rule.Allows s (removal o)) :
    (popNamed tell kind).Keeps rule := keeps_remove h (picks_popNamed kind) allowed

/-- What is dismissed is dismissable. -/
theorem keeps_dismiss (h : tell.Keeps rule) (kind : OverlayKind) :
    (dismiss tell kind).Keeps rule := by
  refine keeps_remove h (picks_dismiss kind) fun s o chosen => rule.ordinary ?_
  obtain ⟨shown, closable⟩ := Option.filter_eq_some_iff.1 chosen
  refine ⟨o, ?_, closable⟩
  rw [Overlay.kind_detach, kind_of_find? shown]
  exact shown

section
variable (allowed : ∀ s o, s.top? = some o → rule.Allows s (removal o))
include allowed

/-- Taking the top overlay off keeps a rule that allows the top one to go. -/
theorem keeps_pop (h : tell.Keeps rule) : (pop tell).Keeps rule := keeps_remove h picks_pop allowed

theorem keeps_popMany (h : tell.Keeps rule) (n : Nat) : (popMany tell n).Keeps rule := by
  induction n with
  | zero => exact (still_pure _).keeps
  | succ n ih =>
    refine (keeps_pop allowed h).bind fun popped => ?_
    cases popped with
    | none => exact (still_pure _).keeps
    | some o => exact ih.result

/-- Emptying the stack takes the top overlay off again and again. -/
theorem keeps_drain (h : tell.Keeps rule) : (drain tell).Keeps rule :=
  still_get.thenKeeps fun _ => keeps_popMany allowed h _

end

/-- Locking or unlocking a splash screen has to be allowed by the rule. -/
theorem keeps_setDismissable (value : Bool) (allowed : ∀ s, rule.Allows s (.dismissableSet value)) :
    (setDismissable value).Keeps rule :=
  .locked (still_state.thenKeeps fun _ => .ite (keeps_commit allowed).result (still_pure _).keeps)

theorem keeps_tryDepth (held : Bool) : (tryDepth held).Keeps rule := by
  have tried : (modifySession fun s => { s with locked := held }).Keeps rule :=
    keeps_modifySession fun _ => rfl
  exact tried.bind fun _ => still_get.thenKeeps fun _ => keeps_release.result

theorem still_made (spec : OverlaySpec) : spec.made.Still := still_work (Work.quiet_make spec)

end OverlayStack

/-! ## The host -/

namespace FrontEnd

open Act OverlayStack

variable {tell : Tell} {rule : Scene.Rule}

/-- A front end is created without a change of its session. -/
theorem keeps_create {ε : Type} (h : tell.Keeps rule) {setUp : Path → Work (Except ε Unit)}
    (quiet : ∀ directory, (setUp directory).Quiet) : (create tell setUp).Keeps rule := by
  refine still_get.thenKeeps fun w => (still_work (Work.quiet_install _)).thenKeeps fun _ => ?_
  refine (still_work (Work.quiet_ensureConfigured quiet)).thenKeeps fun result => ?_
  cases result with
  | error e => exact (still_pure _).keeps
  | ok ran => exact (still_log _ _).thenKeeps fun _ => (h _ rfl).result

theorem keeps_showNew (h : tell.Keeps rule) (spec : OverlaySpec) :
    (showNew tell spec).Keeps rule :=
  (still_made spec).thenKeeps fun o => keeps_present h o

/-- A start of graphics makes ordinary changes only. -/
theorem keeps_graphicsReady (h : tell.Keeps rule) (width height : Int32) :
    (graphicsReady tell width height).Keeps rule := by
  have committed : (locked (commit (.graphicsReady (.landscape width height)))).Keeps rule :=
    .locked (keeps_commit fun _ => rule.ordinary trivial)
  have showing : (showSplash tell).Keeps rule := keeps_showNew h (.splash true)
  exact committed.bind fun _ => (still_log _ _).thenKeeps fun _ => (h _ rfl).bind fun _ =>
    showing.result

/-- A resize makes an ordinary change, and tells the engine once graphics are ready. -/
theorem keeps_graphicsResized (h : tell.Keeps rule) (width height : Int32) :
    (graphicsResized tell width height).Keeps rule := by
  have committed : (commit (.resized (.landscape width height))).Keeps rule :=
    keeps_commit fun _ => rule.ordinary trivial
  refine keeps_acquire.bind fun _ => still_state.thenKeeps fun _ => committed.bind fun _ => ?_
  refine .ite ?_ ?_
  · exact keeps_release.bind fun _ => (still_log _ _).thenKeeps fun _ => h _ rfl
  · exact (still_log _ _).thenKeeps fun _ => keeps_release

theorem keeps_render (h : tell.Keeps rule) : (render tell).Keeps rule :=
  still_state.thenKeeps fun _ => .ite (h _ rfl) (still_pure _).keeps

/-- The host takes every overlay off as it pauses, dismissable or not. -/
theorem keeps_hostPaused (h : tell.Keeps rule)
    (allowed : ∀ s o, s.top? = some o → rule.Allows s (removal o)) :
    (hostPaused tell).Keeps rule := by
  have committed : (locked (commit .hostPaused)).Keeps rule :=
    .locked (keeps_commit fun _ => rule.ordinary trivial)
  have emptied : (do logDismissed (← OverlayStack.drain tell); tell (.pause true)).Keeps rule :=
    (keeps_drain allowed h).bind fun _ => (still_logDismissed _).thenKeeps fun _ => h _ rfl
  refine still_state.thenKeeps fun before => committed.bind fun _ => ?_
  split
  · exact (still_log _ _).thenKeeps fun _ => emptied
  · exact emptied

theorem keeps_hostResumed (h : tell.Keeps rule) : (hostResumed tell).Keeps rule := by
  have committed : (locked (commit .hostResumed)).Keeps rule :=
    .locked (keeps_commit fun _ => rule.ordinary trivial)
  refine still_state.thenKeeps fun before => committed.bind fun _ => .ite ?_ ?_
  · exact (still_log _ _).thenKeeps fun _ => h _ rfl
  · exact still_state.thenKeeps fun _ => (still_log _ _).keeps

/-! ### Menus and prompts -/

/-- The disk picker is put on like any overlay, if none is showing. -/
theorem keeps_showDisks (h : tell.Keeps rule) : (showDisks tell).Keeps rule :=
  still_state.thenKeeps fun _ => .ite (still_pure _).keeps <|
    still_get.thenKeeps fun _ => keeps_showNew h _

/-- The back key takes off what is dismissable, or opens the main menu. -/
theorem keeps_back (h : tell.Keeps rule) : (back tell).Keeps rule := by
  apply still_state.thenKeeps
  intro s
  split
  · exact (keeps_dismiss h _).result
  · exact (keeps_showNew h .mainMenu).result

/-- A button of the splash screen takes it off only if that is dismissable. -/
theorem keeps_pressSplash (h : tell.Keeps rule) (button : SplashButton) :
    (pressSplash tell button).Keeps rule := by
  apply still_state.thenKeeps
  intro s
  split
  · exact (still_pure none).keeps
  · rename_i splash _
    dsimp only
    cases SplashAction.ofPress splash.isDismissable button with
    | dismiss => exact (keeps_dismiss h _).result
    | showSettings => exact (keeps_showNew h .settingsMenu).result
    | showDisks => exact (keeps_showDisks h).result
    | ignored => exact (still_pure _).keeps

theorem keeps_selectMainMenu (h : tell.Keeps rule) (index : Nat) :
    (selectMainMenu tell index).Keeps rule := by
  refine still_state.thenKeeps fun s => .ite ?_ (still_pure none).keeps
  dsimp only
  cases MainMenuAction.ofRow index with
  | showSettings => exact (keeps_showNew h .settingsMenu).result
  | showDisks => exact (keeps_showDisks h).result
  | dismiss => exact (keeps_dismiss h _).result

/-- The disk picker, which is always dismissable, is taken off once a disk is chosen. -/
theorem keeps_chooseDisk (h : tell.Keeps rule) (index : Nat) (driveA readOnly : Bool) :
    (chooseDisk tell index driveA readOnly).Keeps rule := by
  apply still_state.thenKeeps
  intro s
  split
  · exact (still_pure none).keeps
  · exact (still_log _ _).thenKeeps fun _ => (h _ rfl).bind fun _ => (keeps_dismiss h _).result

/-- A reboot closes its prompt and the main menu, dismissable or not. -/
theorem keeps_confirm (h : tell.Keeps rule) (kind : ConfirmKind) (accepted : Bool)
    (allowed : ∀ {s c}, (Op.host (.confirm kind accepted)).Forces s c → rule.Allows s c) :
    (confirm tell kind accepted).Keeps rule := by
  refine still_state.thenKeeps fun _ => .ite (still_pure _).keeps ?_
  refine .ite (keeps_dismiss h _).result ?_
  cases kind with
  | quit => exact (still_log _ _).thenKeeps fun _ => (h _ rfl).result
  | reboot =>
    have prompt : (popNamed tell .rebootConfirm).Keeps rule :=
      keeps_popNamed h _ fun s o found => allowed ⟨o, .inl found, rfl⟩
    have menu : (popNamed tell .mainMenu).Keeps rule :=
      keeps_popNamed h _ fun s o found => allowed ⟨o, .inr found, rfl⟩
    exact (still_log _ _).thenKeeps fun _ => (h _ rfl).bind fun _ => prompt.bind fun _ => menu.result

/-! ### Keys and touches -/

/-- The press of a key that is not passed on does nothing. -/
theorem keeps_keyDown {code modifiers : Int32}
    (plain : (Op.host (.keyDown code modifiers)).keyCall? = none) :
    (keyDown tell code modifiers).Keeps rule := by
  unfold keyDown
  split
  · exact (still_pure false).keeps
  · rename_i passed
    rw [Op.keyCall?, if_neg passed] at plain
    cases plain

/-- The release of a key that is not passed on works the overlays at most. -/
theorem keeps_keyUp (h : tell.Keeps rule) {code modifiers : Int32}
    (plain : (Op.host (.keyUp code modifiers)).keyCall? = none) :
    (keyUp tell code modifiers).Keeps rule := by
  unfold keyUp
  split
  · exact (keeps_back h).result
  · rename_i back
    split
    · exact (keeps_showNew h .mainMenu).result
    · rename_i menu
      split
      · exact (still_pure false).keeps
      · rename_i volume
        rw [Op.keyCall?, if_neg (by simp [back, menu, volume])] at plain
        cases plain

theorem keeps_forward (h : tell.Keeps rule) (batch : TouchBatch) :
    (forward tell batch).Keeps rule := by
  have sent : (do
      let flags := (← get).engine.reply
      tell (.touch batch.sample)
      log .trace s!"{batch.sample.text} -> {Text.hex flags.bits.toNat}"
      return flags : Act TouchFlags).Keeps rule :=
    still_get.thenKeeps fun _ => (h _ rfl).bind fun _ => (still_log _ _).thenKeeps fun _ =>
      (still_pure _).keeps
  unfold forward
  exact .ite ((still_log _ _).thenKeeps fun _ => sent) sent

/-- A touch makes ordinary changes only, after the engine has answered. -/
theorem keeps_touch (h : tell.Keeps rule) (batch : TouchBatch) : (touch tell batch).Keeps rule := by
  refine still_state.thenKeeps fun _ => .ite (still_pure _).keeps ?_
  refine (keeps_forward h batch).bind fun flags => ?_
  exact .ite (keeps_showNew h .mainMenu).result (still_pure _).keeps

end FrontEnd

/-! ## Any operation -/

open Act OverlayStack FrontEnd

variable {tell : Tell} {rule : Scene.Rule}

/-- An operation on the stack keeps a rule that allows the changes it forces. -/
theorem StackOp.keeps_perform (h : tell.Keeps rule) (op : StackOp)
    (allowed : ∀ {s c}, (Op.stack op).Forces s c → rule.Allows s c) :
    (op.perform tell).Keeps rule := by
  cases op with
  | push spec site => exact (still_made spec).thenKeeps fun o => (keeps_push h site o).result
  | present spec => exact (still_made spec).thenKeeps fun o => (keeps_present h o).result
  | pop => exact (keeps_pop (fun s o top => allowed ⟨o, top, rfl⟩) h).result
  | popNamed kind => exact (keeps_popNamed h kind fun s o found => allowed ⟨o, found, rfl⟩).result
  | dismiss kind => exact (keeps_dismiss h kind).result
  | drain => exact (keeps_drain (fun s o top => allowed ⟨o, top, rfl⟩) h).result
  | setDismissable value => exact (keeps_setDismissable value fun s => allowed rfl).result
  | tryLock held => exact (keeps_tryDepth held).result

/-- So does an operation of the host that passes no key on. -/
theorem HostOp.keeps_perform (h : tell.Keeps rule) {op : HostOp}
    (plain : (Op.host op).keyCall? = none)
    (allowed : ∀ {s c}, (Op.host op).Forces s c → rule.Allows s c) :
    (op.perform tell).Keeps rule := by
  cases op with
  | create setUpError =>
    refine still_get.thenKeeps fun _ => (keeps_create h fun _ => .pure _).bind fun _ => ?_
    exact still_get.thenKeeps fun _ => (still_pure _).keeps
  | graphicsReady width height => exact (keeps_graphicsReady h width height).result
  | graphicsResized width height => exact (keeps_graphicsResized h width height).result
  | keyDown code modifiers => exact (keeps_keyDown plain).result
  | keyUp code modifiers => exact (keeps_keyUp h plain).result
  | back => exact (keeps_back h).result
  | render => exact (keeps_render h).result
  | hostPaused => exact (keeps_hostPaused h fun s o top => allowed ⟨o, top, rfl⟩).result
  | hostResumed => exact (keeps_hostResumed h).result
  | touch batch => exact (keeps_touch h batch).result
  | showSplash => exact (keeps_showNew h (.splash true)).result
  | showMainMenu => exact (keeps_showNew h .mainMenu).result
  | showSettings => exact (keeps_showNew h .settingsMenu).result
  | showDisks => exact (keeps_showDisks h).result
  | maybeQuit => exact (keeps_showNew h (.confirm .quit)).result
  | maybeReboot => exact (keeps_showNew h (.confirm .reboot)).result
  | pressSplash button => exact (keeps_pressSplash h button).result
  | selectMainMenu index => exact (keeps_selectMainMenu h index).result
  | selectSetting index => exact (still_selectSetting index).keeps.result
  | chooseDisk index driveA readOnly => exact (keeps_chooseDisk h index driveA readOnly).result
  | confirm kind accepted => exact (keeps_confirm h kind accepted allowed).result

namespace Op

/-- An operation that passes no key on keeps a rule that allows the changes it forces. -/
theorem keeps_body (h : tell.Keeps rule) {op : Op} (plain : op.keyCall? = none)
    (allowed : ∀ {s c}, op.Forces s c → rule.Allows s c) : (op.body tell).Keeps rule := by
  cases op with
  | stack op => exact StackOp.keeps_perform h op allowed
  | host op => exact HostOp.keeps_perform h plain allowed
  | crash op => exact (ReportOp.still_perform op).keeps
  | machine op => exact (still_work (Work.quiet_perform op)).keeps
  | outside op => exact (OutsideOp.still_perform op).keeps

/-- An operation that passes a key on does nothing else. -/
theorem body_of_keyCall {op : Op} {call : EngineCall} (passes : op.keyCall? = some call) :
    op.body tell = (do tell call; return .flag true) := by
  cases op with
  | host op =>
    cases op with
    | keyDown code modifiers =>
      obtain ⟨other, same⟩ := Option.ite_none_left_eq_some.1 passes
      obtain rfl := Option.some.inj same
      show (do return Answer.flag (← keyDown tell code modifiers)) = _
      rw [keyDown, if_neg other, bind_assoc]
      rfl
    | keyUp code modifiers =>
      obtain ⟨other, same⟩ := Option.ite_none_left_eq_some.1 passes
      obtain rfl := Option.some.inj same
      obtain ⟨back, menu, volume⟩ : code ≠ backKey ∧ code ≠ menuKey ∧ ¬ isVolumeKey code = true := by
        simpa only [not_or] using other
      show (do return Answer.flag (← keyUp tell code modifiers)) = _
      rw [keyUp, if_neg back, if_neg menu, if_neg volume, bind_assoc]
      rfl
    | _ => cases passes
  | stack | crash | machine | outside => cases passes

/-- A rule that every operation keeps is kept by operations in a row. -/
theorem keeps_performAll (h : ∀ op : Op, (op.perform tell).Keeps rule) (ops : List Op) :
    (performAll tell ops).Keeps rule := by
  induction ops with
  | nil => exact (still_pure ()).keeps
  | cons op rest ih => exact (h op).bind fun _ => ih

/-- A rule that every operation keeps goes from one operation of the host to the next. -/
theorem holds_runAll (h : ∀ (depth : Nat) (op : Op), (op.perform (tellWithin depth)).Keeps rule)
    (ops : List Op) (w : World) : rule.Holds w.scene (runAll ops w).2.scene := by
  induction ops generalizing w with
  | nil => exact rule.same rfl rfl
  | cons op rest ih =>
    have ran : (react op.perform).Keeps rule := still_get.thenKeeps fun _ => h _ op
    exact rule.trans (ran w).after (ih _)

end Op
end EmuFront
