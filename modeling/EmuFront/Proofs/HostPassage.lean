import EmuFront.Proofs.StackPassage

/-!
# Passages of operations

Every operation makes a passage, and so does the engine when it is called, however deep it calls
back. Where a call carries something, what the operation has read of the front end says that it is
genuine.
-/

namespace EmuFront

open Act

variable {tell : Tell} {allows : Op → Prop}

/-! ## Lifecycle -/

namespace FrontEnd

/-- The engine is created in the data directory, after the crash capture of the front end is
installed. -/
theorem passes_create {ε : Type} (h : tell.Passes allows) {setUp : Path → Work (Except ε Unit)}
    (plain : ∀ directory, (setUp directory).Plain) : (create tell setUp).Passes allows := by
  intro w ready
  rw [create, PassesFrom, ensures_bind, ensures_get]
  have installed : (Work.install (w.front.config.capture w.front.engine)).PassesFrom allows w :=
    Work.passesFrom_install _ (.inl rfl)
  refine PassesFrom.bind ready (passesFrom_work installed) fun _ v before ready' => ?_
  have configured : (work (ensureConfigured w.front.config.dataDir setUp)).Plain :=
    plain_work (Work.plain_ensureConfigured plain)
  refine PassesFrom.bind ready' (configured.passes allows v ready') fun result u setUp ready'' => ?_
  split
  · exact (plain_pure _).passes allows u ready''
  · have logged := plain_log .info
      s!"Creating engine in {w.front.config.dataDir.text} ({w.front.config.audio.text})"
    refine PassesFrom.bind ready'' (logged.passes allows u ready'') fun _ t noted ready''' => ?_
    -- the configuration is still that of the beginning
    have same : t.front.config = w.front.config :=
      (before.trans (setUp.trans noted)).keeps.1
    have genuine : (EngineCall.create w.front.config.dataDir w.front.config.audio).Genuine allows t :=
      congrArg Config.dataDir same.symm
    exact (h _ t ready''' genuine).bind ready''' fun _ r _ => (plain_pure _).passes allows r

theorem passes_showNew (h : tell.Passes allows) (spec : OverlaySpec) :
    (showNew tell spec).Passes allows := OverlayStack.passes_present_made h spec

/-- Graphics are committed, the engine is told, and the splash screen is shown. -/
theorem passes_graphicsReady (h : tell.Passes allows) (width height : Int32) :
    (graphicsReady tell width height).Passes allows := by
  have committed : (commit (.graphicsReady (.landscape width height))).Passes allows :=
    passes_commit rfl
  refine committed.locked.bind fun _ => (plain_log _ _).andThen fun _ => ?_
  exact (h.call (.graphicsReady _) fun _ => trivial).bind fun _ =>
    (passes_showNew h (.splash true)).result

/-- A resize is committed under the lock, and the engine is told once graphics are ready. -/
theorem passes_graphicsResized (h : tell.Passes allows) (width height : Int32) :
    (graphicsResized tell width height).Passes allows := by
  have committed : (commit (.resized (.landscape width height))).Passes allows := passes_commit rfl
  refine plain_acquire.andThen fun _ => plain_state.andThen fun _ => committed.bind fun _ => ?_
  refine .ite ?_ ?_
  · exact plain_release.andThen fun _ => (plain_log _ _).andThen fun _ =>
      h.call (.graphicsResized _) fun _ => trivial
  · exact (plain_log _ _).andThen fun _ => plain_release.passes allows

theorem passes_render (h : tell.Passes allows) : (render tell).Passes allows :=
  plain_state.andThen fun _ => .ite (h.call .render fun _ => trivial) ((plain_pure _).passes allows)

theorem plain_logDismissed (dismissed : List Overlay) : (logDismissed dismissed).Plain := by
  induction dismissed with
  | nil => exact plain_pure ()
  | cons o rest ih => exact (plain_log _ _).bind fun _ => ih

/-- All overlays are taken off before the engine is told to pause. -/
theorem passes_hostPaused (h : tell.Passes allows) : (hostPaused tell).Passes allows := by
  have committed : (commit .hostPaused).Passes allows := passes_commit rfl
  have emptied : (do logDismissed (← OverlayStack.drain tell); tell (.pause true)).Passes allows :=
    (OverlayStack.passes_drain h).bind fun _ => (plain_logDismissed _).andThen fun _ =>
      h.call (.pause true) fun _ => trivial
  refine plain_state.andThen fun _ => committed.locked.bind fun _ => ?_
  exact .ite ((plain_log _ _).andThen fun _ => emptied) emptied

/-- The engine is told to resume only if nothing else keeps it paused. -/
theorem passes_hostResumed (h : tell.Passes allows) : (hostResumed tell).Passes allows := by
  have committed : (commit .hostResumed).Passes allows := passes_commit rfl
  refine plain_state.andThen fun _ => committed.locked.bind fun _ => .ite ?_ ?_
  · exact (plain_log _ _).andThen fun _ => h.call (.resume true) fun _ => trivial
  · exact plain_state.andThen fun _ => (plain_log _ _).passes allows

/-! ## Menus and prompts -/

/-- A new disk picker is numbered as it is made, and then put on. -/
theorem passes_showDisks (h : tell.Passes allows) : (showDisks tell).Passes allows :=
  plain_state.andThen fun _ => .ite ((plain_pure false).passes allows)
    (plain_get.andThen fun _ => passes_showNew h _)

/-- The back key takes one overlay off or puts the main menu on. -/
theorem passes_back (h : tell.Passes allows) : (back tell).Passes allows := by
  apply plain_state.andThen
  intro s
  split
  · exact (OverlayStack.passes_dismiss h _).result
  · exact (passes_showNew h .mainMenu).result

/-- A button of the splash screen takes it off or opens the settings. -/
theorem passes_pressSplash (h : tell.Passes allows) (button : SplashButton) :
    (pressSplash tell button).Passes allows := by
  apply plain_state.andThen
  intro s
  split
  · exact (plain_pure none).passes allows
  · rename_i splash _
    dsimp only
    cases SplashAction.ofPress splash.isDismissable button with
    | dismiss => exact (OverlayStack.passes_dismiss h _).result
    | showSettings => exact (passes_showNew h .settingsMenu).result
    | showDisks => exact (passes_showDisks h).result
    | ignored => exact (plain_pure _).passes allows

/-- An entry of the main menu opens an overlay, or does what its action says. -/
theorem passes_selectMainMenu (h : tell.Passes allows) (index : Nat) :
    (selectMainMenu tell index).Passes allows := by
  refine plain_state.andThen fun s => .ite ?_ ((plain_pure none).passes allows)
  dsimp only
  cases MainMenuAction.ofRow index with
  | showSettings => exact (passes_showNew h .settingsMenu).result
  | showDisks => exact (passes_showDisks h).result
  | dismiss => exact (OverlayStack.passes_dismiss h _).result

theorem plain_selectSetting (index : Nat) : (selectSetting index).Plain := by
  apply plain_state.bind
  intro s
  split
  · exact plain_pure _
  · exact plain_pure none

/-- The image at an index of the picker that is showing is one of the images of an overlay on the
stack. -/
theorem genuine_chooseDisk {w : World} {index : Nat} {path : Path}
    (image : imageAt? w.front.session.state index = some path) (driveA readOnly : Bool) :
    (EngineCall.chooseDisk path driveA readOnly).Genuine allows w := by
  obtain ⟨menu, found, image⟩ := Option.bind_eq_some_iff.1 image
  obtain ⟨images, listed, image⟩ := Option.bind_eq_some_iff.1 image
  exact ⟨menu, List.mem_of_find?_eq_some found, images, listed, List.mem_of_getElem? image⟩

/-- The disk that is chosen is one of the picker showing, so that the call is genuine. -/
theorem passes_chooseDisk (h : tell.Passes allows) (index : Nat) (driveA readOnly : Bool) :
    (chooseDisk tell index driveA readOnly).Passes allows := by
  intro w ready
  rw [chooseDisk, PassesFrom, ensures_bind, ensures_state]
  split
  · exact (plain_pure none).passes allows w ready
  · rename_i path image
    let v := w.after (Work.log .info s!"Inserting {path.text} (drive {if driveA then 1 else 2})")
    have logged : Passage allows false w v := .plain (World.plain_after (Work.plain_log _ _) w)
    -- the log line leaves the picker where it is
    have chosen : (EngineCall.chooseDisk path driveA readOnly).Genuine allows w :=
      genuine_chooseDisk image driveA readOnly
    have genuine : (EngineCall.chooseDisk path driveA readOnly).Genuine allows v := chosen
    have ready' : v.Allows allows := logged.allows ready
    have closed : (do
        let _ ← OverlayStack.dismiss tell .disksMenu
        return some path : Act (Option Path)).Passes allows :=
      (OverlayStack.passes_dismiss h .disksMenu).result
    have inserted := (h _ v ready' genuine).bind ready' fun _ u _ => closed u
    exact inserted.after logged

/-- A dialog that is declined is taken off; of one that is accepted the engine is told first. -/
theorem passes_confirm (h : tell.Passes allows) (kind : ConfirmKind) (accepted : Bool) :
    (confirm tell kind accepted).Passes allows := by
  refine plain_state.andThen fun _ => .ite ((plain_pure _).passes allows) ?_
  refine .ite (OverlayStack.passes_dismiss h _).result ?_
  cases kind with
  | quit => exact (plain_log _ _).andThen fun _ => (h.call .quit fun _ => trivial).result
  | reboot =>
    refine (plain_log _ _).andThen fun _ => (h.call .reboot fun _ => trivial).bind fun _ => ?_
    exact (OverlayStack.passes_popNamed h _).bind fun _ => (OverlayStack.passes_popNamed h _).result

/-! ## Keys and touches -/

theorem passes_keyDown (h : tell.Passes allows) (code modifiers : Int32) :
    (keyDown tell code modifiers).Passes allows :=
  .ite ((plain_pure false).passes allows) (h.call (.keyDown code modifiers) fun _ => trivial).result

/-- The release of a key goes to the engine, or acts on the overlays. -/
theorem passes_keyUp (h : tell.Passes allows) (code modifiers : Int32) :
    (keyUp tell code modifiers).Passes allows := by
  refine .ite (passes_back h).result (.ite (passes_showNew h .mainMenu).result ?_)
  exact .ite ((plain_pure false).passes allows)
    (h.call (.keyUp code modifiers) fun _ => trivial).result

/-- A batch goes to the engine as the host gave it, so that the call is genuine. -/
theorem passes_forward (h : tell.Passes allows) {batch : TouchBatch}
    (allowed : allows (.host (.touch batch))) : (forward tell batch).Passes allows := by
  have sent : (do
      let flags := (← get).engine.reply
      tell (.touch batch.sample)
      log .trace s!"{batch.sample.text} -> {Text.hex flags.bits.toNat}"
      return flags : Act TouchFlags).Passes allows :=
    plain_get.andThen fun _ =>
      (h.call (.touch batch.sample) fun _ => ⟨batch, allowed, rfl⟩).bind fun _ =>
        (plain_log _ _).andThen fun _ => (plain_pure _).passes allows
  unfold forward
  exact .ite ((plain_log _ _).andThen fun _ => sent) sent

/-- A touch is passed on, and what the engine asks for is shown. -/
theorem passes_touch (h : tell.Passes allows) {batch : TouchBatch}
    (allowed : allows (.host (.touch batch))) : (touch tell batch).Passes allows := by
  refine plain_state.andThen fun _ => .ite ((plain_pure _).passes allows) ?_
  refine (passes_forward h allowed).bind fun flags => ?_
  exact .ite (passes_showNew h .mainMenu).result ((plain_pure _).passes allows)

end FrontEnd

open FrontEnd

/-! ## Any operation -/

/-- Every operation of the host makes a passage. -/
theorem HostOp.passes_perform (h : tell.Passes allows) {op : HostOp} (allowed : allows (.host op)) :
    (op.perform tell).Passes allows := by
  cases op with
  | create setUpError =>
    refine plain_get.andThen fun _ => (passes_create h fun _ => .pure _).bind fun _ => ?_
    exact plain_get.andThen fun _ => (plain_pure _).passes allows
  | graphicsReady width height => exact (passes_graphicsReady h width height).result
  | graphicsResized width height => exact (passes_graphicsResized h width height).result
  | keyDown code modifiers => exact (passes_keyDown h code modifiers).result
  | keyUp code modifiers => exact (passes_keyUp h code modifiers).result
  | back => exact (passes_back h).result
  | render => exact (passes_render h).result
  | hostPaused => exact (passes_hostPaused h).result
  | hostResumed => exact (passes_hostResumed h).result
  | touch batch => exact (passes_touch h allowed).result
  | showSplash => exact (passes_showNew h (.splash true)).result
  | showMainMenu => exact (passes_showNew h .mainMenu).result
  | showSettings => exact (passes_showNew h .settingsMenu).result
  | showDisks => exact (passes_showDisks h).result
  | maybeQuit => exact (passes_showNew h (.confirm .quit)).result
  | maybeReboot => exact (passes_showNew h (.confirm .reboot)).result
  | pressSplash button => exact (passes_pressSplash h button).result
  | selectMainMenu index => exact (passes_selectMainMenu h index).result
  | selectSetting index => exact ((plain_selectSetting index).passes allows).result
  | chooseDisk index driveA readOnly => exact (passes_chooseDisk h index driveA readOnly).result
  | confirm kind accepted => exact (passes_confirm h kind accepted).result

/-- What a reporter does is a matter of course if its work is. -/
theorem Act.plain_withReporter {α : Type} {part : CrashReporter → Work (α × CrashReporter)}
    (plain : ∀ r, (part r).Plain) : (withReporter part).Plain :=
  plain_get.bind fun _ => (plain_work (plain _)).bind fun _ =>
    .bind (fun _ => ⟨rfl, rfl, rfl, List.Subset.refl _, .refl _⟩) fun _ => plain_pure _

/-- What the host keeps of artifacts and of its reporter is a matter of course. -/
theorem ReportOp.plain_perform (op : ReportOp) : op.perform.Plain := by
  cases op with
  | checkCrashes =>
    exact (plain_withReporter fun r => (Work.routine_checkOnce r).plain).bind fun _ => plain_pure _
  | checkOnce =>
    exact (plain_withReporter fun r => (Work.routine_checkOnce r).plain).bind fun _ => plain_pure _
  | scan =>
    exact plain_get.bind fun _ => (plain_work (Work.routine_scanArtifacts _).plain).bind fun _ =>
      plain_pure _
  | crashesPresent =>
    exact plain_get.bind fun _ => (plain_work (Work.routine_crashesPresent _).plain).bind fun _ =>
      plain_pure _
  | saveScan =>
    refine plain_get.bind fun _ => (plain_work (Work.routine_scanArtifacts _).plain).bind fun _ => ?_
    exact .bind (fun _ => ⟨rfl, rfl, rfl, List.Subset.refl _, .refl _⟩) fun _ => plain_pure _
  | aggregate =>
    exact plain_get.bind fun _ => (plain_work (Work.routine_aggregate _ _).plain).bind fun _ =>
      plain_pure _
  | writeAggregate text =>
    exact plain_get.bind fun _ => (plain_work (Work.routine_writeAggregate _ _).plain).bind fun _ =>
      plain_pure _
  | send accept before during =>
    have sent : ∀ r : CrashReporter,
        (r.transmit (Transport.recording accept before during)).Plain := fun r =>
      Work.plain_transmit r fun report => (Work.routine_recording accept before during report).plain
    refine plain_get.bind fun _ => (plain_work (sent _).watch).bind fun result => ?_
    obtain ⟨⟨result, reporter⟩, events⟩ := result
    exact .bind (fun _ => ⟨rfl, rfl, rfl, List.Subset.refl _, .refl _⟩) fun _ => plain_pure _
  | discard =>
    exact plain_get.bind fun _ => (plain_work (Work.routine_discard _).plain).bind fun _ =>
      plain_pure _

/-- An operation on the machine alone makes a passage. -/
theorem MachineOp.passes_perform {op : MachineOp} (allowed : allows (.machine op)) :
    (work op.perform).Passes allows := by
  apply passes_work
  intro w
  cases op with
  | install config engine =>
    have installed : (Work.install (config.capture engine)).PassesFrom allows w :=
      Work.passesFrom_install _ (.inr ⟨config, engine, allowed, rfl⟩)
    exact installed.bind (Work.Plain.pure _).passesFrom
  | isInstalled => exact (Work.Plain.get.bind fun _ => .pure _).passesFrom
  | report kind trace =>
    exact (Work.passesFrom_report kind trace w).bind (Work.Plain.pure _).passesFrom
  | panic p => exact (Work.passesFrom_onPanic p w).bind (Work.Plain.pure _).passesFrom
  | changeDisk actions =>
    exact ((Work.routine_changeDisk actions).plain.bind fun _ => .pure _).passesFrom
  | showFile path => exact ((Work.routine_contents? path).plain.bind fun _ => .pure _).passesFrom
  | listFiles => exact ((Work.routine_askTree _).plain.bind fun _ => .pure _).passesFrom

theorem OutsideOp.plain_perform (op : OutsideOp) : op.perform.Plain := by
  cases op with
  | nothing => exact plain_pure _
  | setReply flags =>
    have set : (modify fun w => { w with engine := { w.engine with reply := flags } } :
        Act PUnit).Plain := fun _ => ⟨rfl, rfl, rfl, List.Subset.refl _, .refl _⟩
    exact set.bind fun _ => plain_pure _
  | showConfig => exact plain_get.bind fun _ => plain_pure _

namespace Op

/-- What an operation does once it has begun makes a passage. -/
theorem passes_body (h : tell.Passes allows) {op : Op} (allowed : allows op) :
    (op.body tell).Passes allows := by
  cases op with
  | stack op => exact StackOp.passes_perform h op
  | host op => exact HostOp.passes_perform h allowed
  | crash op => exact (ReportOp.plain_perform op).passes allows
  | machine op => exact MachineOp.passes_perform allowed
  | outside op => exact (OutsideOp.plain_perform op).passes allows

theorem passes_perform (h : tell.Passes allows) {op : Op} (allowed : allows op) :
    (op.perform tell).Passes allows := by
  have begun : ∀ (front : FrontEnd),
      (work (Work.observe (.began front.engine op front.session.state))).Plain := fun _ =>
    plain_work (Work.plain_observe rfl)
  exact plain_get.andThen fun _ => (begun _).andThen fun _ => passes_body h allowed

/-- Allowed operations in a row make a passage. -/
theorem passes_performAll (h : tell.Passes allows) {ops : List Op} (allowed : ∀ op ∈ ops, allows op) :
    (performAll tell ops).Passes allows := by
  induction ops with
  | nil => exact (plain_pure ()).passes allows
  | cons op rest ih =>
    obtain ⟨first, others⟩ := List.forall_mem_cons.1 allowed
    exact (passes_perform h first).bind fun _ => ih others

end Op

/-! ## The engine calling back -/

/-- Taking a reaction uses it up. -/
theorem Act.ensures_takeReaction (name : CallName) (w : World) :
    (takeReaction name).Ensures w
      (fun reaction v => w.Plain v ∧ ∀ r, reaction = some r → r ∈ w.engine.reactions)
      fun _ => False := by
  refine ⟨⟨rfl, rfl, rfl, fun r member => List.mem_of_mem_eraseP member, .refl _⟩, ?_⟩
  intro r found
  exact List.mem_of_find?_eq_some found

/-- However deep the engine calls back, it receives the call first, and then makes a passage. -/
theorem ensures_tellWithin (depth : Nat) (call : EngineCall) (w : World) (ready : w.Allows allows) :
    Act.Ensures (tellWithin depth call) w (fun _ v => Passage allows false (w.told call) v)
      fun v => Passage allows true (w.told call) v := by
  induction depth generalizing call w with
  | zero => exact Passage.refl _
  | succ depth ih =>
    have deeper : (tellWithin depth).Passes allows := fun call w ready genuine =>
      (ih call w ready).mono (fun _ _ => (Passage.tell genuine).trans) fun _ =>
        (Passage.tell genuine).trans
    have delivered : (deliver call).Ensures w (fun _ v => v = w.told call) fun _ => False := rfl
    apply delivered.andThen
    rintro _ _ rfl
    have ready' : (w.told call).Allows allows := ready
    apply (ensures_takeReaction call.name _).andThen
    intro reaction u taken
    obtain ⟨plain, held⟩ := taken
    have before : Passage allows false (w.told call) u := .plain plain
    cases reaction with
    | none => exact before
    | some reaction =>
      -- what the reaction holds is allowed, and calls the engine one level deeper
      have reacts := Op.passes_performAll deeper (ready' reaction (held _ rfl))
      exact (reacts u (before.allows ready')).after before

/-- However deep the engine calls back, it receives every genuine call and makes a passage. -/
theorem passes_tellWithin (depth : Nat) : (tellWithin depth).Passes allows :=
  fun call w ready genuine =>
    (ensures_tellWithin depth call w ready).mono (fun _ _ => (Passage.tell genuine).trans)
      fun _ => (Passage.tell genuine).trans

/-- An engine that calls back makes passages if it does so one level deeper. -/
theorem passes_react {α : Type} {part : Tell → Act α}
    (h : ∀ tell : Tell, tell.Passes allows → (part tell).Passes allows) :
    (react part).Passes allows :=
  plain_get.andThen fun _ => h _ (passes_tellWithin _)

/-- An operation makes a passage, which is broken if it ends in a panic. -/
theorem Op.passesFrom_run {op : Op} (allowed : allows op) {w : World} (ready : w.Allows allows) :
    (react op.perform).PassesFrom allows w :=
  passes_react (fun _ h => Op.passes_perform h allowed) w ready

/-- What is true of no passage at all, of each passage, and of one after the other, broken or not, is
true of operations of the host in order. -/
theorem Op.runAll_passes {motive : World → World → Prop} (refl : ∀ w, motive w w)
    (trans : ∀ {u v w}, motive u v → motive v w → motive u w)
    (step : ∀ {broken u v}, Passage allows broken u v → motive u v) {ops : List Op}
    (allowed : ∀ op ∈ ops, allows op) {w : World} (ready : w.Allows allows) :
    motive w (Op.runAll ops w).2 := by
  induction ops generalizing w with
  | nil => exact refl w
  | cons op rest ih =>
    obtain ⟨first, others⟩ := List.forall_mem_cons.1 allowed
    -- the operation makes a passage, whether it gives an answer or panics
    have ran : (react op.perform).Ensures w (fun _ v => motive w v ∧ v.Allows allows)
        fun v => motive w v ∧ v.Allows allows :=
      (Op.passesFrom_run first ready).mono
        (fun _ _ passage => ⟨step passage, passage.allows ready⟩)
        fun _ passage => ⟨step passage, passage.allows ready⟩
    obtain ⟨before, ready'⟩ := ran.after
    exact trans before (ih others ready')

/-! ## Touches reach the engine -/

/-- The engine hears a call before anything else of note, and a passage comes after it. -/
def World.Hears (allows : Op → Prop) (call : EngineCall) (broken : Bool) (w v : World) : Prop :=
  ∃ u : World, w.Plain u ∧ Passage allows broken (u.told call) v

/-- What comes after a call has been heard belongs to the same passage. -/
theorem World.Hears.trans {call : EngineCall} {broken : Bool} {w v u : World}
    (h : w.Hears allows call false v) (rest : Passage allows broken v u) :
    w.Hears allows call broken u := by
  obtain ⟨t, plain, passage⟩ := h
  exact ⟨t, plain, passage.trans rest⟩

/-- A call that was heard leaves the engine with no more to do than it was allowed. -/
theorem World.Hears.ready {call : EngineCall} {broken : Bool} {w v : World}
    (h : w.Hears allows call broken v) (ready : w.Allows allows) : v.Allows allows := by
  obtain ⟨t, plain, passage⟩ := h
  have told : (t.told call).Allows allows := (Passage.plain plain).allows ready
  exact passage.allows told

namespace FrontEnd

/-- A batch that is forwarded is heard as its sample, and the engine's reply comes back. -/
theorem ensures_forward (depth : Nat) (batch : TouchBatch) (w : World) (ready : w.Allows allows) :
    (forward (tellWithin depth) batch).Ensures w
      (fun flags v => flags = w.engine.reply ∧ w.Hears allows (.touch batch.sample) false v)
      (w.Hears allows (.touch batch.sample) true) := by
  have sent : ∀ u : World, w.Plain u → u.engine.reply = w.engine.reply → (do
      let flags := (← get).engine.reply
      tellWithin depth (.touch batch.sample)
      log .trace s!"{batch.sample.text} -> {Text.hex flags.bits.toNat}"
      return flags : Act TouchFlags).Ensures u
      (fun flags v => flags = w.engine.reply ∧ w.Hears allows (.touch batch.sample) false v)
      (w.Hears allows (.touch batch.sample) true) := by
    intro u plain same
    refine ensures_bind.2 (ensures_get.2 ?_)
    have ready' : u.Allows allows := (Passage.plain plain).allows ready
    have told := ensures_tellWithin depth (.touch batch.sample) u ready'
    refine told.bind (fun _ v passage => ?_) fun _ passage => ⟨u, plain, passage⟩
    refine ⟨same, u, plain, passage.trans (.plain ?_)⟩
    exact World.plain_after (Work.plain_log _ _) v
  unfold forward
  split
  · exact ensures_bind.2 (ensures_work.2 (sent _ (World.plain_after (Work.plain_log _ _) w) rfl))
  · exact sent w (.refl w) rfl

/-- While no overlay is showing, a batch is heard as its sample, and its outcome is read off the
engine's reply. -/
theorem ensures_touch (depth : Nat) (batch : TouchBatch) {w : World} (ready : w.Allows allows)
    (shown : w.front.session.state.graphicsReady = true) (empty : w.front.session.state.stack = []) :
    (touch (tellWithin depth) batch).Ensures w
      (fun outcome v => outcome = .ofFlags w.engine.reply ∧
        w.Hears allows (.touch batch.sample) false v)
      (w.Hears allows (.touch batch.sample) true) := by
  have forwards : ¬ ((!w.front.session.state.graphicsReady ||
      decide (0 < w.front.session.state.depth)) = true) := by
    simp [SessionState.depth, shown, empty]
  refine ensures_bind.2 (ensures_state.2 ?_)
  rw [if_neg forwards]
  refine (ensures_forward depth batch w ready).bind (fun flags v heard => ?_) fun _ => id
  obtain ⟨rfl, hears⟩ := heard
  dsimp only
  split
  · have menu := passes_showNew (passes_tellWithin depth) .mainMenu v (hears.ready ready)
    refine Ensures.bind menu (fun _ u passage => ?_) fun _ => hears.trans
    exact ⟨rfl, hears.trans passage⟩
  · exact ⟨rfl, hears⟩

end FrontEnd

end EmuFront
