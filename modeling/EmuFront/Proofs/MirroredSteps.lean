import EmuFront.Proofs.MirroredActs

/-!
# Steps in two worlds

An operation of the host in a world and in another that mirrors it, with all that the engine does from
inside its calls. It gives the same in both, leaves the same session state and shows the same, up to the
numbers of overlays. So do operations one after the other, whether they give answers or panic.
-/

namespace EmuFront

open Act FrontEnd OverlayStack

variable {f : Nat → Nat} {tell : Tell}

/-! ## Operations -/

theorem StackOp.mirrors_perform (h : tell.Agrees f) (op : StackOp) :
    (op.perform tell).Mirrors f (Answer.renumber f) (op.perform tell) := by
  cases op with
  | push spec site =>
    exact (mirrors_made spec).bind fun o =>
      (mirrors_push h site o).bind fun _ => mirrors_pure _ Answer.nothing
  | present spec =>
    exact (mirrors_made spec).bind fun o => (mirrors_present h o).result fun _ => rfl
  | pop => exact (mirrors_pop h).result fun _ => rfl
  | popNamed kind => exact (mirrors_popNamed h kind).result fun _ => rfl
  | dismiss kind => exact (mirrors_dismiss h kind).result fun _ => rfl
  | drain => exact (mirrors_drain h).result fun _ => rfl
  | setDismissable value => exact (agrees_setDismissable value).result fun _ => rfl
  | tryLock held => exact (agrees_tryDepth held).result fun _ => rfl

/-- Both creations set up the same directory, since that is shown. -/
theorem HostOp.mirrors_create (h : tell.Agrees f) (setUpError : Option String) :
    ((create setUpError).perform tell).Mirrors f (Answer.renumber f)
      ((create setUpError).perform tell) := by
  have created : ∀ {setUp : Path → Work (Except String Unit)}, (∀ d, (setUp d).Agrees f) →
      (FrontEnd.create tell setUp).Agrees f := agrees_create h
  refine mirrors_get fun w w' mirrors => ?_
  refine (created (fun _ => Work.Mirrors.pure id _) w w' mirrors).bind ?_
  intro result v v' _ between shown
  obtain ⟨added, added', timeline, timeline', shown⟩ := shown
  refine ⟨?_, between, .refl _ _⟩
  have later : v.machine.timeline.drop w.machine.timeline.length = added := by
    rw [timeline, List.drop_left]
  have later' : v'.machine.timeline.drop w'.machine.timeline.length = added' := by
    rw [timeline', List.drop_left]
  show Except.ok (Answer.created result (List.findSome? _ (v'.machine.timeline.drop _)) _) =
    Except.ok (Answer.created result (List.findSome? _ (v.machine.timeline.drop _)) _)
  rw [later, later', between.machine.configured, findSome?_of_shownIn shown]
  · intro e
    cases e <;> rfl
  · intro e
    cases e <;> rfl

theorem HostOp.mirrors_perform (h : tell.Agrees f) (op : HostOp) :
    (op.perform tell).Mirrors f (Answer.renumber f) (op.perform tell) := by
  cases op with
  | create setUpError => exact mirrors_create h setUpError
  | graphicsReady width height => exact (agrees_graphicsReady h width height).result fun _ => rfl
  | graphicsResized width height =>
    exact (agrees_graphicsResized h width height).result fun _ => rfl
  | keyDown code modifiers => exact (agrees_keyDown h code modifiers).result fun _ => rfl
  | keyUp code modifiers => exact (agrees_keyUp h code modifiers).result fun _ => rfl
  | back => exact (agrees_back h).result fun _ => rfl
  | render => exact (agrees_render h).result fun _ => rfl
  | hostPaused => exact (agrees_hostPaused h).result fun _ => rfl
  | hostResumed => exact (agrees_hostResumed h).result fun _ => rfl
  | touch batch => exact (agrees_touch h batch).result fun _ => rfl
  | showSplash => exact (agrees_showNew h (.splash true)).result fun _ => rfl
  | showMainMenu => exact (agrees_showNew h .mainMenu).result fun _ => rfl
  | showSettings => exact (agrees_showNew h .settingsMenu).result fun _ => rfl
  | showDisks => exact (agrees_showDisks h).result fun _ => rfl
  | maybeQuit => exact (agrees_showNew h (.confirm .quit)).result fun _ => rfl
  | maybeReboot => exact (agrees_showNew h (.confirm .reboot)).result fun _ => rfl
  | pressSplash button => exact (agrees_pressSplash h button).result fun _ => rfl
  | selectMainMenu index => exact (agrees_selectMainMenu h index).result fun _ => rfl
  | selectSetting index => exact (agrees_selectSetting index).result fun _ => rfl
  | chooseDisk index driveA readOnly =>
    exact (agrees_chooseDisk h index driveA readOnly).result fun _ => rfl
  | confirm kind accepted => exact (agrees_confirm h kind accepted).result fun _ => rfl

theorem OutsideOp.mirrors_perform (op : OutsideOp) :
    op.perform.Mirrors f (Answer.renumber f) op.perform := by
  cases op with
  | nothing => exact mirrors_pure _ Answer.nothing
  | setReply flags =>
    have set : (modify fun w => { w with engine := { w.engine with reply := flags } } :
        Act PUnit).Agrees f := fun w w' mirrors =>
      ⟨rfl, ⟨mirrors.machine, mirrors.config, mirrors.engine, mirrors.state, mirrors.locked,
        congrArg (fun e : EngineModel => { e with reply := flags }) mirrors.model,
        mirrors.allowed⟩, .refl _ _⟩
    exact set.bind fun _ => mirrors_pure _ Answer.nothing
  | showConfig =>
    refine mirrors_get fun w w' mirrors => ?_
    rw [mirrors.config]
    exact mirrors_pure _ (Answer.config w.front.config) w w' mirrors

namespace Op

theorem mirrors_perform (h : tell.Agrees f) {op : Op} (allowed : op.isFrontEnd = true) :
    (op.perform tell).Mirrors f (Answer.renumber f) (op.perform tell) := by
  have body : (op.body tell).Mirrors f (Answer.renumber f) (op.body tell) := by
    cases op with
    | stack op => exact StackOp.mirrors_perform h op
    | host op => exact HostOp.mirrors_perform h op
    | outside op => exact OutsideOp.mirrors_perform op
    | crash | machine => cases allowed
  refine mirrors_get fun w w' mirrors => ?_
  rw [mirrors.engine, mirrors.state]
  have begun : (work (Work.observe (.began w.front.engine op w.front.session.state))).Mirrors f id
      (work (Work.observe (.began w.front.engine op (w.front.session.state.renumber f)))) :=
    mirrors_work (Work.mirrors_observe rfl)
  exact begun.bind (fun _ => body) w w' mirrors

theorem agrees_performAll (h : tell.Agrees f) {ops : List Op}
    (allowed : ∀ op ∈ ops, op.isFrontEnd = true) : (performAll tell ops).Agrees f := by
  induction ops with
  | nil => exact agrees_pure ()
  | cons op rest ih =>
    obtain ⟨first, others⟩ := List.forall_mem_cons.1 allowed
    exact (mirrors_perform h first).bind fun _ => ih others

end Op

/-! ## The engine calling back -/

theorem Act.agrees_deliver (call : EngineCall) : (deliver call).Agrees f := by
  have delivered : ∀ (engine : EngineRef) (s s' : Session), s'.state = s.state.renumber f →
      s'.locked = s.locked → (do
        work (Work.observe (.told engine call s))
        work (Work.cross engine (Native.NativeCall.ofCall call)) : Act Unit).Mirrors f id (do
        work (Work.observe (.told engine call s'))
        work (Work.cross engine (Native.NativeCall.ofCall call))) := by
    intro engine s s' state locked
    have told : (work (Work.observe (.told engine call s))).Mirrors f id
        (work (Work.observe (.told engine call s'))) := by
      refine mirrors_work (Work.mirrors_observe ?_)
      show some (Event.told engine call ⟨s'.state, s'.locked, false⟩) =
        some (.told engine call ⟨s.state.renumber f, s.locked, false⟩)
      rw [state, locked]
    exact told.bind fun _ => agrees_work (Work.agrees_cross _ _)
  refine mirrors_get fun w w' mirrors => ?_
  rw [mirrors.engine]
  exact delivered _ _ _ mirrors.state mirrors.locked w w' mirrors

/-- However deep the engine calls back, calling it does the same in both worlds. -/
theorem agrees_tellWithin (depth : Nat) : (tellWithin depth).Agrees f := by
  induction depth with
  | zero => exact agrees_deliver
  | succ depth ih =>
    refine fun call => (agrees_deliver call).bind fun _ w w' mirrors => ?_
    have taken : EndAlike f id w w' (takeReaction call.name w) (takeReaction call.name w') := by
      refine ⟨?_, ⟨mirrors.machine, mirrors.config, mirrors.engine, mirrors.state, mirrors.locked,
        congrArg (fun e : EngineModel => { e with
          reactions := e.reactions.eraseP fun r => decide (r.on = call.name) }) mirrors.model,
        fun r member => mirrors.allowed r (List.mem_of_mem_eraseP member)⟩, .refl _ _⟩
      exact congrArg (fun e : EngineModel => Except.ok (e.reactions.find? _)) mirrors.model
    refine taken.bind fun reaction v v' took between _ => ?_
    cases reaction with
    | none => exact agrees_pure () v v' between
    | some reaction =>
      -- what the reaction holds is among what the engine will do
      have found : w.engine.reactions.find? (fun r => decide (r.on = call.name)) = some reaction :=
        Except.ok.inj (congrArg Prod.fst took)
      have allowed := mirrors.allowed reaction (List.mem_of_find?_eq_some found)
      exact Op.agrees_performAll ih allowed v v' between

/-! ## Steps of the host -/

/-- What an operation of the host gives, the session state that it leaves, and what it shows. -/
structure Step where
  result : Except Panic Answer
  state : SessionState
  events : List Event

/-- A step with the overlays under other numbers. -/
def Step.renumber (f : Nat → Nat) (s : Step) : Step where
  result := s.result.map (Answer.renumber f)
  state := s.state.renumber f
  events := s.events.map (Event.renumber f)

@[simp] theorem Step.renumber_id (s : Step) : s.renumber id = s := by
  obtain ⟨result, state, events⟩ := s
  have answers : Answer.renumber id = id := funext Answer.renumber_id
  have same : Event.renumber id = id := funext Event.renumber_id
  rw [renumber, answers, same, SessionState.renumber_id, List.map_id]
  cases result <;> rfl

namespace Op

/-- The step that an operation of the host is, which ends with an answer or in a panic. -/
def step (op : Op) (w : World) : Step where
  result := (op.run w).1
  state := (op.run w).2.front.session.state
  events := shownIn ((op.run w).2.machine.timeline.drop w.machine.timeline.length)

/-- The steps of the host, one after the other. -/
def steps : List Op → World → List Step
  | [], _ => []
  | op :: rest, w => op.step w :: steps rest (op.run w).2

theorem mirrors_run {op : Op} (allowed : op.isFrontEnd = true) :
    Act.Mirrors f (Answer.renumber f) (react op.perform) (react op.perform) := by
  refine mirrors_get fun w w' mirrors => ?_
  rw [mirrors.model]
  exact Op.mirrors_perform (agrees_tellWithin _) allowed w w' mirrors

variable {w w' : World}

theorem step_of_mirrors {op : Op} (allowed : op.isFrontEnd = true) (mirrors : w.Mirrors f w') :
    op.step w' = (op.step w).renumber f ∧ (op.run w).2.Mirrors f (op.run w').2 := by
  have ran : EndAlike f (Answer.renumber f) w w' (op.run w) (op.run w') :=
    mirrors_run allowed w w' mirrors
  obtain ⟨added, added', timeline, timeline', shown⟩ := ran.alongside
  refine ⟨?_, ran.mirrors⟩
  rw [step, step, ran.result, ran.mirrors.state, timeline, timeline', List.drop_left,
    List.drop_left, shown]
  rfl

/-- In worlds that mirror each other, the host takes the same steps. -/
theorem steps_of_mirrors {ops : List Op} (allowed : ∀ op ∈ ops, op.isFrontEnd = true)
    (mirrors : w.Mirrors f w') : steps ops w' = (steps ops w).map (Step.renumber f) := by
  induction ops generalizing w w' with
  | nil => rfl
  | cons op rest ih =>
    obtain ⟨first, others⟩ := List.forall_mem_cons.1 allowed
    obtain ⟨same, between⟩ := step_of_mirrors first mirrors
    rw [steps, steps, same, ih others between]
    rfl

end Op
end EmuFront
