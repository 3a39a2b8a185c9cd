import EmuFront.Proofs.Keeping

/-!
# What becomes of a splash screen that is not dismissable

A splash screen that is not dismissable is left alone by all but a few operations: those that take
overlays off from the top, whatever they are, or a splash screen by its kind, and the one that opens
it to dismissal. Every other operation commits only changes that spare it, until such an operation is
begun from inside a call to the engine.
-/

namespace EmuFront

/-! ## Changes that spare the splash screen -/

/-- Whether an operation may take a splash screen off that is not dismissable, or make it
dismissable. -/
def Op.freesSplash : Op → Bool
  | .stack .pop | .stack .drain | .stack (.popNamed .splashScreen) | .stack (.setDismissable true)
  | .host .hostPaused => true
  | _ => false

/-- Whether an event begins none of the operations that may free a splash screen. -/
def Event.isCalm : Event → Bool
  | .began _ op _ => !op.freesSplash
  | _ => true

namespace SessionState

variable {s : SessionState} {c : Change} {first rest : List Change}

/-- A change takes no splash screen off that is not dismissable, and makes none dismissable. -/
def Spares (s : SessionState) : Change → Prop
  | .removed o => o.kind = .splashScreen →
    ∀ splash, s.find? .splashScreen = some splash → splash.isDismissable = true
  | .dismissableSet value => value = false
  | _ => True

/-- Changes in order, each of which spares the splash screen where those before it have led. -/
def SparesAll : SessionState → List Change → Prop
  | _, [] => True
  | s, c :: rest => s.Spares c ∧ (s.apply c).SparesAll rest

/-- Changes in a row spare the splash screen if each does where it is made. -/
theorem sparesAll_append :
    s.SparesAll (first ++ rest) ↔ s.SparesAll first ∧ (s.after first).SparesAll rest := by
  induction first generalizing s with
  | nil => exact (iff_of_eq (true_and _)).symm
  | cons c first ih =>
    show s.Spares c ∧ (s.apply c).SparesAll (first ++ rest) ↔ _
    rw [ih, ← and_assoc]
    rfl

/-- Taking an overlay of another kind off spares the splash screen. -/
theorem spares_removal {kind : OverlayKind} {o : Overlay} (found : s.find? kind = some o)
    (other : kind ≠ .splashScreen) : s.Spares (OverlayStack.removal o) := by
  intro splash
  have same : o.kind = .splashScreen := (Overlay.kind_detach o).symm.trans splash
  exact absurd ((OverlayStack.kind_of_find? found).symm.trans same) other

/-- An ordinary change takes off what is dismissable only, and so no locked splash screen. -/
theorem Ordinary.spares (h : s.Ordinary c) : s.Spares c := by
  cases c with
  | removed o =>
    obtain ⟨shown, found, closable⟩ := h
    intro same splash found'
    rw [same, found'] at found
    obtain rfl := Option.some.inj found
    exact closable
  | dismissableSet value => exact h.elim
  | _ => trivial

end SessionState

/-- An operation that may not free the splash screen forces only changes that spare it. -/
theorem Op.Forces.spares {op : Op} {s : SessionState} {c : Change} (forced : op.Forces s c)
    (calm : op.freesSplash = false) : s.Spares c := by
  cases op with
  | stack op =>
    cases op with
    | popNamed kind =>
      obtain ⟨o, found, rfl⟩ := forced
      refine SessionState.spares_removal found ?_
      rintro rfl
      cases calm
    | setDismissable value =>
      obtain rfl := forced
      cases value with
      | false => rfl
      | true => cases calm
    | pop | drain => cases calm
    | _ => exact forced.elim
  | host op =>
    cases op with
    | hostPaused => cases calm
    | confirm kind accepted =>
      cases kind with
      | quit => exact forced.elim
      | reboot =>
        obtain ⟨o, found | found, rfl⟩ := forced
        · exact SessionState.spares_removal found nofun
        · exact SessionState.spares_removal found nofun
    | _ => exact forced.elim
  | crash | machine | outside => exact forced.elim

/-! ## From scene to scene -/

namespace Scene

variable {watched : Prop} {a b c : Scene}

/-- From one scene to another the session takes the changes that are added to the trace. Where it is
watched, these spare the splash screen until an operation is begun that may free it. -/
def Spares (watched : Prop) (a b : Scene) : Prop :=
  ∃ added, b.trace = a.trace ++ added ∧ b.session.state = a.session.state.after (changesOf added) ∧
    (watched → a.session.state.SparesAll (changesOf (added.takeWhile Event.isCalm)))

theorem Spares.of_same (trace : b.trace = a.trace) (state : b.session.state = a.session.state) :
    a.Spares watched b := ⟨[], trace.trans (List.append_nil _).symm, state, fun _ => trivial⟩

/-- What spares the splash screen twice spares it. -/
theorem Spares.trans (first : a.Spares watched b) (rest : b.Spares watched c) :
    a.Spares watched c := by
  obtain ⟨xs, trace, state, spared⟩ := first
  obtain ⟨ys, trace', state', spared'⟩ := rest
  refine ⟨xs ++ ys, by rw [trace', trace, List.append_assoc], ?_, fun watch => ?_⟩
  · rw [state', state, changesOf_append]
    exact List.foldl_append.symm
  · have before := spared watch
    rw [List.takeWhile_append]
    split
    · -- all of the first part is calm, and the second goes on where it has led
      rename_i calm
      have whole : xs.takeWhile Event.isCalm = xs :=
        (List.takeWhile_prefix _).eq_of_length calm
      rw [whole] at before
      rw [changesOf_append, SessionState.sparesAll_append, ← state]
      exact ⟨before, spared' watch⟩
    · exact before

theorem Spares.unwatched (h : a.Spares watched b) : a.Spares False b := by
  obtain ⟨added, trace, state, -⟩ := h
  exact ⟨added, trace, state, False.elim⟩

/-- A change has to spare the splash screen while it is watched. -/
theorem spares_commit (a : Scene) {c : Change} (spared : watched → a.session.state.Spares c) :
    a.Spares watched (a.commit c) :=
  ⟨[.committed a.engine c], rfl, rfl, fun watch => ⟨spared watch, trivial⟩⟩

theorem spares_observe (a : Scene) {e : Event} (change : e.change? = none) :
    a.Spares watched (a.observe e) := by
  have nothing : changesOf [e] = [] := List.filterMap_cons_none change
  refine ⟨[e], rfl, ?_, fun _ => ?_⟩
  · rw [nothing]
    rfl
  · have fewer : changesOf ([e].takeWhile Event.isCalm) = [] := by
      rw [List.takeWhile_cons]
      split
      · exact nothing
      · rfl
    rw [fewer]
    trivial

/-- Once an operation is begun that may free the splash screen, nothing more is asked for. -/
theorem Spares.of_began {e : EngineRef} {op : Op} {s : SessionState} (frees : op.freesSplash = true)
    (h : (a.observe (.began e op s)).Spares False b) : a.Spares watched b := by
  obtain ⟨added, trace, state, -⟩ := h
  refine ⟨.began e op s :: added, ?_, state, fun _ => ?_⟩
  · rw [trace, observe, List.append_assoc]
    rfl
  · rw [List.takeWhile_cons_of_neg (by simp [Event.isCalm, frees])]
    trivial

/-- Changes that are made while the session is watched spare the splash screen. -/
def sparing (watched : Prop) : Rule where
  Holds := Scene.Spares watched
  Allows s c := watched → s.Spares c
  ordinary ordinary _ := ordinary.spares
  same := .of_same
  commit spared := spares_commit _ spared
  trans := .trans

end Scene

/-! ## Actions -/

/-- An action after which the changes since, if they are watched, have spared the splash screen. -/
def Act.Spares {α : Type} (act : Act α) (watched : Prop) : Prop :=
  ∀ w : World, act.Ensures w (fun _ v => w.scene.Spares watched v.scene)
    fun v => w.scene.Spares watched v.scene

/-- A way to call the engine that spares the splash screen, until an operation is begun that may free
it. -/
def Tell.Spares (tell : Tell) (watched : Prop) : Prop := ∀ call, Act.Spares (tell call) watched

open Act

variable {tell : Tell} {watched : Prop}

theorem Act.Spares.keeps {α : Type} {act : Act α} (h : act.Spares watched) :
    act.Keeps (Scene.sparing watched) := h

theorem Act.Keeps.spares {α : Type} {act : Act α} (h : act.Keeps (Scene.sparing watched)) :
    act.Spares watched := h

theorem Tell.Spares.keeps (h : tell.Spares watched) : tell.Keeps (Scene.sparing watched) :=
  fun call _ => h call

theorem Tell.Spares.unwatched (h : tell.Spares watched) : tell.Spares False := fun call w =>
  (h call w).mono (fun _ _ => .unwatched) fun _ => .unwatched

/-! ## Any operation -/

namespace Op

/-- An operation that frees no splash screen spares a locked one. -/
theorem spares_body (h : tell.Spares watched) (op : Op) (calm : watched → op.freesSplash = false) :
    (op.body tell).Spares watched := by
  cases passes : op.keyCall? with
  | none => exact (keeps_body h.keeps passes fun forced watch => forced.spares (calm watch)).spares
  | some call =>
    rw [body_of_keyCall passes]
    exact (h call).keeps.result.spares

/-- Any operation may be performed: one that may free the splash screen is begun first. -/
theorem spares_perform (h : tell.Spares watched) (op : Op) : (op.perform tell).Spares watched := by
  intro w
  apply ensures_perform
  intro v begun
  cases frees : op.freesSplash with
  | false =>
    have before : w.scene.Spares watched v.scene := by
      rw [begun]
      exact w.scene.spares_observe rfl
    exact (spares_body h op fun _ => frees).keeps.after before
  | true =>
    have after := spares_body h.unwatched op False.elim v
    rw [begun] at after
    exact after.mono (fun _ _ => .of_began frees) fun _ => .of_began frees

/-- So do operations in a row. -/
theorem spares_performAll (h : tell.Spares watched) (ops : List Op) :
    (performAll tell ops).Spares watched :=
  (keeps_performAll (fun op => (spares_perform h op).keeps) ops).spares

end Op

/-! ## The engine calling back -/

theorem Act.spares_deliver (call : EngineCall) : (deliver call).Spares watched := fun w =>
  (ensures_deliver call w).mono (fun _ v told => by
    rw [told]
    exact w.scene.spares_observe rfl) fun _ => False.elim

/-- However deep the engine calls back, calling it spares the splash screen until an operation is
begun that may free it. -/
theorem spares_tellWithin (depth : Nat) : (tellWithin depth).Spares watched := by
  induction depth with
  | zero => exact spares_deliver
  | succ depth ih =>
    refine fun call => (spares_deliver call).keeps.bind fun _ =>
      (still_takeReaction call.name).thenKeeps fun reaction => ?_
    cases reaction with
    | none => exact (still_pure ()).keeps
    | some reaction => exact Op.spares_performAll ih reaction.ops

/-- Operations of the host one after the other spare the splash screen until one is begun, by the host
or by the engine, that may free it. -/
theorem Op.spares_runAll (ops : List Op) (w : World) :
    w.scene.Spares watched (runAll ops w).2.scene :=
  holds_runAll (fun depth op => (op.spares_perform (spares_tellWithin depth)).keeps) ops w

end EmuFront
