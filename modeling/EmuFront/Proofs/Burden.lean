import EmuFront.Proofs.Passage
import EmuFront.Proofs.SignalLog
import Mathlib.Algebra.GroupWithZero.Nat

/-!
# What is left to take off

The burden of a world is the depth of its stack and the operations that its engine may still do from
inside its calls. An operation puts at most one overlay on, and the engine gives up an operation for
each that it does, so that calling the engine never adds to the burden. Only a second overlay of a
kind makes an action panic, and then the operation that was to put it on has been begun.
-/

namespace EmuFront

/-- Whether an operation is begun that puts a second overlay of a kind on the stack. -/
def Event.isDoublePush : Event → Bool
  | .began _ (.stack (.push spec _)) s => s.shows spec.kind
  | _ => false

/-! ## Operations left -/

namespace EngineModel

/-- The operations of reactions, counted. -/
private theorem foldl_ops (reactions : List Reaction) (n : Nat) :
    reactions.foldl (fun left r => left + r.ops.length) n =
      n + (reactions.map fun r => r.ops.length).sum := by
  induction reactions generalizing n with
  | nil => rfl
  | cons r rest ih =>
    rw [List.foldl_cons, ih, List.map_cons, List.sum_cons, Nat.add_assoc]

/-- The operations left are those of all reactions together. -/
theorem operationsLeft_eq (e : EngineModel) :
    e.operationsLeft = (e.reactions.map fun r => r.ops.length).sum := by
  rw [operationsLeft, foldl_ops, Nat.zero_add]

/-- A reaction that is taken out takes its operations with it. -/
theorem operationsLeft_eraseP (e : EngineModel) (p : Reaction → Bool) :
    EngineModel.operationsLeft { e with reactions := e.reactions.eraseP p } +
      ((e.reactions.find? p).map fun r => r.ops.length).getD 0 = e.operationsLeft := by
  rw [operationsLeft_eq, operationsLeft_eq]
  dsimp only
  induction e.reactions with
  | nil => rfl
  | cons r rest ih =>
    cases accepted : p r with
    | true =>
      rw [List.eraseP_cons_of_pos accepted, List.find?_cons_of_pos accepted, List.map_cons,
        List.sum_cons, Nat.add_comm]
      rfl
    | false =>
      have refused : ¬ p r = true := Bool.eq_false_iff.1 accepted
      rw [List.eraseP_cons_of_neg refused, List.find?_cons_of_neg refused, List.map_cons,
        List.map_cons, List.sum_cons, List.sum_cons, Nat.add_assoc, ih]

end EngineModel

/-! ## Burdens -/

namespace World

/-- The overlays that may have to be taken off before the stack stays empty. -/
def burden (w : World) : Nat := w.front.session.state.depth + w.engine.operationsLeft

/-- A world in which neither the session state nor the engine has changed, and nothing was added to
the trace. -/
structure Idle (w v : World) : Prop where
  trace : v.machine.trace = w.machine.trace
  state : v.front.session.state = w.front.session.state
  reactions : v.engine.reactions = w.engine.reactions

/-- What has happened was added to the trace, and so much to the burden at most. -/
structure Bears (k : Nat) (w v : World) : Prop where
  trace : w.machine.trace <+: v.machine.trace
  burden : v.burden ≤ w.burden + k

/-- An operation was begun since that puts a second overlay of a kind on. -/
def Blames (w v : World) : Prop :=
  ∃ added, v.machine.trace = w.machine.trace ++ added ∧ ∃ e ∈ added, e.isDoublePush = true

variable {j k : Nat} {u v w : World}

theorem Idle.refl (w : World) : w.Idle w := ⟨rfl, rfl, rfl⟩

theorem Idle.trans (first : u.Idle v) (rest : v.Idle w) : u.Idle w :=
  ⟨rest.trace.trans first.trace, rest.state.trans first.state, rest.reactions.trans first.reactions⟩

/-- Where nothing has changed, there is no more to take off. -/
theorem Idle.burden (idle : w.Idle v) : v.burden = w.burden := by
  rw [World.burden, World.burden, idle.state, EngineModel.operationsLeft_eq,
    EngineModel.operationsLeft_eq, idle.reactions]

/-- A world in which nothing has changed bears anything. -/
theorem Idle.bears (idle : w.Idle v) (k : Nat) : w.Bears k v where
  trace := idle.trace ▸ List.prefix_rfl
  burden := by
    rw [idle.burden]
    exact Nat.le_add_right _ _

/-- What is borne one after the other adds up. -/
theorem Bears.trans (first : u.Bears j v) (rest : v.Bears k w) : u.Bears (j + k) w where
  trace := first.trace.trans rest.trace
  burden := by
    have before := first.burden
    have after := rest.burden
    omega

theorem Bears.mono (h : w.Bears j v) (le : j ≤ k) : w.Bears k v :=
  ⟨h.trace, Nat.le_trans h.burden (Nat.add_le_add_left le _)⟩

/-- A double push that was begun later has been begun since the start, too. -/
theorem Bears.blames (first : u.Bears k v) (rest : v.Blames w) : u.Blames w := by
  obtain ⟨before, same⟩ := first.trace
  obtain ⟨added, trace, e, member, double⟩ := rest
  refine ⟨before ++ added, ?_, e, List.mem_append_right _ member, double⟩
  rw [trace, ← same, List.append_assoc]

end World

namespace Act

variable {α β : Type} {j k : Nat} {w : World}

/-- An action that leaves session and engine as they are and does not panic. -/
def Idle (act : Act α) : Prop := ∀ w : World, act.Ensures w (fun _ v => w.Idle v) fun _ => False

/-- An action that adds so much to the burden at most, and panics only over a second overlay of a
kind. -/
def Bears (act : Act α) (k : Nat) : Prop :=
  ∀ w : World, act.Ensures w (fun _ v => w.Bears k v) fun v => w.Blames v

/-! ### Idle actions -/

/-- Quiet work on the machine leaves no trace in a session. -/
theorem idle_work {part : Work α} (quiet : part.Quiet) : (work part).Idle :=
  fun w => ⟨quiet w.machine, rfl, rfl⟩

theorem idle_log (level : LogLevel) (message : String) : (log level message).Idle :=
  idle_work (Work.quiet_log level message)

/-- Noting an event that is none of a session's changes nothing that counts. -/
theorem idle_note {event : EngineRef → Event} (apart : ∀ e, (event e).ofSession = false) :
    (note event).Idle :=
  fun w => idle_work (Work.quiet_observe (apart w.front.engine)) w

theorem idle_pure (a : α) : (pure a : Act α).Idle := fun w => .refl w

theorem idle_get : (get : Act World).Idle := fun w => .refl w

theorem idle_state : state.Idle := fun w => .refl w

/-- Taking, freeing and poisoning the lock leaves the session state as it is. -/
theorem idle_modifySession {change : Session → Session} (h : ∀ s, (change s).state = s.state) :
    (modifySession change).Idle :=
  fun w => ⟨rfl, h w.front.session, rfl⟩

theorem idle_acquire : acquire.Idle := idle_modifySession fun _ => rfl

theorem idle_release : release.Idle := idle_modifySession fun _ => rfl

/-- Two idle actions in a row are idle. -/
theorem Idle.bind {act : Act β} {next : β → Act α} (first : act.Idle)
    (rest : ∀ b, (next b).Idle) : (act >>= next).Idle := fun w =>
  (first w).andThen fun b v before =>
    (rest b v).mono (fun _ _ after => before.trans after) fun _ => id

/-- An action that leaves the scene as it is, and the engine. -/
theorem Still.idle {act : Act α} (still : act.Still)
    (engine : ∀ w, (act w).2.engine.reactions = w.engine.reactions) : act.Idle := by
  intro w
  have left := still w
  have kept := engine w
  unfold Ensures at left ⊢
  revert left kept
  rcases act w with ⟨result, v⟩
  cases result with
  | ok a =>
    exact fun same kept => ⟨congrArg Scene.trace same,
      congrArg (fun a => a.session.state) same, kept⟩
  | error p => exact fun none _ => none

/-! ### Putting actions together -/

theorem Idle.bears {act : Act α} (h : act.Idle) (k : Nat) : act.Bears k := fun w =>
  (h w).mono (fun _ _ idle => idle.bears k) fun _ => False.elim

theorem Bears.mono {act : Act α} (h : act.Bears j) (le : j ≤ k) : act.Bears k := fun w =>
  (h w).mono (fun _ _ bears => bears.mono le) fun _ => id

/-- In a row of two actions, the second bears its share on top of the first. -/
theorem Bears.bind {act : Act β} {next : β → Act α} (first : act.Bears j)
    (rest : ∀ b, (next b).Bears k) : (act >>= next).Bears (j + k) := fun w =>
  (first w).bind (fun b v before => (rest b v).mono (fun _ _ => before.trans)
    fun _ => before.blames) fun _ => id

/-- What comes before adds nothing. -/
theorem Bears.next {act : Act β} {next : β → Act α} (first : act.Bears 0)
    (rest : ∀ b, (next b).Bears k) : (act >>= next).Bears k := by
  rw [← Nat.zero_add k]
  exact first.bind rest

/-- What leaves session and engine alone can be left out. -/
theorem Idle.andThen {act : Act β} {next : β → Act α} (first : act.Idle)
    (rest : ∀ b, (next b).Bears k) : (act >>= next).Bears k := (first.bears 0).next rest

/-- What comes after adds nothing. -/
theorem Bears.andThen {act : Act β} {next : β → Act α} (first : act.Bears k)
    (rest : ∀ b, (next b).Bears 0) : (act >>= next).Bears k := first.bind rest

/-- The result does not matter to the burden. -/
theorem Bears.result {act : Act β} {next : β → α} (h : act.Bears k) :
    (act >>= fun b => pure (next b)).Bears k :=
  h.andThen fun b => (idle_pure (next b)).bears 0

/-- A choice bears what either side does. -/
theorem Bears.ite {c : Prop} [Decidable c] {act other : Act α} (yes : act.Bears k)
    (no : other.Bears k) : (if c then act else other).Bears k := by
  split
  · exact yes
  · exact no

theorem Bears.locked {body : Act α} (h : body.Bears k) : (locked body).Bears k :=
  idle_acquire.andThen fun _ => h.andThen fun _ =>
    idle_release.andThen fun _ => (idle_pure _).bears 0

end Act

/-- A way to call the engine that adds nothing to the burden. -/
def Tell.Bears (tell : Tell) : Prop := ∀ call, Act.Bears (tell call) 0

/-! ## Changes -/

namespace SessionState

/-- How many overlays a change puts on. -/
def growth : Change → Nat
  | .pushed _ => 1
  | _ => 0

/-- A change makes the stack deeper by its growth at most. -/
theorem depth_apply_le (s : SessionState) (c : Change) : (s.apply c).depth ≤ s.depth + growth c := by
  cases c with
  | pushed o => exact Nat.le_refl _
  | removed o => exact List.eraseP_sublist.length_le
  | dismissableSet value => exact Nat.le_of_eq (List.length_map _)
  | hostPaused | hostResumed | graphicsReady => exact Nat.le_refl _
  | resized size =>
    show (if s.graphicsReady then s.stack.map fun o => o.attach size else s.stack).length ≤ _
    split
    · exact Nat.le_of_eq (List.length_map _)
    · exact Nat.le_refl _

/-- Taking off an overlay that is showing leaves one less. -/
theorem depth_removed {s : SessionState} {o : Overlay} (showing : s.shows o.kind = true) :
    (s.apply (.removed o.detach)).depth + 1 = s.depth := by
  obtain ⟨shown, member, same⟩ := List.any_eq_true.1 showing
  have positive : 0 < s.stack.length := List.length_pos_of_mem member
  show (s.stack.eraseP _).length + 1 = s.stack.length
  rw [List.length_eraseP_of_mem member same]
  omega

end SessionState

namespace Act

/-- A commit only adds to the trace. -/
theorem trace_commit (c : Change) (w : World) :
    w.machine.trace <+: (commit c w).2.machine.trace := by
  have added : (commit c w).2.machine.trace = w.machine.trace ++ [.committed w.front.engine c] := by
    show (w.machine.timeline ++ [_]).filter _ = _
    rw [List.filter_append]
    rfl
  rw [added]
  exact List.prefix_append _ _

/-- A commit bears the growth of its change. -/
theorem bears_commit (c : Change) : (commit c).Bears (SessionState.growth c) := by
  intro w
  have bound := w.front.session.state.depth_apply_le c
  refine ⟨trace_commit c w, ?_⟩
  show (w.front.session.state.apply c).depth + w.engine.operationsLeft ≤ _
  rw [World.burden]
  omega

end Act

/-! ## The overlay stack -/

namespace OverlayStack

open Act

variable {tell : Tell}

/-- An overlay that is put on is one more to take off; its signal comes later. -/
theorem bears_pushLocked (o : Overlay) : (pushLocked o).Bears 1 := by
  have pushed : ∀ o, (commit (.pushed o)).Bears 1 := fun o => bears_commit _
  refine idle_state.andThen fun before => (pushed _).andThen fun _ => ?_
  have logged : (do log .debug s!"push {o.kind.name}, depth {(← state).depth}").Bears 0 :=
    (idle_state.bind fun _ => idle_log _ _).bears 0
  split
  · exact (idle_log _ _).andThen fun _ => logged
  · exact logged

/-- To show an overlay bears one, and none if it was showing. -/
theorem bears_present (h : tell.Bears) (o : Overlay) : (present tell o).Bears 1 := by
  refine idle_acquire.andThen fun _ => idle_state.andThen fun _ => .ite ?_ ?_
  · refine Idle.bears ?_ 1
    exact (idle_log _ _).bind fun _ => (idle_note fun _ => rfl).bind fun _ =>
      idle_release.bind fun _ => idle_pure _
  · exact (bears_pushLocked o).andThen fun _ => idle_release.andThen fun _ => (h _).result

/-- An overlay is put on, unless one of its kind is showing and makes the push panic. -/
theorem ensures_push_bears (h : tell.Bears) (site : PanicSite) (o : Overlay) (w : World) :
    (push tell site o).Ensures w (fun _ v => w.Bears 1 v) fun v => w.Blames v ∨
      w.front.session.state.shows o.kind = true ∧ v.machine.trace = w.machine.trace := by
  apply (idle_acquire w).andThen
  intro _ u acquired
  rw [ensures_bind, ensures_state, acquired.state]
  cases shows : w.front.session.state.shows o.kind with
  | true =>
    rw [if_pos rfl]
    have refused : (note fun engine => .refused engine o).Idle := idle_note fun _ => rfl
    have recorded : (work (Work.onPanic (doublePush site o.kind))).Idle :=
      idle_work (Work.quiet_onPanic _)
    have poisoned : (modifySession fun s => { s with locked := false, poisoned := true }).Idle :=
      idle_modifySession fun _ => rfl
    apply (refused u).andThen
    intro _ u₁ idle₁
    apply (recorded u₁).andThen
    intro _ u₂ idle₂
    apply (poisoned u₂).andThen
    intro _ u₃ idle₃
    exact .inr ⟨rfl, (((acquired.trans idle₁).trans idle₂).trans idle₃).trace⟩
  | false =>
    rw [if_neg Bool.false_ne_true]
    have pushed : (do pushLocked o; release; tell (.pause false) : Act Unit).Bears 1 :=
      (bears_pushLocked o).andThen fun _ => idle_release.andThen fun _ => h _
    refine (pushed u).mono (fun _ v bears => ?_) fun v blames => .inl ?_
    · exact (acquired.bears 0).trans bears
    · exact (acquired.bears 0).blames blames

/-! ### Taking overlays off -/

/-- A choice of an overlay that is showing, or of none. -/
def Chooses (pick : SessionState → Act (Option Overlay)) : Prop :=
  ∀ s w, (pick s).Ensures w (fun o v => w.Idle v ∧ ∀ shown ∈ o, s.shows shown.kind = true)
    fun _ => False

/-- Taking off an overlay that is showing makes the burden less by one, which a signal sent
afterwards cannot make up for. -/
theorem ensures_removeLocked_bears {o : Overlay} (w : World)
    (showing : w.front.session.state.shows o.kind = true) :
    (removeLocked o).Ensures w
      (fun _ v => w.machine.trace <+: v.machine.trace ∧ v.burden + 1 ≤ w.burden)
      fun _ => False := by
  unfold removeLocked
  rw [ensures_bind, ensures_state]
  have committed : (commit (.removed o.detach)).Ensures w
      (fun _ v => w.machine.trace <+: v.machine.trace ∧ v.burden + 1 = w.burden)
      fun _ => False := by
    refine ⟨trace_commit _ w, ?_⟩
    have fewer := SessionState.depth_removed showing
    show (w.front.session.state.apply _).depth + w.engine.operationsLeft + 1 = _
    rw [World.burden]
    omega
  refine committed.andThen fun _ u known => ?_
  obtain ⟨trace, burden⟩ := known
  -- what follows the change is for the log
  have rest : ∀ (after : SessionState), (do
      log .debug s!"pop {o.kind.name}, depth {after.depth}"
      if after.stack.isEmpty then
        if w.front.session.state.run.resumeStarts .overlay then
          log .info "Overlays cleared, resuming engine"
          return true
        else
          log .debug s!"Overlays cleared, engine still paused: {after.run.text}"
          return false
      else
        return false : Act Bool).Idle := by
    intro after
    refine (idle_log _ _).bind fun _ => ?_
    split
    · split <;> exact (idle_log _ _).bind fun _ => idle_pure _
    · exact idle_pure _
  rw [ensures_bind, ensures_state]
  refine (rest u.front.session.state u).mono (fun _ v idle => ⟨?_, ?_⟩) fun _ => id
  · rw [idle.trace]
    exact trace
  · rw [idle.burden]
    exact Nat.le_of_eq burden

/-- What is picked is taken off, and then there is one less to take off. -/
theorem ensures_remove_bears (h : tell.Bears) {pick : SessionState → Act (Option Overlay)}
    (chooses : Chooses pick) (w : World) :
    (remove tell pick).Ensures w
      (fun o v => w.Bears 0 v ∧ (o.isSome = true → v.burden + 1 ≤ w.burden))
      fun v => w.Blames v := by
  apply (idle_acquire w).andThen
  intro _ u acquired
  rw [ensures_bind, ensures_state, acquired.state]
  refine (chooses w.front.session.state u).andThen fun o t known => ?_
  obtain ⟨idle, showing⟩ := known
  have before := acquired.trans idle
  cases o with
  | none =>
    refine (idle_release t).andThen fun _ r released => ⟨(before.trans released).bears 0, nofun⟩
  | some o =>
    have shown : t.front.session.state.shows o.kind = true := by
      rw [before.state]
      exact showing o rfl
    refine (ensures_removeLocked_bears t shown).andThen fun resume r known => ?_
    obtain ⟨trace, burden⟩ := known
    rw [before.burden] at burden
    rw [before.trace] at trace
    have noted : (do
        note fun engine => .returned engine o.detach
        return some o.detach : Act (Option Overlay)).Bears 0 :=
      ((idle_note fun _ => rfl).bind fun _ => idle_pure _).bears 0
    have after : (do
        release
        if resume then
          tell (.resume false)
        note fun engine => .returned engine o.detach
        return some o.detach : Act (Option Overlay)).Bears 0 := by
      refine idle_release.andThen fun _ => ?_
      split
      · exact (h _).andThen fun _ => noted
      · exact noted
    have less : w.Bears 0 r := ⟨trace, by omega⟩
    refine (after r).mono (fun _ v bears => ⟨less.trans bears, fun _ => ?_⟩) fun _ => less.blames
    have rest := bears.burden
    omega

/-- An overlay that is found on the stack can be taken off. -/
theorem chooses_of_find {pick : SessionState → Act (Option Overlay)}
    {picked : SessionState → Option Overlay} (idle : ∀ s, (pick s).Idle)
    (picks : Picks pick picked) (showing : ∀ s o, picked s = some o → s.find? o.kind = some o) :
    Chooses pick := by
  intro s w
  refine (Ensures.and (idle s w) (picks s w)).mono (fun o v chosen => ?_) fun _ => And.left
  obtain ⟨same, eq, -⟩ := chosen
  refine ⟨same, ?_⟩
  rintro shown rfl
  exact StackOp.shows_of_find? (showing s shown eq.symm)

/-- Which overlay is on top is found without a change. -/
theorem chooses_pop : Chooses fun s => return s.top? :=
  chooses_of_find (fun _ => idle_pure _) picks_pop fun _ _ => find?_of_top?

/-- Taking off the top overlay bears nothing, whatever the engine does when it resumes. -/
theorem bears_pop (h : tell.Bears) : (pop tell).Bears 0 := fun w =>
  (ensures_remove_bears h chooses_pop w).mono (fun _ _ => And.left) fun _ => id

theorem bears_popNamed (h : tell.Bears) (kind : OverlayKind) : (popNamed tell kind).Bears 0 := by
  have chooses : Chooses fun s => return s.find? kind := by
    refine chooses_of_find (fun _ => idle_pure _) (picks_popNamed kind) fun s o found => ?_
    rw [kind_of_find? found]
    exact found
  exact fun w => (ensures_remove_bears h chooses w).mono (fun _ _ => And.left) fun _ => id

theorem bears_dismiss (h : tell.Bears) (kind : OverlayKind) : (dismiss tell kind).Bears 0 := by
  intro w
  have chooses := chooses_of_find (fun s => ?_) (picks_dismiss kind) fun s o chosen => ?_
  · exact (ensures_remove_bears h chooses w).mono (fun _ _ => And.left) fun _ => id
  · split
    · exact idle_pure _
    · split
      · exact idle_pure _
      · exact (idle_log _ _).bind fun _ => idle_pure _
  · have found := (Option.filter_eq_some_iff.1 chosen).1
    rw [kind_of_find? found]
    exact found

/-- However many overlays are taken off in a row, nothing is borne. -/
theorem bears_popMany (h : tell.Bears) (n : Nat) : (popMany tell n).Bears 0 := by
  induction n with
  | zero => exact (idle_pure _).bears 0
  | succ n ih =>
    refine (bears_pop h).andThen fun popped => ?_
    cases popped with
    | none => exact (idle_pure _).bears 0
    | some o => exact ih.result

/-- Emptying the stack bears nothing. -/
theorem bears_drain (h : tell.Bears) : (drain tell).Bears 0 :=
  idle_get.andThen fun _ => bears_popMany h _

/-! ### Operations of the stack -/

theorem bears_setDismissable (value : Bool) : (setDismissable value).Bears 0 := by
  refine Bears.locked (idle_state.andThen fun s => .ite ?_ ((idle_pure _).bears 0))
  exact (bears_commit (.dismissableSet value)).result

theorem bears_tryDepth (held : Bool) : (tryDepth held).Bears 0 := by
  have tried : (modifySession fun s => { s with locked := held }).Idle :=
    idle_modifySession fun _ => rfl
  exact tried.andThen fun _ => idle_get.andThen fun _ => idle_release.andThen fun _ =>
    (idle_pure _).bears 0

theorem idle_made (spec : OverlaySpec) : spec.made.Idle := idle_work (Work.quiet_make spec)

/-- A new overlay that is shown bears one; making it bears nothing. -/
theorem bears_present_made (h : tell.Bears) (spec : OverlaySpec) :
    (do present tell (← spec.made)).Bears 1 := (idle_made spec).andThen fun o => bears_present h o

end OverlayStack

/-! ## The host -/

namespace FrontEnd

open Act

variable {tell : Tell}

/-- Creating the engine bears nothing if the setup is quiet. -/
theorem bears_create {ε : Type} (h : tell.Bears) {setUp : Path → Work (Except ε Unit)}
    (quiet : ∀ directory, (setUp directory).Quiet) : (create tell setUp).Bears 0 := by
  refine idle_get.andThen fun w => (idle_work (Work.quiet_install _)).andThen fun _ => ?_
  refine (idle_work (Work.quiet_ensureConfigured quiet)).andThen fun result => ?_
  cases result with
  | error e => exact (idle_pure _).bears 0
  | ok ran => exact (idle_log _ _).andThen fun _ => (h _).result

theorem bears_showNew (h : tell.Bears) (spec : OverlaySpec) : (showNew tell spec).Bears 1 :=
  OverlayStack.bears_present_made h spec

/-- The splash screen is the one overlay that a start of graphics puts on. -/
theorem bears_graphicsReady (h : tell.Bears) (width height : Int32) :
    (graphicsReady tell width height).Bears 1 := by
  have committed : (locked (commit (.graphicsReady (.landscape width height)))).Bears 0 :=
    (bears_commit _).locked
  have showing : (showSplash tell).Bears 1 := bears_showNew h (.splash true)
  exact committed.next fun _ => (idle_log _ _).andThen fun _ => (h _).next fun _ => showing.result

/-- A resize attaches overlays anew and puts none on. -/
theorem bears_graphicsResized (h : tell.Bears) (width height : Int32) :
    (graphicsResized tell width height).Bears 0 := by
  have committed : (commit (.resized (.landscape width height))).Bears 0 := bears_commit _
  refine idle_acquire.andThen fun _ => idle_state.andThen fun _ => committed.next fun _ => ?_
  refine .ite ?_ ?_
  · exact idle_release.andThen fun _ => (idle_log _ _).andThen fun _ => h _
  · exact (idle_log _ _).andThen fun _ => idle_release.bears 0

theorem bears_render (h : tell.Bears) : (render tell).Bears 0 :=
  idle_state.andThen fun _ => .ite (h _) ((idle_pure _).bears 0)

theorem idle_logDismissed (dismissed : List Overlay) : (logDismissed dismissed).Idle := by
  induction dismissed with
  | nil => exact idle_pure ()
  | cons o rest ih => exact (idle_log _ _).bind fun _ => ih

/-- Before it pauses, the host takes overlays off and puts none on. -/
theorem bears_hostPaused (h : tell.Bears) : (hostPaused tell).Bears 0 := by
  have committed : (locked (commit .hostPaused)).Bears 0 := (bears_commit _).locked
  have emptied : (do logDismissed (← OverlayStack.drain tell); tell (.pause true)).Bears 0 :=
    (OverlayStack.bears_drain h).next fun _ => (idle_logDismissed _).andThen fun _ => h _
  refine idle_state.andThen fun before => committed.next fun _ => ?_
  split
  · exact (idle_log _ _).andThen fun _ => emptied
  · exact emptied

theorem bears_hostResumed (h : tell.Bears) : (hostResumed tell).Bears 0 := by
  have committed : (locked (commit .hostResumed)).Bears 0 := (bears_commit _).locked
  refine idle_state.andThen fun before => committed.next fun _ => .ite ?_ ?_
  · exact (idle_log _ _).andThen fun _ => h _
  · exact idle_state.andThen fun _ => (idle_log _ _).bears 0

/-! ### Menus and prompts -/

/-- The disk picker is made only if none is showing, and is one more to take off. -/
theorem bears_showDisks (h : tell.Bears) : (showDisks tell).Bears 1 :=
  idle_state.andThen fun _ => .ite ((idle_pure _).bears 1) <|
    idle_get.andThen fun _ => bears_showNew h _

/-- The back key takes off the top overlay or puts the main menu on. -/
theorem bears_back (h : tell.Bears) : (back tell).Bears 1 := by
  apply idle_state.andThen
  intro s
  split
  · exact (OverlayStack.bears_dismiss h _).result.mono (Nat.zero_le 1)
  · exact (bears_showNew h .mainMenu).result

/-- A button of the splash screen opens the settings at most. -/
theorem bears_pressSplash (h : tell.Bears) (button : SplashButton) :
    (pressSplash tell button).Bears 1 := by
  apply idle_state.andThen
  intro s
  split
  · exact (idle_pure none).bears 1
  · rename_i splash _
    dsimp only
    cases SplashAction.ofPress splash.isDismissable button with
    | dismiss => exact (OverlayStack.bears_dismiss h _).result.mono (Nat.zero_le 1)
    | showSettings => exact (bears_showNew h .settingsMenu).result
    | showDisks => exact (bears_showDisks h).result
    | ignored => exact (idle_pure _).bears 1

/-- An entry of the main menu opens one further overlay at most. -/
theorem bears_selectMainMenu (h : tell.Bears) (index : Nat) :
    (selectMainMenu tell index).Bears 1 := by
  refine idle_state.andThen fun s => .ite ?_ ((idle_pure none).bears 1)
  dsimp only
  cases MainMenuAction.ofRow index with
  | showSettings => exact (bears_showNew h .settingsMenu).result
  | showDisks => exact (bears_showDisks h).result
  | dismiss => exact (OverlayStack.bears_dismiss h _).result.mono (Nat.zero_le 1)

/-- Choosing a setting only reads the session. -/
theorem idle_selectSetting (index : Nat) : (selectSetting index).Idle := by
  apply idle_state.bind
  intro s
  split <;> exact idle_pure _

/-- Choosing a disk takes the picker off after the engine was told. -/
theorem bears_chooseDisk (h : tell.Bears) (index : Nat) (driveA readOnly : Bool) :
    (chooseDisk tell index driveA readOnly).Bears 0 := by
  apply idle_state.andThen
  intro s
  split
  · exact (idle_pure none).bears 0
  · exact (idle_log _ _).andThen fun _ => (h _).next fun _ =>
      (OverlayStack.bears_dismiss h _).result

/-- Answering a dialog takes overlays off and puts none on. -/
theorem bears_confirm (h : tell.Bears) (kind : ConfirmKind) (accepted : Bool) :
    (confirm tell kind accepted).Bears 0 := by
  refine idle_state.andThen fun _ => .ite ((idle_pure _).bears 0) ?_
  refine .ite (OverlayStack.bears_dismiss h _).result ?_
  cases kind with
  | quit => exact (idle_log _ _).andThen fun _ => (h _).result
  | reboot =>
    exact (idle_log _ _).andThen fun _ => (h _).next fun _ =>
      (OverlayStack.bears_popNamed h _).next fun _ => (OverlayStack.bears_popNamed h _).result

/-! ### Keys and touches -/

theorem bears_keyDown (h : tell.Bears) (code modifiers : Int32) :
    (keyDown tell code modifiers).Bears 0 := .ite ((idle_pure false).bears 0) (h _).result

/-- The key that opens the main menu bears one, and all others bear nothing. -/
theorem bears_keyUp (h : tell.Bears) (code modifiers : Int32) :
    (keyUp tell code modifiers).Bears 1 := by
  refine .ite (bears_back h).result (.ite (bears_showNew h .mainMenu).result ?_)
  exact .ite ((idle_pure false).bears 1) ((h _).result.mono (Nat.zero_le 1))

theorem bears_forward (h : tell.Bears) (batch : TouchBatch) : (forward tell batch).Bears 0 := by
  have sent : (do
      let flags := (← get).engine.reply
      tell (.touch batch.sample)
      log .trace s!"{batch.sample.text} -> {Text.hex flags.bits.toNat}"
      return flags : Act TouchFlags).Bears 0 :=
    idle_get.andThen fun _ => (h _).next fun _ => (idle_log _ _).andThen fun _ =>
      (idle_pure _).bears 0
  unfold forward
  exact .ite ((idle_log _ _).andThen fun _ => sent) sent

/-- A touch bears one, for the engine may ask for the main menu. -/
theorem bears_touch (h : tell.Bears) (batch : TouchBatch) : (touch tell batch).Bears 1 := by
  refine idle_state.andThen fun _ => .ite ((idle_pure _).bears 1) ?_
  refine (bears_forward h batch).next fun flags => ?_
  exact .ite (bears_showNew h .mainMenu).result ((idle_pure _).bears 1)

end FrontEnd

open Act FrontEnd

variable {tell : Tell}

/-! ## Any operation -/

/-- Each operation of the host puts one overlay on at most. -/
theorem HostOp.bears_perform (h : tell.Bears) (op : HostOp) : (op.perform tell).Bears 1 := by
  have few {act : Act Answer} (none : act.Bears 0) : act.Bears 1 := none.mono (Nat.zero_le 1)
  cases op with
  | create setUpError =>
    refine few (idle_get.andThen fun _ => (bears_create h fun _ => .pure _).next fun _ => ?_)
    exact idle_get.andThen fun _ => (idle_pure _).bears 0
  | graphicsReady width height => exact (bears_graphicsReady h width height).result
  | graphicsResized width height => exact few (bears_graphicsResized h width height).result
  | keyDown code modifiers => exact few (bears_keyDown h code modifiers).result
  | keyUp code modifiers => exact (bears_keyUp h code modifiers).result
  | back => exact (bears_back h).result
  | render => exact few (bears_render h).result
  | hostPaused => exact few (bears_hostPaused h).result
  | hostResumed => exact few (bears_hostResumed h).result
  | touch batch => exact (bears_touch h batch).result
  | showSplash => exact (bears_showNew h (.splash true)).result
  | showMainMenu => exact (bears_showNew h .mainMenu).result
  | showSettings => exact (bears_showNew h .settingsMenu).result
  | showDisks => exact (bears_showDisks h).result
  | maybeQuit => exact (bears_showNew h (.confirm .quit)).result
  | maybeReboot => exact (bears_showNew h (.confirm .reboot)).result
  | pressSplash button => exact (bears_pressSplash h button).result
  | selectMainMenu index => exact (bears_selectMainMenu h index).result
  | selectSetting index => exact ((idle_selectSetting index).bears 1).result
  | chooseDisk index driveA readOnly => exact few (bears_chooseDisk h index driveA readOnly).result
  | confirm kind accepted => exact few (bears_confirm h kind accepted).result

theorem ReportOp.idle_perform (op : ReportOp) : op.perform.Idle :=
  (still_perform op).idle fun w => by cases op <;> rfl

theorem OutsideOp.idle_perform (op : OutsideOp) : op.perform.Idle :=
  (still_perform op).idle fun w => by cases op <;> rfl

/-- So does each operation on the stack, if it is no push, which may panic. -/
theorem StackOp.bears_perform (h : tell.Bears) {op : StackOp}
    (other : ∀ spec site, op ≠ .push spec site) : (op.perform tell).Bears 1 := by
  have few {act : Act Answer} (none : act.Bears 0) : act.Bears 1 := none.mono (Nat.zero_le 1)
  cases op with
  | push spec site => exact absurd rfl (other spec site)
  | present spec =>
    exact (OverlayStack.idle_made spec).andThen fun o => (OverlayStack.bears_present h o).result
  | pop => exact few (OverlayStack.bears_pop h).result
  | popNamed kind => exact few (OverlayStack.bears_popNamed h kind).result
  | dismiss kind => exact few (OverlayStack.bears_dismiss h kind).result
  | drain => exact few (OverlayStack.bears_drain h).result
  | setDismissable value => exact few (OverlayStack.bears_setDismissable value).result
  | tryLock held => exact few (OverlayStack.bears_tryDepth held).result

namespace Op

/-- The operations that cannot push twice bear one, with all that the engine does meanwhile. -/
theorem bears_body (h : tell.Bears) {op : Op} (other : ∀ spec site, op ≠ .stack (.push spec site)) :
    (op.body tell).Bears 1 := by
  cases op with
  | stack op =>
    exact StackOp.bears_perform h fun spec site same => other spec site (congrArg Op.stack same)
  | host op => exact HostOp.bears_perform h op
  | crash op => exact (ReportOp.idle_perform op).bears 1
  | machine op => exact (idle_work (Work.quiet_perform op)).bears 1
  | outside op => exact (OutsideOp.idle_perform op).bears 1

/-- What is left to take off, once an operation is begun. -/
theorem ensures_began (op : Op) (w : World) :
    (work (Work.observe (.began w.front.engine op w.front.session.state))).Ensures w
      (fun _ v => v.machine.trace =
          w.machine.trace ++ [.began w.front.engine op w.front.session.state] ∧
        v.front.session.state = w.front.session.state ∧ v.burden = w.burden) fun _ => False := by
  refine ⟨?_, rfl, rfl⟩
  show (w.machine.timeline ++ [_]).filter _ = _
  rw [List.filter_append]
  rfl

/-- A push that panics is the double push that was begun. -/
theorem bears_perform_push (h : tell.Bears) (spec : OverlaySpec) (site : PanicSite) :
    (Op.perform tell (.stack (.push spec site))).Bears 1 := by
  intro w
  rw [perform, ensures_bind, ensures_get]
  refine (ensures_began (.stack (.push spec site)) w).andThen fun _ v known => ?_
  obtain ⟨trace, state, burden⟩ := known
  have made : spec.made.Ensures v (fun o u => v.Idle u ∧ o.kind = spec.kind) fun _ => False :=
    (Ensures.and (OverlayStack.idle_made spec v) (StackOp.ensures_made spec v)).mono
      (fun _ _ => And.imp_right And.left) fun _ => And.left
  have before : w.Bears 0 v := ⟨trace ▸ List.prefix_append _ _, Nat.le_of_eq burden⟩
  refine made.andThen fun o u known => ?_
  obtain ⟨idle, kind⟩ := known
  refine (OverlayStack.ensures_push_bears h site o u).bind (fun _ t bears => ?_) fun t ended => ?_
  · exact before.trans ((idle.bears 0).trans bears)
  · obtain blames | ⟨showing, same⟩ := ended
    · exact before.blames ((idle.bears 0).blames blames)
    · refine ⟨_, (same.trans idle.trace).trans trace, _, List.mem_singleton_self _, ?_⟩
      rw [idle.state, state, kind] at showing
      exact showing

/-- An operation adds one overlay at most. -/
theorem bears_perform (h : tell.Bears) (op : Op) : (op.perform tell).Bears 1 := by
  by_cases push : ∃ spec site, op = .stack (.push spec site)
  · obtain ⟨spec, site, rfl⟩ := push
    exact bears_perform_push h spec site
  · intro w
    rw [perform, ensures_bind, ensures_get]
    refine (ensures_began op w).andThen fun _ v known => ?_
    obtain ⟨trace, state, burden⟩ := known
    have before : w.Bears 0 v := ⟨trace ▸ List.prefix_append _ _, Nat.le_of_eq burden⟩
    have body : (op.body tell).Bears 1 := bears_body h fun spec site same => push ⟨spec, site, same⟩
    refine (body v).mono (fun _ u bears => ?_) fun _ => before.blames
    exact before.trans bears

/-- Operations in a row bear one each. -/
theorem bears_performAll (h : tell.Bears) (ops : List Op) :
    (performAll tell ops).Bears ops.length := by
  induction ops with
  | nil => exact (idle_pure ()).bears 0
  | cons op rest ih =>
    rw [List.length_cons, Nat.add_comm]
    exact (bears_perform h op).bind fun _ => ih

end Op

/-! ## The engine calling back -/

/-- An engine that only listens adds nothing to the burden. -/
theorem Act.bears_deliver (call : EngineCall) : (deliver call).Bears 0 := by
  intro w
  -- the session and the engine stay as they are
  have same : (w.told call).burden = w.burden := by
    rw [World.told_eq]
    rfl
  have trace : w.machine.trace <+: (w.told call).machine.trace := by
    rw [World.told_eq]
    show _ <+: (w.machine.timeline ++ w.telling call).filter Event.ofSession
    rw [List.filter_append]
    exact List.prefix_append _ _
  exact ⟨trace, Nat.le_of_eq same⟩

/-- A reaction that is taken leaves room for as many overlays as it holds operations. -/
theorem Act.ensures_takeReaction_burden (name : CallName) (w : World) :
    (takeReaction name).Ensures w
      (fun reaction v => v.machine.trace = w.machine.trace ∧
        v.burden + (reaction.map fun r => r.ops.length).getD 0 = w.burden) fun _ => False := by
  refine ⟨rfl, ?_⟩
  have taken := w.engine.operationsLeft_eraseP fun r => decide (r.on = name)
  show w.front.session.state.depth + EngineModel.operationsLeft _ + _ = _
  rw [World.burden, ← taken, Nat.add_assoc]

/-- However deep the engine calls back, calling it adds nothing to the burden. -/
theorem bears_tellWithin (depth : Nat) : (tellWithin depth).Bears := by
  induction depth with
  | zero => exact bears_deliver
  | succ depth ih =>
    refine fun call => (bears_deliver call).next fun _ w => ?_
    refine (ensures_takeReaction_burden call.name w).andThen fun reaction v known => ?_
    obtain ⟨trace, burden⟩ := known
    cases reaction with
    | none =>
      exact ⟨trace ▸ List.prefix_rfl, Nat.le_of_eq burden⟩
    | some reaction =>
      -- its operations put on at most as many overlays as were given up for them
      have given : v.burden + reaction.ops.length = w.burden := burden
      refine (Op.bears_performAll ih reaction.ops v).mono (fun _ u bears => ?_) fun u blames => ?_
      · exact ⟨trace ▸ bears.trace, given ▸ bears.burden⟩
      · obtain ⟨added, later, double⟩ := blames
        exact ⟨added, trace ▸ later, double⟩

end EmuFront
