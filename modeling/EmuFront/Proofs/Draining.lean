import EmuFront.Proofs.Burden
import EmuFront.Proofs.HostPassage

/-!
# Emptying the stack

Overlays are taken off from the top until there is none, whatever the engine puts on from inside the
signals of that. This comes to an end: each overlay that is taken off takes one from the burden, to
which calling the engine adds nothing. At the end the stack is empty and all that was taken off is
detached.
-/

namespace EmuFront

namespace OverlayStack

open Act

/-- Overlays are taken off from the top for as long as there is one: the world in which that is begun,
its result, and the world in which it ends. -/
inductive Empties (tell : Tell) : World → Except Panic (List Overlay) → World → Prop
  | done {w v : World} (nothing : pop tell w = (.ok none, v)) : Empties tell w (.ok []) v
  | broken {w v : World} {p : Panic} (panicked : pop tell w = (.error p, v)) :
      Empties tell w (.error p) v
  | more {w u v : World} {o : Overlay} {result : Except Panic (List Overlay)}
      (popped : pop tell w = (.ok (some o), u)) (rest : Empties tell u result v) :
      Empties tell w (result.map (List.cons o)) v

variable {tell : Tell} {w v : World}

/-! ## Taking one off -/

/-- Where nothing is showing, nothing is taken off and nothing changes. -/
theorem pop_of_empty (free : w.front.session.locked = false)
    (empty : w.front.session.state.stack = []) : pop tell w = (.ok none, w) := by
  obtain ⟨machine, ⟨config, engine, ⟨⟨stack, run, surface, ready⟩, locked, poisoned⟩, reporter⟩,
    model, kept⟩ := w
  obtain rfl : locked = false := free
  obtain rfl : stack = [] := empty
  rfl

/-- What is taken off is detached and leaves one less to take off. Where nothing is taken off, nothing
is showing. -/
theorem ensures_pop_lighter (follows : tell.Follows) (bears : tell.Bears)
    (free : w.front.session.locked = false) :
    (pop tell).Ensures w
      (fun popped v => v.front.session.locked = false ∧
        (popped = none → v.front.session.state.stack = []) ∧
        ∀ o, popped = some o → o.isAttached = false ∧ v.burden + 1 ≤ w.burden)
      fun _ => True := by
  have removed := ensures_remove follows picks_pop free
  have lighter := ensures_remove_bears bears chooses_pop w
  have goes := follows_pop follows w free trivial
  refine ((Ensures.and removed lighter).and goes).mono (fun popped v ended => ?_) fun _ _ => trivial
  obtain ⟨⟨⟨rfl, scene⟩, -, less⟩, goes⟩ := ended
  refine ⟨goes.free, fun nothing => ?_, fun o taken => ?_⟩
  · have top : w.scene.session.state.top? = none := Option.map_eq_none_iff.1 nothing
    rw [top] at scene
    have same : v.front.session.state = w.front.session.state :=
      congrArg (fun a => a.session.state) scene
    rw [same]
    exact List.head?_eq_none_iff.1 top
  · have less := less (by rw [taken]; rfl)
    obtain ⟨shown, -, rfl⟩ := Option.map_eq_some_iff.1 taken
    exact ⟨rfl, less⟩

/-! ## The loop -/

/-- Taking off at most so many and one more. -/
theorem run_popMany_succ (tell : Tell) (n : Nat) (w : World) :
    popMany tell (n + 1) w = match pop tell w with
      | (.ok none, v) => (.ok [], v)
      | (.ok (some o), v) => ((popMany tell n v).1.map (List.cons o), (popMany tell n v).2)
      | (.error p, v) => (.error p, v) := by
  rw [popMany, run_bind]
  rcases pop tell w with ⟨_ | _ | o, v⟩
  · rfl
  · rfl
  · dsimp only
    rw [run_bind]
    rcases popMany tell n v with ⟨_ | overlays, u⟩ <;> rfl

/-- As many as the burden are enough: by then nothing is left. -/
theorem empties_popMany (follows : tell.Follows) (bears : tell.Bears) (n : Nat)
    (free : w.front.session.locked = false) (enough : w.burden ≤ n) :
    Empties tell w (popMany tell n w).1 (popMany tell n w).2 := by
  induction n generalizing w with
  | zero =>
    have empty : w.front.session.state.stack = [] := by
      have depth : w.front.session.state.stack.length ≤ 0 := Nat.le_trans (Nat.le_add_right _ _) enough
      exact List.eq_nil_of_length_eq_zero (Nat.le_zero.1 depth)
    exact .done (pop_of_empty free empty)
  | succ n ih =>
    have lighter := ensures_pop_lighter follows bears free
    rw [run_popMany_succ]
    unfold Ensures at lighter
    rcases popped : pop tell w with ⟨p | _ | o, u⟩
    · exact .broken popped
    · exact .done popped
    · rw [popped] at lighter
      obtain ⟨free', -, off⟩ := lighter
      have less : u.burden + 1 ≤ w.burden := (off o rfl).2
      exact .more popped (ih free' (by omega))

/-- Emptying the stack takes overlays off for as long as there is one. -/
theorem empties_drain (follows : tell.Follows) (bears : tell.Bears)
    (free : w.front.session.locked = false) : Empties tell w (drain tell w).1 (drain tell w).2 :=
  empties_popMany follows bears w.burden free (Nat.le_refl _)

/-- When it is done, nothing is showing, and all that was taken off is detached. -/
theorem Empties.emptied (follows : tell.Follows) (bears : tell.Bears)
    {result : Except Panic (List Overlay)} (empties : Empties tell w result v)
    (free : w.front.session.locked = false) {overlays : List Overlay} (ended : result = .ok overlays) :
    v.front.session.state.stack = [] ∧ ∀ o ∈ overlays, o.isAttached = false := by
  induction empties generalizing overlays with
  | done nothing =>
    have lighter := ensures_pop_lighter follows bears free
    rw [Ensures, nothing] at lighter
    obtain rfl := Except.ok.inj ended
    exact ⟨lighter.2.1 rfl, nofun⟩
  | broken => cases ended
  | @more w u v o result popped rest ih =>
    have lighter := ensures_pop_lighter follows bears free
    rw [Ensures, popped] at lighter
    obtain ⟨free', -, off⟩ := lighter
    cases result with
    | error => cases ended
    | ok others =>
      obtain rfl : o :: others = overlays := Except.ok.inj ended
      obtain ⟨empty, detached⟩ := ih free' rfl
      exact ⟨empty, List.forall_mem_cons.2 ⟨(off o rfl).1, detached⟩⟩

end OverlayStack

/-! ## Without reactions -/

/-- Taking off all that is showing, from the top down, calls for a resume at the end unless the
startup or the host's pause is held. -/
theorem SessionState.dueAll_removals {s : SessionState} {stack : List Overlay}
    (same : s.stack = stack) :
    s.dueAll (stack.map OverlayStack.removal) =
      if stack ≠ [] ∧ s.run.holds .startup = false ∧ s.run.holds .host = false
      then [.resume false] else [] := by
  induction stack generalizing s with
  | nil => rfl
  | cons o rest ih =>
    have left : (s.apply (.removed o.detach)).stack = rest := stack_removed_top same
    have host : (s.apply (.removed o.detach)).run.host = s.run.host := host_removed _
    have startup : (s.apply (.removed o.detach)).run.startup = s.run.startup := by
      simp only [apply, remove]
      split <;> rfl
    have later := ih left
    show s.due (.removed o.detach) ++ (s.apply (.removed o.detach)).dueAll _ = _
    have due : s.due (.removed o.detach) =
        if rest = [] ∧ s.run.holds .startup = false ∧ s.run.holds .host = false
        then [.resume false] else [] := by
      rw [← left]
      rfl
    rw [later, due]
    simp only [RunState.holds, startup, host]
    -- the last overlay calls for the resume, and those before it for nothing
    cases rest <;> simp

namespace World

variable {w v : World}

/-- The pauses and resumes that engines were told of. -/
def signals (w : World) : List EngineCall := signalsOf w.machine.timeline

theorem signals_of_append {added : List Event}
    (timeline : v.machine.timeline = w.machine.timeline ++ added) :
    v.signals = w.signals ++ signalsOf added := by
  rw [signals, timeline, signalsOf_append]
  rfl

theorem Plain.signals (plain : w.Plain v) : v.signals = w.signals := by
  obtain ⟨added, timeline, plain⟩ := plain.machine.events
  have nothing : signalsOf added = [] := by
    refine List.filterMap_eq_nil_iff.2 fun e member => ?_
    have := plain e member
    cases e <;> simp_all [Event.isPlain, Event.signal?]
  rw [signals_of_append timeline, nothing, List.append_nil]

theorem signals_commit (w : World) (c : Change) : (w.commit c).signals = w.signals := by
  have timeline : (w.commit c).machine.timeline =
      w.machine.timeline ++ [.committed w.front.engine c] := rfl
  rw [signals_of_append timeline]
  exact List.append_nil _

theorem signals_giveBack (w : World) (o : Overlay) :
    (OverlayStack.giveBack w o).signals = w.signals := by
  have timeline : (OverlayStack.giveBack w o).machine.timeline =
      w.machine.timeline ++ [.returned w.front.engine o.detach] := rfl
  rw [signals_of_append timeline]
  exact List.append_nil _

theorem signals_told (w : World) {call : EngineCall} (signal : call.isSignal = true) :
    (w.told call).signals = w.signals ++ [call] := by
  have timeline : (w.told call).machine.timeline = w.machine.timeline ++ w.telling call := by
    rw [told_eq]
  have crossing : signalsOf (Work.crossing w.front.engine (Native.NativeCall.ofCall call)) = [] := by
    refine List.filterMap_eq_nil_iff.2 fun e member => ?_
    unfold Work.crossing at member
    split at member <;> simp_all [Event.signal?]
  have told : signalsOf (w.telling call) = [call] := by
    rw [telling, signalsOf, List.filterMap_cons, Event.signal?, if_pos signal]
    exact congrArg _ crossing
  rw [signals_of_append timeline, told]

end World

/-- An engine that will do nothing from inside its calls only receives them. -/
theorem ensures_tellWithin_alone (depth : Nat) (call : EngineCall) {w : World}
    (alone : w.engine.reactions = []) :
    Act.Ensures (tellWithin depth call) w (fun _ v => v = w.told call) fun _ => False := by
  cases depth with
  | zero => exact rfl
  | succ depth =>
    have delivered : (Act.deliver call).Ensures w (fun _ v => v = w.told call) fun _ => False := rfl
    refine delivered.andThen fun _ v told => ?_
    have alone' : v.engine.reactions = [] := by
      rw [told]
      exact alone
    have taken : (Act.takeReaction call.name).Ensures v (fun reaction u => reaction = none ∧ u = v)
        fun _ => False := by
      obtain ⟨machine, front, ⟨reply, reactions⟩, kept⟩ := v
      obtain rfl : reactions = [] := alone'
      exact ⟨rfl, rfl⟩
    refine taken.andThen fun reaction u known => ?_
    obtain ⟨nothing, same⟩ := known
    rw [nothing]
    exact same.trans told

namespace OverlayStack

open Act

variable {w : World} {depth : Nat}

/-- The top overlay is taken off, and the engine told what is due for that. -/
theorem ensures_pop_alone (sound : w.front.session.state.Sound) (alone : w.engine.reactions = []) :
    (pop (tellWithin depth)).Ensures w
      (fun popped v => v.engine.reactions = [] ∧
        popped = w.front.session.state.top?.map Overlay.detach ∧
        v.front.session.state =
          w.front.session.state.after (w.front.session.state.top?.map removal).toList ∧
        v.signals = w.signals ++
          w.front.session.state.dueAll (w.front.session.state.top?.map removal).toList)
      fun _ => False := by
  have due : ∀ o, w.front.session.state.top? = some o →
      ((w.front.session.state.signal? (removal o)).filter EngineCall.isSignal).toList =
        w.front.session.state.dueAll [removal o] := by
    intro o top
    refine (sound.signal_due ?_).trans (List.append_nil _).symm
    rintro _ ⟨rfl⟩
    have showing : w.front.session.state.shows o.kind = true :=
      StackOp.shows_of_find? (find?_of_top? top)
    exact showing
  -- what is left once the top overlay is off
  have left : ∀ {o u v}, w.Plain u → (u.commit (removal o)).Plain v →
      v.engine.reactions = [] ∧
        v.front.session.state = w.front.session.state.apply (removal o) ∧
        v.signals = w.signals := by
    intro o u v before after
    have fewer := List.Subset.trans after.reactions before.reactions
    rw [alone] at fewer
    refine ⟨List.subset_nil.1 fewer, ?_, ?_⟩
    · rw [after.state, ← before.state]
      rfl
    · rw [after.signals, World.signals_commit, before.signals]
  refine ensures_remove_of picks_pop (fun _ => plain_pure _) ?_ ?_ ?_
  · intro v top plain
    rw [top]
    refine ⟨?_, rfl, plain.state, plain.signals.trans (List.append_nil _).symm⟩
    have fewer := plain.reactions
    rw [alone] at fewer
    exact List.subset_nil.1 fewer
  · intro o u v top before after silent
    obtain ⟨reactions, state, signals⟩ := left before after
    have due := due o top
    rw [removal, silent] at due
    rw [top]
    refine ⟨reactions, rfl, state, ?_⟩
    rw [World.signals_giveBack, signals]
    show w.signals = w.signals ++ w.front.session.state.dueAll [.removed o.detach]
    rw [← due]
    exact (List.append_nil _).symm
  · intro o u v top before after told
    obtain ⟨reactions, state, signals⟩ := left before after
    have due := due o top
    have resume : w.front.session.state.signal? (.removed o.detach) = some (.resume false) := by
      rw [SessionState.signal?] at told ⊢
      split at told
      · rw [if_pos ‹_›]
      · exact absurd rfl told
    rw [removal, resume] at due
    rw [top]
    refine (ensures_tellWithin_alone depth (.resume false) reactions).mono
      (fun _ q same => ?_) fun _ => id
    rw [same]
    refine ⟨reactions, rfl, state, ?_⟩
    rw [World.signals_giveBack, World.signals_told _ rfl, signals]
    exact congrArg (w.signals ++ ·) due

/-- All overlays are taken off from the top down, and the engine told what is due for that. -/
theorem ensures_popMany_alone (n : Nat) (sound : w.front.session.state.Sound)
    (alone : w.engine.reactions = []) (enough : w.front.session.state.stack.length ≤ n) :
    (popMany (tellWithin depth) n).Ensures w
      (fun overlays v => overlays = w.front.session.state.stack.map Overlay.detach ∧
        v.signals = w.signals ++
          w.front.session.state.dueAll (w.front.session.state.stack.map removal))
      fun _ => False := by
  induction n generalizing w with
  | zero =>
    rw [List.eq_nil_of_length_eq_zero (Nat.le_zero.1 enough)]
    exact ⟨rfl, (List.append_nil _).symm⟩
  | succ n ih =>
    refine (ensures_pop_alone sound alone).andThen fun popped v known => ?_
    obtain ⟨alone', taken, state, signals⟩ := known
    cases stack : w.front.session.state.stack with
    | nil =>
      have top : w.front.session.state.top? = none := by simp [SessionState.top?, stack]
      rw [top] at taken signals
      rw [taken]
      exact ⟨rfl, signals⟩
    | cons o rest =>
      have top : w.front.session.state.top? = some o := by simp [SessionState.top?, stack]
      rw [top] at taken state signals
      rw [taken]
      have state : v.front.session.state = w.front.session.state.apply (removal o) := state
      have left : v.front.session.state.stack = rest := by
        rw [state]
        exact SessionState.stack_removed_top stack
      have sound' : v.front.session.state.Sound := by
        rw [state]
        exact sound.removed _
      have enough' : v.front.session.state.stack.length ≤ n := by
        rw [left]
        rw [stack, List.length_cons] at enough
        omega
      refine (ih sound' alone' enough').andThen fun overlays u known => ?_
      obtain ⟨emptied, later⟩ := known
      rw [left] at emptied later
      refine ⟨congrArg (o.detach :: ·) emptied, ?_⟩
      rw [later, signals, state, List.append_assoc, List.map_cons]
      exact congrArg (w.signals ++ ·) (SessionState.dueAll_append [removal o] _).symm

end OverlayStack

/-! ## From any state that a run comes by -/

/-- The trace tells of as many signals as the timeline. -/
theorem signalsOf_trace (m : Machine) : signalsOf m.trace = signalsOf m.timeline := by
  rw [signalsOf, Machine.trace, List.filterMap_filter]
  refine List.filterMap_congr fun e _ => ?_
  cases e <;> rfl

namespace Run

open OverlayStack Act

/-- From any session state that a run comes by, whatever the engine will do from inside its calls,
emptying the stack takes overlays off for as long as there is one, and comes to an end. Unless an
operation is begun meanwhile that puts a second overlay of a kind on, it ends with a result. Then
nothing is showing, the pause for overlays is not held, and all that was taken off is detached. An
engine that does nothing meanwhile is told to resume, once, if something was showing and neither the
startup nor the host's pause is held, and is told of no other pause or resume. -/
theorem drain_empties (r : Run) {history : List Event} {s : SessionState}
    (reaches : r.Reaches history s) (w : World) (state : w.front.session.state = s)
    (free : w.front.session.locked = false) (depth : Nat) :
    let drained := drain (tellWithin depth) w
    Empties (tellWithin depth) w drained.1 drained.2 ∧
      ∃ added, drained.2.machine.trace = w.machine.trace ++ added ∧
        ((∀ e ∈ added, e.isDoublePush = false) → ∃ overlays, drained.1 = .ok overlays) ∧
        (∀ overlays, drained.1 = .ok overlays →
          drained.2.front.session.state.stack = [] ∧
          drained.2.front.session.state.run.holds .overlay = false ∧
          ∀ o ∈ overlays, o.isAttached = false) ∧
        (w.engine.reactions = [] →
          drained.1 = .ok (s.stack.map Overlay.detach) ∧
          signalsOf added =
            if s.stack ≠ [] ∧ s.run.holds .startup = false ∧ s.run.holds .host = false
            then [.resume false] else []) := by
  subst state
  have sound : w.front.session.state.Sound := reaches.sound
  have follows := follows_tellWithin depth
  have bears := bears_tellWithin depth
  have empties := empties_drain follows bears free
  -- the session has gone through moves, so that it is sound again
  have moved : (drain (tellWithin depth)).Ensures w
      (fun _ v => ∃ events, v.machine.trace = w.machine.trace ++ events ∧
        Moves w.front.engine w.front.session.state events v.front.session.state)
      fun v => ∃ events, v.machine.trace = w.machine.trace ++ events ∧
        Moves w.front.engine w.front.session.state events v.front.session.state := by
    refine Ensures.mono (follows_drain follows w free trivial) (fun _ v goes => ?_) fun v goes => ?_
    · obtain ⟨events, trace, course⟩ := goes.events
      exact ⟨events, trace, course.moves⟩
    · obtain ⟨events, trace, course⟩ := goes.events
      exact ⟨events, trace, course.moves⟩
  obtain ⟨added, trace, moves⟩ := moved.after
  refine ⟨empties, added, trace, fun single => ?_, fun overlays ended => ?_, fun alone => ?_⟩
  · have blamed := bears_drain bears w
    unfold Ensures at blamed
    rcases ran : drain (tellWithin depth) w with ⟨p | overlays, v⟩
    · rw [ran] at blamed trace
      obtain ⟨added', trace', e, member, double⟩ := blamed
      obtain rfl : added = added' := List.append_cancel_left (trace.symm.trans trace')
      rw [single e member] at double
      cases double
    · exact ⟨overlays, rfl⟩
  · obtain ⟨empty, detached⟩ := empties.emptied follows bears free ended
    refine ⟨empty, Bool.eq_false_iff.2 fun held => ?_, detached⟩
    exact (moves.sound sound).overlay.1 held empty
  · have emptied : (drain (tellWithin depth)).Ensures w
        (fun overlays v => overlays = w.front.session.state.stack.map Overlay.detach ∧
          v.signals = w.signals ++
            w.front.session.state.dueAll (w.front.session.state.stack.map removal))
        fun _ => False :=
      ensures_popMany_alone w.burden sound alone (Nat.le_add_right _ _)
    unfold Ensures at emptied
    rcases ran : drain (tellWithin depth) w with ⟨p | overlays, v⟩
    · rw [ran] at emptied
      exact emptied.elim
    · rw [ran] at emptied trace
      obtain ⟨rfl, signals⟩ := emptied
      rw [SessionState.dueAll_removals rfl] at signals
      refine ⟨rfl, ?_⟩
      have told : v.signals = w.signals ++ signalsOf added := by
        rw [World.signals, ← signalsOf_trace, trace, signalsOf_append, signalsOf_trace]
        rfl
      exact List.append_cancel_left (told.symm.trans signals)

/-- A run that leaves two overlays showing. -/
def menuOverSplash (reactions : List Reaction) : Run where
  machine := default
  config := .new ⟨"data"⟩
  reactions := reactions
  ops := [.host (.graphicsReady 800 480), .host .showMainMenu]

/-- What an engine does that shows the settings when it is told to resume. -/
def settingsOnResume : List Reaction := [⟨.resume, [.stack (.present .settingsMenu)]⟩]

/-- The settings that the engine shows meanwhile are taken off as well. An engine without reactions is
told to resume once. -/
theorem drain_empties_menuOverSplash :
    (∃ overlays, (drain (tellWithin 1) (menuOverSplash settingsOnResume).final).1 = .ok overlays ∧
      overlays.map Overlay.kind = [.mainMenu, .splashScreen, .settingsMenu] ∧
      (∀ o ∈ overlays, o.isAttached = false) ∧
      (drain (tellWithin 1) (menuOverSplash settingsOnResume).final).2.front.session.state.stack = []) ∧
    ∃ added, (drain (tellWithin 0) (menuOverSplash []).final).2.machine.trace =
        (menuOverSplash []).final.machine.trace ++ added ∧
      signalsOf added = [.resume false] := by
  refine ⟨?_, ?_⟩
  · have free : (menuOverSplash settingsOnResume).final.front.session.locked = false := by
      decide +kernel
    obtain ⟨-, added, trace, ended, emptied, -⟩ :=
      (menuOverSplash settingsOnResume).drain_empties .final _ rfl free 1
    have single : ∀ e ∈ (drain (tellWithin 1)
        (menuOverSplash settingsOnResume).final).2.machine.trace, e.isDoublePush = false := by
      decide +kernel
    rw [trace] at single
    obtain ⟨overlays, result⟩ := ended fun e member => single e (List.mem_append_right _ member)
    obtain ⟨empty, -, detached⟩ := emptied overlays result
    have kinds : (drain (tellWithin 1)
        (menuOverSplash settingsOnResume).final).1.toOption.map (List.map Overlay.kind) =
          some [.mainMenu, .splashScreen, .settingsMenu] := by
      decide +kernel
    rw [result] at kinds
    exact ⟨overlays, result, Option.some.inj kinds, detached, empty⟩
  · have free : (menuOverSplash []).final.front.session.locked = false := by decide +kernel
    have reactions : (menuOverSplash []).final.engine.reactions = [] := by decide +kernel
    have showing : (menuOverSplash []).state.stack ≠ [] ∧
        (menuOverSplash []).state.run.holds .startup = false ∧
        (menuOverSplash []).state.run.holds .host = false := by decide +kernel
    obtain ⟨-, added, trace, -, -, alone⟩ := (menuOverSplash []).drain_empties .final _ rfl free 0
    exact ⟨added, trace, (alone reactions).2.trans (if_pos showing)⟩

end Run
end EmuFront
