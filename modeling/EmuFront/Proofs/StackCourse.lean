import EmuFront.Proofs.Follow
import EmuFront.Proofs.Sound

/-!
# Courses of the overlay stack

What each operation of the overlay stack does to a session: one change at most is committed, with
the lock held, and the engine is told of it after the lock is free. Emptying the stack while the host
is in the background takes off every overlay from the top down and tells the engine nothing.
-/

namespace EmuFront.OverlayStack

open Act

variable {tell : Tell} {w : World}

/-! ## With the lock held -/

/-- An overlay is attached at the bounds of the session as it is put on. -/
theorem ensures_pushLocked (o : Overlay) (w : World) :
    (pushLocked o).Ensures w
      (fun _ v => v.scene = w.scene.commit (.pushed (o.attach w.scene.session.state.bounds)))
      fun _ => False := by
  unfold pushLocked
  rw [ensures_bind, ensures_state]
  apply (ensures_commit _ w).andThen
  intro _ v committed
  -- what follows the change is for the log
  have push_logged : (do log .debug s!"push {o.kind.name}, depth {(← state).depth}").Still :=
    still_state.bind fun s => still_log _ _
  rw [show w.front.session.state = w.scene.session.state from rfl] at committed ⊢
  rw [← committed]
  split
  · exact ((still_log _ _).bind fun _ => push_logged) v
  · exact push_logged v

/-- Taking an overlay off tells whether the engine is to be told of it. -/
theorem ensures_removeLocked (o : Overlay) (w : World) :
    (removeLocked o).Ensures w
      (fun resume v => v.scene = w.scene.commit (.removed o.detach) ∧
        w.scene.session.state.signal? (.removed o.detach)
          = if resume then some (.resume false) else none)
      fun _ => False := by
  unfold removeLocked
  rw [ensures_bind, ensures_state]
  apply (ensures_commit _ w).andThen
  intro _ v committed
  rw [ensures_bind, ensures_state]
  have after : v.front.session.state = w.scene.session.state.remove o.kind :=
    congrArg (fun a => a.session.state) committed
  apply (still_log _ _ v).andThen
  intro _ u same
  rw [committed] at same
  -- the engine is told if the stack is empty by now and no other pause was held before
  have signal : w.scene.session.state.signal? (.removed o.detach)
      = if v.front.session.state.stack.isEmpty && w.front.session.state.run.resumeStarts .overlay
        then some (.resume false) else none := by
    rw [after]
    rfl
  rw [signal]
  cases v.front.session.state.stack.isEmpty with
  | false => exact ⟨same, rfl⟩
  | true =>
    rw [if_pos rfl]
    cases w.front.session.state.run.resumeStarts .overlay with
    | true => exact (still_log _ _ u).andThen fun _ _ logged => ⟨logged.trans same, rfl⟩
    | false => exact (still_log _ _ u).andThen fun _ _ logged => ⟨logged.trans same, rfl⟩

/-! ## Putting overlays on -/

/-- A change of the stack, committed and told once the lock is free. -/
private theorem ensures_release_tell (h : tell.Follows) {a : Scene} {c : Change}
    {call : EngineCall} (free : a.session.locked = false)
    (signal : a.session.state.signal? c = some call)
    (committed : w.scene = (a.lock true).commit c) :
    (do release; tell call).Runs w a (Changed c) := by
  apply (ensures_release w).andThen
  intro _ v released
  rw [committed, Scene.lock_false_commit_lock_true free] at released
  exact h.changed free signal released

/-- The change by which an overlay is put on. -/
def pushing (s : SessionState) (o : Overlay) : Change := .pushed (o.attach s.bounds)

/-- An overlay whose kind is absent may be put on. -/
theorem admits_pushing {s : SessionState} {o : Overlay} (absent : s.shows o.kind = false) :
    s.Admits (pushing s o) := ⟨absent, rfl⟩

/-- An overlay is shown, or refused since one of its kind is showing. -/
theorem ensures_present (h : tell.Follows) (o : Overlay) (free : w.scene.session.locked = false) :
    (present tell o).Ensures w
      (fun _ v => w.scene.session.state.shows o.kind = true ∧ v.scene = w.scene ∨
        w.scene.session.state.shows o.kind = false ∧
          w.scene.Goes (Changed (pushing w.scene.session.state o) Course) v.scene)
      fun v => w.scene.session.state.shows o.kind = false ∧
        w.scene.Goes (Changed (pushing w.scene.session.state o) BrokenCourse) v.scene := by
  apply ensures_acquire_state
  intro v acquired
  cases shows : w.scene.session.state.shows o.kind with
  | true =>
    -- refused: nothing was touched but the lock
    rw [if_pos rfl]
    apply (still_log _ _ v).andThen
    intro _ u logged
    apply (still_note (fun _ => rfl) u).andThen
    intro _ r noted
    refine (ensures_release r).andThen fun _ t released => .inl ⟨rfl, ?_⟩
    rw [released, noted, logged, acquired, Scene.lock_false_lock_true free]
  | false =>
    rw [if_neg Bool.false_ne_true]
    apply (ensures_pushLocked o v).andThen
    intro _ u pushed
    rw [acquired] at pushed
    have told := ensures_release_tell h free rfl pushed
    exact told.bind (fun _ t goes => .inr ⟨rfl, goes⟩) fun t goes => ⟨rfl, goes⟩

/-- Whether an overlay is showing is looked up and acted on under one lock. -/
theorem follows_present (h : tell.Follows) (o : Overlay) :
    (present tell o).Follows fun _ => True := by
  intro w free _
  refine (ensures_present h o free).mono (fun _ v result => ?_) fun v panicked => ?_
  · rcases result with ⟨_, same⟩ | ⟨absent, goes⟩
    · rw [same]
      exact .refl free
    · exact goes.mono fun _ moves => moves.extend extends_course (admits_pushing absent)
  · rcases panicked with ⟨absent, goes⟩
    exact goes.mono fun _ moves => moves.extend extends_brokenCourse (admits_pushing absent)

/-- A second overlay of a kind is refused by a panic, which leaves all but the lock as it was. -/
theorem ensures_push_showing {site : PanicSite} {o : Overlay} (free : w.scene.session.locked = false)
    (showing : w.scene.session.state.shows o.kind = true) :
    (push tell site o).Ensures w (fun _ _ => False) fun v =>
      v.scene = { w.scene with session := { w.scene.session with poisoned := true } } := by
  apply ensures_acquire_state
  intro v acquired
  rw [if_pos showing]
  apply (still_note (fun _ => rfl) v).andThen
  intro _ r refused
  apply (still_work (Work.quiet_onPanic _) r).andThen
  intro _ u noted
  rw [refused, acquired] at noted
  -- on the way out the lock is freed and poisoned
  have left : (modifySession fun s => { s with locked := false, poisoned := true }).Ensures u
      (fun _ t => t.scene =
        { u.scene with session := { u.scene.session with locked := false, poisoned := true } })
      fun _ => False := rfl
  apply left.andThen
  intro _ t poisoned
  show t.scene = _
  rw [poisoned, noted]
  show (⟨_, ⟨_, false, true⟩, _⟩ : Scene) = ⟨_, ⟨_, w.scene.session.locked, true⟩, _⟩
  rw [free]
  rfl

/-- A push of an absent kind puts it on, and then tells the engine to pause. -/
theorem runs_push_absent (h : tell.Follows) {site : PanicSite} {o : Overlay}
    (free : w.scene.session.locked = false) (absent : w.scene.session.state.shows o.kind = false) :
    (push tell site o).Runs w w.scene (Changed (pushing w.scene.session.state o)) := by
  apply ensures_acquire_state
  intro v acquired
  rw [if_neg (Bool.eq_false_iff.1 absent)]
  apply (ensures_pushLocked o v).andThen
  intro _ u pushed
  rw [acquired] at pushed
  exact ensures_release_tell h free rfl pushed

/-- A push follows a course, and where it panics a broken one. -/
theorem follows_push (h : tell.Follows) (site : PanicSite) (o : Overlay) :
    (push tell site o).Follows fun _ => True := by
  intro w free _
  cases shows : w.scene.session.state.shows o.kind with
  | true =>
    -- the panic strikes while the overlay of its kind is showing
    refine (ensures_push_showing free shows).mono (fun _ _ => False.elim) fun v panicked => ?_
    have showing : w.scene.session.state.stack ≠ [] := by
      intro empty
      simp [SessionState.shows, empty] at shows
    rw [panicked]
    exact ⟨rfl, free, [], (List.append_nil _).symm, .doublePush showing⟩
  | false =>
    exact (runs_push_absent h free shows).mono fun _ _ _ goesOn moves =>
      moves.extend goesOn (admits_pushing shows)

/-! ## Taking overlays off -/

/-- The change by which an overlay is taken off. -/
def removal (o : Overlay) : Change := .removed o.detach

/-- A choice of an overlay that is showing, which leaves the scene as it is. -/
def Picks (pick : SessionState → Act (Option Overlay)) (picked : SessionState → Option Overlay) :
    Prop :=
  ∀ s w, (pick s).Ensures w (fun o v => o = picked s ∧ v.scene = w.scene) fun _ => False

/-- An overlay that is picked is taken off, and the engine is told if that sets it running. -/
theorem ensures_remove (h : tell.Follows) {pick : SessionState → Act (Option Overlay)}
    {picked : SessionState → Option Overlay} (picks : Picks pick picked)
    (free : w.scene.session.locked = false) :
    (remove tell pick).Ensures w
      (fun o v => o = (picked w.scene.session.state).map Overlay.detach ∧
        match picked w.scene.session.state with
        | none => v.scene = w.scene
        | some shown =>
          w.scene.session.state.signal? (removal shown) = none ∧
              v.scene = w.scene.commit (removal shown) ∨
            w.scene.session.state.signal? (removal shown) ≠ none ∧
              w.scene.Goes (Changed (removal shown) Course) v.scene)
      fun v => ∃ shown, picked w.scene.session.state = some shown ∧
        w.scene.session.state.signal? (removal shown) ≠ none ∧
        w.scene.Goes (Changed (removal shown) BrokenCourse) v.scene := by
  apply ensures_acquire_state
  intro v acquired
  apply (picks _ v).andThen
  intro o u chosen
  rcases chosen with ⟨rfl, unchanged⟩
  rw [acquired] at unchanged
  cases picked w.scene.session.state with
  | none =>
    refine (ensures_release u).andThen fun _ t released => ⟨rfl, ?_⟩
    rw [released, unchanged]
    exact Scene.lock_false_lock_true free
  | some shown =>
    apply (ensures_removeLocked shown u).andThen
    intro resume t removed
    rcases removed with ⟨committed, signal⟩
    rw [unchanged] at committed signal
    cases resume with
    | false =>
      apply (ensures_release t).andThen
      intro _ r released
      rw [committed, Scene.lock_false_commit_lock_true free] at released
      refine (still_note (fun _ => rfl) r).andThen fun _ q noted => ⟨rfl, .inl ⟨signal, ?_⟩⟩
      rw [noted, released]
      rfl
    | true =>
      have told : w.scene.session.state.signal? (removal shown) ≠ none := by
        intro silent
        exact Option.some_ne_none _ (signal.symm.trans silent)
      -- the engine is told with the lock free again, and may do its part or panic
      have resumed := ensures_release_tell h free signal committed
      refine resumed.bind (fun _ r goes => ?_) fun r goes => ⟨shown, rfl, told, goes⟩
      refine (still_note (fun _ => rfl) r).andThen fun _ q noted => ⟨rfl, .inr ⟨told, ?_⟩⟩
      rw [noted]
      exact goes

/-- An overlay that is picked is taken off, and then the engine may resume. -/
theorem follows_remove (h : tell.Follows) {pick : SessionState → Act (Option Overlay)}
    (picked : SessionState → Option Overlay) (picks : Picks pick picked)
    (showing : ∀ s o, picked s = some o → s.find? o.kind = some o) :
    (remove tell pick).Follows fun _ => True := by
  intro w free _
  have admits : ∀ o, picked w.scene.session.state = some o →
      w.scene.session.state.Admits (removal o) := by
    intro o chosen
    exact ⟨o, showing _ o chosen, rfl⟩
  refine (ensures_remove h picks free).mono (fun _ v removed => ?_) fun v panicked => ?_
  · have result := removed.2
    cases chosen : picked w.scene.session.state with
    | none =>
      rw [chosen] at result
      rw [show v.scene = w.scene from result]
      exact .refl free
    | some o =>
      rw [chosen] at result
      rcases result with ⟨silent, same⟩ | ⟨_, goes⟩
      · rw [same]
        exact (Scene.goes_changed free silent).mono fun _ moves =>
          moves.extend extends_course (admits o chosen)
      · exact goes.mono fun _ moves => moves.extend extends_course (admits o chosen)
  · rcases panicked with ⟨o, chosen, _, goes⟩
    exact goes.mono fun _ moves => moves.extend extends_brokenCourse (admits o chosen)

/-- The top overlay is the first of its kind. -/
theorem find?_of_top? {s : SessionState} {o : Overlay} (h : s.top? = some o) :
    s.find? o.kind = some o := by
  rcases List.head?_eq_some_iff.1 h with ⟨rest, stack⟩
  simp [SessionState.find?, stack]

theorem kind_of_find? {s : SessionState} {kind : OverlayKind} {o : Overlay}
    (h : s.find? kind = some o) : o.kind = kind := by
  simpa using List.find?_some h

theorem picks_pop : Picks (fun s => return s.top?) SessionState.top? := fun _ _ => ⟨rfl, rfl⟩

/-- The top overlay is picked among those showing. -/
theorem follows_pop (h : tell.Follows) : (pop tell).Follows fun _ => True :=
  follows_remove h SessionState.top? picks_pop fun _ _ => find?_of_top?

theorem picks_popNamed (kind : OverlayKind) :
    Picks (fun s => return s.find? kind) fun s => s.find? kind := fun _ _ => ⟨rfl, rfl⟩

theorem follows_popNamed (h : tell.Follows) (kind : OverlayKind) :
    (popNamed tell kind).Follows fun _ => True := by
  refine follows_remove h (fun s => s.find? kind) (picks_popNamed kind) fun s o found => ?_
  rw [kind_of_find? found]
  exact found

/-- An overlay that is not dismissable is not picked, and that is logged. -/
theorem picks_dismiss (kind : OverlayKind) :
    Picks (fun s => match s.find? kind with
      | none => return none
      | some o => if o.isDismissable then return some o else do
        log .debug s!"{kind.name} is not dismissable"
        return none)
      fun s => (s.find? kind).filter Overlay.isDismissable := by
  intro s w
  dsimp only
  cases s.find? kind with
  | none => exact ⟨rfl, rfl⟩
  | some o =>
    show (if o.isDismissable then _ else _ : Act (Option Overlay)).Ensures w
      (fun o' v => o' = (if o.isDismissable then some o else none) ∧ v.scene = w.scene) _
    cases o.isDismissable with
    | true => exact ⟨rfl, rfl⟩
    | false => exact (still_log _ _ w).andThen fun _ v same => ⟨rfl, same⟩

/-- An overlay that may not be closed is not picked. -/
theorem follows_dismiss (h : tell.Follows) (kind : OverlayKind) :
    (dismiss tell kind).Follows fun _ => True := by
  refine follows_remove h _ (picks_dismiss kind) fun s o chosen => ?_
  have found := (Option.filter_eq_some_iff.1 chosen).1
  rw [kind_of_find? found]
  exact found

/-! ## Emptying the stack -/

/-- Overlays are taken off one after the other, each along a course. -/
theorem follows_popMany (h : tell.Follows) (n : Nat) : (popMany tell n).Follows fun _ => True := by
  induction n with
  | zero => exact (still_pure []).follows _
  | succ n ih =>
    apply (follows_pop h).andThen
    intro popped
    cases popped with
    | none => exact (still_pure []).follows _
    | some o => exact ih.andThen fun _ => (still_pure _).follows _

theorem follows_drain (h : tell.Follows) : (drain tell).Follows fun _ => True :=
  still_get.andThen fun _ => follows_popMany h _

/-- While the host holds its pause, letting go of the overlay pause starts nothing. -/
theorem resumeStarts_of_host {r : RunState} (host : r.host = true) :
    r.resumeStarts .overlay = false := by
  simp [RunState.resumeStarts, RunState.resume, RunState.set, RunState.isRunning, host]

/-- While the host holds its pause, the stack is emptied from the top down in silence. -/
theorem ensures_popMany_of_host (h : tell.Follows) (n : Nat)
    (free : w.scene.session.locked = false) (host : w.scene.session.state.run.host = true)
    (enough : w.scene.session.state.stack.length ≤ n) :
    (popMany tell n).Ensures w
      (fun _ v => v.scene = w.scene.commitAll (w.scene.session.state.stack.map removal))
      fun _ => False := by
  induction n generalizing w with
  | zero =>
    rw [List.eq_nil_of_length_eq_zero (Nat.le_zero.1 enough)]
    exact (still_pure [] w).mono (fun _ _ same => same) fun _ => id
  | succ n ih =>
    have removed := ensures_remove h picks_pop free
    cases stack : w.scene.session.state.stack with
    | nil =>
      have top : w.scene.session.state.top? = none := by simp [SessionState.top?, stack]
      rw [top] at removed
      -- nothing is left to be taken off
      refine removed.bind (fun popped v result => ?_) (by simp)
      rcases result with ⟨rfl, same⟩
      exact same
    | cons o rest =>
      have top : w.scene.session.state.top? = some o := by simp [SessionState.top?, stack]
      have silent : w.scene.session.state.signal? (removal o) = none := by
        simp [removal, SessionState.signal?, resumeStarts_of_host host]
      rw [top] at removed
      -- the removal can neither call the engine nor panic
      simp only [silent, ne_eq, not_true_eq_false, false_and, or_false, true_and,
        Option.some.injEq, exists_eq_left', Option.map_some] at removed
      apply removed.andThen
      intro popped v result
      rcases result with ⟨rfl, taken⟩
      -- one overlay is gone, and the host still holds its pause
      have left : v.scene.session.state.stack = rest := by
        rw [taken]
        exact SessionState.stack_removed_top stack
      have host' : v.scene.session.state.run.host = true := by
        rw [taken]
        exact (SessionState.host_removed _).trans host
      have free' : v.scene.session.locked = false := by
        rw [taken]
        exact free
      have enough' : v.scene.session.state.stack.length ≤ n := by
        rw [left]
        rw [stack, List.length_cons] at enough
        omega
      apply (ih free' host' enough').andThen
      intro _ u emptied
      show u.scene = (w.scene.commit (removal o)).commitAll (rest.map removal)
      rw [emptied, left, taken]

/-- The host's pause is taken, and the stack emptied. -/
theorem ensures_drain_of_host (h : tell.Follows) (free : w.scene.session.locked = false)
    (host : w.scene.session.state.run.host = true) :
    (drain tell).Ensures w
      (fun _ v => v.scene = w.scene.commitAll (w.scene.session.state.stack.map removal))
      fun _ => False :=
  ensures_popMany_of_host h _ free host (Nat.le_add_right _ _)

/-! ## The rest -/

/-- A splash screen that is showing is locked or unlocked, with the change committed. -/
theorem ensures_setDismissable (value : Bool) (free : w.scene.session.locked = false) :
    (setDismissable value).Ensures w
      (fun _ v => v.scene = if w.scene.session.state.shows .splashScreen
        then w.scene.commit (.dismissableSet value) else w.scene)
      fun _ => False := by
  refine ensures_locked (fun _ a => a = if w.scene.session.state.shows .splashScreen
    then w.scene.commit (.dismissableSet value) else w.scene) fun v acquired => ?_
  rw [ensures_bind, ensures_state]
  have same : v.front.session.state = w.scene.session.state :=
    congrArg (fun a => a.session.state) acquired
  rw [same]
  cases shows : w.scene.session.state.shows .splashScreen with
  | true =>
    rw [if_pos rfl, if_pos rfl]
    apply (ensures_commit _ v).andThen
    intro _ u committed
    show u.scene.lock false = _
    rw [committed, acquired, Scene.lock_false_commit_lock_true free]
  | false =>
    show v.scene.lock false = w.scene
    rw [acquired, Scene.lock_false_lock_true free]

theorem follows_setDismissable (value : Bool) : (setDismissable value).Follows fun _ => True := by
  intro w free _
  refine (ensures_setDismissable value free).mono (fun _ v set => ?_) fun _ => False.elim
  cases shows : w.scene.session.state.shows .splashScreen with
  | true =>
    rw [if_pos shows] at set
    rw [set]
    exact (Scene.goes_changed free rfl).mono fun _ moves => moves.extend extends_course shows
  | false =>
    rw [if_neg (Bool.eq_false_iff.1 shows)] at set
    rw [set]
    exact .refl free

/-- Trying the lock leaves it free, whether or not it was held for the while. -/
theorem ensures_tryDepth (held : Bool) (free : w.scene.session.locked = false) :
    (tryDepth held).Ensures w (fun _ v => v.scene = w.scene) fun _ => False := by
  have same : (w.scene.lock held).lock false = w.scene := by
    rw [← Scene.lock_false_lock_true free]
    rfl
  have tried : (modifySession fun s => { s with locked := held }).Ensures w
      (fun _ v => v.scene = w.scene.lock held) fun _ => False := rfl
  apply tried.andThen
  intro _ v acquired
  rw [ensures_bind, ensures_get]
  apply (ensures_release v).andThen
  intro _ u released
  show u.scene = w.scene
  rw [released, acquired, same]

theorem follows_tryDepth (held : Bool) : (tryDepth held).Follows fun _ => True := by
  intro w free _
  refine (ensures_tryDepth held free).mono (fun _ v same => ?_) fun _ => False.elim
  rw [same]
  exact .refl free

/-- Every operation on the stack goes along a course. -/
theorem follows_perform (h : tell.Follows) (op : StackOp) :
    (op.perform tell).Follows fun _ => True := by
  have made : ∀ spec : OverlaySpec, spec.made.Still := fun spec => still_work (Work.quiet_make spec)
  cases op with
  | push spec site => exact (made spec).andThen fun o => (follows_push h site o).result
  | present spec => exact (made spec).andThen fun o => (follows_present h o).result
  | pop => exact (follows_pop h).result
  | popNamed kind => exact (follows_popNamed h kind).result
  | dismiss kind => exact (follows_dismiss h kind).result
  | drain => exact (follows_drain h).result
  | setDismissable value => exact (follows_setDismissable value).result
  | tryLock held => exact (follows_tryDepth held).result

end EmuFront.OverlayStack
