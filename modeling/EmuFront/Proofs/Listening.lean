import EmuFront.Proofs.Draining

/-!
# Engines that only listen

An engine without reactions does nothing from inside the calls that it receives. What an action comes
to is then known altogether (`Act.Yields`): its result, the session afterwards, and the calls that the
engine has heard meanwhile, each with the session state that it could see.
-/

namespace EmuFront

/-- A call that an engine has received, and the session state that it could see then. -/
structure Heard where
  call : EngineCall
  seen : SessionState
deriving DecidableEq

/-- The call that an engine receives in an event. -/
def Event.heard? : Event → Option Heard
  | .told _ call seen => some ⟨call, seen.state⟩
  | _ => none

/-- The calls that engines receive in a history, in order. -/
def heardIn (history : List Event) : List Heard := history.filterMap Event.heard?

theorem heardIn_append (first rest : List Event) :
    heardIn (first ++ rest) = heardIn first ++ heardIn rest := List.filterMap_append ..

/-! ## What an action yields -/

namespace World

/-- A world has come to another in which the session is in a state, with the lock as it was, and
since then the engine has only heard calls. -/
structure Yields (w v : World) (s : SessionState) (heard : List Heard) : Prop where
  session : v.front.session = { w.front.session with state := s }
  heard : heardIn v.machine.trace = heardIn w.machine.trace ++ heard
  listening : v.engine.reactions = []

namespace Yields

variable {u v w : World} {s t : SessionState} {heard more : List Heard}

theorem refl (listening : w.engine.reactions = []) : w.Yields w w.front.session.state [] :=
  ⟨rfl, (List.append_nil _).symm, listening⟩

theorem trans (first : u.Yields v s heard) (rest : v.Yields w t more) :
    u.Yields w t (heard ++ more) where
  session := by rw [rest.session, first.session]
  heard := by rw [rest.heard, first.heard, List.append_assoc]
  listening := rest.listening

theorem state (h : w.Yields v s heard) : v.front.session.state = s :=
  congrArg Session.state h.session

theorem free (h : w.Yields v s heard) (free : w.front.session.locked = false) :
    v.front.session.locked = false := (congrArg Session.locked h.session).trans free

/-- In the same scene nothing was heard. -/
theorem of_scene_eq (same : v.scene = w.scene) (listening : v.engine.reactions = []) :
    w.Yields v w.front.session.state [] where
  session := congrArg Scene.session same
  heard := by
    rw [show v.machine.trace = w.machine.trace from congrArg Scene.trace same, List.append_nil]
  listening := listening

/-- A change that is committed is not heard. -/
theorem of_scene_commit {c : Change} (committed : v.scene = w.scene.commit c)
    (listening : v.engine.reactions = []) : w.Yields v (w.front.session.state.apply c) [] where
  session := congrArg Scene.session committed
  heard := by
    have trace : v.machine.trace = w.machine.trace ++ [.committed w.front.engine c] :=
      congrArg Scene.trace committed
    rw [trace, heardIn_append]
    rfl
  listening := listening

end Yields
end World

namespace Act

variable {α β : Type} {w : World} {s t : SessionState} {heard more : List Heard}

/-- An action ends with a result and the session in a state, with the lock as it was, and the engine
has only heard calls. -/
def Yields (act : Act α) (w : World) (a : α) (s : SessionState) (heard : List Heard) : Prop :=
  ∃ v, act w = (.ok a, v) ∧ w.Yields v s heard

theorem Yields.result {act : Act α} {a : α} (h : act.Yields w a s heard) : (act w).1 = .ok a := by
  obtain ⟨v, ran, -⟩ := h
  rw [ran]

/-- What runs alike yields the same. -/
theorem Yields.of_run_eq {act other : Act α} {a : α} (h : other.Yields w a s heard)
    (same : act w = other w) : act.Yields w a s heard := by
  rw [Yields, same]
  exact h

theorem yields_iff {act : Act α} {a : α} :
    act.Yields w a s heard ↔
      act.Ensures w (fun b v => b = a ∧ w.Yields v s heard) fun _ => False := by
  unfold Yields Ensures
  rcases act w with ⟨_ | b, v⟩
  · exact iff_of_false (by rintro ⟨v, ⟨⟩, -⟩) id
  · constructor
    · rintro ⟨v, ⟨⟩, yields⟩
      exact ⟨rfl, yields⟩
    · rintro ⟨rfl, yields⟩
      exact ⟨v, rfl, yields⟩

/-- Of an action that does not panic, two things are true at once. -/
theorem Ensures.both {act : Act α} {done done' : α → World → Prop}
    (h : act.Ensures w done fun _ => False) (h' : act.Ensures w done' fun _ => False) :
    act.Ensures w (fun a v => done a v ∧ done' a v) fun _ => False :=
  (h.and h').mono (fun _ _ => id) fun _ => And.left

/-- What goes on from a world that was come to goes on from where that began. -/
theorem Yields.after {act : Act α} {a : α} {v : World} (before : w.Yields v s heard)
    (rest : act.Yields v a t more) :
    act.Ensures v (fun b u => b = a ∧ w.Yields u t (heard ++ more)) fun _ => False :=
  (yields_iff.1 rest).mono (fun _ _ => And.imp_right before.trans) fun _ => id

theorem Yields.bind {act : Act β} {next : β → Act α} {a : α} {b : β}
    (first : act.Yields w b s heard)
    (rest : ∀ v, w.Yields v s heard → (next b).Yields v a t more) :
    (act >>= next).Yields w a t (heard ++ more) := by
  refine yields_iff.2 ((yields_iff.1 first).andThen fun c v known => ?_)
  obtain ⟨rfl, before⟩ := known
  exact Yields.after before (rest v before)

theorem yields_pure (a : α) (listening : w.engine.reactions = []) :
    (pure a : Act α).Yields w a w.front.session.state [] := ⟨w, rfl, .refl listening⟩

theorem yields_get {next : World → Act α} {a : α} (rest : (next w).Yields w a t heard) :
    (get >>= next).Yields w a t heard := rest

/-- The session state is read as it is. -/
theorem yields_state {next : SessionState → Act α} {a : α}
    (rest : (next w.front.session.state).Yields w a t heard) : (state >>= next).Yields w a t heard :=
  rest

/-- A result is made into another. -/
theorem Yields.map {act : Act β} {b : β} (h : act.Yields w b s heard) (f : β → α) :
    (act >>= fun b => pure (f b)).Yields w (f b) s heard := by
  refine yields_iff.2 ((yields_iff.1 h).andThen fun c v known => ?_)
  obtain ⟨rfl, after⟩ := known
  exact ⟨rfl, after⟩

/-- Work that no session takes part in is not heard. -/
theorem yields_work {part : Work β} {next : β → Act α} {a : α} (quiet : part.Quiet)
    (listening : w.engine.reactions = [])
    (rest : (next (part w.machine).1).Yields (w.after part) a t heard) :
    (work part >>= next).Yields w a t heard := by
  have before : w.Yields (w.after part) w.front.session.state [] :=
    .of_scene_eq (still_work quiet w) listening
  obtain ⟨v, ran, later⟩ := rest
  exact ⟨v, ran, before.trans later⟩

end Act

/-! ## Calling the engine -/

/-- A way to call the engine in which an engine without reactions only hears the call. -/
def Tell.Listens (tell : Tell) : Prop :=
  ∀ (call : EngineCall) (w : World), w.engine.reactions = [] →
    Act.Yields (tell call) w () w.front.session.state [⟨call, w.front.session.state⟩]

theorem listens_tellWithin (depth : Nat) : (tellWithin depth).Listens := by
  intro call w listening
  have scene : (w.told call).scene =
      w.scene.observe (.told w.scene.engine call w.scene.session) :=
    Act.Ensures.after (p := fun v => v.scene = _)
      ((Act.ensures_deliver call w).mono (fun _ _ => id) fun _ => False.elim)
  refine Act.yields_iff.2 ((ensures_tellWithin_alone depth call listening).mono
    (fun _ v told => ?_) fun _ => id)
  rw [told]
  refine ⟨rfl, congrArg Scene.session scene, ?_, ?_⟩
  · have trace : (w.told call).machine.trace =
        w.machine.trace ++ [.told w.front.engine call w.front.session] :=
      congrArg Scene.trace scene
    rw [trace, heardIn_append]
    rfl
  · rw [World.told_eq]
    exact listening

/-! ## The overlay stack -/

namespace OverlayStack

open Act

variable {tell : Tell} {w : World} {o : Overlay} {kind : OverlayKind}

/-- A change that is committed with the lock held has come about once the lock is free again. -/
private theorem ensures_release_commit {c : Change} {u v : World}
    (free : w.front.session.locked = false) (listening : w.engine.reactions = [])
    (acquired : v.scene = w.scene.lock true ∧ w.Plain v)
    (committed : u.scene = v.scene.commit c ∧ (v.commit c).Plain u) :
    release.Ensures u (fun _ r => w.Yields r (w.front.session.state.apply c) []) fun _ => False := by
  refine ((ensures_release u).both (plain_release u)).mono (fun _ r known => ?_) fun _ => id
  obtain ⟨released, plain⟩ := known
  rw [committed.1, acquired.1, Scene.lock_false_commit_lock_true free] at released
  have fewer : r.engine.reactions ⊆ w.engine.reactions :=
    List.Subset.trans plain.reactions
      (List.Subset.trans committed.2.reactions acquired.2.reactions)
  exact .of_scene_commit released (List.subset_nil.1 (listening ▸ fewer))

/-- An overlay of a kind that is not showing is put on, and the engine hears of the pause. -/
theorem yields_push {site : PanicSite} (listens : tell.Listens) (free : w.front.session.locked = false)
    (listening : w.engine.reactions = []) (absent : w.front.session.state.shows o.kind = false) :
    (push tell site o).Yields w () (w.front.session.state.apply (pushing w.front.session.state o))
      [⟨.pause false, w.front.session.state.apply (pushing w.front.session.state o)⟩] := by
  refine yields_iff.2 (((ensures_acquire w).both (plain_acquire w)).andThen ?_)
  intro _ v acquired
  rw [ensures_bind, ensures_state, acquired.2.state, if_neg (Bool.eq_false_iff.1 absent)]
  apply ((ensures_pushLocked o v).both (ensures_pushLocked_plain o v)).andThen
  intro _ u pushed
  have bounds : v.front.session.state.bounds = w.front.session.state.bounds :=
    congrArg SessionState.bounds acquired.2.state
  rw [show v.scene.session.state.bounds = _ from bounds, bounds] at pushed
  apply (ensures_release_commit free listening acquired pushed).andThen
  intro _ r before
  have told := listens (.pause false) r before.listening
  rw [before.state] at told
  exact Yields.after before told

/-- No overlay of a kind that is not showing is taken off. -/
theorem yields_popNamed_of_absent (free : w.front.session.locked = false)
    (listening : w.engine.reactions = []) (absent : w.front.session.state.find? kind = none) :
    (popNamed tell kind).Yields w none w.front.session.state [] := by
  refine yields_iff.2 (((ensures_acquire w).both (plain_acquire w)).andThen ?_)
  rintro _ v ⟨acquired, plain⟩
  rw [ensures_bind, ensures_state, plain.state]
  simp only [absent, pure_bind]
  apply ((ensures_release v).both (plain_release v)).andThen
  rintro _ u ⟨released, plain'⟩
  rw [acquired, Scene.lock_false_lock_true free] at released
  have fewer : u.engine.reactions ⊆ w.engine.reactions :=
    List.Subset.trans plain'.reactions plain.reactions
  exact ⟨rfl, .of_scene_eq released (List.subset_nil.1 (listening ▸ fewer))⟩

/-- An overlay that is showing is taken off and given back, and the engine hears of the resume if that
sets it running. -/
theorem yields_popNamed (listens : tell.Listens) (free : w.front.session.locked = false)
    (listening : w.engine.reactions = []) (found : w.front.session.state.find? kind = some o) :
    (popNamed tell kind).Yields w (some o.detach) (w.front.session.state.apply (removal o))
      ((w.front.session.state.signal? (removal o)).map fun call =>
        ⟨call, w.front.session.state.apply (removal o)⟩).toList := by
  refine yields_iff.2 (((ensures_acquire w).both (plain_acquire w)).andThen ?_)
  intro _ v acquired
  rw [ensures_bind, ensures_state, acquired.2.state]
  simp only [found, pure_bind]
  apply ((ensures_removeLocked o v).both (ensures_removeLocked_plain o v)).andThen
  rintro resume u ⟨⟨removed, signal⟩, logged⟩
  apply (ensures_release_commit free listening acquired ⟨removed, logged⟩).andThen
  intro _ r before
  have given : ∀ q : World, q.engine.reactions = [] →
      (do note fun engine => .returned engine o.detach; return some o.detach).Yields q
        (some o.detach) q.front.session.state [] := by
    intro q listening
    exact yields_work (Work.quiet_observe rfl) listening (yields_pure _ listening)
  rw [acquired.1] at signal
  rw [show w.front.session.state.signal? (removal o) = _ from signal]
  cases resume with
  | false => exact Yields.after before (before.state ▸ given r before.listening)
  | true =>
    have told := listens (.resume false) r before.listening
    rw [before.state] at told
    have resumed : (do
        tell (.resume false)
        note fun engine => .returned engine o.detach
        return some o.detach : Act (Option Overlay)).Yields r (some o.detach)
          (w.front.session.state.apply (removal o)) _ :=
      told.bind fun q heard => heard.state ▸ given q heard.listening
    exact Yields.after before resumed

end OverlayStack
end EmuFront
