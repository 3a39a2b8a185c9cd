import EmuFront.Proofs.Listening

/-!
# Laws of the overlay stack

Overlays are taken off in three ways: from the top, by kind, and on behalf of the user. While the
engine only listens these agree with each other wherever they pick the same overlay, taking off undoes
putting on, and overlays of several kinds may be taken off in any order.
-/

namespace EmuFront

namespace SessionState

variable {s : SessionState} {o : Overlay} {kind : OverlayKind} {kinds order : List OverlayKind}

/-! ## Session states without overlays of some kinds -/

/-- The session state without the overlays of some kinds. Losing the last overlay lets go of the
overlay pause. -/
def without (s : SessionState) (kinds : List OverlayKind) : SessionState :=
  let stack := s.stack.filter fun o => decide (o.kind ∉ kinds)
  { s with stack, run := if stack.isEmpty then s.run.resume .overlay else s.run }

/-- What an engine hears while the overlays of some kinds are taken off: that it resumes, once no
overlay is left, if neither the startup nor the host holds it. -/
def resuming (s : SessionState) (kinds : List OverlayKind) : List Heard :=
  if s.stack ≠ [] ∧ (s.without kinds).stack = [] ∧
      s.run.holds .startup = false ∧ s.run.holds .host = false
  then [⟨.resume false, s.without kinds⟩] else []

theorem without_congr (same : ∀ kind, kind ∈ order ↔ kind ∈ kinds) :
    s.without order = s.without kinds := by
  simp only [without, same]

theorem resuming_congr (same : ∀ kind, kind ∈ order ↔ kind ∈ kinds) :
    s.resuming order = s.resuming kinds := by
  rw [resuming, resuming, without_congr same]

theorem startup_without (s : SessionState) (kinds : List OverlayKind) :
    (s.without kinds).run.startup = s.run.startup := by
  simp only [without]
  split <;> rfl

theorem host_without (s : SessionState) (kinds : List OverlayKind) :
    (s.without kinds).run.host = s.run.host := by
  simp only [without]
  split <;> rfl

/-- An overlay of another kind is still found. -/
theorem find?_without (other : kind ∉ kinds) : (s.without kinds).find? kind = s.find? kind := by
  rw [find?, without, List.find?_filter]
  refine congrArg (fun p => s.stack.find? p) (funext fun o => ?_)
  by_cases same : o.kind = kind <;> simp [same, other]

namespace Sound

theorem without (sound : s.Sound) (kinds : List OverlayKind) : (s.without kinds).Sound where
  kinds := sound.kinds.sublist (List.filter_sublist.map _)
  attached := fun o member => sound.attached o (List.mem_of_mem_filter member)
  overlay := by
    simp only [SessionState.without]
    split
    · rename_i empty
      exact iff_of_false Bool.false_ne_true fun left => left (List.isEmpty_iff.1 empty)
    · rename_i left
      rw [List.isEmpty_iff] at left
      refine iff_of_true (sound.overlay.2 fun empty => left ?_) left
      rw [empty]
      rfl
  startup := (startup_without s kinds).trans sound.startup

/-- Sound session states hold the overlay and startup pauses as their stacks and graphics have it. -/
theorem eq_of_stack_eq {t : SessionState} (sound : s.Sound) (sound' : t.Sound)
    (stack : s.stack = t.stack) (host : s.run.host = t.run.host) (surface : s.surface = t.surface)
    (ready : s.graphicsReady = t.graphicsReady) : s = t := by
  have startup : s.run.startup = t.run.startup := by rw [sound.startup, sound'.startup, ready]
  have overlay : s.run.overlay = t.run.overlay := by
    rw [Bool.eq_iff_iff, sound.overlay, sound'.overlay, stack]
  obtain ⟨stack₁, ⟨startup₁, overlay₁, host₁⟩, surface₁, ready₁⟩ := s
  obtain ⟨stack₂, ⟨startup₂, overlay₂, host₂⟩, surface₂, ready₂⟩ := t
  simp_all

/-- Where no overlay of the kinds is showing, none is lost. -/
theorem without_of_forall (sound : s.Sound) (other : ∀ o ∈ s.stack, o.kind ∉ kinds) :
    s.without kinds = s := by
  have stack : (s.without kinds).stack = s.stack :=
    List.filter_eq_self.2 fun o member => decide_eq_true (other o member)
  exact (sound.without kinds).eq_of_stack_eq sound stack (host_without s kinds) rfl rfl

/-- Where no overlay of the kinds is showing, nothing is heard of taking them off. -/
theorem resuming_of_forall (sound : s.Sound) (other : ∀ o ∈ s.stack, o.kind ∉ kinds) :
    s.resuming kinds = [] := by
  refine if_neg fun resumes => resumes.1 ?_
  rw [← sound.without_of_forall other]
  exact resumes.2.1

/-- Without overlays of some kinds and then of others is without any of them. -/
theorem without_append (sound : s.Sound) (first rest : List OverlayKind) :
    s.without (first ++ rest) = (s.without first).without rest := by
  have stack : (s.without (first ++ rest)).stack = ((s.without first).without rest).stack := by
    simp only [SessionState.without, List.filter_filter]
    refine List.filter_congr fun o _ => ?_
    simp [Bool.and_comm]
  have host : (s.without (first ++ rest)).run.host = ((s.without first).without rest).run.host := by
    rw [host_without, host_without, host_without]
  exact (sound.without _).eq_of_stack_eq ((sound.without _).without _) stack host rfl rfl

/-- What an engine hears on the way does not depend on how the kinds are taken off. -/
theorem resuming_append (sound : s.Sound) (first rest : List OverlayKind) :
    s.resuming (first ++ rest) = s.resuming first ++ (s.without first).resuming rest := by
  have held : ∀ reason, reason ≠ .overlay →
      (s.without first).run.holds reason = s.run.holds reason := by
    intro reason other
    cases reason with
    | startup => exact startup_without s first
    | host => exact host_without s first
    | overlay => exact absurd rfl other
  rw [resuming, resuming, resuming, sound.without_append, held .startup nofun, held .host nofun]
  by_cases empty : (s.without first).stack = []
  · -- nothing is left to be taken off after the first kinds
    have same : (s.without first).without rest = s.without first :=
      (sound.without first).without_of_forall (by simp [empty])
    rw [same]
    simp [empty]
  · have showing : s.stack ≠ [] := by
      intro none
      rw [SessionState.without, none] at empty
      exact empty rfl
    simp [empty, showing]

/-- Overlays differ in kind, so that taking one off leaves those of other kinds. -/
theorem remove_eq (sound : s.Sound) (kind : OverlayKind) :
    s.remove kind = s.without [kind] := by
  have erased : ∀ stack : List Overlay, (stack.map Overlay.kind).Nodup →
      stack.eraseP (fun o => decide (o.kind = kind)) =
        stack.filter fun o => decide (o.kind ∉ [kind]) := by
    intro stack
    induction stack with
    | nil => exact fun _ => rfl
    | cons o rest ih =>
      intro nodup
      obtain ⟨absent, nodup'⟩ := List.nodup_cons.1 nodup
      by_cases same : o.kind = kind
      · have others : ∀ p ∈ rest, decide (p.kind ∉ [kind]) = true := by
          intro p member
          have other : p.kind ≠ o.kind := fun eq => absent (eq ▸ List.mem_map_of_mem member)
          simpa [← same] using other
        rw [List.eraseP_cons_of_pos (by simpa using same),
          List.filter_cons_of_neg (by simpa using same), List.filter_eq_self.2 others]
      · rw [List.eraseP_cons_of_neg (by simpa using same),
          List.filter_cons_of_pos (by simpa using same), ih nodup']
  simp only [remove, SessionState.without, erased s.stack sound.kinds]

/-- What an engine hears of a removal is the resume that it brings about. -/
theorem signal_removal (sound : s.Sound) (found : s.find? kind = some o) :
    ((s.signal? (OverlayStack.removal o)).map fun call =>
      (⟨call, s.apply (OverlayStack.removal o)⟩ : Heard)).toList = s.resuming [kind] := by
  obtain rfl := OverlayStack.kind_of_find? found
  have showing : s.stack ≠ [] := List.ne_nil_of_mem (List.mem_of_find?_eq_some found)
  have left : s.apply (OverlayStack.removal o) = s.without [o.kind] := sound.remove_eq o.kind
  have starts := RunState.resumeStarts_overlay (sound.overlay.2 showing)
  rw [left, OverlayStack.removal, signal?, Overlay.kind_detach, sound.remove_eq, starts, resuming]
  by_cases last : (s.without [o.kind]).stack = [] ∧ s.run.startup = false ∧ s.run.host = false
  · rw [if_pos (by simpa using last), if_pos ⟨showing, last⟩]
    rfl
  · rw [if_neg (by simpa using last), if_neg fun all => last all.2]
    rfl

/-- Taking off what was just put on leaves what was there before. -/
theorem without_pushing (sound : s.Sound) (absent : s.shows o.kind = false) :
    (s.apply (OverlayStack.pushing s o)).without [o.kind] = s := by
  have pushed : (s.apply (OverlayStack.pushing s o)).Sound :=
    sound.pushed (OverlayStack.admits_pushing absent).takes
  have others : s.stack.filter (fun p => decide (p.kind ∉ [o.kind])) = s.stack := by
    refine List.filter_eq_self.2 fun p member => ?_
    have other := List.any_eq_false.1 absent p member
    simpa using other
  have stack : ((s.apply (OverlayStack.pushing s o)).without [o.kind]).stack = s.stack := by
    show (o.attach s.bounds :: s.stack).filter (fun p => decide (p.kind ∉ [o.kind])) = _
    rw [List.filter_cons_of_neg (by simp), others]
  exact (pushed.without _).eq_of_stack_eq sound stack (host_without _ _) rfl rfl

end Sound
end SessionState

/-! ## Taking off -/

namespace OverlayStack

open Act

variable {tell : Tell} {w : World} {s : SessionState} {o : Overlay} {kind : OverlayKind}

/-- What is taken off depends on what is picked, and on nothing else. -/
theorem run_remove_congr {pick pick' : SessionState → Act (Option Overlay)}
    (same : pick w.front.session.state (w.withLock true) =
      pick' w.front.session.state (w.withLock true)) :
    remove tell pick w = remove tell pick' w := by
  -- the session is locked, and then what follows the picking is the same program
  have picked : ∃ rest : Option Overlay → Act (Option Overlay), ∀ pick,
      remove tell pick w = (pick w.front.session.state >>= rest) (w.withLock true) :=
    ⟨_, fun _ => rfl⟩
  obtain ⟨rest, picked⟩ := picked
  rw [picked, picked, run_bind, run_bind, same]

/-- Taking off the top overlay is taking it off by its kind. -/
theorem run_pop_eq (top : w.front.session.state.top?.map Overlay.kind = some kind) :
    pop tell w = popNamed tell kind w := by
  obtain ⟨o, shown, rfl⟩ := Option.map_eq_some_iff.1 top
  refine run_remove_congr ?_
  rw [shown, find?_of_top? shown]

/-- Closing an overlay on behalf of the user is taking it off, if the user may close it. -/
theorem run_dismiss_eq
    (closable : ∀ o, w.front.session.state.find? kind = some o → o.isDismissable = true) :
    dismiss tell kind w = popNamed tell kind w := by
  refine run_remove_congr ?_
  cases found : w.front.session.state.find? kind with
  | none => rfl
  | some o => exact congrFun (if_pos (closable o found)) _

/-- The user may close every overlay but the splash screen. -/
theorem isDismissable_of_find? (found : s.find? kind = some o) (other : kind ≠ .splashScreen) :
    o.isDismissable = true := by
  obtain rfl := kind_of_find? found
  obtain ⟨id, content, bounds⟩ := o
  cases content with
  | splash dismissable => exact absurd rfl other
  | mainMenu | settingsMenu | disksMenu | confirm => rfl

/-- What is shown is what is put on. -/
theorem run_present_eq (site : PanicSite) (absent : w.front.session.state.shows o.kind = false) :
    present tell o w = (do push tell site o; return true : Act Bool) w := by
  have showing : ¬ w.front.session.state.shows o.kind = true := Bool.eq_false_iff.1 absent
  have presented : present tell o w = (do
      pushLocked o
      release
      tell (.pause false)
      return true : Act Bool) (w.withLock true) := congrFun (if_neg showing) (w.withLock true)
  have pushed : push tell site o w = (do
      pushLocked o
      release
      tell (.pause false) : Act Unit) (w.withLock true) := congrFun (if_neg showing) (w.withLock true)
  rw [presented, run_bind (push tell site o), pushed, ← run_bind]
  simp only [bind_assoc]

/-- The overlay of a kind is taken off, if it is showing. -/
theorem yields_popNamed_of_sound (state : w.front.session.state = s) (sound : s.Sound)
    (listens : tell.Listens) (free : w.front.session.locked = false)
    (listening : w.engine.reactions = []) (kind : OverlayKind) :
    (popNamed tell kind).Yields w ((s.find? kind).map Overlay.detach) (s.without [kind])
      (s.resuming [kind]) := by
  subst state
  cases found : w.front.session.state.find? kind with
  | none =>
    have other : ∀ o ∈ w.front.session.state.stack, o.kind ∉ [kind] := by
      intro o member
      simpa using List.find?_eq_none.1 found o member
    rw [sound.without_of_forall other, sound.resuming_of_forall other]
    exact yields_popNamed_of_absent free listening found
  | some o =>
    have left : w.front.session.state.apply (removal o) = w.front.session.state.without [kind] := by
      rw [← kind_of_find? found]
      exact sound.remove_eq o.kind
    have taken := yields_popNamed listens free listening found
    rw [sound.signal_removal found, left] at taken
    exact taken

/-- Overlays of several kinds are taken off one after the other. -/
theorem yields_mapM_popNamed (state : w.front.session.state = s) (sound : s.Sound)
    (listens : tell.Listens) (free : w.front.session.locked = false)
    (listening : w.engine.reactions = []) {kinds : List OverlayKind} (nodup : kinds.Nodup) :
    (kinds.mapM (popNamed tell)).Yields w (kinds.map fun kind => (s.find? kind).map Overlay.detach)
      (s.without kinds) (s.resuming kinds) := by
  induction kinds generalizing w s with
  | nil =>
    have other : ∀ o ∈ s.stack, o.kind ∉ ([] : List OverlayKind) := fun _ _ => List.not_mem_nil
    rw [sound.without_of_forall other, sound.resuming_of_forall other, ← state]
    exact yields_pure [] listening
  | cons kind rest ih =>
    obtain ⟨absent, nodup'⟩ := List.nodup_cons.1 nodup
    -- the overlays of the other kinds are still there after the first is gone
    have found : rest.map (fun k => (s.find? k).map Overlay.detach) =
        rest.map fun k => ((s.without [kind]).find? k).map Overlay.detach := by
      refine List.map_congr_left fun k member => ?_
      have other : k ∉ [kind] := fun same => absent (List.mem_singleton.1 same ▸ member)
      rw [SessionState.find?_without other]
    rw [List.mapM_cons, ← List.singleton_append, sound.without_append, sound.resuming_append,
      List.map_append, found]
    have first := yields_popNamed_of_sound state sound listens free listening kind
    refine first.bind fun v before => ?_
    have later := ih before.state (sound.without [kind]) (before.free free) before.listening nodup'
    exact later.map ((s.find? kind).map Overlay.detach :: ·)

/-- An overlay of a kind that is not showing is put on and taken off again. -/
theorem yields_push_pop (site : PanicSite) (state : w.front.session.state = s) (sound : s.Sound)
    (listens : tell.Listens) (free : w.front.session.locked = false)
    (listening : w.engine.reactions = []) (absent : s.shows o.kind = false) :
    (do push tell site o; pop tell).Yields w (some o.detach) s
      (⟨.pause false, s.apply (pushing s o)⟩ :: (s.apply (pushing s o)).resuming [o.kind]) := by
  subst state
  refine (yields_push listens free listening absent).bind fun v pushed => ?_
  have sound' := sound.pushed (admits_pushing absent).takes
  have taken := yields_popNamed_of_sound pushed.state sound' listens (pushed.free free)
    pushed.listening o.kind
  have top : (w.front.session.state.apply (pushing w.front.session.state o)).top? =
      some (o.attach w.front.session.state.bounds) := rfl
  have found := find?_of_top? top
  rw [Overlay.kind_attach] at found
  rw [found, sound.without_pushing absent] at taken
  exact taken.of_run_eq (run_pop_eq (by rw [pushed.state, top]; rfl))

end OverlayStack

namespace Run

open OverlayStack

/-- From any session state that a run comes by, while the engine only listens: An overlay of a kind
that is not showing, once put on and taken off, leaves the session as it was and is given back
detached; showing it is putting it on. The top overlay is taken off just as by its kind, and so is one
that the user may close when it is closed. Whichever order overlays of several kinds are taken off
in, each is given back detached, the same overlays are left, and the engine hears at most once, that
it resumes. -/
theorem overlay_stack_laws (r : Run) {history : List Event} {s : SessionState}
    (reaches : r.Reaches history s) (w : World) (state : w.front.session.state = s)
    (free : w.front.session.locked = false) (listening : w.engine.reactions = []) (depth : Nat) :
    let tell := tellWithin depth
    (∀ (site : PanicSite) (o : Overlay), s.shows o.kind = false →
      (do push tell site o; pop tell).Yields w (some o.detach) s
        (⟨.pause false, s.apply (pushing s o)⟩ :: (s.apply (pushing s o)).resuming [o.kind]) ∧
      present tell o w = (do push tell site o; return true : Act Bool) w) ∧
    (∀ kind : OverlayKind, s.top?.map Overlay.kind = some kind →
      pop tell w = popNamed tell kind w) ∧
    (∀ kind : OverlayKind, (∀ o, s.find? kind = some o → o.isDismissable = true) →
      dismiss tell kind w = popNamed tell kind w) ∧
    ∀ kinds order : List OverlayKind, kinds.Nodup → order.Perm kinds →
      (order.mapM (popNamed tell)).Yields w
        (order.map fun kind => (s.find? kind).map Overlay.detach)
        (s.without kinds) (s.resuming kinds) := by
  subst state
  have sound : w.front.session.state.Sound := reaches.sound
  have listens := listens_tellWithin depth
  refine ⟨fun site o absent => ⟨?_, run_present_eq site absent⟩, fun kind => run_pop_eq,
    fun kind => run_dismiss_eq, fun kinds order nodup perm => ?_⟩
  · exact yields_push_pop site rfl sound listens free listening absent
  · have taken := yields_mapM_popNamed rfl sound listens free listening
      (perm.nodup_iff.2 nodup)
    rw [SessionState.without_congr fun _ => perm.mem_iff,
      SessionState.resuming_congr fun _ => perm.mem_iff] at taken
    exact taken

/-- The settings, as an overlay that is not showing in that run. -/
def settings : Overlay := ⟨9, .settingsMenu, none⟩

/-- With the main menu over the splash screen, the settings may be put on and taken off, and the two
overlays be taken off in either order, after which the engine hears that it resumes. -/
theorem overlay_stack_laws_menuOverSplash :
    (do push (tellWithin 0) .unknown settings; pop (tellWithin 0)).Yields (menuOverSplash []).final
        (some settings.detach) (menuOverSplash []).state
        [⟨.pause false, (menuOverSplash []).state.apply
          (pushing (menuOverSplash []).state settings)⟩] ∧
      pop (tellWithin 0) (menuOverSplash []).final =
        popNamed (tellWithin 0) .mainMenu (menuOverSplash []).final ∧
      dismiss (tellWithin 0) .splashScreen (menuOverSplash []).final =
        popNamed (tellWithin 0) .splashScreen (menuOverSplash []).final ∧
      ∃ left : SessionState, left.stack = [] ∧ left.run.isRunning = true ∧
        ([.mainMenu, .splashScreen].mapM (popNamed (tellWithin 0))).Yields (menuOverSplash []).final
          [some ⟨2, .mainMenu, none⟩, some ⟨1, .splash true, none⟩] left [⟨.resume false, left⟩] ∧
        ([.splashScreen, .mainMenu].mapM (popNamed (tellWithin 0))).Yields (menuOverSplash []).final
          [some ⟨1, .splash true, none⟩, some ⟨2, .mainMenu, none⟩] left [⟨.resume false, left⟩] := by
  have free : (menuOverSplash []).final.front.session.locked = false := by decide +kernel
  have listening : (menuOverSplash []).final.engine.reactions = [] := by decide +kernel
  have absent : (menuOverSplash []).state.shows settings.kind = false := by decide +kernel
  have silent : ((menuOverSplash []).state.apply
      (pushing (menuOverSplash []).state settings)).resuming [settings.kind] = [] := by
    decide +kernel
  have top : (menuOverSplash []).state.top?.map Overlay.kind = some .mainMenu := by decide +kernel
  have closable : ((menuOverSplash []).state.find? .splashScreen).map Overlay.isDismissable =
      some true := by decide +kernel
  have left : ((menuOverSplash []).state.without [.mainMenu, .splashScreen]).stack = [] ∧
      ((menuOverSplash []).state.without [.mainMenu, .splashScreen]).run.isRunning = true := by
    decide +kernel
  have resuming : (menuOverSplash []).state.resuming [.mainMenu, .splashScreen] =
      [⟨.resume false, (menuOverSplash []).state.without [.mainMenu, .splashScreen]⟩] := by
    decide +kernel
  have given : ([.mainMenu, .splashScreen].map fun kind =>
      ((menuOverSplash []).state.find? kind).map Overlay.detach) =
        [some ⟨2, .mainMenu, none⟩, some ⟨1, .splash true, none⟩] := by decide +kernel
  have given' : ([.splashScreen, .mainMenu].map fun kind =>
      ((menuOverSplash []).state.find? kind).map Overlay.detach) =
        [some ⟨1, .splash true, none⟩, some ⟨2, .mainMenu, none⟩] := by decide +kernel
  obtain ⟨pushed, popped, dismissed, removed⟩ :=
    (menuOverSplash []).overlay_stack_laws .final _ rfl free listening 0
  refine ⟨?_, popped _ top, dismissed _ fun o found => ?_, _, left.1, left.2, ?_, ?_⟩
  · have both := (pushed .unknown settings absent).1
    rw [silent] at both
    exact both
  · rw [found] at closable
    exact Option.some.inj closable
  · have taken := removed [.mainMenu, .splashScreen] _ (by decide) (.refl _)
    rw [resuming, given] at taken
    exact taken
  · have taken := removed [.mainMenu, .splashScreen] _ (by decide) (.swap _ _ _)
    rw [resuming, given'] at taken
    exact taken

end Run
end EmuFront
