import EmuFront.Proofs.Course
import Mathlib.Data.List.Nodup
import Mathlib.Data.List.Perm.Subperm

/-!
# Sound sessions

What is true of a session state between any two changes: the overlays showing differ in kind and are
attached, and the overlay and startup pauses are held as the stack and the graphics have it. Every
change that is taken keeps this.
-/

namespace EmuFront

namespace SessionState

variable {s : SessionState} {c : Change}

/-! ## Changes that are taken -/

/-- What a change is like that is committed in a session state: an overlay that is put on is of a
kind that is not showing and attached at the bounds of the session, and a surface is landscape. -/
def Takes (s : SessionState) : Change → Prop
  | .pushed o => s.shows o.kind = false ∧ o.bounds = some s.bounds
  | .graphicsReady size | .resized size => size.height ≤ size.width
  | _ => True

/-- What the stack admits may be committed. -/
theorem Admits.takes (admitted : s.Admits c) : s.Takes c := by
  cases c with
  | pushed o => exact admitted
  | removed | dismissableSet | hostPaused | hostResumed => exact True.intro
  | graphicsReady | resized => exact admitted.elim

/-- A surface that the host reports is made landscape first. -/
theorem takes_of_asked {op : Op} (asked : op.change? = some c) : s.Takes c := by
  cases op with
  | host op =>
    cases op with
    | graphicsReady width height | graphicsResized width height =>
      obtain rfl := Option.some.inj asked
      exact SurfaceSize.height_le_width_landscape width height
    | hostPaused | hostResumed =>
      obtain rfl := Option.some.inj asked
      exact True.intro
    | _ => cases asked
  | stack | crash | machine | outside => cases asked

/-- Changes in order, each of which is taken where those before it have led. -/
def TakesAll : SessionState → List Change → Prop
  | _, [] => True
  | s, c :: rest => s.Takes c ∧ (s.apply c).TakesAll rest

/-- Changes in a row are taken if the first are, and the others where those lead. -/
theorem takesAll_append {first rest : List Change} :
    s.TakesAll (first ++ rest) ↔ s.TakesAll first ∧ (s.after first).TakesAll rest := by
  induction first generalizing s with
  | nil => exact (iff_of_eq (true_and _)).symm
  | cons c first ih =>
    show s.Takes c ∧ (s.apply c).TakesAll (first ++ rest) ↔ _
    rw [ih, ← and_assoc]
    rfl

/-- What every change keeps is kept by changes in order, where `done` are those before. -/
theorem TakesAll.invariant {motive : List Change → SessionState → Prop} {changes : List Change}
    (taken : s.TakesAll changes) (done : List Change) (start : motive done s)
    (step : ∀ done s c, motive done s → s.Takes c → motive (done ++ [c]) (s.apply c)) :
    motive (done ++ changes) (s.after changes) := by
  induction changes generalizing s done with
  | nil =>
    rw [List.append_nil]
    exact start
  | cons c rest ih =>
    -- the first change has become one of those before
    have first : motive (done ++ [c]) (s.apply c) := step done s c start taken.1
    have next := ih taken.2 (done ++ [c]) first
    rw [List.append_assoc] at next
    exact next

/-! ## Soundness -/

/-- What is true of a session state between changes. -/
structure Sound (s : SessionState) : Prop where
  kinds : (s.stack.map Overlay.kind).Nodup
  attached : ∀ o ∈ s.stack, o.isAttached = true
  overlay : s.run.overlay = true ↔ s.stack ≠ []
  startup : s.run.startup = !s.graphicsReady

/-- An overlay of a kind is showing if the kind is among those of the stack. -/
theorem shows_eq_false_iff {kind : OverlayKind} :
    s.shows kind = false ↔ kind ∉ s.stack.map Overlay.kind := by
  simp [shows]

theorem sound_new : new.Sound where
  kinds := .nil
  attached := by simp [new]
  overlay := by simp [new, RunState.new]
  startup := rfl

namespace Sound

theorem pushed (sound : s.Sound) {o : Overlay} (taken : s.Takes (.pushed o)) :
    (s.apply (.pushed o)).Sound where
  kinds := List.nodup_cons.2 ⟨shows_eq_false_iff.1 taken.1, sound.kinds⟩
  attached := by
    have attached : o.isAttached = true := by
      rw [Overlay.isAttached, taken.2]
      rfl
    exact List.forall_mem_cons.2 ⟨attached, sound.attached⟩
  overlay := by simp [apply, RunState.pause, RunState.set]
  startup := sound.startup

/-- What is taken off keeps all others as they are. -/
theorem removed (sound : s.Sound) (o : Overlay) : (s.apply (.removed o)).Sound where
  kinds := sound.kinds.sublist (List.eraseP_sublist.map _)
  attached := fun shown member => sound.attached shown (List.mem_of_mem_eraseP member)
  overlay := by
    simp only [apply, remove]
    split
    · rename_i empty
      simp [RunState.resume, RunState.set, List.isEmpty_iff.1 empty]
    · rename_i left
      -- what is left was showing before
      rw [List.isEmpty_iff] at left
      have showing : s.stack ≠ [] := by
        intro empty
        rw [empty] at left
        exact left rfl
      exact iff_of_true (sound.overlay.2 showing) left
  startup := by
    simp only [apply, remove]
    split <;> exact sound.startup

/-- Overlays may be changed in ways that keep their kinds and leave them attached. -/
theorem of_map (sound : s.Sound) {f : Overlay → Overlay} {t : SessionState}
    (stack : t.stack = s.stack.map f) (run : t.run = s.run)
    (ready : t.graphicsReady = s.graphicsReady) (kind : ∀ o, (f o).kind = o.kind)
    (attached : ∀ o, o.isAttached = true → (f o).isAttached = true) : t.Sound where
  kinds := by
    have same : Overlay.kind ∘ f = Overlay.kind := funext kind
    rw [stack, List.map_map, same]
    exact sound.kinds
  attached := by
    rw [stack]
    exact List.forall_mem_map.2 fun o member => attached o (sound.attached o member)
  overlay := by
    rw [run, stack, ne_eq, List.map_eq_nil_iff]
    exact sound.overlay
  startup := by
    rw [run, ready]
    exact sound.startup

/-- Every change that is taken keeps a session state sound. -/
theorem apply (sound : s.Sound) (taken : s.Takes c) : (s.apply c).Sound := by
  cases c with
  | pushed o => exact sound.pushed taken
  | removed o => exact sound.removed o
  | dismissableSet value =>
    refine sound.of_map rfl rfl rfl (fun o => o.kind_setDismissable value) fun o => ?_
    unfold Overlay.setDismissable
    split <;> exact id
  | hostPaused => exact ⟨sound.kinds, sound.attached, sound.overlay, sound.startup⟩
  | hostResumed => exact ⟨sound.kinds, sound.attached, sound.overlay, sound.startup⟩
  | graphicsReady size => exact ⟨sound.kinds, sound.attached, sound.overlay, rfl⟩
  | resized size =>
    cases ready : s.graphicsReady with
    | true =>
      -- every overlay showing is attached anew
      refine sound.of_map (f := fun o => o.attach size) ?_ rfl rfl (fun _ => rfl) fun _ _ => rfl
      simp [SessionState.apply, ready]
    | false =>
      refine sound.of_map (f := id) ?_ rfl rfl (fun _ => rfl) fun _ => id
      simp [SessionState.apply, ready]

/-- So do changes in a row, by induction. -/
theorem after {changes : List Change} (sound : s.Sound) (taken : s.TakesAll changes) :
    (s.after changes).Sound :=
  taken.invariant (motive := fun _ s => s.Sound) [] sound fun _ _ _ => apply

/-- While an overlay is showing, the engine does not run. -/
theorem not_running (sound : s.Sound) (showing : s.stack ≠ []) : s.run.isRunning = false := by
  simp [RunState.isRunning, sound.overlay.2 showing]

/-- A session that runs shows no overlay. -/
theorem stack_eq_nil (sound : s.Sound) (running : s.run.isRunning = true) : s.stack = [] := by
  by_contra showing
  have held : s.run.isRunning = false := sound.not_running showing
  rw [held] at running
  cases running

/-- Overlays differ in kind, so that each is the one that is found by its kind. -/
theorem find?_of_mem (sound : s.Sound) {o : Overlay} (member : o ∈ s.stack) :
    s.find? o.kind = some o := by
  cases found : s.find? o.kind with
  | none => exact absurd (decide_eq_true rfl) (List.find?_eq_none.1 found o member)
  | some p =>
    have same : p.kind = o.kind := by simpa using List.find?_some found
    rw [List.inj_on_of_nodup_map sound.kinds (List.mem_of_find?_eq_some found) member same]

/-- There are only so many kinds of overlays. -/
theorem depth_le (sound : s.Sound) : s.depth ≤ 6 := by
  -- kinds that differ from each other are at most as many as there are
  have among := List.subperm_of_subset sound.kinds fun kind _ => OverlayKind.mem_all kind
  have bound := among.length_le
  rw [List.length_map] at bound
  exact bound

end Sound

/-! ## Going to the background -/

/-- Taking an overlay off lets go of no pause but that of overlays. -/
theorem host_removed (o : Overlay) : (s.apply (.removed o)).run.host = s.run.host := by
  simp only [apply, remove]
  split <;> rfl

/-- To take off the overlay on top is to take off the first. -/
theorem stack_removed_top {o : Overlay} {rest : List Overlay} (h : s.stack = o :: rest) :
    (s.apply (.removed o.detach)).stack = rest := by
  simp [apply, remove, h]

/-- What holds once the host's pause is taken, and as overlays are taken off, holds in the end. -/
theorem backgrounded_of_removed {p : SessionState → Prop} (paused : p (s.apply .hostPaused))
    (removed : ∀ t o, p t → p (t.apply (.removed o))) : p (s.after s.backgrounding) := by
  have each : ∀ (stack : List Overlay) (t : SessionState), p t →
      p (t.after (stack.map fun o => .removed o.detach)) := by
    intro stack
    induction stack with
    | nil =>
      intro t before
      exact before
    | cons o rest ih =>
      intro t before
      exact ih _ (removed t _ before)
  exact each s.stack _ paused

/-- The changes of going to the background are always taken. -/
theorem takesAll_backgrounding : s.TakesAll s.backgrounding := by
  have each : ∀ (stack : List Overlay) (t : SessionState),
      t.TakesAll (stack.map fun o => .removed o.detach) := by
    intro stack
    induction stack with
    | nil => exact fun _ => trivial
    | cons o rest ih => exact fun _ => ⟨trivial, ih _⟩
  exact ⟨trivial, each s.stack _⟩

theorem backgrounded_host : (s.after s.backgrounding).run.host = true :=
  backgrounded_of_removed (p := fun t => t.run.host = true) rfl fun _ o held =>
    (host_removed o).trans held

theorem backgrounded_graphicsReady : (s.after s.backgrounding).graphicsReady = s.graphicsReady :=
  backgrounded_of_removed (p := fun t => t.graphicsReady = s.graphicsReady) rfl fun _ _ => id

/-- Taking off every overlay from the top down leaves none. -/
theorem backgrounded_stack : (s.after s.backgrounding).stack = [] := by
  have each : ∀ (stack : List Overlay) (t : SessionState), t.stack = stack →
      (t.after (stack.map fun o => .removed o.detach)).stack = [] := by
    intro stack
    induction stack with
    | nil =>
      intro t empty
      exact empty
    | cons o rest ih =>
      intro t same
      have left : (t.apply (.removed o.detach)).stack = rest := stack_removed_top same
      exact ih _ left
  exact each s.stack _ rfl

end SessionState
end EmuFront
