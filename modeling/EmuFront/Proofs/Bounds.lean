import EmuFront.Proofs.SessionInvariants

/-!
# Bounds of the overlays showing

An overlay is attached at the size of the surface as it is put on, and a resize attaches it anew once
graphics are ready. A start of graphics gives the surface a size and leaves the overlays where they
are. So an overlay that was put on before has the size of the surface only if that size was the same
already.
-/

namespace EmuFront

/-- The size that a change gives the surface. -/
def Change.size? : Change → Option SurfaceSize
  | .graphicsReady size | .resized size => some size
  | _ => none

/-- The size of the surface after changes, given from the latest to the first. -/
def surfaceAfter (latest : List Change) : Option SurfaceSize := latest.findSome? Change.size?

/-- The size at which the overlay of a kind was last attached, by changes given from the latest to the
first: that of the surface as the overlay was put on, or that of a resize once graphics were ready. -/
def attachedAt (kind : OverlayKind) : List Change → SurfaceSize
  | [] => .zero
  | .pushed o :: earlier =>
    if o.kind = kind then (surfaceAfter earlier).getD .zero else attachedAt kind earlier
  | .resized size :: earlier =>
    if earlier.any Change.startsGraphics then size else attachedAt kind earlier
  | _ :: earlier => attachedAt kind earlier

/-- Once graphics were started, the surface has a size. -/
theorem isSome_surfaceAfter {latest : List Change}
    (started : latest.any Change.startsGraphics = true) : (surfaceAfter latest).isSome = true := by
  obtain ⟨c, member, starts⟩ := List.any_eq_true.1 started
  refine List.findSome?_isSome_iff.2 ⟨c, member, ?_⟩
  cases c with
  | graphicsReady size => rfl
  | _ => cases starts

/-- A session state whose surface and overlays are as changes, given from the latest to the first,
have left them. -/
structure SessionState.Laid (latest : List Change) (s : SessionState) : Prop where
  surface : s.surface = surfaceAfter latest
  ready : s.graphicsReady = latest.any Change.startsGraphics
  landscape : ∀ size ∈ s.surface, size.height ≤ size.width
  bounds : ∀ o ∈ s.stack, o.bounds = some (attachedAt o.kind latest)

namespace SessionState

variable {s : SessionState} {latest : List Change} {c : Change}

theorem surface_apply (s : SessionState) (c : Change) :
    (s.apply c).surface = c.size?.or s.surface := by
  cases c <;> rfl

theorem Takes.landscape (taken : s.Takes c) {size : SurfaceSize} (sized : c.size? = some size) :
    size.height ≤ size.width := by
  cases c with
  | graphicsReady _ | resized _ =>
    obtain rfl := Option.some.inj sized
    exact taken
  | pushed | removed | dismissableSet | hostPaused | hostResumed => cases sized

theorem laid_new : new.Laid [] where
  surface := rfl
  ready := rfl
  landscape := nofun
  bounds := by simp [new]

/-- A change attaches the overlays that it is to attach, and no others. -/
theorem Laid.bounds_apply (laid : s.Laid latest) (taken : s.Takes c) :
    ∀ o ∈ (s.apply c).stack, o.bounds = some (attachedAt o.kind (c :: latest)) := by
  cases c with
  | pushed o =>
    refine List.forall_mem_cons.2 ⟨?_, fun shown member => ?_⟩
    · rw [taken.2, attachedAt, if_pos rfl, SessionState.bounds, laid.surface]
    · -- those showing before are of other kinds and stay as they were
      have other : o.kind ≠ shown.kind := by
        intro same
        have absent := shows_eq_false_iff.1 taken.1
        rw [same] at absent
        exact absent (List.mem_map_of_mem member)
      rw [attachedAt, if_neg other]
      exact laid.bounds shown member
  | removed o => exact fun shown member => laid.bounds shown (List.mem_of_mem_eraseP member)
  | dismissableSet value =>
    refine List.forall_mem_map.2 fun o member => ?_
    rw [Overlay.kind_setDismissable, Overlay.bounds_setDismissable]
    exact laid.bounds o member
  | hostPaused | hostResumed | graphicsReady => exact laid.bounds
  | resized size =>
    -- by the session and by the changes alike, graphics are ready or they are not
    have started := laid.ready
    cases ready : s.graphicsReady with
    | true =>
      rw [ready] at started
      simp [apply, ready, attachedAt, ← started, Overlay.attach]
    | false =>
      rw [ready] at started
      simpa [apply, ready, attachedAt, ← started] using laid.bounds

theorem Laid.step (laid : s.Laid latest) (taken : s.Takes c) : (s.apply c).Laid (c :: latest) where
  surface := by
    rw [surface_apply, laid.surface, surfaceAfter, surfaceAfter, List.findSome?_cons]
    cases c.size? <;> rfl
  ready := by
    rw [graphicsReady_apply, laid.ready, List.any_cons, Bool.or_comm]
  landscape := by
    intro size present
    rw [surface_apply] at present
    obtain sized | ⟨_, before⟩ := Option.or_eq_some_iff.1 present
    · exact taken.landscape sized
    · exact laid.landscape size before
  bounds := laid.bounds_apply taken

/-- Once graphics are ready, there is a surface. -/
theorem Laid.exists_surface (laid : s.Laid latest) (ready : s.graphicsReady = true) :
    ∃ size, s.surface = some size := by
  rw [laid.ready] at ready
  rw [laid.surface]
  exact Option.isSome_iff_exists.1 (isSome_surfaceAfter ready)

end SessionState

namespace Run

variable {r : Run} {history : List Event} {s : SessionState}

theorem Reaches.laid (h : r.Reaches history s) : s.Laid (changesOf history).reverse := by
  obtain ⟨taken, rfl⟩ := h.takesAll
  refine taken.invariant (motive := fun done s => s.Laid done.reverse) [] SessionState.laid_new ?_
  intro done s c laid taken
  rw [List.reverse_append]
  exact laid.step taken

/-- Once graphics are ready, the surface is landscape and every overlay showing is attached. Its
bounds are the size of the surface exactly if the overlay was last attached at that size. -/
theorem bounds_eq_surface_iff (r : Run) {history : List Event} {s : SessionState}
    (h : r.Reaches history s) (ready : s.graphicsReady = true) :
    ∃ size, s.surface = some size ∧ size.height ≤ size.width ∧
      ∀ o ∈ s.stack, o.isAttached = true ∧
        (o.bounds = s.surface ↔ attachedAt o.kind (changesOf history).reverse = size) := by
  have laid := h.laid
  obtain ⟨size, surface⟩ := laid.exists_surface ready
  refine ⟨size, surface, laid.landscape size surface, fun o member => ⟨?_, ?_⟩⟩
  · exact h.sound.attached o member
  · rw [laid.bounds o member, surface, Option.some.injEq]

/-- A main menu that is showing before graphics are ready. -/
def earlyMenu : Run where
  machine := default
  config := .new ⟨"data"⟩
  reactions := []
  ops := [.host .showMainMenu, .host (.graphicsReady 800 480)]

theorem bounds_eq_surface_iff_earlyMenu :
    ∃ size, earlyMenu.state.surface = some size ∧ size.height ≤ size.width ∧
      ∀ o ∈ earlyMenu.state.stack, o.isAttached = true ∧
        (o.bounds = earlyMenu.state.surface ↔
          attachedAt o.kind (changesOf earlyMenu.trace).reverse = size) :=
  earlyMenu.bounds_eq_surface_iff .final (by decide +kernel)

/-- The main menu stays without extent on the surface that came after it. -/
theorem exists_bounds_ne_surface :
    earlyMenu.state.graphicsReady = true ∧
      ∃ o ∈ earlyMenu.state.stack, o.bounds = some .zero ∧
        earlyMenu.state.surface = some ⟨800, 480⟩ := by
  decide +kernel

end Run
end EmuFront
