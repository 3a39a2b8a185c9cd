import EmuFront.Front.Run

/-!
# Other numbers

A session may have gone the same way under other numbers of its overlays. What is decided by a session
depends on the kinds, contents and bounds of its overlays only, so that it is decided the same way.
-/

namespace EmuFront

variable (f : Nat → Nat)

/-- An overlay under another number. -/
def Overlay.renumber (o : Overlay) : Overlay := { o with id := f o.id }

namespace SessionState

/-- A session state with its overlays under other numbers. -/
def renumber (s : SessionState) : SessionState := { s with stack := s.stack.map (Overlay.renumber f) }

end SessionState

def Change.renumber : Change → Change
  | .pushed o => .pushed (o.renumber f)
  | .removed o => .removed (o.renumber f)
  | .dismissableSet value => .dismissableSet value
  | .hostPaused => .hostPaused
  | .hostResumed => .hostResumed
  | .graphicsReady size => .graphicsReady size
  | .resized size => .resized size

def Session.renumber (s : Session) : Session := { s with state := s.state.renumber f }

def Event.renumber : Event → Event
  | .began engine op state => .began engine op (state.renumber f)
  | .committed engine change => .committed engine (change.renumber f)
  | .refused engine o => .refused engine (o.renumber f)
  | .returned engine o => .returned engine (o.renumber f)
  | .told engine call seen => .told engine call (seen.renumber f)
  | e => e

def Answer.renumber : Answer → Answer
  | .overlay o => .overlay (o.map (Overlay.renumber f))
  | .overlays os => .overlays (os.map (Overlay.renumber f))
  | answer => answer

variable {f}

/-! ## Overlays and sessions -/

theorem Overlay.renumber_setDismissable (o : Overlay) (value : Bool) :
    (o.setDismissable value).renumber f = (o.renumber f).setDismissable value := by
  obtain ⟨id, content, bounds⟩ := o
  cases content <;> rfl

namespace SessionState

variable (s : SessionState) (kind : OverlayKind)

/-- A session whose overlays keep their numbers stays as it is. -/
theorem renumber_of_forall {s : SessionState} (kept : ∀ o ∈ s.stack, f o.id = o.id) :
    s.renumber f = s := by
  have same : s.stack.map (Overlay.renumber f) = s.stack.map id :=
    List.map_congr_left fun o member => congrArg (Overlay.mk · o.content o.bounds) (kept o member)
  rw [renumber, same, List.map_id]

@[simp] theorem depth_renumber : (s.renumber f).depth = s.depth := List.length_map _

@[simp] theorem top?_renumber : (s.renumber f).top? = s.top?.map (Overlay.renumber f) :=
  List.head?_map

@[simp] theorem shows_renumber : (s.renumber f).shows kind = s.shows kind := List.any_map

@[simp] theorem find?_renumber :
    (s.renumber f).find? kind = (s.find? kind).map (Overlay.renumber f) := List.find?_map ..

theorem remove_renumber : (s.renumber f).remove kind = (s.remove kind).renumber f := by
  have stack : (s.stack.map (Overlay.renumber f)).eraseP (fun o => decide (o.kind = kind)) =
      (s.stack.eraseP fun o => decide (o.kind = kind)).map (Overlay.renumber f) := List.eraseP_map ..
  unfold remove renumber
  dsimp only
  rw [stack, List.isEmpty_map]

/-- Changes go on under the other numbers as under the first ones. -/
theorem apply_renumber (c : Change) : (s.renumber f).apply (c.renumber f) = (s.apply c).renumber f := by
  cases c with
  | pushed | hostPaused | hostResumed | graphicsReady => rfl
  | removed o => exact s.remove_renumber o.kind
  | dismissableSet value =>
    show SessionState.mk ((s.stack.map _).map _) _ _ _ = SessionState.mk ((s.stack.map _).map _) _ _ _
    rw [List.map_map, List.map_map]
    congr 1
    exact List.map_congr_left fun o _ => (o.renumber_setDismissable value).symm
  | resized size =>
    show SessionState.mk (if s.graphicsReady then _ else _) _ _ _ =
      SessionState.mk ((if s.graphicsReady then _ else _ : List Overlay).map _) _ _ _
    cases s.graphicsReady with
    | false => rfl
    | true =>
      rw [if_pos rfl, if_pos rfl, renumber, List.map_map, List.map_map]
      rfl

end SessionState

/-! ## The same numbers -/

@[simp] theorem SessionState.renumber_id (s : SessionState) : s.renumber id = s :=
  renumber_of_forall fun _ _ => rfl

@[simp] theorem Change.renumber_id (c : Change) : c.renumber id = c := by
  cases c <;> rfl

@[simp] theorem Event.renumber_id (e : Event) : e.renumber id = e := by
  cases e <;> simp [renumber, Session.renumber, Overlay.renumber]

@[simp] theorem Answer.renumber_id (answer : Answer) : answer.renumber id = answer := by
  have same : Overlay.renumber id = id := rfl
  cases answer <;> simp [renumber, same]

/-! ## What is shown -/

/-- What an event shows of an engine, a session and a machine: all but log lines, and of what an engine
sees all but whether its lock is poisoned. -/
def Event.shown? : Event → Option Event
  | .logged .. => none
  | .told engine call seen => some (.told engine call { seen with poisoned := false })
  | e => some e

/-- What is shown in a history. -/
def shownIn (history : List Event) : List Event := history.filterMap Event.shown?

theorem shownIn_append (first rest : List Event) :
    shownIn (first ++ rest) = shownIn first ++ shownIn rest := List.filterMap_append ..

/-- What is looked for among events that show the same is found in the same place. -/
theorem findSome?_of_shownIn {α : Type} {g : Event → Option α} {events events' : List Event}
    (shown : shownIn events' = (shownIn events).map (Event.renumber f))
    (apparent : ∀ e : Event, e.shown?.bind g = g e) (numberless : ∀ e : Event, g (e.renumber f) = g e) :
    events'.findSome? g = events.findSome? g := by
  have seen : ∀ events : List Event, (shownIn events).findSome? g = events.findSome? g := by
    intro events
    induction events with
    | nil => rfl
    | cons e rest ih =>
      rw [List.findSome?_cons, ← apparent e, ← ih]
      cases shown : e.shown? with
      | none => rw [shownIn, List.filterMap_cons_none shown, Option.bind_none, shownIn]
      | some e' =>
        rw [shownIn, List.filterMap_cons_some shown, List.findSome?_cons, Option.bind_some, shownIn]
  rw [← seen, shown, List.findSome?_map, ← seen]
  exact congrArg (List.findSome? · (shownIn events)) (funext numberless)

end EmuFront
