import EmuFront.Proofs.Passage
import EmuFront.Proofs.Sound

/-!
# The overlays of a session

Where the overlays are that a session was given, read off its changes. An overlay that was put on is
on the stack or was taken off, the stack lists its overlays as they were put on, and an overlay keeps
its number and its contents all the while. Only whether a splash screen may be closed is set anew.
-/

namespace EmuFront

open List

/-! ## Contents -/

/-- What an overlay on the stack shows after a change. -/
def OverlayContent.apply : OverlayContent → Change → OverlayContent
  | splash _, .dismissableSet value => splash value
  | content, _ => content

/-- What an overlay on the stack shows after a list of changes. -/
def OverlayContent.after (content : OverlayContent) (changes : List Change) : OverlayContent :=
  changes.foldl apply content

theorem OverlayContent.kind_apply (content : OverlayContent) (c : Change) :
    (content.apply c).kind = content.kind := by
  cases content <;> cases c <;> rfl

namespace Overlay

theorem id_setDismissable (o : Overlay) (value : Bool) : (o.setDismissable value).id = o.id := by
  unfold setDismissable
  split <;> rfl

theorem content_setDismissable (o : Overlay) (value : Bool) :
    (o.setDismissable value).content = o.content.apply (.dismissableSet value) := by
  unfold setDismissable
  cases same : o.content <;> first | rfl | exact same

/-- Among changes, an overlay is one that was put on: it has its number, and shows what that shows
after the changes since. -/
def StemsFrom (o : Overlay) (changes : List Change) : Prop :=
  ∃ before p after, changes = before ++ .pushed p :: after ∧ o.id = p.id ∧ o.kind = p.kind ∧
    o.content = p.content.after after

variable {o o' : Overlay} {changes : List Change}

theorem stemsFrom_pushed (changes : List Change) (o : Overlay) :
    o.StemsFrom (changes ++ [.pushed o]) := ⟨changes, o, [], rfl, rfl, rfl, rfl⟩

/-- A change leaves an overlay what it is. -/
theorem StemsFrom.step (h : o.StemsFrom changes) {c : Change} (id : o'.id = o.id)
    (content : o'.content = o.content.apply c) : o'.StemsFrom (changes ++ [c]) := by
  obtain ⟨before, p, after, rfl, sameId, sameKind, same⟩ := h
  refine ⟨before, p, after ++ [c], by simp, id.trans sameId, ?_, ?_⟩
  · rw [← sameKind]
    exact (congrArg OverlayContent.kind content).trans (OverlayContent.kind_apply _ _)
  · simp [content, same, OverlayContent.after]

end Overlay

/-! ## Changes that are admitted -/

/-- The overlay that a change puts on. -/
def Change.putOn? : Change → Option Overlay
  | pushed o => some o
  | _ => none

/-- The overlay that a change takes off. -/
def Change.takenOff? : Change → Option Overlay
  | removed o => some o
  | _ => none

namespace SessionState

variable {s : SessionState}

/-- Changes in order, of which those that put overlays on or take them off are admitted where those
before them have led. -/
def AdmitsAll : SessionState → List Change → Prop
  | _, [] => True
  | s, c :: rest => (c.ofStack = true → s.Admits c) ∧ (s.apply c).AdmitsAll rest

theorem admitsAll_append {first rest : List Change} :
    s.AdmitsAll (first ++ rest) ↔ s.AdmitsAll first ∧ (s.after first).AdmitsAll rest := by
  induction first generalizing s with
  | nil => exact (iff_of_eq (true_and _)).symm
  | cons c first ih =>
    show (_ ∧ (s.apply c).AdmitsAll (first ++ rest)) ↔ _
    rw [ih, ← and_assoc]
    rfl

/-- What every change keeps is kept by changes in order, where `done` are those before. -/
theorem AdmitsAll.invariant {motive : List Change → SessionState → Prop} {changes : List Change}
    (admitted : s.AdmitsAll changes) (done : List Change) (start : motive done s)
    (step : ∀ done s c, motive done s → (c.ofStack = true → s.Admits c) →
      motive (done ++ [c]) (s.apply c)) :
    motive (done ++ changes) (s.after changes) := by
  induction changes generalizing s done with
  | nil =>
    rw [List.append_nil]
    exact start
  | cons c rest ih =>
    -- the first change has become one of those before
    have next := ih admitted.2 (done ++ [c]) (step done s c start admitted.1)
    rw [List.append_assoc] at next
    exact next

/-! ## Where overlays are -/

/-- What is true of the overlays of a session after changes. -/
structure Holds (changes : List Change) (s : SessionState) : Prop where
  /-- An overlay that was put on is on the stack or was taken off. -/
  whereabouts : (changes.filterMap Change.putOn?).map Overlay.id ~
    s.stack.map Overlay.id ++ (changes.filterMap Change.takenOff?).map Overlay.id
  /-- From the bottom up, the stack lists its overlays as they were put on. -/
  order : (s.stack.map Overlay.id).reverse <+ (changes.filterMap Change.putOn?).map Overlay.id
  showing : ∀ o ∈ s.stack, o.StemsFrom changes

theorem holds_new : new.Holds [] := ⟨.refl _, .slnil, by simp [new]⟩

namespace Holds

variable {changes : List Change} {c : Change}

theorem pushed (h : s.Holds changes) (o : Overlay) :
    (s.apply (.pushed o)).Holds (changes ++ [.pushed o]) where
  whereabouts := by
    have put : (changes.filterMap Change.putOn?).map Overlay.id ++ [o.id] ~
        o.id :: ((changes.filterMap Change.putOn?).map Overlay.id) := perm_append_singleton _ _
    simpa [apply, filterMap_cons, Change.putOn?, Change.takenOff?] using
      put.trans (h.whereabouts.cons o.id)
  order := by
    have put := h.order.append (Sublist.refl [o.id])
    simpa [apply, Change.putOn?] using put
  showing := by
    refine forall_mem_cons.2 ⟨o.stemsFrom_pushed changes, fun shown member => ?_⟩
    refine (h.showing shown member).step rfl ?_
    cases shown.content <;> rfl

/-- What is found is what is erased. -/
private theorem perm_cons_eraseP {α : Type} {p : α → Bool} {xs : List α} {x : α}
    (found : xs.find? p = some x) : xs ~ x :: xs.eraseP p := by
  induction xs with
  | nil => cases found
  | cons y rest ih =>
    cases first : p y with
    | true =>
      rw [List.find?_cons_of_pos first] at found
      obtain rfl := Option.some.inj found
      rw [List.eraseP_cons_of_pos first]
    | false =>
      rw [List.find?_cons_of_neg (by simp [first])] at found
      rw [List.eraseP_cons_of_neg (by simp [first])]
      exact ((ih found).cons y).trans (.swap x y _)

theorem removed (h : s.Holds changes) {shown : Overlay} (found : s.find? shown.kind = some shown) :
    (s.apply (.removed shown.detach)).Holds (changes ++ [.removed shown.detach]) where
  whereabouts := by
    have left : s.stack.map Overlay.id ~
        shown.id :: (s.apply (.removed shown.detach)).stack.map Overlay.id :=
      (perm_cons_eraseP found).map Overlay.id
    -- the number goes from the stack to those taken off
    have moved := h.whereabouts.trans ((left.append_right _).trans perm_middle.symm)
    have last : ∀ xs : List Nat, shown.id :: xs ~ xs ++ [shown.id] := fun xs =>
      (perm_append_singleton shown.id xs).symm
    have whole := moved.trans ((last _).append_left _)
    simpa [filterMap_cons, Change.putOn?, Change.takenOff?, Overlay.detach] using whole
  order := by
    have left : (s.apply (.removed shown.detach)).stack <+ s.stack := eraseP_sublist
    have listed := ((left.map Overlay.id).reverse).trans h.order
    simpa [filterMap_cons, Change.putOn?] using listed
  showing := by
    intro o member
    refine (h.showing o (mem_of_mem_eraseP member)).step rfl ?_
    cases o.content <;> rfl

/-- Any other change leaves every overlay where it is. -/
theorem of_map (h : s.Holds changes) {t : SessionState} {f : Overlay → Overlay}
    (stack : t.stack = s.stack.map f) (id : ∀ o, (f o).id = o.id)
    (content : ∀ o, (f o).content = o.content.apply c) (apart : c.ofStack = false) :
    t.Holds (changes ++ [c]) := by
  have same : t.stack.map Overlay.id = s.stack.map Overlay.id := by
    rw [stack, map_map]
    exact map_congr_left fun o _ => id o
  have still : c.putOn? = none ∧ c.takenOff? = none := by
    cases c <;> first | exact ⟨rfl, rfl⟩ | cases apart
  refine ⟨?_, ?_, ?_⟩
  · simpa [same, filterMap_append, still.1, still.2] using h.whereabouts
  · simpa [same, filterMap_append, still.1] using h.order
  · rw [stack]
    exact forall_mem_map.2 fun o member => (h.showing o member).step (id o) (content o)

theorem apply (h : s.Holds changes) (admitted : c.ofStack = true → s.Admits c) :
    (s.apply c).Holds (changes ++ [c]) := by
  have plain : ∀ (o : Overlay) (c : Change), (∀ value, c ≠ .dismissableSet value) →
      o.content = o.content.apply c := by
    intro o c other
    cases c with
    | dismissableSet value => exact absurd rfl (other value)
    | _ => cases o.content <;> rfl
  cases c with
  | pushed o => exact h.pushed o
  | removed o =>
    obtain ⟨shown, found, rfl⟩ := admitted rfl
    have kind : shown.kind = shown.detach.kind := rfl
    rw [← kind] at found
    exact h.removed found
  | dismissableSet value =>
    exact h.of_map rfl (fun o => o.id_setDismissable value) (fun o => o.content_setDismissable value)
      rfl
  | hostPaused | hostResumed | graphicsReady size =>
    exact h.of_map (f := id) (map_id _).symm (fun _ => rfl) (fun o => plain o _ (by simp)) rfl
  | resized size =>
    cases ready : s.graphicsReady with
    | true =>
      have stack : (s.apply (.resized size)).stack = s.stack.map fun o => o.attach size := by
        simp [SessionState.apply, ready]
      exact h.of_map stack (fun _ => rfl) (fun o => plain o _ (by simp)) rfl
    | false =>
      have stack : (s.apply (.resized size)).stack = s.stack.map id := by
        simp [SessionState.apply, ready]
      exact h.of_map stack (fun _ => rfl) (fun o => plain o _ (by simp)) rfl

end Holds

/-- A session whose changes of the stack were all admitted holds all overlays that were put on and
not taken off. -/
theorem AdmitsAll.holds {changes : List Change} (admitted : new.AdmitsAll changes) :
    (new.after changes).Holds changes :=
  admitted.invariant (motive := fun done s => s.Holds done) [] holds_new fun _ _ _ h => h.apply

/-- An overlay that was taken off is detached, and is one that was put on before. -/
theorem AdmitsAll.takenOff {changes : List Change} (admitted : new.AdmitsAll changes) {o : Overlay}
    (taken : o ∈ changes.filterMap Change.takenOff?) :
    o.isAttached = false ∧
      ∃ before after, changes = before ++ .removed o :: after ∧ o.StemsFrom before := by
  obtain ⟨c, member, same⟩ := mem_filterMap.1 taken
  have removal : c = .removed o := by
    cases c <;> simp_all [Change.takenOff?]
  subst removal
  obtain ⟨before, after, rfl⟩ := append_of_mem member
  obtain ⟨earlier, now, -⟩ := admitsAll_append.1 admitted
  obtain ⟨shown, found, rfl⟩ := now rfl
  -- as it was on the stack, it is one of those that were put on
  have stems := earlier.holds.showing shown (mem_of_find?_eq_some found)
  exact ⟨rfl, before, after, rfl, stems⟩

end SessionState
end EmuFront
