import EmuFront.Proofs.OverlayPassage

/-!
# Overlays over a run

Over any run, each overlay that was put on is at each moment on the stack once or taken off once, and
what an operation takes off it gives back. A drain during which the engine begins no operation gives
the stack from the top down.
-/

namespace EmuFront

open Act List

/-! ## Emptying the stack -/

/-- Whether an event begins an operation. -/
def Event.isBegin : Event → Bool
  | .began .. => true
  | _ => false

/-- How many operations have been begun in a world. -/
def World.begun (w : World) : Nat := w.machine.timeline.countP Event.isBegin

theorem World.begun_le {w v : World} {added : List Event}
    (timeline : v.machine.timeline = w.machine.timeline ++ added) : w.begun ≤ v.begun := by
  rw [begun, begun, timeline, countP_append]
  exact Nat.le_add_right _ _

theorem World.Plain.begun_le {w v : World} (plain : w.Plain v) : w.begun ≤ v.begun := by
  obtain ⟨added, timeline, -⟩ := plain.machine.events
  exact World.begun_le timeline

theorem Passage.begun_le {allows : Op → Prop} {broken : Bool} {w v : World}
    (passage : Passage allows broken w v) : w.begun ≤ v.begun := by
  obtain ⟨added, custody⟩ := passage.custody
  exact World.begun_le custody.recorded.timeline

namespace OverlayStack

variable {tell : Tell}

end OverlayStack

/-- The overlays that an answer gives. -/
def Answer.given : Answer → List Overlay
  | .overlay o => o.toList
  | .overlays os => os
  | _ => []

/-- What is true of the overlays of a front end after a history of it, which has led to a session
state. -/
structure OverlayAccount (history : List Event) (s : SessionState) : Prop where
  /-- Every overlay that was put on has a number of its own. -/
  accepted_once : ((acceptedOf history).map Overlay.id).Nodup
  /-- It is on the stack, or it was taken off. -/
  whereabouts : (acceptedOf history).map Overlay.id ~
    s.stack.map Overlay.id ++ (takenOf history).map Overlay.id
  /-- Only what was taken off was given back, and only once. -/
  returned_once : returnedOf history <+~ takenOf history
  /-- What was refused was never put on. -/
  refused_never : ∀ o ∈ refusedOf history, o.id ∉ (acceptedOf history).map Overlay.id
  /-- From the bottom up, the stack lists its overlays as they were put on. -/
  order : (s.stack.map Overlay.id).reverse <+ (acceptedOf history).map Overlay.id
  showing : ∀ o ∈ s.stack, o.StemsFrom (changesOf history)
  /-- What was taken off is detached, and otherwise as it was on the stack. -/
  takenOff : ∀ o ∈ takenOf history, o.isAttached = false ∧
    ∃ before after, changesOf history = before ++ .removed o :: after ∧ o.StemsFrom before

/-- What is told of sessions tells of all changes. -/
theorem changesOf_filter (history : List Event) :
    changesOf (history.filter Event.ofSession) = changesOf history := by
  refine (filterMap_filter ..).trans (filterMap_congr fun e _ => ?_)
  cases e <;> rfl

namespace Run

/-- All that happened in the run. -/
def timeline (r : Run) : List Event := r.final.machine.timeline

theorem custody (r : Run) : Custody true r.start r.final r.timeline := by
  have ready : r.start.Allows fun _ => True := fun _ _ _ _ => trivial
  have ran : ∃ added, Custody true r.start r.final added :=
    Op.runAll_passes (motive := fun w v => ∃ added, Custody true w v added)
      (fun w => by
        obtain ⟨added, still⟩ := Custody.of_plain (.refl w)
        exact ⟨added, still.weaken⟩)
      (fun first rest => by
        obtain ⟨added, first⟩ := first
        obtain ⟨added', rest⟩ := rest
        exact ⟨added ++ added', first.trans rest⟩)
      (fun passage => by
        obtain ⟨added, custody⟩ := passage.custody
        exact ⟨added, custody.weaken⟩)
      (fun _ _ => trivial) ready
  obtain ⟨added, custody⟩ := ran
  -- the run starts with nothing behind it
  have all : r.timeline = added := custody.recorded.timeline
  rw [all]
  exact custody

theorem account (r : Run) (k : Nat) :
    OverlayAccount (r.timeline.take k) (.after .new (changesOf (r.timeline.take k))) := by
  have custody := r.custody
  have split : r.timeline = r.timeline.take k ++ r.timeline.drop k := (take_append_drop k _).symm
  have admitted : SessionState.new.AdmitsAll (changesOf (r.timeline.take k)) := by
    have whole := custody.recorded.admitted
    rw [split, changesOf_append, SessionState.admitsAll_append] at whole
    exact whole.1
  have numbers : (numbersOf (r.timeline.take k)).Nodup := by
    have whole := custody.recorded.ascending
    rw [split, numbersOf_append] at whole
    exact (pairwise_append.1 whole).1.imp Nat.ne_of_lt
  -- no number is given twice, be it to an overlay put on or to one refused
  obtain ⟨once, -, apart⟩ := nodup_append.1 ((numbersOf_perm _).nodup_iff.1 numbers)
  have holds := admitted.holds
  exact ⟨once, holds.whereabouts, custody.backed k,
    fun o refused accepted => apart _ accepted _ (mem_map_of_mem refused) rfl, holds.order,
    holds.showing, fun o => admitted.takenOff⟩

/-- The overlays that are showing came by their numbers before. -/
theorem id_lt_nextSurface (r : Run) {o : Overlay} (shown : o ∈ r.state.stack) :
    o.id < r.final.machine.nextSurface := by
  have recorded := r.custody.recorded
  have account := r.account r.timeline.length
  rw [take_length, ← show r.state = .after .new (changesOf r.timeline) from recorded.state] at account
  have accepted : o.id ∈ (acceptedOf r.timeline).map Overlay.id :=
    account.order.subset (mem_reverse.2 (mem_map_of_mem shown))
  have number : o.id ∈ numbersOf r.timeline :=
    (numbersOf_perm _).mem_iff.2 (mem_append_left _ accepted)
  exact (recorded.fresh _ number).2

end Run
end EmuFront
