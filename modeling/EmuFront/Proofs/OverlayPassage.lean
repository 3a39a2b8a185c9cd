import EmuFront.Proofs.Custody
import EmuFront.Proofs.HostPassage
import EmuFront.Proofs.Reached

/-!
# Overlays in a passage

What becomes of overlays, read off a history of events. Every passage numbers overlays upwards, puts
on those that it does not refuse, and takes off only what is showing. An overlay that is taken off is
given back in the same passage, unless a panic inside the signal of that takes it along.
-/

namespace EmuFront

open Act List

/-! ## What a history tells of overlays -/

/-- The overlays that were put on in a history. -/
def acceptedOf (history : List Event) : List Overlay := (changesOf history).filterMap Change.putOn?

/-- The overlays that were taken off in a history. -/
def takenOf (history : List Event) : List Overlay := (changesOf history).filterMap Change.takenOff?

/-- The overlay that an event gives back. -/
def Event.returned? : Event → Option Overlay
  | .returned _ o => some o
  | _ => none

/-- The overlays that were given back in a history. -/
def returnedOf (history : List Event) : List Overlay := history.filterMap Event.returned?

/-- The overlay that an event keeps off. -/
def Event.refused? : Event → Option Overlay
  | .refused _ o => some o
  | _ => none

/-- The overlays that were refused in a history. -/
def refusedOf (history : List Event) : List Overlay := history.filterMap Event.refused?

/-- The number of the overlay that an event puts on or keeps off. -/
def Event.number? : Event → Option Nat
  | .committed _ c => c.putOn?.map Overlay.id
  | .refused _ o => some o.id
  | _ => none

/-- The numbers of the overlays of a history, in the order in which they came. -/
def numbersOf (history : List Event) : List Nat := history.filterMap Event.number?

/-- Whether an event is about none of the overlays. -/
def Event.isApart : Event → Bool
  | .committed .. | .refused .. | .returned .. => false
  | _ => true

section Histories
variable {first rest history : List Event}

/-- What is taken off in a row of histories is what each takes off. -/
theorem takenOf_append : takenOf (first ++ rest) = takenOf first ++ takenOf rest := by
  rw [takenOf, changesOf_append, filterMap_append]
  rfl

theorem returnedOf_append : returnedOf (first ++ rest) = returnedOf first ++ returnedOf rest :=
  filterMap_append

theorem numbersOf_append : numbersOf (first ++ rest) = numbersOf first ++ numbersOf rest :=
  filterMap_append

/-- Every number of a history is that of an overlay that was put on or of one that was refused. -/
theorem numbersOf_perm (history : List Event) :
    numbersOf history ~ (acceptedOf history).map Overlay.id ++ (refusedOf history).map Overlay.id := by
  induction history with
  | nil => exact .refl _
  | cons e rest ih =>
    cases e with
    | committed e c =>
      cases c with
      | pushed o => exact ih.cons o.id
      | _ => exact ih
    | refused e o => exact (ih.cons o.id).trans perm_middle.symm
    | _ => exact ih

/-- Events that are about no overlay commit no change. -/
theorem changesOf_eq_nil (apart : ∀ e ∈ history, e.isApart = true) : changesOf history = [] := by
  refine filterMap_eq_nil_iff.2 fun e member => ?_
  have := apart e member
  cases e <;> simp_all [Event.isApart, Event.change?]

/-- Nor do they give any back. -/
theorem returnedOf_eq_nil (apart : ∀ e ∈ history, e.isApart = true) : returnedOf history = [] := by
  refine filterMap_eq_nil_iff.2 fun e member => ?_
  have := apart e member
  cases e <;> simp_all [Event.isApart, Event.returned?]

/-- Nor do they take a number. -/
theorem numbersOf_eq_nil (apart : ∀ e ∈ history, e.isApart = true) : numbersOf history = [] := by
  refine filterMap_eq_nil_iff.2 fun e member => ?_
  have := apart e member
  cases e <;> simp_all [Event.isApart, Event.number?]

theorem isApart_of_isPlain {e : Event} (plain : e.isPlain = true) : e.isApart = true := by
  cases e <;> simp_all [Event.isPlain, Event.isApart]

end Histories

/-! ## What a passage does to overlays -/

/-- An overlay was taken off in a history that starts in a session state, and the engine told to
resume. -/
def TakenWithSignal (s : SessionState) (history : List Event) (o : Overlay) : Prop :=
  ∃ e before after, history = before ++ .committed e (.removed o) :: after ∧
    (s.after (changesOf before)).signal? (.removed o) ≠ none

/-- What happens later does not undo that the engine was told. -/
theorem TakenWithSignal.append_right {s : SessionState} {history : List Event} {o : Overlay}
    (h : TakenWithSignal s history o) (rest : List Event) : TakenWithSignal s (history ++ rest) o := by
  obtain ⟨e, before, after, rfl, signal⟩ := h
  exact ⟨e, before, after ++ rest, by simp, signal⟩

/-- The changes before decide the state in which the overlay was taken off. -/
theorem TakenWithSignal.append_left {s : SessionState} {first history : List Event} {o : Overlay}
    (h : TakenWithSignal (s.after (changesOf first)) history o) :
    TakenWithSignal s (first ++ history) o := by
  obtain ⟨e, before, after, rfl, signal⟩ := h
  refine ⟨e, first ++ before, after, by simp, ?_⟩
  rw [changesOf_append]
  simpa [SessionState.after] using signal

/-- The events from one world to another tell how the session changed, and which numbers overlays
took. -/
structure Recorded (w v : World) (added : List Event) : Prop where
  timeline : v.machine.timeline = w.machine.timeline ++ added
  state : v.front.session.state = w.front.session.state.after (changesOf added)
  admitted : w.front.session.state.AdmitsAll (changesOf added)
  numbering : w.machine.nextSurface ≤ v.machine.nextSurface
  ascending : (numbersOf added).Pairwise (· < ·)
  fresh : ∀ n ∈ numbersOf added, w.machine.nextSurface ≤ n ∧ n < v.machine.nextSurface

namespace Recorded

variable {u w v : World} {added first rest : List Event}

/-- What changes no session and numbers nothing. -/
theorem of_silent (timeline : v.machine.timeline = w.machine.timeline ++ added)
    (state : v.front.session.state = w.front.session.state)
    (numbering : v.machine.nextSurface = w.machine.nextSurface) (changes : changesOf added = [])
    (numbers : numbersOf added = []) : Recorded w v added where
  timeline := timeline
  state := by rw [changes, state]; rfl
  admitted := by rw [changes]; trivial
  numbering := numbering.ge
  ascending := by simp [numbers]
  fresh := by simp [numbers]

theorem trans (before : Recorded u w first) (after : Recorded w v rest) :
    Recorded u v (first ++ rest) where
  timeline := by rw [after.timeline, before.timeline, append_assoc]
  state := by
    rw [after.state, before.state, changesOf_append]
    exact foldl_append.symm
  admitted := by
    rw [changesOf_append, SessionState.admitsAll_append, ← before.state]
    exact ⟨before.admitted, after.admitted⟩
  numbering := before.numbering.trans after.numbering
  ascending := by
    rw [numbersOf_append]
    refine pairwise_append.2 ⟨before.ascending, after.ascending, fun m early n late => ?_⟩
    exact (before.fresh m early).2.trans_le (after.fresh n late).1
  fresh := by
    rw [numbersOf_append]
    refine forall_mem_append.2 ⟨fun n member => ?_, fun n member => ?_⟩
    · exact ⟨(before.fresh n member).1, (before.fresh n member).2.trans_le after.numbering⟩
    · exact ⟨before.numbering.trans (after.fresh n member).1, (after.fresh n member).2⟩

/-- A change that puts nothing on. -/
theorem of_commit {c : Change} (admitted : c.ofStack = true → w.front.session.state.Admits c)
    (other : c.putOn? = none) : Recorded w (w.commit c) [.committed w.front.engine c] := by
  have numbers : numbersOf [.committed w.front.engine c] = [] := by
    simp [numbersOf, Event.number?, other]
  exact ⟨rfl, rfl, ⟨admitted, trivial⟩, le_rfl, by simp [numbers], by simp [numbers]⟩

/-- A number that has been taken is the last one. -/
private theorem fresh_singleton {o : Overlay} (id : o.id = w.machine.nextSurface) :
    ∀ n ∈ [o.id], w.machine.nextSurface ≤ n ∧ n < w.machine.nextSurface + 1 := by
  intro n member
  rw [mem_singleton.1 member, id]
  exact ⟨le_rfl, Nat.lt_succ_self _⟩

/-- An overlay that is put on takes the next number. -/
theorem of_put {o : Overlay} (id : o.id = w.machine.nextSurface)
    (admitted : w.front.session.state.Admits (.pushed o)) :
    Recorded w (w.numbered.commit (.pushed o)) [.committed w.front.engine (.pushed o)] :=
  ⟨rfl, rfl, ⟨fun _ => admitted, trivial⟩, Nat.le_succ _, pairwise_singleton _ _, fresh_singleton id⟩

/-- So does one that is refused. -/
theorem of_refuse {o : Overlay} (id : o.id = w.machine.nextSurface) :
    Recorded w (w.numbered.after (Work.observe (.refused w.front.engine o)))
      [.refused w.front.engine o] :=
  ⟨rfl, rfl, trivial, Nat.le_succ _, pairwise_singleton _ _, fresh_singleton id⟩

end Recorded

/-- What happens to overlays from one world to another, with the events of it. Only what ends in a
panic loses overlays. -/
structure Custody (broken : Bool) (w v : World) (added : List Event) : Prop where
  recorded : Recorded w v added
  /-- At each moment, what was given back is among what was taken off. -/
  backed : ∀ k, returnedOf (added.take k) <+~ takenOf (added.take k)
  lost : ∃ lost, takenOf added ~ returnedOf added ++ lost ∧ (broken = false → lost = []) ∧
    ∀ o ∈ lost, TakenWithSignal w.front.session.state added o

namespace Custody

variable {broken broken' : Bool} {u w v : World} {added first rest : List Event}

/-- What takes nothing off and gives nothing back. -/
theorem of_none (recorded : Recorded w v added) (taken : takenOf added = [])
    (returned : returnedOf added = []) : Custody false w v added := by
  refine ⟨recorded, fun k => ?_, [], ?_, fun _ => rfl, by simp⟩
  · have among : returnedOf (added.take k) <+ returnedOf added := (take_sublist k added).filterMap _
    rw [returned] at among
    rw [sublist_nil.1 among]
    exact nil_subperm
  · rw [taken, returned]
    exact .refl _

/-- Where nothing happens to overlays, none is lost. -/
theorem of_apart (timeline : v.machine.timeline = w.machine.timeline ++ added)
    (state : v.front.session.state = w.front.session.state)
    (numbering : v.machine.nextSurface = w.machine.nextSurface)
    (apart : ∀ e ∈ added, e.isApart = true) : Custody false w v added := by
  have changes := changesOf_eq_nil apart
  refine of_none (.of_silent timeline state numbering changes (numbersOf_eq_nil apart)) ?_
    (returnedOf_eq_nil apart)
  rw [takenOf, changes]
  rfl

theorem trans (before : Custody broken u w first) (after : Custody broken' w v rest) :
    Custody (broken || broken') u v (first ++ rest) where
  recorded := before.recorded.trans after.recorded
  backed := fun k => by
    rw [take_append, returnedOf_append, takenOf_append]
    exact (before.backed k).append (after.backed _)
  lost := by
    obtain ⟨xs, taken, none, signalled⟩ := before.lost
    obtain ⟨ys, taken', none', signalled'⟩ := after.lost
    refine ⟨xs ++ ys, ?_, fun whole => ?_,
      forall_mem_append.2 ⟨fun o member => ?_, fun o member => ?_⟩⟩
    · rw [takenOf_append, returnedOf_append]
      refine (taken.append taken').trans ?_
      simp only [append_assoc]
      exact (perm_append_comm_assoc xs _ ys).append_left _
    · obtain ⟨whole, whole'⟩ := Bool.or_eq_false_iff.1 whole
      rw [none whole, none' whole', append_nil]
    · exact (signalled o member).append_right rest
    · rw [before.recorded.state] at signalled'
      exact (signalled' o member).append_left

/-- What ends in a panic may lose overlays, but need not. -/
theorem weaken (h : Custody broken w v added) : Custody true w v added := by
  obtain ⟨xs, taken, -, signalled⟩ := h.lost
  exact ⟨h.recorded, h.backed, xs, taken, nofun, signalled⟩

/-! ### Taking off -/

variable {o : Overlay}

/-- An overlay that is showing may be taken off. -/
theorem of_removal (found : w.front.session.state.find? o.kind = some o) :
    Recorded w (w.commit (.removed o.detach)) [.committed w.front.engine (.removed o.detach)] :=
  .of_commit (fun _ => ⟨o, found, rfl⟩) rfl

/-- A matter of course keeps all overlays. -/
theorem of_plain (plain : w.Plain v) : ∃ added, Custody false w v added := by
  obtain ⟨added, timeline, events⟩ := plain.machine.events
  exact ⟨added, of_apart timeline plain.state plain.machine.numbering
    fun e member => isApart_of_isPlain (events e member)⟩

/-- What is taken off and given back in the end is not lost. -/
theorem remove (found : w.front.session.state.find? o.kind = some o)
    (within : Custody false (w.commit (.removed o.detach)) v added) :
    Custody false w (v.after (Work.observe (.returned v.front.engine o.detach)))
      (.committed w.front.engine (.removed o.detach) ::
        (added ++ [.returned v.front.engine o.detach])) := by
  obtain ⟨lost, taken, none, -⟩ := within.lost
  obtain rfl := none rfl
  rw [append_nil] at taken
  refine ⟨?_, fun k => ?_, [], ?_, fun _ => rfl, by simp⟩
  · exact (of_removal found).trans (within.recorded.trans (.of_silent rfl rfl rfl rfl rfl))
  · cases k with
    | zero => exact nil_subperm
    | succ k =>
      -- what is given back at last was taken off at first
      have last : returnedOf ([.returned v.front.engine o.detach].take (k - added.length)) <+~
          [o.detach] := ((take_sublist _ _).filterMap Event.returned?).subperm
      have before := (within.backed k).append last
      rw [← returnedOf_append, ← take_append] at before
      have moved := before.trans (perm_append_singleton o.detach _).subperm
      have kept : takenOf (added.take k) <+~
          takenOf ((added ++ [Event.returned v.front.engine o.detach]).take k) := by
        rw [take_append, takenOf_append]
        exact (sublist_append_left _ _).subperm
      exact moved.trans ((subperm_cons _).2 kept)
  · have whole := (taken.cons o.detach).trans (perm_append_singleton o.detach _).symm
    show o.detach :: takenOf (added ++ _) ~ returnedOf (added ++ _) ++ []
    rw [takenOf_append, returnedOf_append, append_nil]
    show o.detach :: (takenOf added ++ []) ~ _
    rw [append_nil]
    exact whole

/-- What is taken off with a signal that ends in a panic is lost. -/
theorem lose (found : w.front.session.state.find? o.kind = some o)
    (signalled : w.front.session.state.signal? (.removed o.detach) ≠ none)
    (within : Custody true (w.commit (.removed o.detach)) v added) :
    Custody true w v (.committed w.front.engine (.removed o.detach) :: added) := by
  obtain ⟨lost, taken, -, others⟩ := within.lost
  refine ⟨(of_removal found).trans within.recorded, fun k => ?_, o.detach :: lost, ?_, nofun, ?_⟩
  · cases k with
    | zero => exact nil_subperm
    | succ k => exact (within.backed k).trans (sublist_cons_self _ _).subperm
  · exact (taken.cons o.detach).trans perm_middle.symm
  · refine forall_mem_cons.2 ⟨⟨_, [], added, rfl, signalled⟩, fun x member => ?_⟩
    have later : TakenWithSignal (w.front.session.state.after
        (changesOf [.committed w.front.engine (.removed o.detach)])) added x := others x member
    exact later.append_left

end Custody

/-- What goes over to native code is about none of the overlays. -/
theorem isApart_of_mem_crossing {engine : EngineRef} {call : Except String Native.NativeCall}
    {e : Event} (member : e ∈ Work.crossing engine call) : e.isApart = true := by
  unfold Work.crossing at member
  split at member
  · cases member
  · rw [mem_singleton.1 member]
    rfl
  · rw [mem_singleton.1 member]
    rfl

/-- Overlays are accounted for in every passage. -/
theorem Passage.custody {allows : Op → Prop} {broken : Bool} {w v : World}
    (passage : Passage allows broken w v) : ∃ added, Custody broken w v added := by
  induction passage with
  | plain plain => exact Custody.of_plain plain
  | trans _ _ first rest =>
    obtain ⟨added, first⟩ := first
    obtain ⟨added', rest⟩ := rest
    exact ⟨added ++ added', first.trans rest⟩
  | install missing asked => exact ⟨[], .of_apart (append_nil _).symm rfl rfl (by simp)⟩
  | @passOn w c text installed =>
    refine ⟨Work.passingOn c.engine c.homeDir text, .of_apart ?_ rfl ?_ ?_⟩
    · rw [World.after, Work.run_passOn]
    · rw [World.after, Work.run_passOn]
    · exact forall_mem_cons.2 ⟨rfl, fun e => isApart_of_mem_crossing⟩
  | @tell w call genuine =>
    refine ⟨w.telling call, ?_⟩
    rw [World.told_eq]
    exact .of_apart rfl rfl rfl (forall_mem_cons.2 ⟨rfl, fun e => isApart_of_mem_crossing⟩)
  | @change w c apart =>
    have still : c.putOn? = none ∧ c.takenOff? = none := by
      cases c <;> first | exact ⟨rfl, rfl⟩ | cases apart
    refine ⟨_, .of_none (.of_commit (by simp [apart]) still.1) ?_ rfl⟩
    simp [takenOf, changesOf, Event.change?, still.2]
  | put absent => exact ⟨_, .of_none (.of_put rfl ⟨absent, rfl⟩) rfl rfl⟩
  | refuse showing => exact ⟨_, .of_none (.of_refuse rfl) rfl rfl⟩
  | remove found _ within =>
    obtain ⟨added, within⟩ := within
    exact ⟨_, within.remove found⟩
  | lose found signalled _ within =>
    obtain ⟨added, within⟩ := within
    exact ⟨_, within.lose found signalled⟩
  | panic w =>
    obtain ⟨added, still⟩ := Custody.of_plain (.refl w)
    exact ⟨added, still.weaken⟩

end EmuFront
