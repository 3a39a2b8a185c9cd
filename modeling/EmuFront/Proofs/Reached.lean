import EmuFront.Proofs.RunCourse

/-!
# What runs come by

The session states that a run comes by are those at its end, at every call that the engine receives,
and at every operation that is begun, be it from inside such a call. Since a run goes along moves,
and each move begins an operation first, commits changes next and tells the engine last, what moves
keep holds in each of these states.
-/

namespace EmuFront

/-- The change that an event is the commit of. -/
def Event.change? : Event → Option Change
  | .committed _ c => some c
  | _ => none

/-- The changes that are committed in a history. -/
def changesOf (history : List Event) : List Change := history.filterMap Event.change?

theorem changesOf_append (first rest : List Event) :
    changesOf (first ++ rest) = changesOf first ++ changesOf rest := List.filterMap_append ..

/-! ## The shape of a move -/

namespace SessionState

variable {s : SessionState}

/-- The call that tells of a change fits the session after the change. -/
theorem Sound.fits_signal (sound : s.Sound) {c : Change} (foreground : c ≠ .hostPaused)
    {call : EngineCall} (signal : s.signal? c = some call) : call.Fits (s.apply c) := by
  cases c with
  | pushed o =>
    obtain rfl := Option.some.inj signal
    exact ⟨rfl, List.cons_ne_nil _ _⟩
  | removed o =>
    simp only [signal?, Option.ite_none_right_eq_some, Option.some.injEq, Bool.and_eq_true] at signal
    rcases signal with ⟨⟨empty, starts⟩, rfl⟩
    -- the overlay pause is let go of, and nothing else held the engine
    have running : (s.run.resume .overlay).isRunning = true :=
      (Bool.and_eq_true _ _ ▸ starts).2
    have run : (s.apply (.removed o)).run = s.run.resume .overlay := if_pos empty
    refine ⟨?_, List.isEmpty_iff.1 empty⟩
    rw [run]
    exact running
  | dismissableSet value => cases signal
  | hostPaused => exact absurd rfl foreground
  | hostResumed =>
    simp only [signal?, Option.ite_none_right_eq_some, Option.some.injEq] at signal
    rcases signal with ⟨starts, rfl⟩
    have running : (s.apply .hostResumed).run.isRunning = true :=
      (Bool.and_eq_true _ _ ▸ starts).2
    -- an overlay showing would hold the engine
    have after : (s.apply .hostResumed).Sound := sound.apply trivial
    exact ⟨running, after.stack_eq_nil running⟩
  | graphicsReady size =>
    obtain rfl := Option.some.inj signal
    rfl
  | resized size =>
    simp only [signal?, Option.ite_none_right_eq_some, Option.some.injEq] at signal
    rcases signal with ⟨ready, rfl⟩
    exact ready

end SessionState

section Shape
variable {e e' : EngineRef} {s t : SessionState} {events before after : List Event}

/-- A move begins an operation or none, commits changes, and tells the engine of the session as it
then is or tells nothing. -/
theorem Move.shape (move : Move e s events t) :
    ∃ (op : Option Op) (changes : List Change) (call : Option EngineCall) (poisoned : Bool),
      events = (op.map (.began e · s)).toList ++ changes.map (.committed e)
        ++ (call.map fun call => .told e call ⟨t, false, poisoned⟩).toList ∧
      t = s.after changes ∧ s.TakesAll changes ∧ ∀ c ∈ call, s.Sound → c.Fits t := by
  cases move with
  | @began op _ => exact ⟨some op, [], none, false, rfl, rfl, trivial, by simp⟩
  | @told call poisoned _ fits =>
    exact ⟨none, [], some call, poisoned, rfl, rfl, trivial, by simpa using fun _ => fits⟩
  | @stack c poisoned admitted =>
    have foreground : c ≠ .hostPaused := by
      rintro rfl
      exact admitted
    exact ⟨none, [c], s.signal? c, poisoned, rfl, rfl, ⟨admitted.takes, trivial⟩,
      fun _ signal sound => sound.fits_signal foreground signal⟩
  | @host op c poisoned asked foreground =>
    exact ⟨some op, [c], s.signal? c, poisoned, rfl, rfl,
      ⟨SessionState.takes_of_asked asked, trivial⟩,
      fun _ signal sound => sound.fits_signal foreground signal⟩
  | @background op poisoned _ =>
    refine ⟨some op, s.backgrounding, some (.pause true), poisoned, rfl, rfl,
      SessionState.takesAll_backgrounding, ?_⟩
    intro call told _
    obtain rfl := Option.some.inj told
    exact ⟨SessionState.backgrounded_host, SessionState.backgrounded_stack⟩

/-- A move leads where its changes lead, which are taken. -/
theorem Move.takesAll (move : Move e s events t) :
    s.TakesAll (changesOf events) ∧ t = s.after (changesOf events) := by
  rcases move.shape with ⟨op, changes, call, poisoned, rfl, rfl, taken, _⟩
  have begun : changesOf (op.map (Event.began e · s)).toList = [] := by
    cases op <;> rfl
  have committed : changesOf (changes.map (Event.committed e)) = changes := by
    rw [changesOf, List.filterMap_map]
    exact List.filterMap_some
  have told : changesOf
      (call.map fun call => Event.told e call ⟨s.after changes, false, poisoned⟩).toList = [] := by
    cases call <;> rfl
  rw [changesOf_append, changesOf_append, begun, committed, told, List.nil_append, List.append_nil]
  exact ⟨taken, rfl⟩

theorem Moves.takesAll (moves : Moves e s events t) :
    s.TakesAll (changesOf events) ∧ t = s.after (changesOf events) := by
  induction moves with
  | nil s => exact ⟨trivial, rfl⟩
  | cons move _ ih =>
    rcases move.takesAll with ⟨first, rfl⟩
    rw [changesOf_append, SessionState.takesAll_append]
    refine ⟨⟨first, ih.1⟩, ih.2.trans ?_⟩
    exact List.foldl_append.symm

theorem Moves.sound (moves : Moves e s events t) (sound : s.Sound) : t.Sound := by
  rcases moves.takesAll with ⟨taken, rfl⟩
  exact sound.after taken

/-! ## Within a sequence of moves -/

/-- An event among those of a sequence of moves belongs to one move of the sequence. -/
theorem Moves.at_event {x : Event} (moves : Moves e s events t) (split : events = before ++ x :: after) :
    ∃ u v earlier first last, before = earlier ++ first ∧ Moves e s earlier u ∧
      Move e u (first ++ x :: last) v := by
  induction moves generalizing before with
  | nil s => simp at split
  | @cons s t u first rest move others ih =>
    rcases List.append_eq_append_iff.1 split with ⟨later, rfl, same⟩ | ⟨part, rfl, same⟩
    · -- the event comes after the first move
      rcases ih same with ⟨v, r, earlier, head, last, rfl, moves, at_x⟩
      have whole : first ++ (earlier ++ head) = first ++ earlier ++ head :=
        (List.append_assoc ..).symm
      exact ⟨v, r, first ++ earlier, head, last, whole, .cons move moves, at_x⟩
    · cases part with
      | nil =>
        -- the event is the first of the next move
        have next : rest = [] ++ x :: after := same.symm
        rcases ih next with ⟨v, r, earlier, head, last, empty, moves, at_x⟩
        rcases List.append_eq_nil_iff.1 empty.symm with ⟨rfl, rfl⟩
        refine ⟨v, r, before, [], last, (List.append_nil _).symm, ?_, at_x⟩
        simpa using Moves.cons move moves
      | cons y last =>
        -- the event belongs to the first move
        rcases List.cons.inj same with ⟨rfl, _⟩
        exact ⟨s, t, [], before, last, rfl, .nil s, move⟩

/-- An element that occurs once in a list ends it. -/
private theorem last_of_not_mem {α : Type} {xs ys zs : List α} {x y : α}
    (same : xs ++ x :: ys = zs ++ [y]) (once : x ∉ zs) : ys = [] ∧ x = y := by
  obtain rfl | ⟨last, z, rfl⟩ := List.eq_nil_or_concat ys
  · exact ⟨rfl, (List.cons.inj (List.append_inj_right' same rfl)).1⟩
  · rw [List.concat_eq_append, ← List.cons_append, ← List.append_assoc] at same
    have front : xs ++ x :: last = zs := List.append_inj_left' same rfl
    exact absurd (front ▸ List.mem_append_right _ List.mem_cons_self) once

/-- Where the engine is called, the moves have come to an end, the engine sees the session as it is
with its lock free, and the call fits it. -/
theorem Moves.at_call {call : EngineCall} {seen : Session} (moves : Moves e s events t)
    (sound : s.Sound) (split : events = before ++ .told e' call seen :: after) :
    Moves e s (before ++ [.told e' call seen]) seen.state ∧ seen.locked = false ∧
      call.Fits seen.state := by
  rcases moves.at_event split with ⟨u, v, earlier, first, last, rfl, moves, move⟩
  rcases move.shape with ⟨op, changes, told, poisoned, shape, _, _, fits⟩
  have silent : Event.told e' call seen ∉
      (op.map (Event.began e · u)).toList ++ changes.map (Event.committed e) := by
    cases op <;> simp
  cases told with
  | none =>
    rw [Option.map_none, Option.toList_none, List.append_nil] at shape
    exact absurd (shape ▸ List.mem_append_right _ List.mem_cons_self) silent
  | some told =>
    -- a move tells the engine at its end, so that this is the call
    rcases last_of_not_mem shape silent with ⟨rfl, same⟩
    rcases Event.told.inj same with ⟨rfl, rfl, rfl⟩
    rw [List.append_assoc]
    exact ⟨moves.append move.moves, rfl, fits call rfl (moves.sound sound)⟩

/-- An element that occurs once in a list, and at its start, has nothing before it. -/
private theorem first_of_not_mem {α : Type} {xs ys zs : List α} {x y : α}
    (same : xs ++ x :: ys = y :: zs) (once : x ∉ zs) : xs = [] ∧ x = y := by
  cases xs with
  | nil => exact ⟨rfl, (List.cons.inj same).1⟩
  | cons z xs =>
    have rest : xs ++ x :: ys = zs := (List.cons.inj same).2
    exact absurd (rest ▸ List.mem_append_right _ List.mem_cons_self) once

/-- Where an operation is begun, the moves before it have come to an end. -/
theorem Moves.at_begin {op : Op} {state : SessionState} (moves : Moves e s events t)
    (split : events = before ++ .began e' op state :: after) : Moves e s before state := by
  rcases moves.at_event split with ⟨u, v, earlier, first, last, rfl, moves, move⟩
  rcases move.shape with ⟨begun, changes, told, poisoned, shape, _⟩
  have silent : Event.began e' op state ∉ changes.map (Event.committed e)
      ++ (told.map fun call => Event.told e call ⟨v, false, poisoned⟩).toList := by
    cases told <;> simp
  rw [List.append_assoc] at shape
  cases begun with
  | none => exact absurd (shape ▸ List.mem_append_right _ List.mem_cons_self) silent
  | some begun =>
    -- a move begins an operation at its start, so that this is the one
    rcases first_of_not_mem shape silent with ⟨rfl, same⟩
    rcases Event.began.inj same with ⟨rfl, rfl, rfl⟩
    rw [List.append_nil]
    exact moves

end Shape

/-! ## Runs -/

namespace Run

/-- A session state that a run comes by, after some history. -/
inductive Reaches (r : Run) : List Event → SessionState → Prop
  /-- The state after the run. -/
  | final : r.Reaches r.trace r.state
  /-- The state in which the engine receives a call. -/
  | called {e : EngineRef} {call : EngineCall} {seen : Session} {before after : List Event}
      (split : r.trace = before ++ .told e call seen :: after) : r.Reaches before seen.state
  /-- The state in which an operation is begun. -/
  | begun {e : EngineRef} {op : Op} {s : SessionState} {before after : List Event}
      (split : r.trace = before ++ .began e op s :: after) : r.Reaches before s

variable {r : Run} {history : List Event} {s : SessionState}

/-- What every move keeps holds in every state that a run comes by. The call that the engine is about
to receive is not part of the history. -/
theorem Reaches.invariant {motive : List Event → SessionState → Prop} (h : r.Reaches history s)
    (start : motive [] .new)
    (step : ∀ history s events t, motive history s → Move engine s events t →
      motive (history ++ events) t)
    (uncalled : ∀ history e call seen t, motive (history ++ [.told e call seen]) t → motive history t) :
    motive history s := by
  cases h with
  | final => exact r.moves.invariant step start
  | called split =>
    -- the moves up to the call include it
    have moves := (r.moves.at_call SessionState.sound_new split).1
    have after := moves.invariant step start
    exact uncalled _ _ _ _ _ after
  | begun split =>
    have moves := r.moves.at_begin split
    exact moves.invariant step start

/-- A state that a run comes by is where the changes so far have led, and all of them were taken. -/
theorem Reaches.takesAll (h : r.Reaches history s) :
    SessionState.new.TakesAll (changesOf history) ∧ s = .after .new (changesOf history) := by
  refine h.invariant (motive := fun history s =>
    SessionState.new.TakesAll (changesOf history) ∧ s = .after .new (changesOf history))
    ⟨trivial, rfl⟩ ?_ ?_
  · intro history s events t before move
    rcases before with ⟨taken, rfl⟩
    rcases move.takesAll with ⟨next, rfl⟩
    rw [changesOf_append, SessionState.takesAll_append]
    exact ⟨⟨taken, next⟩, List.foldl_append.symm⟩
  · intro history e call seen t after
    have same : changesOf (history ++ [.told e call seen]) = changesOf history := by
      rw [changesOf_append]
      exact List.append_nil _
    rw [same] at after
    exact after

theorem Reaches.sound (h : r.Reaches history s) : s.Sound := by
  rcases h.takesAll with ⟨taken, rfl⟩
  exact SessionState.sound_new.after taken

end Run
end EmuFront
