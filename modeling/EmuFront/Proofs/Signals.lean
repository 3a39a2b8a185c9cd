import EmuFront.Proofs.Reached

/-!
# Calls to the engine

What the engine can rely on when it is called. Each call comes with the session lock free, and fits
the session that the engine then sees: pauses and resumes as the overlays and the host have it, and
all other calls as far as they are let through.
-/

namespace EmuFront

/-- While an overlay is showing, the overlay pause is held. -/
theorem SessionState.Sound.holds_overlay {s : SessionState} (sound : s.Sound) {kind : OverlayKind}
    (showing : s.shows kind = true) : s.run.holds .overlay = true := by
  have some : s.stack ≠ [] := by
    intro empty
    simp [shows, empty] at showing
  exact sound.overlay.2 some

namespace Run

/-! ## Pauses and resumes -/

/-- When the engine is told to pause or to resume, the session lock is free, and the session is as
the signal has it: with no pause held and nothing showing on a resume, with the overlay pause held
and an overlay showing on a pause for overlays, and with the host's pause held and nothing showing on
a pause of the host. -/
theorem signal_matches_session (r : Run) {e : EngineRef} {call : EngineCall} {seen : Session}
    (told : .told e call seen ∈ r.trace) :
    seen.locked = false ∧ seen.depth? = some seen.state.depth ∧
      (∀ host, call = .resume host →
        (∀ reason, seen.state.run.holds reason = false) ∧ seen.state.stack = []) ∧
      (call = .pause false → seen.state.run.holds .overlay = true ∧ 1 ≤ seen.state.depth) ∧
      (call = .pause true → seen.state.run.holds .host = true ∧ seen.state.stack = []) := by
  rcases List.append_of_mem told with ⟨before, after, split⟩
  -- the run up to the call is a sequence of moves, and so the call fits the session
  rcases r.moves.at_call SessionState.sound_new split with ⟨-, free, fits⟩
  have sampled : seen.depth? = some seen.state.depth := by
    simp [Session.depth?, free]
  refine ⟨free, sampled, ?_, ?_, ?_⟩
  · rintro host rfl
    rcases fits with ⟨running, empty⟩
    refine ⟨fun reason => ?_, empty⟩
    -- a session that runs holds none of the three pauses
    simp only [RunState.isRunning, Bool.and_eq_true, Bool.not_eq_true'] at running
    rcases running with ⟨⟨startup, overlay⟩, host⟩
    cases reason with
    | startup => exact startup
    | overlay => exact overlay
    | host => exact host
  · rintro rfl
    exact ⟨fits.1, List.length_pos_of_ne_nil fits.2⟩
  · rintro rfl
    exact fits

/-- A host that comes back while the engine, in its turn, goes through the main menu. -/
def comeBack : Run where
  machine := default
  config := .new ⟨"data"⟩
  reactions := [⟨.resume, [.host .showMainMenu, .host .back]⟩]
  ops := [.host (.graphicsReady 800 480), .host .hostPaused, .host .hostResumed]

/-- The session that the engine sees at the second resume, from inside the first. -/
theorem signal_matches_session_comeBack :
    .told engine (.resume false) ⟨comeBack.state, false, false⟩ ∈ comeBack.trace ∧
      comeBack.state.stack = [] := by
  have told : .told engine (.resume false) ⟨comeBack.state, false, false⟩ ∈ comeBack.trace := by
    decide +kernel
  rcases comeBack.signal_matches_session told with ⟨_, _, resumed, _⟩
  exact ⟨told, (resumed false rfl).2⟩

/-! ## Calls that are let through -/

/-- Touches reach the engine only once graphics are ready and while nothing is showing, ticks of the
display only once graphics are ready and while the host is in the foreground, and new sizes of the
surface only once graphics are ready. The engine is told to quit or to reboot only under the prompt
for it, and to insert a disk only under a disk image picker that lists it. -/
theorem call_matches_session (r : Run) {e : EngineRef} {call : EngineCall} {seen : Session}
    (told : .told e call seen ∈ r.trace) :
    seen.locked = false ∧
      (∀ sample, call = .touch sample →
        seen.state.graphicsReady = true ∧ seen.state.stack = []) ∧
      (call = .render → seen.state.graphicsReady = true ∧ seen.state.run.holds .host = false) ∧
      (∀ size, call = .graphicsResized size → seen.state.graphicsReady = true) ∧
      (call = .quit →
        seen.state.shows .quitConfirm = true ∧ seen.state.run.holds .overlay = true) ∧
      (call = .reboot →
        seen.state.shows .rebootConfirm = true ∧ seen.state.run.holds .overlay = true) ∧
      (∀ path driveA readOnly, call = .chooseDisk path driveA readOnly →
        ∃ menu ∈ seen.state.stack, menu.kind = .disksMenu ∧
          ∃ images, menu.images? = some images ∧ path ∈ images) := by
  obtain ⟨before, after, split⟩ := List.append_of_mem told
  -- the run up to the call is a sequence of moves, and so the call fits the session
  obtain ⟨-, free, fits⟩ := r.moves.at_call SessionState.sound_new split
  have sound : seen.state.Sound := (Reaches.called split).sound
  refine ⟨free, ?_, ?_, ?_, ?_, ?_, ?_⟩
  · intro sample is
    rw [is] at fits
    exact fits
  · intro is
    rw [is] at fits
    exact fits
  · intro size is
    rw [is] at fits
    exact fits
  · intro is
    rw [is] at fits
    exact ⟨fits, sound.holds_overlay fits⟩
  · intro is
    rw [is] at fits
    exact ⟨fits, sound.holds_overlay fits⟩
  · intro path driveA readOnly is
    rw [is] at fits
    obtain ⟨menu, images, found, lists, member⟩ := fits
    have kind : menu.kind = .disksMenu := OverlayStack.kind_of_find? found
    exact ⟨menu, List.mem_of_find?_eq_some found, kind, images, lists, member⟩

/-- A disk image picker is opened, and the engine, told to pause for it, inserts its first disk. -/
def insertAtOnce : Run where
  machine := .new (Storage.Disk.empty.actAll [.putFile ⟨"data/disks/a.dsk"⟩ []])
  config := .new ⟨"data"⟩
  reactions := [⟨.pause, [.host (.chooseDisk 0 true false)]⟩]
  ops := [.host .showDisks]

/-- The session in which the disk is inserted shows the picker, which lists it. -/
theorem call_matches_session_insertAtOnce :
    let seen : Session :=
      ⟨⟨[⟨1, .disksMenu [⟨"data/disks/a.dsk"⟩], some .zero⟩], ⟨true, true, false⟩, none, false⟩,
        false, false⟩
    .told engine (.chooseDisk ⟨"data/disks/a.dsk"⟩ true false) seen ∈ insertAtOnce.trace ∧
      ∃ menu ∈ seen.state.stack, menu.kind = .disksMenu ∧
        ∃ images, menu.images? = some images ∧ ⟨"data/disks/a.dsk"⟩ ∈ images := by
  intro seen
  have told : .told engine (.chooseDisk ⟨"data/disks/a.dsk"⟩ true false) seen ∈
      insertAtOnce.trace := by decide +kernel
  obtain ⟨-, -, -, -, -, -, chosen⟩ := insertAtOnce.call_matches_session told
  exact ⟨told, chosen _ _ _ rfl⟩

end Run
end EmuFront
