import EmuFront.Proofs.Removals

/-!
# Answers to prompts

What comes of the answer to a prompt, while the engine only listens. A prompt that is declined is
closed, wherever it sits. An accepted quit leaves the session as it is. An accepted reboot closes the
prompt and the main menu, after the engine was told of it, so that the engine runs again if these
were all that held it.
-/

namespace EmuFront

namespace FrontEnd

open Act OverlayStack

variable {tell : Tell} {w : World}

/-- A prompt that is not showing is not answered. -/
theorem yields_confirm_of_absent (tell : Tell) (kind : ConfirmKind) (accepted : Bool)
    (listening : w.engine.reactions = [])
    (absent : w.front.session.state.shows kind.overlay = false) :
    (confirm tell kind accepted).Yields w .notShowing w.front.session.state [] := by
  refine yields_state ?_
  rw [absent, if_pos (show (!false) = true from rfl)]
  exact yields_pure _ listening

/-- A prompt that is declined is closed. -/
theorem yields_confirm_declined (kind : ConfirmKind) (sound : w.front.session.state.Sound)
    (listens : tell.Listens) (free : w.front.session.locked = false)
    (listening : w.engine.reactions = [])
    (showing : w.front.session.state.shows kind.overlay = true) :
    (confirm tell kind false).Yields w .cancelled
      (w.front.session.state.without [kind.overlay])
      (w.front.session.state.resuming [kind.overlay]) := by
  refine yields_state ?_
  rw [showing, if_neg (by decide), if_pos (show (!false) = true from rfl)]
  have closable : dismiss tell kind.overlay w = popNamed tell kind.overlay w :=
    run_dismiss_eq fun o found => isDismissable_of_find? found (by cases kind <;> decide)
  have closed := yields_popNamed_of_sound rfl sound listens free listening kind.overlay
  exact (closed.of_run_eq closable).map fun _ => ConfirmOutcome.cancelled

/-- An accepted quit is told to the engine, and the prompt stays up. -/
theorem yields_confirm_quit (listens : tell.Listens) (listening : w.engine.reactions = [])
    (showing : w.front.session.state.shows .quitConfirm = true) :
    (confirm tell .quit true).Yields w .quitRequested w.front.session.state
      [⟨.quit, w.front.session.state⟩] := by
  refine yields_state ?_
  rw [ConfirmKind.overlay, showing, if_neg (by decide), if_neg (by decide)]
  refine yields_work (Work.quiet_log _ _) listening ?_
  exact (listens .quit (w.after _) listening).map fun _ => ConfirmOutcome.quitRequested

/-- An accepted reboot is told to the engine, and the prompt and the main menu are closed. -/
theorem yields_confirm_reboot (sound : w.front.session.state.Sound) (listens : tell.Listens)
    (free : w.front.session.locked = false) (listening : w.engine.reactions = [])
    (showing : w.front.session.state.shows .rebootConfirm = true) :
    (confirm tell .reboot true).Yields w .rebooted
      (w.front.session.state.without [.rebootConfirm, .mainMenu])
      ([⟨.reboot, w.front.session.state⟩] ++
        w.front.session.state.resuming [.rebootConfirm, .mainMenu]) := by
  have split : [.rebootConfirm, .mainMenu] = [OverlayKind.rebootConfirm] ++ [.mainMenu] := rfl
  rw [split, sound.without_append, sound.resuming_append]
  refine yields_state ?_
  rw [ConfirmKind.overlay, showing, if_neg (by decide), if_neg (by decide)]
  refine yields_work (Work.quiet_log _ _) listening ?_
  refine (listens .reboot (w.after _) listening).bind fun u before => ?_
  have prompt := yields_popNamed_of_sound before.state sound listens (before.free free)
    before.listening .rebootConfirm
  refine prompt.bind fun x after => ?_
  have menu := yields_popNamed_of_sound after.state (sound.without _) listens
    (after.free (before.free free)) after.listening .mainMenu
  exact menu.map fun _ => ConfirmOutcome.rebooted

end FrontEnd

namespace Run

open FrontEnd

/-- From any session state that a run comes by, while the engine only listens: A prompt is not answered
if and only if it is not showing, and then nothing happens. One that is declined is taken off and
nothing else. An accepted quit is told to the engine and leaves the session as it is. An accepted
reboot is told to the engine first, and then the prompt and the main menu are taken off. The engine
hears that it resumes, once, if that leaves no overlay and neither the startup nor the host holds
it. -/
theorem confirm_answers (r : Run) {history : List Event} {s : SessionState}
    (reaches : r.Reaches history s) (w : World) (state : w.front.session.state = s)
    (free : w.front.session.locked = false) (listening : w.engine.reactions = []) (depth : Nat)
    (kind : ConfirmKind) (accepted : Bool) :
    let confirm := confirm (tellWithin depth)
    ((confirm kind accepted w).1 = .ok .notShowing ↔ s.shows kind.overlay = false) ∧
    (s.shows kind.overlay = false → (confirm kind accepted).Yields w .notShowing s []) ∧
    (s.shows kind.overlay = true →
      (confirm kind false).Yields w .cancelled (s.without [kind.overlay])
        (s.resuming [kind.overlay])) ∧
    (s.shows .quitConfirm = true →
      (confirm .quit true).Yields w .quitRequested s [⟨.quit, s⟩]) ∧
    (s.shows .rebootConfirm = true →
      (confirm .reboot true).Yields w .rebooted (s.without [.rebootConfirm, .mainMenu])
        (⟨.reboot, s⟩ :: s.resuming [.rebootConfirm, .mainMenu])) := by
  subst state
  have sound : w.front.session.state.Sound := reaches.sound
  have listens := listens_tellWithin depth
  have absent := yields_confirm_of_absent (tellWithin depth) kind accepted listening
  have declined := yields_confirm_declined kind sound listens free listening
  have quit := yields_confirm_quit listens listening
  have rebooted := yields_confirm_reboot sound listens free listening
  refine ⟨⟨fun unanswered => ?_, fun hidden => (absent hidden).result⟩, absent, declined, quit,
    rebooted⟩
  -- every answer to a prompt that is showing has another outcome
  by_contra showing
  rw [Bool.not_eq_false] at showing
  cases accepted with
  | false => cases (declined showing).result.symm.trans unanswered
  | true =>
    cases kind with
    | quit => cases (quit showing).result.symm.trans unanswered
    | reboot => cases (rebooted showing).result.symm.trans unanswered

/-- A run that leaves the question whether to reboot over the main menu. -/
def rebootOverMenu : Run where
  machine := default
  config := .new ⟨"data"⟩
  reactions := []
  ops := [.host (.graphicsReady 800 480), .host (.pressSplash .start), .host .showMainMenu,
    .host .maybeReboot]

/-- A reboot that is declined leaves the main menu. One that is accepted leaves no overlay, so that
the engine hears of the reboot and then that it resumes. Nobody asked whether to quit. -/
theorem confirm_answers_rebootOverMenu :
    (FrontEnd.confirm (tellWithin 0) .quit true rebootOverMenu.final).1 = .ok .notShowing ∧
    (∃ menu : SessionState, menu.stack.map Overlay.kind = [.mainMenu] ∧
      (FrontEnd.confirm (tellWithin 0) .reboot false).Yields rebootOverMenu.final .cancelled menu
        []) ∧
    ∃ left : SessionState, left.stack = [] ∧ left.run.isRunning = true ∧
      (FrontEnd.confirm (tellWithin 0) .reboot true).Yields rebootOverMenu.final .rebooted left
        [⟨.reboot, rebootOverMenu.state⟩, ⟨.resume false, left⟩] := by
  have free : rebootOverMenu.final.front.session.locked = false := by decide +kernel
  have listening : rebootOverMenu.final.engine.reactions = [] := by decide +kernel
  have absent : rebootOverMenu.state.shows ConfirmKind.quit.overlay = false := by decide +kernel
  have showing : rebootOverMenu.state.shows ConfirmKind.reboot.overlay = true := by decide +kernel
  have menu : (rebootOverMenu.state.without [.rebootConfirm]).stack.map Overlay.kind =
      [.mainMenu] ∧ rebootOverMenu.state.resuming [.rebootConfirm] = [] := by decide +kernel
  have left : (rebootOverMenu.state.without [.rebootConfirm, .mainMenu]).stack = [] ∧
      (rebootOverMenu.state.without [.rebootConfirm, .mainMenu]).run.isRunning = true := by
    decide +kernel
  have resuming : rebootOverMenu.state.resuming [.rebootConfirm, .mainMenu] =
      [⟨.resume false, rebootOverMenu.state.without [.rebootConfirm, .mainMenu]⟩] := by
    decide +kernel
  obtain ⟨unanswered, -⟩ := rebootOverMenu.confirm_answers .final _ rfl free listening 0 .quit true
  obtain ⟨-, -, declined, -, rebooted⟩ :=
    rebootOverMenu.confirm_answers .final _ rfl free listening 0 .reboot true
  refine ⟨unanswered.2 absent, ⟨_, menu.1, ?_⟩, _, left.1, left.2, ?_⟩
  · have closed := declined showing
    rw [ConfirmKind.overlay, menu.2] at closed
    exact closed
  · have told := rebooted showing
    rw [resuming] at told
    exact told

end Run
end EmuFront
