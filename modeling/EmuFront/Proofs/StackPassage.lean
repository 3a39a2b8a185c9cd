import EmuFront.Proofs.Passage
import EmuFront.Proofs.StackCourse
import EmuFront.Proofs.WorkEnsures

/-!
# Passages of the overlay stack

Every operation of the overlay stack makes a passage: an overlay that is made is put on or refused,
and one that is taken off is given back or lost to a panic inside its signal.
-/

namespace EmuFront

open Act Storage

variable {allows : Op → Prop} {w : World}

/-! ## Failures -/

namespace Work

variable {α β : Type}

/-- From a world, work makes a passage. -/
def PassesFrom (part : Work α) (allows : Op → Prop) (w : World) : Prop :=
  Passage allows false w (w.after part)

theorem Plain.passesFrom {part : Work α} (h : part.Plain) : part.PassesFrom allows w :=
  .plain (World.plain_after h w)

/-- Plain work leaves the crash capture as it was. -/
theorem Plain.capture {part : Work α} (h : part.Plain) (w : World) :
    (w.after part).machine.capture = w.machine.capture := (h w.machine).capture

/-- Work in a row passes one part after the other. -/
theorem PassesFrom.bind {part : Work α} {next : α → Work β} (first : part.PassesFrom allows w)
    (rest : (next (part w.machine).1).PassesFrom allows (w.after part)) :
    (part >>= next).PassesFrom allows w := Passage.trans first rest

/-- What the installed capture passes on goes to its own engine. -/
theorem passesFrom_passOn {c : CrashCapture} (text : String)
    (installed : w.machine.capture = some c) :
    (passOn c.engine c.homeDir text).PassesFrom allows w := Passage.passOn installed

/-- A failure that is recorded is passed on to the engine of the capture. -/
theorem passesFrom_record (c : CrashCapture) (kind : CrashKind) (trace : String)
    (installed : w.machine.capture = some c) : (c.record kind trace).PassesFrom allows w := by
  let r := CrashRecord.managed c.fingerprint kind trace c.budget
  have written : (r.persist c.dataDir).Plain := (routine_persist _ _).plain
  -- the record is written without touching the capture
  have still : (w.after (r.persist c.dataDir)).machine.capture = some c :=
    (written.capture w).trans installed
  refine written.passesFrom.bind ((passesFrom_passOn r.text still).bind ?_)
  exact (Plain.pure _).passesFrom

/-- Recording a failure writes to files, and passes it on to the engine. -/
theorem passesFrom_recordQuietly (c : CrashCapture) (kind : CrashKind) (trace : String)
    (installed : w.machine.capture = some c) : (c.recordQuietly kind trace).PassesFrom allows w := by
  refine (passesFrom_record c kind trace installed).bind ?_
  split
  · exact (Plain.pure ()).passesFrom
  · exact (plain_log _ _).passesFrom

/-- A panic is recorded by the installed capture, or by none. -/
theorem passesFrom_onPanic (p : Panic) (w : World) : (onPanic p).PassesFrom allows w := by
  have chained : (observe (.chained p.message)).Plain := plain_observe rfl
  refine Plain.get.passesFrom.bind ?_
  split
  · exact chained.passesFrom
  · rename_i c installed
    exact (passesFrom_recordQuietly c _ _ installed).bind chained.passesFrom

/-- A report of the host goes to the installed capture, or is dropped. -/
theorem passesFrom_report (kind : CrashKind) (trace : String) (w : World) :
    (report kind trace).PassesFrom allows w := by
  refine Plain.get.passesFrom.bind ?_
  split
  · exact (plain_log _ _).passesFrom.bind (Plain.pure _).passesFrom
  · rename_i c installed
    exact (passesFrom_recordQuietly c _ _ installed).bind (Plain.pure _).passesFrom

/-- The capture of a front end is installed, or another that is asked for, unless there is one. -/
theorem passesFrom_install (c : CrashCapture)
    (asked : c = w.front.config.capture w.front.engine ∨
      ∃ config engine, allows (.machine (.install config engine)) ∧ c = config.capture engine) :
    (install c).PassesFrom allows w := by
  refine Plain.get.passesFrom.bind ?_
  split
  · exact (plain_log _ _).passesFrom.bind (Plain.pure _).passesFrom
  · rename_i missing
    have set : (modify fun p => { p with capture := some c } : Work PUnit).PassesFrom allows w :=
      Passage.install missing asked
    exact set.bind ((plain_log _ _).passesFrom.bind (Plain.pure _).passesFrom)

end Work

theorem Act.passesFrom_work {α : Type} {part : Work α} (h : part.PassesFrom allows w) :
    (work part).PassesFrom allows w := h

theorem Act.passes_work {α : Type} {part : Work α} (h : ∀ w, part.PassesFrom allows w) :
    (work part).Passes allows := fun w _ => h w

/-! ## Making overlays -/

/-- A scan finds the disk images of a directory as they are at that moment. -/
theorem Work.ensures_scanDiskImages (directory : Path) (m : Machine) :
    (scanDiskImages directory).Ensures m fun images v =>
      v.disk = m.disk ∧ images = m.disk.tree.diskImages directory := by
  unfold scanDiskImages Storage.Tree.diskImages
  rw [Ensures, run_bind, run_filesIn]
  cases m.disk.tree.filesIn directory DiskImage.isName with
  | ok images => exact ⟨rfl, rfl⟩
  | error e => exact ⟨rfl, rfl⟩

namespace OverlayStack

variable {tell : Tell}

/-- An overlay takes the next number when it is made, and shows the disk images of a directory if it is
a picker. What happens before that is a matter of course. -/
theorem ensures_make (spec : OverlaySpec) (w : World) :
    (work (make spec)).Ensures w
      (fun o v => ∃ u content, w.Plain u ∧ v = u.numbered ∧ o = u.next content ∧
        u.ListsImages content)
      fun _ => False := by
  -- an overlay that shows no disk images is numbered at once
  have atOnce : ∀ content, (∀ images, content ≠ .disksMenu images) →
      (work (makeOverlay content)).Ensures w
        (fun o v => ∃ u content, w.Plain u ∧ v = u.numbered ∧ o = u.next content ∧
          u.ListsImages content) fun _ => False := by
    intro content other
    exact ⟨w, content, .refl w, rfl, rfl, fun images same => absurd same (other images)⟩
  cases spec with
  | splash dismissable => exact atOnce (.splash dismissable) nofun
  | mainMenu => exact atOnce .mainMenu nofun
  | settingsMenu => exact atOnce .settingsMenu nofun
  | confirm kind => exact atOnce (.confirm kind) nofun
  | disksMenu directory =>
    let scanned := scanDiskImages directory w.machine
    refine ⟨w.after (scanDiskImages directory), .disksMenu scanned.1,
      w.plain_after (Work.routine_scanDiskImages directory).plain, rfl, rfl, ?_⟩
    rintro images ⟨⟩
    obtain ⟨same, found⟩ := Work.ensures_scanDiskImages directory w.machine
    refine ⟨directory, ?_⟩
    show scanned.1 = scanned.2.disk.tree.diskImages directory
    rw [same, found]

/-! ## Putting overlays on -/

/-- What follows the change by which an overlay is put on is for the log. -/
theorem ensures_pushLocked_plain (o : Overlay) (w : World) :
    (pushLocked o).Ensures w
      (fun _ v => (w.commit (.pushed (o.attach w.front.session.state.bounds))).Plain v)
      fun _ => False := by
  unfold pushLocked
  rw [ensures_bind, ensures_state, ensures_bind]
  have depth_logged : (do log .debug s!"push {o.kind.name}, depth {(← state).depth}").Plain :=
    plain_state.bind fun _ => plain_log _ _
  show Ensures _ (w.commit (.pushed (o.attach w.front.session.state.bounds))) _ _
  split
  · exact ((plain_log _ _).bind fun _ => depth_logged) _
  · exact depth_logged _

variable {u : World} {content : OverlayContent}

/-- An overlay that is made and absent is put on, and the lock freed. -/
private theorem ensures_put (absent : u.front.session.state.shows content.kind = false)
    (listed : u.ListsImages content) :
    (do pushLocked (u.next content); release).Ensures (u.withLock true).numbered
      (fun _ v => Passage allows false u v) fun _ => False := by
  have locked : Passage allows false u (u.withLock true) := .plain (u.plain_withLock true)
  have put : Passage allows false u ((u.withLock true).numbered.commit
      (.pushed ((u.next content).attach u.front.session.state.bounds))) :=
    locked.trans (.put absent listed)
  apply (ensures_pushLocked_plain _ _).andThen
  intro _ v logged
  exact (plain_release v).mono (fun _ r released => put.trans (.plain (logged.trans released)))
    fun _ => False.elim

/-- The engine is told to pause after a passage. -/
private theorem ensures_tell_pause (h : tell.Passes allows) (ready : u.Allows allows) {v : World}
    (before : Passage allows false u v) :
    (tell (.pause false)).Ensures v (fun _ r => Passage allows false u r)
      fun r => Passage allows true u r :=
  (h.call (.pause false) (fun _ => trivial) v (before.allows ready)).after before

/-- An overlay that was made to be shown is put on, or given up if its kind is showing. -/
theorem ensures_present_made (h : tell.Passes allows) (ready : u.Allows allows)
    (listed : u.ListsImages content) :
    (present tell (u.next content)).Ensures u.numbered
      (fun _ v => Passage allows false u v) fun v => Passage allows true u v := by
  unfold present
  rw [ensures_bind]
  show Ensures _ (u.withLock true).numbered _ _
  rw [ensures_bind, ensures_state]
  show (if u.front.session.state.shows content.kind = true then _ else _ : Act Bool).Ensures
    (u.withLock true).numbered _ _
  cases shows : u.front.session.state.shows content.kind with
  | true =>
    rw [if_pos rfl]
    let logged := (u.withLock true).after
      (Work.log .debug s!"{(u.next content).kind.name} already showing")
    have before : u.Plain logged :=
      (u.plain_withLock true).trans (World.plain_after (Work.plain_log _ _) _)
    refine (Passage.plain before).trans (.trans (.refuse shows) ?_)
    exact .plain (World.plain_withLock _ false)
  | false =>
    rw [if_neg Bool.false_ne_true]
    apply (ensures_bind.1 (ensures_put shows listed)).andThen
    intro _ v freed
    apply freed.andThen
    intro _ r before
    exact (ensures_tell_pause h ready before).bind (fun _ _ done => done) fun _ => id

/-- A second overlay of a kind is refused before the panic. -/
theorem ensures_push_made (h : tell.Passes allows) (ready : u.Allows allows)
    (listed : u.ListsImages content) (site : PanicSite) :
    (push tell site (u.next content)).Ensures u.numbered
      (fun _ v => Passage allows false u v) fun v => Passage allows true u v := by
  unfold push
  rw [ensures_bind]
  show Ensures _ (u.withLock true).numbered _ _
  rw [ensures_bind, ensures_state]
  show (if u.front.session.state.shows content.kind = true then _ else _ : Act Unit).Ensures
    (u.withLock true).numbered _ _
  cases shows : u.front.session.state.shows content.kind with
  | true =>
    rw [if_pos rfl]
    have locked : Passage allows false u (u.withLock true) := .plain (u.plain_withLock true)
    have refused : Passage allows false u ((u.withLock true).numbered.after
        (Work.observe (.refused u.front.engine (u.next content)))) := locked.trans (.refuse shows)
    have noted := (passesFrom_work
      (Work.passesFrom_onPanic (doublePush site content.kind) _)).after refused
    have note_refused : (note fun engine => .refused engine (u.next content)).Ensures
        (u.withLock true).numbered (fun _ v => v = (u.withLock true).numbered.after
          (Work.observe (.refused u.front.engine (u.next content)))) fun _ => False := rfl
    apply note_refused.andThen
    rintro _ _ rfl
    refine noted.bind (fun _ v before => ?_) fun _ => id
    -- on the way out the lock is freed and poisoned
    have poisoned : (modifySession fun s => { s with locked := false, poisoned := true }).Plain :=
      fun w => ⟨rfl, rfl, rfl, List.Subset.refl _, .refl _⟩
    exact (poisoned v).andThen fun _ r left => before.trans (.trans (.plain left) (.panic r))
  | false =>
    rw [if_neg Bool.false_ne_true]
    apply (ensures_bind.1 (ensures_put shows listed)).andThen
    intro _ v freed
    apply freed.andThen
    intro _ r before
    exact ensures_tell_pause h ready before

/-- What is done with an overlay that was just made makes a passage with the making. -/
private theorem passes_made {α : Type} {act : Overlay → Act α} (spec : OverlaySpec)
    (made : ∀ {u content}, u.Allows allows → u.ListsImages content →
      (act (u.next content)).Ensures u.numbered (fun _ v => Passage allows false u v)
        fun v => Passage allows true u v) : (do act (← work (make spec))).Passes allows := by
  intro w ready
  apply (ensures_make spec w).andThen
  rintro _ _ ⟨u, content, plain, rfl, rfl, listed⟩
  have before : Passage allows false w u := .plain plain
  exact (made (before.allows ready) listed).mono (fun _ _ => before.trans) fun _ => before.trans

/-- To make an overlay and to show it is one passage. -/
theorem passes_present_made (h : tell.Passes allows) (spec : OverlaySpec) :
    (do present tell (← work (make spec))).Passes allows := passes_made spec (ensures_present_made h)

/-- To make an overlay and to push it is one passage, which may end in a panic. -/
theorem passes_push_made (h : tell.Passes allows) (site : PanicSite) (spec : OverlaySpec) :
    (do push tell site (← work (make spec))).Passes allows :=
  passes_made spec fun ready listed => ensures_push_made h ready listed site

/-! ## Taking overlays off -/

/-- What follows the change by which an overlay is taken off is for the log. -/
theorem ensures_removeLocked_plain (o : Overlay) (w : World) :
    (removeLocked o).Ensures w (fun _ v => (w.commit (.removed o.detach)).Plain v)
      fun _ => False := by
  unfold removeLocked
  rw [ensures_bind, ensures_state, ensures_bind]
  show Ensures _ (w.commit (.removed o.detach)) _ _
  refine plain_state.bind (fun s => (plain_log _ _).bind fun _ => ?_) _
  split
  · split
    · exact (plain_log _ _).bind fun _ => plain_pure _
    · exact (plain_log _ _).bind fun _ => plain_pure _
  · exact plain_pure _

/-- The world once an overlay that was taken off is given back. -/
def giveBack (w : World) (o : Overlay) : World :=
  w.after (Work.observe (.returned w.front.engine o.detach))

/-- A removal picks nothing, or takes an overlay off and gives it back: at once if the engine is not
to be told of it, and otherwise once that signal is over. -/
theorem ensures_remove_of {pick : SessionState → Act (Option Overlay)}
    {picked : SessionState → Option Overlay} (picks : Picks pick picked)
    (plain : ∀ s, (pick s).Plain) {done : Option Overlay → World → Prop} {ended : World → Prop}
    (nothing : ∀ v, picked w.front.session.state = none → w.Plain v → done none v)
    (silent : ∀ o u v, picked w.front.session.state = some o → w.Plain u →
      (u.commit (.removed o.detach)).Plain v →
      w.front.session.state.signal? (.removed o.detach) = none → done (some o.detach) (giveBack v o))
    (signalled : ∀ o u v, picked w.front.session.state = some o → w.Plain u →
      (u.commit (.removed o.detach)).Plain v →
      w.front.session.state.signal? (.removed o.detach) ≠ none →
      (tell (.resume false)).Ensures v (fun _ q => done (some o.detach) (giveBack q o)) ended) :
    (remove tell pick).Ensures w done ended := by
  apply (plain_acquire w).andThen
  intro _ v acquired
  rw [ensures_bind, ensures_state]
  have chosen := ((picks v.front.session.state v).and (plain v.front.session.state v)).mono
    (fun _ _ => id) fun _ => And.left
  apply chosen.andThen
  intro o u chosen
  obtain ⟨⟨rfl, -⟩, unchanged⟩ := chosen
  have before : w.Plain u := acquired.trans unchanged
  rw [acquired.state]
  cases top : picked w.front.session.state with
  | none => exact (plain_release u).andThen fun _ r released => nothing r top (before.trans released)
  | some o =>
    have removed := ((ensures_removeLocked o u).and (ensures_removeLocked_plain o u)).mono
      (fun _ _ => id) fun _ => And.left
    apply removed.andThen
    intro resume t removed
    obtain ⟨⟨-, signal⟩, logged⟩ := removed
    rw [show u.scene.session.state = w.front.session.state from before.state] at signal
    apply (plain_release t).andThen
    intro _ r released
    have started : (u.commit (.removed o.detach)).Plain r := logged.trans released
    cases resume with
    | false => exact silent o u r top before started signal
    | true =>
      have told : w.front.session.state.signal? (.removed o.detach) ≠ none := by
        intro none
        exact Option.some_ne_none _ (signal.symm.trans none)
      exact (signalled o u r top before started told).bind (fun _ _ => id) fun _ => id

/-- An overlay that is picked is taken off. It is given back once its signal is over, unless that
ends in a panic. -/
theorem passes_remove (h : tell.Passes allows) {pick : SessionState → Act (Option Overlay)}
    {picked : SessionState → Option Overlay} (picks : Picks pick picked)
    (plain : ∀ s, (pick s).Plain) (showing : ∀ s o, picked s = some o → s.find? o.kind = some o) :
    (remove tell pick).Passes allows := by
  intro w ready
  have found : ∀ o u, picked w.front.session.state = some o → w.Plain u →
      u.front.session.state.find? o.kind = some o := by
    intro o u top before
    rw [before.state]
    exact showing _ o top
  refine ensures_remove_of picks plain (fun v _ quiet => .plain quiet) ?_ ?_
  · intro o u v top before started _
    exact (Passage.plain before).trans (.remove (found o u top before) (.plain started))
  · intro o u v top before started told
    have quiet : Passage allows false w u := .plain before
    have begun : Passage allows false (u.commit (.removed o.detach)) v := .plain started
    have ready' : (u.commit (.removed o.detach)).Allows allows := quiet.allows ready
    have resumed := (h.call (.resume false) (fun _ => trivial) v (begun.allows ready')).after begun
    rw [← before.state] at told
    exact resumed.mono (fun _ q within => quiet.trans (.remove (found o u top before) within))
      fun q broken => quiet.trans (.lose (found o u top before) told broken)

/-- Taking the top overlay off is one step with all that follows its signal. -/
theorem passes_pop (h : tell.Passes allows) : (pop tell).Passes allows :=
  passes_remove h picks_pop (fun _ => plain_pure _) fun _ _ => find?_of_top?

/-- So is taking one off by its kind. -/
theorem passes_popNamed (h : tell.Passes allows) (kind : OverlayKind) :
    (popNamed tell kind).Passes allows := by
  refine passes_remove h (picks_popNamed kind) (fun _ => plain_pure _) fun s o found => ?_
  rw [kind_of_find? found]
  exact found

/-- Looking for an overlay that the user may close is a matter of course. -/
theorem plain_dismissing (kind : OverlayKind) (s : SessionState) :
    (match s.find? kind with
      | none => return none
      | some o => if o.isDismissable then return some o else do
        log .debug s!"{kind.name} is not dismissable"
        return none : Act (Option Overlay)).Plain := by
  split
  · exact plain_pure none
  · split
    · exact plain_pure _
    · exact (plain_log _ _).bind fun _ => plain_pure none

/-- So is closing one, if it may be closed. -/
theorem passes_dismiss (h : tell.Passes allows) (kind : OverlayKind) :
    (dismiss tell kind).Passes allows := by
  refine passes_remove h (picks_dismiss kind) (plain_dismissing kind) fun s o chosen => ?_
  · have found := (Option.filter_eq_some_iff.1 chosen).1
    rw [kind_of_find? found]
    exact found

theorem passes_popMany (h : tell.Passes allows) (n : Nat) : (popMany tell n).Passes allows := by
  induction n with
  | zero => exact (plain_pure []).passes allows
  | succ n ih =>
    apply (passes_pop h).bind
    intro popped
    split
    · exact (plain_pure []).passes allows
    · exact ih.result

/-- Emptying the stack is one removal after the other. -/
theorem passes_drain (h : tell.Passes allows) : (drain tell).Passes allows :=
  plain_get.andThen fun _ => passes_popMany h _

/-! ## The rest -/

theorem passes_setDismissable (value : Bool) : (setDismissable value).Passes allows := by
  apply Passes.locked
  apply plain_state.andThen
  intro s
  have set : (commit (.dismissableSet value)).Passes allows := passes_commit rfl
  exact .ite set.result ((plain_pure false).passes allows)

theorem plain_tryDepth (held : Bool) : (tryDepth held).Plain := by
  have tried : (modifySession fun s => { s with locked := held }).Plain :=
    fun w => w.plain_withLock held
  exact tried.bind fun _ => plain_get.bind fun _ => plain_release.bind fun _ => plain_pure _

end OverlayStack

/-- Every operation on the stack makes a passage. -/
theorem StackOp.passes_perform {tell : Tell} (h : tell.Passes allows) (op : StackOp) :
    (op.perform tell).Passes allows := by
  cases op with
  | push spec site => exact (OverlayStack.passes_push_made h site spec).result
  | present spec => exact (OverlayStack.passes_present_made h spec).result
  | pop => exact (OverlayStack.passes_pop h).result
  | popNamed kind => exact (OverlayStack.passes_popNamed h kind).result
  | dismiss kind => exact (OverlayStack.passes_dismiss h kind).result
  | drain => exact (OverlayStack.passes_drain h).result
  | setDismissable value => exact (OverlayStack.passes_setDismissable value).result
  | tryLock held => exact ((OverlayStack.plain_tryDepth held).passes allows).result

end EmuFront
