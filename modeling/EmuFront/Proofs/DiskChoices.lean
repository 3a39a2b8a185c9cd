import EmuFront.Proofs.DiskListings
import EmuFront.Proofs.Removals

/-!
# Choosing a disk image

A picker that is opened lists the disk images of its directory at that moment. A choice in a picker
that is showing sends the image that it lists to the engine and then takes the picker off, wherever it
sits. Without a picker, or beyond its end, nothing happens.
-/

namespace EmuFront

open Act OverlayStack

/-! ## Opening a picker -/

/-- From one world to another, a picker of the disk images that stood in a directory is put on before
anything else happens. -/
def World.Opens (w : World) (directory : Path) (v : World) : Prop :=
  ∃ events, v.machine.trace = w.machine.trace ++
    .committed w.front.engine (.pushed ⟨w.machine.nextSurface,
      .disksMenu (w.machine.disk.tree.diskImages directory),
      some w.front.session.state.bounds⟩) :: events

/-- What led to a state after a picker was opened tells of that. -/
theorem World.Opens.pushed_mem {w v : World} {directory : Path} (opens : w.Opens directory v)
    {history : List Event} (since : v.machine.trace <+: history) :
    .pushed ⟨w.machine.nextSurface, .disksMenu (w.machine.disk.tree.diskImages directory),
      some w.front.session.state.bounds⟩ ∈ changesOf history := by
  obtain ⟨events, trace⟩ := opens
  obtain ⟨rest, rfl⟩ := since
  rw [trace, changesOf_append, changesOf_append]
  exact List.mem_append_left _ (List.mem_append_right _ List.mem_cons_self)

section Opening
variable {tell : Tell} {w : World} {directory : Path}

/-- A picker that is made takes the next number and lists what stands in its directory. -/
theorem ensures_picker_made (directory : Path) (w : World) :
    (OverlaySpec.disksMenu directory).made.Ensures w
      (fun o v => o = w.next (.disksMenu (w.machine.disk.tree.diskImages directory)) ∧
        v.scene = w.scene) fun _ => False := by
  have numbering := ((Work.routine_scanDiskImages directory).plain w.machine).numbering
  have found := (Work.ensures_scanDiskImages directory w.machine).2
  refine ⟨?_, still_work (Work.quiet_make (.disksMenu directory)) w⟩
  show Overlay.mk (scanDiskImages directory w.machine).2.nextSurface
    (.disksMenu (scanDiskImages directory w.machine).1) none = _
  rw [numbering, found]
  rfl

theorem opens_of_goes {along : Along} {u v : World} (same : u.scene = w.scene)
    (goes : u.scene.Goes (Changed (pushing u.scene.session.state
      (w.next (.disksMenu (w.machine.disk.tree.diskImages directory)))) along) v.scene) :
    w.Opens directory v := by
  rw [same] at goes
  obtain ⟨_, trace, poisoned, rest, rfl, -⟩ := goes.events
  exact ⟨_, trace⟩

theorem ensures_opens_present (h : tell.Follows) (directory : Path)
    (free : w.front.session.locked = false)
    (absent : w.front.session.state.shows .disksMenu = false) :
    (do present tell (← (OverlaySpec.disksMenu directory).made)).Ensures w
      (fun _ v => w.Opens directory v) fun v => w.Opens directory v := by
  apply (ensures_picker_made directory w).andThen
  rintro _ u ⟨rfl, same⟩
  have free' : u.scene.session.locked = false := same ▸ free
  refine (ensures_present h _ free').mono (fun _ v presented => ?_) fun v panicked =>
    opens_of_goes same panicked.2
  obtain ⟨showing, -⟩ | ⟨-, goes⟩ := presented
  · rw [same] at showing
    cases absent.symm.trans showing
  · exact opens_of_goes same goes

theorem ensures_opens_push (h : tell.Follows) (site : PanicSite) (directory : Path)
    (free : w.front.session.locked = false)
    (absent : w.front.session.state.shows .disksMenu = false) :
    (do push tell site (← (OverlaySpec.disksMenu directory).made)).Ensures w
      (fun _ v => w.Opens directory v) fun v => w.Opens directory v := by
  apply (ensures_picker_made directory w).andThen
  rintro _ u ⟨rfl, same⟩
  have free' : u.scene.session.locked = false := same ▸ free
  have absent' : u.scene.session.state.shows .disksMenu = false := same ▸ absent
  exact Ensures.mono (runs_push_absent h free' absent') (fun _ _ => opens_of_goes same)
    fun _ => opens_of_goes same

namespace FrontEnd

theorem ensures_opens_showDisks (h : tell.Follows) (free : w.front.session.locked = false)
    (absent : w.front.session.state.shows .disksMenu = false) :
    (showDisks tell).Ensures w (fun _ v => w.Opens w.front.config.disksDir v)
      fun v => w.Opens w.front.config.disksDir v := by
  refine ensures_bind.2 (ensures_state.2 ?_)
  rw [if_neg (Bool.eq_false_iff.1 absent)]
  exact ensures_bind.2 (ensures_get.2 (ensures_opens_present h _ free absent))

/-- A second picker is not opened. -/
theorem run_showDisks_of_shows (tell : Tell)
    (showing : w.front.session.state.shows .disksMenu = true) :
    showDisks tell w = (.ok false, w) := congrFun (if_pos showing) w

end FrontEnd
end Opening

/-! ## Choosing from a picker -/

namespace FrontEnd

variable {tell : Tell} {w : World} {s : SessionState} {index : Nat} {path : Path}
  {driveA readOnly : Bool}

theorem imageAt?_eq_some (sound : s.Sound) {menu : Overlay} {images : List Path}
    (showing : menu ∈ s.stack) (listed : menu.images? = some images)
    (image : images[index]? = some path) : imageAt? s index = some path := by
  have kind : menu.kind = .disksMenu := by
    obtain ⟨id, content, bounds⟩ := menu
    cases content <;> cases listed
    rfl
  have found : s.find? .disksMenu = some menu := kind ▸ sound.find?_of_mem showing
  simp only [imageAt?, found, listed, Option.bind_eq_bind, Option.bind_some, image]

theorem imageAt?_eq_none
    (missing : ∀ menu ∈ s.stack, ∀ images, menu.images? = some images → images[index]? = none) :
    imageAt? s index = none := by
  refine Option.eq_none_iff_forall_ne_some.2 fun path image => ?_
  obtain ⟨menu, found, image⟩ := Option.bind_eq_some_iff.1 image
  obtain ⟨images, listed, image⟩ := Option.bind_eq_some_iff.1 image
  cases image.symm.trans (missing menu (List.mem_of_find?_eq_some found) images listed)

/-- Without an image at the index, nothing happens. -/
theorem run_chooseDisk_of_none (tell : Tell)
    (missing : imageAt? w.front.session.state index = none) :
    chooseDisk tell index driveA readOnly w = (.ok none, w) := by
  have reads : state w = (.ok w.front.session.state, w) := rfl
  rw [chooseDisk, run_bind, reads]
  simp only [missing]
  rfl

/-- An image that is listed is sent to the engine, and the picker taken off. -/
theorem yields_chooseDisk (sound : w.front.session.state.Sound) (listens : tell.Listens)
    (free : w.front.session.locked = false) (listening : w.engine.reactions = [])
    (image : imageAt? w.front.session.state index = some path) :
    (chooseDisk tell index driveA readOnly).Yields w (some path)
      (w.front.session.state.without [.disksMenu])
      (⟨.chooseDisk path driveA readOnly, w.front.session.state⟩ ::
        w.front.session.state.resuming [.disksMenu]) := by
  refine yields_state ?_
  simp only [image]
  refine yields_work (Work.quiet_log _ _) listening ?_
  refine (listens (.chooseDisk path driveA readOnly) (w.after _) listening).bind fun v told => ?_
  have closable : dismiss tell .disksMenu v = popNamed tell .disksMenu v :=
    run_dismiss_eq fun o found => isDismissable_of_find? found (by decide)
  have closed := yields_popNamed_of_sound told.state sound listens (told.free free) told.listening
    .disksMenu
  exact (closed.of_run_eq closable).map fun _ => some path

end FrontEnd

/-- From one world to another, the engine receives a call before anything else happens, and once it has
done its part from inside the call, the picker is closed. -/
def World.Inserts (w : World) (call : EngineCall) (v : World) : Prop :=
  ∃ poisoned t inner rest, v.machine.trace = w.machine.trace ++
      .told w.front.engine call ⟨w.front.session.state, false, poisoned⟩ :: (inner ++ rest) ∧
    Moves w.front.engine w.front.session.state inner t ∧ (StackOp.dismiss .disksMenu).Plays t rest

/-- From one world to another, the engine receives a call before anything else happens. -/
def World.Tells (w : World) (call : EngineCall) (v : World) : Prop :=
  ∃ poisoned events, v.machine.trace = w.machine.trace ++
    .told w.front.engine call ⟨w.front.session.state, false, poisoned⟩ :: events

theorem World.Inserts.tells {w v : World} {call : EngineCall} (h : w.Inserts call v) :
    w.Tells call v := by
  obtain ⟨poisoned, _, inner, rest, trace, -⟩ := h
  exact ⟨poisoned, inner ++ rest, trace⟩

namespace FrontEnd

variable {tell : Tell} {w : World} {index : Nat} {path : Path} {driveA readOnly : Bool}

/-- Whatever the engine does from inside the call, the picker is closed thereafter. -/
theorem ensures_chooseDisk (h : tell.Follows) (sound : w.front.session.state.Sound)
    (free : w.front.session.locked = false)
    (image : imageAt? w.front.session.state index = some path) :
    (chooseDisk tell index driveA readOnly).Ensures w
      (fun answer v => answer = some path ∧ w.Inserts (.chooseDisk path driveA readOnly) v)
      (w.Tells (.chooseDisk path driveA readOnly)) := by
  refine ensures_bind.2 (ensures_state.2 ?_)
  simp only [image]
  apply (still_log _ _ w).andThen
  intro _ u logged
  have free' : u.scene.session.locked = false := logged ▸ free
  refine (h _ u free').bind (fun _ v goes => ?_) fun v broken => ?_
  · rw [logged] at goes
    obtain ⟨_, trace, poisoned, inner, rfl, course⟩ := goes.events
    have sound' : v.scene.session.state.Sound := course.moves.sound sound
    have inserted : ∀ q : World, (StackOp.dismiss .disksMenu).Played v.scene q.scene →
        w.Inserts (.chooseDisk path driveA readOnly) q := by
      rintro q ⟨rest, trace', plays⟩
      refine ⟨poisoned, _, inner, rest, ?_, course.moves, plays⟩
      rw [show q.machine.trace = _ from trace', trace, List.append_assoc]
      rfl
    exact (StackOp.ensures_played_dismiss h goes.free sound' .disksMenu).bind
      (fun _ q played => ⟨rfl, inserted q played⟩) fun q played => (inserted q played).tells
  · rw [logged] at broken
    obtain ⟨_, trace, poisoned, inner, rfl, -⟩ := broken.events
    exact ⟨poisoned, inner, trace⟩

end FrontEnd

namespace Run

open FrontEnd

/-- From any session state that a run comes by: A picker that is showing lists the disk images of a
directory, each plain file in it that is named like one, once and in ascending order, whatever the
order in which the directory is read. It was put on under its number, and lists what stood there when
it was opened. One that is opened lists what stands in its directory by then, and no second one is
opened. To choose an image that it lists tells the engine of that image, and thereafter takes off the
picker alone, with a resume if no overlay is left and neither the startup nor the host holds the
engine. To choose anything else does nothing. -/
theorem disk_picker_chooses (r : Run) {history : List Event} {s : SessionState}
    (reaches : r.Reaches history s) :
    (∀ menu ∈ s.stack, ∀ images, menu.images? = some images →
      (∃ (t : Storage.Tree) (directory : Path) (names : List Storage.Name),
        t.ListsDisks directory images names ∧
        ∀ t', t.SameEntries t' → t'.diskImages directory = images) ∧
      (∃ put, .pushed put ∈ changesOf history ∧ put.id = menu.id) ∧
      ∀ (w v : World) (directory : Path), w.Opens directory v → v.machine.trace <+: history →
        w.machine.nextSurface = menu.id → images = w.machine.disk.tree.diskImages directory) ∧
    ∀ (w : World) (depth : Nat), w.front.session.state = s → w.front.session.locked = false →
      let tell := tellWithin depth
      (s.shows .disksMenu = false →
        (showDisks tell).Ensures w (fun _ v => w.Opens w.front.config.disksDir v)
          (w.Opens w.front.config.disksDir) ∧
        ∀ directory,
          (do present tell (← (OverlaySpec.disksMenu directory).made)).Ensures w
            (fun _ v => w.Opens directory v) (w.Opens directory) ∧
          ∀ site, (do push tell site (← (OverlaySpec.disksMenu directory).made)).Ensures w
            (fun _ v => w.Opens directory v) (w.Opens directory)) ∧
      (s.shows .disksMenu = true → showDisks tell w = (.ok false, w)) ∧
      ∀ (index : Nat) (driveA readOnly : Bool),
        (∀ menu ∈ s.stack, ∀ images path, menu.images? = some images → images[index]? = some path →
          (chooseDisk tell index driveA readOnly).Ensures w
            (fun answer v => answer = some path ∧ w.Inserts (.chooseDisk path driveA readOnly) v)
            (w.Tells (.chooseDisk path driveA readOnly)) ∧
          (w.engine.reactions = [] →
            (chooseDisk tell index driveA readOnly).Yields w (some path) (s.without [.disksMenu])
              (⟨.chooseDisk path driveA readOnly, s⟩ :: s.resuming [.disksMenu]))) ∧
        ((∀ menu ∈ s.stack, ∀ images, menu.images? = some images → images[index]? = none) →
          chooseDisk tell index driveA readOnly w = (.ok none, w)) := by
  refine ⟨fun menu showing images listed => ?_, ?_⟩
  · obtain ⟨lists, put, kept⟩ := reaches.picker showing
    obtain ⟨t, directory, rfl⟩ := lists images listed
    obtain ⟨names, whole⟩ := t.exists_listsDisks directory
    refine ⟨⟨t, directory, names, whole, fun t' same => (same.diskImages_eq directory).symm⟩, put,
      fun w v opened opens since number => ?_⟩
    have same := (kept _ (opens.pushed_mem since) number).trans listed
    exact (Option.some.inj same).symm
  · rintro w depth rfl free tell
    have follows := follows_tellWithin depth
    have sound : w.front.session.state.Sound := reaches.sound
    refine ⟨fun absent => ⟨ensures_opens_showDisks follows free absent, fun directory =>
      ⟨ensures_opens_present follows directory free absent,
        fun site => ensures_opens_push follows site directory free absent⟩⟩, run_showDisks_of_shows tell,
      fun index driveA readOnly => ⟨fun menu showing images path listed image => ?_,
        fun missing => run_chooseDisk_of_none tell (imageAt?_eq_none missing)⟩⟩
    have chosen := imageAt?_eq_some sound showing listed image
    exact ⟨ensures_chooseDisk follows sound free chosen, fun listening =>
      yields_chooseDisk sound (listens_tellWithin depth) free listening chosen⟩

/-- A run in which a picker is opened over the splash screen, and the disk images change thereafter. -/
def imagesChanged : Run where
  machine := .new (Storage.Disk.empty.actAll [.putFile ⟨"data/disks/b.po.gz"⟩ [],
    .putFile ⟨"data/disks/notes.txt"⟩ []])
  config := .new ⟨"data"⟩
  reactions := []
  ops := [.host (.graphicsReady 800 480), .host (.pressSplash .disks),
    .machine (.changeDisk [.removeAll ⟨"data/disks/b.po.gz"⟩, .putFile ⟨"data/disks/a.nib"⟩ []])]

/-- The image that was listed is sent to the engine, though its file is gone and another has come.
The splash screen stays, so that the engine does not resume. There is no second image. -/
theorem disk_picker_chooses_imagesChanged :
    imagesChanged.final.machine.disk.tree.isFile ⟨"data/disks/b.po.gz"⟩ = false ∧
    (∃ left : SessionState, left.stack.map Overlay.kind = [.splashScreen] ∧
      (chooseDisk (tellWithin 0) 0 true false).Yields imagesChanged.final
        (some ⟨"data/disks/b.po.gz"⟩) left
        [⟨.chooseDisk ⟨"data/disks/b.po.gz"⟩ true false, imagesChanged.state⟩]) ∧
    chooseDisk (tellWithin 0) 1 true false imagesChanged.final = (.ok none, imagesChanged.final) := by
  have free : imagesChanged.final.front.session.locked = false := by decide +kernel
  have listening : imagesChanged.final.engine.reactions = [] := by decide +kernel
  have gone : imagesChanged.final.machine.disk.tree.isFile ⟨"data/disks/b.po.gz"⟩ = false := by
    decide +kernel
  have showing : imagesChanged.state.stack.map Overlay.images? =
      [some [⟨"data/disks/b.po.gz"⟩], none] := by decide +kernel
  have left : (imagesChanged.state.without [.disksMenu]).stack.map Overlay.kind = [.splashScreen] ∧
      imagesChanged.state.resuming [.disksMenu] = [] := by decide +kernel
  obtain ⟨-, choices⟩ := imagesChanged.disk_picker_chooses .final
  obtain ⟨-, -, chosen⟩ := choices imagesChanged.final 0 rfl free
  refine ⟨gone, ⟨_, left.1, ?_⟩, (chosen 1 true false).2 fun menu member images listed => ?_⟩
  · have picker : some [⟨"data/disks/b.po.gz"⟩] ∈ imagesChanged.state.stack.map Overlay.images? := by
      rw [showing]
      exact List.mem_cons_self
    obtain ⟨menu, member, listed⟩ := List.mem_map.1 picker
    have sent := ((chosen 0 true false).1 menu member _ _ listed rfl).2 listening
    rw [left.2] at sent
    exact sent
  · have among : some images ∈ imagesChanged.state.stack.map Overlay.images? :=
      List.mem_map.2 ⟨menu, member, listed⟩
    rw [showing] at among
    obtain rfl : images = [⟨"data/disks/b.po.gz"⟩] := by simpa using among
    rfl

end Run
end EmuFront
