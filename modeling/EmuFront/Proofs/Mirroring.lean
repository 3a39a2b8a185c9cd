import EmuFront.Proofs.Attempts
import EmuFront.Proofs.Passage
import EmuFront.Proofs.Renumbering
import EmuFront.Proofs.Scanning

/-!
# Two worlds side by side

A world mirrors another if it differs from it in what no operation on a front end asks for: the numbers
of overlays, a lock that is poisoned, and files that are no disk images. An action does the same in both
and leaves them mirroring each other. Where the one gives an overlay, the other gives it under its other
number.
-/

namespace EmuFront

open Storage Storage.Tree

/-! ## Machines -/

/-- Adding to a crash file leaves disk images alone, whether it comes about or not. -/
theorem Storage.Disk.toOption_filesIn_append (d : Disk) (dataDir : Path) (text : Text.Bytes)
    (directory : Path) :
    ((d.append (managedCrashFile dataDir) text).2.tree.filesIn directory DiskImage.isName).toOption =
      (d.tree.filesIn directory DiskImage.isName).toOption := by
  have changed : d.Changed (managedCrashFile dataDir) (fun old => old ++ text)
      (d.append (managedCrashFile dataDir) text).1 (d.append (managedCrashFile dataDir) text).2 :=
    d.changed_changeFile _ _
  revert changed
  cases (d.append (managedCrashFile dataDir) text).1 with
  | error e =>
    intro changed
    rw [changed.1.1]
  | ok _ =>
    intro changed
    refine toOption_filesIn_write changed.1 (fun front name led => ?_) directory
    rw [CrashArtifact.managedCrashFile_eq] at led
    obtain ⟨place, same⟩ := exists_of_walk_join CrashArtifact.isText_managedName led
    obtain rfl := List.singleton_inj.1 (List.append_inj_right' same rfl)
    rw [CrashArtifact.text_managedName]
    decide

namespace Machine

/-- The disk images in a directory, if it can be read. -/
def images (m : Machine) (directory : Path) : Option (List Path) :=
  (m.disk.tree.filesIn directory DiskImage.isName).toOption

/-- A machine on which some events were shown since, and no more has changed than files that are no
disk images. -/
structure Shows (events : List Event) (m m' : Machine) : Prop where
  numbering : m'.nextSurface = m.nextSurface
  capture : m'.capture = m.capture
  configured : m'.configured = m.configured
  images : ∀ directory, m'.images directory = m.images directory
  events : ∃ added, m'.timeline = m.timeline ++ added ∧ shownIn added = events

/-- A machine that is like another but for the numbers that it gives, which are as `f` has them. -/
structure Mirrors (f : Nat → Nat) (m m' : Machine) : Prop where
  numbering : ∀ k, m'.nextSurface + k = f (m.nextSurface + k)
  capture : m'.capture = m.capture
  configured : m'.configured = m.configured
  images : ∀ directory, m'.images directory = m.images directory

/-- From one machine to the next the same was shown as from a second machine to its next. -/
def Alongside (f : Nat → Nat) (m v m' v' : Machine) : Prop :=
  ∃ added added', v.timeline = m.timeline ++ added ∧ v'.timeline = m'.timeline ++ added' ∧
    shownIn added' = (shownIn added).map (Event.renumber f)

variable {f : Nat → Nat} {u v w u' v' w' : Machine}

theorem Alongside.refl (u u' : Machine) : Alongside f u u u' u' :=
  ⟨[], [], (List.append_nil _).symm, (List.append_nil _).symm, rfl⟩

/-- What two machines show alongside adds up. -/
theorem Alongside.trans (first : Alongside f u v u' v') (rest : Alongside f v w v' w') :
    Alongside f u w u' w' := by
  obtain ⟨xs, xs', timeline, timeline', shown⟩ := first
  obtain ⟨ys, ys', later, later', shown'⟩ := rest
  refine ⟨xs ++ ys, xs' ++ ys', ?_, ?_, ?_⟩
  · rw [later, timeline, List.append_assoc]
  · rw [later', timeline', List.append_assoc]
  · rw [shownIn_append, shownIn_append, List.map_append, shown, shown']

theorem Shows.refl (m : Machine) : m.Shows [] m :=
  ⟨rfl, rfl, rfl, fun _ => rfl, [], (List.append_nil _).symm, rfl⟩

/-- Events are shown one part after the other. -/
theorem Shows.trans {first rest : List Event} (before : u.Shows first v) (after : v.Shows rest w) :
    u.Shows (first ++ rest) w := by
  obtain ⟨xs, timeline, shown⟩ := before.events
  obtain ⟨ys, timeline', shown'⟩ := after.events
  refine ⟨after.numbering.trans before.numbering, after.capture.trans before.capture,
    after.configured.trans before.configured, fun d => (after.images d).trans (before.images d),
    xs ++ ys, ?_, ?_⟩
  · rw [timeline', timeline, List.append_assoc]
  · rw [shownIn_append, shown, shown']

/-- What two machines show that mirror each other leaves them so, if it is the same but for the
numbers. -/
theorem Mirrors.shows {events : List Event} (mirrors : u.Mirrors f u') (one : u.Shows events v)
    (other : u'.Shows (events.map (Event.renumber f)) v') :
    v.Mirrors f v' ∧ Alongside f u v u' v' := by
  obtain ⟨added, timeline, shown⟩ := one.events
  obtain ⟨added', timeline', shown'⟩ := other.events
  refine ⟨⟨fun k => ?_, ?_, ?_, fun d => ?_⟩, added, added', timeline, timeline', ?_⟩
  · rw [other.numbering, one.numbering, mirrors.numbering]
  · rw [other.capture, one.capture, mirrors.capture]
  · rw [other.configured, one.configured, mirrors.configured]
  · rw [other.images, one.images, mirrors.images]
  · rw [shown', shown]

/-- To mirror a machine it makes no difference what is shown before. -/
theorem Shows.mirrors {events : List Event} (shows : u.Shows events v) (mirrors : v.Mirrors f w) :
    u.Mirrors f w where
  numbering := by
    rw [← shows.numbering]
    exact mirrors.numbering
  capture := mirrors.capture.trans shows.capture
  configured := mirrors.configured.trans shows.configured
  images := fun directory => (mirrors.images directory).trans (shows.images directory)

/-- A machine goes on mirroring another when it shows something of its own. -/
theorem Mirrors.showing {events : List Event} (mirrors : u.Mirrors f v) (shows : v.Shows events w) :
    u.Mirrors f w where
  numbering := by
    rw [shows.numbering]
    exact mirrors.numbering
  capture := shows.capture.trans mirrors.capture
  configured := shows.configured.trans mirrors.configured
  images := fun directory => (shows.images directory).trans (mirrors.images directory)

end Machine

/-! ## Work -/

namespace Work

variable {α β : Type} {f : Nat → Nat} {first rest events : List Event}

/-- Work that shows some events, whatever the machine, and changes no more than files that are no disk
images. -/
def Shows (part : Work α) (events : List Event) : Prop :=
  ∀ m : Machine, m.Shows events (part m).2

theorem Shows.pure (a : α) : Shows (Pure.pure a) [] := fun m => .refl m

/-- Work in a row shows its events in a row. -/
theorem Shows.bind {part : Work α} {next : α → Work β} (before : part.Shows first)
    (after : ∀ a, (next a).Shows rest) : (part >>= next).Shows (first ++ rest) :=
  fun m => (before m).trans (after _ _)

/-- What shows nothing can be left out. -/
theorem Shows.next {part : Work α} {next : α → Work β} (before : part.Shows [])
    (after : ∀ a, (next a).Shows events) : (part >>= next).Shows events := before.bind after

/-- What comes last may show nothing. -/
theorem Shows.andThen {part : Work α} {next : α → Work β} (before : part.Shows events)
    (after : ∀ a, (next a).Shows []) : (part >>= next).Shows events := by
  have both := before.bind after
  rwa [List.append_nil] at both

/-- An event is shown if it is one of those that are. -/
theorem shows_observe (e : Event) : (observe e).Shows e.shown?.toList := by
  refine fun m => ⟨rfl, rfl, rfl, fun _ => rfl, [e], rfl, ?_⟩
  unfold shownIn
  cases shown : e.shown? with
  | none => exact List.filterMap_cons_none shown
  | some e' => exact List.filterMap_cons_some shown

theorem shows_log (level : LogLevel) (message : String) : (log level message).Shows [] :=
  shows_observe (.logged level message)

/-- A call that is taken over shows that it was, or why it was not. -/
theorem shows_cross (engine : EngineRef) (call : Except String Native.NativeCall) :
    (cross engine call).Shows (shownIn (crossing engine call)) := by
  intro m
  rw [run_cross]
  exact ⟨rfl, rfl, rfl, fun _ => rfl, _, rfl, rfl⟩

/-- An operation on the disk shows nothing if it leaves the disk images alone. -/
theorem shows_onDisk {operation : Disk → α × Disk}
    (images : ∀ d directory, ((operation d).2.tree.filesIn directory DiskImage.isName).toOption =
      (d.tree.filesIn directory DiskImage.isName).toOption) : (onDisk operation).Shows [] :=
  fun m => ⟨rfl, rfl, rfl, images m.disk, [], (List.append_nil _).symm, rfl⟩

/-- Adding to a crash file shows that it was opened, whether it can be written or not. -/
theorem shows_persist (r : CrashRecord) (directory : Path) :
    (r.persist directory).Shows [.opened (managedCrashFile directory) .writing] := by
  have appended : ∀ text, (onDisk fun d => d.append (managedCrashFile directory) text).Shows [] :=
    fun text => shows_onDisk fun d => d.toOption_filesIn_append directory text
  have opened : ∀ text, (append (managedCrashFile directory) text).Shows
      [.opened (managedCrashFile directory) .writing] := fun text =>
    (shows_observe (.opened (managedCrashFile directory) .writing)).bind fun _ => appended text
  refine (opened (Text.utf8 r.text)).andThen fun result => ?_
  split <;> exact .pure _

/-- The events that a failure shows that is recorded. -/
def recording (c : CrashCapture) (kind : CrashKind) (trace : String) : List Event :=
  .opened (managedCrashFile c.dataDir) .writing ::
    shownIn (passingOn c.engine c.homeDir
      (CrashRecord.managed c.fingerprint kind trace c.budget).text)

/-- The record goes to a crash file, which is no disk image, and to the engine. -/
theorem shows_recordQuietly (c : CrashCapture) (kind : CrashKind) (trace : String) :
    (c.recordQuietly kind trace).Shows (recording c kind trace) := by
  have passedOn : ∀ text, (passOn c.engine c.homeDir text).Shows
      (shownIn (passingOn c.engine c.homeDir text)) := fun text =>
    (shows_observe _).bind fun _ => shows_cross _ _
  have recorded : (c.record kind trace).Shows (recording c kind trace) :=
    (shows_persist _ _).bind fun _ => (passedOn _).andThen fun _ => .pure _
  refine recorded.andThen fun result => ?_
  split
  · exact .pure ()
  · exact shows_log _ _

/-- The events that a panic shows. -/
def panicking (installed : Option CrashCapture) (p : Panic) : List Event :=
  match installed with
  | none => [.chained p.message]
  | some c => recording c .panic p.trace ++ [.chained p.message]

/-- A panic goes on to whoever looked after it before, and is recorded first if a capture is
installed. -/
theorem run_onPanic (p : Panic) (m : Machine) :
    onPanic p m = (match m.capture with
      | none => observe (.chained p.message)
      | some c => do
        c.recordQuietly .panic p.trace
        observe (.chained p.message) : Work Unit) m := rfl

/-- A panic shows what the installed capture makes of it. -/
theorem shows_onPanic (p : Panic) (m : Machine) :
    m.Shows (panicking m.capture p) (onPanic p m).2 := by
  have chained : (observe (.chained p.message)).Shows [.chained p.message] := shows_observe _
  rw [run_onPanic]
  cases m.capture with
  | none => exact chained m
  | some c => exact (shows_recordQuietly c .panic p.trace).bind (fun _ => chained) m

/-! ### Events without numbers -/

/-- The calls that are taken over name no overlay by its number. -/
theorem renumber_crossing (engine : EngineRef) (call : Except String Native.NativeCall) :
    (shownIn (crossing engine call)).map (Event.renumber f) = shownIn (crossing engine call) := by
  unfold crossing
  split <;> rfl

/-- Nor do the records of a panic. -/
theorem renumber_panicking (installed : Option CrashCapture) (p : Panic) :
    (panicking installed p).map (Event.renumber f) = panicking installed p := by
  cases installed with
  | none => rfl
  | some c =>
    have crossed := renumber_crossing (f := f) c.engine (Native.NativeCall.ofFailure c.homeDir
      (CrashRecord.managed c.fingerprint .panic p.trace c.budget).text)
    rw [panicking, List.map_append]
    refine congrArg (· ++ [Event.chained p.message]) ?_
    exact congrArg (fun events => _ :: _ :: events) crossed

/-! ### Work on machines that mirror each other -/

/-- Work on one machine and on another that mirrors it shows the same and leaves them mirroring each
other. On the other it gives what it gives on the one, as `ren` has it. -/
def Mirrors (f : Nat → Nat) (ren : α → α) (part part' : Work α) : Prop :=
  ∀ m m' : Machine, m.Mirrors f m' → (part' m').1 = ren (part m).1 ∧
    (part m).2.Mirrors f (part' m').2 ∧ Machine.Alongside f m (part m).2 m' (part' m').2

variable {ren : α → α}

/-- Work that does the same and gives the same on machines that mirror each other. -/
def Agrees (f : Nat → Nat) (part : Work α) : Prop := part.Mirrors f id part

theorem Mirrors.pure (ren : α → α) (a : α) :
    Mirrors f ren (Pure.pure a) (Pure.pure (ren a)) :=
  fun m m' mirrors => ⟨rfl, mirrors, .refl m m'⟩

/-- Work mirrors work one after the other, with the renamed result handed on. -/
theorem Mirrors.bind {ren' : β → β} {part part' : Work β} {next next' : β → Work α}
    (before : part.Mirrors f ren' part') (after : ∀ b, (next b).Mirrors f ren (next' (ren' b))) :
    (part >>= next).Mirrors f ren (part' >>= next') := by
  intro m m' mirrors
  obtain ⟨result, between, shown⟩ := before m m' mirrors
  obtain ⟨result', mirrors', shown'⟩ := after (part m).1 _ _ between
  rw [← result] at result' mirrors' shown'
  exact ⟨result', mirrors', shown.trans shown'⟩

/-- Two pieces of work mirror each other if they show the same events, up to numbers. -/
theorem Shows.mirrors {part part' : Work Unit} (one : part.Shows events)
    (other : part'.Shows (events.map (Event.renumber f))) : part.Mirrors f id part' := by
  intro m m' mirrors
  exact ⟨rfl, mirrors.shows (one m) (other m')⟩

/-- An event may be replaced by one that shows the same. -/
theorem mirrors_observe {e e' : Event} (shown : e'.shown? = e.shown?.map (Event.renumber f)) :
    (observe e).Mirrors f id (observe e') := by
  refine (shows_observe e).mirrors ?_
  have other := shows_observe e'
  rw [shown, Option.toList_map] at other
  exact other

/-- Log lines are not shown, whatever they say. -/
theorem mirrors_log (level level' : LogLevel) (message message' : String) :
    (log level message).Mirrors f id (log level' message') :=
  (shows_log level message).mirrors (shows_log level' message')

theorem agrees_cross (engine : EngineRef) (call : Except String Native.NativeCall) :
    (cross engine call).Agrees f := by
  refine (shows_cross engine call).mirrors ?_
  rw [renumber_crossing]
  exact shows_cross engine call

/-- Both machines have the same capture, and record a panic alike. -/
theorem agrees_onPanic (p : Panic) : (onPanic p).Agrees f := by
  intro m m' mirrors
  have other := shows_onPanic p m'
  rw [mirrors.capture, ← renumber_panicking (f := f)] at other
  exact ⟨rfl, mirrors.shows (shows_onPanic p m) other⟩

/-- What is read of the machine makes no difference if it is the same on both. -/
theorem agrees_get {next : Machine → Work α}
    (same : ∀ m m' : Machine, m.Mirrors f m' → next m' = next m) (after : ∀ m, (next m).Agrees f) :
    (get >>= next).Agrees f := by
  intro m m' mirrors
  have alike : (next m).Mirrors f id (next m') := by
    rw [same m m' mirrors]
    exact after m
  exact alike m m' mirrors

/-- A capture is installed on both machines or on neither. -/
theorem agrees_install (c : CrashCapture) : (install c).Agrees f := by
  have set : (modify fun p => { p with capture := some c } : Work PUnit).Agrees f :=
    fun m m' mirrors =>
      ⟨rfl, ⟨mirrors.numbering, rfl, mirrors.configured, mirrors.images⟩,
        [], [], (List.append_nil _).symm, (List.append_nil _).symm, rfl⟩
  refine agrees_get (fun m m' mirrors => ?_) fun m => ?_
  · rw [mirrors.capture]
  · split
    · exact (mirrors_log _ _ _ _).bind fun _ => .pure id false
    · exact set.bind fun _ => (mirrors_log _ _ _ _).bind fun _ => .pure id true

/-- The setup before the first start is due on both machines or on none. -/
theorem agrees_ensureConfigured {ε : Type} (dataDir : Path) {setUp : Path → Work (Except ε Unit)}
    (setsUp : (setUp dataDir).Agrees f) : (ensureConfigured dataDir setUp).Agrees f := by
  have begun : (observe (.setUp dataDir)).Agrees f := mirrors_observe rfl
  have marked : (modify fun p => { p with configured := true } : Work PUnit).Agrees f :=
    fun m m' mirrors =>
      ⟨rfl, ⟨mirrors.numbering, mirrors.capture, rfl, mirrors.images⟩,
        [], [], (List.append_nil _).symm, (List.append_nil _).symm, rfl⟩
  refine agrees_get (fun m m' mirrors => ?_) fun m => ?_
  · rw [mirrors.configured]
  · split
    · exact .pure id _
    · refine (mirrors_log _ _ _ _).bind fun _ => begun.bind fun _ => setsUp.bind fun result => ?_
      cases result with
      | error e => exact .pure id _
      | ok _ => exact marked.bind fun _ => .pure id _

/-! ### Overlays made on machines that mirror each other -/

/-- Each machine gives its own next number. -/
theorem mirrors_makeOverlay (content : OverlayContent) :
    (makeOverlay content).Mirrors f (Overlay.renumber f) (makeOverlay content) := by
  intro m m' mirrors
  refine ⟨congrArg (Overlay.mk · content none) (mirrors.numbering 0), ⟨fun k => ?_, mirrors.capture,
    mirrors.configured, mirrors.images⟩, [], [], (List.append_nil _).symm, (List.append_nil _).symm,
    rfl⟩
  show m'.nextSurface + 1 + k = f (m.nextSurface + 1 + k)
  rw [Nat.add_assoc, Nat.add_assoc, mirrors.numbering]

/-- Disk images are found in the order of their names, and a directory that cannot be read is only
logged. -/
theorem run_scanDiskImages (directory : Path) (m : Machine) :
    (scanDiskImages directory m).1 = (m.images directory).getD [] ∧
      m.Shows [.listed directory] (scanDiskImages directory m).2 := by
  have logged : ∀ e : OsError, (do
      log .warn s!"Cannot list disk images in {directory.text}: {e.message}"
      return [] : Work (List Path)).Shows [] := fun e => (shows_log _ _).next fun _ => .pure []
  have listed := shows_observe (.listed directory) m
  unfold scanDiskImages
  rw [run_bind, run_filesIn, Machine.images]
  cases m.disk.tree.filesIn directory DiskImage.isName with
  | ok images => exact ⟨rfl, listed⟩
  | error e => exact ⟨rfl, listed.trans (logged e _)⟩

/-- Both machines hold the same disk images and list the same. -/
theorem agrees_scanDiskImages (directory : Path) : (scanDiskImages directory).Agrees f := by
  intro m m' mirrors
  obtain ⟨found, shown⟩ := run_scanDiskImages directory m
  obtain ⟨found', shown'⟩ := run_scanDiskImages directory m'
  refine ⟨?_, mirrors.shows shown shown'⟩
  rw [found', mirrors.images, found, id]

/-- A new overlay has the same content on both machines and its own number on each. -/
theorem mirrors_make (spec : OverlaySpec) :
    (OverlayStack.make spec).Mirrors f (Overlay.renumber f) (OverlayStack.make spec) := by
  cases spec with
  | disksMenu directory =>
    exact (agrees_scanDiskImages directory).bind fun images => mirrors_makeOverlay _
  | splash | mainMenu | settingsMenu | confirm => exact mirrors_makeOverlay _

end Work
end EmuFront
