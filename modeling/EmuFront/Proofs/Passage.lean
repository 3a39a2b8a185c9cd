import EmuFront.Proofs.Course

/-!
# Passages of a world

What can happen to a front end and its machine, without the program that makes it happen. A
`Passage` is put together from a few kinds of steps: what is a matter of course (`World.Plain`), the
crash capture being installed and used, calls to the engine, changes of the session, and overlays
being numbered, put on, refused and taken off. It ends with a result or in a panic.

A removal is one step with all that the engine does from inside its signal: what was taken off is
given back at the end, or lost to a panic on the way.
-/

namespace EmuFront

open Storage

/-! ## Matters of course -/

/-- Whether an event is a matter of course: nothing about overlays, engines or failures. -/
def Event.isPlain : Event → Bool
  | .committed .. | .refused .. | .returned .. | .told .. | .failed .. | .crossed .. => false
  | _ => true

/-- What routine work adds to the timeline is a matter of course. -/
theorem Event.isPlain_of_isRoutine {e : Event} (routine : e.isRoutine = true) :
    e.isPlain = true := by
  cases e <;> simp_all [isRoutine, isPlain]

/-- A machine on which nothing has happened but a matter of course. Its files may have changed. -/
structure Machine.Plain (m m' : Machine) : Prop where
  numbering : m'.nextSurface = m.nextSurface
  capture : m'.capture = m.capture
  events : ∃ added, m'.timeline = m.timeline ++ added ∧ ∀ e ∈ added, e.isPlain = true

namespace Machine.Plain

variable {m m' m'' : Machine}

theorem refl (m : Machine) : m.Plain m := ⟨rfl, rfl, [], (List.append_nil _).symm, by simp⟩

theorem trans (first : m.Plain m') (second : m'.Plain m'') : m.Plain m'' := by
  obtain ⟨xs, timeline, plain⟩ := first.events
  obtain ⟨ys, timeline', plain'⟩ := second.events
  refine ⟨second.numbering.trans first.numbering, second.capture.trans first.capture, xs ++ ys, ?_,
    List.forall_mem_append.2 ⟨plain, plain'⟩⟩
  rw [timeline', timeline, List.append_assoc]

end Machine.Plain

/-! ## Plain work -/

namespace Work

variable {α β ε : Type}

/-- Work that is a matter of course. -/
def Plain (part : Work α) : Prop := ∀ m : Machine, m.Plain (part m).2

theorem Plain.pure (a : α) : Plain (Pure.pure a) := fun m => .refl m

theorem Plain.get : Plain (MonadState.get : Work Machine) := fun m => .refl m

theorem Plain.bind {part : Work α} {next : α → Work β} (first : Plain part)
    (rest : ∀ a, Plain (next a)) : Plain (part >>= next) :=
  fun m => (first m).trans (rest _ _)

/-- Watching work adds nothing to what it does. -/
theorem Plain.watch {part : Work α} (h : Plain part) : Plain (watch part) :=
  .bind .get fun _ => .bind h fun _ => .bind .get fun _ => .pure _

theorem plain_observe {e : Event} (plain : e.isPlain = true) : Plain (observe e) :=
  fun _ => ⟨rfl, rfl, [e], rfl, by simpa using plain⟩

/-- Routine work is a matter of course, by induction on how it is put together. -/
theorem Routine.plain {part : Work α} (h : Routine part) : Plain part := by
  induction h with
  | pure a => exact .pure a
  | bind _ _ first rest => exact first.bind rest
  | observe routine => exact plain_observe (Event.isPlain_of_isRoutine routine)
  | onDisk operation => exact fun m => ⟨rfl, rfl, [], (List.append_nil _).symm, by simp⟩

theorem plain_log (level : LogLevel) (message : String) : Plain (log level message) :=
  (routine_log level message).plain

/-- The setup before the first start is a matter of course where the setup of the host is. -/
theorem plain_ensureConfigured {dataDir : Path} {setUp : Path → Work (Except ε Unit)}
    (h : ∀ directory, Plain (setUp directory)) : Plain (ensureConfigured dataDir setUp) := by
  apply Plain.bind .get
  intro m
  split
  · exact .pure _
  · apply Plain.bind (plain_log _ _)
    intro _
    apply Plain.bind (plain_observe rfl)
    intro _
    apply Plain.bind (h dataDir)
    intro result
    split
    · exact .pure _
    · exact .bind (fun m => ⟨rfl, rfl, [], (List.append_nil _).symm, by simp⟩) fun _ => .pure _

/-- Handing a report over is a matter of course if sending it is. -/
theorem plain_transmit (r : CrashReporter) {send : Path → Work (Except Failure Unit)}
    (h : ∀ report, Plain (send report)) : Plain (r.transmit send) := by
  apply Plain.bind (routine_scanArtifacts _).plain
  intro artifacts
  split
  · exact .pure _
  · split
    · exact .bind (plain_log _ _) fun _ => .pure _
    · apply Plain.bind (routine_aggregate _ _).plain
      intro report
      apply Plain.bind (routine_writeAggregate _ _).plain
      intro written
      split
      · exact .pure _
      · apply Plain.bind (plain_observe rfl)
        intro _
        apply Plain.bind (h _)
        intro outcome
        split
        · exact .pure _
        · exact .bind (plain_log _ _) fun _ => .bind (routine_delete _).plain fun _ => .pure _

/-! ## Crossings -/

/-- The events of taking a call over to an engine. -/
def crossing (engine : EngineRef) (call : Except String Native.NativeCall) : List Event :=
  match engine.boundary, call with
  | .direct, _ => []
  | .native, .ok call => [.crossed engine call]
  | .native, .error reason => [.logged .warn (Failure.invalidString reason).message]

/-- A call that is taken over to native code is only added to the timeline. -/
theorem run_cross (engine : EngineRef) (call : Except String Native.NativeCall) (m : Machine) :
    cross engine call m = ((), { m with timeline := m.timeline ++ crossing engine call }) := by
  obtain ⟨_, boundary⟩ := engine
  cases boundary with
  | direct =>
    cases call <;> exact congrArg (fun t => ((), { m with timeline := t })) (List.append_nil _).symm
  | native => cases call <;> rfl

/-- The events of passing a failure on to an engine. -/
def passingOn (engine : EngineRef) (home : Path) (text : String) : List Event :=
  .failed engine home text :: crossing engine (Native.NativeCall.ofFailure home text)

/-- Passing a failure on to an engine only adds to the timeline, for the engine does not answer. -/
theorem run_passOn (engine : EngineRef) (home : Path) (text : String) (m : Machine) :
    passOn engine home text m =
      ((), { m with timeline := m.timeline ++ passingOn engine home text }) := by
  rw [passOn, run_bind, run_observe, run_cross, List.append_assoc]
  rfl

end Work

/-! ## What is recorded -/

/-- What is recorded from one machine to another is as said. -/
def Machine.Adds (p : List Event → Prop) (m m' : Machine) : Prop :=
  ∃ added, m'.timeline = m.timeline ++ added ∧ p added

namespace Machine.Adds

variable {p : List Event → Prop} {m m' m'' : Machine}

theorem refl (nothing : p []) (m : Machine) : m.Adds p m := ⟨[], (List.append_nil _).symm, nothing⟩

theorem trans (joins : ∀ {xs ys}, p xs → p ys → p (xs ++ ys)) (first : m.Adds p m')
    (rest : m'.Adds p m'') : m.Adds p m'' := by
  obtain ⟨xs, timeline, before⟩ := first
  obtain ⟨ys, timeline', after⟩ := rest
  refine ⟨xs ++ ys, ?_, joins before after⟩
  rw [timeline', timeline, List.append_assoc]

end Machine.Adds

/-! ## Worlds -/

/-- The disk images that are found in a directory, none if it cannot be read. -/
def Storage.Tree.diskImages (t : Tree) (directory : Path) : List Path :=
  (t.filesIn directory DiskImage.isName).toOption.getD []

namespace World

/-- A world in which nothing has happened but a matter of course. Its engine may have used up
reactions, and its lock may have been taken, freed or poisoned. -/
structure Plain (w v : World) : Prop where
  config : v.front.config = w.front.config
  engine : v.front.engine = w.front.engine
  state : v.front.session.state = w.front.session.state
  reactions : v.engine.reactions ⊆ w.engine.reactions
  machine : w.machine.Plain v.machine

theorem Plain.refl (w : World) : w.Plain w := ⟨rfl, rfl, rfl, List.Subset.refl _, .refl _⟩

theorem Plain.trans {u v w : World} (first : u.Plain v) (second : v.Plain w) : u.Plain w where
  config := second.config.trans first.config
  engine := second.engine.trans first.engine
  state := second.state.trans first.state
  reactions := List.Subset.trans second.reactions first.reactions
  machine := first.machine.trans second.machine

/-- The world after work on its machine. -/
def after {α : Type} (w : World) (part : Work α) : World := { w with machine := (part w.machine).2 }

/-- A world after plain work on its machine is plain. -/
theorem plain_after {α : Type} {part : Work α} (h : part.Plain) (w : World) :
    w.Plain (w.after part) :=
  ⟨rfl, rfl, rfl, List.Subset.refl _, h w.machine⟩

/-- The world with the session lock held or free. -/
def withLock (w : World) (held : Bool) : World :=
  { w with front := { w.front with session := { w.front.session with locked := held } } }

/-- The lock is none of what counts. -/
theorem plain_withLock (w : World) (held : Bool) : w.Plain (w.withLock held) :=
  ⟨rfl, rfl, rfl, List.Subset.refl _, .refl _⟩

/-- The world once an overlay has taken the next number. -/
def numbered (w : World) : World :=
  { w with machine := { w.machine with nextSurface := w.machine.nextSurface + 1 } }

/-- The world after a change of the session is committed. -/
def commit (w : World) (c : Change) : World := (Act.commit c w).2

/-- The world after the engine has received a call. -/
def told (w : World) (call : EngineCall) : World := (Act.deliver call w).2

/-- The events of the engine receiving a call. -/
def telling (w : World) (call : EngineCall) : List Event :=
  .told w.front.engine call w.front.session ::
    Work.crossing w.front.engine (Native.NativeCall.ofCall call)

/-- To tell the engine of a call is to add its events to the timeline. -/
theorem told_eq (w : World) (call : EngineCall) :
    w.told call = { w with machine.timeline := w.machine.timeline ++ w.telling call } := by
  show World.mk (Work.cross _ _ _).2 _ _ _ = _
  rw [Work.run_cross]
  simp [telling]

/-- The next overlay of a world, which shows something. -/
def next (w : World) (content : OverlayContent) : Overlay := ⟨w.machine.nextSurface, content, none⟩

/-- Whether a disk image picker, if that is what an overlay shows, lists the disk images of a
directory. -/
def ListsImages (w : World) (content : OverlayContent) : Prop :=
  ∀ images, content = .disksMenu images →
    ∃ directory, images = w.machine.disk.tree.diskImages directory

end World

/-- Whether a change puts an overlay on the stack or takes one off. -/
def Change.ofStack : Change → Bool
  | .pushed _ | .removed _ => true
  | _ => false

/-- What a call says of the world that it comes from, where only some operations are done. -/
def EngineCall.Genuine (allows : Op → Prop) (w : World) : EngineCall → Prop
  | create dataDir _ => dataDir = w.front.config.dataDir
  | touch sample => ∃ batch, allows (.host (.touch batch)) ∧ sample = batch.sample
  | chooseDisk path _ _ => ∃ menu ∈ w.front.session.state.stack, ∃ images,
      menu.images? = some images ∧ path ∈ images
  | _ => True

/-- What can happen to a world where only some operations are done: what comes to its end, or
(`true`) what ends in a panic. -/
inductive Passage (allows : Op → Prop) : Bool → World → World → Prop
  | plain {w v : World} (plain : w.Plain v) : Passage allows false w v
  | trans {broken : Bool} {u v w : World} (first : Passage allows false u v)
      (rest : Passage allows broken v w) : Passage allows broken u w
  /-- The crash capture of the front end is installed, or another that is asked for. -/
  | install {w : World} {c : CrashCapture} (missing : w.machine.capture = none)
      (asked : c = w.front.config.capture w.front.engine ∨
        ∃ config engine, allows (.machine (.install config engine)) ∧ c = config.capture engine) :
      Passage allows false w { w with machine := { w.machine with capture := some c } }
  | passOn {w : World} {c : CrashCapture} {text : String} (installed : w.machine.capture = some c) :
      Passage allows false w (w.after (Work.passOn c.engine c.homeDir text))
  | tell {w : World} {call : EngineCall} (genuine : call.Genuine allows w) :
      Passage allows false w (w.told call)
  | change {w : World} {c : Change} (apart : c.ofStack = false) : Passage allows false w (w.commit c)
  /-- An overlay is made and put on. -/
  | put {w : World} {content : OverlayContent}
      (absent : w.front.session.state.shows content.kind = false) (listed : w.ListsImages content) :
      Passage allows false w
        (w.numbered.commit (.pushed ((w.next content).attach w.front.session.state.bounds)))
  /-- An overlay is made, and kept off since one of its kind is showing. -/
  | refuse {w : World} {content : OverlayContent}
      (showing : w.front.session.state.shows content.kind = true) :
      Passage allows false w
        (w.numbered.after (Work.observe (.refused w.front.engine (w.next content))))
  /-- An overlay is taken off, and given back once the signal of that is over. -/
  | remove {w v : World} {o : Overlay} (found : w.front.session.state.find? o.kind = some o)
      (within : Passage allows false (w.commit (.removed o.detach)) v) :
      Passage allows false w (v.after (Work.observe (.returned v.front.engine o.detach)))
  /-- An overlay is taken off, and lost to a panic inside the signal of that. -/
  | lose {w v : World} {o : Overlay} (found : w.front.session.state.find? o.kind = some o)
      (signalled : w.front.session.state.signal? (.removed o.detach) ≠ none)
      (within : Passage allows true (w.commit (.removed o.detach)) v) : Passage allows true w v
  | panic (w : World) : Passage allows true w w

namespace Passage

variable {allows : Op → Prop} {broken : Bool} {w v : World}

theorem refl (w : World) : Passage allows false w w := .plain (.refl w)

/-- The configuration of a front end and its engine stay, and the engine only uses up reactions. -/
theorem keeps (passage : Passage allows broken w v) :
    v.front.config = w.front.config ∧ v.front.engine = w.front.engine ∧
      v.engine.reactions ⊆ w.engine.reactions := by
  induction passage with
  | plain plain => exact ⟨plain.config, plain.engine, plain.reactions⟩
  | trans _ _ first rest =>
    exact ⟨rest.1.trans first.1, rest.2.1.trans first.2.1, List.Subset.trans rest.2.2 first.2.2⟩
  | install | passOn | tell | change | put | refuse | panic =>
    exact ⟨rfl, rfl, List.Subset.refl _⟩
  | remove _ _ within => exact within
  | lose _ _ _ within => exact within

end Passage

/-- Every operation that an engine will do from inside its calls is allowed. -/
def EngineModel.Allows (allows : Op → Prop) (e : EngineModel) : Prop :=
  ∀ r ∈ e.reactions, ∀ op ∈ r.ops, allows op

def World.Allows (allows : Op → Prop) (w : World) : Prop := w.engine.Allows allows

/-- What an engine may still do from inside its calls only becomes less. -/
theorem Passage.allows {allows : Op → Prop} {broken : Bool} {w v : World}
    (passage : Passage allows broken w v) (ready : w.Allows allows) : v.Allows allows :=
  fun r member => ready r (passage.keeps.2.2 member)

/-! ## Actions -/

namespace Act

variable {α β : Type}

/-- An action that is a matter of course and does not panic. -/
def Plain (act : Act α) : Prop := ∀ w : World, act.Ensures w (fun _ v => w.Plain v) fun _ => False

/-- Plain work is plain as an action. -/
theorem plain_work {part : Work α} (h : part.Plain) : (work part).Plain :=
  fun w => World.plain_after h w

theorem plain_log (level : LogLevel) (message : String) : (log level message).Plain :=
  plain_work (Work.plain_log level message)

theorem plain_pure (a : α) : (pure a : Act α).Plain := fun w => World.Plain.refl w

theorem plain_get : (get : Act World).Plain := fun w => World.Plain.refl w

theorem plain_state : state.Plain := fun w => World.Plain.refl w

theorem plain_acquire : acquire.Plain := fun w => World.plain_withLock w true

theorem plain_release : release.Plain := fun w => World.plain_withLock w false

theorem Plain.bind {act : Act β} {next : β → Act α} (first : act.Plain)
    (rest : ∀ b, (next b).Plain) : (act >>= next).Plain := fun w =>
  (first w).andThen fun b v before =>
    (rest b v).mono (fun _ _ after => before.trans after) fun _ => id

/-- From a world, an action makes a passage, which is broken if it ends in a panic. -/
def PassesFrom (act : Act α) (allows : Op → Prop) (w : World) : Prop :=
  act.Ensures w (fun _ v => Passage allows false w v) fun v => Passage allows true w v

/-- An action that makes a passage from every world whose engine does only what is allowed. -/
def Passes (act : Act α) (allows : Op → Prop) : Prop :=
  ∀ w : World, w.Allows allows → act.PassesFrom allows w

variable {allows : Op → Prop} {w : World}

/-- Two things that an action ensures hold together. -/
theorem Ensures.and {act : Act α} {done done' : α → World → Prop} {ended ended' : World → Prop}
    (h : act.Ensures w done ended) (h' : act.Ensures w done' ended') :
    act.Ensures w (fun a v => done a v ∧ done' a v) fun v => ended v ∧ ended' v := by
  unfold Ensures at h h' ⊢
  revert h h'
  rcases act w with ⟨result, v⟩
  cases result <;> exact fun h h' => ⟨h, h'⟩

/-- A plain action is a passage, whatever the engine may do. -/
theorem Plain.passes {act : Act α} (h : act.Plain) (allows : Op → Prop) : act.Passes allows :=
  fun w _ => (h w).mono (fun _ _ plain => .plain plain) fun _ => False.elim

/-- What comes after a passage goes on with it. -/
theorem PassesFrom.after {act : Act α} {v : World} (h : act.PassesFrom allows v)
    (before : Passage allows false w v) :
    act.Ensures v (fun _ u => Passage allows false w u) fun u => Passage allows true w u :=
  h.mono (fun _ _ => before.trans) fun _ => before.trans

/-- Passages follow each other, the second from any world that the first may end in. -/
theorem PassesFrom.bind {act : Act β} {next : β → Act α} (ready : w.Allows allows)
    (first : act.PassesFrom allows w)
    (rest : ∀ b v, Passage allows false w v → v.Allows allows → (next b).PassesFrom allows v) :
    (act >>= next).PassesFrom allows w :=
  Ensures.bind first (fun b v before => (rest b v before (before.allows ready)).after before)
    fun _ => id

/-- Actions that are passages from every world are so in a row. -/
theorem Passes.bind {act : Act β} {next : β → Act α} (first : act.Passes allows)
    (rest : ∀ b, (next b).Passes allows) : (act >>= next).Passes allows := fun w ready =>
  .bind ready (first w ready) fun b v _ => rest b v

/-- The result does not matter to the passage. -/
theorem Passes.result {act : Act β} {next : β → α} (h : act.Passes allows) :
    (act >>= fun b => pure (next b)).Passes allows :=
  h.bind fun b => (plain_pure (next b)).passes allows

theorem Passes.ite {c : Prop} [Decidable c] {act other : Act α} (yes : act.Passes allows)
    (no : other.Passes allows) : (if c then act else other).Passes allows := by
  split
  · exact yes
  · exact no

theorem Plain.andThen {act : Act β} {next : β → Act α} (first : act.Plain)
    (rest : ∀ b, (next b).Passes allows) : (act >>= next).Passes allows :=
  (first.passes allows).bind rest

/-- The session lock is held for a passage. -/
theorem Passes.locked {body : Act α} (h : body.Passes allows) : (locked body).Passes allows :=
  plain_acquire.andThen fun _ => h.bind fun _ => plain_release.andThen fun _ =>
    (plain_pure _).passes allows

/-- A change that is none of the stack is one step of a passage. -/
theorem passes_commit {c : Change} (apart : c.ofStack = false) : (commit c).Passes allows :=
  fun _ _ => Passage.change apart

end Act

/-- A way to call the engine in which the engine receives every genuine call and makes a passage. -/
def Tell.Passes (tell : Tell) (allows : Op → Prop) : Prop :=
  ∀ (call : EngineCall) (w : World), w.Allows allows → call.Genuine allows w →
    Act.PassesFrom (tell call) allows w

/-- A call that says nothing of the world it comes from. -/
theorem Tell.Passes.call {tell : Tell} {allows : Op → Prop} (h : tell.Passes allows)
    (call : EngineCall) (genuine : ∀ w, call.Genuine allows w) : Act.Passes (tell call) allows :=
  fun w ready => h call w ready (genuine w)

end EmuFront
