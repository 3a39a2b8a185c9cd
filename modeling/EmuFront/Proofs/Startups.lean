import EmuFront.Proofs.Passage
import EmuFront.Proofs.Persistence

/-!
# Startups of a process

Front ends may be created any number of times in a process, each time with a setup that may fail,
and the host may report failures at any time. The flag of the host decides whether the setup runs, a
creation that fails does not reach its engine, and the crash capture of the first creation stays for
the process, even if that creation failed.
-/

namespace EmuFront

open Storage Storage.Tree Work
open Text (Bytes utf8)

variable {ε : Type}

/-! ## What is called -/

/-- A call that is made while front ends start up. -/
inductive StartupCall
  /-- The setup before the first start, with its directory. -/
  | setUp (directory : Path)
  | told (engine : EngineRef) (call : EngineCall)
  | failed (engine : EngineRef) (home : Path) (text : String)
deriving DecidableEq

/-- The call that is made in an event. -/
def Event.startupCall? : Event → Option StartupCall
  | .setUp directory => some (.setUp directory)
  | .told engine call _ => some (.told engine call)
  | .failed engine home text => some (.failed engine home text)
  | _ => none

/-- The calls that were made, in order. -/
def Machine.startupCalls (m : Machine) : List StartupCall :=
  m.timeline.filterMap Event.startupCall?

/-! ## Histories -/

/-- A creation of a front end, with a setup that works on files and may fail. -/
structure Creation (ε : Type) where
  front : FrontEnd
  setUp : Path → Work (Except ε Unit)
  routine : ∀ directory, (setUp directory).Routine

namespace Creation

/-- The crash capture that the front end asks for. -/
def capture (c : Creation ε) : CrashCapture := c.front.config.capture c.front.engine

/-- The calls of a creation: the setup if it is due, and then the engine unless the setup failed. -/
def calls (c : Creation ε) (configured created : Bool) : List StartupCall :=
  (if configured then [] else [.setUp c.front.config.dataDir]) ++
    if created then [.told c.front.engine (.create c.front.config.dataDir c.front.config.audio)]
    else []

/-- Creates the front end on a machine. The engine does not call back. -/
def perform (c : Creation ε) : Work (Except Panic (Except ε Bool)) := fun m =>
  let (result, w) := FrontEnd.create Act.deliver c.setUp ⟨m, c.front, ⟨.empty, []⟩, []⟩
  (result, w.machine)

end Creation

/-- Something that happens in a process. -/
inductive StartupStep (ε : Type)
  | create (c : Creation ε)
  /-- The host reports a failure. -/
  | report (kind : CrashKind) (trace : String)
  /-- Others change the disk. -/
  | changeDisk (actions : List DiskAction)

/-- What a step of a process gives back. -/
inductive StartupAnswer (ε : Type)
  | created (result : Except Panic (Except ε Bool))
  | reported (recorded : Bool)
  | nothing

/-- Whether an answer is that of a creation that succeeded. -/
def StartupAnswer.succeeded : StartupAnswer ε → Bool
  | created (.ok (.ok _)) => true
  | _ => false

namespace StartupStep

def perform : StartupStep ε → Work (StartupAnswer ε)
  | create c => do return .created (← c.perform)
  | report kind trace => do return .reported (← Work.report kind trace)
  | changeDisk actions => do
    Work.changeDisk actions
    return .nothing

/-- Does steps in order, with their answers. -/
def performAll : List (StartupStep ε) → Work (List (StartupAnswer ε))
  | [] => return []
  | step :: rest => do
    let answer ← step.perform
    return answer :: (← performAll rest)

/-- The crash capture that a step asks for. -/
def capture? : StartupStep ε → Option CrashCapture
  | create c => some c.capture
  | _ => none

/-- The crash capture that the first creation asks for. -/
def firstCapture (steps : List (StartupStep ε)) : Option CrashCapture := steps.findSome? capture?

end StartupStep

/-- The machine of a process that starts, on a disk, with the flag that the host kept. -/
def Machine.started (disk : Disk) (configured : Bool) : Machine := { Machine.new disk with configured }

/-! ## What a step does -/

/-- What the setup before the first start does to a machine. -/
structure SetUp (dataDir : Path) (setUp : Path → Work (Except ε Unit)) (m : Machine)
    (result : Except ε Bool) (m' : Machine) : Prop where
  calls : m'.startupCalls = m.startupCalls ++ if m.configured then [] else [.setUp dataDir]
  capture : m'.capture = m.capture
  configured : m'.configured = (m.configured || result.isOk)
  /-- The setup of the host finds the files as they were, and decides. -/
  ran : m.configured = false → ∃ found : Machine, found.disk = m.disk ∧
    found.configured = false ∧ found.capture = m.capture ∧
    result = (setUp dataDir found).1.map (fun _ => true) ∧ m'.disk = (setUp dataDir found).2.disk
  skipped : m.configured = true → result = .ok false ∧ m'.disk = m.disk

/-- What a creation does to a machine. -/
structure Created (m : Machine) (c : Creation ε) (result : Except ε Bool) (m' : Machine) : Prop where
  calls : m'.startupCalls = m.startupCalls ++ c.calls m.configured result.isOk
  capture : m'.capture = m.capture.or (some c.capture)
  configured : m'.configured = (m.configured || result.isOk)
  /-- The setup finds the files as they were and the crash capture installed, and decides. -/
  ran : m.configured = false → ∃ found : Machine,
    found.disk = m.disk ∧ found.configured = false ∧
    found.capture = m.capture.or (some c.capture) ∧
    result = (c.setUp c.front.config.dataDir found).1.map (fun _ => true) ∧
    m'.disk = (c.setUp c.front.config.dataDir found).2.disk
  skipped : m.configured = true → result = .ok false ∧ m'.disk = m.disk

/-- A text was added to the end of a file, which was made if there was none. All else stays. -/
def Storage.Tree.Appended (t : Tree) (path : Path) (text : Bytes) (t' : Tree) : Prop :=
  ∃ loc, t.walk path = .ok loc ∧
    t'.node? loc = some (.file ((t.contents? loc).getD [] ++ text)) ∧
    ∀ other, other ≠ loc → t'.node? other = t.node? other

/-- What has happened between two machines: these calls were made, and the crash capture and the flag
of the host stayed. -/
structure Machine.Called (m : Machine) (calls : List StartupCall) (m' : Machine) : Prop where
  calls : m'.startupCalls = m.startupCalls ++ calls
  capture : m'.capture = m.capture
  configured : m'.configured = m.configured

/-- The text that a capture records of a failure. -/
def CrashCapture.format (c : CrashCapture) (kind : CrashKind) (trace : String) : String :=
  (CrashRecord.managed c.fingerprint kind trace c.budget).text

/-- What a capture does with a failure: the record is added to its crash file if that can be opened,
and passed on to its engine in any case. -/
structure Reported (c : CrashCapture) (m : Machine) (kind : CrashKind) (trace : String)
    (m' : Machine) : Prop where
  called : m.Called [.failed c.engine c.homeDir (c.format kind trace)] m'
  disk : m'.disk = (m.disk.append (managedCrashFile c.dataDir) (utf8 (c.format kind trace))).2
  appended : (m.disk.append (managedCrashFile c.dataDir) (utf8 (c.format kind trace))).1.isOk = true →
    m.disk.tree.Appended (managedCrashFile c.dataDir) (utf8 (c.format kind trace)) m'.disk.tree
  refused : (m.disk.append (managedCrashFile c.dataDir) (utf8 (c.format kind trace))).1.isOk = false →
    m'.disk.tree = m.disk.tree

/-! ## Machines with calls between them -/

namespace Machine.Called

variable {m m' m'' : Machine} {first rest : List StartupCall}

theorem refl (m : Machine) : m.Called [] m := ⟨(List.append_nil _).symm, rfl, rfl⟩

theorem trans (before : m.Called first m') (after : m'.Called rest m'') :
    m.Called (first ++ rest) m'' where
  calls := by rw [after.calls, before.calls, List.append_assoc]
  capture := after.capture.trans before.capture
  configured := after.configured.trans before.configured

/-- Nothing but the timeline has changed. -/
theorem of_events (m : Machine) (added : List Event) :
    m.Called (added.filterMap Event.startupCall?) { m with timeline := m.timeline ++ added } :=
  ⟨List.filterMap_append, rfl, rfl⟩

end Machine.Called

namespace Work

variable {α : Type} {m : Machine}

/-- Routine work makes none of the calls that count, and leaves capture and flag alone. -/
theorem called_routine {part : Work α} (h : part.Routine) (m : Machine) :
    m.Called [] (part m).2 where
  calls := by
    rw [List.append_nil]
    refine h.filterMap_timeline (fun e routine => ?_) m
    cases e <;> simp_all [Event.isRoutine, Event.startupCall?]
  capture := (h.plain m).capture
  configured := by
    induction h generalizing m with
    | pure | observe | onDisk => rfl
    | bind _ _ first rest => exact (rest _ _).trans (first m)

/-- Taking a call over to a native engine is none of the calls that count. -/
theorem filterMap_crossing (engine : EngineRef) (call : Except String Native.NativeCall) :
    (crossing engine call).filterMap Event.startupCall? = [] := by
  unfold crossing
  split <;> rfl

/-- A failure that is passed on is one call to the engine. -/
theorem called_passOn (engine : EngineRef) (home : Path) (text : String) (m : Machine) :
    m.Called [.failed engine home text] (passOn engine home text m).2 := by
  have calls : (passingOn engine home text).filterMap Event.startupCall? =
      [.failed engine home text] := by
    rw [passingOn, List.filterMap_cons, filterMap_crossing]
    rfl
  rw [run_passOn, ← calls]
  exact .of_events m _

/-- So is a signal that is delivered. -/
theorem called_deliver (call : EngineCall) (w : World) :
    w.machine.Called [.told w.front.engine call] (w.told call).machine := by
  have calls : (w.telling call).filterMap Event.startupCall? = [.told w.front.engine call] := by
    rw [World.telling, List.filterMap_cons, filterMap_crossing]
    rfl
  rw [World.told_eq, ← calls]
  exact .of_events w.machine _

theorem ensures_get : (get : Work Machine).Ensures m fun found v => m = found ∧ m = v := ⟨rfl, rfl⟩

/-- An event that is a call is one. -/
theorem called_observe {e : Event} {call : StartupCall} (counts : e.startupCall? = some call)
    (m : Machine) : m.Called [call] (observe e m).2 := by
  have calls : [e].filterMap Event.startupCall? = [call] := List.filterMap_cons_some counts
  rw [← calls]
  exact .of_events m [e]

/-- The first crash capture that is asked for stays. -/
theorem ensures_install (c : CrashCapture) (m : Machine) :
    (install c).Ensures m fun _ v =>
      v.startupCalls = m.startupCalls ∧ v.capture = m.capture.or (some c) ∧
        v.configured = m.configured ∧ v.disk = m.disk := by
  have quiet (level : LogLevel) (message : String) (m : Machine) :
      (log level message m).2.startupCalls = m.startupCalls :=
    (called_routine (routine_log level message) m).calls.trans (List.append_nil _)
  refine ensures_get.bind fun found v known => ?_
  obtain ⟨hfound, hv⟩ := known
  subst hfound hv
  split
  · rename_i c' installed
    exact ⟨quiet _ _ m, by rw [installed]; exact installed, rfl, rfl⟩
  · rename_i missing
    exact ⟨quiet _ _ _, by rw [missing]; rfl, rfl, rfl⟩

/-- The setup runs where the flag is unset, and a setup that succeeds sets it. -/
theorem ensures_ensureConfigured (dataDir : Path) {setUp : Path → Work (Except ε Unit)}
    (routine : ∀ directory, (setUp directory).Routine) (m : Machine) :
    (ensureConfigured dataDir setUp).Ensures m fun result v => SetUp dataDir setUp m result v := by
  refine ensures_get.bind fun found v known => ?_
  obtain ⟨hfound, hv⟩ := known
  subst hfound hv
  split
  · rename_i configured
    refine ⟨?_, rfl, ?_, fun unset => ?_, fun _ => ⟨rfl, rfl⟩⟩
    · rw [if_pos configured, List.append_nil]
      rfl
    · rw [configured]
      exact configured
    · exact absurd (configured.symm.trans unset) (by decide)
  · rename_i unset
    rw [Bool.not_eq_true] at unset
    let found := (observe (.setUp dataDir) (log .debug s!"First run, preparing {dataDir.text}" m).2).2
    have before : m.Called [.setUp dataDir] found :=
      (called_routine (routine_log _ _) m).trans (called_observe rfl _)
    have after := before.trans (called_routine (routine dataDir) found)
    have logged : (log .debug s!"First run, preparing {dataDir.text}").Ensures m fun _ v =>
        (observe (.setUp dataDir) v).2 = found := rfl
    have ran : (setUp dataDir).Ensures found fun result v =>
        result = (setUp dataDir found).1 ∧ v = (setUp dataDir found).2 := ⟨rfl, rfl⟩
    refine logged.bind fun _ m₁ noted => ?_
    have observed : (observe (.setUp dataDir)).Ensures m₁ fun _ v => v = found := noted
    refine observed.bind fun _ m₂ eq => ?_
    subst eq
    refine ran.bind fun result v known => ?_
    obtain ⟨hresult, hv⟩ := known
    subst hv
    have there : found.disk = m.disk ∧ found.configured = false ∧ found.capture = m.capture :=
      ⟨rfl, before.configured.trans unset, before.capture⟩
    obtain ⟨files, still, capture⟩ := there
    have calls : (setUp dataDir found).2.startupCalls =
        m.startupCalls ++ if m.configured then [] else [.setUp dataDir] := by
      rw [unset]
      exact after.calls
    have set : m.configured = true → False := fun set => absurd (unset.symm.trans set) (by decide)
    split
    · refine ⟨calls, after.capture, ?_, fun _ => ⟨found, files, still, capture, ?_, rfl⟩,
        fun configured => (set configured).elim⟩
      · rw [unset]
        exact after.configured.trans unset
      · rw [← hresult]
        rfl
    · refine ⟨calls, after.capture, ?_, fun _ => ⟨found, files, still, capture, ?_, rfl⟩,
        fun configured => (set configured).elim⟩
      · rw [unset]
        rfl
      · rw [← hresult]
        rfl

end Work

/-! ## One step -/

/-- A creation once its crash capture is installed and its setup has ended. -/
theorem Creation.created_of {c : Creation ε} {m m₁ m₂ m' : Machine} {result : Except ε Bool}
    (installed : m₁.startupCalls = m.startupCalls ∧ m₁.capture = m.capture.or (some c.capture) ∧
      m₁.configured = m.configured ∧ m₁.disk = m.disk)
    (setUp : SetUp c.front.config.dataDir c.setUp m₁ result m₂)
    (told : m₂.Called (if result.isOk then
      [.told c.front.engine (.create c.front.config.dataDir c.front.config.audio)] else []) m')
    (disk : m'.disk = m₂.disk) : Created m c result m' := by
  obtain ⟨calls, capture, configured, files⟩ := installed
  refine ⟨?_, ?_, ?_, fun unset => ?_, fun set => ?_⟩
  · rw [told.calls, setUp.calls, calls, configured, List.append_assoc]
    rfl
  · rw [told.capture, setUp.capture, capture]
  · rw [told.configured, setUp.configured, configured]
  · obtain ⟨found, same, still, kept, ended, left⟩ := setUp.ran (configured.trans unset)
    exact ⟨found, same.trans files, still, kept.trans capture, ended, disk.trans left⟩
  · obtain ⟨ended, left⟩ := setUp.skipped (configured.trans set)
    exact ⟨ended, disk.trans (left.trans files)⟩

/-- A creation ends with a result, and does what it is to do. -/
theorem Creation.perform_created (c : Creation ε) (m : Machine) :
    ∃ result, (c.perform m).1 = .ok result ∧ Created m c result (c.perform m).2 := by
  let w : World := ⟨m, c.front, ⟨.empty, []⟩, []⟩
  have created : (FrontEnd.create Act.deliver c.setUp).Ensures w
      (fun result v => Created m c result v.machine) fun _ => False := by
    apply Act.ensures_bind.2
    apply Act.ensures_get.2
    have installed : (Act.work (install c.capture)).Ensures w
        (fun _ v => v = w.after (install c.capture)) fun _ => False := rfl
    refine installed.andThen fun _ v eq => ?_
    subst eq
    have setUp : (Act.work (ensureConfigured c.front.config.dataDir c.setUp)).Ensures
        (w.after (install c.capture)) (fun result v => v.front = c.front ∧
          SetUp c.front.config.dataDir c.setUp (install c.capture m).2 result v.machine)
        fun _ => False := ⟨rfl, ensures_ensureConfigured _ c.routine _⟩
    refine setUp.andThen fun result v known => ?_
    obtain ⟨front, ended⟩ := known
    have installed := ensures_install c.capture m
    cases result with
    | error e => exact c.created_of installed ended (.refl v.machine) rfl
    | ok ran =>
      have logged : (Act.log .info
          s!"Creating engine in {c.front.config.dataDir.text} ({c.front.config.audio.text})").Ensures v
          (fun _ u => u.front = c.front ∧ u.machine.disk = v.machine.disk ∧
            v.machine.Called [] u.machine) fun _ => False :=
        ⟨front, rfl, called_routine (routine_log _ _) v.machine⟩
      refine logged.andThen fun _ u known => ?_
      obtain ⟨front, files, quiet⟩ := known
      have sent : (Act.deliver (.create c.front.config.dataDir c.front.config.audio)).Ensures u
          (fun _ t => t = u.told (.create c.front.config.dataDir c.front.config.audio))
          fun _ => False := rfl
      refine sent.andThen fun _ t eq => ?_
      subst eq
      have told := called_deliver (.create c.front.config.dataDir c.front.config.audio) u
      rw [front] at told
      refine c.created_of installed ended (quiet.trans told) ?_
      rw [World.told_eq]
      exact files
  unfold Act.Ensures at created
  unfold Creation.perform
  revert created
  rcases FrontEnd.create Act.deliver c.setUp w with ⟨result, v⟩
  cases result with
  | ok result => exact fun created => ⟨result, rfl, created⟩
  | error p => exact fun none => none.elim

/-- A write that adds to the old contents appends. -/
theorem Storage.Tree.appended_of_write {t t' : Tree} {path : Path} {text : Bytes}
    (h : t.write path (fun old => old ++ text) = .ok t') : t.Appended path text t' := by
  obtain ⟨loc, led, free, rfl⟩ := write_eq_ok.1 h
  exact ⟨loc, led, node?_put_self t (ne_nil_of_node? free) _, fun other ne => node?_put_of_ne t ne _⟩

/-- An append that comes about adds to one file, and one that does not changes none. -/
theorem Storage.Disk.appended_of_append (d : Disk) (path : Path) (text : Bytes) :
    ((d.append path text).1.isOk = true → d.tree.Appended path text (d.append path text).2.tree) ∧
      ((d.append path text).1.isOk = false → (d.append path text).2.tree = d.tree) := by
  have changed : d.Changed path (fun old => old ++ text) (d.append path text).1
    (d.append path text).2 := d.changed_changeFile path _
  cases ended : (d.append path text).1 with
  | ok _ =>
    rw [ended] at changed
    exact ⟨fun _ => appended_of_write changed.1, nofun⟩
  | error e =>
    rw [ended] at changed
    exact ⟨nofun, fun _ => changed.1.1⟩

namespace CrashCapture

variable {c : CrashCapture} {m : Machine}

theorem ensures_append_disk (path : Path) (text : Text.Bytes) (m : Machine) :
    (append path text).Ensures m fun _ v => v.disk = (m.disk.append path text).2 := rfl

/-- What a record does to the disk is an append to the crash file. -/
theorem ensures_persist_disk (r : CrashRecord) (directory : Path) (m : Machine) :
    (r.persist directory).Ensures m fun _ v =>
      v.disk = (m.disk.append (managedCrashFile directory) (utf8 r.text)).2 := by
  refine (ensures_append_disk _ _ m).bind fun result v disk => ?_
  split <;> exact disk

/-- The failure is recorded whether its file could be opened or not, and passed on in both cases. -/
theorem ensures_recordQuietly (c : CrashCapture) (kind : CrashKind) (trace : String) :
    (c.recordQuietly kind trace).Ensures m fun _ v => Reported c m kind trace v := by
  -- the record is written, then passed on, then at most a line is logged
  have recorded : (c.record kind trace).Ensures m fun _ v =>
      v.disk = (m.disk.append (managedCrashFile c.dataDir) (utf8 (c.format kind trace))).2 ∧
        m.Called [.failed c.engine c.homeDir (c.format kind trace)] v := by
    let r := CrashRecord.managed c.fingerprint kind trace c.budget
    have called : (r.persist c.dataDir).Ensures m fun _ v => m.Called [] v :=
      called_routine (routine_persist r c.dataDir) m
    refine ((ensures_persist_disk r c.dataDir m).and called).bind fun written v known => ?_
    obtain ⟨disk, called⟩ := known
    have passedOn : (passOn c.engine c.homeDir (c.format kind trace)).Ensures v fun _ v' =>
        v'.disk = v.disk ∧ v.Called [.failed c.engine c.homeDir (c.format kind trace)] v' :=
      ⟨by rw [run_passOn], called_passOn _ _ _ v⟩
    refine passedOn.bind fun _ v' known => ?_
    obtain ⟨disk', called'⟩ := known
    exact ⟨disk'.trans disk, called.trans called'⟩
  refine recorded.bind fun one v known => ?_
  obtain ⟨disk, called⟩ := known
  have files := m.disk.appended_of_append (managedCrashFile c.dataDir) (utf8 (c.format kind trace))
  rw [← disk] at files
  split
  · exact ⟨called, disk, files.1, files.2⟩
  · exact ⟨called.trans (called_routine (routine_log _ _) v), disk, files.1, files.2⟩

end CrashCapture

/-- With a capture installed, a report of the host is recorded by it. -/
theorem reported_of_report {c : CrashCapture} {m : Machine} (installed : m.capture = some c)
    (kind : CrashKind) (trace : String) :
    (report kind trace).Ensures m fun recorded v => recorded = true ∧ Reported c m kind trace v := by
  refine ensures_get.bind fun found v known => ?_
  obtain ⟨hfound, hv⟩ := known
  subst hfound hv
  rw [installed]
  exact (c.ensures_recordQuietly kind trace).bind fun _ v reported => ⟨rfl, reported⟩

/-- Without a crash capture a report is dropped, and only logged. -/
theorem report_of_missing {m : Machine} (missing : m.capture = none) (kind : CrashKind)
    (trace : String) : report kind trace m = (false, { m with
      timeline := m.timeline ++
        [.logged .warn s!"Crash handler not installed, dropping {kind.name}"] }) := by
  have dropped : (report kind trace).Ensures m fun recorded v => (recorded, v) = (false, { m with
      timeline := m.timeline ++
        [.logged .warn s!"Crash handler not installed, dropping {kind.name}"] }) := by
    refine ensures_get.bind fun found v known => ?_
    obtain ⟨hfound, hv⟩ := known
    subst hfound hv
    split
    · exact rfl
    · rename_i c installed
      exact absurd (missing.symm.trans installed) nofun
  exact dropped

/-! ## Whole histories -/

namespace StartupStep

/-- A step installs a capture if there was none, and sets the flag if its creation succeeds. -/
theorem perform_keeps (step : StartupStep ε) (m : Machine) :
    step.perform.Ensures m fun answer v =>
      v.capture = m.capture.or step.capture? ∧
        v.configured = (m.configured || answer.succeeded) := by
  cases step with
  | create c =>
    obtain ⟨result, ended, created⟩ := c.perform_created m
    have performed : c.perform.Ensures m fun answer v =>
        answer = .ok result ∧ Created m c result v := ⟨ended, created⟩
    refine performed.bind fun answer v known => ?_
    obtain ⟨eq, created⟩ := known
    subst eq
    refine Work.ensures_pure.2 ⟨created.capture, ?_⟩
    rw [created.configured]
    cases result <;> rfl
  | report kind trace =>
    cases installed : m.capture with
    | none =>
      have kept : (Work.report kind trace).Ensures m fun _ v =>
          v.capture = m.capture ∧ v.configured = m.configured := by
        rw [Work.Ensures, report_of_missing installed]
        exact ⟨rfl, rfl⟩
      refine kept.bind fun recorded v known => ?_
      obtain ⟨capture, configured⟩ := known
      refine ⟨?_, ?_⟩
      · exact capture.trans installed
      · exact configured.trans (Bool.or_false _).symm
    | some c =>
      refine (reported_of_report installed kind trace).bind fun recorded v known => ?_
      obtain ⟨_, reported⟩ := known
      refine ⟨?_, ?_⟩
      · exact reported.called.capture.trans installed
      · exact reported.called.configured.trans (Bool.or_false _).symm
  | changeDisk actions =>
    have called := called_routine (routine_changeDisk actions) m
    exact ⟨called.capture.trans (Option.or_none).symm,
      called.configured.trans (Bool.or_false _).symm⟩

theorem firstCapture_cons (step : StartupStep ε) (rest : List (StartupStep ε)) :
    firstCapture (step :: rest) = step.capture?.or (firstCapture rest) := by
  rw [firstCapture, List.findSome?_cons]
  cases step.capture? <;> rfl

/-- After steps in a row the capture is the first that was asked for, by induction on the steps. -/
theorem performAll_keeps (steps : List (StartupStep ε)) (m : Machine) :
    (performAll steps).Ensures m fun answers v =>
      v.capture = m.capture.or (firstCapture steps) ∧
        v.configured = (m.configured || answers.any StartupAnswer.succeeded) := by
  induction steps generalizing m with
  | nil => exact ⟨Option.or_none.symm, (Bool.or_false _).symm⟩
  | cons step rest ih =>
    refine (step.perform_keeps m).bind fun answer v known => ?_
    obtain ⟨capture, configured⟩ := known
    refine (ih v).bind fun answers u known => ?_
    obtain ⟨capture', configured'⟩ := known
    refine Work.ensures_pure.2 ⟨?_, ?_⟩
    · rw [capture', capture, Option.or_assoc, firstCapture_cons]
    · rw [configured', configured, Bool.or_assoc]
      rfl

end StartupStep

/-- In a process that starts without a crash capture, after any history of creations and reports: the
crash capture is the one that the first creation asked for and the flag of the host is set if it was
from the start or a creation has succeeded; the next creation does what it is to do; and the next
report goes to the capture, or nowhere if no front end was created. -/
theorem startup_history (disk : Disk) (configured : Bool) (past : List (StartupStep ε)) :
    let before := StartupStep.performAll past (.started disk configured)
    before.2.capture = StartupStep.firstCapture past ∧
    before.2.configured = (configured || before.1.any StartupAnswer.succeeded) ∧
    (∀ c : Creation ε, ∃ result, (c.perform before.2).1 = .ok result ∧
      Created before.2 c result (c.perform before.2).2) ∧
    ∀ kind trace, match StartupStep.firstCapture past with
      | some c => (report kind trace before.2).1 = true ∧
        Reported c before.2 kind trace (report kind trace before.2).2
      | none => report kind trace before.2 = (false, { before.2 with
        timeline := before.2.timeline ++
          [.logged .warn s!"Crash handler not installed, dropping {kind.name}"] }) := by
  intro before
  obtain ⟨capture, flag⟩ := StartupStep.performAll_keeps past (.started disk configured)
  refine ⟨capture, flag, fun c => c.perform_created before.2, fun kind trace => ?_⟩
  split
  · rename_i c first
    exact reported_of_report (capture.trans first) kind trace
  · rename_i none
    exact report_of_missing (capture.trans none) kind trace

/-- A creation whose setup fails. -/
def Creation.cramped : Creation String where
  front := .new (.new ⟨"first"⟩) ⟨1, .direct⟩
  setUp _ := return .error "no room"
  routine _ := .pure _

/-- A creation in another data directory, where its setup leaves a file. -/
def Creation.roomy : Creation String where
  front := .new (.new ⟨"second"⟩) ⟨2, .direct⟩
  setUp directory := do
    changeDisk [.putFile (directory.join "ready") []]
    return .ok ()
  routine _ := .bind (routine_changeDisk _) fun _ => .pure _

/-- The setup of the first creation fails, that of the second succeeds, and then the host reports a
failure, which the capture of the first creation takes. So it does with the next one, and a further
creation runs no setup. -/
theorem startup_history_secondSetUp :
    let past : List (StartupStep String) :=
      [.create .cramped, .create .roomy, .report .panic "boom"]
    let before := StartupStep.performAll past
      (.started (Disk.empty.actAll [.makeDirectory ⟨"first"⟩]) false)
    let creating := StartupCall.told ⟨2, .direct⟩ (.create ⟨"second"⟩ .silent)
    before.1.map StartupAnswer.succeeded = [false, true, false] ∧
    before.2.startupCalls = [.setUp ⟨"first"⟩, .setUp ⟨"second"⟩, creating,
      .failed ⟨1, .direct⟩ ⟨"first"⟩ (Creation.cramped.capture.format .panic "boom")] ∧
    before.2.configured = true ∧ before.2.capture = some Creation.cramped.capture ∧
    (Creation.roomy.perform before.2).1 = .ok (.ok false) ∧
    (Creation.roomy.perform before.2).2.startupCalls = before.2.startupCalls ++ [creating] ∧
    Reported Creation.cramped.capture before.2 .panic "bang" (report .panic "bang" before.2).2 := by
  intro past before creating
  have first : StartupStep.firstCapture past = some Creation.cramped.capture := rfl
  have answers : before.1.map StartupAnswer.succeeded = [false, true, false] := by decide +kernel
  have made : before.2.startupCalls = [.setUp ⟨"first"⟩, .setUp ⟨"second"⟩, creating,
      .failed ⟨1, .direct⟩ ⟨"first"⟩ (Creation.cramped.capture.format .panic "boom")] := by
    decide +kernel
  have history := startup_history (Disk.empty.actAll [.makeDirectory ⟨"first"⟩]) false past
  rw [first, show StartupStep.performAll past _ = before from rfl] at history
  obtain ⟨capture, flag, next, reports⟩ := history
  clear_value before
  have set : before.2.configured = true := by
    have any : (before.1.map StartupAnswer.succeeded).any id =
        before.1.any StartupAnswer.succeeded := List.any_map
    rw [flag, ← any, answers]
    rfl
  obtain ⟨result, ended, created⟩ := next .roomy
  have skipped := (created.skipped set).1
  have calls := created.calls
  rw [set, skipped] at calls
  rw [skipped] at ended
  exact ⟨answers, made, set, capture, ended, calls, (reports .panic "bang").2⟩

end EmuFront
