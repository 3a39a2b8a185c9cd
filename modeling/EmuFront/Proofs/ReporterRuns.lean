import EmuFront.Proofs.Routine
import EmuFront.Proofs.Transmission
import Mathlib.Data.List.Induction

/-!
# Runs of a reporter

A reporter is asked to send, to discard and to look for artifacts, in any order, while others change
the disk in between. It hands over one report at most. What opens and closes it is the first
transmission that finds artifacts: from then on every transmission that finds some answers that a
report was sent, also when that first one could write none.
-/

namespace EmuFront

open Storage

/-- The report that an event hands over. -/
def Event.handOver? : Event → Option Path
  | .handedOver report => some report
  | _ => none

/-- The reports that were handed over to those who send them, in order. -/
def Machine.handOvers (m : Machine) : List Path := m.timeline.filterMap Event.handOver?

/-! ## Those who send reports -/

/-- One who sends reports: it does as it likes with the files, but keeps to routine work. -/
structure Sender where
  send : Path → Work (Except Failure Unit)
  routine : ∀ report, (send report).Routine

namespace Sender

/-- One who reads the report and accepts or refuses it. -/
def recording (accept : Bool) (before during : List DiskAction) : Sender :=
  ⟨Transport.recording accept before during, Work.routine_recording accept before during⟩

/-- A function of a native host that reads the report and accepts or refuses it. -/
def native (accept : Bool) : Sender := ⟨Native.sendBy accept, Work.routine_sendBy accept⟩

end Sender

/-! ## What single calls do -/

namespace Work

variable {α : Type} {m : Machine}

/-- Routine work hands nothing over. -/
theorem Routine.ensures_handOvers {part : Work α} (h : part.Routine) :
    part.Ensures m fun _ v => v.handOvers = m.handOvers := by
  apply h.filterMap_timeline
  intro e routine
  cases e <;> simp_all [Event.isRoutine, Event.handOver?]

theorem ensures_log_kept (level : LogLevel) (message : String) :
    (log level message).Ensures m fun _ v => v.disk = m.disk ∧ v.handOvers = m.handOvers :=
  (ensures_log level message).and (routine_log level message).ensures_handOvers

end Work

namespace CrashReporter

open CrashArtifact Work

variable {r r' : CrashReporter} {m m' : Machine}

/-- How a transmission on a machine ends: with a result and a reporter, on a machine. -/
inductive Ends (r : CrashReporter) (m : Machine) :
    Except Failure ReportOutcome × CrashReporter → Machine → Prop
  | nothingToSend {v : Machine} (nothing : (r.scan m).1 = []) (files : v.disk = m.disk)
      (kept : v.handOvers = m.handOvers) : Ends r m (.ok .nothingToSend, r) v
  | alreadySent {v : Machine} (some : (r.scan m).1 ≠ []) (again : r.sent = true)
      (files : v.disk = m.disk) (kept : v.handOvers = m.handOvers) :
      Ends r m (.ok .alreadySent, r) v
  | unwritten {v : Machine} {e : Failure} (some : (r.scan m).1 ≠ []) (first : r.sent = false)
      (blocked : ∀ directory ∈ r.targets m.disk.tree, m.disk.Blocked (reportFile directory))
      (kept : v.handOvers = m.handOvers) : Ends r m (.error e, r.begun) v
  | refused {v : Machine} {e : Failure} {report : Path} (some : (r.scan m).1 ≠ [])
      (first : r.sent = false) (handed : v.handOvers = m.handOvers ++ [report]) :
      Ends r m (.error e, r.begun) v
  | sent {v : Machine} {report : Path} {n : Nat} (some : (r.scan m).1 ≠ [])
      (first : r.sent = false) (handed : v.handOvers = m.handOvers ++ [report]) :
      Ends r m (.ok (.sent report n), r.begun) v

/-- A scan hands nothing over and leaves the files as they are. -/
theorem ensures_scan_kept : r.scan.Ensures m fun found v =>
    found = (r.scan m).1 ∧ v.disk = m.disk ∧ v.handOvers = m.handOvers :=
  ⟨rfl, ensures_scan.2, (routine_scanArtifacts r.dataDir).ensures_handOvers⟩

/-- Putting the report together and writing it is routine. -/
theorem routine_gather (r : CrashReporter) (as : List CrashArtifact) : (r.gather as).Routine :=
  .bind (routine_aggregate r as) fun _ => routine_writeAggregate _ _

/-- What follows an answer hands nothing over, and leaves the reporter as it is. -/
theorem ensures_conclude_answer (r : CrashReporter) (report : Path) (as : List CrashArtifact)
    (answer : Except Failure Unit) :
    (r.conclude report as answer).Ensures m fun result v => v.handOvers = m.handOvers ∧
      ((∃ e, result = (.error e, r)) ∨ ∃ n, result = (.ok (.sent report n), r)) := by
  cases answer with
  | error e => exact ensures_pure.2 ⟨rfl, .inl ⟨e, rfl⟩⟩
  | ok _ =>
    refine (ensures_log_kept _ _).bind fun _ m₁ logged => ?_
    refine (routine_delete as).ensures_handOvers.bind fun _ v kept => ensures_pure.2 ?_
    exact ⟨kept.trans logged.2, .inr ⟨as.length, rfl⟩⟩

/-- A transmission ends in one of five ways. -/
theorem ends_transmit (s : Sender) : (r.transmit s.send).Ensures m (r.Ends m) := by
  rw [transmit_eq]
  refine ensures_scan_kept.bind fun found m₁ scanned => ?_
  obtain ⟨rfl, disk₁, kept₁⟩ := scanned
  split
  · rename_i nothing
    exact ensures_pure.2 (.nothingToSend (List.isEmpty_iff.1 nothing) disk₁ kept₁)
  · rename_i some
    rw [List.isEmpty_iff] at some
    split
    · rename_i again
      refine (ensures_log_kept _ _).bind fun _ v logged => ?_
      obtain ⟨disk, kept⟩ := logged
      exact ensures_pure.2 (.alreadySent some again (disk.trans disk₁) (kept.trans kept₁))
    · rename_i first
      rw [Bool.not_eq_true] at first
      -- the report is gathered on a machine whose disk is that of the start
      have stands : ∀ a ∈ (r.scan m).1,
          ∃ contents, m₁.disk.tree.read (a.source m₁.disk.tree) = .ok contents := by
        rw [disk₁, scan_eq]
        exact fun a => exists_read_source
      have gathers := ensures_gather (r := r.begun) _ stands
      rw [disk₁] at gathers
      have routine := routine_gather r.begun (r.scan m).1
      refine (gathers.and routine.ensures_handOvers).bind fun written m₂ gathered => ?_
      obtain ⟨report, kept₂⟩ := gathered
      have kept : m₂.handOvers = m.handOvers := kept₂.trans kept₁
      cases written with
      | error e => exact ensures_pure.2 (.unwritten some first report.2 kept)
      | ok path =>
        refine (ensures_observe _).bind fun _ m₃ handed => ?_
        have handed : m₃.handOvers = m.handOvers ++ [path] := by
          rw [handed, Machine.handOvers, List.filterMap_append, ← Machine.handOvers, kept]
          rfl
        refine (s.routine path).ensures_handOvers.bind fun answer m₄ kept₄ => ?_
        refine (ensures_conclude_answer _ _ _ answer).mono fun result v concluded => ?_
        obtain ⟨kept, ended⟩ := concluded
        have handed : v.handOvers = m.handOvers ++ [path] := by rw [kept, kept₄, handed]
        obtain ⟨e, rfl⟩ | ⟨n, rfl⟩ := ended
        · exact .refused some first handed
        · exact .sent some first handed

section Ends
variable {result : Except Failure ReportOutcome × CrashReporter} {v : Machine}

/-- There is nothing to send exactly if a scan finds nothing. -/
theorem Ends.nothingToSend_iff (ends : r.Ends m result v) :
    result.1 = .ok .nothingToSend ↔ (r.scan m).1 = [] := by
  cases ends <;> simp_all

/-- The guard is not used up by a transmission that finds nothing. -/
theorem Ends.eq_of_nothingToSend (ends : r.Ends m result v)
    (nothing : result.1 = .ok .nothingToSend) : result.2 = r := by
  cases ends <;> simp_all

/-- The guard answers exactly if it is set and there is something to send. -/
theorem Ends.alreadySent_iff (ends : r.Ends m result v) :
    result.1 = .ok .alreadySent ↔ (r.scan m).1 ≠ [] ∧ r.sent = true := by
  cases ends <;> simp_all

/-- A guard that is set keeps the files as they are and hands nothing over. -/
theorem Ends.kept_of_sent (ends : r.Ends m result v) (again : r.sent = true) :
    v.disk = m.disk ∧ v.handOvers = m.handOvers := by
  cases ends <;> simp_all

/-- Where no report is handed over although there are artifacts to report for the first time, every
place for the report is blocked. -/
theorem Ends.blocked (ends : r.Ends m result v) (some : (r.scan m).1 ≠ []) (first : r.sent = false)
    (silent : v.handOvers = m.handOvers) :
    (∃ e, result.1 = .error e) ∧
      ∀ directory ∈ r.targets m.disk.tree, m.disk.Blocked (reportFile directory) := by
  cases ends with
  | nothingToSend nothing => exact absurd nothing some
  | alreadySent _ again => simp [first] at again
  | unwritten _ _ blocked => exact ⟨⟨_, rfl⟩, blocked⟩
  | refused _ _ handed => simp [handed] at silent
  | sent _ _ handed => simp [handed] at silent

end Ends

/-- A reporter that has looked for artifacts. -/
def looked (r : CrashReporter) : CrashReporter := { r with checked := true }

/-- The first look gives the artifacts there are, and no look touches the disk or hands anything
over. -/
theorem ensures_checkOnce : r.checkOnce.Ensures m fun result v =>
    result.2 = r.looked ∧ v.disk = m.disk ∧ v.handOvers = m.handOvers ∧
      ∀ found, result.1 = some found ↔
        r.checked = false ∧ found = (r.scan m).1 ∧ found ≠ [] := by
  unfold checkOnce
  cases checked : r.checked with
  | true =>
    have same : r = r.looked := by
      rw [looked, ← checked]
    exact ensures_pure.2 ⟨same, rfl, rfl, by simp⟩
  | false =>
    rw [if_neg Bool.false_ne_true]
    refine ensures_scan_kept.bind fun found m₁ scanned => ?_
    obtain ⟨rfl, disk₁, kept₁⟩ := scanned
    split
    · rename_i nothing
      rw [List.isEmpty_iff] at nothing
      exact ensures_pure.2 ⟨rfl, disk₁, kept₁, by simp [nothing]⟩
    · rename_i some
      rw [List.isEmpty_iff] at some
      refine (ensures_log_kept _ _).bind fun _ v logged => ?_
      obtain ⟨disk, kept⟩ := logged
      refine ensures_pure.2 ⟨rfl, disk.trans disk₁, kept.trans kept₁, fun found => ?_⟩
      simp only [Option.some.injEq, true_and]
      exact ⟨fun same => ⟨same.symm, same ▸ some⟩, fun same => same.1.symm⟩

/-! ## What a transmission goes by -/

/-- A reporter as it was before it looked for artifacts. -/
def unchecked (r : CrashReporter) : CrashReporter := { r with checked := false }

/-- What the report holds does not depend on whether artifacts were looked for. -/
theorem aggregate_unchecked (r : CrashReporter) (as : List CrashArtifact) :
    r.unchecked.aggregate as = r.aggregate as := by
  induction as with
  | nil => rfl
  | cons a rest ih =>
    simp only [aggregate, ih]
    rfl

/-- Nor does where it is written. -/
theorem writeInto_unchecked (r : CrashReporter) (report : String) (directories : List Path)
    (last : Failure) :
    r.unchecked.writeInto report directories last = r.writeInto report directories last := by
  induction directories generalizing last with
  | nil => rfl
  | cons directory rest ih =>
    simp only [writeInto, ih]
    rfl

theorem gather_unchecked (r : CrashReporter) (as : List CrashArtifact) :
    r.unchecked.gather as = r.gather as := by
  simp only [gather, aggregate_unchecked, writeAggregate, writeInto_unchecked]
  rfl

/-- Whether a reporter has looked for artifacts makes no difference to what it sends. -/
theorem transmit_unchecked (r : CrashReporter) (send : Path → Work (Except Failure Unit))
    (m : Machine) :
    r.unchecked.transmit send m =
      (((r.transmit send m).1.1, (r.transmit send m).1.2.unchecked), (r.transmit send m).2) := by
  have same : r.unchecked.begun.gather = r.begun.gather := funext r.begun.gather_unchecked
  have guard : r.unchecked.sent = r.sent := rfl
  have scans : r.unchecked.scan = r.scan := rfl
  rw [transmit_eq, transmit_eq, same, guard, scans]
  simp only [run_bind]
  -- the two go the same way at each turn
  rcases r.scan m with ⟨found, m₁⟩
  cases found.isEmpty with
  | true => rfl
  | false =>
    cases r.sent with
    | true => rfl
    | false =>
      simp only [Bool.false_eq_true, if_false, run_bind]
      rcases r.begun.gather found m₁ with ⟨written, m₂⟩
      cases written with
      | error e => rfl
      | ok path =>
        simp only [run_bind]
        rcases send path (observe (.handedOver path) m₂).2 with ⟨answer, m₃⟩
        cases answer <;> rfl

/-- The report is handed over and answered as the files and the guard have it. -/
theorem byFiles_transmit (r : CrashReporter) (s : Sender) : (r.transmit s.send).ByFiles := by
  have log (level : LogLevel) (message : String) := (routine_log level message).byFiles
  rw [transmit_eq]
  refine .bind (routine_scanArtifacts _).byFiles fun found => ?_
  split
  · exact byFiles_pure _
  · split
    · exact .bind (log _ _) fun _ => byFiles_pure _
    · refine .bind (routine_gather _ _).byFiles fun written => ?_
      split
      · exact byFiles_pure _
      · refine .bind (byFiles_observe _) fun _ => .bind (s.routine _).byFiles fun answer => ?_
        cases answer with
        | error e => exact byFiles_pure _
        | ok _ =>
          exact .bind (log _ _) fun _ => .bind (routine_delete _).byFiles fun _ => byFiles_pure _

/-- Two reporters on two machines that send alike. -/
structure Alike (r : CrashReporter) (m : Machine) (r' : CrashReporter) (m' : Machine) : Prop where
  reporter : r.unchecked = r'.unchecked
  disk : m.disk = m'.disk

/-- Two that send alike answer alike, and still send alike afterwards. -/
theorem Alike.transmit (alike : Alike r m r' m') (s : Sender) :
    (r.transmit s.send m).1.1 = (r'.transmit s.send m').1.1 ∧
      Alike (r.transmit s.send m).1.2 (r.transmit s.send m).2
        (r'.transmit s.send m').1.2 (r'.transmit s.send m').2 := by
  have left := r.transmit_unchecked s.send m
  have right := r'.transmit_unchecked s.send m'
  obtain ⟨result, disk⟩ := r.unchecked.byFiles_transmit s m m' alike.disk
  rw [alike.reporter] at left result disk
  rw [left, right] at result disk
  simp only [Prod.mk.injEq] at result
  exact ⟨result.1, result.2, disk⟩

/-- A reporter as it was made, before any call. -/
def fresh (r : CrashReporter) : CrashReporter := { r with checked := false, sent := false }

end CrashReporter

/-! ## Operations -/

/-- A call of a reporter, or what others do to the disk in between. -/
inductive ReporterOp
  | transmit (sender : Sender)
  | discard
  | checkOnce
  | crashesPresent
  | others (change : Disk → Disk)

namespace ReporterOp

open CrashReporter Work

variable {r : CrashReporter} {m : Machine}

/-- Performs an operation, which gives the reporter afterwards. -/
def perform (r : CrashReporter) : ReporterOp → Work CrashReporter
  | transmit sender => do return (← r.transmit sender.send).2
  | discard => do
    let _ ← r.discard
    return r
  | checkOnce => do return (← r.checkOnce).2
  | crashesPresent => do
    let _ ← r.crashesPresent
    return r
  | others change => do
    Work.onDisk fun d => ((), change d)
    return r

theorem perform_transmit (r : CrashReporter) (s : Sender) (m : Machine) :
    (transmit s).perform r m = ((r.transmit s.send m).1.2, (r.transmit s.send m).2) := by
  rw [perform, run_bind]
  rfl

/-- Performs operations in order. -/
def performAll (r : CrashReporter) : List ReporterOp → Work CrashReporter
  | [] => return r
  | op :: rest => do performAll (← op.perform r) rest

theorem performAll_cons (r : CrashReporter) (op : ReporterOp) (rest : List ReporterOp)
    (m : Machine) :
    performAll r (op :: rest) m = performAll (op.perform r m).1 rest (op.perform r m).2 := rfl

/-- One more operation is performed by what the others have left. -/
theorem performAll_concat (r : CrashReporter) (ops : List ReporterOp) (op : ReporterOp)
    (m : Machine) :
    performAll r (ops ++ [op]) m = op.perform (performAll r ops m).1 (performAll r ops m).2 := by
  induction ops generalizing r m with
  | nil => rfl
  | cons first rest ih => exact ih _ _

/-- An operation that does not send makes no difference to sending, but for what it does to the
disk, and that goes by the disk and the directory of the reporter. -/
theorem alike_perform {op : ReporterOp} (quiet : ∀ s, op ≠ .transmit s) {r' : CrashReporter}
    {m' : Machine} (directory : r.dataDir = r'.dataDir) (disk : m.disk = m'.disk) :
    (op.perform r m).1.unchecked = r.unchecked ∧
      (op.perform r m).2.disk = (op.perform r' m').2.disk := by
  cases op with
  | transmit s => exact absurd rfl (quiet s)
  | discard =>
    have same : r.discard = r'.discard := by
      unfold CrashReporter.discard scan
      rw [directory]
    refine ⟨rfl, ?_⟩
    show (r.discard m).2.disk = (r'.discard m').2.disk
    rw [same]
    exact ((routine_discard r').byFiles m m' disk).2
  | checkOnce =>
    obtain ⟨reporter, disk₁, -⟩ := ensures_checkOnce (r := r) (m := m)
    obtain ⟨-, disk₂, -⟩ := ensures_checkOnce (r := r') (m := m')
    refine ⟨?_, ?_⟩
    · show (r.checkOnce m).1.2.unchecked = r.unchecked
      rw [reporter]
      rfl
    · show (r.checkOnce m).2.disk = (r'.checkOnce m').2.disk
      rw [disk₁, disk₂, disk]
  | crashesPresent =>
    have same : r.crashesPresent = r'.crashesPresent := by
      unfold CrashReporter.crashesPresent scan
      rw [directory]
    refine ⟨rfl, ?_⟩
    show (r.crashesPresent m).2.disk = (r'.crashesPresent m').2.disk
    rw [same]
    exact ((routine_crashesPresent r').byFiles m m' disk).2
  | others change => exact ⟨rfl, congrArg change disk⟩

/-- The operation as others would do it: one that does not send is what it does to the disk for a
reporter that was just made, and nothing more. -/
def byOthers (made : CrashReporter) : ReporterOp → ReporterOp
  | transmit s => transmit s
  | op => others fun d => (op.perform made (.new d)).2.disk

/-- What an operation makes of a reporter, and what is handed over meanwhile. -/
structure Leaves (op : ReporterOp) (r : CrashReporter) (m : Machine) (r' : CrashReporter)
    (v : Machine) : Prop where
  fresh : r'.fresh = r.fresh
  checked : r'.checked = true ↔ r.checked = true ∨ op = .checkOnce
  sent : r'.sent = true ↔ r.sent = true ∨ (∃ s, op = .transmit s) ∧ (r.scan m).1 ≠ []
  handOvers : v.handOvers = m.handOvers ∨
    r.sent = false ∧ r'.sent = true ∧ ∃ report, v.handOvers = m.handOvers ++ [report]

theorem Leaves.of_handOvers {op : ReporterOp} {r' : CrashReporter} {v v' : Machine}
    (h : op.Leaves r m r' v) (same : v'.handOvers = v.handOvers) : op.Leaves r m r' v' :=
  { h with handOvers := by rw [same]; exact h.handOvers }

/-- An operation that neither sends nor looks for the first time leaves the reporter alone. -/
theorem Leaves.unchanged {op : ReporterOp} {v : Machine} (other : op ≠ .checkOnce)
    (quiet : ∀ s, op ≠ .transmit s) (kept : v.handOvers = m.handOvers) : op.Leaves r m r v where
  fresh := rfl
  checked := by simp [other]
  sent := by simp [quiet]
  handOvers := .inl kept

/-- Every operation leaves the reporter as it is to; for a transmission, whichever way it ends. -/
theorem leaves_perform (op : ReporterOp) : (op.perform r).Ensures m (op.Leaves r m) := by
  cases op with
  | transmit s =>
    refine (ends_transmit s).bind fun result v ends => ensures_pure.2 ?_
    cases ends with
    | nothingToSend nothing files kept =>
      exact ⟨rfl, by simp, by simp [nothing], .inl kept⟩
    | alreadySent some again files kept => exact ⟨rfl, by simp, by simp [again], .inl kept⟩
    | unwritten some first blocked kept =>
      exact ⟨rfl, by simp [begun], by simp [begun, some], .inl kept⟩
    | @refused v e report some first handed =>
      exact ⟨rfl, by simp [begun], by simp [begun, some], .inr ⟨first, rfl, report, handed⟩⟩
    | @sent v report n some first handed =>
      exact ⟨rfl, by simp [begun], by simp [begun, some], .inr ⟨first, rfl, report, handed⟩⟩
  | discard =>
    refine (routine_discard r).ensures_handOvers.bind fun _ v kept => ensures_pure.2 ?_
    exact .unchanged (by simp) (by simp) kept
  | checkOnce =>
    refine ensures_checkOnce.bind fun result v done => ensures_pure.2 ?_
    obtain ⟨reporter, -, kept, -⟩ := done
    rw [reporter]
    exact ⟨rfl, by simp [looked], by simp [looked], .inl kept⟩
  | crashesPresent =>
    refine (routine_crashesPresent r).ensures_handOvers.bind fun _ v kept => ensures_pure.2 ?_
    exact .unchanged (by simp) (by simp) kept
  | others change => exact .unchanged (by simp) (by simp) rfl

/-- Sending goes on alike if all that does not send is done by others. -/
theorem alike_performAll {made r' : CrashReporter} {m' : Machine} {ops : List ReporterOp}
    (same : r.fresh = made.fresh) (alike : Alike r m r' m') :
    Alike (performAll r ops m).1 (performAll r ops m).2
      (performAll r' (ops.map (byOthers made)) m').1
      (performAll r' (ops.map (byOthers made)) m').2 := by
  induction ops generalizing r m r' m' with
  | nil => exact alike
  | cons op rest ih =>
    have leaves : op.Leaves r m (op.perform r m).1 (op.perform r m).2 := op.leaves_perform
    rw [List.map_cons, performAll_cons, performAll_cons]
    refine ih (leaves.fresh.trans same) ?_
    have directory : r.dataDir = made.dataDir := by
      show r.fresh.dataDir = made.fresh.dataDir
      rw [same]
    have replaced (quiet : ∀ s, op ≠ .transmit s)
        (effect : op.byOthers made = others fun d => (op.perform made (.new d)).2.disk) :
        Alike (op.perform r m).1 (op.perform r m).2 ((op.byOthers made).perform r' m').1
          ((op.byOthers made).perform r' m').2 := by
      have same : m.disk = (Machine.new m'.disk).disk := alike.disk
      obtain ⟨reporter, disk⟩ := alike_perform quiet directory same
      rw [effect]
      exact ⟨reporter.trans alike.reporter, disk⟩
    cases op with
    | transmit s =>
      rw [byOthers, perform_transmit, perform_transmit]
      exact (alike.transmit s).2
    | discard => exact replaced (by simp) rfl
    | checkOnce => exact replaced (by simp) rfl
    | crashesPresent => exact replaced (by simp) rfl
    | others change => exact replaced (by simp) rfl

end ReporterOp

/-! ## Runs -/

/-- A run of a reporter: what it is made on and for, and the operations in order. -/
structure ReporterRun where
  machine : Machine
  config : Config
  ops : List ReporterOp

namespace ReporterRun

open CrashReporter

/-- The reporter after the run, and the machine, on which nothing had happened before. -/
def final (run : ReporterRun) : CrashReporter × Machine :=
  ReporterOp.performAll run.config.reporter run.ops { run.machine with timeline := [] }

def reporter (run : ReporterRun) : CrashReporter := run.final.1

def after (run : ReporterRun) : Machine := run.final.2

/-- The artifacts that there are after the run. -/
def found (run : ReporterRun) : List CrashArtifact := (run.reporter.scan run.after).1

/-- A transmission after the run. -/
def sending (run : ReporterRun) (s : Sender) :
    (Except Failure ReportOutcome × CrashReporter) × Machine :=
  run.reporter.transmit s.send run.after

/-- The run with other operations. -/
def upTo (run : ReporterRun) (ops : List ReporterOp) : ReporterRun := { run with ops }

/-- A transmission has found artifacts. -/
def Begun (run : ReporterRun) : Prop :=
  ∃ front s, front ++ [.transmit s] <+: run.ops ∧ (run.upTo front).found ≠ []

variable {run : ReporterRun} {ops : List ReporterOp} {op : ReporterOp}

/-- One more operation is performed where the others have led. -/
theorem final_concat : (run.upTo (ops ++ [op])).final =
    op.perform (run.upTo ops).reporter (run.upTo ops).after := ReporterOp.performAll_concat _ _ _ _

/-- The machine after a run that ends in a transmission is the one that it leaves. -/
theorem after_transmit (s : Sender) :
    (run.upTo (ops ++ [.transmit s])).after = ((run.upTo ops).sending s).2 := by
  rw [after, final_concat, ReporterOp.perform_transmit]
  rfl

/-- The last operation of a run works on what the others have left. -/
theorem leaves_concat (run : ReporterRun) (ops : List ReporterOp) (op : ReporterOp) :
    op.Leaves (run.upTo ops).reporter (run.upTo ops).after
      (run.upTo (ops ++ [op])).reporter (run.upTo (ops ++ [op])).after := by
  show op.Leaves _ _ (run.upTo (ops ++ [op])).final.1 (run.upTo (ops ++ [op])).final.2
  rw [final_concat]
  exact op.leaves_perform

/-- A run has begun to send if it had before, or if its last operation does. -/
theorem begun_concat : (run.upTo (ops ++ [op])).Begun ↔
    (run.upTo ops).Begun ∨ (∃ s, op = .transmit s) ∧ (run.upTo ops).found ≠ [] := by
  constructor
  · rintro ⟨front, s, front_le, found⟩
    obtain same | earlier := List.prefix_concat_iff.1 front_le
    · obtain ⟨rfl, last⟩ := List.append_inj' same rfl
      exact .inr ⟨⟨s, (List.singleton_inj.1 last).symm⟩, found⟩
    · exact .inl ⟨front, s, earlier, found⟩
  · rintro (⟨front, s, earlier, found⟩ | ⟨⟨s, rfl⟩, found⟩)
    · exact ⟨front, s, earlier.trans (List.prefix_append _ _), found⟩
    · exact ⟨ops, s, List.prefix_rfl, found⟩

/-- What a run makes of a reporter, and what is handed over meanwhile. -/
structure Keeps (run : ReporterRun) : Prop where
  fresh : run.reporter.fresh = run.config.reporter
  checked : run.reporter.checked = true ↔ .checkOnce ∈ run.ops
  sent : run.reporter.sent = true ↔ run.Begun
  unsent : run.reporter.sent = false → run.after.handOvers = []
  once : run.after.handOvers.length ≤ 1

/-- Every run keeps its reporter so, by induction on the operations from the first to the last. -/
theorem keeps_upTo (run : ReporterRun) (ops : List ReporterOp) : (run.upTo ops).Keeps := by
  induction ops using List.reverseRecOn with
  | nil =>
    have nothing : ¬ (run.upTo []).Begun := by
      rintro ⟨front, s, front_le, -⟩
      simp [upTo] at front_le
    have unchecked : (run.upTo []).reporter.checked = false := rfl
    have unsent : (run.upTo []).reporter.sent = false := rfl
    refine ⟨rfl, ?_, ?_, fun _ => rfl, Nat.zero_le 1⟩
    · rw [unchecked]
      simp [upTo]
    · rw [unsent]
      simp [nothing]
  | append_singleton ops op before =>
    have leaves := run.leaves_concat ops op
    refine ⟨leaves.fresh.trans before.fresh, ?_, ?_, ?_, ?_⟩
    · rw [leaves.checked, before.checked]
      simp [upTo, eq_comm]
    · rw [leaves.sent, before.sent, begun_concat]
      rfl
    · intro unsent
      have unsent' : (run.upTo ops).reporter.sent = false := by
        have := leaves.sent
        simp_all
      obtain kept | ⟨-, sent, -⟩ := leaves.handOvers
      · rw [kept, before.unsent unsent']
      · simp_all
    · obtain kept | ⟨unsent, -, report, handed⟩ := leaves.handOvers
      · rw [kept]
        exact before.once
      · rw [handed, before.unsent unsent]
        exact Nat.le_refl 1

theorem keeps (run : ReporterRun) : run.Keeps := run.keeps_upTo run.ops

/-- The run in which all that does not send is done by others. -/
def byOthers (run : ReporterRun) : ReporterRun :=
  run.upTo (run.ops.map (.byOthers run.config.reporter))

/-- At most one report is handed over, however a reporter is used. A transmission finds nothing to
send exactly if there are no artifacts, which leaves the reporter as it is. Once a report was handed
over, a transmission that finds artifacts answers that it was sent and leaves the files alone. Only
the first look for artifacts gives any, and gives all there are. Looking and discarding make no
difference to a transmission but for the files that they remove. -/
theorem one_report_handed_over (run : ReporterRun) (s : Sender) :
    run.after.handOvers.length ≤ 1 ∧
      ((run.sending s).1.1 = .ok .nothingToSend ↔ run.found = []) ∧
      ((run.sending s).1.1 = .ok .nothingToSend → (run.sending s).1.2 = run.reporter) ∧
      (run.after.handOvers ≠ [] → run.found ≠ [] →
        (run.sending s).1.1 = .ok .alreadySent ∧ (run.sending s).2.disk = run.after.disk) ∧
      (∀ found, (run.reporter.checkOnce run.after).1.1 = some found ↔
        .checkOnce ∉ run.ops ∧ found = run.found ∧ found ≠ []) ∧
      (run.sending s).1.1 = (run.byOthers.sending s).1.1 ∧
      (run.sending s).2.disk = (run.byOthers.sending s).2.disk := by
  have keeps := run.keeps
  have ends : run.reporter.Ends run.after (run.sending s).1 (run.sending s).2 := ends_transmit s
  obtain ⟨-, -, -, looks⟩ := ensures_checkOnce (r := run.reporter) (m := run.after)
  have alike : Alike run.reporter run.after run.byOthers.reporter run.byOthers.after :=
    ReporterOp.alike_performAll rfl ⟨rfl, rfl⟩
  obtain ⟨result, -, disk⟩ := alike.transmit s
  refine ⟨keeps.once, ends.nothingToSend_iff, ends.eq_of_nothingToSend, ?_, ?_, result, disk⟩
  · intro handed some
    have again : run.reporter.sent = true := by
      rw [← Bool.not_eq_false]
      exact fun unsent => handed (keeps.unsent unsent)
    exact ⟨ends.alreadySent_iff.2 ⟨some, again⟩, (ends.kept_of_sent again).1⟩
  · intro found
    rw [looks found, ← Bool.not_eq_true, keeps.checked]
    rfl

/-! ## The first report -/

/-- A run that has begun to send has done so however it goes on. -/
theorem begun_mono {front : List ReporterOp} (earlier : front <+: ops)
    (begun : (run.upTo front).Begun) : (run.upTo ops).Begun := by
  obtain ⟨first, s, first_le, found⟩ := begun
  exact ⟨first, s, first_le.trans earlier, found⟩

/-- Once a transmission has found artifacts, nothing more is handed over. -/
theorem handOvers_of_begun {front : List ReporterOp} (earlier : front <+: ops)
    (begun : (run.upTo front).Begun) :
    (run.upTo ops).after.handOvers = (run.upTo front).after.handOvers := by
  induction ops using List.reverseRecOn with
  | nil => rw [List.prefix_nil.1 earlier]
  | append_singleton ops op before =>
    obtain same | earlier := List.prefix_concat_iff.1 earlier
    · rw [same]
    · have sent : (run.upTo ops).reporter.sent = true :=
        (run.keeps_upTo ops).sent.2 (begun_mono earlier begun)
      obtain kept | ⟨unsent, -⟩ := (run.leaves_concat ops op).handOvers
      · rw [kept, before earlier]
      · exact absurd sent (by simp [unsent])

/-- After the run, a transmission is the first to find artifacts and can write no report: it hands
none over and fails, as every place for the report is blocked. -/
structure FailsNext (run : ReporterRun) (s : Sender) : Prop where
  found : run.found ≠ []
  first : ¬ run.Begun
  silent : (run.sending s).2.handOvers = []
  failed : ∃ e, (run.sending s).1.1 = .error e
  blocked : ∀ directory ∈ run.reporter.targets run.after.disk.tree,
    run.after.disk.Blocked (reportFile directory)

/-- If nothing is handed over by the first transmission that finds artifacts, no place for the
report could be written. -/
theorem failsNext {s : Sender} (some : run.found ≠ []) (first : ¬ run.Begun)
    (silent : (run.sending s).2.handOvers = []) : run.FailsNext s := by
  have unsent : run.reporter.sent = false := by
    rw [← Bool.not_eq_true, run.keeps.sent]
    exact first
  have ends : run.reporter.Ends run.after (run.sending s).1 (run.sending s).2 := ends_transmit s
  have kept : (run.sending s).2.handOvers = run.after.handOvers := by
    rw [silent, run.keeps.unsent unsent]
  obtain ⟨failed, blocked⟩ := ends.blocked some unsent kept
  exact ⟨some, first, silent, failed, blocked⟩

/-- A run that has begun and handed nothing over has met such a transmission. -/
theorem exists_failsNext (begun : (run.upTo ops).Begun)
    (silent : (run.upTo ops).after.handOvers = []) :
    ∃ front s, front ++ [.transmit s] <+: ops ∧ (run.upTo front).FailsNext s := by
  induction ops using List.reverseRecOn with
  | nil =>
    obtain ⟨front, s, front_le, -⟩ := begun
    simp [upTo] at front_le
  | append_singleton ops op before =>
    by_cases earlier : (run.upTo ops).Begun
    · have kept := handOvers_of_begun (List.prefix_append ops [op]) earlier
      obtain ⟨front, s, front_le, fails⟩ := before earlier (kept.symm.trans silent)
      exact ⟨front, s, front_le.trans (List.prefix_append _ _), fails⟩
    · -- the last operation is the first transmission to find artifacts
      obtain ⟨⟨s, rfl⟩, found⟩ := (begun_concat.1 begun).resolve_left earlier
      rw [after_transmit] at silent
      exact ⟨ops, s, List.prefix_rfl, failsNext found earlier silent⟩

/-- Since a transmission found artifacts, nothing was handed over exactly if the first that found
any could write no report. -/
theorem handOvers_eq_nil_iff (run : ReporterRun) (ops : List ReporterOp)
    (begun : (run.upTo ops).Begun) :
    (run.upTo ops).after.handOvers = [] ↔
      ∃ front s, front ++ [.transmit s] <+: ops ∧ (run.upTo front).FailsNext s := by
  refine ⟨exists_failsNext begun, ?_⟩
  rintro ⟨front, s, earlier, fails⟩
  have now : (run.upTo (front ++ [.transmit s])).Begun := ⟨front, s, List.prefix_rfl, fails.found⟩
  rw [handOvers_of_begun earlier now, after_transmit, fails.silent]

/-- A transmission answers that a report was sent exactly if it finds artifacts and one before it
has found some. Since then nothing is handed over any more. And nothing was handed over at all
exactly if the first transmission that found artifacts could write no report: it failed with every
place for the report blocked. -/
theorem alreadySent_iff_begun (run : ReporterRun) (s : Sender) :
    ((run.sending s).1.1 = .ok .alreadySent ↔ run.found ≠ [] ∧ run.Begun) ∧
      (run.Begun → (run.sending s).2.handOvers = run.after.handOvers) ∧
      (run.Begun → (run.after.handOvers = [] ↔
        ∃ front t, front ++ [.transmit t] <+: run.ops ∧ (run.upTo front).FailsNext t)) := by
  have ends : run.reporter.Ends run.after (run.sending s).1 (run.sending s).2 := ends_transmit s
  refine ⟨?_, fun begun => ?_, run.handOvers_eq_nil_iff run.ops⟩
  · rw [ends.alreadySent_iff, run.keeps.sent]
    rfl
  · exact (ends.kept_of_sent (run.keeps.sent.2 begun)).2

/-- A dump is to be sent while there is no directory for the report, and then there is one. -/
def directoryTooLate : ReporterRun where
  machine := .new (Disk.empty.actAll [.putFile ⟨"data/a.dmp"⟩ (Text.utf8 "dump")])
  config := (Config.new ⟨"data"⟩).apply (.fallbackDir ⟨"out"⟩)
  ops := [.transmit (.recording true [] []), .others fun d => d.act (.makeDirectory ⟨"out"⟩)]

/-- The report is said to have been sent, although none was ever handed over and it could now be
written. -/
theorem exists_alreadySent_unsent :
    let again := directoryTooLate.sending (.recording true [] [])
    again.1.1 = .ok .alreadySent ∧ again.2.handOvers = [] ∧
      (directoryTooLate.found = [⟨.native, ⟨"data/a.dmp"⟩⟩]) ∧
      (directoryTooLate.reporter.writeAggregate "" directoryTooLate.after).1 =
        .ok ⟨"out/emu_crash.txt"⟩ := by
  decide +kernel

end ReporterRun
end EmuFront
