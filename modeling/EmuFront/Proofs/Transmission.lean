import EmuFront.Proofs.Deletion
import EmuFront.Proofs.ReportWriting

/-!
# How a transmission goes

A transmission ends before anything is sent, or it hands a report over. The report has one part for
each artifact that the scan found, and is written before it is handed over, when no file but its own
has changed. What follows depends on the answer alone: a refusal ends it, an acceptance deletes the
artifacts.
-/

namespace EmuFront

open Storage Storage.Tree

/-! ## The parts of a report -/

namespace CrashArtifact

variable {t : Tree} {dataDir : Path}

/-- The part of a report on an artifact, with the text that was read for it if one was. -/
def entry (t : Tree) (a : CrashArtifact) (text : Option String) : String :=
  "=== " ++ a.origin.name ++ " crash: " ++ (a.source t).text ++ " ===\n" ++
    text.getD "<unreadable>" ++ "\n"

/-- A report: for each artifact what was read for it. -/
def reportOf (t : Tree) (entries : List (CrashArtifact × Option String)) : String :=
  String.join (entries.map fun e => e.1.entry t e.2)

/-- A text is what the source of an artifact holds. -/
def HasText (t : Tree) (a : CrashArtifact) (text : String) : Prop :=
  ∃ contents, t.read (a.source t) = .ok contents ∧ text = Text.decode contents

/-- The source of an artifact stands. -/
theorem exists_read_source {a : CrashArtifact} (member : a ∈ allIn t dataDir) :
    ∃ contents, t.read (a.source t) = .ok contents := by
  have file : t.isFile (a.source t) = true := by
    unfold source
    split
    · exact isFile_of_mem_allIn member
    · split
      · assumption
      · exact isFile_of_mem_allIn member
  obtain ⟨loc, contents, stands⟩ := isFile_iff.1 file
  exact ⟨contents, read_eq_ok.2 ⟨loc, stands⟩⟩

end CrashArtifact

namespace CrashReporter

open CrashArtifact Work

variable {m : Machine} {r : CrashReporter}

/-- A scan finds what the tree holds, and leaves the disk as it is. -/
theorem ensures_scan :
    r.scan.Ensures m fun found v => found = allIn m.disk.tree r.dataDir ∧ v.disk = m.disk := by
  obtain ⟨v, scanned, disk⟩ := scanArtifacts_eq r.dataDir m
  rw [Ensures, scan, scanned]
  exact ⟨rfl, disk⟩

theorem scan_eq (r : CrashReporter) (m : Machine) :
    (r.scan m).1 = allIn m.disk.tree r.dataDir := And.left (ensures_scan (r := r) (m := m))

/-- What is read for artifacts from a disk, each source in at most so many attempts. -/
structure Gathered (d : Disk) (attempts : Nat) (as : List CrashArtifact)
    (entries : List (CrashArtifact × Option String)) : Prop where
  artifacts : entries.map Prod.fst = as
  texts : ∀ e ∈ entries, ∀ text, e.2 = some text → e.1.HasText d.tree text
  /-- A source whose faults are got over is read. -/
  read : ∀ e ∈ entries, d.ReadableWithin (e.1.source d.tree) attempts → e.2.isSome = true
  /-- All sources are read only if the faults of all are got over. -/
  readable : (∀ e ∈ entries, e.2.isSome = true) →
    ∀ a ∈ as, d.ReadableWithin (a.source d.tree) attempts

/-- The entry of an artifact tells what was read of its source. -/
theorem ensures_entryText {a : CrashArtifact} {contents : Text.Bytes}
    (stands : m.disk.tree.read (a.source m.disk.tree) = .ok contents) :
    (r.entryText a).Ensures m fun part v =>
      ∃ text, part = a.entry m.disk.tree text ∧
        Tried r.attempts (a.source m.disk.tree) contents m.disk v.disk text := by
  refine ensures_askTree_bind.2 ?_
  refine (ensures_readWithRetry stands r.attempts).bind fun text v tried => ?_
  exact ⟨text, rfl, tried⟩

/-- The first artifact is read before the others, from the faults that are in store then. -/
theorem Gathered.cons {d d' : Disk} {attempts : Nat} {a : CrashArtifact} {text : Option String}
    {contents : Text.Bytes} {as : List CrashArtifact}
    {entries : List (CrashArtifact × Option String)}
    (stands : d.tree.read (a.source d.tree) = .ok contents)
    (tried : Tried attempts (a.source d.tree) contents d d' text)
    (rest : Gathered d' attempts as entries) :
    Gathered d attempts (a :: as) ((a, text) :: entries) := by
  obtain ⟨artifacts, texts, read, readable⟩ := rest
  have tree := tried.files.1
  rw [tree] at texts read readable
  refine ⟨congrArg (a :: ·) artifacts, ?_, ?_, ?_⟩
  · refine List.forall_mem_cons.2 ⟨fun s found => ⟨contents, stands, ?_⟩, texts⟩
    obtain whole | none := tried.read
    · exact Option.some.inj (found.symm.trans whole)
    · exact absurd (found.symm.trans none) (by simp)
  · refine List.forall_mem_cons.2 ⟨tried.isSome_iff.2, fun e member within => ?_⟩
    exact read e member (tried.readableWithin within)
  · intro all
    obtain ⟨first, all⟩ := List.forall_mem_cons.1 all
    refine List.forall_mem_cons.2 ⟨tried.isSome_iff.1 first, fun b member => ?_⟩
    exact tried.readableWithin_of_after first (readable all b member)

/-- The report holds one entry for each artifact, in order. -/
theorem ensures_aggregate (as : List CrashArtifact)
    (stands : ∀ a ∈ as, ∃ contents, m.disk.tree.read (a.source m.disk.tree) = .ok contents) :
    (r.aggregate as).Ensures m fun report v =>
      m.disk.SameFiles v.disk ∧ ∃ entries, Gathered m.disk r.attempts as entries ∧
        report = reportOf m.disk.tree entries := by
  induction as generalizing m with
  | nil =>
    refine ⟨.refl _, [], ⟨rfl, ?_, ?_, ?_⟩, rfl⟩ <;> simp
  | cons a rest ih =>
    obtain ⟨⟨contents, first⟩, stands⟩ := List.forall_mem_cons.1 stands
    refine (ensures_entryText first).bind fun part m₁ ⟨text, part_eq, tried⟩ => ?_
    have tree₁ := tried.files.1
    have stands₁ : ∀ b ∈ rest, ∃ contents, m₁.disk.tree.read (b.source m₁.disk.tree) =
        .ok contents := tree₁ ▸ stands
    refine (ih stands₁).bind fun more v ⟨files, entries, gathered, more_eq⟩ => ?_
    rw [tree₁] at more_eq
    refine ⟨tried.files.trans files, (a, text) :: entries, gathered.cons first tried, ?_⟩
    rw [part_eq, more_eq]
    exact String.join_cons.symm

/-! ## Writing the report -/

/-- The directories that a report may be written into. -/
def targets (r : CrashReporter) (t : Tree) : List Path :=
  r.sharedDir.toList.filter t.isDirectory ++ [r.fallbackDir]

/-- A report is written into one of the directories, or all of them are blocked. -/
theorem ensures_writeInto (report : String) (directories : List Path) (last : Failure) :
    (r.writeInto report directories last).Ensures m fun result v =>
      match result with
      | .ok path => ∃ directory ∈ directories, path = reportFile directory ∧
          m.disk.Written path (fun _ => Text.utf8 report) v.disk
      | .error _ => m.disk.SameFiles v.disk ∧
          ∀ directory ∈ directories, m.disk.Blocked (reportFile directory) := by
  refine (ensures_writeInto_inTurn r report directories last).mono fun result v wrote => ?_
  have changed := wrote.changed
  cases result with
  | ok path =>
    obtain ⟨directory, member, copy⟩ := List.mem_flatMap.1 changed.1
    exact ⟨directory, member, List.eq_of_mem_replicate copy, changed.2⟩
  | error e =>
    refine ⟨changed.1, fun directory member => changed.2 _ (List.mem_flatMap.2 ?_)⟩
    exact ⟨directory, member, List.mem_replicate.2 ⟨Nat.ne_of_gt r.attempts_pos, rfl⟩⟩

/-- The directories are those of the reporter. -/
theorem ensures_writeAggregate (report : String) :
    (r.writeAggregate report).Ensures m fun result v =>
      match result with
      | .ok path => ∃ directory ∈ r.targets m.disk.tree, path = reportFile directory ∧
          m.disk.Written path (fun _ => Text.utf8 report) v.disk
      | .error _ => m.disk.SameFiles v.disk ∧
          ∀ directory ∈ r.targets m.disk.tree, m.disk.Blocked (reportFile directory) :=
  ensures_askTree_bind.2 (ensures_writeInto _ _ _)

/-- Gathers artifacts into a report and writes it. -/
def gather (r : CrashReporter) (as : List CrashArtifact) : Work (Except Failure Path) := do
  r.writeAggregate (← r.aggregate as)

theorem ensures_gather (as : List CrashArtifact)
    (stands : ∀ a ∈ as, ∃ contents, m.disk.tree.read (a.source m.disk.tree) = .ok contents) :
    (r.gather as).Ensures m fun result v =>
      match result with
      | .ok path => ∃ directory ∈ r.targets m.disk.tree, path = reportFile directory ∧
          ∃ entries, Gathered m.disk r.attempts as entries ∧
            m.disk.Written path (fun _ => Text.utf8 (reportOf m.disk.tree entries)) v.disk
      | .error _ => m.disk.SameFiles v.disk ∧
          ∀ directory ∈ r.targets m.disk.tree, m.disk.Blocked (reportFile directory) := by
  refine (ensures_aggregate as stands).bind fun report m₁ ⟨files, entries, gathered, eq⟩ => ?_
  subst eq
  refine (ensures_writeAggregate _).mono fun result v written => ?_
  rw [files.1] at written
  cases result with
  | ok path =>
    obtain ⟨directory, member, path_eq, written⟩ := written
    exact ⟨directory, member, path_eq, entries, gathered, written.after files⟩
  | error e =>
    obtain ⟨files', blocked⟩ := written
    exact ⟨files.trans files', fun directory member => (blocked directory member).of_sameFiles files⟩

/-! ## The whole -/

/-- A reporter that has begun its one report. -/
def begun (r : CrashReporter) : CrashReporter := { r with sent := true }

/-- What follows the answer to a report of artifacts. -/
def conclude (r : CrashReporter) (report : Path) (as : List CrashArtifact) :
    Except Failure Unit → Work (Except Failure ReportOutcome × CrashReporter)
  | .error e => return (.error e, r)
  | .ok () => do
    Work.log .info s!"Crash report sent: {report.text}"
    let _ ← delete as
    return (.ok (.sent report as.length), r)

/-- Once a report is accepted, its artifacts are deleted. -/
theorem ensures_conclude (r : CrashReporter) (report : Path) (as : List CrashArtifact)
    (m : Machine) :
    (r.conclude report as (.ok ())).Ensures m fun result v =>
      result = (.ok (.sent report as.length), r) ∧
        v.disk.tree = m.disk.tree.withoutAll (as.flatMap removals) := by
  refine (ensures_log _ _).bind fun _ m₁ disk => ?_
  refine (ensures_delete as).bind fun _ v ⟨tree, _⟩ => ensures_pure.2 ⟨rfl, ?_⟩
  rw [tree, disk]

/-- What an accepted report leads to. -/
theorem ensures_accepted (r : CrashReporter) (report : Path) (as : List CrashArtifact)
    {sending : Work (Except Failure Unit)} (accepted : (sending m).1 = .ok ()) :
    (sending >>= r.conclude report as).Ensures m fun result v =>
      result = (.ok (.sent report as.length), r) ∧
        v.disk.tree = (sending m).2.disk.tree.withoutAll (as.flatMap removals) := by
  have answered : sending.Ensures m fun answer v => answer = .ok () ∧ v = (sending m).2 :=
    ⟨accepted, rfl⟩
  refine answered.bind fun answer v ⟨ok, after⟩ => ?_
  rw [ok, ← after]
  exact r.ensures_conclude report as v

/-- A transmission in three parts: what guards it, the report, and what follows the answer. -/
theorem transmit_eq (r : CrashReporter) (send : Path → Work (Except Failure Unit)) :
    r.transmit send = (do
      let artifacts ← r.scan
      if artifacts.isEmpty then
        return (.ok .nothingToSend, r)
      else if r.sent then
        Work.log .debug "Crash report already sent this session"
        return (.ok .alreadySent, r)
      else
        match ← r.begun.gather artifacts with
        | .error e => return (.error e, r.begun)
        | .ok path =>
          Work.observe (.handedOver path)
          send path >>= r.begun.conclude path artifacts) := rfl

/-- How a transmission on a machine goes, as a function of what sends the report. -/
inductive Transmission (r : CrashReporter) (m : Machine) :
    ((Path → Work (Except Failure Unit)) →
      (Except Failure ReportOutcome × CrashReporter) × Machine) → Prop
  | nothingToSend {v : Machine} (nothing : allIn m.disk.tree r.dataDir = [])
      (kept : v.disk = m.disk) :
      Transmission r m fun _ => ((.ok .nothingToSend, r), v)
  | alreadySent {v : Machine} (some : allIn m.disk.tree r.dataDir ≠ []) (again : r.sent = true)
      (kept : v.disk = m.disk) :
      Transmission r m fun _ => ((.ok .alreadySent, r), v)
  | unwritten {v : Machine} {e : Failure} (some : allIn m.disk.tree r.dataDir ≠ [])
      (first : r.sent = false) (files : m.disk.SameFiles v.disk)
      (blocked : ∀ directory ∈ r.targets m.disk.tree, m.disk.Blocked (reportFile directory)) :
      Transmission r m fun _ => ((.error e, r.begun), v)
  /-- The report is handed over on the machine `v`. -/
  | handedOver {v : Machine} {directory : Path} {entries : List (CrashArtifact × Option String)}
      (some : allIn m.disk.tree r.dataDir ≠ []) (first : r.sent = false)
      (target : directory ∈ r.targets m.disk.tree)
      (gathered : Gathered m.disk r.attempts (allIn m.disk.tree r.dataDir) entries)
      (written : m.disk.Written (reportFile directory)
        (fun _ => Text.utf8 (reportOf m.disk.tree entries)) v.disk) :
      Transmission r m fun send =>
        (send (reportFile directory) >>=
          r.begun.conclude (reportFile directory) (allIn m.disk.tree r.dataDir)) v

/-- Every transmission goes one of these ways, whatever it is sent with. -/
theorem exists_transmission (r : CrashReporter) (m : Machine) :
    ∃ goes, r.Transmission m goes ∧ ∀ send, r.transmit send m = goes send := by
  obtain ⟨m₁, scanned, disk₁⟩ := scanArtifacts_eq r.dataDir m
  simp only [transmit_eq, scan, run_bind, scanned]
  by_cases nothing : allIn m.disk.tree r.dataDir = []
  · refine ⟨_, .nothingToSend nothing disk₁, fun send => ?_⟩
    rw [nothing]
    rfl
  have some : ¬ (allIn m.disk.tree r.dataDir).isEmpty = true := by simpa using nothing
  cases again : r.sent with
  | true =>
    let v := (log .debug "Crash report already sent this session" m₁).2
    refine ⟨_, .alreadySent (v := v) nothing again disk₁, fun send => ?_⟩
    rw [if_neg some, if_pos rfl]
    rfl
  | false =>
    simp only [if_neg some, Bool.false_eq_true, if_false, run_bind]
    have stands : ∀ a ∈ allIn m.disk.tree r.dataDir,
        ∃ contents, m₁.disk.tree.read (a.source m₁.disk.tree) = .ok contents := by
      rw [disk₁]
      exact fun a => exists_read_source
    have gathers := ensures_gather (r := r.begun) _ stands
    unfold Ensures at gathers
    rw [disk₁] at gathers
    revert gathers
    rcases r.begun.gather (allIn m.disk.tree r.dataDir) m₁ with ⟨result, m₂⟩
    intro gathers
    cases result with
    | error e => exact ⟨_, .unwritten nothing again gathers.1 gathers.2, fun _ => rfl⟩
    | ok path =>
      obtain ⟨directory, target, rfl, entries, gathered, written⟩ := gathers
      let v := (observe (.handedOver (reportFile directory)) m₂).2
      exact ⟨_, .handedOver (v := v) nothing again target gathered written, fun _ => rfl⟩

end CrashReporter
end EmuFront
