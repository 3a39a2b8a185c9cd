import EmuFront.Proofs.Transmission

/-!
# What reporting leaves behind

Once a report was sent no artifact is left, and after any other outcome all artifacts are as they
were. Discarding leaves none either. In each case the only other files that can have changed are the
processed forms of dumps and the file of the report.
-/

namespace EmuFront

open Storage Storage.Tree

namespace CrashReporter

open CrashArtifact Work

variable {t t' : Tree} {m : Machine} {r : CrashReporter}

/-! ## Places that may change -/

/-- The place of one of the artifacts, or of the processed form of one that is a dump. -/
def ArtifactPlace (t : Tree) (as : List CrashArtifact) (loc : Location) : Prop :=
  ∃ a ∈ as, ∃ place, t.walk a.path = .ok place ∧
    (loc = place ∨ a.origin = .native ∧ ProcessedPlace place loc)

/-- The place of a file that the report may be written to. -/
def ReportPlace (r : CrashReporter) (t : Tree) (loc : Location) : Prop :=
  ∃ directory ∈ r.sharedDir.toList ++ [r.fallbackDir], t.walk (reportFile directory) = .ok loc

/-- Only artifacts and their processed forms are at the end of what is removed. -/
theorem artifactPlace_of_mem_removals {dataDir : Path} {p : Path} {loc : Location}
    (member : p ∈ (allIn t dataDir).flatMap removals) (led : t.walk p = .ok loc) :
    ArtifactPlace t (allIn t dataDir) loc := by
  obtain ⟨a, found, member⟩ := List.mem_flatMap.1 member
  refine ⟨a, found, ?_⟩
  obtain ⟨place, managed⟩ | ⟨dir, name, dump⟩ := mem_allIn_iff.1 found
  · rw [removals, managed.origin, List.mem_singleton] at member
    exact ⟨loc, member ▸ led, .inl rfl⟩
  · rw [removals, dump.origin, List.mem_cons, List.mem_singleton] at member
    obtain ⟨contents, place, -⟩ := dump.file
    rcases member with rfl | rfl
    · exact ⟨loc, led, .inl rfl⟩
    · exact ⟨_, place, .inr ⟨dump.origin, dump.processedPlace led⟩⟩

/-! ## A tree on which only the report can have changed -/

/-- The name of the file of a report. -/
def reportName : Name := .ofText "emu_crash.txt" (by decide)

theorem text_reportName : reportName.text = "emu_crash.txt" := Name.text_ofText _ _

/-- A report is neither a dump nor the file of recorded failures. -/
theorem reportName_foreign : reportName ≠ managedName ∧ isDumpName reportName.text = false := by
  rw [text_reportName]
  refine ⟨fun same => ?_, by decide⟩
  have texts := congrArg Name.text same
  rw [text_reportName, text_managedName] at texts
  exact absurd texts (by decide)

/-- The path of a report leads to a place of its name. -/
theorem exists_of_walk_reportFile {directory : Path} {loc : Location}
    (led : t.walk (reportFile directory) = .ok loc) : ∃ front, loc = front ++ [reportName] := by
  rw [reportFile, ← text_reportName] at led
  exact exists_of_walk_join (Name.isText_ofText _ _) led

/-- A tree is as it was, but for a report that may have been written. -/
def OnlyReport (r : CrashReporter) (t t' : Tree) : Prop :=
  t' = t ∨ ∃ directory ∈ r.sharedDir.toList ++ [r.fallbackDir], ∃ change,
    t.write (reportFile directory) change = .ok t'

namespace OnlyReport

/-- Writing a report moves no directory. -/
theorem sameDirectories (h : r.OnlyReport t t') : SameDirectories t t' := by
  obtain rfl | ⟨directory, -, change, written⟩ := h
  · exact .refl _
  · exact sameDirectories_write written

/-- A report has no name of an artifact, so that a scan finds the same. -/
theorem allIn_eq (h : r.OnlyReport t t') (dataDir : Path) : allIn t' dataDir = allIn t dataDir := by
  obtain rfl | ⟨directory, -, change, written⟩ := h
  · rfl
  · refine allIn_write written fun dir name led => ?_
    obtain ⟨front, same⟩ := exists_of_walk_reportFile led
    obtain ⟨-, rfl⟩ : dir = front ∧ name = reportName := by simpa using same
    exact reportName_foreign

theorem node?_eq (h : r.OnlyReport t t') {loc : Location} (foreign : ¬ r.ReportPlace t loc) :
    t'.node? loc = t.node? loc := by
  obtain rfl | ⟨directory, candidate, change, written⟩ := h
  · rfl
  · exact node?_write_of_ne written fun led => foreign ⟨directory, candidate, led⟩

/-- No artifact stands where a report is written. -/
theorem not_reportPlace {a : CrashArtifact} {dataDir : Path} {loc : Location}
    (member : a ∈ allIn t dataDir) (led : t.walk a.path = .ok loc) : ¬ r.ReportPlace t loc := by
  rintro ⟨directory, -, report⟩
  obtain ⟨front, rfl⟩ := exists_of_walk_reportFile report
  obtain ⟨place, managed⟩ | ⟨dir, name, dump⟩ := mem_allIn_iff.1 member
  · rw [managed.path] at led
    obtain ⟨dir, same⟩ := exists_of_walk_join isText_managedName led
    obtain ⟨-, same⟩ : front = dir ∧ reportName = managedName := by simpa using same
    exact reportName_foreign.1 same
  · obtain ⟨contents, place, -⟩ := dump.file
    obtain ⟨-, rfl⟩ : front = dir ∧ reportName = name := by
      simpa using Except.ok.inj (led.symm.trans place)
    exact absurd dump.named (reportName_foreign.2 ▸ Bool.false_ne_true)

theorem read_eq (h : r.OnlyReport t t') {a : CrashArtifact} {dataDir : Path}
    (member : a ∈ allIn t dataDir) : t'.read a.path = t.read a.path := by
  obtain ⟨loc, contents, led, stands⟩ := isFile_iff.1 (isFile_of_mem_allIn member)
  rw [read_eq_ok.2 ⟨loc, led, stands⟩, read_eq_ok]
  refine ⟨loc, h.sameDirectories.walk_of_ok led, ?_⟩
  rw [h.node?_eq (not_reportPlace member led), stands]

end OnlyReport

/-! ## The outcomes -/

/-- Discarding removes all that a scan finds, and gives its number. -/
theorem ensures_discard :
    r.discard.Ensures m fun n v => n = (allIn m.disk.tree r.dataDir).length ∧
      v.disk.tree = m.disk.tree.withoutAll ((allIn m.disk.tree r.dataDir).flatMap removals) := by
  refine ensures_scan.bind fun found m₁ ⟨found_eq, disk⟩ => ?_
  rw [found_eq, ← disk]
  exact ensures_delete_allIn

theorem mem_of_mem_targets {directory : Path} (member : directory ∈ r.targets t) :
    directory ∈ r.sharedDir.toList ++ [r.fallbackDir] := by
  rw [targets, List.mem_append] at member
  exact List.mem_append.2 (member.imp_left fun shared => (List.mem_filter.1 shared).1)

/-- What a transmission leaves of a tree, by its result: all files but that of the report, or what is
left after the artifacts are deleted. -/
inductive Leaves (r : CrashReporter) (t : Tree) : Except Failure ReportOutcome → Tree → Prop
  | kept {result : Except Failure ReportOutcome} {t' : Tree}
      (unsent : ∀ report n, result ≠ .ok (.sent report n)) (only : r.OnlyReport t t') :
      Leaves r t result t'
  | deleted {report : Path} {t' : Tree} (only : r.OnlyReport t t') :
      Leaves r t (.ok (.sent report (allIn t r.dataDir).length))
        (t'.withoutAll ((allIn t r.dataDir).flatMap removals))

/-- A transmission by what leaves the files alone. -/
theorem ensures_transmit {send : Path → Work (Except Failure Unit)}
    (keeps : ∀ report v, (send report v).2.disk.tree = v.disk.tree) :
    (r.transmit send).Ensures m fun result v =>
      r.Leaves m.disk.tree result.1 v.disk.tree := by
  obtain ⟨goes, transmission, run⟩ := r.exists_transmission m
  rw [Ensures, run]
  cases transmission with
  | nothingToSend nothing kept => exact .kept (by simp) (.inl (by rw [kept]))
  | alreadySent some again kept => exact .kept (by simp) (.inl (by rw [kept]))
  | unwritten some first files blocked => exact .kept (by simp) (.inl files.1)
  | @handedOver v directory entries some first target gathered written =>
    show Ensures (send (reportFile directory) >>= _) v
      fun (result : Except Failure ReportOutcome × CrashReporter) v =>
        r.Leaves m.disk.tree result.1 v.disk.tree
    have sends : (send (reportFile directory)).Ensures v fun _ v' => v'.disk.tree = v.disk.tree :=
      keeps _ v
    refine sends.bind fun answer v' tree => ?_
    have report : r.OnlyReport m.disk.tree v'.disk.tree :=
      .inr ⟨directory, mem_of_mem_targets target, _, tree ▸ written.1⟩
    cases answer with
    | error e =>
      have unsent : ∀ path n, (.error e : Except Failure ReportOutcome) ≠ .ok (.sent path n) := by
        simp
      exact .kept unsent report
    | ok _ =>
      refine (r.begun.ensures_conclude _ _ v').mono fun result v'' concluded => ?_
      rw [concluded.1, concluded.2]
      exact .deleted report

theorem Leaves.node?_eq {result : Except Failure ReportOutcome} (h : r.Leaves t result t')
    {loc : Location} (noArtifact : ¬ ArtifactPlace t (allIn t r.dataDir) loc)
    (noReport : ¬ r.ReportPlace t loc) : t'.node? loc = t.node? loc := by
  cases h with
  | kept unsent only => exact only.node?_eq noReport
  | deleted only =>
    rw [node?_withoutAll_of_ne, only.node?_eq noReport]
    intro p member led
    refine noArtifact (artifactPlace_of_mem_removals member ?_)
    exact only.sameDirectories.symm.walk_of_ok led

/-- Deleting what a scan finds leaves nothing to be found. -/
theorem allIn_withoutAll_removals {dataDir : Path} (same : allIn t' dataDir = allIn t dataDir) :
    allIn (t'.withoutAll ((allIn t dataDir).flatMap removals)) dataDir = [] := by
  refine allIn_withoutAll fun a member => List.mem_flatMap.2 ⟨a, ?_, a.path_mem_removals⟩
  rwa [← same]

/-- A report that was sent leaves no artifact. -/
theorem Leaves.of_sent {report : Path} {n : Nat} (h : r.Leaves t (.ok (.sent report n)) t') :
    allIn t' r.dataDir = [] ∧ n = (allIn t r.dataDir).length := by
  cases h with
  | kept unsent only => exact absurd rfl (unsent report n)
  | deleted only => exact ⟨allIn_withoutAll_removals (only.allIn_eq _), rfl⟩

/-- Any other outcome leaves every artifact, with its contents. -/
theorem Leaves.of_unsent {result : Except Failure ReportOutcome} (h : r.Leaves t result t')
    (unsent : ∀ report n, result ≠ .ok (.sent report n)) :
    allIn t' r.dataDir = allIn t r.dataDir ∧
      ∀ a ∈ allIn t r.dataDir, t'.read a.path = t.read a.path := by
  cases h with
  | kept _ only => exact ⟨only.allIn_eq _, fun _ => only.read_eq⟩
  | deleted only => exact absurd rfl (unsent _ _)

/-- A sent report counts the artifacts that were found and leaves none. Any other outcome leaves the
same artifacts with the same contents. Discarding leaves none and counts them. No other file changes
than artifacts, processed forms of dumps, and for a transmission the report. -/
theorem artifacts_deleted_iff_sent (r : CrashReporter) (m : Machine)
    {send : Path → Work (Except Failure Unit)}
    (keeps : ∀ report v, (send report v).2.disk.tree = v.disk.tree) :
    let found := (r.scan m).1
    let result := (r.transmit send m).1.1
    let after := (r.transmit send m).2
    let discarded := r.discard m
    (∀ report n, result = .ok (.sent report n) → (r.scan after).1 = [] ∧ n = found.length) ∧
    ((∀ report n, result ≠ .ok (.sent report n)) →
      (r.scan after).1 = found ∧
        ∀ a ∈ found, after.disk.tree.read a.path = m.disk.tree.read a.path) ∧
    (∀ loc, ¬ ArtifactPlace m.disk.tree found loc → ¬ r.ReportPlace m.disk.tree loc →
      after.disk.tree.node? loc = m.disk.tree.node? loc) ∧
    (r.scan discarded.2).1 = [] ∧ discarded.1 = found.length ∧
    (∀ loc, ¬ ArtifactPlace m.disk.tree found loc →
      discarded.2.disk.tree.node? loc = m.disk.tree.node? loc) := by
  intro found result after discarded
  have found_eq : found = allIn m.disk.tree r.dataDir := r.scan_eq m
  have leaves : r.Leaves m.disk.tree result after.disk.tree := ensures_transmit keeps
  obtain ⟨counted, tree⟩ : discarded.1 = (allIn m.disk.tree r.dataDir).length ∧
      discarded.2.disk.tree =
        m.disk.tree.withoutAll ((allIn m.disk.tree r.dataDir).flatMap removals) := ensures_discard
  rw [scan_eq, scan_eq, found_eq]
  refine ⟨?_, ?_, fun loc => leaves.node?_eq, ?_, counted, ?_⟩
  · intro report n sent
    rw [sent] at leaves
    exact leaves.of_sent
  · exact leaves.of_unsent
  · rw [tree]
    exact allIn_withoutAll_removals rfl
  · intro loc noArtifact
    rw [tree]
    refine node?_withoutAll_of_ne fun p member led => noArtifact ?_
    exact artifactPlace_of_mem_removals member led

/-- The file of recorded failures and a dump are reported and gone, where the processed form of the
dump lay beside it. -/
theorem artifacts_deleted_iff_sent_twoArtifacts :
    let r : CrashReporter := ⟨⟨"data"⟩, none, ⟨"out"⟩, 1, false, false, by decide⟩
    let m := Machine.new (Disk.empty.actAll
      [.makeDirectory ⟨"out"⟩, .putFile ⟨"data/managed_crash.txt"⟩ [104], .putFile ⟨"data/a.dmp"⟩ [1],
        .putFile ⟨"data/a.txt"⟩ [2]])
    let send : Path → Work (Except Failure Unit) := fun _ => pure (.ok ())
    (∀ report v, (send report v).2.disk.tree = v.disk.tree) ∧
      (r.transmit send m).1.1 = .ok (.sent ⟨"out/emu_crash.txt"⟩ 2) ∧
      (r.scan (r.transmit send m).2).1 = [] ∧ 2 = (r.scan m).1.length := by
  intro r m send
  have keeps : ∀ report v, (send report v).2.disk.tree = v.disk.tree := fun _ _ => rfl
  have sent : (r.transmit send m).1.1 = .ok (.sent ⟨"out/emu_crash.txt"⟩ 2) := by decide +kernel
  exact ⟨keeps, sent, (artifacts_deleted_iff_sent r m keeps).1 _ _ sent⟩

end CrashReporter
end EmuFront
