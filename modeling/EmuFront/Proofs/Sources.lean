import EmuFront.Proofs.Transmission

/-!
# What the sections of a report are read from

Each section of a report is read from the artifact itself, or for a dump from its processed form.
The processed form of a dump may be that of another dump, since names of dumps differ in letter case
too, and it may be the file of recorded failures. In no other way do two sections share a file.
-/

namespace EmuFront

open Storage Storage.Tree

namespace Storage.Tree

variable {t : Tree} {p q : Path} {loc : Location}

/-- Two paths lead to one place. -/
def SamePlace (t : Tree) (p q : Path) : Prop := ∃ loc, t.walk p = .ok loc ∧ t.walk q = .ok loc

theorem samePlace_iff {loc' : Location} (led : t.walk p = .ok loc) (led' : t.walk q = .ok loc') :
    t.SamePlace p q ↔ loc = loc' := by
  constructor
  · rintro ⟨l, leads, leads'⟩
    rw [Except.ok.inj (led.symm.trans leads), Except.ok.inj (led'.symm.trans leads')]
  · rintro rfl
    exact ⟨loc, led, led'⟩

/-- Whether a path leads to a file depends on the place alone. -/
theorem SamePlace.isFile_eq (same : t.SamePlace p q) : t.isFile p = t.isFile q := by
  obtain ⟨loc, led, led'⟩ := same
  rw [isFile, isFile, lookup, lookup, led, led']

end Storage.Tree

namespace CrashArtifact

variable {t : Tree} {dataDir : Path} {a b : CrashArtifact} {dir : Location}
  {name name' processed processed' : Name}

/-! ## Artifacts by name -/

/-- The file of recorded failures is named as if it were its own processed form. -/
theorem processedName_managedName : processedName managedName.text = managedName.text := by
  rw [text_managedName]
  decide

/-- The file of recorded failures is no dump. -/
theorem managedName_not_dump : isDumpName managedName.text = false := by
  rw [text_managedName]
  decide

/-- An artifact stands in a directory under a name, which tells of what origin it is. -/
structure NamedAt (t : Tree) (dataDir : Path) (a : CrashArtifact) (dir : Location) (name : Name) :
    Prop where
  path : a.path = dataDir.join name.text
  led : t.walk dataDir = .ok dir
  directory : t.node? dir = some .directory
  isText : name.isText = true
  origin : a.origin = .managed ∧ name = managedName ∨ DumpAt t dataDir a dir name
  file : ∃ contents, t.FileAt a.path (dir ++ [name]) contents

theorem DumpAt.namedAt (dump : DumpAt t dataDir a dir name) : NamedAt t dataDir a dir name :=
  ⟨dump.path, dump.listable.led, dump.listable.directory, dump.isText, .inr dump, dump.file⟩

theorem ManagedAt.namedAt {loc : Location} (managed : ManagedAt t dataDir a loc)
    (led : t.walk dataDir = .ok dir) (directory : t.node? dir = some .directory) :
    NamedAt t dataDir a dir managedName := by
  obtain ⟨contents, stands⟩ := managed.file
  have place : loc = dir ++ [managedName] :=
    eq_of_fileAt_join led directory isText_managedName (managed.path ▸ stands)
  exact ⟨managed.path, led, directory, isText_managedName, .inl ⟨managed.origin, rfl⟩, contents,
    place ▸ stands⟩

namespace NamedAt

theorem walk_path (listed : NamedAt t dataDir a dir name) : t.walk a.path = .ok (dir ++ [name]) :=
  let ⟨_, stands⟩ := listed.file
  stands.1

theorem fileName_path (listed : NamedAt t dataDir a dir name) : a.path.fileName = name.text := by
  rw [listed.path, Name.fileName_join listed.isText]

theorem isFile_path (listed : NamedAt t dataDir a dir name) : t.isFile a.path = true :=
  let ⟨contents, stands⟩ := listed.file
  isFile_iff.2 ⟨_, contents, stands⟩

/-- An artifact is known by its name. -/
theorem eq (ha : NamedAt t dataDir a dir name) (hb : NamedAt t dataDir b dir name) : a = b := by
  obtain ⟨origin, path⟩ := a
  obtain ⟨origin', path'⟩ := b
  obtain rfl : path = path' := ha.path.trans hb.path.symm
  obtain ⟨rfl, rfl⟩ | dump := ha.origin
  · obtain ⟨rfl, -⟩ | dump' := hb.origin
    · rfl
    · exact absurd dump'.named (managedName_not_dump ▸ Bool.false_ne_true)
  · obtain ⟨-, rfl⟩ | dump' := hb.origin
    · exact absurd dump.named (managedName_not_dump ▸ Bool.false_ne_true)
    · obtain rfl : origin = origin' := dump.origin.trans dump'.origin.symm
      rfl

end NamedAt

/-- Different artifacts stand in one directory, under different names. -/
theorem exists_namedAt (ha : a ∈ allIn t dataDir) (hb : b ∈ allIn t dataDir) (other : a ≠ b) :
    ∃ dir name name', NamedAt t dataDir a dir name ∧ NamedAt t dataDir b dir name' ∧
      name ≠ name' := by
  have apart {dir : Location} {name name' : Name} (ha : NamedAt t dataDir a dir name)
      (hb : NamedAt t dataDir b dir name') : name ≠ name' := by
    rintro rfl
    exact other (ha.eq hb)
  obtain ⟨loc, managed⟩ | ⟨dir, name, dump⟩ := mem_allIn_iff.1 ha
  · obtain ⟨loc', managed'⟩ | ⟨dir', name', dump'⟩ := mem_allIn_iff.1 hb
    · obtain ⟨origin, path⟩ := a
      obtain ⟨origin', path'⟩ := b
      obtain ⟨rfl, rfl, -⟩ := managed
      obtain ⟨rfl, rfl, -⟩ := managed'
      exact absurd rfl other
    · have first := managed.namedAt dump'.listable.led dump'.listable.directory
      exact ⟨dir', _, name', first, dump'.namedAt, apart first dump'.namedAt⟩
  · obtain ⟨loc', managed'⟩ | ⟨dir', name', dump'⟩ := mem_allIn_iff.1 hb
    · have second := managed'.namedAt dump.listable.led dump.listable.directory
      exact ⟨dir, name, _, dump.namedAt, second, apart dump.namedAt second⟩
    · obtain rfl := Except.ok.inj (dump.listable.led.symm.trans dump'.listable.led)
      exact ⟨dir, name, name', dump.namedAt, dump'.namedAt, apart dump.namedAt dump'.namedAt⟩

/-! ## Sources -/

/-- Where an artifact is read from: the place of its processed form if a file stands there, or else
its own. Only a dump can be without processed form. -/
structure ReadAt (t : Tree) (a : CrashArtifact) (dir : Location) (name processed : Name) :
    Prop where
  isText : processed.isText = true
  text : processed.text = processedName name.text
  not_dump : isDumpName processed.text = false
  led : t.walk (processedPath a.path) = .ok (dir ++ [processed])
  source : t.walk (a.source t) =
    .ok (dir ++ [if t.isFile (processedPath a.path) then processed else name])
  dump : ¬ t.isFile (processedPath a.path) = true → isDumpName name.text = true

theorem NamedAt.exists_readAt (listed : NamedAt t dataDir a dir name) :
    ∃ processed, ReadAt t a dir name processed := by
  obtain ⟨origin, rfl⟩ | dump := listed.origin
  · have same : processedPath a.path = a.path.withFileName managedName.text := by
      rw [processedPath, listed.fileName_path, processedName_managedName]
    have led : t.walk (processedPath a.path) = .ok (dir ++ [managedName]) := by
      rw [same, listed.path]
      exact walk_withFileName_join listed.isText listed.led listed.directory listed.isText
    have stands : t.isFile (processedPath a.path) = true := by
      rw [SamePlace.isFile_eq ⟨_, led, listed.walk_path⟩, listed.isFile_path]
    refine ⟨managedName, listed.isText, processedName_managedName.symm, managedName_not_dump, led,
      ?_, absurd stands⟩
    rw [ite_self, source, origin, listed.walk_path]
  · have text := text_processedForm dump.isText dump.named
    refine ⟨processedForm name dump.isText dump.named, isText_processedForm _ _, text,
      text ▸ processedName_not_dump dump.named, dump.walk_processedPath, ?_, fun _ => dump.named⟩
    rw [source, dump.origin]
    dsimp only
    split
    · exact dump.walk_processedPath
    · exact listed.walk_path

/-- Two artifacts are read from one file exactly if they have the same processed form. -/
theorem ReadAt.samePlace_source_iff (ha : ReadAt t a dir name processed)
    (hb : ReadAt t b dir name' processed') (other : name ≠ name') :
    t.SamePlace (a.source t) (b.source t) ↔
      processedName name.text = processedName name'.text ∧
        t.isFile (processedPath a.path) = true := by
  have texts : processedName name.text = processedName name'.text ↔ processed = processed' := by
    rw [← ha.text, ← hb.text, Name.text_inj ha.isText hb.isText]
  rw [samePlace_iff ha.source hb.source, List.append_cancel_left_eq, texts, List.singleton_inj]
  have alike (same : processed = processed') :
      t.isFile (processedPath a.path) = t.isFile (processedPath b.path) :=
    ((samePlace_iff ha.led hb.led).2 (same ▸ rfl)).isFile_eq
  by_cases fa : t.isFile (processedPath a.path) = true <;>
    by_cases fb : t.isFile (processedPath b.path) = true
  · rw [if_pos fa, if_pos fb, and_iff_left fa]
  · rw [if_pos fa, if_neg fb]
    refine ⟨fun same => ?_, fun same => absurd ((alike same.1).symm.trans fa) fb⟩
    exact absurd (hb.dump fb) (same ▸ ha.not_dump ▸ Bool.false_ne_true)
  · rw [if_neg fa, if_pos fb]
    refine ⟨fun same => ?_, fun same => absurd same.2 fa⟩
    exact absurd (ha.dump fa) (same ▸ hb.not_dump ▸ Bool.false_ne_true)
  · rw [if_neg fa, if_neg fb]
    exact ⟨fun same => absurd same other, fun same => absurd same.2 fa⟩

/-- No artifact is read from the file of another dump. -/
theorem ReadAt.not_samePlace_dump (ha : ReadAt t a dir name processed)
    (hb : NamedAt t dataDir b dir name') (native : b.origin = .native) (other : name ≠ name') :
    ¬ t.SamePlace (a.source t) b.path := by
  obtain ⟨managed, -⟩ | dump := hb.origin
  · exact absurd (managed.symm.trans native) nofun
  rw [samePlace_iff ha.source hb.walk_path, List.append_cancel_left_eq, List.singleton_inj]
  split
  · rintro rfl
    exact absurd dump.named (ha.not_dump ▸ Bool.false_ne_true)
  · exact other

/-- A dump is read from the file of recorded failures exactly if its processed form is that. -/
theorem ReadAt.samePlace_managed_iff (ha : ReadAt t a dir name processed)
    (listed : NamedAt t dataDir a dir name) :
    t.SamePlace (a.source t) (managedCrashFile dataDir) ↔
      processedName name.text = managedName.text ∧ t.isFile (managedCrashFile dataDir) = true := by
  rw [managedCrashFile_eq]
  have led : t.walk (dataDir.join managedName.text) = .ok (dir ++ [managedName]) :=
    walk_join listed.led listed.directory isText_managedName
  have texts : processedName name.text = managedName.text ↔ processed = managedName := by
    rw [← ha.text, Name.text_inj ha.isText isText_managedName]
  have alike (same : processed = managedName) :
      t.isFile (processedPath a.path) = t.isFile (dataDir.join managedName.text) :=
    ((samePlace_iff ha.led led).2 (same ▸ rfl)).isFile_eq
  rw [samePlace_iff ha.source led, List.append_cancel_left_eq, texts, List.singleton_inj]
  split
  · rename_i stands
    exact (and_iff_left_of_imp fun same => (alike same).symm.trans stands).symm
  · rename_i unprocessed
    refine ⟨fun same => ?_, fun same => absurd ((alike same.1).trans same.2) unprocessed⟩
    exact absurd (same ▸ ha.dump unprocessed) (managedName_not_dump ▸ Bool.false_ne_true)

/-- A scan lists no artifact twice. -/
theorem nodup_allIn (t : Tree) (dataDir : Path) : (allIn t dataDir).Nodup := by
  refine (pairwise_spares t dataDir).imp_of_mem fun {a b} member _ spares => ?_
  rintro rfl
  obtain ⟨loc, contents, stands⟩ := isFile_iff.1 (isFile_of_mem_allIn member)
  exact spares _ a.path_mem_removals loc stands.1 stands.1

end CrashArtifact

namespace CrashReporter

open CrashArtifact Work

/-- The report of what a scan found has a section for each artifact, with the text of its source if
that could be read. The sources of two artifacts are one file exactly if they are named alike but for
their last four characters and a file of that name with `.txt` stands, which for a dump may be the
file of recorded failures. Never is it the file of another dump. -/
theorem sections_share_source_iff (r : CrashReporter) (m : Machine) :
    let t := m.disk.tree
    let found := (r.scan m).1
    found.Nodup ∧
    (∃ entries, (r.aggregate found (r.scan m).2).1 = reportOf t entries ∧
      entries.map Prod.fst = found ∧
      ∀ e ∈ entries, ∀ text, e.2 = some text → e.1.HasText t text) ∧
    (∀ a ∈ found, ∀ b ∈ found, a ≠ b →
      (t.SamePlace (a.source t) (b.source t) ↔
        processedName a.path.fileName = processedName b.path.fileName ∧
          t.isFile (processedPath a.path) = true) ∧
      (b.origin = .native → ¬ t.SamePlace (a.source t) b.path)) ∧
    ∀ a ∈ found, a.origin = .native →
      (t.SamePlace (a.source t) (managedCrashFile r.dataDir) ↔
        processedName a.path.fileName = "managed_crash.txt" ∧
          t.isFile (managedCrashFile r.dataDir) = true) := by
  intro t found
  have listed : found = allIn t r.dataDir := r.scan_eq m
  have disk : (r.scan m).2.disk = m.disk := (ensures_scan (r := r) (m := m)).2
  rw [listed]
  refine ⟨nodup_allIn t r.dataDir, ?_, fun a ha b hb other => ?_, fun a ha native => ?_⟩
  · have stands : ∀ a ∈ allIn t r.dataDir, ∃ contents,
        (r.scan m).2.disk.tree.read (a.source (r.scan m).2.disk.tree) = .ok contents := by
      rw [disk]
      exact fun a => exists_read_source
    obtain ⟨-, entries, gathered, report⟩ := ensures_aggregate (r := r) _ stands
    rw [disk] at report gathered
    exact ⟨entries, report, gathered.artifacts, gathered.texts⟩
  · obtain ⟨dir, name, name', first, second, apart⟩ := exists_namedAt ha hb other
    obtain ⟨processed, reads⟩ := first.exists_readAt
    obtain ⟨processed', reads'⟩ := second.exists_readAt
    rw [first.fileName_path, second.fileName_path]
    exact ⟨reads.samePlace_source_iff reads' apart,
      fun native => reads.not_samePlace_dump second native apart⟩
  · obtain ⟨loc, managed⟩ | ⟨dir, name, dump⟩ := mem_allIn_iff.1 ha
    · exact absurd (managed.origin.symm.trans native) nofun
    · obtain ⟨processed, reads⟩ := dump.namedAt.exists_readAt
      rw [dump.namedAt.fileName_path]
      exact reads.samePlace_managed_iff dump.namedAt

/-- A dump is reported by the file of recorded failures, and then both are deleted. What the dump
holds is in no report. -/
theorem exists_dump_misrepresented :
    let r : CrashReporter := ⟨⟨"data"⟩, some ⟨"out"⟩, ⟨"."⟩, 1, false, false, by decide⟩
    let m := Machine.new (Disk.empty.actAll
      [.makeDirectory ⟨"out"⟩, .putFile ⟨"data/managed_crash.txt"⟩ (Text.utf8 "old"),
        .putFile ⟨"data/managed_crash.dmp"⟩ (Text.utf8 "dump")])
    let send : Path → Work (Except Failure Unit) := fun _ => pure (.ok ())
    let after := (r.transmit send m).2.disk.tree
    (r.transmit send m).1.1 = .ok (.sent ⟨"out/emu_crash.txt"⟩ 2) ∧
      m.disk.tree.read ⟨"data/managed_crash.dmp"⟩ = .ok (Text.utf8 "dump") ∧
      after.read ⟨"out/emu_crash.txt"⟩ = .ok (Text.utf8
        ("=== Managed crash: data/managed_crash.txt ===\nold\n" ++
          "=== Native crash: data/managed_crash.txt ===\nold\n")) ∧
      after.read ⟨"data/managed_crash.dmp"⟩ = .error .notFound := by
  decide +kernel

end CrashReporter
end EmuFront
