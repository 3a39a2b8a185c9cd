import EmuFront.Crash.Artifact
import EmuFront.Proofs.Cutting
import EmuFront.Proofs.Directories

/-!
# What a scan finds

The artifacts of a directory as a function of the file tree, and where they stand: the file of
recorded failures and each dump at a place of its own, the processed form of a dump beside it, under
a name that no dump has.
-/

namespace EmuFront

open Storage Storage.Tree

open Text (utf8)

namespace CrashArtifact

variable {t t' : Tree} {dataDir : Path}

/-! ## Names -/

/-- The name of the file of recorded failures. -/
def managedName : Name := .ofText "managed_crash.txt" (by decide)

@[simp] theorem text_managedName : managedName.text = "managed_crash.txt" := Name.text_ofText _ _

@[simp] theorem isText_managedName : managedName.isText = true := Name.isText_ofText _ _

/-- The file of recorded failures is a name joined to its directory. -/
theorem managedCrashFile_eq (dataDir : Path) :
    managedCrashFile dataDir = dataDir.join managedName.text := by
  rw [text_managedName, managedCrashFile]

/-- A stem is made of the leading characters that leave four bytes out. -/
theorem stem?_eq_some {name : String} {stem : List Char} :
    stem? name = some stem ↔
      stem <+: name.toList ∧ Text.byteLength stem = Text.byteLength name.toList - 4 :=
  Text.leading?_eq_some

/-- The stem of a name that ends in four bytes. -/
theorem stem?_append {stem suffix : List Char} (four : Text.byteLength suffix = 4) :
    stem? (String.ofList (stem ++ suffix)) = some stem := by
  rw [stem?_eq_some, String.toList_ofList, Text.byteLength_append, four]
  exact ⟨List.prefix_append _ _, (Nat.add_sub_cancel _ _).symm⟩

/-- The characters of a dump's name: a stem and what ends it. -/
theorem exists_stem {name : String} (dump : isDumpName name = true) :
    ∃ stem suffix, name.toList = stem ++ suffix ∧ stem ≠ [] ∧
      processedName name = String.ofList (stem ++ ".txt".toList) := by
  simp only [isDumpName, Bool.and_eq_true, decide_eq_true_eq, Option.any_eq_true] at dump
  obtain ⟨long, stem, found, -⟩ := dump
  obtain ⟨⟨suffix, whole⟩, bytes⟩ := stem?_eq_some.1 found
  refine ⟨stem, suffix, whole.symm, ?_, ?_⟩
  · rintro rfl
    rw [Text.byteLength] at bytes
    omega
  · rw [processedName, processedName?, found, Option.map_some, Option.getD_some,
      String.ofList_append, String.ofList_toList]

/-- The processed form of a dump ends in `.txt`, and so is no dump. -/
theorem processedName_not_dump {name : String} (dump : isDumpName name = true) :
    isDumpName (processedName name) = false := by
  obtain ⟨stem, -, -, -, processed⟩ := exists_stem dump
  have found : stem? (processedName name) = some stem := by
    rw [processed]
    exact stem?_append (by decide)
  rw [isDumpName, found, processed, String.toList_ofList, Option.any_some, List.drop_left]
  exact Bool.and_false _

/-- The processed form of a dump has a name. -/
theorem isName_processedName {name : Name} (isText : name.isText = true)
    (dump : isDumpName name.text = true) : isName (utf8 (processedName name.text)) = true := by
  obtain ⟨stem, suffix, whole, -, processed⟩ := exists_stem dump
  have long : 4 ≤ (utf8 (processedName name.text)).length := by
    rw [processed, String.ofList_append, Text.utf8_append, List.length_append]
    exact Nat.le_add_left _ _
  -- a character that is in neither the name nor the new suffix is not in the processed name
  have free {n : Nat} (ascii : n < 128) (absent : Char.ofNat n ∉ name.text.toList)
      (absent' : Char.ofNat n ∉ ".txt".toList) :
      UInt8.ofNat n ∉ utf8 (processedName name.text) := by
    rw [Text.ofNat_mem_utf8 ascii, processed, String.toList_ofList, List.mem_append, not_or]
    refine ⟨fun member => absent ?_, absent'⟩
    rw [whole]
    exact List.mem_append_left _ member
  refine Name.isName_iff.2 ⟨⟨?_, ?_, ?_⟩,
    free (n := 47) (by decide) (Name.not_mem_slash isText) (by decide),
    free (n := 0) (by decide) (Name.not_mem_nul isText) (by decide)⟩ <;>
    · intro short
      rw [short] at long
      exact absurd long (by decide)

/-! ## Places -/

/-- The place of the processed form of a dump: beside it, under a name of its own. -/
def ProcessedPlace (dump processed : Location) : Prop :=
  ∃ (dir : Location) (name other : Name), dump = dir ++ [name] ∧ processed = dir ++ [other] ∧
    name.isText = true ∧ other.isText = true ∧ other.text = processedName name.text

/-- The dumps of a directory in ascending order, none if the directory cannot be read. -/
def dumps (t : Tree) (dataDir : Path) : List CrashArtifact :=
  match t.filesIn dataDir isDumpName with
  | .ok paths => paths.map fun path => ⟨.native, path⟩
  | .error _ => []

/-- The artifacts of a directory. -/
def allIn (t : Tree) (dataDir : Path) : List CrashArtifact := managed? t dataDir ++ dumps t dataDir

/-- An artifact is the file of recorded failures and stands at a place. -/
structure ManagedAt (t : Tree) (dataDir : Path) (a : CrashArtifact) (loc : Location) : Prop where
  origin : a.origin = .managed
  path : a.path = dataDir.join managedName.text
  file : ∃ contents, t.FileAt a.path loc contents

/-- An artifact is a dump in a directory, under a name. -/
structure DumpAt (t : Tree) (dataDir : Path) (a : CrashArtifact) (dir : Location) (name : Name) :
    Prop where
  origin : a.origin = .native
  path : a.path = dataDir.join name.text
  listable : t.ListableAt dataDir dir
  isText : name.isText = true
  named : isDumpName name.text = true
  file : ∃ contents, t.FileAt a.path (dir ++ [name]) contents

theorem managed?_eq (t : Tree) (dataDir : Path) : managed? t dataDir =
    if t.isFile (dataDir.join managedName.text) then [⟨.managed, dataDir.join managedName.text⟩]
    else [] := by
  rw [← managedCrashFile_eq]
  rfl

/-- The file of recorded failures is found where it stands. -/
theorem mem_managed?_iff {a : CrashArtifact} :
    a ∈ managed? t dataDir ↔ ∃ loc, ManagedAt t dataDir a loc := by
  obtain ⟨origin, path⟩ := a
  rw [managed?_eq, List.mem_ite_nil_right, List.mem_singleton, isFile_iff, mk.injEq]
  constructor
  · rintro ⟨⟨loc, contents, stands⟩, rfl, rfl⟩
    exact ⟨loc, rfl, rfl, contents, stands⟩
  · rintro ⟨loc, origin, rfl, contents, stands⟩
    exact ⟨⟨loc, contents, stands⟩, origin, rfl⟩

theorem dumps_eq (t : Tree) (dataDir : Path) : dumps t dataDir =
    ((t.filesIn dataDir isDumpName).toOption.getD []).map fun path => ⟨.native, path⟩ := by
  unfold dumps
  cases t.filesIn dataDir isDumpName <;> rfl

/-- The dumps of a directory by their names: each name once and in ascending order, of the plain files
that stand in the directory under a name that is text and that of a dump. A directory that cannot be
read has none. -/
theorem exists_dumps (t : Tree) (dataDir : Path) : ∃ names : List Name,
    dumps t dataDir = names.map (fun name => ⟨.native, dataDir.join name.text⟩) ∧
    names.Pairwise (fun a b => a.text < b.text) ∧
    ∀ name, name ∈ names ↔ ∃ dir, t.ListableAt dataDir dir ∧ t.HoldsFile dir name ∧
      name.isText = true ∧ isDumpName name.text = true := by
  obtain ⟨names, found, ascending, mem_iff⟩ := t.exists_filesIn dataDir isDumpName
  refine ⟨names, ?_, ascending, mem_iff⟩
  rw [dumps_eq, found, List.map_map]
  rfl

/-- A plain file that stands in a directory under the name of a dump is one. -/
theorem dumpAt_of_holdsFile {dir : Location} {name : Name} (listable : t.ListableAt dataDir dir)
    (holds : t.HoldsFile dir name) (isText : name.isText = true)
    (named : isDumpName name.text = true) :
    DumpAt t dataDir ⟨.native, dataDir.join name.text⟩ dir name := by
  obtain ⟨contents, stands⟩ := holds
  exact ⟨rfl, rfl, listable, isText, named, contents,
    walk_join listable.led listable.directory isText, stands⟩

/-- The dumps of a directory are those that stand in it. -/
theorem mem_dumps_iff {a : CrashArtifact} :
    a ∈ dumps t dataDir ↔ ∃ dir name, DumpAt t dataDir a dir name := by
  obtain ⟨names, listed, -, mem_iff⟩ := exists_dumps t dataDir
  rw [listed, List.mem_map]
  constructor
  · rintro ⟨name, member, rfl⟩
    obtain ⟨dir, listable, holds, isText, named⟩ := (mem_iff name).1 member
    exact ⟨dir, name, dumpAt_of_holdsFile listable holds isText named⟩
  · rintro ⟨dir, name, dump⟩
    obtain ⟨contents, -, stands⟩ := dump.file
    refine ⟨name, (mem_iff name).2 ⟨dir, dump.listable, ⟨contents, stands⟩, dump.isText,
      dump.named⟩, ?_⟩
    rw [← dump.origin, ← dump.path]

/-- What a scan finds is the file of recorded failures or a dump. -/
theorem mem_allIn_iff {a : CrashArtifact} :
    a ∈ allIn t dataDir ↔
      (∃ loc, ManagedAt t dataDir a loc) ∨ ∃ dir name, DumpAt t dataDir a dir name := by
  rw [allIn, List.mem_append, mem_managed?_iff, mem_dumps_iff]

/-- Every artifact is a file. -/
theorem isFile_of_mem_allIn {a : CrashArtifact} (member : a ∈ allIn t dataDir) :
    t.isFile a.path = true := by
  obtain ⟨loc, managed⟩ | ⟨dir, name, dump⟩ := mem_allIn_iff.1 member
  · obtain ⟨contents, stands⟩ := managed.file
    exact isFile_iff.2 ⟨loc, contents, stands⟩
  · obtain ⟨contents, stands⟩ := dump.file
    exact isFile_iff.2 ⟨_, contents, stands⟩

/-! ## The processed form of a dump -/

/-- The name of the processed form of a dump. -/
def processedForm (name : Name) (isText : name.isText = true)
    (dump : isDumpName name.text = true) : Name :=
  .ofText (processedName name.text) (isName_processedName isText dump)

/-- The processed form has the stem of its dump. -/
@[simp] theorem text_processedForm {name : Name} (isText : name.isText = true)
    (dump : isDumpName name.text = true) :
    (processedForm name isText dump).text = processedName name.text := Name.text_ofText _ _

theorem isText_processedForm {name : Name} (isText : name.isText = true)
    (dump : isDumpName name.text = true) : (processedForm name isText dump).isText = true :=
  Name.isText_ofText _ _

namespace DumpAt

variable {a : CrashArtifact} {dir loc : Location} {name : Name} (dump : DumpAt t dataDir a dir name)
include dump

/-- The last part of a dump's path is its name. -/
theorem fileName_path : a.path.fileName = name.text := by
  rw [dump.path, Name.fileName_join dump.isText]

/-- The processed form is looked for in the directory of the dump. -/
theorem walk_processedPath :
    t.walk (processedPath a.path) = .ok (dir ++ [processedForm name dump.isText dump.named]) := by
  rw [processedPath, dump.fileName_path, dump.path, ← text_processedForm dump.isText dump.named]
  exact walk_withFileName_join dump.isText dump.listable.led dump.listable.directory
    (isText_processedForm _ _)

/-- The processed form of a dump is beside it, and is no dump. -/
theorem processedPlace (led : t.walk (processedPath a.path) = .ok loc) :
    ProcessedPlace (dir ++ [name]) loc :=
  ⟨dir, name, _, rfl, Except.ok.inj (led.symm.trans dump.walk_processedPath), dump.isText,
    isText_processedForm _ _, text_processedForm _ _⟩

end DumpAt

/-! ## Other trees -/

section
variable {p : Path} {change : Text.Bytes → Text.Bytes} (h : t.write p change = .ok t')
  (foreign : ∀ dir name, t.walk p = .ok (dir ++ [name]) →
    name ≠ managedName ∧ isDumpName name.text = false)
include h foreign

/-- A write under a name that is no dump's leaves the dumps as they are. -/
theorem dumps_write : dumps t' dataDir = dumps t dataDir := by
  rw [dumps_eq, dumps_eq,
    toOption_filesIn_write h (fun front name led => (foreign front name led).2) dataDir]

/-- A written file changes no artifact, if its name is not that of one. -/
theorem allIn_write : allIn t' dataDir = allIn t dataDir := by
  have managed : managed? t' dataDir = managed? t dataDir := by
    rw [managed?_eq, managed?_eq,
      isFile_join_write isText_managedName h fun front led => (foreign front managedName led).1 rfl]
  rw [allIn, managed, dumps_write h foreign, allIn]

end

/-- After all artifacts are removed there are none. -/
theorem allIn_withoutAll {ps : List Path} (removed : ∀ a ∈ allIn t dataDir, a.path ∈ ps) :
    allIn (t.withoutAll ps) dataDir = [] := by
  have sameDirs := t.sameDirectories_withoutAll ps
  -- an artifact that is left was there before
  have gone {a : CrashArtifact} {loc contents} (member : a ∈ allIn t dataDir) :
      ¬ (t.withoutAll ps).FileAt a.path loc contents := by
    rintro ⟨led, left⟩
    exact (of_node?_withoutAll left).2 _ (removed a member) (sameDirs.symm.walk_of_ok led)
  have before {p : Path} {loc contents} (left : (t.withoutAll ps).FileAt p loc contents) :
      t.FileAt p loc contents :=
    ⟨sameDirs.symm.walk_of_ok left.1, (of_node?_withoutAll left.2).1⟩
  refine List.eq_nil_iff_forall_not_mem.2 fun a member => ?_
  obtain ⟨loc, managed⟩ | ⟨dir, name, dump⟩ := mem_allIn_iff.1 member
  · obtain ⟨contents, left⟩ := managed.file
    refine gone (mem_allIn_iff.2 (.inl ⟨loc, managed.origin, managed.path, ?_⟩)) left
    exact ⟨contents, before left⟩
  · obtain ⟨contents, left⟩ := dump.file
    refine gone (mem_allIn_iff.2 (.inr ⟨dir, name, dump.origin, dump.path, ?_, dump.isText,
      dump.named, ?_⟩)) left
    · exact sameDirs.symm.listableAt dump.listable
    · exact ⟨contents, before left⟩

end CrashArtifact

/-! ## The scan itself -/

/-- A scan gives the artifacts of the tree as it is, and leaves the disk alone. -/
theorem scanArtifacts_eq (dataDir : Path) (m : Machine) :
    ∃ m', scanArtifacts dataDir m = (CrashArtifact.allIn m.disk.tree dataDir, m') ∧
      m'.disk = m.disk := by
  unfold CrashArtifact.allIn CrashArtifact.dumps
  simp only [scanArtifacts, Work.run_bind, Work.run_askTree, Work.run_filesIn]
  cases m.disk.tree.filesIn dataDir CrashArtifact.isDumpName with
  | ok paths => exact ⟨_, rfl, rfl⟩
  | error e =>
    simp only [Work.run_bind, Work.run_log, Work.run_pure, List.append_nil]
    exact ⟨_, rfl, rfl⟩

end EmuFront
