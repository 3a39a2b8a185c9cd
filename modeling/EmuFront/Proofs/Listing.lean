import EmuFront.Proofs.Letters
import EmuFront.Proofs.Sources

/-!
# What a scan lists

The dumps of a directory are told by their names: more than four bytes, the last four of them `.dmp`
in any letter case. A scan lists them in one order, however the directory is read, and the name of
each can be cut before its suffix whatever characters it is made of.
-/

namespace EmuFront

open Storage Storage.Tree

/-! ## The order in which a tree is read -/

namespace Storage.Tree

variable {t t' : Tree}

/-- Below the root, what stands at a place is what is listed for it, for each place is listed once.
-/
theorem node?_eq_some_iff {loc : Location} (below : loc ≠ []) {node : Node} :
    t.node? loc = some node ↔ (loc, node) ∈ t.entries := by
  rw [node?, if_neg below, List.lookup_eq_some_iff]
  constructor
  · rintro ⟨before, after, whole, -⟩
    rw [whole]
    exact List.mem_append_right _ List.mem_cons_self
  · intro member
    obtain ⟨before, after, whole⟩ := List.append_of_mem member
    refine ⟨before, after, whole, fun e earlier => ?_⟩
    have once := t.nodup
    rw [whole, List.map_append, List.map_cons, List.nodup_append] at once
    exact bne_iff_ne.2
      (once.2.2 e.1 (List.mem_map_of_mem earlier) loc List.mem_cons_self).symm

/-- Two trees hold the same, and may be read in different orders. -/
structure SameEntries (t t' : Tree) : Prop where
  entries : t.entries.Perm t'.entries
  working : t.working = t'.working
  unreadable : ∀ loc, loc ∈ t.unreadable ↔ loc ∈ t'.unreadable

namespace SameEntries

variable (same : t.SameEntries t')
include same

/-- The same stands at every place. -/
theorem node?_eq (loc : Location) : t.node? loc = t'.node? loc := by
  by_cases root : loc = []
  · rw [node?, node?, if_pos root, if_pos root]
  · refine Option.ext fun node => ?_
    rw [node?_eq_some_iff root, node?_eq_some_iff root]
    exact same.entries.mem_iff

/-- A walk asks only what stands at places, and so is the same. -/
theorem walkFrom_eq (loc : Location) (steps : List Step) :
    t.walkFrom loc steps = t'.walkFrom loc steps := by
  induction steps generalizing loc with
  | nil => rfl
  | cons step rest ih =>
    simp only [walkFrom, same.node?_eq loc, ih]

/-- Every path leads to the same. -/
theorem lookup_eq (p : Path) : t.lookup p = t'.lookup p := by
  have led : t.walk p = t'.walk p := by
    rw [walk, walk, start, start, same.working]
    simp only [same.walkFrom_eq]
  rw [lookup, lookup, led]
  simp only [same.node?_eq]

theorem isFile_eq (p : Path) : t.isFile p = t'.isFile p := by
  rw [isFile, isFile, same.lookup_eq p]

theorem listsFile_eq (dir : Path) (accept : String → Bool) :
    t.listsFile dir accept = t'.listsFile dir accept := by
  funext name
  rw [listsFile, listsFile, same.isFile_eq]

/-- A directory holds the same names, read in another order. -/
theorem names_perm (loc : Location) : (t.names loc).Perm (t'.names loc) := same.entries.filterMap _

end SameEntries

/-- The files of a directory are listed alike, in whatever order the directory is read. -/
theorem SameEntries.filesIn_eq (same : t.SameEntries t') (dir : Path) (accept : String → Bool) :
    t.filesIn dir accept = t'.filesIn dir accept := by
  have sorted (loc : Location) :
      (((t.names loc).filter (t'.listsFile dir accept)).mergeSort
        fun a b => decide (a.text ≤ b.text)) =
      ((t'.names loc).filter (t'.listsFile dir accept)).mergeSort
        fun a b => decide (a.text ≤ b.text) :=
    mergeSort_eq_of_perm ((same.names_perm loc).filter _) isText_of_mem_filter
  rw [filesIn, filesIn, list, list, same.lookup_eq dir, same.listsFile_eq]
  obtain e | ⟨loc, node⟩ := t'.lookup dir
  · simp only [Except.map]
  · cases node with
    | file contents => simp only [Except.map]
    | directory =>
      simp only [same.unreadable]
      split
      · simp only [Except.map]
      · simp only [Except.map, sorted loc]

end Storage.Tree

namespace CrashArtifact

variable {t t' : Tree} {dataDir : Path}

/-- A scan finds the same in the same order. -/
theorem allIn_eq_of_sameEntries (same : t.SameEntries t') : allIn t dataDir = allIn t' dataDir := by
  rw [allIn, allIn, managed?_eq, managed?_eq, same.isFile_eq, dumps, dumps, same.filesIn_eq]

/-! ## Names of dumps -/

/-- A name of more than four bytes that ends in `.dmp`, in any letter case. -/
def NamesDump (name : String) : Prop :=
  4 < (Text.utf8 name).length ∧ ∃ stem, ∃ d ∈ ['d', 'D'], ∃ m ∈ ['m', 'M'], ∃ p ∈ ['p', 'P'],
    name.toList = stem ++ ['.', d, m, p]

/-- A character is lowered to one of the suffix if it is that one or its capital. -/
theorem toLower_eq_iff {c lower upper : Char}
    (letter : (lower, upper) ∈ [('.', '.'), ('d', 'D'), ('m', 'M'), ('p', 'P')]) :
    c.toLower = lower ↔ c = lower ∨ c = upper := by
  simp only [← Char.toNat_inj, Text.toNat_toLower]
  simp only [List.mem_cons, Prod.mk.injEq, List.not_mem_nil, or_false] at letter
  obtain ⟨rfl, rfl⟩ | ⟨rfl, rfl⟩ | ⟨rfl, rfl⟩ | ⟨rfl, rfl⟩ := letter <;>
  · simp only [Char.reduceToNat]
    split <;> omega

/-- The endings that are lowered to the suffix of a dump. -/
theorem map_toLower_eq_iff {ending : List Char} :
    ending.map Char.toLower = ".dmp".toList ↔
      ∃ d ∈ ['d', 'D'], ∃ m ∈ ['m', 'M'], ∃ p ∈ ['p', 'P'], ending = ['.', d, m, p] := by
  have suffix : ".dmp".toList = ['.', 'd', 'm', 'p'] := by decide
  have letters (c lower upper : Char) : c ∈ [lower, upper] ↔ c = lower ∨ c = upper := by simp
  simp only [letters, suffix]
  constructor
  · intro lowered
    obtain ⟨dot, d, m, p, rfl⟩ : ∃ a b c d, ending = [a, b, c, d] := by
      have four := congrArg List.length lowered
      rw [List.length_map] at four
      exact List.length_eq_four.1 four
    simp only [List.map_cons, List.map_nil, List.cons.injEq, and_true] at lowered
    obtain ⟨hdot, hd, hm, hp⟩ := lowered
    refine ⟨d, (toLower_eq_iff (by decide)).1 hd, m, (toLower_eq_iff (by decide)).1 hm, p,
      (toLower_eq_iff (by decide)).1 hp, ?_⟩
    rw [or_self_iff.1 ((toLower_eq_iff (by decide)).1 hdot)]
  · rintro ⟨d, hd, m, hm, p, hp, rfl⟩
    rw [List.map_cons, List.map_cons, List.map_cons, List.map_cons, List.map_nil,
      (toLower_eq_iff (by decide)).2 hd, (toLower_eq_iff (by decide)).2 hm,
      (toLower_eq_iff (by decide)).2 hp]
    rfl

/-- The name of a dump is told by its bytes and its last four characters. -/
theorem isDumpName_iff {name : String} : isDumpName name = true ↔ NamesDump name := by
  rw [isDumpName, Bool.and_eq_true, decide_eq_true_eq, ← Text.length_utf8, NamesDump,
    Option.any_eq_true]
  refine and_congr_right fun _ => ⟨?_, ?_⟩
  · rintro ⟨stem, found, lowered⟩
    obtain ⟨⟨ending, whole⟩, -⟩ := stem?_eq_some.1 found
    rw [← whole, List.drop_left, decide_eq_true_eq] at lowered
    obtain ⟨d, hd, m, hm, p, hp, rfl⟩ := map_toLower_eq_iff.1 lowered
    exact ⟨stem, d, hd, m, hm, p, hp, whole.symm⟩
  · rintro ⟨stem, d, hd, m, hm, p, hp, whole⟩
    have four : Text.byteLength ['.', d, m, p] = 4 := by
      simp only [List.mem_cons, List.not_mem_nil, or_false] at hd hm hp
      obtain rfl | rfl := hd <;> obtain rfl | rfl := hm <;> obtain rfl | rfl := hp <;> rfl
    refine ⟨stem, ?_, ?_⟩
    · rw [← stem?_append four, ← whole, String.ofList_toList]
    · rw [whole, List.drop_left]
      exact decide_eq_true (map_toLower_eq_iff.2 ⟨d, hd, m, hm, p, hp, rfl⟩)

/-! ## The listing -/

/-- What a scan lists of a directory: the file of recorded failures if it is a plain file, and then,
if the directory can be read, the plain files in it whose name is text and that of a dump, each once,
in ascending order. -/
structure Lists (t : Tree) (dataDir : Path) (listed : List CrashArtifact) (names : List Name) :
    Prop where
  whole : listed =
    (if t.isFile (managedCrashFile dataDir) = true then [⟨.managed, managedCrashFile dataDir⟩]
      else []) ++ names.map fun name => ⟨.native, dataDir.join name.text⟩
  ascending : names.Pairwise fun a b => a.text < b.text
  mem_iff : ∀ name, name ∈ names ↔ ∃ dir, t.ListableAt dataDir dir ∧ t.HoldsFile dir name ∧
    name.isText = true ∧ NamesDump name.text

/-- The processed form of a dump: its name is cut between characters and ends in `.txt`, it stands in
the directory of the dump, and no dump has its name. -/
structure Beside (t : Tree) (dump processed : Path) : Prop where
  boundary : Text.isBoundary (Text.utf8 dump.fileName) ((Text.utf8 dump.fileName).length - 4) = true
  cut : processedName? dump.fileName = some processed.fileName
  suffix : ∃ stem, processed.fileName = stem ++ ".txt"
  directory : ∃ (dir : Location) (name other : Name), t.walk dump = .ok (dir ++ [name]) ∧
    t.walk processed = .ok (dir ++ [other]) ∧ other.bytes = Text.utf8 processed.fileName
  not_dump : ¬ NamesDump processed.fileName

/-- Every tree has a listing. -/
theorem exists_lists (t : Tree) (dataDir : Path) :
    ∃ names, Lists t dataDir (allIn t dataDir) names := by
  obtain ⟨names, found, ascending, mem_iff⟩ := exists_dumps t dataDir
  refine ⟨names, ?_, ascending, fun name => ?_⟩
  · rw [allIn, found]
    rfl
  · simp only [mem_iff, isDumpName_iff]

/-! ## The processed forms of listed dumps -/

/-- A path with another last part is a name joined to what holds the last part. -/
theorem withFileName_eq_join (path : Path) (name : String) : path.withFileName name =
    (Path.mk (String.ofList (Path.parentChars path.text.toList))).join name := by
  rw [Path.join, String.toList_ofList]
  rfl

/-- The processed form of a dump is named below the directory of the dump. -/
theorem DumpAt.processedPath_eq {a : CrashArtifact} {dir : Location} {name : Name}
    (dump : DumpAt t dataDir a dir name) : ∃ above : Path,
      processedPath a.path = above.join (processedForm name dump.isText dump.named).text := by
  refine ⟨⟨String.ofList (Path.parentChars a.path.text.toList)⟩, ?_⟩
  rw [processedPath, dump.fileName_path, withFileName_eq_join, text_processedForm]

/-- The stem of a dump's name ends between two characters. -/
theorem stem?_of_dump {name : String} (dump : isDumpName name = true) :
    ∃ stem, stem? name = some stem := by
  simp only [isDumpName, Bool.and_eq_true, Option.any_eq_true] at dump
  obtain ⟨-, stem, found, -⟩ := dump
  exact ⟨stem, found⟩

/-- The suffix of a dump starts at a boundary between characters. -/
theorem isBoundary_of_dump {name : String} (dump : isDumpName name = true) :
    Text.isBoundary (Text.utf8 name) ((Text.utf8 name).length - 4) = true := by
  obtain ⟨stem, found⟩ := stem?_of_dump dump
  obtain ⟨leads, bytes⟩ := stem?_eq_some.1 found
  rw [Text.isBoundary_utf8, Text.length_utf8]
  exact ⟨stem, leads, bytes⟩

/-- The processed form of a dump has a name. -/
theorem processedName?_of_dump {name : String} (dump : isDumpName name = true) :
    processedName? name = some (processedName name) := by
  obtain ⟨stem, found⟩ := stem?_of_dump dump
  rw [processedName, processedName?, found, Option.map_some, Option.getD_some]

/-- The last four bytes of a name are cut off whatever lies before them, but not from the middle of a
character. -/
example : processedName? "é日.DmP" = some "é日.txt" ∧ processedName? "日本" = none := by decide

/-- The processed form of a dump that stands in a directory is beside it. -/
theorem DumpAt.beside {a : CrashArtifact} {dir : Location} {name : Name}
    (dump : DumpAt t dataDir a dir name) : Beside t a.path (processedPath a.path) := by
  obtain ⟨above, joined⟩ := dump.processedPath_eq
  have named : (processedPath a.path).fileName = processedName name.text := by
    rw [joined, Name.fileName_join (isText_processedForm _ _), text_processedForm]
  obtain ⟨contents, led, -⟩ := dump.file
  refine ⟨?_, ?_, ?_, ⟨dir, name, processedForm name dump.isText dump.named, led,
    dump.walk_processedPath, ?_⟩, ?_⟩
  · rw [dump.fileName_path]
    exact isBoundary_of_dump dump.named
  · rw [dump.fileName_path, named]
    exact processedName?_of_dump dump.named
  · obtain ⟨stem, -, -, -, processed⟩ := exists_stem dump.named
    refine ⟨String.ofList stem, ?_⟩
    rw [named, processed, String.ofList_append, String.ofList_toList]
  · rw [named]
    rfl
  · rw [named, ← isDumpName_iff]
    exact Bool.eq_false_iff.1 (processedName_not_dump dump.named)

/-- In no tree does a dump stand where the processed form of a dump leads. -/
theorem DumpAt.not_samePlace {a b : CrashArtifact} {dir dir' : Location} {name name' : Name}
    {dataDir' : Path} (dump : DumpAt t dataDir a dir name) (other : DumpAt t' dataDir' b dir' name') :
    ¬ t'.SamePlace b.path (processedPath a.path) := by
  rintro ⟨loc, led, led'⟩
  obtain ⟨contents, stands, -⟩ := other.file
  obtain ⟨above, joined⟩ := dump.processedPath_eq
  obtain ⟨place, rfl⟩ := exists_of_walk_join (isText_processedForm _ _) (joined ▸ led')
  have same := Except.ok.inj (stands.symm.trans led)
  have named := other.named
  rw [List.singleton_inj.1 (List.append_inj_right' same rfl), text_processedForm] at named
  exact absurd named (Bool.eq_false_iff.1 (processedName_not_dump dump.named))

end CrashArtifact

namespace CrashReporter

open CrashArtifact

/-- A dump that was found stands in the data directory. -/
theorem exists_dumpAt {r : CrashReporter} {m : Machine} {a : CrashArtifact}
    (member : a ∈ (r.scan m).1) (native : a.origin = .native) :
    ∃ dir name, DumpAt m.disk.tree r.dataDir a dir name := by
  rw [r.scan_eq m] at member
  obtain ⟨loc, managed⟩ | dump := mem_allIn_iff.1 member
  · exact absurd (managed.origin.symm.trans native) nofun
  · exact dump

/-- A scan lists the file of recorded failures if it is a plain file, and then, of a directory that can
be read, the plain files whose names are text and those of dumps, in one order however the directory
is read. The processed form of each dump is beside it and never a dump itself. -/
theorem scan_lists (r : CrashReporter) (m : Machine) :
    (∃ names, Lists m.disk.tree r.dataDir (r.scan m).1 names) ∧
    (∀ m' : Machine, m'.disk.tree.SameEntries m.disk.tree → (r.scan m').1 = (r.scan m).1) ∧
    ∀ a ∈ (r.scan m).1, a.origin = .native →
      Beside m.disk.tree a.path (processedPath a.path) ∧
      ∀ (r' : CrashReporter) (m' : Machine), ∀ b ∈ (r'.scan m').1, b.origin = .native →
        ¬ m'.disk.tree.SamePlace b.path (processedPath a.path) := by
  refine ⟨?_, fun m' same => ?_, fun a member native => ?_⟩
  · rw [r.scan_eq m]
    exact exists_lists m.disk.tree r.dataDir
  · rw [r.scan_eq m, r.scan_eq m']
    exact allIn_eq_of_sameEntries same
  · obtain ⟨dir, name, dump⟩ := exists_dumpAt member native
    refine ⟨dump.beside, fun r' m' b listed native' => ?_⟩
    obtain ⟨dir', name', other⟩ := exists_dumpAt listed native'
    exact dump.not_samePlace other

/-- A plain file of the data directory whose name is longer than the suffix of a dump and ends in it is
not listed if the name is no text. Nor is a dump if the data directory is the empty path: it leads to
no directory that could be opened, although the file of recorded failures is found by it. -/
theorem exists_dump_unlisted :
    let r (dataDir : Path) : CrashReporter := ⟨dataDir, none, ⟨"."⟩, 1, false, false, by decide⟩
    let data : Location := [.ofText "data" (by decide)]
    let name : Name := ⟨255 :: 255 :: Text.utf8 ".dmp", by decide⟩
    let t := (Tree.empty.put data .directory).put (data ++ [name]) (.file (Text.utf8 "dump"))
    let m := Machine.new (Disk.empty.actAll
      [.putFile ⟨"managed_crash.txt"⟩ (Text.utf8 "old"), .putFile ⟨"a.dmp"⟩ (Text.utf8 "dump")])
    (t.ListableAt ⟨"data"⟩ data ∧ t.HoldsFile data name ∧ 4 < name.bytes.length ∧
      Text.utf8 ".dmp" <:+ name.bytes ∧
      ((r ⟨"data"⟩).scan (.new { Disk.empty with tree := t })).1 = []) ∧
    m.disk.tree.isFile ((Path.mk "").join "a.dmp") = true ∧ isDumpName "a.dmp" = true ∧
      ((r ⟨""⟩).scan m).1 = [⟨.managed, (Path.mk "").join "managed_crash.txt"⟩] := by
  intro r data name t m
  refine ⟨⟨⟨?_, ?_, ?_⟩, ⟨Text.utf8 "dump", ?_⟩, ?_, ?_, ?_⟩, ?_, ?_, ?_⟩ <;> decide +kernel

end CrashReporter
end EmuFront
