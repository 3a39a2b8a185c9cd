import EmuFront.Proofs.Places

/-!
# Reading directories

The names in a directory, and which files are listed by them: the plain files whose name is text and
passes a test, each once and in ascending order. A file that is written under a name that does not
pass makes no difference.
-/

namespace EmuFront.Storage

open Text (Bytes)

namespace Tree

variable {t t' : Tree}

/-! ## The names in a directory -/

/-- A name is read off a place in a directory as its last part. -/
theorem eq_concat_of_named {loc dir : Location} {name : Name}
    (named : (if loc.dropLast = dir then loc.getLast? else none) = some name) :
    loc = dir ++ [name] := by
  split at named
  · rename_i inside
    obtain ⟨front, rfl⟩ := List.getLast?_eq_some_iff.1 named
    rw [List.dropLast_concat] at inside
    rw [inside]
  · exact absurd named (by simp)

/-- The names in a directory are those under which something stands there. -/
theorem mem_names {t : Tree} {dir : Location} {name : Name} :
    name ∈ t.names dir ↔ t.node? (dir ++ [name]) ≠ none := by
  have reads : t.node? (dir ++ [name]) = t.entries.lookup (dir ++ [name]) := if_neg (by simp)
  rw [reads, Ne, List.lookup_eq_none_iff, names, List.mem_filterMap]
  constructor
  · rintro ⟨⟨loc, node⟩, member, named⟩ none
    obtain rfl : loc = dir ++ [name] := eq_concat_of_named named
    simpa using none _ member
  · intro found
    rw [Classical.not_forall] at found
    obtain ⟨⟨loc, node⟩, found⟩ := found
    obtain ⟨member, rfl⟩ : (loc, node) ∈ t.entries ∧ dir ++ [name] = loc := by simpa using found
    exact ⟨_, member, by simp⟩

/-- No name is read twice from a directory, for the tree lists each place once. -/
theorem nodup_names (t : Tree) (dir : Location) : (t.names dir).Nodup := by
  have keys : t.names dir = (t.entries.map Prod.fst).filterMap fun loc =>
      if loc.dropLast = dir then loc.getLast? else none := by
    rw [List.filterMap_map]
    rfl
  rw [keys]
  refine List.Nodup.filterMap (fun l l' name named named' => ?_) t.nodup
  rw [eq_concat_of_named named, eq_concat_of_named named']

/-- A directory holds the same names, but for that of a place where a node was put. -/
theorem filter_names_put (t : Tree) (loc dir : Location) (node : Node) {keep : Name → Bool}
    (drop : ∀ name, loc.getLast? = some name → keep name = false) :
    ((t.put loc node).names dir).filter keep = (t.names dir).filter keep := by
  have last : (((if loc.dropLast = dir then loc.getLast? else none).toList).filter keep) = [] := by
    split
    · cases named : loc.getLast? with
      | none => rfl
      | some name => simp [drop name named]
    · rfl
  simp only [names, put, erase, Tree.filter, List.filterMap_append, List.filter_append]
  have tail : ([(loc, node)].filterMap fun e =>
      if e.1.dropLast = dir then e.1.getLast? else none).filter keep = [] := by
    rw [List.filterMap_cons]
    split <;> rename_i named <;> simp_all
  rw [tail, List.append_nil]
  induction t.entries with
  | nil => rfl
  | cons e es ih =>
    by_cases same : e.1 = loc
    · rw [List.filter_cons_of_neg (by simpa using same), ih, List.filterMap_cons]
      split
      · rfl
      · rename_i name named
        rw [same] at named
        rw [named] at last
        rw [List.filter_cons_of_neg (by simpa using last)]
    · rw [List.filter_cons_of_pos (by simpa using same), List.filterMap_cons, List.filterMap_cons]
      split
      · exact ih
      · rw [List.filter_cons, List.filter_cons, ih]

/-- The names in a directory that pass a test are those of before, if the name that was written does
not pass. -/
theorem filter_names_write {p : Path} {change : Bytes → Bytes} {dir : Location} {keep : Name → Bool}
    (h : t.write p change = .ok t')
    (drop : ∀ front name, t.walk p = .ok (front ++ [name]) → keep name = false) :
    (t'.names dir).filter keep = (t.names dir).filter keep := by
  obtain ⟨loc, led, -, rfl⟩ := write_eq_ok.1 h
  refine filter_names_put t loc dir _ fun name named => ?_
  obtain ⟨front, rfl⟩ := List.getLast?_eq_some_iff.1 named
  exact drop front name led

/-! ## The files of a directory -/

/-- Whether a file of a name stands in a directory does not depend on a file that is written under
another name. -/
theorem isFile_join_write {p directory : Path} {change : Bytes → Bytes} {name : Name}
    (isText : name.isText = true) (h : t.write p change = .ok t')
    (other : ∀ front, t.walk p ≠ .ok (front ++ [name])) :
    t'.isFile (directory.join name.text) = t.isFile (directory.join name.text) := by
  have iff {loc contents} : t'.FileAt (directory.join name.text) loc contents ↔
      t.FileAt (directory.join name.text) loc contents := by
    refine fileAt_write_iff h fun led => ?_
    obtain ⟨front, rfl⟩ := exists_of_walk_join isText led
    exact other front
  rw [Bool.eq_iff_iff, isFile_iff, isFile_iff]
  simp only [iff]

/-- A name is listed if it is text, if a plain file is there under it, and if it passes the test. -/
theorem listsFile_iff {directory : Path} {accept : String → Bool} {name : Name} :
    t.listsFile directory accept name = true ↔
      name.isText = true ∧ t.isFile (directory.join name.text) = true ∧ accept name.text = true := by
  rw [listsFile, Bool.and_eq_true, Bool.and_eq_true]

/-- Where a directory can be read, its files are those among its names. -/
theorem filesIn_eq_ok {directory : Path} {dir : Location} (accept : String → Bool)
    (listable : t.ListableAt directory dir) :
    t.filesIn directory accept = .ok ((((t.names dir).filter (t.listsFile directory accept)).mergeSort
        fun a b => decide (a.text ≤ b.text)).map fun name => directory.join name.text) := by
  unfold filesIn
  rw [list_eq_ok.2 ⟨dir, listable, rfl⟩]
  rfl

/-- A path that leads to no directory, or to one that cannot be read, has no files. -/
theorem toOption_filesIn_eq_none {directory : Path} (accept : String → Bool)
    (nowhere : ∀ dir, ¬ t.ListableAt directory dir) :
    (t.filesIn directory accept).toOption = none := by
  unfold filesIn
  cases listed : t.list directory with
  | error e => rfl
  | ok names =>
    obtain ⟨dir, listable, -⟩ := list_eq_ok.1 listed
    exact absurd listable (nowhere dir)

/-- The files in a directory whose names pass a test do not depend on a file that is written under a
name that does not. -/
theorem toOption_filesIn_write {p : Path} {change : Bytes → Bytes} {accept : String → Bool}
    (h : t.write p change = .ok t')
    (foreign : ∀ front name, t.walk p = .ok (front ++ [name]) → accept name.text = false)
    (directory : Path) :
    (t'.filesIn directory accept).toOption = (t.filesIn directory accept).toOption := by
  have sameDirs := sameDirectories_write h
  by_cases readable : ∃ dir, t.ListableAt directory dir
  · obtain ⟨dir, listable⟩ := readable
    have accepted : ∀ name ∈ t.names dir,
        t'.listsFile directory accept name = t.listsFile directory accept name := by
      intro name _
      rw [listsFile, listsFile]
      cases isText : name.isText with
      | false => rw [Bool.false_and, Bool.false_and]
      | true =>
        cases accepts : accept name.text with
        | false => simp only [Bool.and_false]
        | true =>
          rw [isFile_join_write isText h fun front led => ?_]
          rw [foreign front name led] at accepts
          cases accepts
    rw [filesIn_eq_ok accept listable, filesIn_eq_ok accept (sameDirs.listableAt listable),
      filter_names_write h, List.filter_congr accepted]
    intro front name led
    rw [listsFile, foreign front name led, Bool.and_false, Bool.and_false]
  · have nowhere : ∀ dir, ¬ t.ListableAt directory dir :=
      fun dir listable => readable ⟨dir, listable⟩
    rw [toOption_filesIn_eq_none accept nowhere, toOption_filesIn_eq_none]
    exact fun dir listable => nowhere dir (sameDirs.symm.listableAt listable)

/-! ## Names in ascending order -/

/-- Whether a name does not come after another. -/
private def notAfter (a b : Name) : Bool := decide (a.text ≤ b.text)

private theorem pairwise_notAfter (names : List Name) :
    (names.mergeSort notAfter).Pairwise fun a b => notAfter a b = true := by
  refine List.pairwise_mergeSort (fun a b c => ?_) (fun a b => ?_) names
  · simp only [notAfter, decide_eq_true_eq]
    exact String.le_trans
  · simp only [notAfter, Bool.or_eq_true, decide_eq_true_eq]
    exact String.le_total a.text b.text

/-- Names that differ are in strictly ascending order once they are sorted, if all are text. -/
theorem pairwise_lt_mergeSort {names : List Name} (nodup : names.Nodup)
    (texts : ∀ name ∈ names, name.isText = true) :
    (names.mergeSort fun a b => decide (a.text ≤ b.text)).Pairwise fun a b => a.text < b.text := by
  have distinct : (names.mergeSort notAfter).Nodup := (List.mergeSort_perm _ _).nodup_iff.2 nodup
  refine ((pairwise_notAfter names).and distinct).imp_of_mem ?_
  rintro a b memberA memberB ⟨ordered, different⟩
  have isTextA := texts a (List.mem_mergeSort.1 memberA)
  have isTextB := texts b (List.mem_mergeSort.1 memberB)
  refine Decidable.not_not.1 fun notLess => different ((Name.text_inj isTextA isTextB).1 ?_)
  exact String.le_antisymm (of_decide_eq_true ordered) (String.not_lt.1 notLess)

/-- Sorted names do not depend on the order they came in, if all are text. -/
theorem mergeSort_eq_of_perm {names names' : List Name} (perm : names.Perm names')
    (texts : ∀ name ∈ names, name.isText = true) :
    (names.mergeSort fun a b => decide (a.text ≤ b.text)) =
      names'.mergeSort fun a b => decide (a.text ≤ b.text) := by
  refine List.Perm.eq_of_pairwise (fun a b memberA memberB ordered ordered' => ?_)
    (pairwise_notAfter names) (pairwise_notAfter names')
    ((List.mergeSort_perm _ _).trans (perm.trans (List.mergeSort_perm _ _).symm))
  have isTextA := texts a (List.mem_mergeSort.1 memberA)
  have isTextB := texts b (perm.mem_iff.2 (List.mem_mergeSort.1 memberB))
  exact (Name.text_inj isTextA isTextB).1
    (String.le_antisymm (of_decide_eq_true ordered) (of_decide_eq_true ordered'))

/-! ## The files of a directory by their names -/

theorem isText_of_mem_filter {names : List Name} {dir : Path} {accept : String → Bool} :
    ∀ name ∈ names.filter (t.listsFile dir accept), name.isText = true := fun _ member =>
  (listsFile_iff.1 (List.mem_filter.1 member).2).1

/-- A plain file stands in a directory under a name. -/
def HoldsFile (t : Tree) (dir : Location) (name : Name) : Prop :=
  ∃ contents, t.node? (dir ++ [name]) = some (.file contents)

/-- A path that a name was joined to leads to a file at no other place than that of the name. -/
theorem eq_of_fileAt_join {dir : Path} {loc place : Location} {name : Name} {contents : Bytes}
    (led : t.walk dir = .ok loc) (directory : t.node? loc = some .directory)
    (isText : name.isText = true) (stands : t.FileAt (dir.join name.text) place contents) :
    place = loc ++ [name] :=
  Except.ok.inj (stands.1.symm.trans (walk_join led directory isText))

/-- A path that a name was joined to leads to a file if one stands in the directory under the name. -/
theorem isFile_join_iff {dir : Path} {loc : Location} {name : Name} (led : t.walk dir = .ok loc)
    (directory : t.node? loc = some .directory) (isText : name.isText = true) :
    t.isFile (dir.join name.text) = true ↔ t.HoldsFile loc name := by
  rw [isFile_iff, HoldsFile]
  constructor
  · rintro ⟨place, contents, stands⟩
    obtain rfl := eq_of_fileAt_join led directory isText stands
    exact ⟨contents, stands.2⟩
  · rintro ⟨contents, stands⟩
    exact ⟨_, contents, walk_join led directory isText, stands⟩

/-- The files of a directory are listed by their names: each name once and in ascending order, of the
plain files that stand in the directory under a name that is text and passes. A directory that cannot
be read has none. -/
theorem exists_filesIn (t : Tree) (dir : Path) (accept : String → Bool) : ∃ names : List Name,
    (t.filesIn dir accept).toOption.getD [] = names.map (fun name => dir.join name.text) ∧
    names.Pairwise (fun a b => a.text < b.text) ∧
    ∀ name, name ∈ names ↔ ∃ loc, t.ListableAt dir loc ∧ t.HoldsFile loc name ∧
      name.isText = true ∧ accept name.text = true := by
  by_cases readable : ∃ loc, t.ListableAt dir loc
  · obtain ⟨loc, listable⟩ := readable
    refine ⟨((t.names loc).filter (t.listsFile dir accept)).mergeSort
        fun a b => decide (a.text ≤ b.text), ?_, ?_, fun name => ?_⟩
    · rw [filesIn_eq_ok accept listable]
      rfl
    · exact pairwise_lt_mergeSort ((t.nodup_names loc).filter _) isText_of_mem_filter
    · rw [List.mem_mergeSort, List.mem_filter, listsFile_iff]
      constructor
      · rintro ⟨-, isText, file, accepted⟩
        exact ⟨loc, listable, (isFile_join_iff listable.led listable.directory isText).1 file, isText,
          accepted⟩
      · rintro ⟨loc', listable', holds, isText, accepted⟩
        obtain rfl := Except.ok.inj (listable'.led.symm.trans listable.led)
        refine ⟨mem_names.2 ?_, isText,
          (isFile_join_iff listable.led listable.directory isText).2 holds, accepted⟩
        obtain ⟨contents, stands⟩ := holds
        rw [stands]
        exact Option.some_ne_none _
  · refine ⟨[], ?_, List.Pairwise.nil, fun name => ?_⟩
    · rw [toOption_filesIn_eq_none accept (not_exists.1 readable)]
      rfl
    · refine ⟨fun none => absurd none List.not_mem_nil, ?_⟩
      rintro ⟨loc, listable, -⟩
      exact absurd ⟨loc, listable⟩ readable

/-- What is listed of a directory are files. -/
theorem isFile_of_mem_filesIn {dir path : Path} {accept : String → Bool}
    (member : path ∈ (t.filesIn dir accept).toOption.getD []) : t.isFile path = true := by
  obtain ⟨names, found, -, mem_iff⟩ := t.exists_filesIn dir accept
  rw [found] at member
  obtain ⟨name, listed, rfl⟩ := List.mem_map.1 member
  obtain ⟨loc, listable, holds, isText, -⟩ := (mem_iff name).1 listed
  exact (isFile_join_iff listable.led listable.directory isText).2 holds

end Tree
end EmuFront.Storage
