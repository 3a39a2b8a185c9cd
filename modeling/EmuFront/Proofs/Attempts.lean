import EmuFront.Proofs.WorkEnsures

/-!
# Attempts

Which faults stand in the way of opening a file, and what one attempt to read or change it does to the
disk. An attempt to change a file fails only if a fault is in store or the tree does not take the file.
-/

namespace EmuFront

open Text (Bytes)

namespace Storage

namespace Disk

variable {d d' : Disk} {path : Path} {mode : OpenMode}

/-! ## Faults in store -/

/-- The errors with which the next opens of a path fail, in order. -/
def pending (d : Disk) (path : Path) (mode : OpenMode) : List OsError :=
  (d.faults.filter fun f => f.strikes path mode).map Fault.error

/-- A file that stands can be read in so many attempts. -/
def ReadableWithin (d : Disk) (path : Path) (attempts : Nat) : Prop :=
  (∀ e ∈ d.pending path .reading, e.isTransient = true) ∧
    (d.pending path .reading).length < attempts

/-- The files of a disk are as they were. Faults may have been used up. -/
def SameFiles (d d' : Disk) : Prop := d'.tree = d.tree ∧ d'.faults.Sublist d.faults

theorem SameFiles.refl (d : Disk) : SameFiles d d := ⟨rfl, .refl _⟩

theorem SameFiles.trans {d'' : Disk} (h : SameFiles d d') (h' : SameFiles d' d'') :
    SameFiles d d'' := ⟨h'.1.trans h.1, h'.2.trans h.2⟩

theorem strikes_iff {f : Fault} : f.strikes path mode = true ↔ f.path = path ∧ f.mode = mode := by
  rw [Fault.strikes, Bool.and_eq_true, decide_eq_true_eq, decide_eq_true_eq]

/-- Opening a path changes no file, and may use up a fault. -/
theorem sameFiles_openPath (d : Disk) (path : Path) (mode : OpenMode) :
    SameFiles d (d.openPath path mode).2 := by
  refine ⟨d.tree_openPath path mode, ?_⟩
  unfold openPath
  split
  · exact .refl _
  · split
    · exact List.eraseP_sublist
    · exact .refl _

/-- An open that is not refused for its path fails with the first fault in store. -/
theorem openPath_fst (noNul : '\x00' ∉ path.text.toList) :
    (d.openPath path mode).1 = (d.pending path mode).head? := by
  rw [openPath, if_neg (by simpa using noNul), pending, List.head?_map, List.head?_filter]
  cases d.faults.find? fun f => f.strikes path mode <;> rfl

/-- Of the elements that pass, the first is erased. -/
theorem filter_eraseP {α : Type} (p : α → Bool) (xs : List α) :
    (xs.eraseP p).filter p = (xs.filter p).tail := by
  induction xs with
  | nil => rfl
  | cons x xs ih => cases h : p x <;> simp [h, ih]

/-- Those that pass another test all stay. -/
theorem filter_eraseP_of_disjoint {α : Type} {p q : α → Bool} (apart : ∀ x, p x = true → q x = false)
    (xs : List α) : (xs.eraseP p).filter q = xs.filter q := by
  induction xs with
  | nil => rfl
  | cons x xs ih =>
    cases h : p x with
    | true => simp [h, apart x h]
    | false => simp [h, List.filter_cons, ih]

/-- The fault that strikes is used up. -/
theorem pending_openPath_self (noNul : '\x00' ∉ path.text.toList) :
    (d.openPath path mode).2.pending path mode = (d.pending path mode).tail := by
  rw [openPath, if_neg (by simpa using noNul)]
  split
  · rw [pending, pending, filter_eraseP, List.map_tail]
  · rename_i none
    have nothing : d.pending path mode = [] := by
      rw [pending, ← List.head?_eq_none_iff, List.head?_map, List.head?_filter, none]
      rfl
    rw [nothing]
    rfl

/-- The faults of other paths, and of the other mode, stay in store. -/
theorem pending_openPath_of_ne {other : Path} {otherMode : OpenMode}
    (apart : ¬ (other = path ∧ otherMode = mode)) :
    (d.openPath path mode).2.pending other otherMode = d.pending other otherMode := by
  have disjoint : ∀ f : Fault, f.strikes path mode = true → f.strikes other otherMode = false := by
    intro f strikes
    rw [← Bool.not_eq_true, strikes_iff]
    rintro ⟨rfl, rfl⟩
    obtain ⟨rfl, rfl⟩ := strikes_iff.1 strikes
    exact apart ⟨rfl, rfl⟩
  unfold openPath
  split
  · rfl
  · split
    · rw [pending, filter_eraseP_of_disjoint disjoint, pending]
    · rfl

/-- One read of a file that stands fails with the first fault in store, if there is one, and uses it
up. -/
theorem read_of_stands {contents : Bytes} (stands : d.tree.read path = .ok contents) :
    (d.read path).1 = (d.pending path .reading).head?.elim (.ok contents) .error ∧
      (d.read path).2.pending path .reading = (d.pending path .reading).tail := by
  obtain ⟨loc, led, -⟩ := Tree.read_eq_ok.1 stands
  have noNul : '\x00' ∉ path.text.toList := (Tree.walk_eq_ok.1 led).1.1
  have fails : (d.openPath path .reading).1 = (d.pending path .reading).head? := openPath_fst noNul
  have used : (d.openPath path .reading).2.pending path .reading =
      (d.pending path .reading).tail := pending_openPath_self noNul
  have tree := d.tree_openPath path .reading
  unfold read
  revert fails used tree
  rcases d.openPath path .reading with ⟨failure, d'⟩
  intro fails used tree
  rw [← fails]
  cases failure with
  | some e => exact ⟨rfl, used⟩
  | none =>
    refine ⟨?_, used⟩
    show d'.tree.read path = _
    rw [tree, stands]
    rfl

/-- A write is blocked if the tree does not take the file, or a fault is in store for it. -/
def Blocked (d : Disk) (path : Path) : Prop :=
  (∀ change tree, d.tree.write path change ≠ .ok tree) ∨
    ∃ f ∈ d.faults, f.strikes path .writing = true

/-- A path that cannot be opened for writing is blocked. -/
theorem blocked_of_openPath {e : OsError} (fails : (d.openPath path .writing).1 = some e) :
    d.Blocked path := by
  by_cases noNul : '\x00' ∈ path.text.toList
  · refine .inl fun change tree written => ?_
    obtain ⟨loc, led, -⟩ := Tree.write_eq_ok.1 written
    exact (Tree.walk_eq_ok.1 led).1.1 noNul
  · rw [openPath_fst noNul, pending, List.head?_map, List.head?_filter] at fails
    obtain ⟨f, found, -⟩ := Option.map_eq_some_iff.1 fails
    have strikes : f.strikes path .writing = true := by simpa using List.find?_some found
    exact .inr ⟨f, List.mem_of_find?_eq_some found, strikes⟩

theorem Blocked.of_sameFiles (h : SameFiles d d') (blocked : d'.Blocked path) : d.Blocked path := by
  obtain refused | ⟨f, member, strikes⟩ := blocked
  · exact .inl (h.1 ▸ refused)
  · exact .inr ⟨f, h.2.subset member, strikes⟩

end Disk

end Storage

open Storage

/-! ## Writing -/

section Writing
variable {m : Machine} {path : Path}

/-- A file of a disk was changed. Faults may have been used up. -/
def Storage.Disk.Written (d : Disk) (path : Path) (change : Bytes → Bytes) (d' : Disk) : Prop :=
  d.tree.write path change = .ok d'.tree ∧ d'.faults.Sublist d.faults

theorem Storage.Disk.Written.after {d d' d'' : Disk} {change : Bytes → Bytes}
    (files : d.SameFiles d') (written : d'.Written path change d'') : d.Written path change d'' := by
  obtain ⟨taken, faults⟩ := written
  rw [files.1] at taken
  exact ⟨taken, faults.trans files.2⟩

/-- How an attempt to change a file ends: the tree takes it, or nothing changes and something stood
in the way. -/
def Storage.Disk.Changed {ε : Type} (d : Disk) (path : Path) (change : Bytes → Bytes)
    (result : Except ε Unit) (d' : Disk) : Prop :=
  match result with
  | .ok () => d.Written path change d'
  | .error _ => d.SameFiles d' ∧ d.Blocked path

theorem Storage.Disk.changed_changeFile (d : Disk) (path : Path) (change : Bytes → Bytes) :
    d.Changed path change (d.changeFile path change).1 (d.changeFile path change).2 := by
  have files := d.sameFiles_openPath path .writing
  have blocked {e : OsError} : (d.openPath path .writing).1 = some e → d.Blocked path :=
    blocked_of_openPath
  unfold changeFile
  revert files blocked
  rcases d.openPath path .writing with ⟨failure, d'⟩
  intro files blocked
  cases failure with
  | some e => exact ⟨files, blocked rfl⟩
  | none =>
    dsimp only
    cases written : d'.tree.write path change with
    | ok tree =>
      rw [files.1] at written
      exact ⟨written, files.2⟩
    | error e =>
      refine ⟨files, .inl fun other tree taken => ?_⟩
      rw [← files.1] at taken
      obtain ⟨tree', taken⟩ := Tree.exists_write_of_ok taken change
      exact absurd (written.symm.trans taken) (by simp)

theorem ensures_append (path : Path) (contents : Bytes) :
    (Work.append path contents).Ensures m fun result v =>
      m.disk.Changed path (fun old => old ++ contents) result v.disk := m.disk.changed_changeFile _ _

end Writing
end EmuFront
