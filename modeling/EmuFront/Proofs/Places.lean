import EmuFront.Proofs.Walking
import Mathlib.Data.List.Nodup

/-!
# Files and their places

Reading, writing and removing a file, said through the place that its path leads to. Files come and
go without moving a directory, so that a path leads to the same place before and after.
-/

namespace EmuFront.Storage

open Text (Bytes)

namespace Tree

variable {t t' : Tree}

/-! ## What stands at a place -/

/-- Nothing stands where something was removed. -/
theorem node?_erase_self (t : Tree) {loc : Location} (h : loc ≠ []) :
    (t.erase loc).node? loc = none := by
  rw [erase, node?_filter t _ h]
  simp

/-- A removal touches one place only. -/
theorem node?_erase_of_ne (t : Tree) {loc other : Location} (h : other ≠ loc) :
    (t.erase loc).node? other = t.node? other := by
  by_cases root : other = []
  · simp [node?, root]
  · rw [erase, node?_filter t _ root]
    simp [h]

/-- The root is always a directory. -/
theorem ne_nil_of_node? {loc : Location} (h : t.node? loc ≠ some .directory) : loc ≠ [] := by
  rintro rfl
  exact h (if_pos rfl)

theorem node?_directory_ne_file {loc : Location} {contents : Bytes}
    (h : t.node? loc = some (.file contents)) : t.node? loc ≠ some .directory := by
  rw [h]
  exact fun same => Node.noConfusion (Option.some.inj same)

/-! ## A file at the end of a path -/

/-- A path leads to a place where a file with these contents stands. -/
def FileAt (t : Tree) (p : Path) (loc : Location) (contents : Bytes) : Prop :=
  t.walk p = .ok loc ∧ t.node? loc = some (.file contents)

/-- To look a path up is to walk it and to see what stands at its end. -/
theorem lookup_eq_ok {p : Path} {loc : Location} {node : Node} :
    t.lookup p = .ok (loc, node) ↔ t.walk p = .ok loc ∧ t.node? loc = some node := by
  unfold lookup
  cases t.walk p with
  | error e => simp
  | ok l =>
    simp only [Except.ok.injEq]
    constructor
    · intro found
      cases stands : t.node? l with
      | none => simp [stands] at found
      | some n =>
        obtain ⟨rfl, rfl⟩ : l = loc ∧ n = node := by simpa [stands] using found
        exact ⟨rfl, stands⟩
    · rintro ⟨rfl, stands⟩
      rw [stands]

/-- A path is that of a plain file if there is one at its end. -/
theorem isFile_iff {p : Path} : t.isFile p = true ↔ ∃ loc contents, t.FileAt p loc contents := by
  simp only [FileAt, ← lookup_eq_ok]
  unfold isFile
  split
  · rename_i loc contents found
    exact ⟨fun _ => ⟨loc, contents, found⟩, fun _ => rfl⟩
  · rename_i other
    refine ⟨fun no => absurd no Bool.false_ne_true, ?_⟩
    rintro ⟨loc, contents, found⟩
    exact absurd found (other loc contents)

/-- What is read are the contents of the file at the end of the path. -/
theorem read_eq_ok {p : Path} {contents : Bytes} :
    t.read p = .ok contents ↔ ∃ loc, t.FileAt p loc contents := by
  simp only [FileAt, ← lookup_eq_ok]
  unfold read
  split <;> rename_i found <;> simp [found]

/-- A path leads to a directory whose names can be read. -/
structure ListableAt (t : Tree) (p : Path) (dir : Location) : Prop where
  led : t.walk p = .ok dir
  directory : t.node? dir = some .directory
  readable : dir ∉ t.unreadable

/-- What is listed are the names in the directory at the end of the path, if they can be read. -/
theorem list_eq_ok {p : Path} {names : List Name} :
    t.list p = .ok names ↔ ∃ dir, t.ListableAt p dir ∧ names = t.names dir := by
  have parts {dir : Location} : t.ListableAt p dir ↔
      t.lookup p = .ok (dir, .directory) ∧ dir ∉ t.unreadable := by
    rw [lookup_eq_ok]
    exact ⟨fun h => ⟨⟨h.led, h.directory⟩, h.readable⟩,
      fun ⟨⟨led, stands⟩, free⟩ => ⟨led, stands, free⟩⟩
  simp only [parts]
  unfold list
  split <;> rename_i found
  · simp [found]
  · simp [found]
  · simp only [found, Except.ok.injEq, Prod.mk.injEq, and_true]
    rename_i dir
    by_cases free : dir ∈ t.unreadable
    · rw [if_pos free]
      refine iff_of_false nofun ?_
      rintro ⟨_, ⟨rfl, readable⟩, -⟩
      exact readable free
    · rw [if_neg free, Except.ok.injEq]
      constructor
      · rintro rfl
        exact ⟨dir, ⟨rfl, free⟩, rfl⟩
      · rintro ⟨_, ⟨rfl, -⟩, rfl⟩
        rfl

/-- Only a plain file is removed, and nothing else with it. -/
theorem remove_eq_ok {p : Path} :
    t.remove p = .ok t' ↔ ∃ loc contents, t.FileAt p loc contents ∧ t' = t.erase loc := by
  simp only [FileAt, ← lookup_eq_ok]
  unfold remove
  split <;> rename_i found <;> simp [found, eq_comm]

/-- A write makes or changes the one file at the end of its path, where no directory stands. -/
theorem write_eq_ok {p : Path} {change : Bytes → Bytes} :
    t.write p change = .ok t' ↔ ∃ loc, t.walk p = .ok loc ∧ t.node? loc ≠ some .directory ∧
      t' = t.put loc (.file (change ((t.contents? loc).getD []))) := by
  unfold write
  cases t.walk p with
  | error e => simp
  | ok l =>
    cases found : t.node? l with
    | none => simp [found, contents?, eq_comm]
    | some node => cases node <;> simp [found, contents?, eq_comm]

/-! ## Trees with the same directories -/

/-- The same places are directories, the same of them can be read, and paths start from the same
one. -/
structure SameDirectories (t t' : Tree) : Prop where
  working : t.working = t'.working
  stands : ∀ loc, t.node? loc = some .directory ↔ t'.node? loc = some .directory
  unreadable : ∀ loc, t.node? loc = some .directory → (loc ∈ t.unreadable ↔ loc ∈ t'.unreadable)

namespace SameDirectories

theorem refl (t : Tree) : SameDirectories t t := ⟨rfl, fun _ => .rfl, fun _ _ => .rfl⟩

theorem symm (h : SameDirectories t t') : SameDirectories t' t :=
  ⟨h.working.symm, fun loc => (h.stands loc).symm,
    fun loc directory => (h.unreadable loc ((h.stands loc).2 directory)).symm⟩

theorem trans {t'' : Tree} (h : SameDirectories t t') (h' : SameDirectories t' t'') :
    SameDirectories t t'' :=
  ⟨h.working.trans h'.working, fun loc => (h.stands loc).trans (h'.stands loc),
    fun loc directory =>
      (h.unreadable loc directory).trans (h'.unreadable loc ((h.stands loc).1 directory))⟩

/-- A walk meets directories only, so that it goes the same way in a tree with the same ones. -/
theorem walkFrom_of_ok (h : SameDirectories t t') {loc l : Location} {steps : List Step}
    (led : t.walkFrom loc steps = .ok l) : t'.walkFrom loc steps = .ok l := by
  induction steps generalizing loc with
  | nil => exact led
  | cons step rest ih =>
    simp only [walkFrom] at led ⊢
    cases found : t.node? loc with
    | none => simp [found] at led
    | some node =>
      cases node with
      | file contents => simp [found] at led
      | directory =>
        rw [found] at led
        rw [(h.stands loc).1 found]
        cases step <;> exact ih led

theorem walk_of_ok (h : SameDirectories t t') {p : Path} {l : Location} (led : t.walk p = .ok l) :
    t'.walk p = .ok l := by
  rw [walk_eq_ok] at led ⊢
  refine ⟨led.1, ?_⟩
  rw [startOf, ← h.working]
  exact h.walkFrom_of_ok led.2

/-- A path leads to the same place. -/
theorem walk_iff (h : SameDirectories t t') {p : Path} {l : Location} :
    t.walk p = .ok l ↔ t'.walk p = .ok l := ⟨h.walk_of_ok, h.symm.walk_of_ok⟩

/-- A path leads to a directory that can be read, or it does so in neither tree. -/
theorem listableAt (h : SameDirectories t t') {p : Path} {dir : Location}
    (listable : t.ListableAt p dir) : t'.ListableAt p dir :=
  ⟨h.walk_of_ok listable.led, (h.stands dir).1 listable.directory,
    fun sealed => listable.readable ((h.unreadable dir listable.directory).2 sealed)⟩

end SameDirectories

/-- What is erased is no directory that could be read. -/
theorem mem_unreadable_erase {loc other : Location} (h : t.node? loc ≠ some .directory)
    (directory : t.node? other = some .directory) :
    other ∈ t.unreadable ↔ other ∈ (t.erase loc).unreadable := by
  have kept : other ≠ loc := by
    rintro rfl
    exact h directory
  simp [erase, Tree.filter, kept]

/-- Removing a file moves no directory. -/
theorem sameDirectories_erase {loc : Location} (h : t.node? loc ≠ some .directory) :
    SameDirectories t (t.erase loc) := by
  refine ⟨rfl, fun other => ?_, fun other => mem_unreadable_erase h⟩
  by_cases same : other = loc
  · subst same
    rw [node?_erase_self t (ne_nil_of_node? h)]
    simp [h]
  · rw [node?_erase_of_ne t same]

/-- Putting a file where no directory stands moves none. -/
theorem sameDirectories_put {loc : Location} (h : t.node? loc ≠ some .directory)
    (contents : Bytes) : SameDirectories t (t.put loc (.file contents)) := by
  refine ⟨rfl, fun other => ?_, fun other => mem_unreadable_erase h⟩
  by_cases same : other = loc
  · subst same
    rw [node?_put_self t (ne_nil_of_node? h)]
    simp [h]
  · rw [node?_put_of_ne t same]

/-! ## Written files -/

/-- Directories stay through every write. -/
theorem sameDirectories_write {p : Path} {change : Bytes → Bytes} (h : t.write p change = .ok t') :
    SameDirectories t t' := by
  obtain ⟨loc, -, free, rfl⟩ := write_eq_ok.1 h
  exact sameDirectories_put free _

/-- A write touches no place but that of its path. -/
theorem node?_write_of_ne {p : Path} {change : Bytes → Bytes} {loc : Location}
    (h : t.write p change = .ok t') (other : t.walk p ≠ .ok loc) :
    t'.node? loc = t.node? loc := by
  obtain ⟨written, led, -, rfl⟩ := write_eq_ok.1 h
  refine node?_put_of_ne t ?_ _
  rintro rfl
  exact other led

/-- Another file stands where it stood, as it was. -/
theorem fileAt_write_iff {p q : Path} {change : Bytes → Bytes} {loc : Location} {contents : Bytes}
    (h : t.write p change = .ok t') (other : t.walk q = .ok loc → t.walk p ≠ .ok loc) :
    t'.FileAt q loc contents ↔ t.FileAt q loc contents := by
  unfold FileAt
  rw [← (sameDirectories_write h).walk_iff]
  refine and_congr_right fun led => ?_
  rw [node?_write_of_ne h (other led)]

/-- A written file is read back. -/
theorem read_write {p : Path} {change : Bytes → Bytes} (h : t.write p change = .ok t') :
    ∃ old, t'.read p = .ok (change old) ∧ (t.read p = .ok old ∨ t.isFile p = false ∧ old = []) := by
  obtain ⟨loc, led, free, rfl⟩ := write_eq_ok.1 h
  refine ⟨_, read_eq_ok.2 ⟨loc, (sameDirectories_put free _).walk_of_ok led,
    node?_put_self t (ne_nil_of_node? free) _⟩, ?_⟩
  cases found : t.node? loc with
  | none =>
    refine .inr ⟨?_, by simp [contents?, found]⟩
    rw [← Bool.not_eq_true, isFile_iff]
    rintro ⟨l, contents, led', stands⟩
    obtain rfl := Except.ok.inj (led.symm.trans led')
    simp [found] at stands
  | some node =>
    cases node with
    | directory => exact absurd found free
    | file contents =>
      refine .inl (read_eq_ok.2 ⟨loc, led, ?_⟩)
      simp [contents?, found]

/-- Whether a file can be written does not depend on what is written. -/
theorem exists_write_of_ok {p : Path} {change : Bytes → Bytes} (h : t.write p change = .ok t')
    (other : Bytes → Bytes) : ∃ t'', t.write p other = .ok t'' := by
  obtain ⟨loc, led, free, -⟩ := write_eq_ok.1 h
  exact ⟨_, write_eq_ok.2 ⟨loc, led, free, rfl⟩⟩

/-! ## Removed files -/

/-- The tree after an attempt to remove a file. -/
def without (t : Tree) (p : Path) : Tree :=
  match t.remove p with
  | .ok t' => t'
  | .error _ => t

/-- The tree after attempts to remove files, one after the other. -/
def withoutAll (t : Tree) (ps : List Path) : Tree := ps.foldl without t

theorem withoutAll_cons (t : Tree) (p : Path) (ps : List Path) :
    t.withoutAll (p :: ps) = (t.without p).withoutAll ps := List.foldl_cons

theorem withoutAll_nil (t : Tree) : t.withoutAll [] = t := List.foldl_nil

/-- A removal comes about exactly if there is a plain file to remove. -/
theorem isOk_remove (t : Tree) (p : Path) : (t.remove p).isOk = t.isFile p := by
  unfold remove isFile
  rcases t.lookup p with e | ⟨loc, node⟩
  · rfl
  · cases node <;> rfl

/-- A removal takes the file away that the path leads to, or leaves the tree as it is. -/
theorem without_cases (t : Tree) (p : Path) :
    (∃ loc contents, t.FileAt p loc contents ∧ t.without p = t.erase loc) ∨
      t.isFile p = false ∧ t.without p = t := by
  unfold without
  cases removed : t.remove p with
  | ok t' =>
    obtain ⟨loc, contents, stands, rfl⟩ := remove_eq_ok.1 removed
    exact .inl ⟨loc, contents, stands, rfl⟩
  | error e =>
    refine .inr ⟨?_, rfl⟩
    rw [← isOk_remove, removed]
    rfl

/-- Directories stay through a removal, whether it comes about or not. -/
theorem sameDirectories_without (t : Tree) (p : Path) : SameDirectories t (t.without p) := by
  obtain ⟨loc, contents, stands, removed⟩ | ⟨-, kept⟩ := t.without_cases p
  · rw [removed]
    exact sameDirectories_erase (node?_directory_ne_file stands.2)
  · rw [kept]
    exact .refl t

/-- A removal touches no place but that of its path. -/
theorem node?_without_of_ne {p : Path} {loc : Location} (other : t.walk p ≠ .ok loc) :
    (t.without p).node? loc = t.node? loc := by
  obtain ⟨l, contents, ⟨led, -⟩, removed⟩ | ⟨-, kept⟩ := t.without_cases p
  · rw [removed, node?_erase_of_ne]
    rintro rfl
    exact other led
  · rw [kept]

/-- Where a path led to, no file is left. -/
theorem node?_without_ne_file {p : Path} {loc : Location} (led : t.walk p = .ok loc)
    (contents : Bytes) : (t.without p).node? loc ≠ some (.file contents) := by
  intro left
  obtain ⟨l, old, ⟨led', stands⟩, removed⟩ | ⟨nothing, kept⟩ := t.without_cases p
  · obtain rfl := Except.ok.inj (led.symm.trans led')
    rw [removed, node?_erase_self t (ne_nil_of_node? (node?_directory_ne_file stands))] at left
    exact absurd left (by simp)
  · rw [kept] at left
    rw [isFile_iff.2 ⟨loc, contents, led, left⟩] at nothing
    exact Bool.noConfusion nothing

/-- Directories stay through removals in a row. -/
theorem sameDirectories_withoutAll (t : Tree) (ps : List Path) :
    SameDirectories t (t.withoutAll ps) := by
  induction ps generalizing t with
  | nil => exact .refl t
  | cons p ps ih => exact (t.sameDirectories_without p).trans (ih _)

/-- What none of the removed paths leads to stays as it is. -/
theorem node?_withoutAll_of_ne {ps : List Path} {loc : Location}
    (others : ∀ p ∈ ps, t.walk p ≠ .ok loc) : (t.withoutAll ps).node? loc = t.node? loc := by
  induction ps generalizing t with
  | nil => rfl
  | cons p ps ih =>
    obtain ⟨other, others⟩ := List.forall_mem_cons.1 others
    show ((t.without p).withoutAll ps).node? loc = t.node? loc
    rw [ih, node?_without_of_ne other]
    intro q member
    rw [Ne, ← (t.sameDirectories_without p).walk_iff]
    exact others q member

/-- A file that is left after removals was there before, at the end of none of their paths. -/
theorem of_node?_withoutAll {ps : List Path} {loc : Location} {contents : Bytes}
    (left : (t.withoutAll ps).node? loc = some (.file contents)) :
    t.node? loc = some (.file contents) ∧ ∀ p ∈ ps, t.walk p ≠ .ok loc := by
  induction ps generalizing t with
  | nil => exact ⟨left, fun _ none => absurd none List.not_mem_nil⟩
  | cons p ps ih =>
    obtain ⟨stands, others⟩ := ih (t := t.without p) left
    have other : t.walk p ≠ .ok loc := fun led => node?_without_ne_file led contents stands
    refine ⟨node?_without_of_ne other ▸ stands, List.forall_mem_cons.2 ⟨other, ?_⟩⟩
    intro q member
    rw [Ne, (t.sameDirectories_without p).walk_iff]
    exact others q member

theorem withoutAll_append (t : Tree) (ps qs : List Path) :
    t.withoutAll (ps ++ qs) = (t.withoutAll ps).withoutAll qs := List.foldl_append

end Tree
end EmuFront.Storage
