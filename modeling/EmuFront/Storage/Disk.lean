import EmuFront.Storage.Tree

/-!
# The disk

A file tree together with the faults it has in store. A fault belongs to one path, as it is written,
and to opening for reading or for writing. It makes one such open fail, whatever the tree holds, and
is then used up; the faults of one path strike in their order. Only opens of files fail in this way.
A directory whose names cannot be read stays so: that belongs to the tree.
-/

namespace EmuFront.Storage

open Text (Bytes)

/-- What a file is opened for. -/
inductive OpenMode
  | reading
  /-- Writing or appending. -/
  | writing
deriving Repr, DecidableEq

/-- One open that is going to fail. -/
structure Fault where
  path : Path
  mode : OpenMode
  error : OsError
deriving Repr, DecidableEq

/-- Whether a fault strikes an open. -/
def Fault.strikes (f : Fault) (path : Path) (mode : OpenMode) : Bool :=
  decide (f.path = path) && decide (f.mode = mode)

/-- A file tree and the faults to come. -/
structure Disk where
  tree : Tree
  faults : List Fault

namespace Disk

/-- An empty disk without faults. -/
def empty : Disk := ⟨.empty, []⟩

instance : Inhabited Disk := ⟨empty⟩

/-- Opens a path: the fault that strikes, if one is in store, and the disk with that fault used up.
A path that holds a NUL is refused before it is opened. -/
def openPath (d : Disk) (path : Path) (mode : OpenMode) : Option OsError × Disk :=
  if path.text.toList.contains '\x00' then (some .nulInPath, d)
  else
    match d.faults.find? fun f => f.strikes path mode with
    | some f => (some f.error, { d with faults := d.faults.eraseP fun f => f.strikes path mode })
    | none => (none, d)

/-- Opens a file and reads its contents. -/
def read (d : Disk) (path : Path) : Except OsError Bytes × Disk :=
  match d.openPath path .reading with
  | (some e, d) => (.error e, d)
  | (none, d) => (d.tree.read path, d)

/-- Opens a file and changes its contents, making it if nothing stands there. -/
def changeFile (d : Disk) (path : Path) (change : Bytes → Bytes) : Except OsError Unit × Disk :=
  match d.openPath path .writing with
  | (some e, d) => (.error e, d)
  | (none, d) =>
    match d.tree.write path change with
    | .error e => (.error e, d)
    | .ok tree => (.ok (), { d with tree })

/-- Gives a file new contents. -/
def write (d : Disk) (path : Path) (contents : Bytes) : Except OsError Unit × Disk :=
  d.changeFile path fun _ => contents

/-- Adds to the end of a file. -/
def append (d : Disk) (path : Path) (contents : Bytes) : Except OsError Unit × Disk :=
  d.changeFile path fun old => old ++ contents

/-- Removes a plain file. -/
def remove (d : Disk) (path : Path) : Except OsError Unit × Disk :=
  match d.tree.remove path with
  | .error e => (.error e, d)
  | .ok tree => (.ok (), { d with tree })

/-- Opening a path uses up a fault at most, and changes no file. -/
@[simp] theorem tree_openPath (d : Disk) (path : Path) (mode : OpenMode) :
    (d.openPath path mode).2.tree = d.tree := by
  unfold openPath
  split
  · rfl
  · split <;> rfl

@[simp] theorem tree_read (d : Disk) (path : Path) : (d.read path).2.tree = d.tree := by
  have h := d.tree_openPath path .reading
  unfold read
  split <;> simp_all

end Disk

/-! ## What others do to the disk -/

/-- A change that another program makes, or a fault that it plants. -/
inductive DiskAction
  /-- Makes a directory and those above it. -/
  | makeDirectory (path : Path)
  /-- Writes a file, and makes the directories above it. -/
  | putFile (path : Path) (contents : Bytes)
  /-- Removes a file, or a directory with all below it. -/
  | removeAll (path : Path)
  /-- Keeps the names in a directory from being read. -/
  | hideNames (path : Path)
  /-- Makes the next `count` opens of a path fail. -/
  | plantFaults (path : Path) (mode : OpenMode) (count : Nat) (error : OsError)
deriving Repr, DecidableEq

namespace Disk

/-- The disk after an action. An action that cannot be done leaves the files as they are. -/
def act (d : Disk) : DiskAction → Disk
  | .makeDirectory path =>
    match Tree.steps path with
    | .ok steps => { d with tree := d.tree.makeAlong (d.tree.start path) steps }
    | .error _ => d
  | .putFile path contents =>
    match Tree.steps path with
    | .ok steps =>
      match (d.tree.makeAlong (d.tree.start path) steps.dropLast).write path fun _ => contents with
      | .ok tree => { d with tree }
      | .error _ => d
    | .error _ => d
  | .removeAll path =>
    match d.tree.lookup path with
    | .ok (loc, _) => { d with tree := d.tree.eraseBelow loc }
    | .error _ => d
  | .hideNames path =>
    match d.tree.lookup path with
    | .ok (loc, .directory) => { d with tree := d.tree.hide loc }
    | _ => d
  | .plantFaults path mode count error =>
    { d with faults := d.faults ++ List.replicate count ⟨path, mode, error⟩ }

/-- The disk after a list of actions. -/
def actAll (d : Disk) (actions : List DiskAction) : Disk := actions.foldl act d

end Disk
end EmuFront.Storage
