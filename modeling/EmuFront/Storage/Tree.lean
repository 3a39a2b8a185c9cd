import EmuFront.Path
import EmuFront.Storage.OsError
import EmuFront.Text.Utf8

/-!
# File trees

The files and directories of a file system. A place is the list of names that leads to it from the
root; the root itself is the empty list and always a directory. The tree lists its places in no
particular order, each once, and the order in which a directory is read follows that list.

A name is a string of bytes, which need not be text. A path is text, and is walked one part at a
time, from the root if it is absolute and from the working directory otherwise. Each part needs a
directory to start from; an empty part or `.` stays there, and `..` goes back, though not beyond the
root. So a file whose name is not text is in the tree, but no path leads to it.
-/

namespace EmuFront.Storage

open Text (Bytes utf8)

/-! ## Names and places -/

/-- Whether bytes can name a file or directory within another directory: there are some, they are
neither `.` nor `..`, and they hold no separator and no NUL. -/
def isName (bytes : Bytes) : Bool :=
  bytes ≠ [] && bytes ≠ utf8 "." && bytes ≠ utf8 ".." && !bytes.contains 47 && !bytes.contains 0

/-- The name of a file or directory. -/
structure Name where
  bytes : Bytes
  valid : isName bytes = true
deriving Repr, DecidableEq

namespace Name

/-- The name that is spelled by a text. -/
def ofText (text : String) (valid : isName (utf8 text) = true) : Name := ⟨utf8 text, valid⟩

/-- The text of a name as it is shown, with U+FFFD for what is no text. -/
def text (name : Name) : String := Text.decode name.bytes

/-- Whether a name is text. -/
def isText (name : Name) : Bool := decide (utf8 name.text = name.bytes)

end Name

/-- The names that lead from the root to a file or directory. -/
abbrev Location := List Name

/-- What stands at a place. -/
inductive Node
  | directory
  | file (contents : Bytes)
deriving Repr, DecidableEq

/-- Files and directories by their places. -/
structure Tree where
  entries : List (Location × Node)
  /-- The directory from which the paths start that are not absolute. -/
  working : Location
  /-- The directories that lead on to what is in them, but whose names cannot be read. -/
  unreadable : List Location
  nodup : (entries.map Prod.fst).Nodup

namespace Tree

/-- An empty root, which is also the working directory. -/
def empty : Tree := ⟨[], [], [], List.nodup_nil⟩

instance : Inhabited Tree := ⟨empty⟩

/-- What stands at a place. -/
def node? (t : Tree) (loc : Location) : Option Node :=
  if loc = [] then some .directory else t.entries.lookup loc

/-- The contents of the file at a place. -/
def contents? (t : Tree) (loc : Location) : Option Bytes :=
  match t.node? loc with
  | some (.file contents) => some contents
  | _ => none

/-! ## Changing a tree -/

/-- Keeps the places that pass a test. -/
def filter (t : Tree) (keep : Location → Bool) : Tree where
  entries := t.entries.filter fun e => keep e.1
  working := t.working
  unreadable := t.unreadable.filter keep
  nodup := t.nodup.sublist (List.filter_sublist.map _)

/-- Removes what stands at a place. -/
def erase (t : Tree) (loc : Location) : Tree := t.filter fun l => l ≠ loc

/-- Removes what stands at a place and below it. -/
def eraseBelow (t : Tree) (loc : Location) : Tree := t.filter fun l => !loc.isPrefixOf l

/-- Puts a node at a place, over what stood there. -/
def put (t : Tree) (loc : Location) (node : Node) : Tree where
  entries := (t.erase loc).entries ++ [(loc, node)]
  working := t.working
  unreadable := (t.erase loc).unreadable
  nodup := by
    rw [List.map_append, List.nodup_append]
    refine ⟨(t.erase loc).nodup, by simp, ?_⟩
    intro l hl l' hl' h
    obtain ⟨e, he, rfl⟩ := List.mem_map.mp hl
    have hne : e.1 ≠ loc := by simpa using (List.mem_filter.mp he).2
    exact hne (h.trans (by simpa using hl'))

/-- What is kept stays where it is. -/
theorem node?_filter (t : Tree) (keep : Location → Bool) {loc : Location} (h : loc ≠ []) :
    (t.filter keep).node? loc = if keep loc then t.node? loc else none := by
  simp only [node?, if_neg h, filter]
  induction t.entries with
  | nil => simp
  | cons e es ih =>
    obtain ⟨l, n⟩ := e
    by_cases hl : loc = l
    · subst hl
      cases hk : keep loc <;> simp [hk, ih]
    · have hb : (loc == l) = false := by simpa using hl
      cases hk : keep l <;> simp [hk, List.lookup_cons, hb, ih]

/-- What was put at a place stands there. -/
theorem node?_put_self (t : Tree) {loc : Location} (h : loc ≠ []) (node : Node) :
    (t.put loc node).node? loc = some node := by
  have hnone : (t.erase loc).entries.lookup loc = none := by
    have := t.node?_filter (fun l => l ≠ loc) h
    simpa [node?, h, erase] using this
  simp [node?, h, put, List.lookup_append, hnone]

/-- All other places stay as they were. -/
theorem node?_put_of_ne (t : Tree) {loc other : Location} (h : other ≠ loc) (node : Node) :
    (t.put loc node).node? other = t.node? other := by
  by_cases h0 : other = []
  · simp [node?, h0]
  · have hfilter := t.node?_filter (fun l => l ≠ loc) h0
    have hb : (other == loc) = false := by simpa using h
    simp only [node?, if_neg h0, h, ne_eq, not_false_eq_true, decide_true, if_true] at hfilter
    simp only [node?, if_neg h0, put, erase, List.lookup_append, ne_eq, hfilter, List.lookup_cons,
      List.lookup_nil, hb]
    simp

/-- Keeps the names in a directory from being read. -/
def hide (t : Tree) (loc : Location) : Tree := { t with unreadable := loc :: t.unreadable }

/-! ## Reading a directory -/

/-- The names in a directory, in the order in which it is read. -/
def names (t : Tree) (loc : Location) : List Name :=
  t.entries.filterMap fun e => if e.1.dropLast = loc then e.1.getLast? else none

/-! ## Walking a path -/

/-- The parts of a path, between its separators. -/
def splitParts : List Char → List (List Char)
  | [] => [[]]
  | c :: cs =>
    if c = '/' then [] :: splitParts cs
    else
      match splitParts cs with
      | [] => [[c]]
      | part :: parts => (c :: part) :: parts

/-- One step of a walk. -/
inductive Step
  | stay
  | back
  | down (name : Name)
deriving Repr, DecidableEq

/-- The step that a part of a path stands for. -/
def Step.ofPart (part : String) : Step :=
  if valid : isName (utf8 part) = true then .down (.ofText part valid)
  else if part = ".." then .back
  else .stay

/-- The steps of a path that can lead somewhere: the empty path leads nowhere, and no path may hold a
NUL. -/
def steps (p : Path) : Except OsError (List Step) :=
  let cs := p.text.toList
  if cs.contains '\x00' then .error .nulInPath
  else if cs = [] then .error .notFound
  else .ok ((splitParts cs).map fun part => .ofPart (String.ofList part))

/-- The place that a path starts from. -/
def start (t : Tree) (p : Path) : Location :=
  if p.text.toList.head? = some '/' then [] else t.working

/-- Takes steps from a place on. Each starts from a directory. -/
def walkFrom (t : Tree) : Location → List Step → Except OsError Location
  | loc, [] => .ok loc
  | loc, step :: rest =>
    match t.node? loc with
    | none => .error .notFound
    | some (.file _) => .error .notADirectory
    | some .directory =>
      match step with
      | .stay => t.walkFrom loc rest
      | .back => t.walkFrom loc.dropLast rest
      | .down name => t.walkFrom (loc ++ [name]) rest

/-- The place that a path leads to. Something may or may not stand there, but all places on the way
are directories. -/
def walk (t : Tree) (p : Path) : Except OsError Location :=
  match steps p with
  | .error e => .error e
  | .ok steps => t.walkFrom (t.start p) steps

/-- Makes the directories along steps, from a place on, where nothing stands. A file on the way ends
it. -/
def makeAlong (t : Tree) : Location → List Step → Tree
  | _, [] => t
  | loc, .stay :: rest => t.makeAlong loc rest
  | loc, .back :: rest => t.makeAlong loc.dropLast rest
  | loc, .down name :: rest =>
    let next := loc ++ [name]
    match t.node? next with
    | some .directory => t.makeAlong next rest
    | some (.file _) => t
    | none => (t.put next .directory).makeAlong next rest

/-- What a path leads to. -/
def lookup (t : Tree) (p : Path) : Except OsError (Location × Node) :=
  match t.walk p with
  | .error e => .error e
  | .ok loc =>
    match t.node? loc with
    | none => .error .notFound
    | some node => .ok (loc, node)

/-- Whether a path leads to a plain file. -/
def isFile (t : Tree) (p : Path) : Bool :=
  match t.lookup p with
  | .ok (_, .file _) => true
  | _ => false

/-- Whether a path leads to a directory. -/
def isDirectory (t : Tree) (p : Path) : Bool :=
  match t.lookup p with
  | .ok (_, .directory) => true
  | _ => false

/-- The names in the directory that a path leads to. -/
def list (t : Tree) (p : Path) : Except OsError (List Name) :=
  match t.lookup p with
  | .error e => .error e
  | .ok (_, .file _) => .error .notADirectory
  | .ok (loc, .directory) =>
    if loc ∈ t.unreadable then .error .permissionDenied else .ok (t.names loc)

/-- Whether a name in a directory is that of a plain file and passes a test. One that is not text does
not. -/
def listsFile (t : Tree) (dir : Path) (accept : String → Bool) (name : Name) : Bool :=
  name.isText && (t.isFile (dir.join name.text) && accept name.text)

/-- The plain files directly in a directory whose names pass a test, in ascending order. -/
def filesIn (t : Tree) (dir : Path) (accept : String → Bool) : Except OsError (List Path) :=
  (t.list dir).map fun names =>
    let accepted := names.filter (t.listsFile dir accept)
    (accepted.mergeSort fun a b => decide (a.text ≤ b.text)).map fun name => dir.join name.text

/-- The contents of the file that a path leads to. -/
def read (t : Tree) (p : Path) : Except OsError Bytes :=
  match t.lookup p with
  | .error e => .error e
  | .ok (_, .directory) => .error .isADirectory
  | .ok (_, .file contents) => .ok contents

/-- The tree with a file written: `change` makes the new contents from the old ones, which are empty
for a new file. -/
def write (t : Tree) (p : Path) (change : Bytes → Bytes) : Except OsError Tree :=
  match t.walk p with
  | .error e => .error e
  | .ok loc =>
    match t.node? loc with
    | some .directory => .error .isADirectory
    | some (.file contents) => .ok (t.put loc (.file (change contents)))
    | none => .ok (t.put loc (.file (change [])))

/-- The tree without the plain file that a path leads to. -/
def remove (t : Tree) (p : Path) : Except OsError Tree :=
  match t.lookup p with
  | .error e => .error e
  | .ok (_, .directory) => .error .isADirectory
  | .ok (loc, .file _) => .ok (t.erase loc)

/-- Every file and directory below the working directory, directories marked with a separator, in the
order of their bytes. -/
def listing (t : Tree) : List String :=
  let inside := t.entries.filter fun (loc, _) => t.working.isPrefixOf loc && loc ≠ t.working
  let lines := inside.map fun (loc, node) =>
    "/".intercalate ((loc.drop t.working.length).map Name.text)
      ++ (match node with | .directory => "/" | .file _ => "")
  lines.mergeSort fun a b => decide (a ≤ b)

end Tree
end EmuFront.Storage
