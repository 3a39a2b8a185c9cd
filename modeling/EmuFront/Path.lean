/-!
# Paths

A path is the text by which a host names a file. Nothing is normalised: `data//` and `data` are two
paths, even where they lead to one place. What a path leads to is decided by a walk over the disk
(`EmuFront.Storage`).
-/

namespace EmuFront

/-- The text by which a file is named. -/
structure Path where
  text : String
deriving Repr, DecidableEq, Inhabited

namespace Path

/-! ## Joining -/

/-- Characters of a base and of what is named below it, with one separator between them unless the
base is empty or ends in one. An absolute name stands alone. -/
def joinChars (base name : List Char) : List Char :=
  if name.head? = some '/' then name
  else if base = [] ∨ base.getLast? = some '/' then base ++ name
  else base ++ '/' :: name

/-- The path of `name` below `base`. -/
def join (base : Path) (name : String) : Path :=
  ⟨String.ofList (joinChars base.text.toList name.toList)⟩

/-! ## The containing directory -/

/-- Drops separators and `.` parts from the end of a reversed path. A separator that stands for the
root is kept, and so is a `.` that opens the path. -/
def dropTrailing : List Char → List Char
  | ['/'] => ['/']
  | '/' :: rest => dropTrailing rest
  | '.' :: '/' :: rest => dropTrailing ('/' :: rest)
  | rest => rest

/-- Characters of the directory that holds the last part of a path. -/
def parentChars (cs : List Char) : List Char :=
  (dropTrailing (cs.reverse.dropWhile (· ≠ '/'))).reverse

/-- Characters of the last part of a path. -/
def nameChars (cs : List Char) : List Char := (cs.reverse.takeWhile (· ≠ '/')).reverse

/-- The last part of a path that ends in a name. -/
def fileName (p : Path) : String := String.ofList (nameChars p.text.toList)

/-- The path with its last part replaced by another name. -/
def withFileName (p : Path) (name : String) : Path :=
  ⟨String.ofList (joinChars (parentChars p.text.toList) name.toList)⟩

/-! ## Laws -/

/-- What follows the last separator is the name. -/
theorem nameChars_append_slash (base : List Char) {name : List Char} (h : '/' ∉ name) :
    nameChars (base ++ '/' :: name) = name := by
  unfold nameChars
  rw [List.reverse_append, List.reverse_cons, List.append_assoc, List.takeWhile_append_of_pos]
  · simp
  · intro c hc
    have : c ∈ name := List.mem_reverse.mp hc
    simp only [decide_eq_true_eq]
    rintro rfl
    exact h this

end Path
end EmuFront
