import EmuFront.Proofs.Decoding
import EmuFront.Storage.Tree
import Mathlib.Data.List.TakeWhile

/-!
# Walking paths

Where a path leads that is made by joining a name to a directory, or by putting another name in the
place of its last part: into the directory, and then to the name. This holds for names that are
text; no path is made of the others.
-/

namespace EmuFront.Storage

open Text (Bytes utf8)

/-! ## Steps -/

namespace Tree

theorem splitParts_ne_nil (cs : List Char) : splitParts cs ≠ [] := by
  unfold splitParts
  split
  · exact List.cons_ne_nil _ _
  · split
    · exact List.cons_ne_nil _ _
    · split <;> exact List.cons_ne_nil _ _

/-- Parts are split at each separator. -/
theorem splitParts_append_slash (before after : List Char) :
    splitParts (before ++ '/' :: after) = splitParts before ++ splitParts after := by
  induction before with
  | nil => simp [splitParts]
  | cons c before ih =>
    rw [List.cons_append, splitParts, splitParts, ih]
    split
    · rfl
    · -- the character joins the first part, of which there is one
      obtain ⟨part, parts, split⟩ := List.exists_cons_of_ne_nil (splitParts_ne_nil before)
      rw [split]
      rfl

/-- Characters without a separator are one part. -/
theorem splitParts_of_not_mem {cs : List Char} (h : '/' ∉ cs) : splitParts cs = [cs] := by
  induction cs with
  | nil => rfl
  | cons c cs ih =>
    have other : c ≠ '/' := fun same => h (same ▸ List.mem_cons_self)
    rw [splitParts, if_neg other, ih fun member => h (List.mem_cons_of_mem _ member)]

/-- The steps that characters stand for. -/
def stepsOf (cs : List Char) : List Step :=
  (splitParts cs).map fun part => .ofPart (String.ofList part)

/-- The steps of a path are those before a separator and then those after it. -/
theorem stepsOf_append_slash (before after : List Char) :
    stepsOf (before ++ '/' :: after) = stepsOf before ++ stepsOf after := by
  rw [stepsOf, splitParts_append_slash, List.map_append]
  rfl

end Tree

namespace Name

theorem isName_iff {bytes : Bytes} : isName bytes = true ↔
    (bytes ≠ [] ∧ bytes ≠ utf8 "." ∧ bytes ≠ utf8 "..") ∧ 47 ∉ bytes ∧ 0 ∉ bytes := by
  simp only [isName, Bool.and_eq_true, Bool.not_eq_true', List.contains_eq_mem, decide_eq_true_eq,
    decide_eq_false_iff_not, and_assoc]

/-- A name is text if the text that it is shown as has its bytes. -/
theorem isText_iff {name : Name} : name.isText = true ↔ utf8 name.text = name.bytes :=
  decide_eq_true_iff

@[simp] theorem text_ofText (text : String) (valid : isName (utf8 text) = true) :
    (ofText text valid).text = text := Text.decode_utf8 text

@[simp] theorem isText_ofText (text : String) (valid : isName (utf8 text) = true) :
    (ofText text valid).isText = true := isText_iff.2 (congrArg utf8 (Text.decode_utf8 text))

/-- Names that are text are told apart by their texts. -/
theorem text_inj {name other : Name} (isText : name.isText = true) (isText' : other.isText = true) :
    name.text = other.text ↔ name = other := by
  refine ⟨fun same => ?_, congrArg text⟩
  obtain ⟨bytes, valid⟩ := name
  obtain ⟨bytes', valid'⟩ := other
  obtain rfl : bytes = bytes' := (isText_iff.1 isText).symm.trans (same ▸ isText_iff.1 isText')
  rfl

variable {name : Name} (isText : name.isText = true)
include isText

/-- A name that is text is spelled by it. -/
theorem valid_text : isName (utf8 name.text) = true := isText_iff.1 isText ▸ name.valid

/-- A name that is text is spelled by it. -/
theorem ofText_text : ofText name.text (valid_text isText) = name :=
  (text_inj (isText_ofText _ _) isText).1 (text_ofText _ _)

/-- No name holds a separator, for all bytes of other characters are 128 or more. -/
theorem not_mem_slash : '/' ∉ name.text.toList := by
  rw [← (Text.ofNat_mem_utf8 (n := 47) (by decide) _), isText_iff.1 isText]
  exact (isName_iff.1 name.valid).2.1

theorem not_mem_nul : '\x00' ∉ name.text.toList := by
  rw [← (Text.ofNat_mem_utf8 (n := 0) (by decide) _), isText_iff.1 isText]
  exact (isName_iff.1 name.valid).2.2

/-- The characters of a name are all gone through before a separator is met. -/
theorem ne_slash {c : Char} (member : c ∈ name.text.toList.reverse) : decide (c ≠ '/') = true := by
  rw [decide_eq_true_eq]
  rintro rfl
  exact not_mem_slash isText (List.mem_reverse.1 member)

/-- A name is never an absolute path, so that joining it keeps the base. -/
theorem head?_ne_slash : name.text.toList.head? ≠ some '/' := by
  intro head
  exact not_mem_slash isText (List.mem_of_head? head)

/-- A name leads down, being neither empty nor one of the two dots. -/
theorem ofPart_text : Tree.Step.ofPart name.text = .down name := by
  rw [Tree.Step.ofPart, dif_pos (valid_text isText), ofText_text isText]

/-- A name that is text is one step down. -/
theorem stepsOf_text : Tree.stepsOf name.text.toList = [.down name] := by
  rw [Tree.stepsOf, Tree.splitParts_of_not_mem (not_mem_slash isText), List.map_singleton,
    String.ofList_toList, ofPart_text isText]

end Name

namespace Tree

variable {t : Tree} {loc : Location}

/-! ## Walking on -/

/-- A walk along steps in a row goes on from where the first have led. -/
theorem walkFrom_append (t : Tree) (loc : Location) (first rest : List Step) :
    t.walkFrom loc (first ++ rest) = (t.walkFrom loc first).bind fun l => t.walkFrom l rest := by
  induction first generalizing loc with
  | nil => rfl
  | cons step first ih =>
    simp only [List.cons_append, walkFrom]
    cases t.node? loc with
    | none => rfl
    | some node =>
      cases node with
      | file contents => rfl
      | directory => cases step <;> exact ih _

theorem walkFrom_append_eq_ok {first rest : List Step} {l : Location} :
    t.walkFrom loc (first ++ rest) = .ok l ↔
      ∃ mid, t.walkFrom loc first = .ok mid ∧ t.walkFrom mid rest = .ok l := by
  rw [walkFrom_append]
  cases t.walkFrom loc first with
  | error e => simp [Except.bind]
  | ok mid => simp [Except.bind]

/-- Staying leads nowhere else. -/
theorem eq_of_walkFrom_stay {l : Location} (led : t.walkFrom loc [.stay] = .ok l) : loc = l := by
  rw [walkFrom] at led
  cases node : t.node? loc with
  | none => simp [node] at led
  | some n =>
    cases n with
    | file contents => simp [node] at led
    | directory =>
      rw [node] at led
      exact Except.ok.inj led

/-- From a directory, a name leads to its place in it, whether something stands there or not. -/
theorem walkFrom_down {name : Name} (directory : t.node? loc = some .directory) :
    t.walkFrom loc [.down name] = .ok (loc ++ [name]) := by
  rw [walkFrom, directory]
  rfl

/-- A step down leads to its name. -/
theorem eq_of_walkFrom_down {name : Name} {l : Location}
    (led : t.walkFrom loc [.down name] = .ok l) : l = loc ++ [name] := by
  rw [walkFrom] at led
  cases node : t.node? loc with
  | none => simp [node] at led
  | some n =>
    cases n with
    | file contents => simp [node] at led
    | directory =>
      rw [node] at led
      exact (Except.ok.inj led).symm

/-! ## Joined paths -/

open EmuFront.Path (joinChars)

/-- The steps of characters with a name joined to them: what they stand for, but for staying at
their end, and then a step down. -/
theorem exists_stepsOf_joinChars (base : List Char) {name : Name} (isText : name.isText = true) :
    ∃ front, stepsOf (joinChars base name.text.toList) = front ++ [.down name] ∧
      (stepsOf base = front ∨ stepsOf base = front ++ [.stay]) := by
  have empty : stepsOf [] = [.stay] := by decide
  rw [joinChars, if_neg (Name.head?_ne_slash isText)]
  by_cases ends : base.getLast? = some '/'
  · obtain ⟨before, rfl⟩ := List.getLast?_eq_some_iff.1 ends
    rw [if_pos (.inr ends), List.append_assoc]
    refine ⟨stepsOf before, ?_, .inr ?_⟩
    · rw [List.singleton_append, stepsOf_append_slash, Name.stepsOf_text isText]
    · rw [stepsOf_append_slash, empty]
  · by_cases nothing : base = []
    · subst nothing
      refine ⟨[], ?_, .inr empty⟩
      rw [if_pos (.inl rfl)]
      exact Name.stepsOf_text isText
    · refine ⟨stepsOf base, ?_, .inl rfl⟩
      rw [if_neg (not_or.2 ⟨nothing, ends⟩), stepsOf_append_slash, Name.stepsOf_text isText]

/-- What is walked along joined characters is walked along the base, and then down. -/
theorem walkFrom_joinChars {base : List Char} {name : Name} {mid : Location}
    (led : t.walkFrom loc (stepsOf base) = .ok mid) (directory : t.node? mid = some .directory)
    (isText : name.isText = true) :
    t.walkFrom loc (stepsOf (joinChars base name.text.toList)) = .ok (mid ++ [name]) := by
  obtain ⟨front, joined, plain | stays⟩ := exists_stepsOf_joinChars base isText
  · rw [joined, walkFrom_append_eq_ok]
    exact ⟨mid, plain ▸ led, walkFrom_down directory⟩
  · rw [stays, walkFrom_append_eq_ok] at led
    obtain ⟨l, front_led, stay⟩ := led
    obtain rfl := eq_of_walkFrom_stay stay
    rw [joined, walkFrom_append_eq_ok]
    exact ⟨l, front_led, walkFrom_down directory⟩

/-- Wherever joined characters lead, it is a place of the name that was joined. -/
theorem exists_of_walkFrom_joinChars {base : List Char} {name : Name} {l : Location}
    (led : t.walkFrom loc (stepsOf (joinChars base name.text.toList)) = .ok l)
    (isText : name.isText = true) : ∃ dir, l = dir ++ [name] := by
  obtain ⟨front, joined, -⟩ := exists_stepsOf_joinChars base isText
  rw [joined, walkFrom_append_eq_ok] at led
  obtain ⟨mid, -, down⟩ := led
  exact ⟨mid, eq_of_walkFrom_down down⟩

/-! ## Whole paths -/

/-- Whether characters can lead somewhere. -/
def CanLead (cs : List Char) : Prop := '\x00' ∉ cs ∧ cs ≠ []

/-- Characters that can lead somewhere have steps. -/
theorem steps_of_canLead {p : Path} (h : CanLead p.text.toList) :
    steps p = .ok (stepsOf p.text.toList) := by
  have noNul : p.text.toList.contains '\x00' = false := by simpa using h.1
  rw [steps, noNul, if_neg Bool.false_ne_true, if_neg h.2]
  rfl

/-- The place that characters start from. -/
def startOf (t : Tree) (cs : List Char) : Location :=
  if cs.head? = some '/' then [] else t.working

/-- Where a path starts is decided by its first character. -/
theorem startOf_congr {cs cs' : List Char} (same : cs.head? = cs'.head?) :
    t.startOf cs = t.startOf cs' := by
  rw [startOf, startOf, same]

/-- Characters that lead to a place. -/
def Leads (t : Tree) (cs : List Char) (l : Location) : Prop :=
  CanLead cs ∧ t.walkFrom (t.startOf cs) (stepsOf cs) = .ok l

/-- A path leads to a place exactly if its characters do. -/
theorem walk_eq_ok {p : Path} {l : Location} : t.walk p = .ok l ↔ t.Leads p.text.toList l := by
  constructor
  · intro led
    have can : CanLead p.text.toList := by
      unfold walk steps at led
      by_cases nul : p.text.toList.contains '\x00' = true
      · simp only [nul, if_true, reduceCtorEq] at led
      · by_cases nowhere : p.text.toList = []
        · simp [nowhere] at led
        · exact ⟨by simpa using nul, nowhere⟩
    refine ⟨can, ?_⟩
    rw [walk, steps_of_canLead can] at led
    exact led
  · rintro ⟨can, led⟩
    rw [walk, steps_of_canLead can]
    exact led

/-! ### A name joined to a directory -/

section
variable {base : List Char} {name : Name} (isText : name.isText = true)
include isText

/-- With a name joined, characters that can lead somewhere still can. -/
theorem CanLead.joinChars (h : CanLead base) : CanLead (joinChars base name.text.toList) := by
  obtain ⟨baseNul, nonempty⟩ := h
  have noNul := Name.not_mem_nul isText
  obtain ⟨c, rest, rfl⟩ := List.exists_cons_of_ne_nil nonempty
  rw [Path.joinChars, if_neg (Name.head?_ne_slash isText)]
  split
  · refine ⟨?_, List.cons_ne_nil _ _⟩
    rw [List.mem_append, not_or]
    exact ⟨baseNul, noNul⟩
  · refine ⟨?_, List.cons_ne_nil _ _⟩
    refine fun nul => (List.mem_append.1 nul).elim baseNul fun nul => ?_
    exact (List.mem_cons.1 nul).elim (by decide) noNul

/-- A joined path starts as its base does. -/
theorem head?_joinChars (nonempty : base ≠ []) :
    (Path.joinChars base name.text.toList).head? = base.head? := by
  obtain ⟨c, rest, rfl⟩ := List.exists_cons_of_ne_nil nonempty
  rw [Path.joinChars, if_neg (Name.head?_ne_slash isText)]
  split <;> rfl

/-- Characters that lead to a directory lead into it with a name joined. -/
theorem Leads.joinChars {dir : Location} (h : t.Leads base dir)
    (directory : t.node? dir = some .directory) :
    t.Leads (joinChars base name.text.toList) (dir ++ [name]) := by
  refine ⟨h.1.joinChars isText, ?_⟩
  rw [startOf_congr (head?_joinChars isText h.1.2)]
  exact walkFrom_joinChars h.2 directory isText

end

/-- A name joined to the path of a directory leads to the place of that name in it. -/
theorem walk_join {dir : Path} {place : Location} {name : Name} (led : t.walk dir = .ok place)
    (directory : t.node? place = some .directory) (isText : name.isText = true) :
    t.walk (dir.join name.text) = .ok (place ++ [name]) := by
  rw [walk_eq_ok] at led ⊢
  rw [Path.join, String.toList_ofList]
  exact led.joinChars isText directory

/-- A path made by joining a name leads nowhere but to a place of that name. -/
theorem exists_of_walk_join {dir : Path} {name : Name} {l : Location} (isText : name.isText = true)
    (led : t.walk (dir.join name.text) = .ok l) : ∃ place, l = place ++ [name] := by
  rw [walk_eq_ok, Path.join, String.toList_ofList] at led
  exact exists_of_walkFrom_joinChars led.2 isText

/-! ### Another name in the place of the last part -/

open EmuFront.Path (dropTrailing parentChars nameChars)

theorem dropTrailing_ne_nil {cs : List Char} (h : cs ≠ []) : dropTrailing cs ≠ [] := by
  fun_induction dropTrailing cs with
  | case1 => exact h
  | case2 rest more ih =>
    apply ih
    rintro rfl
    exact more rfl
  | case3 rest ih => exact ih (List.cons_ne_nil _ _)
  | case4 => exact h

/-- Of reversed characters only the first are dropped. -/
theorem dropTrailing_suffix (cs : List Char) : dropTrailing cs <:+ cs := by
  fun_induction dropTrailing cs with
  | case1 => exact List.suffix_rfl
  | case2 rest more ih => exact ih.trans (List.suffix_cons _ _)
  | case3 rest ih => exact ih.trans (List.suffix_cons _ _)
  | case4 => exact List.suffix_rfl

/-- What is left after dropping can still lead somewhere. -/
theorem CanLead.dropTrailing {cs : List Char} (h : CanLead cs.reverse) :
    CanLead (dropTrailing cs).reverse := by
  obtain ⟨noNul, nonempty⟩ := h
  have nonempty' : Path.dropTrailing cs ≠ [] :=
    dropTrailing_ne_nil fun none => nonempty (by rw [none, List.reverse_nil])
  refine ⟨?_, fun none => nonempty' (List.reverse_eq_nil_iff.1 none)⟩
  rw [List.mem_reverse] at noNul ⊢
  exact fun nul => noNul ((dropTrailing_suffix cs).mem nul)

/-- The last of the reversed characters opens the path, and stays. -/
theorem head?_dropTrailing {cs : List Char} (nonempty : cs ≠ []) :
    (dropTrailing cs).reverse.head? = cs.reverse.head? := by
  obtain ⟨dropped, whole⟩ := dropTrailing_suffix cs
  have kept : (dropTrailing cs).getLast?.isSome = true := by
    simpa using dropTrailing_ne_nil nonempty
  have opens : cs.getLast? = (dropTrailing cs).getLast? := by
    rw [← Option.or_of_isSome kept, ← List.getLast?_append, whole]
  rw [List.head?_reverse, List.head?_reverse, opens]

/-- What is dropped from the end of a path only stays where it is. -/
theorem walkFrom_dropTrailing {cs : List Char} {l : Location}
    (led : t.walkFrom loc (stepsOf cs.reverse) = .ok l) :
    t.walkFrom loc (stepsOf (dropTrailing cs).reverse) = .ok l := by
  have empty : stepsOf [] = [.stay] := by decide
  have dot : stepsOf ['.'] = [.stay] := by decide
  fun_induction dropTrailing cs with
  | case1 => exact led
  | case2 rest more ih =>
    apply ih
    rw [List.reverse_cons, stepsOf_append_slash, empty, walkFrom_append_eq_ok] at led
    obtain ⟨mid, front, stay⟩ := led
    exact eq_of_walkFrom_stay stay ▸ front
  | case3 rest ih =>
    apply ih
    rw [List.reverse_cons, List.reverse_cons, List.append_assoc, List.singleton_append,
      stepsOf_append_slash, dot] at led
    rwa [List.reverse_cons, stepsOf_append_slash, empty]
  | case4 => exact led

/-- A path leads to the same place without its trailing separators and dots. -/
theorem Leads.dropTrailing {cs : List Char} {l : Location} (h : t.Leads cs.reverse l) :
    t.Leads (dropTrailing cs).reverse l := by
  have nonempty : cs ≠ [] := fun none => h.1.2 (List.reverse_eq_nil_iff.2 none)
  refine ⟨h.1.dropTrailing, ?_⟩
  rw [startOf_congr (head?_dropTrailing nonempty)]
  exact walkFrom_dropTrailing h.2

section
variable {name : Name} (isText : name.isText = true)
include isText

/-- Before the last separator stands the parent, up to trailing separators. -/
theorem parentChars_append_slash (base : List Char) :
    parentChars (base ++ '/' :: name.text.toList) = (dropTrailing ('/' :: base.reverse)).reverse := by
  have drop : (base ++ '/' :: name.text.toList).reverse.dropWhile (· ≠ '/') =
      '/' :: base.reverse := by
    rw [List.reverse_append, List.reverse_cons, List.append_assoc, List.dropWhile_append_of_pos]
    · simp
    · exact fun c => Name.ne_slash isText
  rw [parentChars, drop]

/-- The directory that holds a joined name is where the base leads. -/
theorem Leads.parentChars_joinChars {base : List Char} {dir : Location} (h : t.Leads base dir) :
    t.Leads (parentChars (Path.joinChars base name.text.toList)) dir := by
  rw [Path.joinChars, if_neg (Name.head?_ne_slash isText)]
  by_cases ends : base.getLast? = some '/'
  · obtain ⟨before, rfl⟩ := List.getLast?_eq_some_iff.1 ends
    rw [if_pos (.inr ends), List.append_assoc, List.singleton_append,
      parentChars_append_slash isText]
    apply Leads.dropTrailing
    rwa [List.reverse_cons, List.reverse_reverse]
  · rw [if_neg (not_or.2 ⟨h.1.2, ends⟩), parentChars_append_slash isText]
    have further : Path.dropTrailing ('/' :: base.reverse) = Path.dropTrailing base.reverse := by
      rw [Path.dropTrailing]
      exact fun none => h.1.2 (List.reverse_eq_nil_iff.1 none)
    rw [further]
    apply Leads.dropTrailing
    rwa [List.reverse_reverse]

/-- Another name in the place of one that was joined is a name joined to the same directory. -/
theorem walk_withFileName_join {dir : Path} {place : Location} {other : Name}
    (led : t.walk dir = .ok place) (directory : t.node? place = some .directory)
    (isText' : other.isText = true) :
    t.walk ((dir.join name.text).withFileName other.text) = .ok (place ++ [other]) := by
  rw [walk_eq_ok] at led ⊢
  rw [Path.withFileName, Path.join, String.toList_ofList, String.toList_ofList]
  exact (led.parentChars_joinChars isText).joinChars isText' directory

end

end Tree

/-- The last part of a path that a name was joined to is the name. -/
theorem Name.fileName_join {name : Name} (isText : name.isText = true) (dir : Path) :
    (dir.join name.text).fileName = name.text := by
  have plain : Path.nameChars name.text.toList = name.text.toList := by
    rw [Path.nameChars, List.takeWhile_eq_self_iff.2 fun _ => ne_slash isText, List.reverse_reverse]
  have last : Path.nameChars (Path.joinChars dir.text.toList name.text.toList) =
      name.text.toList := by
    rw [Path.joinChars, if_neg (head?_ne_slash isText)]
    by_cases ends : dir.text.toList.getLast? = some '/'
    · obtain ⟨before, text⟩ := List.getLast?_eq_some_iff.1 ends
      rw [if_pos (.inr ends), text, List.append_assoc]
      exact Path.nameChars_append_slash _ (not_mem_slash isText)
    · by_cases nothing : dir.text.toList = []
      · rwa [if_pos (.inl nothing), nothing]
      · rw [if_neg (not_or.2 ⟨nothing, ends⟩)]
        exact Path.nameChars_append_slash _ (not_mem_slash isText)
  rw [Path.fileName, Path.join, String.toList_ofList, last, String.ofList_toList]

end EmuFront.Storage
