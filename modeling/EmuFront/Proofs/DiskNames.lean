import EmuFront.Overlay.DiskImage
import EmuFront.Proofs.Letters
import Mathlib.Data.List.Forall2

/-!
# The names of disk images

A grammar says which names in small letters are those of disk images: a stem, one of four suffixes,
and one `.gz` or nothing. No ending of the grammar ends in another, so that a name is read by it in
one way at most, and taking off one `.gz` before the suffix is looked for finds the parts of each name
that has them.
-/

namespace EmuFront.DiskImage

open Text

/-! ## The grammar -/

/-- What the name of a disk image ends in, in small letters. -/
structure Ending where
  suffix : String
  packing : String
  suffix_mem : suffix ∈ [".dsk", ".do", ".po", ".nib"]
  packing_mem : packing ∈ ["", ".gz"]

/-- The parts of the name of a disk image in small letters. -/
structure Parts where
  stem : String
  ending : Ending
  stem_ne : stem ≠ ""

namespace Ending

def text (e : Ending) : String := e.suffix ++ e.packing

theorem toList_text (e : Ending) : e.text.toList = e.suffix.toList ++ e.packing.toList :=
  String.toList_append

/-- No ending ends in another. -/
theorem eq_of_suffix {e e' : Ending} (ends : e.text.toList <:+ e'.text.toList) : e = e' := by
  have apart : ∀ suffix ∈ suffixes, ∀ suffix' ∈ suffixes,
      ∀ packing ∈ ["", packed], ∀ packing' ∈ ["", packed],
      suffix.toList ++ packing.toList <:+ suffix'.toList ++ packing'.toList →
        suffix = suffix' ∧ packing = packing' := by decide
  rw [toList_text, toList_text] at ends
  obtain ⟨suffix, packing, suffix_mem, packing_mem⟩ := e
  obtain ⟨suffix', packing', suffix_mem', packing_mem'⟩ := e'
  obtain ⟨rfl, rfl⟩ := apart _ suffix_mem _ suffix_mem' _ packing_mem _ packing_mem' ends
  rfl

/-- Two endings of one text are the same. -/
theorem eq_of_append {a b : String} {e e' : Ending} (same : a ++ e.text = b ++ e'.text) : e = e' := by
  obtain shorter | longer := suffix_or_suffix same
  · exact eq_of_suffix shorter
  · exact (eq_of_suffix longer).symm

/-- No ending ends in two packings, nor do two packings end in one. -/
theorem not_packed_twice {a b : String} (e : Ending) : a ++ e.text ≠ b ++ ".gz.gz" := by
  have apart : ∀ suffix ∈ suffixes, ∀ packing ∈ ["", packed],
      ¬ suffix.toList ++ packing.toList <:+ ".gz.gz".toList ∧
        ¬ ".gz.gz".toList <:+ suffix.toList ++ packing.toList := by decide
  intro same
  have related := suffix_or_suffix same
  rw [toList_text] at related
  exact related.elim (apart _ e.suffix_mem _ e.packing_mem).1 (apart _ e.suffix_mem _ e.packing_mem).2

/-- The endings are of ASCII characters only. -/
theorem ascii (e : Ending) : ∀ c ∈ e.text.toList, c.toNat < 128 := by
  -- a quantifier over characters would be decided by going through all of them
  have letters : ∀ suffix ∈ suffixes, ∀ packing ∈ ["", packed],
      (suffix.toList ++ packing.toList).all (fun c => decide (c.toNat < 128)) = true := by decide
  intro c member
  rw [toList_text] at member
  exact of_decide_eq_true (List.all_eq_true.1 (letters _ e.suffix_mem _ e.packing_mem) c member)

end Ending

namespace Parts

def text (p : Parts) : String := p.stem ++ p.ending.text

/-- The grammar is unambiguous. -/
theorem text_injective {p q : Parts} (same : p.text = q.text) : p = q := by
  obtain ⟨stem, e, stem_ne⟩ := p
  obtain ⟨stem', e', stem_ne'⟩ := q
  obtain rfl : e = e' := Ending.eq_of_append same
  obtain rfl : stem = stem' := (String.append_left_inj _).1 same
  rfl

/-- What stands before an ending is the stem. -/
theorem exists_text_eq_iff {base : String} {e : Ending} :
    (∃ p : Parts, p.text = base ++ e.text) ↔ base ≠ "" := by
  constructor
  · rintro ⟨p, same⟩
    have ending : p.ending = e := Ending.eq_of_append same
    rw [text, ending] at same
    exact (String.append_left_inj _).1 same ▸ p.stem_ne
  · exact fun some => ⟨⟨base, e, some⟩, rfl⟩

end Parts

/-! ## Names in small letters -/

/-- A name that is a stem and a suffix, without a packing. -/
def IsPlain (name : String) : Prop :=
  ∃ stem, ∃ suffix ∈ suffixes, stem ≠ "" ∧ stem ++ suffix = name

/-- A name has the parts of an image if it is plain, or plain and packed once. -/
theorem exists_text_iff {name : String} : (∃ p : Parts, p.text = name) ↔
    IsPlain name ∨ ∃ base, IsPlain base ∧ base ++ packed = name := by
  constructor
  · rintro ⟨⟨stem, ⟨suffix, packing, member, packing_mem⟩, some⟩, rfl⟩
    rw [List.mem_pair] at packing_mem
    obtain rfl | rfl := packing_mem
    · refine .inl ⟨stem, suffix, member, some, ?_⟩
      rw [Parts.text, Ending.text, String.append_empty]
    · exact .inr ⟨stem ++ suffix, ⟨stem, suffix, member, some, rfl⟩, String.append_assoc⟩
  · rintro (⟨stem, suffix, member, some, rfl⟩ | ⟨_, ⟨stem, suffix, member, some, rfl⟩, rfl⟩)
    · refine ⟨⟨stem, ⟨suffix, "", member, by decide⟩, some⟩, ?_⟩
      rw [Parts.text, Ending.text, String.append_empty]
    · exact ⟨⟨stem, ⟨suffix, packed, member, by decide⟩, some⟩, String.append_assoc.symm⟩

/-- No suffix ends in a packing, nor does the packing end in one. -/
theorem IsPlain.ne_packed {name base : String} (plain : IsPlain name) : base ++ packed ≠ name := by
  have apart : ∀ suffix ∈ suffixes,
      ¬ suffix.toList <:+ packed.toList ∧ ¬ packed.toList <:+ suffix.toList := by decide
  obtain ⟨stem, suffix, member, -, rfl⟩ := plain
  exact fun same => (suffix_or_suffix same).elim (apart _ member).2 (apart _ member).1

/-! ## The matcher -/

/-- The mark of packing is cut off once. -/
theorem unpacked_append (base : String) : unpacked (utf8 (base ++ packed)) = utf8 base := by
  have packing : (utf8 packed).isSuffixOf (utf8 base ++ utf8 packed) = true :=
    List.isSuffixOf_iff_suffix.2 (List.suffix_append _ _)
  rw [utf8_append, unpacked, if_pos packing, List.length_append, Nat.add_sub_cancel, List.take_left]

/-- A name without the mark stays as it is. -/
theorem unpacked_eq_self {name : String} (unmarked : ∀ base, base ++ packed ≠ name) :
    unpacked (utf8 name) = utf8 name := by
  refine if_neg fun packing => ?_
  obtain ⟨base, whole⟩ := utf8_suffix_iff.1 (List.isSuffixOf_iff_suffix.1 packing)
  exact unmarked base whole

/-- A name has more bytes than its suffix exactly if there is a stem. -/
theorem length_lt_iff {stem suffix : String} :
    (utf8 suffix).length < (utf8 (stem ++ suffix)).length ↔ stem ≠ "" := by
  rw [utf8_append, List.length_append, Ne, ← utf8_eq_nil_iff, ← Ne, ← List.length_pos_iff]
  omega

theorem isPlainName_iff {name : String} : isPlainName (utf8 name) = true ↔ IsPlain name := by
  unfold isPlainName
  simp only [List.any_eq_true, Bool.and_eq_true, decide_eq_true_eq, List.isSuffixOf_iff_suffix,
    utf8_suffix_iff]
  constructor
  · rintro ⟨suffix, member, longer, stem, rfl⟩
    exact ⟨stem, suffix, member, length_lt_iff.1 longer, rfl⟩
  · rintro ⟨stem, suffix, member, some, rfl⟩
    exact ⟨suffix, member, length_lt_iff.2 some, stem, rfl⟩

/-- What the matcher makes of a name in small letters. -/
theorem isPlainName_unpacked_iff {name : String} :
    isPlainName (unpacked (utf8 name)) = true ↔ ∃ p : Parts, p.text = name := by
  rw [exists_text_iff]
  by_cases packing : ∃ base, base ++ packed = name
  · obtain ⟨base, rfl⟩ := packing
    rw [unpacked_append, isPlainName_iff]
    constructor
    · exact fun plain => .inr ⟨base, plain, rfl⟩
    · rintro (plain | ⟨base', plain, same⟩)
      · exact absurd rfl plain.ne_packed
      · exact (String.append_left_inj _).1 same ▸ plain
  · rw [unpacked_eq_self fun base whole => packing ⟨base, whole⟩, isPlainName_iff]
    constructor
    · exact .inl
    · rintro (plain | ⟨base, -, whole⟩)
      · exact plain
      · exact absurd ⟨base, whole⟩ packing

/-- The name of an image is one that has its parts once letters are small. -/
theorem isName_iff_exists {name : String} :
    isName name = true ↔ ∃ p : Parts, p.text = name.toLower := by
  rw [isName, map_lowerByte_utf8, isPlainName_unpacked_iff]

/-- A stem may be of any characters, while no other character stands for the `k` of a suffix. -/
example : isName "Karateka.NIB" = true ∧ isName ".Gz.PO.gz" = true ∧ isName "日.do" = true ∧
    isName ".dsk.gz" = false ∧ isName "a.dsk.gz.gz" = false ∧ isName "a.ds\u212a" = false := by decide

/-! ## Names by their endings -/

variable {stem tail : String} {e : Ending}

/-- A name that ends as the grammar says, in letters of any case, needs only something before that. -/
theorem isName_append_iff (ending : tail.toLower = e.text) :
    isName (stem ++ tail) = true ↔ stem ≠ "" := by
  rw [isName_iff_exists, toLower_append, ending, Parts.exists_text_eq_iff, Ne, toLower_eq_empty_iff]

/-- A name that is packed twice is no image's. -/
theorem isName_packed_twice (packing : tail.toLower = ".gz.gz") : isName (stem ++ tail) = false := by
  rw [← Bool.not_eq_true, isName_iff_exists, toLower_append, packing]
  rintro ⟨p, same⟩
  exact p.ending.not_packed_twice same

/-- The characters of a name that are lowered to a stem and an ending. -/
theorem exists_append_of_isName {name : String} (image : isName name = true) :
    ∃ (stem tail : List Char) (e : Ending), name.toList = stem ++ tail ∧ stem ≠ [] ∧
      tail.map Char.toLower = e.text.toList := by
  obtain ⟨p, whole⟩ := isName_iff_exists.1 image
  have chars : name.toList.map Char.toLower = p.stem.toList ++ p.ending.text.toList := by
    rw [← toList_toLower, ← whole, Parts.text, String.toList_append]
  obtain ⟨stem, tail, split, lowered, ending⟩ := List.map_eq_append_iff.1 chars
  refine ⟨stem, tail, p.ending, split, ?_, ending⟩
  rintro rfl
  exact p.stem_ne (String.toList_eq_nil_iff.1 lowered.symm)

/-- Characters that are one letter, in either case, or are both not of ASCII. -/
def Interchangeable (c d : Char) : Prop := c.toLower = d.toLower ∨ 128 ≤ c.toNat ∧ 128 ≤ d.toNat

instance (c d : Char) : Decidable (Interchangeable c d) := inferInstanceAs (Decidable (_ ∨ _))

theorem Interchangeable.symm {c d : Char} (h : Interchangeable c d) : Interchangeable d c :=
  h.imp Eq.symm And.symm

/-- A character that is lowered to one of ASCII can be exchanged for the same letter only. -/
theorem Interchangeable.toLower_eq {c d : Char} (h : Interchangeable c d)
    (ascii : d.toLower.toNat < 128) : c.toLower = d.toLower := by
  obtain same | ⟨-, other⟩ := h
  · exact same
  · rw [toLower_eq_self other] at ascii
    omega

theorem map_toLower_eq {cs ds : List Char} (alike : List.Forall₂ Interchangeable cs ds)
    (ascii : ∀ d ∈ ds.map Char.toLower, d.toNat < 128) :
    cs.map Char.toLower = ds.map Char.toLower := by
  induction alike with
  | nil => rfl
  | cons h _ ih =>
    rw [List.map_cons, List.forall_mem_cons] at ascii
    rw [List.map_cons, List.map_cons, h.toLower_eq ascii.1, ih ascii.2]

/-- Capital and small letters make no difference. -/
theorem isName_of_interchangeable {name other : String}
    (alike : List.Forall₂ Interchangeable other.toList name.toList) (image : isName name = true) :
    isName other = true := by
  obtain ⟨stem, tail, e, split, some, ending⟩ := exists_append_of_isName image
  rw [split] at alike
  -- the other name is cut where the stem ends
  have before := List.forall₂_take_append _ _ _ alike
  have after := List.forall₂_drop_append _ _ _ alike
  have lowered : (String.ofList (other.toList.drop stem.length)).toLower = e.text := by
    have ascii : ∀ c ∈ tail.map Char.toLower, c.toNat < 128 := ending ▸ e.ascii
    rw [← String.toList_inj, toList_toLower, String.toList_ofList, map_toLower_eq after ascii, ending]
  have whole : String.ofList (other.toList.take stem.length) ++
      String.ofList (other.toList.drop stem.length) = other := by
    rw [← String.ofList_append, List.take_append_drop, String.ofList_toList]
  rw [← whole, isName_append_iff lowered, Ne, String.ofList_eq_empty_iff]
  intro none
  rw [none] at before
  exact some (List.forall₂_nil_left_iff.1 before)

/-- A name is that of a disk image exactly if, in small letters, it is read by the grammar, which it is
in one way at most. So a name that ends as the grammar says, in letters of any case, needs characters
before its ending and no more, whatever they are; one that is packed twice is not read; and a name
stays one if letters of it change their case or characters other than those of ASCII are exchanged. -/
theorem isName_iff_parts (name : String) :
    (isName name = true ↔ ∃ p : Parts, p.text = name.toLower) ∧
    (∀ p q : Parts, p.text = name.toLower → q.text = name.toLower → p = q) ∧
    (∀ (tail : String) (e : Ending), tail.toLower = e.text →
      (isName (name ++ tail) = true ↔ name ≠ "")) ∧
    (∀ tail : String, tail.toLower = ".gz.gz" → isName (name ++ tail) = false) ∧
    ∀ other : String, List.Forall₂ Interchangeable other.toList name.toList →
      isName other = isName name := by
  refine ⟨isName_iff_exists, fun p q read read' => Parts.text_injective (read.trans read'.symm),
    fun tail e ending => isName_append_iff ending, fun tail packing => isName_packed_twice packing,
    fun other alike => Bool.eq_iff_iff.2 ⟨?_, isName_of_interchangeable alike⟩⟩
  have alike' : List.Forall₂ Interchangeable name.toList other.toList :=
    (alike.imp fun _ _ => Interchangeable.symm).flip
  exact isName_of_interchangeable alike'

/-- A name with capitals among its letters and characters other than those of ASCII in its stem. -/
theorem isName_iff_parts_mixedCase :
    (".NiB.gZ".toLower = ".nib" ++ ".gz" ∧ isName ("Été" ++ ".NiB.gZ") = true) ∧
    (∀ p : Parts, p.text = "Été.NiB.gZ".toLower → p.stem = "Été") ∧
    (".gZ.GZ".toLower = ".gz.gz" ∧ isName ("Été.NiB" ++ ".gZ.GZ") = false) ∧
    List.Forall₂ Interchangeable "日TÉ.NIB.gz".toList "Été.NiB.gZ".toList ∧
      isName "日TÉ.NIB.gz" = isName "Été.NiB.gZ" := by
  have lowered : ".NiB.gZ".toLower = ".nib" ++ ".gz" := by
    rw [← String.toList_inj, toList_toLower]
    decide
  have packing : ".gZ.GZ".toLower = ".gz.gz" := by
    rw [← String.toList_inj, toList_toLower]
    decide
  have read : "Été" ++ (".nib" ++ ".gz") = "Été.NiB.gZ".toLower := by
    rw [← String.toList_inj, toList_toLower]
    decide
  have alike : List.Forall₂ Interchangeable "日TÉ.NIB.gz".toList "Été.NiB.gZ".toList := by decide
  obtain ⟨-, -, ending, -, -⟩ := isName_iff_parts "Été"
  obtain ⟨-, unique, -, -, exchanged⟩ := isName_iff_parts "Été.NiB.gZ"
  obtain ⟨-, -, -, twice, -⟩ := isName_iff_parts "Été.NiB"
  have image := (ending _ ⟨".nib", ".gz", by decide, by decide⟩ lowered).2 (by decide)
  refine ⟨⟨lowered, image⟩, fun p same => ?_, ⟨packing, twice _ packing⟩, alike, exchanged _ alike⟩
  exact congrArg Parts.stem
    (unique p ⟨"Été", ⟨".nib", ".gz", by decide, by decide⟩, by decide⟩ same read)

end EmuFront.DiskImage
