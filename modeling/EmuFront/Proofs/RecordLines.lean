import EmuFront.Proofs.Cutting
import EmuFront.Proofs.Decoding
import EmuFront.Proofs.Persistence
import Mathlib.Data.List.Induction

/-!
# Records and lines

Where a record begins in the crash file. The layout of a record ends a line, and so does a record
that its budget leaves whole. A record that is cut ends wherever the cut falls, and the next record
then goes on in the same line.
-/

namespace EmuFront

open Text (Bytes utf8)

namespace Text

/-! ## Ends of lines -/

/-- Whether a text ends a line. -/
def EndsLine (s : String) : Prop := s.toList.getLast? = some '\n'

/-- Whether what is added to a file begins a line: the file is empty or ends in a newline. -/
def AtLineStart (file : Bytes) : Prop := file = [] ∨ file.getLast? = some 10

instance (file : Bytes) : Decidable (AtLineStart file) :=
  inferInstanceAs (Decidable (_ ∨ _))

theorem EndsLine.append (s : String) {t : String} (h : EndsLine t) : EndsLine (s ++ t) := by
  rw [EndsLine, String.toList_append, List.getLast?_append, h]
  rfl

/-- No character but the newline has the newline as its last byte. -/
theorem getLast?_utf8EncodeChar (c : Char) :
    (String.utf8EncodeChar c).getLast? = some 10 ↔ c = '\n' := by
  constructor
  · intro last
    exact ((ofNat_mem_utf8EncodeChar (n := 10) (by decide)).1 (List.mem_of_getLast? last)).symm
  · rintro rfl
    rfl

/-- A text that is not empty ends a line in a file exactly if it ends one by itself. -/
theorem atLineStart_append_utf8 (file : Bytes) {s : String} (some : s ≠ "") :
    AtLineStart (file ++ utf8 s) ↔ EndsLine s := by
  have chars : s.toList ≠ [] := fun none => some (String.toList_eq_nil_iff.1 none)
  obtain ⟨front, c, split⟩ := List.eq_nil_or_concat s.toList |>.resolve_left chars
  rw [List.concat_eq_append] at split
  have bytes : String.utf8EncodeChar c ≠ [] := by
    rw [← List.length_pos_iff, String.length_utf8EncodeChar]
    exact c.utf8Size_pos
  have ends : EndsLine s ↔ (String.utf8EncodeChar c).getLast? = Option.some 10 := by
    rw [EndsLine, split, List.getLast?_append, List.getLast?_singleton, Option.some_or,
      Option.some.injEq, getLast?_utf8EncodeChar]
  rw [ends, AtLineStart, utf8, split, List.flatMap_append, List.flatMap_singleton,
    ← List.append_assoc, List.getLast?_append_of_ne_nil _ bytes]
  simp [bytes]

/-- Of texts that are added to a file, the last that is not empty says whether a line starts behind
them. -/
theorem atLineStart_append_join {file : Bytes} (start : AtLineStart file) (texts : List String) :
    AtLineStart (file ++ utf8 (String.join texts)) ↔
      ∀ text ∈ (texts.filter (· ≠ "")).getLast?, EndsLine text := by
  induction texts using List.reverseRecOn with
  | nil => simpa using start
  | append_singleton texts text ih =>
    have joined : String.join (texts ++ [text]) = String.join texts ++ text := List.foldl_append
    rw [joined, utf8_append, ← List.append_assoc, List.filter_append]
    by_cases empty : text = ""
    · rw [empty, utf8_empty, List.append_nil, ih]
      simp
    · rw [atLineStart_append_utf8 _ empty]
      simp [empty]

end Text

open Text (AtLineStart EndsLine byteLength)

namespace CrashRecord

theorem endsLine_layout (f : Fingerprint) (kind : CrashKind) (trace : String) :
    EndsLine (layout f kind trace) := EndsLine.append _ rfl

/-- A record that fits its budget is whole, and ends a line. -/
theorem endsLine_managed {f : Fingerprint} {kind : CrashKind} {trace : String} {budget : Nat}
    (fits : byteLength (layout f kind trace).toList ≤ budget) :
    EndsLine (managed f kind trace budget).text := by
  have whole : (managed f kind trace budget).text = layout f kind trace := by
    rw [← Text.length_utf8] at fits
    rw [text_managed, Text.cut_eq_self fits]
  rw [whole]
  exact endsLine_layout f kind trace

end CrashRecord

namespace CrashCapture

variable {c : CrashCapture}

/-! ## Records in the crash file -/

/-- What the crash file holds; nothing if there is none. -/
def contents (c : CrashCapture) (m : Machine) : Bytes := (c.stored m).getD []

theorem getD_appended (old : Option Bytes) (texts : List String) :
    (appended old texts).getD [] = old.getD [] ++ utf8 (String.join texts) := by
  cases old with
  | some old =>
    rw [appended_some]
    rfl
  | none =>
    cases texts with
    | nil => rfl
    | cons text texts =>
      rw [appended_none (List.cons_ne_nil _ _)]
      rfl

/-- Whether a failure fits the budget with all that is said of it. -/
def Incident.Fits (i : c.Incident) : Prop :=
  byteLength (CrashRecord.layout c.fingerprint i.kind i.trace).toList ≤ c.budget

instance (i : c.Incident) : Decidable i.Fits := inferInstanceAs (Decidable (_ ≤ _))

/-- The texts that are kept are those of records. -/
theorem exists_incident_of_kept {incidents : List c.Incident}
    {results : List (CrashRecord × Except Failure Path)} {text : String}
    (records : results.map Prod.fst = incidents.map Incident.record)
    (kept : text ∈ keptTexts results) : ∃ i ∈ incidents, i.record.text = text := by
  obtain ⟨one, member, written⟩ := List.mem_filterMap.1 kept
  obtain rfl := Option.some.inj (Option.ite_none_right_eq_some.1 written).2
  have record : one.1 ∈ incidents.map Incident.record := records ▸ List.mem_map_of_mem member
  obtain ⟨i, among, same⟩ := List.mem_map.1 record
  exact ⟨i, among, congrArg CrashRecord.text same⟩

/-- Where a failure is recorded after others, with a crash file that a line started behind at first,
its record begins a line exactly if the last record written before, empty ones aside, ends one. So it
does as long as no record before was cut. The record goes right behind what the file holds. -/
theorem record_begins_line_iff (c : CrashCapture) (m : Machine) (start : AtLineStart (c.contents m))
    (before : List c.Incident) (i : c.Incident) :
    let kept := keptTexts (c.recordAll before m).1
    let found := i.meanwhile (c.recordAll before m).2
    (AtLineStart (c.contents found) ↔ ∀ text ∈ (kept.filter (· ≠ "")).getLast?, EndsLine text) ∧
    ((∀ earlier ∈ before, earlier.Fits) → AtLineStart (c.contents found)) ∧
    (∀ path, (c.record i.kind i.trace found).1.2 = .ok path →
      c.stored (c.record i.kind i.trace found).2 =
        some (c.contents found ++ utf8 i.record.text)) := by
  intro kept found
  obtain ⟨records, -, stored⟩ := c.ensures_recordAll (m := m) before
  have held : c.contents found = c.contents m ++ utf8 (String.join kept) := by
    rw [contents, i.stored_meanwhile, stored, getD_appended]
    rfl
  have begins : AtLineStart (c.contents found) ↔
      ∀ text ∈ (kept.filter (· ≠ "")).getLast?, EndsLine text := by
    rw [held]
    exact Text.atLineStart_append_join start kept
  refine ⟨begins, fun whole => begins.2 fun text last => ?_, fun path written => ?_⟩
  · have member : text ∈ kept := (List.mem_filter.1 (List.mem_of_getLast? last)).1
    obtain ⟨earlier, among, rfl⟩ := exists_incident_of_kept records member
    exact CrashRecord.endsLine_managed (whole earlier among)
  · obtain ⟨record, -, file⟩ := c.ensures_record (m := found) i.kind i.trace
    rw [written, record] at file
    exact file

/-- A capture with a budget of so many bytes, in a directory that is there. -/
def budgeted (budget : Nat) : CrashCapture :=
  ⟨⟨1, .direct⟩, ⟨"home"⟩, ⟨"data"⟩, ⟨⟨"Acme", "One", "Acme", "one"⟩, .silent⟩, budget⟩

/-- A machine with that directory. -/
def withData : Machine := .new (Storage.Disk.empty.actAll [.makeDirectory ⟨"data"⟩])

/-- The first record is cut right behind its brand line, and the second cannot be written. The third
begins a line. -/
theorem record_begins_line_iff_afterBrand :
    let c := budgeted 5
    let before : List c.Incident := [.planting c [] .panic "first",
      .planting c [⟨⟨"data/managed_crash.txt"⟩, .writing, .noSpace⟩] .nullDeref "second"]
    let i : c.Incident := .planting c [] .panic "third"
    let found := i.meanwhile (c.recordAll before withData).2
    AtLineStart (c.contents withData) ∧ ¬ (∀ earlier ∈ before, earlier.Fits) ∧
      AtLineStart (c.contents found) ∧
      c.stored (c.record i.kind i.trace found).2 = some (utf8 "Acme\nAcme\n") := by
  intro c before i found
  have start : AtLineStart (c.contents withData) := by decide +kernel
  have cut : ¬ (Incident.Fits (c := c) (.planting c [] .panic "first")) := by decide +kernel
  have kept : keptTexts (c.recordAll before withData).1 = ["Acme\n"] := by decide +kernel
  obtain ⟨begins, -, added⟩ := record_begins_line_iff c withData start before i
  have ends : AtLineStart (c.contents found) := by
    refine begins.2 fun text last => ?_
    rw [kept] at last
    obtain rfl : "Acme\n" = text := by simpa using last
    rfl
  have file := added ⟨"data/managed_crash.txt"⟩ (by decide +kernel)
  refine ⟨start, fun whole => cut (whole _ List.mem_cons_self), ends, ?_⟩
  rw [file]
  decide +kernel

/-- A budget that is one byte short cuts off the newline that ends a record, and the next record goes
on in the line of the trace before. -/
theorem exists_record_within_line :
    ∃ (c : CrashCapture) (m : Machine) (before : List c.Incident) (i : c.Incident),
      0 < c.budget ∧ c.stored m = none ∧ before.length = 1 ∧
      ¬ AtLineStart (c.contents (i.meanwhile (c.recordAll before m).2)) ∧
      c.stored (c.recordAll (before ++ [i]) m).2 = some (utf8 <|
        "Acme\nOne\nAcme\none\nDevice sample rate:0\nDevice mono buffer size:0\n" ++
        "Device stereo buffer size:0\npanic\nboom" ++
        "Acme\nOne\nAcme\none\nDevice sample rate:0\nDevice mono buffer size:0\n" ++
        "Device stereo buffer size:0\npanic\nbang") := by
  let c := budgeted 103
  refine ⟨c, withData, [.planting c [] .panic "boom"], .planting c [] .panic "bang",
    by decide, by decide +kernel, rfl, by decide +kernel, ?_⟩
  -- texts put together are read much faster in their parts
  simp only [Text.utf8_append]
  decide +kernel

end CrashCapture
end EmuFront
