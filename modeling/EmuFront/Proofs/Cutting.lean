import EmuFront.Crash.Record

/-!
# What a cut keeps

A cut keeps the longest text of leading characters that takes at most a number of bytes. There is only
one such text, from which it follows what two cuts make of a text, and how the records of one failure
under two budgets differ.
-/

namespace EmuFront

namespace Text

/-! ## Bytes of leading characters -/

/-- A text has as many bytes as its characters take. -/
theorem length_utf8 (s : String) : (utf8 s).length = byteLength s.toList := by
  rw [utf8]
  induction s.toList with
  | nil => rfl
  | cons c cs ih =>
    rw [List.flatMap_cons, List.length_append, String.length_utf8EncodeChar, ih, byteLength]

theorem byteLength_append (cs ds : List Char) :
    byteLength (cs ++ ds) = byteLength cs + byteLength ds := by
  induction cs with
  | nil => exact (Nat.zero_add _).symm
  | cons c cs ih => rw [List.cons_append, byteLength, byteLength, ih, Nat.add_assoc]

/-- Of leading characters of a text, those that take no more bytes lead the others. -/
theorem prefix_of_byteLength_le {cs ds whole : List Char} (leads : cs <+: whole)
    (leads' : ds <+: whole) (bytes : byteLength cs ≤ byteLength ds) : cs <+: ds := by
  obtain shorter | ⟨rest, rfl⟩ := List.prefix_or_prefix_of_prefix leads leads'
  · exact shorter
  · rw [byteLength_append] at bytes
    cases rest with
    | nil => simp
    | cons c rest =>
      have width := c.utf8Size_pos
      rw [byteLength] at bytes
      omega

theorem length_utf8_le {s t : String} (leads : s.toList <+: t.toList) :
    (utf8 s).length ≤ (utf8 t).length := by
  obtain ⟨rest, whole⟩ := leads
  rw [length_utf8, length_utf8, ← whole, byteLength_append]
  exact Nat.le_add_right _ _

/-- Leading characters that are found are a prefix of the length asked for. -/
theorem of_leading? {n : Nat} {cs ds : List Char} (found : leading? n cs = some ds) :
    ds <+: cs ∧ byteLength ds = n := by
  induction cs generalizing n ds with
  | nil =>
    cases n with
    | zero =>
      obtain rfl := Option.some.inj found
      exact ⟨List.prefix_rfl, rfl⟩
    | succ n => exact absurd found nofun
  | cons c cs ih =>
    cases n with
    | zero =>
      obtain rfl := Option.some.inj found
      exact ⟨List.nil_prefix, rfl⟩
    | succ n =>
      rw [leading?] at found
      obtain ⟨fits, tail⟩ := Option.ite_none_right_eq_some.1 found
      obtain ⟨more, more_found, rfl⟩ := Option.map_eq_some_iff.1 tail
      obtain ⟨leads, bytes⟩ := ih more_found
      refine ⟨(List.prefix_cons_inj c).2 leads, ?_⟩
      rw [byteLength, bytes]
      omega

theorem leading?_append (ds rest : List Char) :
    leading? (byteLength ds) (ds ++ rest) = some ds := by
  induction ds with
  | nil => rw [byteLength, leading?]
  | cons d ds ih =>
    have width := d.utf8Size_pos
    have sum : byteLength (d :: ds) = d.utf8Size + byteLength ds := by rw [byteLength]
    obtain ⟨n, total⟩ : ∃ n, byteLength (d :: ds) = n + 1 := Nat.exists_eq_add_one.2 (by omega)
    have others : n + 1 - d.utf8Size = byteLength ds := by omega
    rw [total, List.cons_append, leading?, if_pos (by omega), others, ih, Option.map_some]

/-- The leading characters of a length are the prefix of that length. -/
theorem leading?_eq_some {n : Nat} {cs ds : List Char} :
    leading? n cs = some ds ↔ ds <+: cs ∧ byteLength ds = n := by
  constructor
  · exact of_leading?
  · rintro ⟨⟨rest, rfl⟩, rfl⟩
    exact leading?_append ds rest

/-- The boundaries of a text are where its leading characters end. -/
theorem isBoundary_utf8 {s : String} {n : Nat} :
    isBoundary (utf8 s) n = true ↔ ∃ ds, ds <+: s.toList ∧ byteLength ds = n := by
  rw [utf8, ← isSome_leading?, Option.isSome_iff_exists]
  simp only [leading?_eq_some]

/-- Stepping back ends at the last boundary that is not past the offset. -/
theorem last_of_stepBack {bs : Bytes} {n k : Nat} (found : stepBack bs n = some k) :
    k ≤ n ∧ isBoundary bs k = true ∧ ∀ j ≤ n, isBoundary bs j = true → j ≤ k := by
  induction n with
  | zero =>
    obtain ⟨boundary, same⟩ := Option.ite_none_right_eq_some.1 found
    obtain rfl := Option.some.inj same
    exact ⟨Nat.le_refl _, boundary, fun j within _ => within⟩
  | succ n ih =>
    rw [stepBack] at found
    split at found
    · rename_i boundary
      obtain rfl := Option.some.inj found
      exact ⟨Nat.le_refl _, boundary, fun j within _ => within⟩
    · rename_i inside
      obtain ⟨within, boundary, last⟩ := ih found
      refine ⟨by omega, boundary, fun j before bound => last j ?_ bound⟩
      -- the offset itself lies inside a character
      have other : j ≠ n + 1 := fun same => inside (same ▸ bound)
      omega

/-! ## The longest text within a number of bytes -/

/-- A text of leading characters of another that takes at most so many bytes, and no longer one
does. -/
structure LongestWithin (max : Nat) (s kept : String) : Prop where
  leading : kept.toList <+: s.toList
  within : (utf8 kept).length ≤ max
  longest : ∀ other : String, other.toList <+: s.toList → (utf8 other).length ≤ max →
    other.toList <+: kept.toList

namespace LongestWithin

variable {max : Nat} {s kept : String}

/-- A text that fits is kept whole. -/
theorem whole (fits : (utf8 s).length ≤ max) : LongestWithin max s s :=
  ⟨List.prefix_rfl, fits, fun _ leading _ => leading⟩

/-- What ends at the last boundary is longest. -/
theorem of_last (leading : kept.toList <+: s.toList) (within : (utf8 kept).length ≤ max)
    (last : ∀ j ≤ max, isBoundary (utf8 s) j = true → j ≤ (utf8 kept).length) :
    LongestWithin max s kept where
  leading := leading
  within := within
  longest other leads fits := by
    have boundary : isBoundary (utf8 s) (utf8 other).length = true :=
      isBoundary_utf8.2 ⟨_, leads, (length_utf8 other).symm⟩
    have before := last _ fits boundary
    rw [length_utf8, length_utf8] at before
    exact prefix_of_byteLength_le leads leading before

/-- There is only one. -/
theorem unique {kept' : String} (h : LongestWithin max s kept) (h' : LongestWithin max s kept') :
    kept = kept' := by
  have first : kept.toList <+: kept'.toList := h'.longest kept h.leading h.within
  have second : kept'.toList <+: kept.toList := h.longest kept' h'.leading h'.within
  exact String.toList_inj.1 (first.eq_of_length (Nat.le_antisymm first.length_le second.length_le))

/-- What is kept of what was kept is what is kept within the lesser number of bytes. -/
theorem trans {max' : Nat} {kept' : String} (h : LongestWithin max s kept)
    (h' : LongestWithin max' kept kept') : LongestWithin (min max max') s kept' where
  leading := h'.leading.trans h.leading
  within := Nat.le_min.2 ⟨Nat.le_trans (length_utf8_le h'.leading) h.within, h'.within⟩
  longest other leads fits := by
    obtain ⟨fits, fits'⟩ := Nat.le_min.1 fits
    exact h'.longest other (h.longest other leads fits) fits'

/-- Fewer than four bytes are lost, since the next character takes at most four. -/
theorem lost_lt_four (h : LongestWithin max s kept) :
    min max (utf8 s).length < (utf8 kept).length + 4 := by
  obtain ⟨rest, whole⟩ := h.leading
  cases rest with
  | nil =>
    have all : (utf8 s).length = (utf8 kept).length := by
      rw [length_utf8, length_utf8, ← whole, List.append_nil]
    omega
  | cons c rest =>
    -- with one more character the text no longer fits
    have more : ¬ (utf8 (kept.push c)).length ≤ max := by
      intro fits
      have leads : (kept.push c).toList <+: s.toList :=
        ⟨rest, by rw [String.toList_push, List.append_assoc, List.singleton_append, whole]⟩
      have longer := (h.longest _ leads fits).length_le
      rw [String.toList_push, List.length_append, List.length_singleton] at longer
      omega
    have width := c.utf8Size_le_four
    rw [length_utf8, String.toList_push, byteLength_append, ← length_utf8] at more
    simp only [byteLength] at more
    omega

end LongestWithin

/-! ## Cuts -/

/-- The boundary that stepping back ends at is the end of the longest text. -/
theorem longestWithin_of_stepBack {s : String} {max k : Nat}
    (steps : stepBack (utf8 s) max = some k) :
    ∃ kept, leading? k s.toList = some kept.toList ∧ (utf8 kept).length = k ∧
      LongestWithin max s kept := by
  obtain ⟨within, boundary, last⟩ := last_of_stepBack steps
  obtain ⟨ds, leads, bytes⟩ := isBoundary_utf8.1 boundary
  have length : (utf8 (String.ofList ds)).length = k := by
    rw [length_utf8, String.toList_ofList, bytes]
  refine ⟨String.ofList ds, ?_, length, .of_last ?_ ?_ ?_⟩
  · rw [String.toList_ofList, leading?_eq_some]
    exact ⟨leads, bytes⟩
  · rwa [String.toList_ofList]
  · rwa [length]
  · rwa [length]

/-- The cut always comes about. -/
theorem cut?_eq_cut (s : String) (max : Nat) : cut? s max = some (cut s max) :=
  (Option.some_get _).symm

/-- A cut keeps as many whole characters as fit. -/
theorem longestWithin_cut (s : String) (max : Nat) : LongestWithin max s (cut s max) := by
  obtain ⟨k, steps, -⟩ := exists_stepBack s max
  obtain ⟨kept, found, -, longest⟩ := longestWithin_of_stepBack steps
  have result := cut?_eq_cut s max
  rw [cut?] at result
  split at result
  · rename_i fits
    exact Option.some.inj result ▸ .whole fits
  · rw [steps, Option.bind_some, found, Option.map_some, String.ofList_toList] at result
    exact Option.some.inj result ▸ longest

/-- A cut steps back to the end of what it keeps. -/
theorem stepBack_utf8 (s : String) (max : Nat) :
    stepBack (utf8 s) max = some (utf8 (cut s max)).length := by
  obtain ⟨k, steps, -⟩ := exists_stepBack s max
  obtain ⟨kept, -, length, longest⟩ := longestWithin_of_stepBack steps
  rw [(longestWithin_cut s max).unique longest, length, steps]

/-- A text cut twice is cut to the smaller number of bytes. -/
theorem cut_cut (s : String) (a b : Nat) : cut (cut s a) b = cut s (min a b) :=
  ((longestWithin_cut s a).trans (longestWithin_cut _ b)).unique (longestWithin_cut s _)

/-- A text that fits is not cut. -/
theorem cut_eq_self {s : String} {max : Nat} (fits : (utf8 s).length ≤ max) : cut s max = s :=
  (longestWithin_cut s max).unique (.whole fits)

end Text

namespace CrashRecord

open Text (utf8 cut cut? stepBack LongestWithin)

/-! ## Records -/

/-- The lines of a record: four for the device, three for its audio, one for the kind of failure, and
the trace. -/
def lines (f : Fingerprint) (kind : CrashKind) (trace : String) : List String :=
  [f.device.brand, f.device.model, f.device.manufacturer, f.device.device,
    "Device sample rate:" ++ toString f.audio.sampleRate.toInt,
    "Device mono buffer size:" ++ toString f.audio.monoBufferBytes.toInt,
    "Device stereo buffer size:" ++ toString f.audio.stereoBufferBytes.toInt,
    kind.title, trace]

theorem layout_eq_lines (f : Fingerprint) (kind : CrashKind) (trace : String) :
    layout f kind trace = String.join ((lines f kind trace).map (· ++ "\n")) := by
  unfold layout lines
  simp only [List.map_cons, List.map_nil, String.join_cons, String.join_nil, String.append_empty,
    String.append_assoc]

theorem text_managed (f : Fingerprint) (kind : CrashKind) (trace : String) (budget : Nat) :
    (managed f kind trace budget).text = cut (layout f kind trace) budget := by rw [managed]

/-- A record keeps as much of its lines as fits the budget. -/
theorem longestWithin_managed (f : Fingerprint) (kind : CrashKind) (trace : String)
    (budget : Nat) :
    LongestWithin budget (layout f kind trace) (managed f kind trace budget).text := by
  rw [text_managed]
  exact Text.longestWithin_cut _ budget

/-- A cut finds a boundary at or before the number of bytes for every text, and keeps the longest text
of leading characters within them, so that it loses fewer than four bytes that would fit; of two cuts
the closer one counts. So a record is the longest text of leading characters of its lines within its
budget, and of the records of one failure under two budgets one leads the other. -/
theorem record_longest_within_budget :
    (∀ s max, stepBack (utf8 s) max = some (utf8 (cut s max)).length ∧
      cut? s max = some (cut s max) ∧ LongestWithin max s (cut s max) ∧
      min max (utf8 s).length < (utf8 (cut s max)).length + 4) ∧
    (∀ s a b, cut (cut s a) b = cut s (min a b)) ∧
    (∀ f kind trace budget, LongestWithin budget
      (String.join ((lines f kind trace).map (· ++ "\n"))) (managed f kind trace budget).text) ∧
    (∀ f kind trace a b,
      (managed f kind trace a).text.toList <+: (managed f kind trace b).text.toList ∨
        (managed f kind trace b).text.toList <+: (managed f kind trace a).text.toList) := by
  refine ⟨fun s max => ?_, Text.cut_cut, fun f kind trace budget => ?_, fun f kind trace a b => ?_⟩
  · have longest := Text.longestWithin_cut s max
    exact ⟨Text.stepBack_utf8 s max, Text.cut?_eq_cut s max, longest, longest.lost_lt_four⟩
  · rw [← layout_eq_lines]
    exact longestWithin_managed f kind trace budget
  · exact List.prefix_or_prefix_of_prefix (longestWithin_managed f kind trace a).leading
      (longestWithin_managed f kind trace b).leading

end CrashRecord
end EmuFront
