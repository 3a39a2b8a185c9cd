import EmuFront.Text.Utf8

/-!
# Cutting to a number of bytes

A text is cut to a number of bytes without splitting a character: from that number the cut steps back
to where a character begins, and keeps what lies before. The start of a text is such a place, so that
there always is one.
-/

namespace EmuFront.Text

/-! ## Stepping back -/

/-- Whether an offset into the bytes of a text lies between characters: before the first byte of one,
or at the end. -/
def isBoundary (bs : Bytes) (offset : Nat) : Bool :=
  match bs[offset]? with
  | some b => decide b.IsUTF8FirstByte
  | none => decide (offset = bs.length)

/-- The boundary that is reached by stepping back from an offset; none if the start is passed. -/
def stepBack (bs : Bytes) : (offset : Nat) → Option Nat
  | 0 => if isBoundary bs 0 then some 0 else none
  | n + 1 => if isBoundary bs (n + 1) then some (n + 1) else stepBack bs n

/-- The leading characters that take a number of bytes; none if a character lies across it. -/
def leading? : (bytes : Nat) → List Char → Option (List Char)
  | 0, _ => some []
  | _ + 1, [] => none
  | n + 1, c :: cs =>
    if c.utf8Size ≤ n + 1 then (leading? (n + 1 - c.utf8Size) cs).map (c :: ·) else none

/-- A text cut to at most `max` bytes; none if no boundary is found, or what is found is none. -/
def cut? (s : String) (max : Nat) : Option String :=
  if (utf8 s).length ≤ max then some s
  else
    (stepBack (utf8 s) max).bind fun offset => (leading? offset s.toList).map String.ofList

/-! ## A boundary is always found -/

/-- Among the bytes of one character, only the first is a boundary. -/
theorem isBoundary_utf8EncodeChar_append (c : Char) (bs : Bytes) (n : Nat) :
    isBoundary (String.utf8EncodeChar c ++ bs) n =
      if c.utf8Size ≤ n then isBoundary bs (n - c.utf8Size) else decide (n = 0) := by
  have width : (String.utf8EncodeChar c).length = c.utf8Size := String.length_utf8EncodeChar c
  unfold isBoundary
  by_cases past : c.utf8Size ≤ n
  · have end_iff : n = c.utf8Size + bs.length ↔ n - c.utf8Size = bs.length := by omega
    rw [if_pos past, List.getElem?_append_right (by rwa [width]), width, List.length_append, width]
    simp only [end_iff]
  · have inside : n < (String.utf8EncodeChar c).length := by omega
    rw [if_neg past, List.getElem?_append_left inside, List.getElem?_eq_getElem inside]
    exact decide_eq_decide.2 UInt8.isUTF8FirstByte_getElem_utf8EncodeChar

/-- Before a boundary all characters are whole. -/
theorem isSome_leading? (n : Nat) (cs : List Char) :
    (leading? n cs).isSome = isBoundary (cs.flatMap String.utf8EncodeChar) n := by
  induction cs generalizing n with
  | nil => cases n <;> simp [leading?, isBoundary]
  | cons c cs ih =>
    rw [List.flatMap_cons, isBoundary_utf8EncodeChar_append]
    cases n with
    | zero => simp [leading?, Nat.ne_of_gt c.utf8Size_pos]
    | succ n =>
      rw [leading?]
      split
      · rw [Option.isSome_map, ih]
      · rfl

theorem isBoundary_zero (s : String) : isBoundary (utf8 s) 0 = true := by
  rw [utf8, ← isSome_leading?, leading?]
  rfl

/-- From every offset a boundary is reached, for the start is one. -/
theorem exists_stepBack (s : String) (n : Nat) :
    ∃ k, stepBack (utf8 s) n = some k ∧ isBoundary (utf8 s) k = true := by
  induction n with
  | zero => exact ⟨0, if_pos (isBoundary_zero s), isBoundary_zero s⟩
  | succ n ih =>
    rw [stepBack]
    split
    · rename_i boundary
      exact ⟨n + 1, rfl, boundary⟩
    · exact ih

/-- Every text can be cut, to any number of bytes. -/
theorem isSome_cut? (s : String) (max : Nat) : (cut? s max).isSome = true := by
  obtain ⟨k, found, boundary⟩ := exists_stepBack s max
  rw [utf8, ← isSome_leading?] at boundary
  rw [cut?, found]
  split
  · rfl
  · rw [Option.bind_some, Option.isSome_map, boundary]

/-- A text cut to at most `max` bytes. -/
def cut (s : String) (max : Nat) : String := (cut? s max).get (isSome_cut? s max)

end EmuFront.Text
