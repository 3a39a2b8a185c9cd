import EmuFront.Text.Utf8

/-!
# Decoding what was encoded

The UTF-8 form of a text decodes to the text, without any replacement. Each character is one first
byte and up to three more, all within the range that the bytes before allow.
-/

namespace EmuFront.Text

/-! ## Single bytes -/

theorem begin_one {n : Nat} (h : n < 128) : begin (UInt8.ofNat n) = ([Char.ofNat n], none) := by
  have byte : (UInt8.ofNat n).toNat = n := by
    rw [UInt8.toNat_ofNat']
    exact Nat.mod_eq_of_lt (by omega)
  rw [begin, byte, if_pos h]

theorem begin_two : ∀ n < 32, 2 ≤ n →
    begin (UInt8.ofNat (n + 192)) = ([], some ⟨0x80, 0xBF, 0, n⟩) := by decide

/-- The second byte is bounded from below after `E0`, from above after `ED`. -/
theorem begin_three : ∀ n < 16, begin (UInt8.ofNat (n + 224)) =
    ([], some ⟨if n = 0 then 0xA0 else 0x80, if n = 13 then 0x9F else 0xBF, 1, n⟩) := by decide

/-- The second byte is bounded from below after `F0`, from above after `F4`. -/
theorem begin_four : ∀ n < 5, begin (UInt8.ofNat (n + 240)) =
    ([], some ⟨if n = 0 then 0x90 else 0x80, if n = 4 then 0x8F else 0xBF, 2, n⟩) := by decide

theorem toNat_continuation {n : Nat} (h : n < 64) : (UInt8.ofNat (n + 128)).toNat = n + 128 := by
  rw [UInt8.toNat_ofNat']
  exact Nat.mod_eq_of_lt (by omega)

/-! ## Whole characters -/

section
variable {low high bits n : Nat} (bs : Bytes)

theorem decodeFrom_begin {b : UInt8} {next : Unfinished} (first : begin b = ([], some next)) :
    decodeFrom none (b :: bs) = decodeFrom (some next) bs := by
  rw [decodeFrom, advance, first]
  rfl

/-- A byte that goes on with a character. -/
theorem decodeFrom_more {more : Nat} (h : n < 64) (above : low ≤ n + 128) (below : n + 128 ≤ high) :
    decodeFrom (some ⟨low, high, more + 1, bits⟩) (UInt8.ofNat (n + 128) :: bs) =
      decodeFrom (some ⟨0x80, 0xBF, more, bits * 64 + n⟩) bs := by
  simp only [decodeFrom, advance, toNat_continuation h, if_pos (And.intro above below),
    Nat.add_sub_cancel, List.nil_append]

/-- A byte that ends a character. -/
theorem decodeFrom_last (h : n < 64) (above : low ≤ n + 128) (below : n + 128 ≤ high) :
    decodeFrom (some ⟨low, high, 0, bits⟩) (UInt8.ofNat (n + 128) :: bs) =
      Char.ofNat (bits * 64 + n) :: decodeFrom none bs := by
  simp only [decodeFrom, advance, toNat_continuation h, if_pos (And.intro above below),
    Nat.add_sub_cancel, List.singleton_append]

end

/-- The bytes of a character give the character. -/
theorem decodeFrom_utf8EncodeChar (c : Char) (bs : Bytes) :
    decodeFrom none (String.utf8EncodeChar c ++ bs) = c :: decodeFrom none bs := by
  have valid : c.val.toNat < 0xD800 ∨ 0xDFFF < c.val.toNat ∧ c.val.toNat < 0x110000 := c.valid
  have whole : Char.ofNat c.val.toNat = c := Char.ofNat_toNat c
  rw [String.utf8EncodeChar.eq_def]
  dsimp only
  generalize c.val.toNat = v at valid whole ⊢
  subst whole
  -- one case for each number of bytes; what is gathered in the end is `v` again
  split
  · rename_i one
    rw [List.singleton_append, decodeFrom, advance, begin_one (by omega)]
    rfl
  split
  · rename_i two
    have first := begin_two (v / 64 % 32) (by omega) (by omega)
    rw [List.cons_append, decodeFrom_begin _ first, List.singleton_append,
      decodeFrom_last _ (by omega) (by omega) (by omega)]
    congr 2
    omega
  split
  · rename_i three
    have first := begin_three (v / 4096 % 16) (by omega)
    rw [List.cons_append, decodeFrom_begin _ first, List.cons_append,
      decodeFrom_more _ (by omega) (by split <;> omega) (by split <;> omega),
      List.singleton_append, decodeFrom_last _ (by omega) (by omega) (by omega)]
    congr 2
    omega
  · rename_i four
    have first := begin_four (v / 262144 % 8) (by omega)
    rw [List.cons_append, decodeFrom_begin _ first, List.cons_append,
      decodeFrom_more _ (by omega) (by split <;> omega) (by split <;> omega),
      List.cons_append, decodeFrom_more _ (by omega) (by omega) (by omega),
      List.singleton_append, decodeFrom_last _ (by omega) (by omega) (by omega)]
    congr 2
    omega

/-! ## Whole texts -/

theorem decodeFrom_utf8 (cs : List Char) :
    decodeFrom none (cs.flatMap String.utf8EncodeChar) = cs := by
  induction cs with
  | nil => rfl
  | cons c cs ih => rw [List.flatMap_cons, decodeFrom_utf8EncodeChar, ih]

/-- The UTF-8 form of a text decodes to the text. -/
@[simp] theorem decode_utf8 (s : String) : decode (utf8 s) = s := by
  rw [decode, utf8, decodeFrom_utf8, String.ofList_toList]

theorem utf8_inj {s t : String} : utf8 s = utf8 t ↔ s = t := by
  refine ⟨fun same => ?_, fun same => same ▸ rfl⟩
  rw [← decode_utf8 s, same, decode_utf8]

/-! ## Bytes of ASCII characters -/

/-- An ASCII character is known by its number. -/
theorem ofNat_eq_iff {n : Nat} (ascii : n < 128) {c : Char} :
    Char.ofNat n = c ↔ n = c.val.toNat := by
  have own : (Char.ofNat n).val.toNat = n := by
    rw [Char.ofNat, dif_pos (.inl (by omega))]
    rfl
  rw [Char.ext_iff, ← UInt32.toNat_inj, own]

/-- An ASCII byte stands for its own character only: all bytes of the others are 128 or more. -/
theorem ofNat_mem_utf8EncodeChar {n : Nat} (ascii : n < 128) {c : Char} :
    UInt8.ofNat n ∈ String.utf8EncodeChar c ↔ Char.ofNat n = c := by
  have byte {m : Nat} (small : m < 256) : UInt8.ofNat n = UInt8.ofNat m ↔ n = m := by
    rw [← UInt8.toNat_inj, UInt8.toNat_ofNat', UInt8.toNat_ofNat',
      Nat.mod_eq_of_lt (by omega), Nat.mod_eq_of_lt small]
  have valid : c.val.toNat < 0xD800 ∨ 0xDFFF < c.val.toNat ∧ c.val.toNat < 0x110000 := c.valid
  rw [ofNat_eq_iff ascii, String.utf8EncodeChar.eq_def]
  dsimp only
  generalize c.val.toNat = v at valid ⊢
  split
  · rw [List.mem_singleton, byte (by omega)]
  split
  · simp (disch := omega) only [List.mem_cons, List.not_mem_nil, or_false, byte]
    omega
  split
  · simp (disch := omega) only [List.mem_cons, List.not_mem_nil, or_false, byte]
    omega
  · simp (disch := omega) only [List.mem_cons, List.not_mem_nil, or_false, byte]
    omega

theorem ofNat_mem_utf8 {n : Nat} (ascii : n < 128) (s : String) :
    UInt8.ofNat n ∈ utf8 s ↔ Char.ofNat n ∈ s.toList := by
  rw [utf8, List.mem_flatMap]
  simp only [ofNat_mem_utf8EncodeChar ascii, exists_eq_right']

end EmuFront.Text
