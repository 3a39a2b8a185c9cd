import EmuFront.Native.Bridge
import EmuFront.Proofs.Walking
import Mathlib.Algebra.Group.Nat.Defs

/-!
# Texts without a NUL

Native code takes texts that hold no NUL. A text that was read from bytes without a zero byte is one,
since what the bytes gather into a character is never zero and never outside the range of characters;
so is the path of any file.
-/

namespace EmuFront

namespace Text

/-- A text that holds no NUL. -/
def NulFree (text : String) : Prop := '\x00' ∉ text.toList

instance (text : String) : Decidable (NulFree text) := inferInstanceAs (Decidable (_ ∉ _))

theorem nulOffset?_eq_none {text : String} (h : NulFree text) : nulOffset? text = none := by
  have absent : text.toList.contains '\x00' = false := by simpa [NulFree] using h
  rw [nulOffset?, absent]
  rfl

/-! ## Decoding -/

namespace Unfinished

/-- The least number that a character can come to. -/
def least (p : Unfinished) : Nat := (p.bits * 64 + (p.low - 0x80)) * 64 ^ p.more

/-- What every number that a character can come to is below. -/
def bound (p : Unfinished) : Nat := (p.bits * 64 + (p.high - 0x80) + 1) * 64 ^ p.more

/-- A character that comes to the number of a character, and not to zero. -/
structure Sound (p : Unfinished) : Prop where
  low : 0x80 ≤ p.low
  positive : 0 < p.least
  valid : p.bound ≤ 0xD800 ∨ 0xE000 ≤ p.least ∧ p.bound ≤ 0x110000

end Unfinished

theorem ofNat_ne_nul {n : Nat} (positive : 0 < n) (valid : n < 0xD800 ∨ 0xE000 ≤ n ∧ n < 0x110000) :
    Char.ofNat n ≠ '\x00' := by
  have isValid : n.isValidChar := valid.imp_right fun h => ⟨by omega, h.2⟩
  have number : (Char.ofNat n).toNat = n := by
    rw [Char.ofNat, dif_pos isValid]
    rfl
  intro nul
  rw [nul] at number
  exact positive.ne number

/-- A first byte leaves a character unfinished that is sound. -/
theorem begin_sound {b : UInt8} (nonzero : b ≠ 0) :
    '\x00' ∉ (begin b).1 ∧ ∀ p ∈ (begin b).2, p.Sound := by
  have positive : 0 < b.toNat := by
    refine Nat.pos_of_ne_zero fun zero => nonzero (UInt8.toNat_inj.1 zero)
  have broken : '\x00' ∉ [replacement] ∧ ∀ p ∈ (none : Option Unfinished), p.Sound := by
    simp [replacement]
  have unfinished : ∀ {p : Unfinished}, p.Sound →
      '\x00' ∉ ([] : List Char) ∧ ∀ q ∈ some p, q.Sound := by
    intro p sound
    exact ⟨List.not_mem_nil, fun q member => Option.some.inj member ▸ sound⟩
  unfold begin
  dsimp only
  generalize b.toNat = n at positive
  split
  · have char := ofNat_ne_nul positive (.inl (by omega))
    exact ⟨by simpa using char.symm, by simp⟩
  split
  · exact broken
  -- one case for each range of first bytes that begin a longer character
  iterate 7
    split
    · refine unfinished ⟨by simp, ?_, ?_⟩ <;>
        simp only [Unfinished.least, Unfinished.bound] <;> omega
  exact broken

theorem advance_sound {p : Option Unfinished} (sound : ∀ u ∈ p, u.Sound) {b : UInt8}
    (nonzero : b ≠ 0) : '\x00' ∉ (advance p b).1 ∧ ∀ u ∈ (advance p b).2, u.Sound := by
  cases p with
  | none => exact begin_sound nonzero
  | some p =>
    obtain ⟨low, positive, valid⟩ := sound p rfl
    obtain ⟨lowest, highest, more, bits⟩ := p
    simp only [Unfinished.least, Unfinished.bound] at low positive valid
    unfold advance
    dsimp only
    split
    · rename_i within
      cases more with
      | zero =>
        have char := ofNat_ne_nul (n := bits * 64 + (b.toNat - 0x80)) (by omega) (by omega)
        exact ⟨by simpa using char.symm, by simp⟩
      | succ more =>
        refine ⟨List.not_mem_nil, fun q member => Option.some.inj member ▸ ?_⟩
        -- what the next bytes can still add lies within what this one could
        have least : (bits * 64 + (lowest - 0x80)) * 64 ^ (more + 1) ≤
            ((bits * 64 + (b.toNat - 0x80)) * 64 + (0x80 - 0x80)) * 64 ^ more := by
          rw [Nat.pow_succ, Nat.mul_comm (64 ^ more), ← Nat.mul_assoc]
          exact Nat.mul_le_mul_right _ (by omega)
        have bound : ((bits * 64 + (b.toNat - 0x80)) * 64 + (0xBF - 0x80) + 1) * 64 ^ more ≤
            (bits * 64 + (highest - 0x80) + 1) * 64 ^ (more + 1) := by
          rw [Nat.pow_succ, Nat.mul_comm (64 ^ more), ← Nat.mul_assoc]
          exact Nat.mul_le_mul_right _ (by omega)
        refine ⟨le_rfl, ?_, ?_⟩ <;> simp only [Unfinished.least, Unfinished.bound]
        · exact positive.trans_le least
        · exact valid.imp bound.trans fun range => ⟨range.1.trans least, bound.trans range.2⟩
    · obtain ⟨here, next⟩ := begin_sound nonzero
      refine ⟨?_, next⟩
      exact List.not_mem_cons_of_ne_of_not_mem (by decide) here

theorem nul_not_mem_decodeFrom {p : Option Unfinished} (sound : ∀ u ∈ p, u.Sound) {bs : Bytes}
    (nonzero : 0 ∉ bs) : '\x00' ∉ decodeFrom p bs := by
  induction bs generalizing p with
  | nil => cases p <;> simp [decodeFrom, replacement]
  | cons b bs ih =>
    obtain ⟨first, rest⟩ := not_or.1 (List.mem_cons.not.1 nonzero)
    obtain ⟨here, next⟩ := advance_sound sound (Ne.symm first)
    rw [decodeFrom]
    exact List.not_mem_append here (ih next rest)

end Text

/-- The text that native code hands over holds no NUL. -/
theorem Native.nulFree_textOf (bytes : Text.Bytes) : Text.NulFree (Native.textOf bytes) := by
  have nonzero : 0 ∉ bytes.takeWhile (· ≠ 0) := by
    intro member
    simpa using List.mem_takeWhile_imp member
  rw [Text.NulFree, textOf, Text.decode, String.toList_ofList]
  exact Text.nul_not_mem_decodeFrom (by simp) nonzero

/-- The path of a file holds no NUL. -/
theorem Storage.Tree.nulFree_of_isFile {t : Tree} {path : Path} (file : t.isFile path = true) :
    Text.NulFree path.text := by
  cases led : t.walk path with
  | error e => simp [isFile, lookup, led] at file
  | ok l => exact (walk_eq_ok.1 led).1.1

end EmuFront
