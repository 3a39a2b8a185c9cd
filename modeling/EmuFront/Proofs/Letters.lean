import EmuFront.Proofs.Cutting
import EmuFront.Proofs.Decoding

/-!
# Letters and endings by their bytes

What is done to the bytes of a text is done to its characters. Capital ASCII letters are made small
byte by byte as they are character by character, since no other character has a byte that stands for
one. A text ends in the bytes of another exactly if it ends in the other, since a character does not
begin inside another.
-/

namespace EmuFront.Text

/-! ## Small letters -/

theorem toNat_toLower (c : Char) :
    c.toLower.toNat = if 65 ≤ c.toNat ∧ c.toNat ≤ 90 then c.toNat + 32 else c.toNat := by
  have capital : (c.val ≥ 'A'.val ∧ c.val ≤ 'Z'.val) ↔ 65 ≤ c.toNat ∧ c.toNat ≤ 90 := Iff.rfl
  by_cases isCapital : 65 ≤ c.toNat ∧ c.toNat ≤ 90
  · have lowered : c.toLower.val = c.val + 32 := congrArg Char.val (dif_pos (capital.2 isCapital))
    have small : c.val.toNat ≤ 90 := isCapital.2
    rw [if_pos isCapital]
    show c.toLower.val.toNat = c.val.toNat + 32
    rw [lowered, UInt32.toNat_add]
    exact Nat.mod_eq_of_lt (by change c.val.toNat + 32 < 4294967296; omega)
  · have same : c.toLower = c := dif_neg fun h => isCapital (capital.1 h)
    rw [if_neg isCapital, same]

/-- Characters other than those of ASCII stay as they are. -/
theorem toLower_eq_self {c : Char} (other : 128 ≤ c.toNat) : c.toLower = c := by
  rw [← Char.toNat_inj, toNat_toLower]
  exact if_neg (by omega)

theorem toList_toLower (s : String) : s.toLower.toList = s.toList.map Char.toLower :=
  String.toList_map

theorem toLower_eq_empty_iff {s : String} : s.toLower = "" ↔ s = "" := String.map_eq_empty

theorem toLower_append (s t : String) : (s ++ t).toLower = s.toLower ++ t.toLower := by
  rw [← String.toList_inj, String.toList_append, toList_toLower, toList_toLower, toList_toLower,
    String.toList_append, List.map_append]

/-- Bytes of ASCII characters. -/
theorem lowerByte_ofNat_ascii : ∀ n < 128, lowerByte (UInt8.ofNat n) =
    UInt8.ofNat (if 65 ≤ n ∧ n ≤ 90 then n + 32 else n) := by decide

/-- Bytes of other characters. -/
theorem lowerByte_ofNat_other {n : Nat} (other : 128 ≤ n) (byte : n < 256) :
    lowerByte (UInt8.ofNat n) = UInt8.ofNat n := by
  have number : (UInt8.ofNat n).toNat = n := UInt8.toNat_ofNat_of_lt' byte
  refine if_neg fun capital => ?_
  have below : (UInt8.ofNat n).toNat ≤ 90 := UInt8.le_iff_toNat_le.1 capital.2
  omega

theorem map_lowerByte_utf8EncodeChar (c : Char) :
    (String.utf8EncodeChar c).map lowerByte = String.utf8EncodeChar c.toLower := by
  have small : c.toLower.val.toNat =
      if 65 ≤ c.val.toNat ∧ c.val.toNat ≤ 90 then c.val.toNat + 32 else c.val.toNat := toNat_toLower c
  rw [String.utf8EncodeChar.eq_def, String.utf8EncodeChar.eq_def]
  dsimp only
  rw [small]
  generalize c.val.toNat = v
  by_cases ascii : v ≤ 127
  · have stays : (if 65 ≤ v ∧ v ≤ 90 then v + 32 else v) ≤ 127 := by
      split <;> omega
    rw [if_pos ascii, if_pos stays, List.map_singleton, lowerByte_ofNat_ascii v (by omega)]
  · have same : (if 65 ≤ v ∧ v ≤ 90 then v + 32 else v) = v := if_neg (by omega)
    rw [same, if_neg ascii]
    -- one case for each longer form, whose bytes are those of no ASCII character
    split
    · simp (disch := omega) only [List.map_cons, List.map_nil, lowerByte_ofNat_other]
    split <;> simp (disch := omega) only [List.map_cons, List.map_nil, lowerByte_ofNat_other]

theorem map_lowerByte_utf8 (s : String) : (utf8 s).map lowerByte = utf8 s.toLower := by
  rw [utf8, utf8, toList_toLower, List.map_flatMap, List.flatMap_map]
  exact congrArg (List.flatMap · s.toList) (funext map_lowerByte_utf8EncodeChar)

/-! ## Endings -/

/-- Of two endings of a text one ends in the other. -/
theorem suffix_or_suffix {a b s t : String} (same : a ++ s = b ++ t) :
    s.toList <:+ t.toList ∨ t.toList <:+ s.toList := by
  have ends : s.toList <:+ (a ++ s).toList := by
    rw [String.toList_append]
    exact List.suffix_append _ _
  have ends' : t.toList <:+ (a ++ s).toList := by
    rw [same, String.toList_append]
    exact List.suffix_append _ _
  exact List.suffix_or_suffix_of_suffix ends ends'

theorem utf8_eq_nil_iff {s : String} : utf8 s = [] ↔ s = "" := by
  rw [← utf8_empty, utf8_inj]

theorem isBoundary_append (bs cs : Bytes) :
    isBoundary (bs ++ cs) bs.length = isBoundary cs 0 := by
  have ends : bs.length = (bs ++ cs).length ↔ 0 = cs.length := by
    rw [List.length_append]
    omega
  unfold isBoundary
  rw [List.getElem?_append_right (Nat.le_refl _), Nat.sub_self]
  simp only [ends]

/-- A text ends in the bytes of another exactly if it ends in the other. -/
theorem utf8_suffix_iff {s t : String} : utf8 t <:+ utf8 s ↔ ∃ base, base ++ t = s := by
  constructor
  · rintro ⟨bs, whole⟩
    -- the other begins between two characters of the text
    have boundary : isBoundary (utf8 s) bs.length = true := by
      rw [← whole, isBoundary_append, isBoundary_zero]
    obtain ⟨cs, ⟨rest, split⟩, bytes⟩ := isBoundary_utf8.1 boundary
    have text : s = String.ofList cs ++ String.ofList rest := by
      rw [← String.ofList_append, split, String.ofList_toList]
    have length : (utf8 (String.ofList cs)).length = bs.length := by
      rw [length_utf8, String.toList_ofList, bytes]
    rw [text, utf8_append] at whole
    have last : utf8 t = utf8 (String.ofList rest) := (List.append_inj whole length.symm).2
    exact ⟨String.ofList cs, by rw [text, utf8_inj.1 last]⟩
  · rintro ⟨base, rfl⟩
    rw [utf8_append]
    exact List.suffix_append _ _

end EmuFront.Text
