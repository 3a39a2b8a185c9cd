/-!
# UTF-8

Text as bytes, and bytes as text.

Decoding never fails. It is a machine that takes one byte at a time: each longest run of bytes that
begins a character and then breaks off, and each byte that can begin none, gives one U+FFFD.
-/

namespace EmuFront.Text

/-- The contents of a file. -/
abbrev Bytes := List UInt8

/-! ## Text to bytes -/

/-- The UTF-8 form of a text. -/
def utf8 (s : String) : Bytes := s.toList.flatMap String.utf8EncodeChar

@[simp] theorem utf8_empty : utf8 "" = [] := by simp [utf8]

@[simp] theorem utf8_append (s t : String) : utf8 (s ++ t) = utf8 s ++ utf8 t := by
  simp [utf8]

/-- The number of bytes that characters take. -/
def byteLength : List Char → Nat
  | [] => 0
  | c :: cs => c.utf8Size + byteLength cs

/-- A byte of a text, with that of a capital ASCII letter as that of the small one. -/
def lowerByte (b : UInt8) : UInt8 := if 65 ≤ b ∧ b ≤ 90 then b + 32 else b

/-! ## Bytes to text -/

/-- Stands for bytes that form no character. -/
def replacement : Char := '\ufffd'

/-- A character whose first bytes have been read: the range its next byte must lie in, the number of
bytes to follow that one, and the bits gathered so far. -/
structure Unfinished where
  low : Nat
  high : Nat
  more : Nat
  bits : Nat
deriving Repr, DecidableEq

/-- A first byte: the characters it completes, and the character it leaves unfinished.
The ranges for `E0`, `ED`, `F0` and `F4` shut out overlong forms, surrogates and numbers past the
last character. -/
def begin (b : UInt8) : List Char × Option Unfinished :=
  let n := b.toNat
  if n < 0x80 then ([Char.ofNat n], none)
  else if n < 0xC2 then ([replacement], none)
  else if n < 0xE0 then ([], some ⟨0x80, 0xBF, 0, n - 0xC0⟩)
  else if n = 0xE0 then ([], some ⟨0xA0, 0xBF, 1, 0⟩)
  else if n = 0xED then ([], some ⟨0x80, 0x9F, 1, 0xD⟩)
  else if n < 0xF0 then ([], some ⟨0x80, 0xBF, 1, n - 0xE0⟩)
  else if n = 0xF0 then ([], some ⟨0x90, 0xBF, 2, 0⟩)
  else if n < 0xF4 then ([], some ⟨0x80, 0xBF, 2, n - 0xF0⟩)
  else if n = 0xF4 then ([], some ⟨0x80, 0x8F, 2, 4⟩)
  else ([replacement], none)

/-- One byte: the characters it gives, and the character it leaves unfinished. A byte that cannot go
on with the unfinished character ends it as one replacement and is read as a first byte. -/
def advance : Option Unfinished → UInt8 → List Char × Option Unfinished
  | none, b => begin b
  | some p, b =>
    let n := b.toNat
    if p.low ≤ n ∧ n ≤ p.high then
      let bits := p.bits * 64 + (n - 0x80)
      match p.more with
      | 0 => ([Char.ofNat bits], none)
      | more + 1 => ([], some ⟨0x80, 0xBF, more, bits⟩)
    else
      let (cs, next) := begin b
      (replacement :: cs, next)

/-- Reads bytes after an unfinished character, which the end of the bytes breaks off. -/
def decodeFrom : Option Unfinished → Bytes → List Char
  | none, [] => []
  | some _, [] => [replacement]
  | p, b :: bs => (advance p b).1 ++ decodeFrom (advance p b).2 bs

/-- Bytes as text. -/
def decode (bs : Bytes) : String := String.ofList (decodeFrom none bs)

/-- Bytes as text, where they are the UTF-8 form of one. -/
def decode? (bs : Bytes) : Option String :=
  if utf8 (decode bs) = bs then some (decode bs) else none

/-! ## Text up to a NUL -/

/-- The text before its first NUL character. -/
def beforeNul (s : String) : String := String.ofList (s.toList.takeWhile (· ≠ '\x00'))

/-- The offset in bytes of the first NUL character, if there is one. -/
def nulOffset? (s : String) : Option Nat :=
  if s.toList.contains '\x00' then some (byteLength (s.toList.takeWhile (· ≠ '\x00'))) else none

end EmuFront.Text
