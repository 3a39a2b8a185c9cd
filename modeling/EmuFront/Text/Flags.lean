/-!
# Flag sets as text

A set of named bits reads `Name(A | B | 0x8)`: the names held, in the order they are declared, then
all bits without a name as one hexadecimal number. The empty set reads `Name(0x0)`.
-/

namespace EmuFront.Text

/-- A number in lower-case hexadecimal, marked `0x`. -/
def hex (n : Nat) : String := "0x" ++ String.ofList (Nat.toDigits 16 n)

/-- A set of bits as text, given the names of single bits. -/
def flagSet (name : String) (known : List (String × UInt32)) (bits : UInt32) : String :=
  let held := known.filter fun flag => bits &&& flag.2 = flag.2
  let rest := known.foldl (fun left flag => left &&& ~~~flag.2) bits
  let parts := held.map Prod.fst ++ if rest = 0 then [] else [hex rest.toNat]
  name ++ "(" ++ (if parts.isEmpty then "0x0" else " | ".intercalate parts) ++ ")"

end EmuFront.Text
