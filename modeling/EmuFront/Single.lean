/-!
# Single-precision numbers

A coordinate is the 32 bits of an IEEE single. It is copied, compared and printed, never computed
with.

Printing is exact. A finite number is a whole count of `2^-149`, and the reals that round to it form
an interval, which holds its ends when the significand is even. The decimal grids of step `10^k` are
tried from the coarsest down; the first that has a point in the interval gives the digits, and of
two such points the nearer one, or the upper one of two equally near.
-/

namespace EmuFront

/-- A single-precision number, by its bits. -/
structure Single where
  bits : UInt32
deriving Repr, DecidableEq

namespace Single

/-- Positive zero. -/
def zero : Single := ⟨0⟩

instance : Inhabited Single := ⟨zero⟩

/-- The bits without the sign. -/
def magnitude (x : Single) : UInt32 := x.bits &&& 0x7fffffff

def isNegative (x : Single) : Bool := x.bits &&& 0x80000000 ≠ 0

def isNaN (x : Single) : Bool := decide (0x7f800000 < x.magnitude)

def isInfinite (x : Single) : Bool := x.magnitude = 0x7f800000

/-- Equality of numbers: a NaN equals nothing, and the two zeros are equal. -/
def equal (x y : Single) : Bool :=
  !x.isNaN && !y.isNaN && (x.bits = y.bits || (x.magnitude = 0 && y.magnitude = 0))

/-! ## Shortest digits -/

/-- An interval of positive reals around a value, in units of `2^-151 · 10^-45`. -/
structure Rounding where
  value : Nat
  low : Nat
  high : Nat
  closed : Bool

/-- The reals that round to the number with these magnitude bits. Below a power of two the
neighbours lie half as far apart. -/
def rounding (magnitude : Nat) : Rounding :=
  let exponent := magnitude / Nat.pow 2 23
  let fraction := magnitude % Nat.pow 2 23
  let m := if exponent = 0 then fraction else fraction + Nat.pow 2 23
  let unit := Nat.pow 2 (exponent - 1) * Nat.pow 10 45
  let below := if fraction = 0 ∧ 1 < exponent then 1 else 2
  ⟨4 * m * unit, (4 * m - below) * unit, (4 * m + 2) * unit, m % 2 = 0⟩

/-- Whether a point lies in the interval. -/
def Rounding.holds (r : Rounding) (point : Nat) : Bool :=
  if r.closed then r.low ≤ point && point ≤ r.high else r.low < point && point < r.high

/-- The nearest multiple of `step` in the interval, by its count of steps. -/
def Rounding.point? (r : Rounding) (step : Nat) : Option Nat :=
  let below := r.value / step
  match r.holds (below * step), r.holds ((below + 1) * step) with
  | true, true =>
    some (if 2 * (r.value - below * step) < step then below else below + 1)
  | true, false => some below
  | false, true => some (below + 1)
  | false, false => none

/-- The coarsest grid with a point in the interval: the digits as a number, and the exponent of the
grid counted from `10^-45`, at most `n`. -/
def Rounding.digits (r : Rounding) : Nat → Nat × Nat
  | 0 => ((r.point? (2 ^ 151)).getD 0, 0)
  | n + 1 =>
    match r.point? (10 ^ (n + 1) * 2 ^ 151) with
    | some d => (d, n + 1)
    | none => r.digits n

/-! ## Layout -/

/-- The text of a positive number `0.d₁d₂… · 10^point`: positional from `10^-4` up to below `10^16`,
with at least one digit after the point, and scientific outside. -/
def layout (digits : List Char) (point : Int) : List Char :=
  if 17 ≤ point ∨ point ≤ -4 then
    digits.take 1 ++ (if digits.length ≤ 1 then [] else '.' :: digits.drop 1)
      ++ 'e' :: (toString (point - 1)).toList
  else if point ≤ 0 then
    '0' :: '.' :: List.replicate (-point).toNat '0' ++ digits
  else
    let whole := point.toNat
    digits.take whole ++ List.replicate (whole - digits.length) '0'
      ++ '.' :: (if digits.length ≤ whole then ['0'] else digits.drop whole)

/-- The text of a number: the fewest digits that read back as the same number. -/
def text (x : Single) : String :=
  if x.isNaN then "NaN"
  else
    let sign := if x.isNegative then "-" else ""
    if x.isInfinite then sign ++ "inf"
    else if x.magnitude = 0 then sign ++ "0.0"
    else
      let (d, k) := (rounding x.magnitude.toNat).digits 84
      let digits := Nat.toDigits 10 d
      sign ++ String.ofList (layout digits (digits.length + k - 45))

end Single
end EmuFront
