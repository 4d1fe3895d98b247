import ArgumentDiagram.Number.Binary

/-!
Decimal numbers and the shortest decimal that reads back as a given binary number. The choice is made
on exact integers: a decimal grid is tried for one significant digit, then two, and so on, and the first
grid with a point inside the rounding interval wins.
-/

namespace ArgumentDiagram

/-- The number `coefficient * 10 ^ exponent`. -/
structure Decimal where
  coefficient : Nat
  exponent : Int
deriving DecidableEq

/-- Which way a value half way between two candidates goes. -/
inductive Tie where
  | away
  | toEven
deriving DecidableEq

namespace Decimal

def zero : Decimal := ⟨0, 0⟩

/-- The digits of the coefficient, most significant first. -/
def digits (d : Decimal) : List Char := Nat.toDigits 10 d.coefficient

/-- How many digits stand before the decimal point; not positive for numbers below one. -/
def point (d : Decimal) : Int := d.digits.length + d.exponent

/-- Moves factors of ten from the coefficient into the exponent. -/
def normalize (coefficient : Nat) (exponent : Int) : Decimal :=
  if h : coefficient ≠ 0 ∧ coefficient % 10 = 0 then
    normalize (coefficient / 10) (exponent + 1)
  else ⟨coefficient, exponent⟩
termination_by coefficient
decreasing_by omega

/-- The decimal exponent `p` with `10 ^ (p - 1) ≤ num / den < 10 ^ p`, for a positive quotient. -/
def decade (num den : Nat) : Int :=
  if den ≤ num then (Nat.toDigits 10 (num / den)).length
  else 1 - (Nat.toDigits 10 ((den + num - 1) / num - 1)).length

/-- A value with the ends of its rounding interval, all in units of `2 ^ unit`. -/
structure Interval where
  lower : Nat
  value : Nat
  upper : Nat
  unit : Int
  closed : Bool

namespace Interval

/-- The reals that round to `mantissa * 2 ^ exponent`. The neighbour below a power of two is at half
the usual distance, unless the exponent is the least one; the ends belong to an even mantissa. -/
def around (format : BinaryFormat) (mantissa : Nat) (exponent : Int) : Interval where
  lower := 4 * mantissa
    - (if mantissa = Nat.pow 2 format.fractionBits ∧ exponent > format.leastExponent then 1 else 2)
  value := 4 * mantissa
  upper := 4 * mantissa + 2
  unit := exponent - 2
  closed := mantissa % 2 = 0

/-- The grid point of step `10 ^ step` next to the value that lies in the interval, the nearer one if
both neighbours do. -/
def onGrid (i : Interval) (tie : Tie) (step : Int) : Option Nat :=
  let grid := Nat.pow 10 step.toNat * Nat.pow 2 (-i.unit).toNat
  let scale := Nat.pow 10 (-step).toNat * Nat.pow 2 i.unit.toNat
  let within (k : Nat) : Bool :=
    if i.closed then i.lower * scale ≤ k * grid && k * grid ≤ i.upper * scale
    else i.lower * scale < k * grid && k * grid < i.upper * scale
  let below := i.value * scale / grid
  let above := below + 1
  match within below, within above with
  | false, false => none
  | true, false => some below
  | false, true => some above
  | true, true =>
    let fromBelow := i.value * scale - below * grid
    let fromAbove := above * grid - i.value * scale
    if fromBelow < fromAbove then some below
    else if fromAbove < fromBelow then some above
    else match tie with
      | .away => some above
      | .toEven => some (if below % 2 = 0 then below else above)

end Interval

/-- Seventeen significant digits single out every number of the formats used here. -/
def mostDigits : Nat := 17

/-- The decimal with the fewest significant digits that reads back as `mantissa * 2 ^ exponent`, the
one nearest to it among those. -/
def shortest (format : BinaryFormat) (tie : Tie) (mantissa : Nat) (exponent : Int) : Decimal :=
  if mantissa = 0 then zero
  else
    let interval := Interval.around format mantissa exponent
    let top := decade (mantissa * Nat.pow 2 exponent.toNat) (Nat.pow 2 (-exponent).toNat)
    let found := (List.range mostDigits).findSome? fun n =>
      let step := top - (n + 1 : Nat)
      (interval.onGrid tie step).map (normalize · step)
    found.getD (normalize (mantissa * Nat.pow 2 exponent.toNat) 0)

/-- The multiple of `10 ^ -places` nearest to `mantissa * 2 ^ exponent`, as a count of that unit; a
half goes to the even count. -/
def fixed (places mantissa : Nat) (exponent : Int) : Nat :=
  Binary.roundHalfEven (mantissa * Nat.pow 10 places * Nat.pow 2 exponent.toNat) (Nat.pow 2 (-exponent).toNat)

end Decimal

end ArgumentDiagram
