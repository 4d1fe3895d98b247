/-!
Binary floating-point numbers read off their bits. A finite number is a sign and a magnitude
`mantissa * 2 ^ exponent` with natural `mantissa`, so everything said about its decimal text is
said in exact arithmetic.
-/

namespace ArgumentDiagram

/-- The widths of an interchange format: stored fraction bits and exponent bits. -/
structure BinaryFormat where
  fractionBits : Nat
  exponentBits : Nat
deriving DecidableEq

namespace BinaryFormat

def single : BinaryFormat := ⟨23, 8⟩

def double : BinaryFormat := ⟨52, 11⟩

/-- The exponent of the least positive number. -/
def leastExponent (format : BinaryFormat) : Int :=
  2 - Nat.pow 2 (format.exponentBits - 1) - format.fractionBits

/-- The exponent of the numbers with the largest magnitudes. -/
def greatestExponent (format : BinaryFormat) : Int :=
  Nat.pow 2 (format.exponentBits - 1) - 1 - format.fractionBits

end BinaryFormat

/-- What the bits of a floating-point number stand for. -/
inductive Binary where
  | nan
  | infinite (negative : Bool)
  | finite (negative : Bool) (mantissa : Nat) (exponent : Int)
deriving DecidableEq

namespace Binary

/-- Splits bits into sign, exponent field and fraction; an exponent field of ones alone is no finite number. -/
def ofBits (format : BinaryFormat) (bits : Nat) : Binary :=
  let fraction := bits % Nat.pow 2 format.fractionBits
  let field := bits / Nat.pow 2 format.fractionBits % Nat.pow 2 format.exponentBits
  let negative := bits.testBit (format.fractionBits + format.exponentBits)
  if field = Nat.pow 2 format.exponentBits - 1 then
    if fraction = 0 then .infinite negative else .nan
  else if field = 0 then
    .finite negative fraction format.leastExponent
  else
    .finite negative (Nat.pow 2 format.fractionBits + fraction) (format.leastExponent + field - 1)

/-- The bits of a number of `format`; a mantissa below `2 ^ fractionBits` takes the least exponent. -/
def toBits (format : BinaryFormat) : Binary → Nat
  | .nan => (Nat.pow 2 (format.exponentBits + 1) - 1) * Nat.pow 2 (format.fractionBits - 1)
  | .infinite negative =>
      negative.toNat * Nat.pow 2 (format.fractionBits + format.exponentBits)
        + (Nat.pow 2 format.exponentBits - 1) * Nat.pow 2 format.fractionBits
  | .finite negative mantissa exponent =>
      negative.toNat * Nat.pow 2 (format.fractionBits + format.exponentBits)
        + (if mantissa < Nat.pow 2 format.fractionBits then mantissa
          else (exponent - format.leastExponent).toNat * Nat.pow 2 format.fractionBits + mantissa)

def ofSingle (x : Float32) : Binary := ofBits .single x.toBits.toNat

def ofDouble (x : Float) : Binary := ofBits .double x.toBits.toNat

def toSingle (x : Binary) : Float32 := .ofBits (.ofNat (x.toBits .single))

def toDouble (x : Binary) : Float := .ofBits (.ofNat (x.toBits .double))

/-- The integer nearest to `num / den`, a half going to the even neighbour. -/
def roundHalfEven (num den : Nat) : Nat :=
  let floor := num / den
  let twice := 2 * (num % den)
  if twice > den ∨ (twice = den ∧ floor % 2 = 1) then floor + 1 else floor

/-- The number of `format` nearest to `num / den`, a half going to the even mantissa. Magnitudes that
round past the greatest finite number are infinite. -/
def nearest (format : BinaryFormat) (negative : Bool) (num den : Nat) : Binary :=
  if num = 0 then .finite negative 0 format.leastExponent
  else
    let estimate : Int := (num.log2 : Int) - den.log2
    let atLeast := den * Nat.pow 2 estimate.toNat ≤ num * Nat.pow 2 (-estimate).toNat
    let magnitude := if atLeast then estimate else estimate - 1
    let exponent := max format.leastExponent (magnitude - format.fractionBits)
    let mantissa := roundHalfEven (num * Nat.pow 2 (-exponent).toNat) (den * Nat.pow 2 exponent.toNat)
    let (mantissa, exponent) :=
      if mantissa = Nat.pow 2 (format.fractionBits + 1) then (mantissa / 2, exponent + 1)
      else (mantissa, exponent)
    if exponent > format.greatestExponent then .infinite negative
    else .finite negative mantissa exponent

/-- The number of `format` nearest to `coefficient * 10 ^ exponent`. Exponents far outside the range of
the format are answered without forming the power of ten. -/
def nearestDecimal (format : BinaryFormat) (negative : Bool) (coefficient : Nat) (exponent : Int) :
    Binary :=
  let magnitude := exponent + (Nat.toDigits 10 coefficient).length
  if coefficient = 0 ∨ magnitude < -400 then .finite negative 0 format.leastExponent
  else if magnitude > 400 then .infinite negative
  else nearest format negative (coefficient * Nat.pow 10 exponent.toNat) (Nat.pow 10 (-exponent).toNat)

end Binary

end ArgumentDiagram
