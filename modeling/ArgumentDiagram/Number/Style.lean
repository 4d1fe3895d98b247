import ArgumentDiagram.Number.Decimal

/-!
How numbers are written. A `NumberStyle` holds the decisions of one written form, and `NumberStyle.write`
lays out the shortest digits by it.
-/

namespace ArgumentDiagram

/-- The decisions of one written form of a binary number. -/
structure NumberStyle where
  /-- The candidate taken when two shortest decimals are equally near. -/
  tie : Tie
  /-- Decimal exponents of the first digit that are written without an exponent; all if absent. -/
  positional : Option (Int × Int)
  /-- Whether whole numbers written without an exponent end in `.0`. -/
  wholePoint : Bool
  /-- What stands before a positive exponent. -/
  exponentPlus : String
  nan : String
  infinite : Bool → String

namespace NumberStyle

def signedInfinity (negative : Bool) : String := if negative then "-inf" else "inf"

/-- Never an exponent, and no point in whole numbers. -/
def plain : NumberStyle := ⟨.away, none, false, "", "NaN", signedInfinity⟩

/-- A point in every number, and an exponent below `1e-4` and from `1e16` on. -/
def tagged : NumberStyle := ⟨.away, some (-4, 16), true, "", "NaN", signedInfinity⟩

/-- Binary32 numbers in interchange documents, where only finite numbers can be written. -/
def document : NumberStyle := ⟨.toEven, some (-6, 13), true, "+", "null", fun _ => "null"⟩

/-- Binary64 numbers in interchange documents. -/
def wideDocument : NumberStyle := { document with positional := some (-5, 16) }

def zeros (n : Nat) : String := String.ofList (List.replicate n '0')

/-- All digits around the decimal point. -/
def positionalText (style : NumberStyle) (d : Decimal) : String :=
  let digits := d.digits
  let point := d.point
  if point ≤ 0 then "0." ++ zeros (-point).toNat ++ String.ofList digits
  else if 0 ≤ d.exponent then
    String.ofList digits ++ zeros d.exponent.toNat ++ (if style.wholePoint then ".0" else "")
  else
    String.ofList (digits.take point.toNat) ++ "." ++ String.ofList (digits.drop point.toNat)

/-- One digit before the decimal point, and an exponent. -/
def scientificText (style : NumberStyle) (d : Decimal) : String :=
  let exponent := d.point - 1
  let tail := d.digits.drop 1
  String.ofList (d.digits.take 1) ++ (if tail.isEmpty then "" else "." ++ String.ofList tail) ++ "e"
    ++ (if exponent < 0 then "-" else style.exponentPlus) ++ toString exponent.natAbs

def writeDecimal (style : NumberStyle) (d : Decimal) : String :=
  let exponent := d.point - 1
  match style.positional with
  | none => style.positionalText d
  | some (least, bound) =>
    if d.coefficient = 0 ∨ (least ≤ exponent ∧ exponent < bound) then style.positionalText d
    else style.scientificText d

def write (style : NumberStyle) (format : BinaryFormat) : Binary → String
  | .nan => style.nan
  | .infinite negative => style.infinite negative
  | .finite negative mantissa exponent =>
    (if negative then "-" else "")
      ++ style.writeDecimal (Decimal.shortest format style.tie mantissa exponent)

end NumberStyle

namespace Binary

def padded (width n : Nat) : String :=
  let digits := Nat.toDigits 10 n
  String.ofList (List.replicate (width - digits.length) '0' ++ digits)

/-- The exact value rounded to `places` decimals. The sign is kept when only zeros are left. -/
def writeFixed (places : Nat) : Binary → String
  | .nan => "NaN"
  | .infinite negative => if negative then "-inf" else "inf"
  | .finite negative mantissa exponent =>
    let count := Decimal.fixed places mantissa exponent
    (if negative then "-" else "") ++ toString (count / Nat.pow 10 places)
      ++ (if places = 0 then "" else "." ++ padded places (count % Nat.pow 10 places))

end Binary

end ArgumentDiagram
