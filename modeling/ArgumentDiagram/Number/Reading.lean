import ArgumentDiagram.Number.Binary

/-!
Reading binary32 numbers from text: a sign, digits with an optional point and exponent, or the name of an
infinity or of not a number in any letter case.
-/

namespace ArgumentDiagram.Number

def ofDigits (digits : List Char) : Nat :=
  digits.foldl (fun n c => 10 * n + (c.toNat - '0'.toNat)) 0

/-- An exponent that takes up a whole text; no text is the exponent zero. -/
def exponent? : List Char → Option Int
  | [] => some 0
  | e :: rest =>
    let (negative, digits) := match rest with
      | '-' :: more => (true, more)
      | '+' :: more => (false, more)
      | more => (false, more)
    if (e = 'e' ∨ e = 'E') ∧ digits ≠ [] ∧ digits.all Char.isDigit then
      some (if negative then -(ofDigits digits : Int) else ofDigits digits)
    else none

/-- A number without a sign, rounded once. -/
def magnitude? (negative : Bool) (text : List Char) : Option Binary := do
  let whole := text.takeWhile Char.isDigit
  let rest := text.dropWhile Char.isDigit
  let (fraction, rest) := match rest with
    | '.' :: more => (more.takeWhile Char.isDigit, more.dropWhile Char.isDigit)
    | more => ([], more)
  if whole.isEmpty && fraction.isEmpty then none
  let exponent ← exponent? rest
  pure (.nearestDecimal .single negative (ofDigits (whole ++ fraction)) (exponent - fraction.length))

/-- The binary32 number that a text stands for. -/
def single? (text : String) : Option Float32 :=
  let (negative, text) := match text.toList with
    | '-' :: more => (true, more)
    | '+' :: more => (false, more)
    | more => (false, more)
  match String.ofList (text.map Char.toLower) with
  | "nan" => some Binary.nan.toSingle
  | "inf" | "infinity" => some (Binary.infinite negative).toSingle
  | _ => (magnitude? negative text).map Binary.toSingle

end ArgumentDiagram.Number
