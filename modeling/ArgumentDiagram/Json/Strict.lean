import ArgumentDiagram.Json.Grammar
import ArgumentDiagram.Json.Scalar

/-!
The strict dialect: no comments, no trailing commas, texts in double quotes.
-/

namespace ArgumentDiagram.Json.Strict

def isBlank (c : Char) : Bool := c = ' ' || c = '\n' || c = '\t' || c = '\r'

/-- The pieces of a text up to its closing quote. -/
def pieces : List Char → Option (List Piece × List Char)
  | '"' :: rest => some ([], rest)
  | '\\' :: 'u' :: a :: b :: c :: d :: rest => do
    let n ← hexNumber? [a, b, c, d]
    let (more, after) ← pieces rest
    pure (.unit n :: more, after)
  | '\\' :: c :: rest => do
    let escaped ← match c with
      | '"' => some '"'
      | '\\' => some '\\'
      | '/' => some '/'
      | 'b' => some '\x08'
      | 'f' => some '\x0c'
      | 'n' => some '\n'
      | 'r' => some '\r'
      | 't' => some '\t'
      | _ => none
    let (more, after) ← pieces rest
    pure (.char escaped :: more, after)
  | c :: rest =>
    if c.toNat < 0x20 then none
    else do
      let (more, after) ← pieces rest
      pure (.char c :: more, after)
  | [] => none

/-- The code point of a pair of units: those past the first plane, in order. -/
def ofPairBits (bits : Nat) : Nat := 0x10000 + bits

def text? : List Char → Option (Option String × List Char)
  | '"' :: rest => (pieces rest).map fun (found, after) => (Piece.text? ofPairBits found, after)
  | _ => none

/-- The greatest number that significant digits are gathered up to. -/
def mostSignificand : Nat := 0xFFFFFFFFFFFFFFFF

/-- Gathers digits while the number stays within bounds, and says how many are left. -/
def gather (significand : Nat) : List Char → Nat × Nat
  | [] => (significand, 0)
  | c :: rest =>
    let next := 10 * significand + (c.toNat - '0'.toNat)
    if next ≤ mostSignificand then gather next rest else (significand, rest.length + 1)

/-- The number `significand * 10 ^ exponent`, with one rounding for each step; none past the greatest. -/
def scale? (x : Float) (exponent : Int) : Option Float :=
  let power (n : Nat) : Float := (Binary.nearestDecimal .double false 1 n).toDouble
  if 308 < exponent then if x == 0 then some x else none
  else if 0 ≤ exponent then
    let scaled := x * power exponent.toNat
    if scaled.isInf then none else some scaled
  else if -308 ≤ exponent then some (x / power exponent.natAbs)
  else if x == 0 then some x
  else scale? (x / power 308) (exponent + 308)
termination_by exponent.natAbs
decreasing_by omega

def float (n : Numeral) : Node :=
  let (significand, dropped) := gather 0 n.whole
  let (significand, left) := gather significand n.fraction
  let places := n.fraction.length - left
  match scale? significand.toUInt64.toFloat (dropped - places + n.exponent) with
  | some x => .float (if n.negative then -x else x)
  | none => .unreadable

/-- Whole numbers in the range of 64-bit words are kept exactly; negative zero is none of them. -/
def number (n : Numeral) : Node :=
  let magnitude := decimalNumber n.whole
  if n.isWhole then
    if n.negative then
      if magnitude ≠ 0 && fitsWord (-magnitude) then .int (-magnitude) else float n
    else if magnitude ≤ mostSignificand then .int magnitude else float n
  else float n

/-- The numeral at the start of a text. Further zeros may not stand before its digits. -/
def numeral? (text : List Char) : Option (Numeral × List Char) := do
  let (negative, rest) := match text with
    | '-' :: rest => (true, rest)
    | rest => (false, rest)
  let whole := rest.takeWhile Char.isDigit
  let rest := rest.dropWhile Char.isDigit
  if whole.isEmpty ∨ (whole.head? = some '0' ∧ whole.length > 1) then none
  let (fraction, rest) ← match rest with
    | '.' :: rest =>
      let digits := rest.takeWhile Char.isDigit
      if digits.isEmpty then none else some (digits, rest.dropWhile Char.isDigit)
    | rest => some ([], rest)
  match rest with
  | c :: _ =>
    if c = 'e' ∨ c = 'E' then
      let (exponent, rest) ← Numeral.exponent? rest
      pure (⟨negative, whole, fraction, exponent, false⟩, rest)
    else pure (⟨negative, whole, fraction, 0, fraction.isEmpty⟩, rest)
  | [] => pure (⟨negative, whole, fraction, 0, fraction.isEmpty⟩, rest)

def scalar (text : List Char) : Option (Node × List Char) :=
  match text with
  | 'n' :: 'u' :: 'l' :: 'l' :: rest => some (.null, rest)
  | 't' :: 'r' :: 'u' :: 'e' :: rest => some (.bool true, rest)
  | 'f' :: 'a' :: 'l' :: 's' :: 'e' :: rest => some (.bool false, rest)
  | '"' :: _ => (text? text).map fun (s, rest) => (Node.ofText? s, rest)
  | _ => (numeral? text).map fun (n, rest) => (number n, rest)

def dialect : Dialect where
  skip := List.dropWhile isBlank
  scalar := scalar
  name := text?
  trailingComma := false

/-- How deeply the contents of a document may be nested. -/
def mostDepth : Nat := 127

end ArgumentDiagram.Json.Strict
