import ArgumentDiagram.Json.Node
import ArgumentDiagram.Number.Binary

/-!
Parts of scalars that all dialects share: digits, escaped code units, and the texts that code units make.
-/

namespace ArgumentDiagram.Json

/-- Whether a whole number fits a signed 64-bit word. -/
def fitsWord (n : Int) : Bool := -0x8000000000000000 ≤ n && n < 0x8000000000000000

/-- The value of a hexadecimal digit. -/
def hexValue? (c : Char) : Option Nat :=
  if c.isDigit then some (c.toNat - '0'.toNat)
  else if 'a' ≤ c ∧ c ≤ 'f' then some (c.toNat - 'a'.toNat + 10)
  else if 'A' ≤ c ∧ c ≤ 'F' then some (c.toNat - 'A'.toNat + 10)
  else none

/-- The number that hexadecimal digits stand for. -/
def hexNumber? (digits : List Char) : Option Nat :=
  digits.foldlM (fun n c => (hexValue? c).map (16 * n + ·)) 0

def decimalNumber (digits : List Char) : Nat :=
  digits.foldl (fun n c => 10 * n + (c.toNat - '0'.toNat)) 0

/-- A piece of a text: a character, or a code unit given by its number. -/
inductive Piece where
  | char (c : Char)
  | unit (n : Nat)

namespace Piece

def isLeading (n : Nat) : Bool := 0xD800 ≤ n && n < 0xDC00

def isTrailing (n : Nat) : Bool := 0xDC00 ≤ n && n < 0xE000

/-- The twenty bits that a leading and a trailing unit carry together. -/
def pairBits (leading trailing : Nat) : Nat := 0x400 * (leading - 0xD800) + (trailing - 0xDC00)

/-- The characters that pieces make; a leading and a trailing unit together make one, whose number
`ofBits` finds from the bits they carry, and neither makes one alone. -/
def assemble? (ofBits : Nat → Nat) : List Piece → Option (List Char)
  | [] => some []
  | .char c :: rest => (assemble? ofBits rest).map (c :: ·)
  | .unit n :: rest =>
    if isLeading n then
      match rest with
      | .unit m :: rest =>
        if isTrailing m then
          (assemble? ofBits rest).map (Char.ofNat (ofBits (pairBits n m)) :: ·)
        else none
      | _ => none
    else if isTrailing n then none
    else (assemble? ofBits rest).map (Char.ofNat n :: ·)

/-- The text that pieces make, if they make one. -/
def text? (ofBits : Nat → Nat) (pieces : List Piece) : Option String :=
  (assemble? ofBits pieces).map String.ofList

end Piece

namespace Node

def ofText? : Option String → Node
  | some s => .text s
  | none => .unreadable

end Node

/-- A number as it is written. -/
structure Numeral where
  negative : Bool
  whole : List Char
  fraction : List Char
  exponent : Int
  /-- Whether it has neither a fraction nor an exponent. -/
  isWhole : Bool

namespace Numeral

/-- An exponent at the start of a text, if a whole one stands there. -/
def exponent? : List Char → Option (Int × List Char)
  | e :: rest =>
    if e = 'e' ∨ e = 'E' then
      let (negative, digits) := match rest with
        | '-' :: more => (true, more)
        | '+' :: more => (false, more)
        | more => (false, more)
      let number := digits.takeWhile Char.isDigit
      if number.isEmpty then none
      else
        let n : Int := decimalNumber number
        some (if negative then -n else n, digits.dropWhile Char.isDigit)
    else none
  | [] => none

end Numeral

end ArgumentDiagram.Json
