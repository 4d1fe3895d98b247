import ArgumentDiagram.Json.Grammar
import ArgumentDiagram.Json.Scalar
import ArgumentDiagram.Text.Blank
import ArgumentDiagram.Text.Class.Joiner
import ArgumentDiagram.Text.Class.Letter

/-!
The relaxed dialect for documents written by hand: comments, trailing commas, single quotes, names without
quotes, and more ways to write numbers.
-/

namespace ArgumentDiagram.Json.Relaxed

def isLineEnd (c : Char) : Bool := c = '\n' || c = '\r' || c = '\u2028' || c = '\u2029'

/-- Space separators, line ends and the blanks of the ASCII range. -/
def isBlank (c : Char) : Bool :=
  isLineEnd c || c = '\uFEFF' || (Text.isBlank c && c ≠ '\x85')

/-- What follows the end of a block comment, if it ends. -/
def afterComment? : List Char → Option (List Char)
  | '*' :: '/' :: rest => some rest
  | _ :: rest => afterComment? rest
  | [] => none

theorem afterComment?_length {text rest : List Char} (h : afterComment? text = some rest) :
    rest.length < text.length := by
  fun_induction afterComment? text with
  | case1 more =>
      cases h
      simp only [List.length_cons]
      omega
  | case2 c more _ ih =>
      have := ih h
      simp only [List.length_cons]
      omega
  | case3 => simp at h

/-- Drops blanks and comments. A block comment without an end is none. -/
def skip (text : List Char) : List Char :=
  match text with
  | '/' :: '/' :: rest =>
    skip (rest.dropWhile (!isLineEnd ·))
  | '/' :: '*' :: rest =>
    match _ : afterComment? rest with
    | some after => skip after
    | none => text
  | c :: rest => if isBlank c then skip rest else text
  | [] => []
termination_by text.length
decreasing_by
  · have := (List.dropWhile_sublist (fun c => !isLineEnd c) (l := rest)).length_le
    simp only [List.length_cons]
    omega
  · have := afterComment?_length ‹afterComment? rest = some after›
    simp only [List.length_cons]
    omega
  · simp

/-- The character that a backslash and a character stand for, unless that begins a longer escape. -/
def escaped? (c : Char) : Option Char :=
  match c with
  | 'b' => some '\x08'
  | 'f' => some '\x0c'
  | 'n' => some '\n'
  | 'r' => some '\r'
  | 't' => some '\t'
  | 'v' => some '\x0b'
  | '0' => some '\x00'
  | 'x' | 'u' => none
  | c => if c.isDigit || isLineEnd c then none else some c

/-- The pieces of a text up to its closing quote. A line end can only stand after a backslash, and is
dropped with it. -/
def pieces (quote : Char) : List Char → Option (List Piece × List Char)
  | '\\' :: '\r' :: '\n' :: rest => pieces quote rest
  | '\\' :: 'u' :: a :: b :: c :: d :: rest => do
    let n ← hexNumber? [a, b, c, d]
    let (more, after) ← pieces quote rest
    pure (.unit n :: more, after)
  | '\\' :: 'x' :: a :: b :: rest => do
    let n ← hexNumber? [a, b]
    let (more, after) ← pieces quote rest
    pure (.char (.ofNat n) :: more, after)
  | '\\' :: c :: rest =>
    if isLineEnd c then pieces quote rest
    else do
      let escaped ← escaped? c
      let (more, after) ← pieces quote rest
      pure (.char escaped :: more, after)
  | c :: rest =>
    if c = quote then some ([], rest)
    else if c = '\\' || isLineEnd c then none
    else do
      let (more, after) ← pieces quote rest
      pure (.char c :: more, after)
  | [] => none

/-- The code point of a pair of units. The lowest bit of the plane is set rather than added to, so a pair
names only planes of odd number. -/
def ofPairBits (bits : Nat) : Nat := bits ||| 0x10000

def text? : List Char → Option (Option String × List Char)
  | '"' :: rest => (pieces '"' rest).map fun (found, after) => (Piece.text? ofPairBits found, after)
  | '\x27' :: rest => (pieces '\x27' rest).map fun (found, after) => (Piece.text? ofPairBits found, after)
  | _ => none

def beginsName (c : Char) : Bool := c = '$' || c = '_' || Text.inRanges Text.letters c

def continuesName (c : Char) : Bool := beginsName c || Text.inRanges Text.joiners c

/-- The pieces of a name without quotes, as far as it goes. -/
def nameTail : List Char → List Piece × List Char
  | '\\' :: 'u' :: a :: b :: c :: d :: rest =>
    match hexNumber? [a, b, c, d] with
    | some n =>
      let (more, after) := nameTail rest
      (.unit n :: more, after)
    | none => ([], '\\' :: 'u' :: a :: b :: c :: d :: rest)
  | c :: rest =>
    if continuesName c then
      let (more, after) := nameTail rest
      (.char c :: more, after)
    else ([], c :: rest)
  | [] => ([], [])

def name? (text : List Char) : Option (Option String × List Char) :=
  match text with
  | '"' :: _ | '\x27' :: _ => text? text
  | c :: _ =>
    if c = '\\' || beginsName c then
      match nameTail text with
      | ([], _) => none
      | (found, after) => some (Piece.text? ofPairBits found, after)
    else none
  | [] => none

/-- Digits with an optional fraction and exponent; one side of the point may be empty. -/
def decimal? (negative : Bool) (text : List Char) : Option (Numeral × List Char) :=
  let zero := text.head? = some '0'
  let whole := if zero then ['0'] else text.takeWhile Char.isDigit
  let rest := text.drop whole.length
  let (hasPoint, fraction, rest) := match rest with
    | '.' :: more => (true, more.takeWhile Char.isDigit, more.dropWhile Char.isDigit)
    | more => (false, [], more)
  if whole.isEmpty && fraction.isEmpty then none
  else match Numeral.exponent? rest with
    | some (exponent, rest) => some (⟨negative, whole, fraction, exponent, false⟩, rest)
    | none => some (⟨negative, whole, fraction, 0, !hasPoint⟩, rest)

/-- Whole numbers must fit 64-bit words, others binary64. -/
def number (n : Numeral) : Node :=
  let digits := decimalNumber (n.whole ++ n.fraction)
  if n.isWhole then
    let value : Int := if n.negative then -digits else digits
    if fitsWord value then .int value else .unreadable
  else
    let x := Binary.nearestDecimal .double n.negative digits (n.exponent - n.fraction.length)
    match x with
    | .infinite _ => .unreadable
    | x => .float x.toDouble

/-- A number behind its sign. Hexadecimal numbers take none, and the names of values no plus. -/
def unsigned? (sign : Option Char) (text : List Char) : Option (Node × List Char) :=
  match text with
  | 'I' :: 'n' :: 'f' :: 'i' :: 'n' :: 'i' :: 't' :: 'y' :: rest =>
    let x : Node := match sign with
      | none => .float (1.0 / 0.0)
      | some '-' => .float (-1.0 / 0.0)
      | _ => .unreadable
    some (x, rest)
  | 'N' :: 'a' :: 'N' :: rest =>
    some (if sign = some '+' then .unreadable else .float (0.0 / 0.0), rest)
  | text =>
    let hex := match text with
      | '0' :: x :: rest => if x = 'x' || x = 'X' then rest else []
      | _ => []
    let digits := hex.takeWhile (fun c => (hexValue? c).isSome)
    if digits.isEmpty then
      (decimal? (sign = some '-') text).map fun (n, rest) => (number n, rest)
    else
      let value := (hexNumber? digits).getD 0
      some (if sign.isNone && value < 0x100000000 then .int value else .unreadable, hex.drop digits.length)

def scalar (text : List Char) : Option (Node × List Char) :=
  match text with
  | 'n' :: 'u' :: 'l' :: 'l' :: rest => some (.null, rest)
  | 't' :: 'r' :: 'u' :: 'e' :: rest => some (.bool true, rest)
  | 'f' :: 'a' :: 'l' :: 's' :: 'e' :: rest => some (.bool false, rest)
  | '"' :: _ | '\x27' :: _ => (text? text).map fun (s, rest) => (Node.ofText? s, rest)
  | '-' :: rest => unsigned? (some '-') rest
  | '+' :: rest => unsigned? (some '+') rest
  | text => unsigned? none text

def dialect : Dialect where
  skip := skip
  scalar := scalar
  name := name?
  trailingComma := true

end ArgumentDiagram.Json.Relaxed
