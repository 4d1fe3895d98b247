import ArgumentDiagram.Font.Family
import ArgumentDiagram.Scalar

/-!
Font faces and the width of text. Without a face, text is measured by an average glyph width.
-/

namespace ArgumentDiagram

/-- A font face: how far each glyph advances, in units of which `unitsPerEm` make one font size. -/
structure Face where
  unitsPerEm : Nat
  advance : Char → Option Nat

/-- The fonts at hand: the face of each name, if one can be read, and the name that a family list leads to,
if it leads to any. Unless a book says otherwise, that is the name of its first family with a face. -/
structure FontBook where
  face : String → Option Face
  find : List FontFamily → Option String := fun families =>
    (families.map FontFamily.faceName).find? fun name => (face name).isSome

namespace FontBook

def empty : FontBook where
  face _ := none

/-- The face that a family list leads to. -/
def select (book : FontBook) (families : List FontFamily) : Option Face :=
  (book.find families).bind book.face

end FontBook

namespace TextWidth

variable {α : Type} [Scalar α]

/-- The average advance of a glyph, as a share of the font size. -/
def averageAdvance : α := 0.56

/-- The characters that take room: a tab takes four spaces, a line feed none. -/
def glyphs (text : List Char) : List Char :=
  (text.flatMap fun c => if c = '\t' then "    ".toList else [c]).filter (· != '\n')

/-- The width of a text whose glyphs all have the average advance. -/
def estimate (text : String) (size : α) : α :=
  Scalar.count (glyphs text.toList).length * size * averageAdvance

/-- The room a glyph takes at a font size; a glyph that is missing or has no advance takes the average. -/
def glyphWidth (unitsPerEm : Nat) (size : α) (advance : Option Nat) : α :=
  match advance with
  | some (units + 1) => Scalar.count (units + 1) * (size / Scalar.count (max unitsPerEm 1))
  | _ => size * averageAdvance

def sum (widths : List α) : α := Scalar.max (widths.foldl (· + ·) 0.0) 0.0

/-- The width of a text set in a face. -/
def inFace (face : Face) (text : String) (size : α) : α :=
  sum ((glyphs text.toList).map fun c => glyphWidth face.unitsPerEm size (face.advance c))

/-- Whether a text has no width in any face. -/
def isFlat (text : String) (size : α) : Bool := text.isEmpty || Scalar.le size 0.0

/-- The width of a text in the face that a family list leads to, if there is one. -/
def measured (book : FontBook) (text : String) (size : α) (families : String) : Option α :=
  if isFlat text size then some 0.0
  else (book.select (FontFamily.ofList families.toList)).map fun face => inFace face text size

/-- The measured width, or the estimate if no face is at hand. -/
def ofText (book : FontBook) (text : String) (size : α) (families : String) : α :=
  (measured book text size families).getD (estimate text size)

end TextWidth

end ArgumentDiagram
