import ArgumentDiagram.Font.Face
import ArgumentDiagram.Surface.Element

/-!
Surfaces record what is drawn on them and can be written out as a picture. They also measure text, either
in the fonts at hand or by the average glyph width.
-/

namespace ArgumentDiagram

/-- How text is measured. -/
inductive TextMeasure where
  | fonts (book : FontBook)
  | estimate

structure Surface (α : Type) where
  /-- Size in whole pixels. -/
  width : Nat
  height : Nat
  /-- Painted under everything. -/
  background : Option String
  measure : TextMeasure
  /-- Everything drawn since the last clear, in drawing order. -/
  elements : List (Element α)

namespace Surface

variable {α : Type}

def blank (width height : Nat) (measure : TextMeasure) : Surface α :=
  ⟨width, height, none, measure, []⟩

def withBackground (s : Surface α) (color : String) : Surface α := { s with background := some color }

def resize (s : Surface α) (width height : Nat) : Surface α :=
  { s with width := width, height := height }

def clear (s : Surface α) : Surface α := { s with elements := [] }

def draw (s : Surface α) (element : Element α) : Surface α :=
  { s with elements := s.elements ++ [element] }

def drawAll (s : Surface α) (elements : List (Element α)) : Surface α :=
  { s with elements := s.elements ++ elements }

def measureText [Scalar α] (s : Surface α) (text : String) (font : Font α) : α :=
  match s.measure with
  | .fonts book => TextWidth.ofText book text font.size font.family
  | .estimate => TextWidth.estimate text font.size

variable [WrittenScalar α]

def opening (s : Surface α) : String :=
  let width := toString s.width
  let height := toString s.height
  "<svg xmlns=\"http://www.w3.org/2000/svg\" width=\"" ++ width ++ "\" height=\"" ++ height
    ++ "\" viewBox=\"0 0 " ++ width ++ " " ++ height ++ "\">"

def backdrop (s : Surface α) : String :=
  match s.background with
  | none => ""
  | some color => "<rect width=\"100%\" height=\"100%\"" ++ Element.quoted "fill" color ++ "/>"

/-- The picture: one root with the backdrop and the recorded elements in drawing order. -/
def markup (s : Surface α) : String :=
  s.opening ++ s.backdrop ++ String.join (s.elements.map Element.markup) ++ "</svg>"

end Surface

end ArgumentDiagram
