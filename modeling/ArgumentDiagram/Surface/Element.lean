import ArgumentDiagram.Geometry.Path
import ArgumentDiagram.Geometry.Rect
import ArgumentDiagram.Text.Markup

/-!
The elements of a picture and their markup. Every text that comes from outside is escaped where it is
written, so it stays inside its attribute or its text node.
-/

namespace ArgumentDiagram

/-- The font of a run of text; `style` may be `italic`, `oblique`, `bold` or empty. -/
structure Font (α : Type) where
  style : String
  size : α
  family : String
deriving DecidableEq

/-- One thing drawn, in device pixels. -/
inductive Element (α : Type) where
  | fillRect (rect : Rect α) (color : String)
  | strokeRect (rect : Rect α) (color : String) (lineWidth : α)
  | strokePath (path : Path α) (color : String) (lineWidth : α)
  | fillPath (path : Path α) (color : String)
  /-- Text with its baseline starting at a point. -/
  | text (content : String) (start : Point α) (font : Font α) (color : String)

variable {α : Type} [WrittenScalar α]

namespace Font

/-- The shorthand form: style, size and family list, without an empty style or family. -/
def shorthand (font : Font α) : String :=
  let size := WrittenScalar.plain font.size ++ "px"
  " ".intercalate ([font.style, size, font.family].filter (!·.isEmpty))

/-- The attribute that selects a style; unknown styles have none. -/
def styleAttribute (font : Font α) : String :=
  match font.style with
  | "italic" => " font-style=\"italic\""
  | "oblique" => " font-style=\"oblique\""
  | "bold" => " font-weight=\"bold\""
  | _ => ""

end Font

/-- A coordinate or length as it is written in markup. -/
def Element.number (x : α) : String := WrittenScalar.writeFixed 2 x

namespace Path

/-- The drawing commands of a run of points; the pen is set down at the first one. -/
def runCommands (run : List (Point α)) : List String :=
  (run.zipIdx).map fun (p, i) =>
    (if i = 0 then "M " else "L ") ++ Element.number p.x ++ " " ++ Element.number p.y

/-- The drawing commands of a path. -/
def commands (path : Path α) : String :=
  " ".intercalate (path.segments.flatMap fun run =>
    if path.closed && !run.isEmpty then runCommands run ++ ["Z"] else runCommands run)

end Path

namespace Element

/-- An attribute whose value comes from outside. -/
def quoted (name value : String) : String :=
  " " ++ name ++ "=\"" ++ Text.Markup.escape value ++ "\""

/-- An attribute whose value is computed. -/
def numeric (name : String) (x : α) : String := " " ++ name ++ "=\"" ++ number x ++ "\""

def rectAttributes (rect : Rect α) : String :=
  numeric "x" rect.x ++ numeric "y" rect.y ++ numeric "width" rect.width
    ++ numeric "height" rect.height

def markup : Element α → String
  | .fillRect rect color => "<rect" ++ rectAttributes rect ++ quoted "fill" color ++ "/>"
  | .strokeRect rect color lineWidth =>
    "<rect" ++ rectAttributes rect ++ " fill=\"none\"" ++ quoted "stroke" color
      ++ numeric "stroke-width" lineWidth ++ "/>"
  | .strokePath path color lineWidth =>
    "<path d=\"" ++ path.commands ++ "\" fill=\"none\"" ++ quoted "stroke" color
      ++ numeric "stroke-width" lineWidth ++ "/>"
  | .fillPath path color =>
    "<path d=\"" ++ path.commands ++ "\"" ++ quoted "fill" color ++ " stroke=\"none\"/>"
  | .text content start font color =>
    "<text" ++ numeric "x" start.x ++ numeric "y" start.y ++ quoted "font-family" font.family
      ++ " font-size=\"" ++ WrittenScalar.plain font.size ++ "\"" ++ font.styleAttribute
      ++ quoted "fill" color ++ " xml:space=\"preserve\">" ++ Text.Markup.escape content ++ "</text>"

end Element

end ArgumentDiagram
