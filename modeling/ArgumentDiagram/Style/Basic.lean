import ArgumentDiagram.Graph.Claim
import ArgumentDiagram.Scalar
import ArgumentDiagram.Style.Palette
import ArgumentDiagram.Style.Theme
import ArgumentDiagram.Text.Quoted

/-!
Styles: the sizes a canvas draws with, and how each claim and relation looks.
-/

namespace ArgumentDiagram

/-- How claims and relations look. A border may use up a colour of the palette. -/
structure Looks (α : Type) where
  background : Claim α → String
  fontColor : Claim α → String
  fontStyle : Claim α → String
  border : Claim α → ScopePalette → String × ScopePalette
  line : Relation → String

structure Style (α : Type) where
  /-- Device pixels per unit of length. -/
  scale : α
  padding : α
  fontSize : α
  lineHeight : α
  fontFamily : String
  arrowRadius : α
  focusColor : String
  blurColor : String
  scopePalette : List String
  /-- Whether the boxes of the layout are drawn over the graph. -/
  debugLayout : Bool
  looks : Looks α

/-- All that the sizes of claims depend on. -/
structure TextMetrics (α : Type) where
  scale : α
  padding : α
  fontSize : α
  lineHeight : α
  fontFamily : String

namespace TextMetrics

variable {α : Type} [Scalar α]

/-- Whether sizes measured under one style hold under the other. -/
def agree (a b : TextMetrics α) : Bool :=
  Scalar.beq a.scale b.scale && Scalar.beq a.padding b.padding && Scalar.beq a.fontSize b.fontSize
    && Scalar.beq a.lineHeight b.lineHeight && a.fontFamily == b.fontFamily

end TextMetrics

namespace Looks

variable {α : Type}

/-- The border colour of a claim: that of its scope, as long as there are colours left. -/
def borderOf (theme : Theme α) (claim : Claim α) (palette : ScopePalette) : String × ScopePalette :=
  let own := if claim.metadata.assumption then theme.assumptionColor else theme.borderColor
  match claim.metadata.scope with
  | none => (own, palette)
  | some scope =>
    let (color, palette) := palette.colorFor scope
    (color.getD own, palette)

def ofTheme (theme : Theme α) : Looks α where
  background _ := theme.claimBackground
  fontColor claim := if claim.metadata.assumption then theme.assumptionColor else theme.textColor
  fontStyle claim := if claim.metadata.assumption then theme.assumptionFontStyle else ""
  border := borderOf theme
  line relation := if relation.metadata.assumption then theme.assumptionColor else theme.lineColor

end Looks

namespace Style

variable {α : Type}

def ofTheme (theme : Theme α) (scale : α) : Style α where
  scale := scale
  padding := theme.claimPadding
  fontSize := theme.fontSize
  lineHeight := theme.lineHeight
  fontFamily := theme.fontFamily
  arrowRadius := theme.arrowRadius
  focusColor := theme.focusColor
  blurColor := theme.blurColor
  scopePalette := theme.scopePalette
  debugLayout := false
  looks := .ofTheme theme

/-- A palette none of whose colours is used. -/
def palette (s : Style α) : ScopePalette := .ofColors s.scopePalette

def textMetrics (s : Style α) : TextMetrics α :=
  ⟨s.scale, s.padding, s.fontSize, s.lineHeight, s.fontFamily⟩

/-- The numbers of a style on one line. -/
def summary [WrittenScalar α] (s : Style α) : String :=
  "Style \x7b scale: " ++ WrittenScalar.tagged s.scale
    ++ ", padding: " ++ WrittenScalar.tagged s.padding
    ++ ", font_size: " ++ WrittenScalar.tagged s.fontSize
    ++ ", line_height: " ++ WrittenScalar.tagged s.lineHeight
    ++ ", font_family: " ++ Text.Quoted.quote s.fontFamily
    ++ ", arrow_radius: " ++ WrittenScalar.tagged s.arrowRadius
    ++ ", debug_layout: " ++ toString s.debugLayout ++ ", .. \x7d"

end Style

end ArgumentDiagram
