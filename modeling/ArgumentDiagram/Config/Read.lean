import ArgumentDiagram.Config.Basic
import ArgumentDiagram.Json.Record
import ArgumentDiagram.Json.Strict

/-!
Reading configurations. Whatever a document leaves out stays as it is; all of it has to have the right form
before any of it is looked at.
-/

namespace ArgumentDiagram

inductive ConfigError where
  | malformed
  | unknownTheme (name : String)
  | scaleNotPositive (scale : Float32)

namespace ConfigError

/-- What is wrong, where there is more to say than that the document is malformed. -/
def message? : ConfigError → Option String
  | .malformed => none
  | .unknownTheme name => some ("unknown theme '" ++ name ++ "'")
  | .scaleNotPositive scale =>
    some ("scale must be positive, got " ++ WrittenScalar.plain scale)

end ConfigError

open Json

/-- What a document may say about the theme. -/
structure ThemeChanges where
  fontFamily : Option String
  fontSize : Option Float32
  lineHeight : Option Float32
  padding : Option Float32
  background : Option String
  claimBackground : Option String
  textColor : Option String
  borderColor : Option String
  assumptionColor : Option String
  assumptionFontStyle : Option String
  lineColor : Option String
  arrowRadius : Option Float32
  focusColor : Option String
  blurColor : Option String
  scopePalette : Option (List String)

/-- What a document may say about the layout. -/
structure LayoutChanges where
  horizontalSpacing : Option Float32
  verticalSpacing : Option Float32
  origin : Option (Point Float32)
  relationSpacer : Option (Size Float32)
  leafSpacer : Option (Size Float32)

/-- What a document may say. -/
structure ConfigChanges where
  theme : Option String
  themeChanges : Option ThemeChanges
  layout : Option LayoutChanges
  scale : Option Float32
  padding : Option Float32
  width : Option Float32
  height : Option Float32

namespace ThemeChanges

def ofNode? (node : Node) : Option ThemeChanges := do
  let names := ["fontFamily", "fontSize", "lineHeight", "padding", "backgroundColor",
    "claimBackground", "textColor", "borderColor", "assumptionColor", "assumptionFontStyle",
    "lineColor", "arrowRadius", "focusColor", "blurColor", "scopePalette"]
  let r ← node.record? names names.length
  pure {
    fontFamily := ← r.optional "fontFamily" Node.asText?
    fontSize := ← r.optional "fontSize" Node.asSingle?
    lineHeight := ← r.optional "lineHeight" Node.asSingle?
    padding := ← r.optional "padding" Node.asSingle?
    background := ← r.optional "backgroundColor" Node.asText?
    claimBackground := ← r.optional "claimBackground" Node.asText?
    textColor := ← r.optional "textColor" Node.asText?
    borderColor := ← r.optional "borderColor" Node.asText?
    assumptionColor := ← r.optional "assumptionColor" Node.asText?
    assumptionFontStyle := ← r.optional "assumptionFontStyle" Node.asText?
    lineColor := ← r.optional "lineColor" Node.asText?
    arrowRadius := ← r.optional "arrowRadius" Node.asSingle?
    focusColor := ← r.optional "focusColor" Node.asText?
    blurColor := ← r.optional "blurColor" Node.asText?
    scopePalette := ← r.optional "scopePalette" (Node.asList? Node.asText?) }

/-- The theme with what is said about it; a background colour is also that of the picture. -/
def apply (c : ThemeChanges) (theme : Theme Float32) : Theme Float32 where
  fontFamily := c.fontFamily.getD theme.fontFamily
  fontSize := c.fontSize.getD theme.fontSize
  lineHeight := c.lineHeight.getD theme.lineHeight
  claimPadding := c.padding.getD theme.claimPadding
  claimBackground := c.claimBackground.getD theme.claimBackground
  textColor := c.textColor.getD theme.textColor
  borderColor := c.borderColor.getD theme.borderColor
  assumptionColor := c.assumptionColor.getD theme.assumptionColor
  assumptionFontStyle := c.assumptionFontStyle.getD theme.assumptionFontStyle
  lineColor := c.lineColor.getD theme.lineColor
  arrowRadius := c.arrowRadius.getD theme.arrowRadius
  focusColor := c.focusColor.getD theme.focusColor
  blurColor := c.blurColor.getD theme.blurColor
  background := c.background.getD theme.background
  scopePalette := c.scopePalette.getD theme.scopePalette

end ThemeChanges

namespace LayoutChanges

def size? (node : Node) : Option (Size Float32) := do
  let r ← node.record? ["width", "height"] 2
  pure ⟨← r.required "width" Node.asSingle?, ← r.required "height" Node.asSingle?⟩

def point? (node : Node) : Option (Point Float32) := do
  match ← node.asList? Node.asSingle? with
  | [x, y] => some ⟨x, y⟩
  | _ => none

def ofNode? (node : Node) : Option LayoutChanges := do
  let names := ["horizontalSpacing", "verticalSpacing", "origin", "relationSpacer", "leafSpacer"]
  let r ← node.record? names names.length
  pure {
    horizontalSpacing := ← r.optional "horizontalSpacing" Node.asSingle?
    verticalSpacing := ← r.optional "verticalSpacing" Node.asSingle?
    origin := ← r.optional "origin" point?
    relationSpacer := ← r.optional "relationSpacer" size?
    leafSpacer := ← r.optional "leafSpacer" size? }

def apply (c : LayoutChanges) (layout : LayoutSettings Float32) : LayoutSettings Float32 where
  horizontalSpacing := c.horizontalSpacing.getD layout.horizontalSpacing
  verticalSpacing := c.verticalSpacing.getD layout.verticalSpacing
  origin := c.origin.getD layout.origin
  relationSpacer := c.relationSpacer.getD layout.relationSpacer
  leafSpacer := c.leafSpacer.getD layout.leafSpacer

end LayoutChanges

namespace ConfigChanges

def ofNode? (node : Node) : Option ConfigChanges := do
  let names := ["theme", "themeVariables", "layout", "scale", "padding", "width", "height"]
  let r ← node.record? names names.length
  pure {
    theme := ← r.optional "theme" Node.asText?
    themeChanges := ← r.optional "themeVariables" ThemeChanges.ofNode?
    layout := ← r.optional "layout" LayoutChanges.ofNode?
    scale := ← r.optional "scale" Node.asSingle?
    padding := ← r.optional "padding" Node.asSingle?
    width := ← r.optional "width" Node.asSingle?
    height := ← r.optional "height" Node.asSingle? }

/-- The theme that a document starts from. -/
def baseTheme (c : ConfigChanges) : Except ConfigError (Theme Float32) :=
  match c.theme with
  | none => .ok .classic
  | some name => (Theme.named? name).elim (.error (.unknownTheme name)) .ok

/-- The scale that a document asks for. -/
def checkedScale (c : ConfigChanges) : Except ConfigError (Option Float32) :=
  match c.scale with
  | none => .ok none
  | some scale => if Scalar.lt 0.0 scale then .ok (some scale) else .error (.scaleNotPositive scale)

def apply (c : ConfigChanges) : Except ConfigError (Config Float32) := do
  let base ← c.baseTheme
  let scale ← c.checkedScale
  let theme := c.themeChanges.elim base (·.apply base)
  let config := Config.ofTheme theme
  pure { config with
    layout := c.layout.elim config.layout (·.apply config.layout)
    render := { config.render with
      width := c.width.getD config.render.width
      height := c.height.getD config.render.height
      scale := scale.getD config.render.scale
      padding := c.padding.getD config.render.padding } }

end ConfigChanges

namespace Config

/-- The configuration that a text holds. -/
def ofText (text : String) : Except ConfigError (Config Float32) :=
  match (Strict.dialect.document text).bind ConfigChanges.ofNode? with
  | none => .error .malformed
  | some changes => changes.apply

end Config

end ArgumentDiagram
