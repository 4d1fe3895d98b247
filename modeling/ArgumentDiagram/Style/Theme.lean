/-!
Themes: the colours, fonts and sizes a picture is drawn with, and the two built-in ones.
-/

namespace ArgumentDiagram

structure Theme (α : Type) where
  fontFamily : String
  fontSize : α
  lineHeight : α
  claimPadding : α
  claimBackground : String
  textColor : String
  borderColor : String
  /-- Colour of the text, border and lines of assumptions. -/
  assumptionColor : String
  assumptionFontStyle : String
  lineColor : String
  arrowRadius : α
  focusColor : String
  blurColor : String
  background : String
  scopePalette : List String
deriving DecidableEq

namespace Theme

/-- Border colours of scopes, given out from the end. -/
def scopeColors : List String :=
  ["#ff0000", "#ffee00", "#5395a6", "#40002b", "#f20000", "#7f7920", "#6c98d9", "#d9a3bf",
    "#e58273", "#807d60", "#3d3df2", "#ff408c", "#ff8c40", "#5ccc33", "#110080", "#8c2331",
    "#e6c3ac", "#004d29", "#282633", "#593c00", "#00bf99", "#b32daa"]

variable {α : Type} [OfScientific α]

def classic : Theme α where
  fontFamily := "sans-serif"
  fontSize := 13.0
  lineHeight := 16.0
  claimPadding := 5.0
  claimBackground := "white"
  textColor := "black"
  borderColor := "black"
  assumptionColor := "#ccc"
  assumptionFontStyle := "italic"
  lineColor := "black"
  arrowRadius := 5.0
  focusColor := "blue"
  blurColor := "gray"
  background := "#FFFFFF"
  scopePalette := scopeColors

def modern : Theme α where
  fontFamily := "Inter, Segoe UI, system-ui, -apple-system, sans-serif"
  fontSize := 13.0
  lineHeight := 17.0
  claimPadding := 8.0
  claimBackground := "#F8FAFF"
  textColor := "#1C2430"
  borderColor := "#7A8AA6"
  assumptionColor := "#B8C2D3"
  assumptionFontStyle := "italic"
  lineColor := "#7A8AA6"
  arrowRadius := 5.0
  focusColor := "#2F6FEB"
  blurColor := "#9AA5B8"
  background := "#FFFFFF"
  scopePalette := scopeColors

/-- A built-in theme by name. -/
def named? : String → Option (Theme α)
  | "modern" => some modern
  | "classic" | "default" => some classic
  | _ => none

end Theme

end ArgumentDiagram
