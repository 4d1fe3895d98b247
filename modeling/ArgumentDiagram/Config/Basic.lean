import ArgumentDiagram.Layout.Settings
import ArgumentDiagram.Style.Basic

/-!
Everything that can be configured, with what holds when nothing is.
-/

namespace ArgumentDiagram

structure RenderSettings (α : Type) where
  width : α
  height : α
  scale : α
  /-- Room around the picture. -/
  padding : α
  background : String

structure Config (α : Type) where
  theme : Theme α
  layout : LayoutSettings α
  render : RenderSettings α

namespace Config

variable {α : Type} [Scalar α]

/-- A theme with everything else as it is when nothing is configured. -/
def ofTheme (theme : Theme α) : Config α where
  theme := theme
  layout := .standard
  render := ⟨0.0, 0.0, 1.0, 10.0, theme.background⟩

def standard : Config α := ofTheme .classic

def style (c : Config α) : Style α := .ofTheme c.theme c.render.scale

end Config

end ArgumentDiagram
