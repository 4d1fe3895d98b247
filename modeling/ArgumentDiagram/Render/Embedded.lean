import ArgumentDiagram.Config.Read
import ArgumentDiagram.Render.Basic

/-!
Pictures for pages that embed them. The few options come as a document; what is out of range is passed over.
-/

namespace ArgumentDiagram

structure EmbeddedOptions where
  theme : Option String
  fontFamily : Option String
  fontSize : Option Float32
  scale : Option Float32
  padding : Option Float32
  fastText : Option Bool
  debugLayout : Option Bool

namespace EmbeddedOptions

open Json

def none : EmbeddedOptions := ⟨.none, .none, .none, .none, .none, .none, .none⟩

def ofNode? (node : Node) : Option EmbeddedOptions := do
  let names := ["theme", "fontFamily", "fontSize", "scale", "padding", "fastText", "debugLayout"]
  let r ← node.record? names names.length
  pure {
    theme := ← r.optional "theme" Node.asText?
    fontFamily := ← r.optional "fontFamily" Node.asText?
    fontSize := ← r.optional "fontSize" Node.asSingle?
    scale := ← r.optional "scale" Node.asSingle?
    padding := ← r.optional "padding" Node.asSingle?
    fastText := ← r.optional "fastText" Node.asBool?
    debugLayout := ← r.optional "debugLayout" Node.asBool? }

/-- The options that a text holds, or none if there is no text. -/
def ofText? : Option String → Option EmbeddedOptions
  | .none => some none
  | some text => (Strict.dialect.document text).bind ofNode?

/-- Text is measured by the estimate unless fonts are asked for, and a scale counts only if it is positive. -/
def renderOptions (e : EmbeddedOptions) (fonts : FontBook) : RenderOptions Float32 :=
  let base : Theme Float32 := if e.theme = some "modern" then .modern else .classic
  let theme := { base with
    fontFamily := e.fontFamily.getD base.fontFamily
    fontSize := e.fontSize.getD base.fontSize }
  let config := Config.ofTheme theme
  { config := { config with
      render := { config.render with
        scale := (e.scale.filter (Scalar.lt 0.0)).getD config.render.scale
        padding := e.padding.getD config.render.padding } }
    measure := if e.fastText.getD true then .estimate else .fonts fonts
    debugLayout := e.debugLayout.getD false }

end EmbeddedOptions

end ArgumentDiagram
