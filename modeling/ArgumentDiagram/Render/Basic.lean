import ArgumentDiagram.Canvas.Basic
import ArgumentDiagram.Payload.Load
import ArgumentDiagram.Script.Load

/-!
Pictures in one step: a payload or a script is loaded into an empty canvas, laid out, fitted and drawn.
-/

namespace ArgumentDiagram

structure RenderOptions (α : Type) where
  config : Config α
  measure : TextMeasure
  debugLayout : Bool

inductive RenderError where
  | malformedPayload
  | graph (cause : GraphError)

namespace RenderOptions

variable {α : Type} [Scalar α]

def classic (measure : TextMeasure) : RenderOptions α := ⟨.standard, measure, false⟩

def modern (measure : TextMeasure) : RenderOptions α := ⟨.ofTheme .modern, measure, false⟩

def style (o : RenderOptions α) : Style α := { o.config.style with debugLayout := o.debugLayout }

/-- An empty canvas of the configured size. -/
def canvas (o : RenderOptions α) : Canvas α :=
  let render := o.config.render
  let surface : Surface α := (Surface.blank 0 0 o.measure).withBackground render.background
  (Canvas.create surface ⟨render.width, render.height⟩ o.style).withSettings o.config.layout

end RenderOptions

namespace Canvas

variable {α : Type} [Scalar α]

/-- The canvas with a loaded graph laid out. -/
def laidOut (c : Canvas α) (g : Graph α) : Except GraphError (Canvas α) :=
  match (c.editGraph fun _ => g).applyLayout with
  | (.ok (), c) => .ok c
  | (.error e, _) => .error e

/-- The drawing of a payload, with the padding above it. -/
def ofPayload (payload : Payload) (o : RenderOptions α) : Except GraphError (Canvas α) := do
  let c := o.canvas
  let (_, g) ← payload.load c.graph
  let c ← c.laidOut g
  pure (c.fitVertically o.config.render.padding).draw

/-- The drawing of a script, with the padding on all sides. -/
def ofScript (script : Script) (o : RenderOptions α) : Except GraphError (Canvas α) := do
  let c := o.canvas
  let (_, g) ← script.load c.graph
  let c ← c.laidOut g
  pure (c.fit o.config.render.padding).draw

end Canvas

/-- What a text to be drawn holds. -/
inductive SourceFormat where
  | payload
  | script
deriving DecidableEq

namespace SourceFormat

variable {α : Type} [Scalar α]

/-- The drawing of a text. -/
def canvas (format : SourceFormat) (text : String) (o : RenderOptions α) :
    Except RenderError (Canvas α) :=
  match format with
  | .payload =>
    match Payload.ofText? text with
    | none => .error .malformedPayload
    | some found => (Canvas.ofPayload found o).mapError .graph
  | .script => (Canvas.ofScript (.ofText text) o).mapError .graph

/-- The markup of the drawing of a text. -/
def markup [WrittenScalar α] (format : SourceFormat) (text : String) (o : RenderOptions α) :
    Except RenderError String :=
  (format.canvas text o).map (·.surface.markup)

end SourceFormat

end ArgumentDiagram
