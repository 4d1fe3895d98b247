import ArgumentDiagram.Config.Basic
import ArgumentDiagram.Drawing.Scene
import ArgumentDiagram.Events.Bus
import ArgumentDiagram.Graph.Delete
import ArgumentDiagram.Layout.Build
import ArgumentDiagram.Surface.Basic

/-!
Canvases: a graph on a surface, with a selection. Changes ask for a new frame, and any number of them
before that frame make one drawing.
-/

namespace ArgumentDiagram

inductive CanvasEvent where
  | draw (width height : Nat)
  | drop (claims : List ClaimId)
deriving DecidableEq

inductive Cursor where
  | normal
  | pointer
deriving DecidableEq

/-- A pointer held down: where it went down, and whether it has moved far enough to drag. The two are recorded
together when it goes down and given up together when it comes up, so a canvas holds them in one option: with
none there is neither a start nor a drag, and a drag without a start is no state of a canvas. -/
structure Press (α : Type) where
  start : Point α
  dragging : Bool

inductive Interaction where
  | idle
  | pressed
  | dragging
deriving DecidableEq

structure Canvas (α : Type) where
  graph : Graph α
  surface : Surface α
  style : Style α
  palette : ScopePalette
  settings : LayoutSettings α
  /-- Size of what the canvas stands in. -/
  container : Size α
  focused : Bool
  cursor : Cursor
  /-- In the order of selection. -/
  selected : List ClaimId
  press : Option (Press α)
  frameRequested : Bool
  /-- The boxes of the last layout. -/
  outline : Option (Outline α)
  events : EventBus CanvasEvent

namespace Canvas

/-- Fired after every drawing. -/
def drawEvent : String := "draw"

/-- Fired when a drag ends. -/
def dropEvent : String := "drop"

variable {α : Type}

/-- Asks for a new frame. -/
def update (c : Canvas α) : Canvas α := { c with frameRequested := true }

def interaction (c : Canvas α) : Interaction :=
  match c.press with
  | none => .idle
  | some press => if press.dragging then .dragging else .pressed

def setFocus (c : Canvas α) (focused : Bool) : Canvas α :=
  if c.focused = focused then c else { c with focused := focused }.update

/-- Follows the container to a new size. -/
def resize (c : Canvas α) (size : Size α) : Canvas α := { c with container := size }.update

def withSettings (c : Canvas α) (settings : LayoutSettings α) : Canvas α :=
  { c with settings := settings }

/-- Works on the graph itself. -/
def editGraph (c : Canvas α) (f : Graph α → Graph α) : Canvas α :=
  { c with graph := f c.graph }.update

def on (c : Canvas α) (name : String) : ListenerId × Canvas α :=
  let (id, events) := c.events.on name
  (id, { c with events := events })

def off (c : Canvas α) (name : String) (id : ListenerId) : Bool × Canvas α :=
  let (found, events) := c.events.off name id
  (found, { c with events := events })

def fire (c : Canvas α) (name : String) (event : CanvasEvent) : Nat × Canvas α :=
  let (called, events) := c.events.fire name event
  (called, { c with events := events })

/-- Deletes an entity and all that depends on it, also from the selection. -/
def delete (c : Canvas α) (entity : Entity) : Deleted × Canvas α :=
  let (deleted, graph) := c.graph.delete entity
  (deleted, { c with
    graph := graph
    selected := c.selected.filter (!deleted.claims.contains ·) }.update)

variable [Scalar α]

/-- Makes the surface as large as the container and the claims on it need. -/
def fitSurface (c : Canvas α) : Canvas α :=
  let extent := c.graph.extent
  let pixels (content room : α) := Scalar.pixels (c.style.scale * Scalar.max content room)
  let width := pixels extent.width c.container.width
  let height := pixels extent.height c.container.height
  { c with surface := c.surface.resize width height }

/-- An empty canvas. -/
def create (surface : Surface α) (container : Size α) (style : Style α) : Canvas α :=
  fitSurface {
    graph := .empty
    surface := surface
    style := style
    palette := style.palette
    settings := .standard
    container := container
    focused := false
    cursor := .normal
    selected := []
    press := none
    frameRequested := false
    outline := none
    events := .empty }

def addClaim (c : Canvas α) (text : String) (metadata : Metadata) : ClaimId × Canvas α :=
  let (id, graph) := c.graph.addClaim text metadata
  (id, { c with graph := graph }.update)

def addRelation (c : Canvas α) (sources : List ClaimId) (target : Entity)
    (kind : Option RelationKind) (metadata : Metadata) :
    Except GraphError (Option RelationId × Canvas α) := do
  match ← c.graph.addRelation sources target kind metadata with
  | (some id, graph) => pure (some id, { c with graph := graph }.update)
  | (none, _) => pure (none, c)

/-- The size of a claim with the given lines: the widest line and all line heights, inside the padding. -/
def textSize (surface : Surface α) (style : Style α) (lines : List String) : Size α :=
  let font : Font α := ⟨"", style.scale * style.fontSize, style.fontFamily⟩
  let widest := (lines.map (surface.measureText · font)).foldl Scalar.max 0.0
  ⟨widest / style.scale + 2.0 * style.padding,
    Scalar.count lines.length * style.lineHeight + 2.0 * style.padding⟩

/-- Measures the claims that have no size yet. -/
def measureClaims (c : Canvas α) : Nat × Canvas α :=
  let (count, graph) := c.graph.measureClaims (textSize c.surface c.style)
  (count, { c with graph := graph })

/-- Changes the style. Sizes are forgotten if they depend on what has changed, and scopes get new colours
if there is a new palette. -/
def updateStyle (c : Canvas α) (edit : Style α → Style α) : Canvas α :=
  let style := edit c.style
  let graph := if style.textMetrics.agree c.style.textMetrics then c.graph else c.graph.forgetSizes.2
  let palette := if style.scopePalette = c.style.scopePalette then c.palette else style.palette
  { c with style := style, graph := graph, palette := palette }.update

def setStyle (c : Canvas α) (style : Style α) : Canvas α := c.updateStyle fun _ => style

/-- The layout of the graph, all claims being measured first. -/
def layout (c : Canvas α) : Except GraphError (Layout α) × Canvas α :=
  let c := c.measureClaims.2
  (Layout.build c.graph c.settings, c)

/-- Moves the claims to their places in the layout. -/
def applyLayout (c : Canvas α) : Except GraphError Unit × Canvas α :=
  match c.layout with
  | (.ok layout, c) =>
    (.ok (), { c with graph := layout.apply c.graph, outline := some layout.outline }.update)
  | (.error e, c) => (.error e, c)

/-- Moves all claims so that the leftmost and the topmost start at the padding, and makes the container as
large as they need. -/
def fit (c : Canvas α) (padding : α) : Canvas α :=
  match c.graph.bounds with
  | none => c
  | some bounds =>
    let graph := c.graph.updateAll fun claim =>
      let p := claim.placement
      p.moveTo ⟨p.x - bounds.x + padding, p.y - bounds.y + padding⟩
    let c := { c with graph := graph }
    let extent := c.graph.extent
    c.resize ⟨padding + extent.width, padding + extent.height⟩

/-- As `fit`, but up and down only, and with the padding above in device pixels. -/
def fitVertically (c : Canvas α) (padding : α) : Canvas α :=
  match c.graph.bounds with
  | none => c
  | some bounds =>
    let above := padding * c.style.scale
    let graph := c.graph.updateAll fun claim =>
      let p := claim.placement
      p.moveTo ⟨p.x, p.y - bounds.y + above⟩
    let c := { c with graph := graph }
    c.resize ⟨c.container.width, padding + c.graph.extent.height⟩

def scene (c : Canvas α) : Scene α := ⟨c.graph, c.style, c.selected, c.focused, c.outline⟩

/-- Measures, clears and paints, and tells the listeners. -/
def draw (c : Canvas α) : Canvas α :=
  let c := c.measureClaims.2.fitSurface
  let (elements, palette) := c.scene.elements c.palette
  let c := { c with
    surface := c.surface.clear.drawAll elements
    palette := palette
    frameRequested := false }
  (c.fire drawEvent (.draw c.surface.width c.surface.height)).2

/-- Draws if a frame was asked for, and says whether it did. -/
def frame (c : Canvas α) : Bool × Canvas α :=
  if c.frameRequested then (true, c.draw) else (false, c)

/-- The first claim whose box holds a point. -/
def claimAt (c : Canvas α) (point : Point α) : Option ClaimId :=
  (c.graph.claims.values.find? (·.rect.contains point)).map (·.id)

end Canvas

end ArgumentDiagram
