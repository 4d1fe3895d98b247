import ArgumentDiagram.Graph.Query
import ArgumentDiagram.Layout.Outline
import ArgumentDiagram.Style.Basic
import ArgumentDiagram.Surface.Element

/-!
What a frame shows: relations, over them the claims, over these the outlines of selected claims, and on top
the boxes of the layout if the style asks for them.
-/

namespace ArgumentDiagram

/-- Everything that a frame is drawn from. -/
structure Scene (α : Type) where
  graph : Graph α
  style : Style α
  selection : List ClaimId
  focused : Bool
  outline : Option (Outline α)

namespace Scene

variable {α : Type} [Scalar α]

/-- The two ends of a relation's line, on the borders of the boxes it joins. -/
def ends? (s : Scene α) (r : Relation) : Option (Point α × Point α) := do
  let source ← s.graph.boxOf (.claim r.source)
  let target ← s.graph.boxOf r.target
  pure ((target.attachment source).scaled s.style.scale,
    (source.attachment target).scaled s.style.scale)

/-- A line between two points with the mark of its kind at the end. -/
def arrow (style : Style α) (kind : Option RelationKind) (color : String) (start tip : Point α) :
    List (Element α) :=
  let scale := style.scale
  let radius := scale * style.arrowRadius
  match kind with
  | none => [.strokePath (.line start tip) color scale]
  | some .support =>
    [.strokePath (.line start (Path.retractedEnd radius start tip)) color scale,
      .fillPath (.arrow radius start tip) color]
  | some .attack =>
    [.strokePath (.line start (Path.retractedEnd radius start tip)) color scale,
      .strokePath (.cross (0.75 * scale * style.arrowRadius) start tip) color (2.0 * scale)]

def relationElements (s : Scene α) : List (Element α) :=
  s.graph.relations.values.flatMap fun r =>
    match s.ends? r with
    | none => []
    | some (start, tip) => arrow s.style r.kind (s.style.looks.line r) start tip

/-- Claims in the order they are painted: those that are not selected, and then the selection, so that
what was selected last is on top. -/
def paintOrder (graph : Graph α) (selection : List ClaimId) : List ClaimId :=
  graph.claimIds.filter (!selection.contains ·) ++ selection.filter fun id => (graph.claim? id).isSome

def fontOf (style : Style α) (claim : Claim α) : Font α :=
  ⟨style.looks.fontStyle claim, style.scale * style.fontSize, style.fontFamily⟩

/-- Where the baseline of a line of text starts; lines are counted from zero. -/
def baseline (style : Style α) (claim : Claim α) (line : Nat) : Point α :=
  ⟨style.scale * (claim.placement.x + style.padding),
    style.scale * (claim.placement.y + style.padding / 2.0
      + Scalar.count (line + 1) * style.lineHeight)⟩

def textElements (style : Style α) (claim : Claim α) : List (Element α) :=
  claim.text.zipIdx.map fun (content, line) =>
    .text content (baseline style claim line) (fontOf style claim) (style.looks.fontColor claim)

/-- A claim: its box, its border and its lines of text. -/
def claimElements (style : Style α) (claim : Claim α) (palette : ScopePalette) :
    List (Element α) × ScopePalette :=
  let rect := claim.rect.scaled style.scale
  let (border, palette) := style.looks.border claim palette
  (.fillRect rect (style.looks.background claim) :: .strokeRect rect border style.scale
    :: textElements style claim, palette)

/-- Claims one after the other, each with the palette that the one before left. -/
def claimsElements (style : Style α) : List (Claim α) → ScopePalette → List (Element α) × ScopePalette
  | [], palette => ([], palette)
  | claim :: rest, palette =>
    let (first, palette) := claimElements style claim palette
    let (others, palette) := claimsElements style rest palette
    (first ++ others, palette)

def selectionElements (s : Scene α) : List (Element α) :=
  let color := if s.focused then s.style.focusColor else s.style.blurColor
  (s.selection.filterMap s.graph.claim?).map fun claim =>
    .strokeRect ((claim.rect.inflate 2.0).scaled s.style.scale) color (3.0 * s.style.scale)

/-- A box of the layout. Containers are drawn smaller the deeper they are nested. -/
def outlineElement (scale : α) (box : PlacedBox α) : Element α :=
  match box.kind with
  | .container direction =>
    let inset := 2.0 * Scalar.count box.depth
    let rect : Rect α := ⟨box.rect.x + inset, box.rect.y + inset,
      box.rect.width - 2.0 * inset, box.rect.height - 2.0 * inset⟩
    let color := match direction with
      | .horizontal => "red"
      | .vertical => "green"
    .strokeRect (rect.scaled scale) color scale
  | .spacer => .fillRect (box.rect.scaled scale) "rgba(255, 0, 255, 0.5)"
  | .claim _ => .fillRect (box.rect.scaled scale) "rgba(255, 255, 0, 0.5)"

def outlineElements (s : Scene α) : List (Element α) :=
  if s.style.debugLayout then (s.outline.getD []).map (outlineElement s.style.scale) else []

/-- Everything a frame shows, and the palette that is left. -/
def elements (s : Scene α) (palette : ScopePalette) : List (Element α) × ScopePalette :=
  let claims := (paintOrder s.graph s.selection).filterMap s.graph.claim?
  let (painted, palette) := claimsElements s.style claims palette
  (s.relationElements ++ painted ++ s.selectionElements ++ s.outlineElements, palette)

end Scene

end ArgumentDiagram
