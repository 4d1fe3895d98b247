import ArgumentDiagram.Geometry.Rect
import ArgumentDiagram.Graph.Entity
import ArgumentDiagram.Json.Value
import ArgumentDiagram.Table.Basic
import ArgumentDiagram.Text.Pieces

/-!
Claims and relations. Where a claim stands and how large it is, its `Placement`, is kept apart from what it
says: measuring, laying out and dragging change nothing else.
-/

namespace ArgumentDiagram

inductive RelationKind where
  | support
  | attack
deriving DecidableEq

namespace RelationKind

def name : RelationKind → String
  | .support => "support"
  | .attack => "attack"

def named? : String → Option RelationKind
  | "support" => some .support
  | "attack" => some .attack
  | _ => none

end RelationKind

/-- What is noted about a claim or relation. Only the first three notes are interpreted. -/
structure Metadata where
  assumption : Bool
  scope : Option String
  /-- Whether several sources were joined into the relation. -/
  merged : Bool
  extra : Table String Json.Value

namespace Metadata

def plain : Metadata := ⟨false, none, false, .empty⟩

def ofAssumption (assumption : Bool) : Metadata := { plain with assumption := assumption }

end Metadata

/-- Where a claim stands and how large it is. Its effective position is the anchor moved by the offset of
a drag in progress. -/
structure Placement (α : Type) where
  anchor : Point α
  offset : Point α
  width : Option α
  height : Option α
deriving DecidableEq

namespace Placement

variable {α : Type} [Scalar α]

/-- At the origin, and not measured. -/
def initial : Placement α := ⟨⟨0.0, 0.0⟩, ⟨0.0, 0.0⟩, none, none⟩

def x (p : Placement α) : α := p.anchor.x + p.offset.x

def y (p : Placement α) : α := p.anchor.y + p.offset.y

def position (p : Placement α) : Point α := ⟨p.x, p.y⟩

def size? (p : Placement α) : Option (Size α) :=
  match p.width, p.height with
  | some width, some height => some ⟨width, height⟩
  | _, _ => none

def isMeasured (p : Placement α) : Bool := p.size?.isSome

def measure (p : Placement α) (size : Size α) : Placement α :=
  { p with width := some size.width, height := some size.height }

def forgetSize (p : Placement α) : Placement α := { p with width := none, height := none }

def moveTo (p : Placement α) (anchor : Point α) : Placement α := { p with anchor := anchor }

def moveBy (p : Placement α) (dx dy : α) : Placement α :=
  { p with anchor := ⟨p.anchor.x + dx, p.anchor.y + dy⟩ }

def dragBy (p : Placement α) (dx dy : α) : Placement α := { p with offset := ⟨dx, dy⟩ }

/-- Moves the anchor to the effective position. -/
def commitOffset (p : Placement α) : Placement α :=
  { p with anchor := p.position, offset := ⟨0.0, 0.0⟩ }

/-- The effective box; a size that is not known counts as zero. -/
def rect (p : Placement α) : Rect α := ⟨p.x, p.y, p.width.getD 0.0, p.height.getD 0.0⟩

def center (p : Placement α) : Point α := p.rect.center

end Placement

structure Claim (α : Type) where
  id : ClaimId
  /-- The lines of its text. -/
  text : List String
  metadata : Metadata
  placement : Placement α

/-- An arrow from a claim to a claim or to another relation. -/
structure Relation where
  id : RelationId
  source : ClaimId
  target : Entity
  kind : Option RelationKind
  metadata : Metadata

namespace Claim

/-- The lines of a text, without the line feeds between them. -/
def linesOf (text : String) : List String := (Text.pieces '\n' text.toList).map String.ofList

variable {α : Type} [Scalar α]

def create (id : ClaimId) (text : String) (metadata : Metadata) : Claim α :=
  ⟨id, linesOf text, metadata, .initial⟩

def rect (c : Claim α) : Rect α := c.placement.rect

def center (c : Claim α) : Point α := c.placement.center

def isMeasured (c : Claim α) : Bool := c.placement.isMeasured

end Claim

end ArgumentDiagram
