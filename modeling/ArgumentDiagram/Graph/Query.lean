import ArgumentDiagram.Geometry.Attachment
import ArgumentDiagram.Graph.Basic

/-!
Questions to a graph: roots, relations by their ends, and where its claims and relations are. A relation
lies half way between its source and its target.
-/

namespace ArgumentDiagram

/-- A pattern for relations; an absent field matches anything. -/
structure RelationFilter where
  source : Option ClaimId
  target : Option Entity
  kind : Option RelationKind

namespace RelationFilter

def matchesRelation (f : RelationFilter) (r : Relation) : Bool :=
  f.source.all (r.source = ·) && f.target.all (r.target = ·) && f.kind.all (r.kind = some ·)

end RelationFilter

namespace Graph

variable {α : Type}

def claimIds (g : Graph α) : List ClaimId := g.claims.keys

/-- The claims that are no relation's source. -/
def rootClaims (g : Graph α) : List ClaimId :=
  g.claimIds.filter fun id => !g.relations.values.any (·.source = id)

/-- The relations that match any of the filters. -/
def findRelations (g : Graph α) (filters : List RelationFilter) : List RelationId :=
  (g.relations.values.filter fun r => filters.any (·.matchesRelation r)).map (·.id)

/-- The relations that point at an entity. -/
def incoming (g : Graph α) (target : Entity) : List RelationId :=
  (g.relations.values.filter (·.target = target)).map (·.id)

variable [Scalar α]

/-- The point of a relation, half way between the point of its source and that of its target. A target
relation is always older than the relation that points at it. -/
def relationPoint (g : Graph α) (ofClaim : Claim α → Point α) (id : RelationId) : Option (Point α) := do
  let r ← g.relation? id
  let source ← (g.claim? r.source).map ofClaim
  let target ← match r.target with
    | .claim target => (g.claim? target).map ofClaim
    | .relation target =>
      if target.index < id.index then g.relationPoint ofClaim target else none
  pure (source.midpoint target)
termination_by id.index

/-- The point of a claim or relation, given that of each claim. -/
def pointOf (g : Graph α) (ofClaim : Claim α → Point α) : Entity → Option (Point α)
  | .claim id => (g.claim? id).map ofClaim
  | .relation id => g.relationPoint ofClaim id

/-- The top-left corner of a claim, or the point of a relation between such corners. -/
def position (g : Graph α) (entity : Entity) : Option (Point α) :=
  g.pointOf (·.placement.position) entity

def center (g : Graph α) (entity : Entity) : Option (Point α) := g.pointOf Claim.center entity

/-- The box that lines are attached to: a claim's own, or a unit box around a relation's center. -/
def boxOf (g : Graph α) : Entity → Option (CenteredBox α)
  | .claim id => (g.claim? id).map fun c => ⟨c.center, c.rect.width, c.rect.height⟩
  | .relation id => (g.center (.relation id)).map (⟨·, 1.0, 1.0⟩)

/-- The smallest rectangle around all claims. -/
def bounds (g : Graph α) : Option (Rect α) := Rect.hull (g.claims.values.map Claim.rect)

/-- How far the claims reach to the right and down. -/
def extent (g : Graph α) : Size α :=
  match g.bounds with
  | some r => ⟨r.right, r.bottom⟩
  | none => ⟨0.0, 0.0⟩

end Graph

end ArgumentDiagram
