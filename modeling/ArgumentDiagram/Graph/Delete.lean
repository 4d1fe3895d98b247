import ArgumentDiagram.Graph.Query

/-!
Deletion. What points at something deleted, or starts from a deleted claim, is deleted with it.
-/

namespace ArgumentDiagram

/-- The handles that a deletion removed, in the order they went. -/
structure Deleted where
  claims : List ClaimId
  relations : List RelationId
deriving DecidableEq

namespace Deleted

def none : Deleted := ⟨[], []⟩

end Deleted

namespace Graph

/-- The relations of a table that point at a relation. -/
def pointingAt (relations : Table RelationId Relation) (id : RelationId) : List RelationId :=
  (relations.values.filter (·.target = .relation id)).map (·.id)

/-- Removes the relations of a list, each followed by those that point at it, and gives the order in which
they went and what is left. -/
def cascade (relations : Table RelationId Relation) :
    List RelationId → List RelationId × Table RelationId Relation
  | [] => ([], relations)
  | id :: pending =>
    if _ : relations.contains id = true then
      let rest := relations.erase id
      let (gone, left) := cascade rest (pointingAt rest id ++ pending)
      (id :: gone, left)
    else cascade relations pending
termination_by pending => (relations.size, pending.length)
decreasing_by
  · exact Prod.Lex.left _ _ (Table.size_erase_lt ‹_›)
  · exact Prod.Lex.right _ (Nat.lt_succ_self _)

variable {α : Type}

/-- The relations that start from a claim or point at it. -/
def touching (g : Graph α) (id : ClaimId) : List RelationId :=
  (g.relations.values.filter fun r => r.source = id || r.target = .claim id).map (·.id)

/-- Deletes an entity with everything that depends on it. Nothing changes if it is not live. -/
def delete (g : Graph α) (entity : Entity) : Deleted × Graph α :=
  if g.contains entity then
    match entity with
    | .claim id =>
      let (gone, left) := cascade g.relations (g.touching id)
      (⟨[id], gone⟩, { g with
        claims := g.claims.erase id
        relations := left
        revision := g.revision + 1 })
    | .relation id =>
      let (gone, left) := cascade g.relations [id]
      (⟨[], gone⟩, { g with relations := left, revision := g.revision + 1 })
  else (.none, g)

end Graph

end ArgumentDiagram
